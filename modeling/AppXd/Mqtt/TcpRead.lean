import AppXd.Mqtt.ReadPacket
import AppXd.Mqtt.WireClient

/-!
# Packets over TCP

`tcp_mqtt_read` collects the bytes that it is asked for in as many pieces as the connection gives
them. However a packet is cut, the client reads the same one, as long as the pieces come in time.
-/

namespace AppXd.Mqtt

/-! ## The port -/

/-- What `recv` does: it takes some bytes of those that have come, or it fails. -/
inductive Recv
  | bytes (k : Nat)
  /-- Fatal is any error but `ENOTCONN` and `ECONNRESET`. -/
  | error (fatal : Bool)

/-- What happens in a round of the loop. -/
structure Round where
  /-- What `select` returns. -/
  select : Int
  recv : Recv
  /-- The time that the round has taken. -/
  curTick : UInt32

structure TcpRead where
  stored : List UInt8
  bytes : Int
  /-- What is left of the bytes that the server sends. -/
  stream : List UInt8

namespace TcpRead

/-- What the client sees of it. -/
def answer (r : TcpRead) : ReadAnswer :=
  if r.bytes = -1 then .error r.stored 0 else .bytes r.stored

end TcpRead

/-- The loop of `tcp_mqtt_read`. Behind the last round nothing comes any more. -/
def tcpReadLoop (mlen : Nat) : List Round → UInt32 → List UInt8 → List UInt8 → TcpRead
  | [], _, stored, stream => ⟨stored, stored.length, stream⟩
  | r :: rounds, timeout, stored, stream =>
    if stored.length < mlen then
      let timeout := if timeout = 0 then 1 else timeout
      if r.select < 0 then ⟨stored, -1, stream⟩
      else if r.select = 0 then ⟨stored, stored.length, stream⟩
      else
        match r.recv with
        | .error true => ⟨stored, -1, stream⟩
        | .error false =>
          if timeout ≤ r.curTick then ⟨stored, stored.length, stream⟩
          else tcpReadLoop mlen rounds (timeout - r.curTick) stored stream
        | .bytes k =>
          let rc := min k (mlen - stored.length)
          let stored := stored ++ stream.take rc
          let stream := stream.drop rc
          if mlen ≤ stored.length ∨ timeout ≤ r.curTick then ⟨stored, stored.length, stream⟩
          else tcpReadLoop mlen rounds (timeout - r.curTick) stored stream
    else ⟨stored, stored.length, stream⟩

def tcpMqttRead (rounds : List Round) (timeout : UInt32) (mlen : Nat) (stream : List UInt8) :
    TcpRead :=
  tcpReadLoop mlen rounds timeout [] stream

/-- The answers of the port to calls of these lengths, one after the other. -/
def tcpAnswers (timeout : UInt32) : List (Nat × List Round) → List UInt8 → List ReadAnswer
  | [], _ => []
  | c :: calls, stream =>
    let r := tcpMqttRead c.2 timeout c.1 stream
    r.answer :: tcpAnswers timeout calls r.stream

/-- In every round some bytes come, and all rounds are over in time. -/
structure Timely (timeout : UInt32) (mlen : Nat) (rounds : List Round) : Prop where
  enough : mlen ≤ rounds.length
  select : ∀ r ∈ rounds, 0 < r.select
  recv : ∀ r ∈ rounds, ∃ k, r.recv = .bytes (k + 1)
  time : (rounds.map (·.curTick.toNat)).sum < timeout.toNat

/-! ## Pieces -/

section
variable {timeout : UInt32} {mlen : Nat} {rounds : List Round} {stored stream : List UInt8}

/-- What the loop leaves, whatever the rounds are: no byte is lost, taken twice or moved, and no more
are stored than asked for. -/
structure Kept (mlen : Nat) (sent : List UInt8) (r : TcpRead) : Prop where
  stream : r.stored ++ r.stream = sent
  room : r.stored.length ≤ mlen
  bytes : r.bytes = r.stored.length ∨ r.bytes = -1

theorem tcpReadLoop_kept (rounds : List Round) (timeout : UInt32) (stream : List UInt8)
    (h : stored.length ≤ mlen) :
    Kept mlen (stored ++ stream) (tcpReadLoop mlen rounds timeout stored stream) := by
  have hstop : Kept mlen (stored ++ stream) ⟨stored, stored.length, stream⟩ := ⟨rfl, h, .inl rfl⟩
  have hfail : Kept mlen (stored ++ stream) ⟨stored, -1, stream⟩ := ⟨rfl, h, .inr rfl⟩
  induction rounds generalizing timeout stored stream with
  | nil => exact hstop
  | cons r rounds ih =>
    unfold tcpReadLoop
    generalize (if timeout = 0 then 1 else timeout) = timeout
    simp only
    split
    · split
      · exact hfail
      · split
        · exact hstop
        · cases r.recv with
          | error fatal =>
            cases fatal with
            | true => exact hfail
            | false =>
              simp only
              split
              · exact hstop
              · exact ih _ _ h hstop hfail
          | bytes k =>
            -- The bytes of this round go from the stream to what is stored.
            have hsent : stored ++ stream.take (min k (mlen - stored.length)) ++
                stream.drop (min k (mlen - stored.length)) = stored ++ stream := by
              rw [List.append_assoc, List.take_append_drop]
            have hroom : (stored ++ stream.take (min k (mlen - stored.length))).length ≤ mlen := by
              rw [List.length_append, List.length_take]
              omega
            rw [← hsent]
            simp only
            split
            · exact ⟨rfl, hroom, .inl rfl⟩
            · exact ih _ _ hroom ⟨rfl, hroom, .inl rfl⟩ ⟨rfl, hroom, .inr rfl⟩
    · exact hstop

/-- Pieces that come in time make up what is asked for. -/
theorem tcpReadLoop_timely (hlen : mlen ≤ stored.length + stream.length)
    (hstored : stored.length ≤ mlen) (henough : mlen ≤ stored.length + rounds.length)
    (hselect : ∀ r ∈ rounds, 0 < r.select) (hrecv : ∀ r ∈ rounds, ∃ k, r.recv = .bytes (k + 1))
    (htime : (rounds.map (·.curTick.toNat)).sum < timeout.toNat) :
    ∃ r, tcpReadLoop mlen rounds timeout stored stream = r ∧ r.stored.length = mlen ∧
      r.bytes = mlen := by
  induction rounds generalizing timeout stored stream with
  | nil =>
    have hmlen : stored.length = mlen := Nat.le_antisymm hstored henough
    exact ⟨_, rfl, hmlen, congrArg Nat.cast hmlen⟩
  | cons r rounds ih =>
    rcases Nat.lt_or_ge stored.length mlen with hmore | hdone
    · obtain ⟨k, hk⟩ := hrecv r List.mem_cons_self
      have hsel := hselect r List.mem_cons_self
      rw [List.map_cons, List.sum_cons] at htime
      have hzero : timeout ≠ 0 := by
        rintro rfl
        exact Nat.not_lt_zero _ htime
      have htick : r.curTick ≤ timeout := by
        rw [UInt32.le_iff_toNat_le]
        omega
      have hlate : ¬ timeout ≤ r.curTick := by
        rw [UInt32.le_iff_toNat_le]
        omega
      have hlength : (stored ++ stream.take (min (k + 1) (mlen - stored.length))).length =
          stored.length + min (k + 1) (mlen - stored.length) := by
        rw [List.length_append, List.length_take]
        omega
      rw [tcpReadLoop, if_pos hmore, if_neg hzero, if_neg (by omega), if_neg (by omega), hk]
      simp only [hlate, or_false]
      split
      · rename_i hfull
        have hmlen : (stored ++ stream.take (min (k + 1) (mlen - stored.length))).length = mlen := by
          omega
        exact ⟨_, rfl, hmlen, congrArg Nat.cast hmlen⟩
      · refine ih ?_ (by omega) ?_ (fun r' hr' => hselect r' (List.mem_cons_of_mem r hr'))
          (fun r' hr' => hrecv r' (List.mem_cons_of_mem r hr')) ?_
        · rw [hlength, List.length_drop]
          omega
        · rw [List.length_cons] at henough
          omega
        · rw [UInt32.toNat_sub_of_le _ _ htick]
          omega
    · rw [tcpReadLoop, if_neg (Nat.not_lt.2 hdone)]
      have hmlen : stored.length = mlen := Nat.le_antisymm hstored hdone
      exact ⟨_, rfl, hmlen, congrArg Nat.cast hmlen⟩

/-- What the client gets is the next piece of the stream, whichever way it has been cut. -/
theorem tcpMqttRead_timely (h : Timely timeout mlen rounds) (hlen : mlen ≤ stream.length) :
    (tcpMqttRead rounds timeout mlen stream).answer = .bytes (stream.take mlen) ∧
      (tcpMqttRead rounds timeout mlen stream).stream = stream.drop mlen := by
  have hnil : ([] : List UInt8).length ≤ mlen := Nat.zero_le mlen
  have hkept := tcpReadLoop_kept rounds timeout stream hnil
  have hstream : mlen ≤ ([] : List UInt8).length + stream.length := by
    rwa [List.length_nil, Nat.zero_add]
  have henough : mlen ≤ ([] : List UInt8).length + rounds.length := by
    rw [List.length_nil, Nat.zero_add]
    exact h.enough
  obtain ⟨r, hr, hstored, hbytes⟩ :=
    tcpReadLoop_timely hstream hnil henough h.select h.recv h.time
  unfold tcpMqttRead TcpRead.answer
  rw [hr] at hkept ⊢
  have hsplit : r.stored ++ r.stream = stream := hkept.stream
  rw [if_neg (by omega), ← hsplit, ← hstored, List.take_left, List.drop_left]
  exact ⟨rfl, rfl⟩

/-- Calls one after the other get the stream piece by piece. -/
theorem tcpAnswers_timely {calls : List (Nat × List Round)}
    (h : ∀ c ∈ calls, Timely timeout c.1 c.2) {pieces : List (List UInt8)}
    (hpieces : pieces.map List.length = calls.map Prod.fst) (more : List UInt8) :
    tcpAnswers timeout calls (pieces.flatten ++ more) = pieces.map .bytes := by
  induction calls generalizing pieces with
  | nil =>
    cases pieces with
    | nil => rfl
    | cons piece pieces => cases hpieces
  | cons c calls ih =>
    cases pieces with
    | nil => cases hpieces
    | cons piece pieces =>
      obtain ⟨hpiece, hpieces⟩ := List.cons.inj hpieces
      have hlen : c.1 ≤ (piece ++ (pieces.flatten ++ more)).length := by
        rw [List.length_append]
        omega
      obtain ⟨hanswer, hstream⟩ := tcpMqttRead_timely (h c List.mem_cons_self) hlen
      rw [List.flatten_cons, List.append_assoc, tcpAnswers, hanswer, hstream, ← hpiece,
        List.take_left, List.drop_left, ih (fun c' hc' => h c' (List.mem_cons_of_mem c hc')) hpieces]
      rfl

end

/-! ## Packets -/

/-- The pieces in which the client asks for a packet. -/
def packetPieces (header : UInt8) (body : List UInt8) : List (List UInt8) :=
  [header] :: ((mqttPacketEncode body.length).map (fun d => [d]) ++ [body])

theorem flatten_packetPieces (header : UInt8) (body : List UInt8) :
    (packetPieces header body).flatten = Wire.packet header body := by
  have hone : ((mqttPacketEncode body.length).map fun d => [d]).flatten =
      mqttPacketEncode body.length := by
    rw [← List.flatMap_def, List.flatMap_singleton']
  rw [packetPieces, List.flatten_cons, List.flatten_append, hone]
  simp only [List.flatten_cons, List.flatten_nil, List.append_nil]
  rfl

namespace Session

section
variable {cs : Session} {header : UInt8} {body : List UInt8} {reads : List ReadAnswer}

/-- The bytes of a length come one by one. -/
theorem remainingLength_digits {k n : Nat} {ds : List UInt8} (h : Base128.read k ds = some (n, []))
    (reads : List ReadAnswer) :
    remainingLength k (ds.map (fun d => .bytes [d]) ++ reads) = ⟨n, true, reads⟩ := by
  induction k generalizing ds n with
  | zero => cases h
  | succ k ih =>
    cases ds with
    | nil => cases h
    | cons d ds =>
      rw [Base128.read] at h
      rw [List.map_cons, List.cons_append, remainingLength]
      simp only [ReadAnswer.byte?]
      split at h
      · obtain ⟨rfl, rfl⟩ := Prod.mk.inj (Option.some.inj h)
        rw [if_pos (by assumption)]
        rfl
      · obtain ⟨⟨m, r⟩, hm, hr⟩ := Option.map_eq_some_iff.1 h
        obtain ⟨rfl, rfl⟩ := Prod.mk.inj hr
        rw [if_neg (by assumption), ih hm]

/-- The session when these bytes have been stored from the start of the read buffer on. -/
def filled (cs : Session) (reads : List ReadAnswer) (x : List UInt8) : Session :=
  { cs.withReads reads with readbuf := x ++ cs.readbuf.drop x.length }

theorem store_filled (reads : List ReadAnswer) {p : Nat} (x data : List UInt8) (hp : p = x.length)
    (hroom : x.length + data.length ≤ cs.readbuf.length) :
    (cs.filled reads x).store p data = some (cs.filled reads (x ++ data)) := by
  subst hp
  have hlen : x.length + data.length ≤ (cs.filled reads x).readbuf.length := by
    show _ ≤ (x ++ cs.readbuf.drop x.length).length
    rw [List.length_append, List.length_drop]
    omega
  have htake : (cs.filled reads x).readbuf.take x.length = x := List.take_left
  have hdrop : (cs.filled reads x).readbuf.drop (x.length + data.length) =
      cs.readbuf.drop (x ++ data).length := by
    show (x ++ cs.readbuf.drop x.length).drop _ = _
    rw [← List.drop_drop, List.drop_left, List.drop_drop, List.length_append]
  unfold store
  rw [if_pos hlen, htake, hdrop]
  rfl

theorem mqttRead_filled (a : ReadAnswer) (x : List UInt8) (mlen : Nat) :
    (cs.filled (a :: reads) x).mqttRead mlen = (a.stored mlen, a.rc mlen, cs.filled reads x) := rfl

/-- A packet that comes in its pieces is read as it is, and nothing behind it. -/
theorem mqttReadPacket_pieces (hbody : body.length < 128 ^ 4)
    (hroom : (Wire.packet header body).length ≤ cs.readbuf.length)
    (hreads : cs.answers.reads = (packetPieces header body).map .bytes ++ reads) :
    cs.mqttReadPacket =
      some ((headerType header : Int), cs.filled reads (Wire.packet header body)) := by
  have hshape : (packetPieces header body).map .bytes ++ reads = .bytes [header] ::
      ((mqttPacketEncode body.length).map (fun d => .bytes [d]) ++ (.bytes body :: reads)) := by
    simp only [packetPieces, List.map_cons, List.map_append, List.map_map, List.map_nil,
      List.cons_append, List.append_assoc, List.nil_append]
    rfl
  rw [hshape] at hreads
  rw [Wire.packet, List.length_cons, List.length_append] at hroom
  have hread : Base128.read 4 (mqttPacketEncode body.length) = some (body.length, []) := by
    rw [Wire.mqttPacketEncode_eq hbody]
    have hdigits := Base128.read_digits (l := []) (Base128.length_digits_le_iff.2 hbody)
    rwa [List.append_nil] at hdigits
  have hrest := remainingLength_digits hread (.bytes body :: reads)
  generalize (mqttPacketEncode body.length).map (fun d => ReadAnswer.bytes [d]) ++
    (.bytes body :: reads) = rest at hreads hrest
  -- The header byte comes first, then the length, and it is written back. The rest comes behind it.
  have hheader : (cs.withReads rest).store 0 [header] = some (cs.filled rest [header]) :=
    store_filled rest [] [header] rfl (by rw [List.length_nil, List.length_singleton]; omega)
  have hdecode : decodePacket 4 1 0 (cs.filled rest [header]) =
      (body.length, cs.filled (.bytes body :: reads) [header]) := by
    have hreads' : (cs.filled rest [header]).answers.reads = rest := rfl
    rw [decodePacket_eq, hreads', hrest, Nat.zero_add, Nat.one_mul]
    rfl
  have hlength : (cs.filled (.bytes body :: reads) [header]).store 1
      (mqttPacketEncode body.length) = some (cs.filled (.bytes body :: reads)
        ([header] ++ mqttPacketEncode body.length)) :=
    store_filled _ [header] _ rfl (by rw [List.length_singleton]; omega)
  have hpos : 1 + (mqttPacketEncode body.length).length =
      ([header] ++ mqttPacketEncode body.length).length := by
    rw [List.length_append, List.length_singleton]
  have hbodyStore : (cs.filled reads ([header] ++ mqttPacketEncode body.length)).store
      (1 + (mqttPacketEncode body.length).length) body =
      some (cs.filled reads ([header] ++ mqttPacketEncode body.length ++ body)) :=
    store_filled reads _ body hpos (by rw [← hpos]; omega)
  have hone : (((1 : Nat) : Int)) = 1 := rfl
  have hwhole : (body.take body.length : List UInt8) = body := List.take_length
  unfold mqttReadPacket
  rw [mqttRead_cons hreads]
  simp only [ReadAnswer.stored, ReadAnswer.rc, List.take_succ_cons, List.take_zero, hheader,
    Option.bind_some, List.length_singleton, hone, ne_eq, not_true_eq_false, if_false,
    hdecode, hlength, mqttRead_filled, hwhole, hbodyStore, and_false]
  rfl

end

end Session

end AppXd.Mqtt
