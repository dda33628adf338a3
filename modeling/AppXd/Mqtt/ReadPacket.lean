import AppXd.Mqtt.Client

/-!
# Reading a packet

`mqtt_read_packet` neither looks at what `decodePacket` returns nor compares the length with the
buffer, and on a short read the number of bytes that came is what it returns. `ReadsWhole` says what
the callers rely on, `ReadsFine` for which answers of the port they may.
-/

namespace AppXd.Mqtt

/-! ## Packets in the answers of the port -/

/-- The byte that comes when one is asked for. -/
def ReadAnswer.byte? : ReadAnswer → Option UInt8
  | bytes (b :: _) => some b
  | bytes [] | error .. => none

/-- A remaining length, as far as it could be read. -/
structure LengthRead where
  value : Nat
  /-- Its last byte came. -/
  whole : Bool
  /-- The answers that are left. -/
  rest : List ReadAnswer

/-- The remaining length of at most `n` bytes. -/
def remainingLength : Nat → List ReadAnswer → LengthRead
  | 0, reads => ⟨0, false, reads⟩
  | _ + 1, [] => ⟨0, false, []⟩
  | n + 1, a :: reads =>
    match a.byte? with
    | none => ⟨0, false, reads⟩
    | some b =>
      if b &&& 128 = 0 then ⟨(b &&& 127).toNat, true, reads⟩
      else
        let r := remainingLength n reads
        ⟨(b &&& 127).toNat + 128 * r.value, r.whole, r.rest⟩

namespace LengthRead

variable (r : LengthRead)

/-- Where the remaining bytes go in the read buffer. -/
def start : Nat := 1 + (mqttPacketEncode r.value).length

/-- What comes when the remaining bytes are asked for. -/
def stored : List UInt8 := r.rest.head?.elim [] (·.stored r.value)

def rc : Int := r.rest.head?.elim (-1) (·.rc r.value)

end LengthRead

namespace Session

variable (cs : Session)

/-- A packet with this header byte comes as a whole: its remaining length takes at most four bytes,
it fits into the read buffer, and all remaining bytes come. -/
def WholePacket (header : UInt8) : Prop :=
  ∃ a reads, cs.answers.reads = a :: reads ∧ a.byte? = some header ∧
    (remainingLength 4 reads).whole = true ∧
    (remainingLength 4 reads).start + (remainingLength 4 reads).value ≤ cs.readbuf.length ∧
    (0 < (remainingLength 4 reads).value →
      (remainingLength 4 reads).rc = (remainingLength 4 reads).value)

/-- Only whole packets count: nothing is written outside of the read buffer, a packet type is
returned for a whole packet that has it, and for anything else a negative value, whereupon
`MQTT_cycle` and `mqtt_client_connect` do no more. -/
structure ReadsWhole (ι : Type*) [DecidableEq ι] : Prop where
  inside : cs.mqttReadPacket.isSome
  type : ∀ r, cs.mqttReadPacket = some r → 1 ≤ r.1 → r.1 ≤ 14 →
    ∃ header, cs.WholePacket header ∧ r.1 = headerType header
  negative : ∀ r, cs.mqttReadPacket = some r → (∀ header, ¬ cs.WholePacket header) → r.1 < 0
  cycle : ∀ r now, cs.mqttReadPacket = some r → (∀ header, ¬ cs.WholePacket header) →
    ∃ ret, cs.mqttCycle now = some (ret, r.2)
  connect : ∀ r, cs.mqttReadPacket = some r → (∀ header, ¬ cs.WholePacket header) →
    ∀ (i : ι) l cs₀ (x : ConnectInput) len,
      mqttSerializeConnect x.options cs₀.bufSize.toNat = some len → 0 < len →
      (cs₀.configured x.options).mqttSendPacket .connect len = (0, cs) →
      ∃ ret, connectExchange i l cs₀ x = some (connectExit ret l r.2)

/-- A whole packet comes; or the first read fails; or the header byte comes, some positive value of
the length, and the read for the remaining bytes fails. What failing reads store fits. -/
def ReadsFine : Prop :=
  (∃ header, cs.WholePacket header) ∨
    match cs.answers.reads with
    | [] => True
    | .error data _ :: _ => (data.take 1).length ≤ cs.readbuf.length
    | .bytes [] :: _ => False
    | .bytes (_ :: _) :: reads =>
      let r := remainingLength 4 reads
      0 < r.value ∧ r.rc < 0 ∧ r.start + r.stored.length ≤ cs.readbuf.length

/-! ## What the function does -/

/-- The session when the answers in front of `reads` are used up. -/
def withReads (reads : List ReadAnswer) : Session :=
  { cs with answers := { cs.answers with reads := reads } }

section
variable {cs : Session}

theorem mqttRead_nil (h : cs.answers.reads = []) (mlen : Nat) : cs.mqttRead mlen = ([], -1, cs) := by
  unfold mqttRead
  rw [h]

theorem mqttRead_cons {a : ReadAnswer} {reads : List ReadAnswer}
    (h : cs.answers.reads = a :: reads) (mlen : Nat) :
    cs.mqttRead mlen = (a.stored mlen, a.rc mlen, cs.withReads reads) := by
  unfold mqttRead
  rw [h]
  rfl

theorem byte?_eq_some {a : ReadAnswer} {b : UInt8} (h : a.byte? = some b) :
    a.stored 1 = [b] ∧ a.rc 1 = 1 := by
  rcases a with (_ | ⟨c, data⟩) | _
  · cases h
  · cases h
    exact ⟨rfl, rfl⟩
  · cases h

theorem byte?_eq_none {a : ReadAnswer} (h : a.byte? = none) : a.rc 1 ≠ 1 := by
  rcases a with (_ | ⟨c, data⟩) | ⟨data, n⟩
  · intro hrc
    cases hrc
  · cases h
  · intro hrc
    cases hrc

/-- The loop of `decodePacket` reads the remaining length. -/
theorem decodePacket_eq (n multiplier value : Nat) (cs : Session) :
    decodePacket n multiplier value cs =
      (value + multiplier * (remainingLength n cs.answers.reads).value,
        cs.withReads (remainingLength n cs.answers.reads).rest) := by
  induction n generalizing multiplier value cs with
  | zero => rfl
  | succ n ih =>
    unfold decodePacket
    cases hreads : cs.answers.reads with
    | nil =>
      rw [mqttRead_nil hreads]
      have hsame : cs.withReads [] = cs := by
        unfold withReads
        rw [← hreads]
      simp only [remainingLength, Nat.mul_zero, Nat.add_zero, hsame]
    | cons a reads =>
      rw [mqttRead_cons hreads]
      cases hb : a.byte? with
      | none =>
        have hrc := byte?_eq_none hb
        simp only [remainingLength, hb, Nat.mul_zero, Nat.add_zero]
        rcases a.stored 1 with _ | ⟨i, data⟩
        · rfl
        · simp only [hrc, ne_eq, not_false_eq_true, if_true]
      | some b =>
        obtain ⟨hst, hrc⟩ := byte?_eq_some hb
        simp only [hst, hrc, remainingLength, hb, ne_eq, not_true_eq_false, if_false]
        by_cases hlast : b &&& 128 = 0
        · simp only [hlast, not_true_eq_false, if_false, if_true, Nat.mul_comm]
        · simp only [hlast, not_false_eq_true, if_true, if_false, ih]
          have hvalue : ∀ d v : Nat, value + d * multiplier + multiplier * 128 * v =
              value + multiplier * (d + 128 * v) := fun d v => by
            rw [Nat.mul_add, Nat.mul_comm d, Nat.mul_assoc, Nat.add_assoc]
          exact congrArg (·, _) (hvalue ..)

/-- Storing bytes that fit keeps the buffer's length, its first byte if they go behind it, and
everything else. -/
theorem store_eq (cs : Session) (p : Nat) (data : List UInt8)
    (h : p + data.length ≤ cs.readbuf.length) :
    ∃ cs', cs.store p data = some cs' ∧ cs'.answers = cs.answers ∧
      cs'.readbuf.length = cs.readbuf.length ∧
      (0 < p → cs'.readbuf.head? = cs.readbuf.head?) ∧
      (p = 0 → data ≠ [] → cs'.readbuf.head? = data.head?) := by
  refine ⟨_, if_pos h, rfl, ?_, fun hp => ?_, fun hp hd => ?_⟩
  · simp only [List.length_append, List.length_take, List.length_drop]
    omega
  · cases hbuf : cs.readbuf with
    | nil =>
      rw [hbuf, List.length_nil] at h
      omega
    | cons b buf =>
      obtain ⟨p, rfl⟩ := Nat.exists_eq_succ_of_ne_zero (Nat.ne_of_gt hp)
      rfl
  · subst hp
    rcases data with _ | ⟨b, data⟩
    · exact absurd rfl hd
    · rfl

theorem store_eq_none {p : Nat} {data : List UInt8} (h : cs.readbuf.length < p + data.length) :
    cs.store p data = none :=
  if_neg (Nat.not_le.2 h)

/-- What is asked for after the remaining length. -/
theorem mqttRead_rest (n : Nat) (reads : List ReadAnswer) {cs : Session}
    (h : cs.answers.reads = (remainingLength n reads).rest) :
    ∃ cs', cs.mqttRead (remainingLength n reads).value =
        ((remainingLength n reads).stored, (remainingLength n reads).rc, cs') ∧
      cs'.readbuf = cs.readbuf := by
  unfold LengthRead.stored LengthRead.rc
  generalize remainingLength n reads = r at h ⊢
  cases hr : r.rest with
  | nil => exact ⟨cs, mqttRead_nil (h.trans hr) _, rfl⟩
  | cons a rest => exact ⟨_, mqttRead_cons (h.trans hr) _, rfl⟩

/-- What `mqtt_read_packet` gives once the header byte has come. -/
theorem mqttReadPacket_header {data : List UInt8} {b : UInt8} {reads : List ReadAnswer}
    (h : cs.answers.reads = .bytes (b :: data) :: reads) :
    if (remainingLength 4 reads).start + (remainingLength 4 reads).stored.length ≤
        cs.readbuf.length then
      ∃ cs', cs.mqttReadPacket = some
        (if 0 < (remainingLength 4 reads).value ∧
            (remainingLength 4 reads).rc ≠ (remainingLength 4 reads).value then
          (remainingLength 4 reads).rc
        else headerType b, cs')
    else cs.mqttReadPacket = none := by
  have hlen : (remainingLength 4 reads).start =
    1 + (mqttPacketEncode (remainingLength 4 reads).value).length := rfl
  unfold mqttReadPacket
  rw [mqttRead_cons h]
  simp only
  rcases Nat.eq_zero_or_pos cs.readbuf.length with h0 | hpos
  · rw [if_neg (by omega), store_eq_none (by
      show cs.readbuf.length < 0 + 1
      omega)]
    rfl
  obtain ⟨cs₁, hcs₁, ha₁, hl₁, -, hb₁⟩ := store_eq (cs.withReads reads) 0 [b]
    (show 0 + 1 ≤ cs.readbuf.length by omega)
  have hfirst : ReadAnswer.stored 1 (.bytes (b :: data)) = [b] := rfl
  have hone : ¬ ReadAnswer.rc 1 (.bytes (b :: data)) ≠ 1 := fun hne => hne rfl
  have hreads : cs₁.answers.reads = reads := congrArg Answers.reads ha₁
  have hdec : decodePacket 4 1 0 cs₁ =
      ((remainingLength 4 reads).value, cs₁.withReads (remainingLength 4 reads).rest) := by
    rw [decodePacket_eq, hreads, Nat.zero_add, Nat.one_mul]
  simp only [hfirst, hcs₁, Option.bind_some, if_neg hone, hdec]
  rcases Nat.lt_or_ge cs.readbuf.length (remainingLength 4 reads).start with hshort | hroom
  · rw [if_neg (by omega), store_eq_none (by
      show cs₁.readbuf.length < _
      rw [hl₁]
      exact hshort)]
    rfl
  obtain ⟨cs₂, hcs₂, ha₂, hl₂, hh₂, -⟩ := store_eq
    (cs₁.withReads (remainingLength 4 reads).rest) 1
    (mqttPacketEncode (remainingLength 4 reads).value) (by
      show 1 + _ ≤ cs₁.readbuf.length
      rw [hl₁]
      exact hroom)
  obtain ⟨cs₃, hcs₃, hbuf₃⟩ := mqttRead_rest 4 reads (congrArg Answers.reads ha₂)
  have hsize : cs₃.readbuf.length = cs.readbuf.length := by
    rw [hbuf₃, hl₂]
    exact hl₁
  simp only [hcs₂, Option.bind_some, hcs₃]
  split
  · rename_i hfits
    obtain ⟨cs₄, hcs₄, -, -, hh₄, -⟩ := store_eq cs₃ (remainingLength 4 reads).start
      (remainingLength 4 reads).stored (by rwa [hsize])
    have hhead : cs₄.readbuf.head? = some b := by
      rw [hh₄ (by omega), hbuf₃, hh₂ Nat.one_pos]
      exact hb₁ rfl (List.cons_ne_nil b [])
    refine ⟨cs₄, ?_⟩
    rw [← hlen, hcs₄, Option.bind_some, hhead]
    split
    · rfl
    · rfl
  · rename_i hfits
    rw [← hlen, store_eq_none (by rw [hsize]; exact Nat.lt_of_not_le hfits)]
    rfl

/-- What it gives when the header byte does not come. -/
theorem mqttReadPacket_error {data : List UInt8} {n : Nat} {reads : List ReadAnswer}
    (h : cs.answers.reads = .error data n :: reads) :
    if (data.take 1).length ≤ cs.readbuf.length then
      ∃ cs', cs.mqttReadPacket = some (Int.negSucc n, cs')
    else cs.mqttReadPacket = none := by
  unfold mqttReadPacket
  rw [mqttRead_cons h]
  simp only
  split
  · rename_i hfits
    obtain ⟨cs', hcs', -⟩ := store_eq (cs.withReads reads) 0 (data.take 1)
      (by rwa [Nat.zero_add])
    refine ⟨cs', ?_⟩
    have hstored : ReadAnswer.stored 1 (.error data n) = data.take 1 := rfl
    rw [hstored, hcs', Option.bind_some]
    rfl
  · rename_i hfits
    have hstored : ReadAnswer.stored 1 (.error data n) = data.take 1 := rfl
    rw [hstored, store_eq_none (by rw [Nat.zero_add]; exact Nat.lt_of_not_le hfits)]
    rfl

theorem mqttReadPacket_empty {reads : List ReadAnswer} (h : cs.answers.reads = .bytes [] :: reads) :
    ∃ cs', cs.mqttReadPacket = some (0, cs') := by
  obtain ⟨cs', hcs', -⟩ := store_eq (cs.withReads reads) 0 [] (Nat.zero_le _)
  have hstored : ReadAnswer.stored 1 (.bytes []) = [] := rfl
  refine ⟨cs', ?_⟩
  unfold mqttReadPacket
  rw [mqttRead_cons h]
  simp only [hstored, hcs', Option.bind_some]
  rfl

theorem mqttReadPacket_nil (h : cs.answers.reads = []) :
    ∃ cs', cs.mqttReadPacket = some (-1, cs') := by
  obtain ⟨cs', hcs', -⟩ := store_eq cs 0 [] (Nat.zero_le _)
  refine ⟨cs', ?_⟩
  unfold mqttReadPacket
  rw [mqttRead_nil h]
  simp only [hcs', Option.bind_some]
  rfl

/-- A whole packet gives its type. -/
theorem WholePacket.mqttReadPacket {header : UInt8} (h : cs.WholePacket header) :
    ∃ cs', cs.mqttReadPacket = some ((headerType header : Int), cs') := by
  obtain ⟨a, reads, hreads, hb, -, hfits, hbody⟩ := h
  obtain ⟨data, rfl⟩ : ∃ data, a = .bytes (header :: data) := by
    rcases a with (_ | ⟨c, data⟩) | _
    · cases hb
    · cases hb
      exact ⟨data, rfl⟩
    · cases hb
  have hspec := mqttReadPacket_header hreads
  have hstored : (remainingLength 4 reads).stored.length ≤ (remainingLength 4 reads).value := by
    unfold LengthRead.stored
    cases (remainingLength 4 reads).rest.head? with
    | none => exact Nat.zero_le _
    | some a => rcases a with data | data <;> exact (List.length_take_le _ _)
  rw [if_pos (by omega), if_neg] at hspec
  · exact hspec
  · rintro ⟨hpos, hne⟩
    exact hne (hbody hpos)

/-! ## The callers -/

theorem headerType_nonneg (b : UInt8) : ¬ (headerType b : Int) < 0 := Int.not_lt.2 (Int.natCast_nonneg _)

/-- `MQTT_cycle` does nothing more when a negative value is read. -/
theorem mqttCycle_of_neg {rc : Int} {cs' : Session} (h : cs.mqttReadPacket = some (rc, cs'))
    (hneg : rc < 0) (now : UInt32) : ∃ ret, cs.mqttCycle now = some (ret, cs') := by
  have hcode : ∀ t : MsgType, rc ≠ t.code := by
    intro t
    cases t <;> simp only [MsgType.code] <;> omega
  unfold mqttCycle
  rw [h, Option.bind_some]
  simp only [hcode, if_false]
  split
  · exact ⟨-1, rfl⟩
  · exact ⟨0, rfl⟩

/-- `mqtt_client_connect` goes to its exit. -/
theorem connectExchange_of_neg {ι : Type*} [DecidableEq ι] {rc : Int} {cs' : Session}
    (h : cs.mqttReadPacket = some (rc, cs')) (hneg : rc < 0) (i : ι) (l : Links (Option ι))
    (cs₀ : Session) (x : ConnectInput) {len : Int}
    (hlen : mqttSerializeConnect x.options cs₀.bufSize.toNat = some len) (hpos : 0 < len)
    (hsend : (cs₀.configured x.options).mqttSendPacket .connect len = (0, cs)) :
    connectExchange i l cs₀ x = some (connectExit 0 l cs') := by
  have hsize : (cs₀.configured x.options).bufSize = cs₀.bufSize := rfl
  unfold connectExchange
  simp only [hsize, hlen, Option.bind_some, if_neg (Int.not_le.2 hpos), hsend, ne_eq,
    not_true_eq_false, if_false, h, if_pos hneg]

/-- A negative result is right whatever comes. -/
theorem readsWhole_of_neg {ι : Type*} [DecidableEq ι] {rc : Int} {cs' : Session}
    (h : cs.mqttReadPacket = some (rc, cs')) (hneg : rc < 0) : cs.ReadsWhole ι where
  inside := by
    rw [h]
    rfl
  type := by
    intro r hr h1 _
    rw [h] at hr
    cases hr
    omega
  negative := by
    intro r hr _
    rw [h] at hr
    cases hr
    exact hneg
  cycle := by
    intro r now hr _
    rw [h] at hr
    cases hr
    exact mqttCycle_of_neg h hneg now
  connect := by
    intro r hr _ i l cs₀ x len hlen hpos hsend
    rw [h] at hr
    cases hr
    exact ⟨0, connectExchange_of_neg h hneg i l cs₀ x hlen hpos hsend⟩

theorem WholePacket.readsWhole {ι : Type*} [DecidableEq ι] {header : UInt8}
    (h : cs.WholePacket header) : cs.ReadsWhole ι := by
  obtain ⟨cs', hcs'⟩ := h.mqttReadPacket
  refine ⟨?_, fun r hr _ _ => ?_, fun r _ hno => ?_, fun r now _ hno => ?_, fun r _ hno => ?_⟩
  · rw [hcs']
    rfl
  · rw [hcs'] at hr
    cases hr
    exact ⟨header, h, rfl⟩
  all_goals exact absurd h (hno header)

/-- Only whole packets count exactly for the answers named. -/
theorem readsWhole_iff_readsFine (ι : Type*) [DecidableEq ι] (cs : Session) :
    cs.ReadsWhole ι ↔ cs.ReadsFine := by
  constructor
  · intro h
    by_cases hwhole : ∃ header, cs.WholePacket header
    · exact .inl hwhole
    obtain ⟨r, hr⟩ := Option.isSome_iff_exists.1 h.inside
    have hneg := h.negative r hr fun header hw => hwhole ⟨header, hw⟩
    refine .inr ?_
    rcases hreads : cs.answers.reads with _ | ⟨(_ | ⟨b, data⟩) | ⟨data, n⟩, reads⟩
    · trivial
    · obtain ⟨cs', hcs'⟩ := mqttReadPacket_empty hreads
      rw [hr, Option.some.injEq] at hcs'
      rw [hcs'] at hneg
      exact absurd hneg (Int.lt_irrefl 0)
    · have hspec := mqttReadPacket_header hreads
      rw [hr] at hspec
      split at hspec
      · rename_i hfits
        obtain ⟨cs', hcs'⟩ := hspec
        cases hcs'
        simp only at hneg
        split at hneg
        · rename_i hshort
          exact ⟨hshort.1, hneg, hfits⟩
        · exact absurd hneg (headerType_nonneg b)
      · cases hspec
    · have hspec := mqttReadPacket_error hreads
      rw [hr] at hspec
      split at hspec
      · assumption
      · cases hspec
  · rintro (⟨header, hw⟩ | h)
    · exact hw.readsWhole
    rcases hreads : cs.answers.reads with _ | ⟨(_ | ⟨b, data⟩) | ⟨data, n⟩, reads⟩
    · obtain ⟨cs', hcs'⟩ := mqttReadPacket_nil hreads
      exact readsWhole_of_neg hcs' (by decide)
    · rw [hreads] at h
      exact absurd h (fun h => h)
    · rw [hreads] at h
      obtain ⟨hpos, hneg, hfits⟩ := h
      have hspec := mqttReadPacket_header hreads
      rw [if_pos hfits, if_pos ⟨hpos, by omega⟩] at hspec
      obtain ⟨cs', hcs'⟩ := hspec
      exact readsWhole_of_neg hcs' hneg
    · rw [hreads] at h
      have hspec := mqttReadPacket_error hreads
      rw [if_pos h] at hspec
      obtain ⟨cs', hcs'⟩ := hspec
      exact readsWhole_of_neg hcs' (Int.negSucc_lt_zero n)

end

/-- A session with a read buffer of 16 bytes to which these bytes come, one answer after the
other. -/
def reading (reads : List ReadAnswer) : Session where
  nextPacketid := 1
  netIsConnected := true
  isConnected := true
  bufSize := 16
  readbuf := List.replicate 16 0
  keepAliveInterval := 60
  tickPing := 0
  socket := 0
  disconnect := true
  mqttNoticeCb := true
  topicFilters := []
  msgs := []
  answers := ⟨[], reads⟩
  log := []

/-- Two of five bytes come: the packet counts as a CONNACK. -/
theorem not_readsWhole_short : ¬ ∀ cs : Session, cs.ReadsWhole Nat := by
  intro h
  have hshort : (reading [.bytes [0x30], .bytes [5], .bytes [0, 1]]).mqttReadPacket.map (·.1) =
    some 2 := by decide
  obtain ⟨r, hr, hr1⟩ := Option.map_eq_some_iff.1 hshort
  obtain ⟨header, ⟨a, reads, hreads, -, -, -, hbody⟩, -⟩ :=
    (h _).type r hr (by rw [hr1]; decide) (by rw [hr1]; decide)
  cases hreads
  exact absurd (hbody (by decide)) (by decide)

end Session

end AppXd.Mqtt
