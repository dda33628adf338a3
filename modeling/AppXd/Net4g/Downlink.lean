import AppXd.Net4g.KeyReads
import AppXd.Net4g.PbKeywords
import AppXd.Net4g.RecvSpec

/-!
# From the FIFO to the decryption

A message notification at the front of the window comes out of `recv_cmd_from_fifo` as one command,
and its topic and payload reach the decryption unchanged, exactly when `DownlinkOk` holds: the line
is cut at the first `\r\n`, wherever that stands, and searched wrongly when a `\r` ends the ring.
-/

namespace AppXd.Net4g

open Seq (firstAt OccursAt)

section
variable (c : Config)

/-- `recv_cmd_from_fifo` is called `n` times at most, until a call does not return 0. -/
def recvCmdCalls : Nat → Recv → RecvCmdRet
  | 0, r => ⟨0, r, 0⟩
  | n + 1, r =>
    let res := recvCmdFromFifo c (ctrlHead c) netMqttCtrlCmdTail r
    if res.ret = 0 then recvCmdCalls n res.recv else res

/-- The calls have returned the notification as one command, copied inside its buffer; the queue
entry made of it gives the decryption its input, and the rest of the window is still there. -/
structure HandedOn (msg : Notification c.moduleType) (rest : List UInt8) (res : RecvCmdRet) :
    Prop where
  ret : res.ret = 1
  len : res.recv.recvCmdLen = msg.bytes.length
  cmd : res.recv.recvCmd.take res.recv.recvCmdLen = msg.bytes
  size : res.recv.recvCmd.length = c.uartRecvCmdSize
  window : res.recv.window c = rest
  input : ∃ k buf, getAtRspKeywordsPb ((enqueueCmd c res.recv).cmdQ res.recv.qTail).qData
      (ctrlHead c) (topicKeyNum c.moduleType) = some (k, buf) ∧ k.ret = true ∧
    k.decryptInput = ⟨msg.topic, msg.payload.length, msg.payload⟩

def Delivered (r : Recv) (msg : Notification c.moduleType) (rest : List UInt8) : Prop :=
  ∃ n, HandedOn c msg rest (recvCmdCalls c n r)

/-- When the notification is delivered. -/
structure DownlinkOk (r : Recv) (msg : Notification c.moduleType) : Prop where
  body : firstAt netMqttCtrlCmdTail msg.body = none
  topic : 0 ∉ msg.topic
  fits : msg.bytes.length ≤ c.uartRecvCmdSize
  ring : r.fifo.head < c.uartRecvFifoSize →
    c.uartRecvFifoSize < r.fifo.head + msg.bytes.length →
    r.fifo.data (c.uartRecvFifoSize - 1) ≠ 13

end

namespace Notification

variable {m : ModuleType} (msg : Notification m)

theorem length_bytes : msg.bytes.length = msg.body.length + 2 := List.length_append

theorem head_occursAt (rest : List UInt8) :
    OccursAt (netMqttCtrlCmdHead m) (msg.bytes ++ rest) 0 :=
  ⟨msg.before ++ msg.quoted ++ netMqttCtrlCmdTail ++ rest, by simp [bytes, body]⟩

/-- The end of the line. -/
theorem tail_occursAt (rest : List UInt8) :
    OccursAt netMqttCtrlCmdTail (msg.bytes ++ rest) msg.body.length := by
  unfold OccursAt bytes
  rw [List.append_assoc, List.drop_left]
  exact List.prefix_append _ _

/-- The body ends with a quote, so that no tail begins in it and ends behind it. -/
theorem occursAt_body {p : Nat} (hp : p < msg.body.length) (rest : List UInt8) :
    OccursAt netMqttCtrlCmdTail (msg.bytes ++ rest) p ↔ OccursAt netMqttCtrlCmdTail msg.body p := by
  have hl : netMqttCtrlCmdTail.length = 2 := rfl
  have hbody : msg.bytes ++ rest = msg.body ++ (netMqttCtrlCmdTail ++ rest) := by
    simp [bytes]
  rw [hbody]
  constructor
  · intro h
    rcases Nat.lt_or_ge (p + 1) msg.body.length with hlt | hge
    · exact (Seq.occursAt_append (by omega)).1 h
    · have hquote : (msg.body ++ (netMqttCtrlCmdTail ++ rest))[p]? = some 34 := by
        have hlast : msg.body.getLast? = some 34 := by
          have hsplit : msg.body = netMqttCtrlCmdHead m ++ (msg.before ++ (34 :: msg.topic ++
              34 :: 44 :: decimal msg.payload.length ++ 44 :: 34 :: msg.payload)) ++ [34] := by
            simp [body, quoted]
          rw [hsplit, List.getLast?_concat]
        rw [List.getElem?_append_left hp, ← hlast, List.getLast?_eq_getElem?]
        congr 1
        omega
      have hcr : (msg.body ++ (netMqttCtrlCmdTail ++ rest))[p]? = some 13 := h.getElem? (j := 0)
        (by decide)
      rw [hquote] at hcr
      cases hcr
  · exact fun h => h.append _

/-- The first tail of the window ends the line exactly when the body has none. -/
theorem firstAt_tail (rest : List UInt8) :
    firstAt netMqttCtrlCmdTail (msg.bytes ++ rest) = some msg.body.length ↔
      firstAt netMqttCtrlCmdTail msg.body = none := by
  have hne := keyword_ctrlCmdTail.ne_nil
  constructor
  · intro h
    refine Seq.firstAt_eq_none fun p hp => ?_
    have hlen := hp.le_length hne
    have hpos := List.length_pos_of_ne_nil hne
    have hlt : p < msg.body.length := by omega
    exact Seq.not_occursAt_of_lt_firstAt h hlt ((msg.occursAt_body hlt rest).2 hp)
  · intro h
    refine Seq.firstAt_eq_some hne (msg.tail_occursAt rest) fun p hp ho => ?_
    exact Seq.not_occursAt_of_firstAt_none hne h p ((msg.occursAt_body hp rest).1 ho)

end Notification

section
variable {c : Config} {r : Recv} {msg : Notification c.moduleType} {rest : List UInt8}

/-- The state in which step 2 finds the machine. -/
def atHead (c : Config) (r : Recv) : Recv :=
  { r with
    cmdHeadIndex := Ring.wrap c.uartRecvFifoSize r.fifo.head
    cmdTailIndex := 0
    fifo := { r.fifo with head := Ring.wrap c.uartRecvFifoSize r.fifo.head }
    cmdGetStep := 2 }

/-- The two calls that find the head at the front of the window. -/
theorem recvCmdCalls_head (hf : r.fifo.Wf c) (h0 : r.cmdGetStep = 0)
    (hw : r.window c = msg.bytes ++ rest) :
    (recvCmdCalls c 1 r).ret = 0 ∧
      ∀ n, recvCmdCalls c (n + 2) r = recvCmdCalls c n (atHead c r) := by
  have hk := keyword_ctrlCmdHead c.moduleType
  have hocc : OccursAt (ctrlHead c) (r.window c) 0 := hw ▸ msg.head_occursAt rest
  have hlen := hocc.le_length hk.ne_nil
  have hpos := hk.length_pos
  have hfirst : firstAt (ctrlHead c) (r.window c) = some 0 :=
    Seq.firstAt_eq_some hk.ne_nil hocc nofun
  have hne : r.fifo.tail ≠ r.fifo.head := by
    intro heq
    rw [Recv.window, Fifo.window, heq, Ring.window_self] at hlen
    exact absurd hlen (Nat.not_le.2 (Nat.lt_add_left 0 hpos))
  have hzero : recvCmdFromFifo c (ctrlHead c) netMqttCtrlCmdTail r =
      ⟨0, { r with cmdHeadIndex := 0, cmdTailIndex := 0, cmdGetStep := 1 }, 0⟩ := by
    rw [recvCmdFromFifo, h0]
    simp only [if_pos hne, unread_eq hne]
    rw [← Fifo.length_window]
    exact if_pos (by rw [Nat.zero_add] at hlen; exact hlen)
  -- an occurrence at the head begins before the end of the ring, unless the head stands on it
  have hx : Crossing c r.fifo.data r.fifo.head r.fifo.tail (ctrlHead c) := by
    rcases Nat.lt_or_ge r.fifo.head c.uartRecvFifoSize with hlt | hge
    · exact .inr (.inl ⟨0, hocc, hlt⟩)
    · exact .inr (.inr fun q h1 h2 => absurd h2 (by omega))
  have hspec := getKeyDataIndex_spec hk hf.head_le hf.tail_lt hf.data_tail hx 0
  obtain ⟨hfound, hindex⟩ := hspec.of_some hfirst
  have hone : ∃ hi, recvCmdFromFifo c (ctrlHead c) netMqttCtrlCmdTail
      { r with cmdHeadIndex := 0, cmdTailIndex := 0, cmdGetStep := 1 } = ⟨0, atHead c r, hi⟩ := by
    rw [recvCmdFromFifo]
    simp only
    rw [if_pos hfound]
    simp only [hindex]
    exact ⟨_, rfl⟩
  obtain ⟨hi, hone⟩ := hone
  constructor
  · rw [recvCmdCalls, hzero]
    rfl
  · intro n
    rw [recvCmdCalls, hzero]
    simp only [if_true]
    rw [recvCmdCalls, hone]
    rfl

/-- The state in which step 3 finds the machine. -/
def atTail (c : Config) (r : Recv) : Recv :=
  { atHead c r with
    cmdTailIndex := ((searchWindow c (atHead c r).fifo netMqttCtrlCmdTail 0).index + 2) % 65536
    cmdGetStep := 3 }

/-- Without a tail the calls end there. -/
theorem recvCmdCalls_noTail
    (h : (searchWindow c (atHead c r).fifo netMqttCtrlCmdTail 0).found = false) (n : Nat) :
    (recvCmdCalls c n (atHead c r)).ret ≠ 1 := by
  cases n with
  | zero => nofun
  | succ n =>
    have hret : (recvCmdFromFifo c (ctrlHead c) netMqttCtrlCmdTail (atHead c r)).ret = 3 :=
      congrArg RecvCmdRet.ret (if_neg fun hf => Bool.false_ne_true (h.symm.trans hf))
    rw [recvCmdCalls, if_neg (by rw [hret]; nofun), hret]
    nofun

/-- The two calls that find the tail and copy the command. -/
theorem recvCmdCalls_tail
    (h : (searchWindow c (atHead c r).fifo netMqttCtrlCmdTail 0).found = true) :
    (recvCmdCalls c 1 (atHead c r)).ret = 0 ∧ ∀ n, recvCmdCalls c (n + 2) (atHead c r) =
      recvCmdFromFifo c (ctrlHead c) netMqttCtrlCmdTail (atTail c r) := by
  have htwo : ∃ hi, recvCmdFromFifo c (ctrlHead c) netMqttCtrlCmdTail (atHead c r) =
      ⟨0, atTail c r, hi⟩ := ⟨_, if_pos h⟩
  obtain ⟨hi, htwo⟩ := htwo
  constructor
  · rw [recvCmdCalls, htwo]
    rfl
  · intro n
    rw [recvCmdCalls, htwo]
    rfl

/-- Delivery depends on the search of the tail and on the copy made after it. -/
theorem delivered_iff_copy (hf : r.fifo.Wf c) (h0 : r.cmdGetStep = 0)
    (hw : r.window c = msg.bytes ++ rest) :
    Delivered c r msg rest ↔
      (searchWindow c (atHead c r).fifo netMqttCtrlCmdTail 0).found = true ∧
        HandedOn c msg rest
          (recvCmdFromFifo c (ctrlHead c) netMqttCtrlCmdTail (atTail c r)) := by
  obtain ⟨hone, hcalls⟩ := recvCmdCalls_head hf h0 hw
  cases hfound : (searchWindow c (atHead c r).fifo netMqttCtrlCmdTail 0).found with
  | false =>
    refine ⟨?_, nofun⟩
    rintro ⟨_ | _ | n, h⟩
    · cases h.ret
    · exact absurd (hone.symm.trans h.ret) nofun
    · rw [hcalls] at h
      exact absurd h.ret (recvCmdCalls_noTail hfound n)
  | true =>
    obtain ⟨hthree, hfour⟩ := recvCmdCalls_tail hfound
    refine Iff.trans ?_ (and_iff_right rfl).symm
    constructor
    · rintro ⟨_ | _ | _ | _ | n, h⟩
      · cases h.ret
      · exact absurd (hone.symm.trans h.ret) nofun
      · exact absurd ((congrArg RecvCmdRet.ret (hcalls 0)).symm.trans h.ret) nofun
      · rw [hcalls] at h
        exact absurd (hthree.symm.trans h.ret) nofun
      · rwa [hcalls, hfour] at h
    · intro h
      refine ⟨4, ?_⟩
      rwa [hcalls, hfour]

theorem atHead_spec (hf : r.fifo.Wf c) (hw : r.window c = msg.bytes ++ rest) :
    (atHead c r).fifo.Wf c ∧ (atHead c r).fifo.head < c.uartRecvFifoSize ∧
      (atHead c r).window c = msg.bytes ++ rest := by
  have hfirst : firstAt (ctrlHead c) (r.window c) = some 0 :=
    Seq.firstAt_eq_some (keyword_ctrlCmdHead _).ne_nil (hw ▸ msg.head_occursAt rest) nofun
  obtain ⟨h1, h2, h3⟩ := Recv.window_head hf (keyword_ctrlCmdHead _) hfirst
  exact ⟨h1, h2, h3.trans hw⟩

/-- Where the notification lies in the ring. -/
theorem atHead_ring (hf : r.fifo.Wf c) (hw : r.window c = msg.bytes ++ rest) :
    (r.fifo.head < c.uartRecvFifoSize ∧ (atHead c r).fifo.head = r.fifo.head ∨
      r.fifo.head = c.uartRecvFifoSize ∧ (atHead c r).fifo.head = 0) ∧
    msg.bytes.length + rest.length =
      Ring.unread c.uartRecvFifoSize (atHead c r).fifo.head (atHead c r).fifo.tail := by
  obtain ⟨-, -, hwin⟩ := atHead_spec hf hw
  constructor
  · have hle := hf.head_le
    have hwrap := Ring.wrap_cases c.uartRecvFifoSize r.fifo.head
    show _ ∧ Ring.wrap _ _ = _ ∨ _ ∧ Ring.wrap _ _ = _
    omega
  · rw [← List.length_append, ← hwin, Recv.window, Fifo.length_window]

/-- After a right search of a tail inside the ring, step 3 copies the line up to it. -/
theorem atTail_copy (hf : r.fifo.Wf c) (hw : r.window c = msg.bytes ++ rest) {q : Nat}
    (hq : firstAt netMqttCtrlCmdTail (msg.bytes ++ rest) = some q)
    (hidx : (searchWindow c (atHead c r).fifo netMqttCtrlCmdTail 0).index =
      Ring.wrap c.uartRecvFifoSize ((atHead c r).fifo.head + q))
    (hin : Ring.wrap c.uartRecvFifoSize ((atHead c r).fifo.head + q) + 2 ≤ c.uartRecvFifoSize) :
    cmdBytes c (atTail c r) = (msg.bytes ++ rest).take (q + 2) ∧
      Fifo.window c { r.fifo with head := (atTail c r).cmdTailIndex } =
        (msg.bytes ++ rest).drop (q + 2) := by
  obtain ⟨hwf, hlt, hwin⟩ := atHead_spec hf hw
  have hu16 := c.fifo_u16
  have htail : (atTail c r).cmdTailIndex =
      Ring.wrap c.uartRecvFifoSize ((atHead c r).fifo.head + q) + 2 := by
    show ((searchWindow c (atHead c r).fifo netMqttCtrlCmdTail 0).index + 2) % 65536 = _
    rw [hidx, Nat.mod_eq_of_lt (by omega)]
  have hwin' : (atTail c r).window c = msg.bytes ++ rest := hwin
  have hphase : Phase c (atTail c r) := by
    refine ⟨hwf, Nat.le_refl 3, nofun, fun _ => ⟨rfl, ?_, q, ?_, htail, htail ▸ hin⟩⟩
    · rw [hwin']
      exact msg.head_occursAt rest
    · rw [hwin']
      exact hq
  rw [← hwin'] at hq ⊢
  exact ⟨hphase.cmdBytes rfl hq, hphase.window_drop rfl hq⟩

theorem enqueueCmd_entry (c : Config) (r : Recv) : ((enqueueCmd c r).cmdQ r.qTail).qData =
    CStr.copyInto c.uartRecvCmdSize (r.recvCmd.take r.recvCmdLen) := by
  unfold enqueueCmd
  simp only [Ring.poke_self]

/-- A line that the condition describes is found and copied. -/
theorem DownlinkOk.handedOn (h : DownlinkOk c r msg) (hf : r.fifo.Wf c)
    (hw : r.window c = msg.bytes ++ rest) :
    (searchWindow c (atHead c r).fifo netMqttCtrlCmdTail 0).found = true ∧
      HandedOn c msg rest
        (recvCmdFromFifo c (ctrlHead c) netMqttCtrlCmdTail (atTail c r)) := by
  obtain ⟨hwf, hlt, hwin⟩ := atHead_spec hf hw
  obtain ⟨hring, hunread⟩ := atHead_ring hf hw
  have hlen := msg.length_bytes
  have hun := Ring.unread_cases c.uartRecvFifoSize (atHead c r).fifo.head (atHead c r).fifo.tail
  have htail := hwf.tail_lt
  have hfirst : firstAt netMqttCtrlCmdTail ((atHead c r).window c) = some msg.body.length :=
    hwin ▸ (msg.firstAt_tail rest).2 h.body
  have hocc : OccursAt netMqttCtrlCmdTail (Ring.window r.fifo.data c.uartRecvFifoSize
      (atHead c r).fifo.head r.fifo.tail) msg.body.length := Seq.firstAt_occursAt hfirst
  have hx : Crossing c r.fifo.data (atHead c r).fifo.head r.fifo.tail netMqttCtrlCmdTail := by
    rcases Nat.lt_or_ge ((atHead c r).fifo.head + msg.body.length) c.uartRecvFifoSize with hin | hout
    · exact .inr (.inl ⟨_, hocc, hin⟩)
    · refine .inr (.inr fun q h1 h2 h3 => ?_)
      rw [length_ctrlCmdTail] at h3
      rw [show q = c.uartRecvFifoSize - 1 by omega]
      exact h.ring (by omega) (by omega)
  -- the tail does not straddle the end of the ring
  have hin : Ring.wrap c.uartRecvFifoSize ((atHead c r).fifo.head + msg.body.length) + 2 ≤
      c.uartRecvFifoSize := by
    by_contra hout
    have hwrap := Ring.wrap_cases c.uartRecvFifoSize ((atHead c r).fifo.head + msg.body.length)
    have hend : (atHead c r).fifo.head + msg.body.length = c.uartRecvFifoSize - 1 := by omega
    obtain ⟨-, hcell⟩ := (occursAt_window keyword_ctrlCmdTail.ne_nil hwf.head_le htail).1 hocc
    have hcr := hcell 0 (by decide)
    rw [Nat.add_zero, hend, Ring.wrap, if_pos (by omega)] at hcr
    exact h.ring (by omega) (by omega) hcr
  have hspec := getKeyDataIndex_spec keyword_ctrlCmdTail hwf.head_le htail hwf.data_tail hx 0
  obtain ⟨hfound, hidx⟩ := hspec.of_some hfirst
  rw [hwin] at hfirst
  obtain ⟨hbytes, hrest⟩ := atTail_copy hf hw hfirst hidx hin
  rw [← hlen, List.take_left] at hbytes
  rw [← hlen, List.drop_left] at hrest
  obtain ⟨k, buf, hk, hret, hinput⟩ := msg.keywordsPb h.topic c.uartRecvCmdSize
  have hcmd : (CStr.copyInto c.uartRecvCmdSize (cmdBytes c (atTail c r))).take
      (cmdBytes c (atTail c r)).length = msg.bytes := by
    rw [CStr.take_copyInto, hbytes]
  refine ⟨hfound, rfl, congrArg List.length hbytes, hcmd, ?_, hrest, k, buf, ?_, hret, hinput⟩
  · show (CStr.copyInto _ (cmdBytes c (atTail c r))).length = _
    rw [hbytes, CStr.length_copyInto h.fits]
  · rw [enqueueCmd_entry, ← hk]
    exact congrArg (fun bs => getAtRspKeywordsPb (CStr.copyInto c.uartRecvCmdSize bs) _ _) hcmd

theorem length_cmdBytes (c : Config) (r : Recv) :
    (cmdBytes c r).length = if r.cmdHeadIndex < r.cmdTailIndex
      then r.cmdTailIndex - r.cmdHeadIndex
      else c.uartRecvFifoSize - r.cmdHeadIndex + r.cmdTailIndex := by
  unfold cmdBytes
  split
  · exact Ring.length_cells ..
  · rw [List.length_append, Ring.length_cells, Ring.length_cells, Nat.sub_zero]

/-- A wrong search of the tail never yields the line. -/
theorem crossing_of_length (hf : r.fifo.Wf c) (hw : r.window c = msg.bytes ++ rest)
    (hlen : (cmdBytes c (atTail c r)).length = msg.bytes.length) :
    Crossing c r.fifo.data (atHead c r).fifo.head r.fifo.tail netMqttCtrlCmdTail := by
  obtain ⟨hwf, hlt, hwin⟩ := atHead_spec hf hw
  by_contra hx
  obtain ⟨-, hidx⟩ := getKeyDataIndex_cut hwf.head_le hwf.tail_lt hx 0
  have htail : (atTail c r).cmdTailIndex = (c.uartRecvFifoSize - 1 + 2) % 65536 :=
    congrArg (fun i => (i + 2) % 65536) hidx
  have hhead : (atTail c r).cmdHeadIndex = (atHead c r).fifo.head := rfl
  have hocc : OccursAt netMqttCtrlCmdTail ((atHead c r).window c) msg.body.length :=
    hwin ▸ msg.tail_occursAt rest
  have hu16 := c.fifo_u16
  have hbody := msg.length_bytes
  rw [length_cmdBytes, htail, hhead] at hlen
  refine hx (.inr (.inl ⟨_, hocc, ?_⟩))
  split at hlen <;> omega

/-- The end of the ring is passed inside the line only. -/
theorem ring_of_first (hf : r.fifo.Wf c) (hw : r.window c = msg.bytes ++ rest)
    (hx : Crossing c r.fifo.data (atHead c r).fifo.head r.fifo.tail netMqttCtrlCmdTail)
    (hq : firstAt netMqttCtrlCmdTail ((atHead c r).window c) = some msg.body.length)
    (hin : (atHead c r).fifo.head + msg.body.length + 1 ≠ c.uartRecvFifoSize)
    (hlt : r.fifo.head < c.uartRecvFifoSize)
    (hpass : c.uartRecvFifoSize < r.fifo.head + msg.bytes.length) :
    r.fifo.data (c.uartRecvFifoSize - 1) ≠ 13 := by
  obtain ⟨hring, hunread⟩ := atHead_ring hf hw
  obtain ⟨hwf, hlt', -⟩ := atHead_spec hf hw
  have hbody := msg.length_bytes
  have htail := hwf.tail_lt
  have hun := Ring.unread_cases c.uartRecvFifoSize (atHead c r).fifo.head (atHead c r).fifo.tail
  rcases hx with hle | ⟨p, ho, hp⟩ | hfree
  · have hle' : (atHead c r).fifo.head ≤ (atHead c r).fifo.tail := hle
    omega
  · have hqp : msg.body.length ≤ p := by
      by_contra hlt
      exact Seq.not_occursAt_of_lt_firstAt hq (Nat.lt_of_not_le hlt) ho
    omega
  · exact hfree _ (by omega) (by omega) (by rw [length_ctrlCmdTail]; omega)

/-- What is delivered meets the condition. -/
theorem HandedOn.downlinkOk (hf : r.fifo.Wf c) (hw : r.window c = msg.bytes ++ rest)
    (hfound : (searchWindow c (atHead c r).fifo netMqttCtrlCmdTail 0).found = true)
    (h : HandedOn c msg rest
      (recvCmdFromFifo c (ctrlHead c) netMqttCtrlCmdTail (atTail c r))) :
    DownlinkOk c r msg := by
  obtain ⟨hwf, hlt, hwin⟩ := atHead_spec hf hw
  obtain ⟨hring, hunread⟩ := atHead_ring hf hw
  have hbody := msg.length_bytes
  have hu16 := c.fifo_u16
  have htail := hwf.tail_lt
  have hlen : (cmdBytes c (atTail c r)).length = msg.bytes.length := h.len
  have hcmd : cmdBytes c (atTail c r) = msg.bytes := by
    have hc : (CStr.copyInto c.uartRecvCmdSize (cmdBytes c (atTail c r))).take
        (cmdBytes c (atTail c r)).length = msg.bytes := h.cmd
    rwa [CStr.take_copyInto] at hc
  -- the first tail of the window
  have hx := crossing_of_length hf hw hlen
  have hspec := getKeyDataIndex_spec keyword_ctrlCmdTail hwf.head_le htail hwf.data_tail hx 0
  obtain ⟨q, hq⟩ : ∃ q, firstAt netMqttCtrlCmdTail ((atHead c r).window c) = some q := by
    refine Option.ne_none_iff_exists'.1 fun hnone => ?_
    exact absurd (hfound.symm.trans (hspec.of_none hnone)) nofun
  have hidx := (hspec.of_some hq).2
  have hqle := Seq.firstAt_le_length hq keyword_ctrlCmdTail.ne_nil
  rw [hwin, length_ctrlCmdTail, List.length_append] at hqle
  have hun := Ring.unread_cases c.uartRecvFifoSize (atHead c r).fifo.head (atHead c r).fifo.tail
  have hwrap := Ring.wrap_cases c.uartRecvFifoSize ((atHead c r).fifo.head + q)
  have htailidx : (atTail c r).cmdTailIndex =
      (Ring.wrap c.uartRecvFifoSize ((atHead c r).fifo.head + q) + 2) % 65536 :=
    congrArg (fun i => (i + 2) % 65536) hidx
  have hheadidx : (atTail c r).cmdHeadIndex = (atHead c r).fifo.head := rfl
  have hlen' := hlen
  rw [length_cmdBytes, htailidx, hheadidx] at hlen'
  have hrest : Fifo.window c ⟨r.fifo.data, (atTail c r).cmdTailIndex, r.fifo.tail⟩ = rest := h.window
  have hqmin : q ≤ msg.body.length := by
    by_contra hlt
    exact Seq.not_occursAt_of_lt_firstAt hq (Nat.lt_of_not_le hlt) (hwin ▸ msg.tail_occursAt rest)
  by_cases hin : (atHead c r).fifo.head + q + 1 = c.uartRecvFifoSize
  · -- behind a tail that straddles the end of the ring the window is too long
    exfalso
    have hrest' : Ring.unread c.uartRecvFifoSize (atTail c r).cmdTailIndex r.fifo.tail =
        rest.length := by
      rw [← hrest]
      exact (Fifo.length_window c ⟨r.fifo.data, (atTail c r).cmdTailIndex, r.fifo.tail⟩).symm
    have hun' := Ring.unread_cases c.uartRecvFifoSize (atTail c r).cmdTailIndex r.fifo.tail
    rw [htailidx] at hrest' hun'
    have htail' : (atHead c r).fifo.tail = r.fifo.tail := rfl
    rw [show Ring.wrap c.uartRecvFifoSize ((atHead c r).fifo.head + q) + 2 =
      c.uartRecvFifoSize + 1 by omega] at hlen' hrest' hun'
    rcases Nat.lt_or_ge (c.uartRecvFifoSize + 1) 65536 with hsmall | hbig
    · rw [Nat.mod_eq_of_lt hsmall] at hlen' hrest' hun'
      rw [if_pos (by omega)] at hlen'
      omega
    · rw [show c.uartRecvFifoSize + 1 = 65536 by omega, Nat.mod_self] at hlen'
      rw [if_neg (Nat.not_lt_zero _)] at hlen'
      omega
  · have hin' : Ring.wrap c.uartRecvFifoSize ((atHead c r).fifo.head + q) + 2 ≤
        c.uartRecvFifoSize := by omega
    have hq' := hq
    rw [hwin] at hq'
    obtain ⟨hbytes, -⟩ := atTail_copy hf hw hq' hidx hin'
    have hqbody : q = msg.body.length := by
      have hl := congrArg List.length hbytes
      rw [hlen, List.length_take, List.length_append] at hl
      omega
    subst hqbody
    refine ⟨(msg.firstAt_tail rest).1 hq', fun h0 => ?_, ?_, ring_of_first hf hw hx hq hin⟩
    · obtain ⟨k, buf, hk, -⟩ := h.input
      rw [enqueueCmd_entry, h.cmd, msg.keywordsPb_nul h0] at hk
      cases hk
    · have hsize : (CStr.copyInto c.uartRecvCmdSize (cmdBytes c (atTail c r))).length =
          c.uartRecvCmdSize := h.size
      rw [hcmd] at hsize
      unfold CStr.copyInto at hsize
      rw [List.length_append] at hsize
      omega

end

/-! ## The law -/

/-- A notification at the front of the window is delivered exactly when the condition holds,
whatever follows it and wherever it lies in the ring. -/
theorem delivered_iff_downlinkOk {c : Config} {r : Recv} {rest : List UInt8}
    (msg : Notification c.moduleType) (hf : r.fifo.Wf c) (h0 : r.cmdGetStep = 0)
    (hw : r.window c = msg.bytes ++ rest) :
    Delivered c r msg rest ↔ DownlinkOk c r msg := by
  rw [delivered_iff_copy hf h0 hw]
  constructor
  · rintro ⟨hfound, h⟩
    exact h.downlinkOk hf hw hfound
  · exact fun h => h.handedOn hf hw

/-- A configuration whose buffers hold a whole line. -/
def lineConfig : Config where
  moduleType := .ec800
  uartRecvFifoSize := 64
  uartRecvCmdSize := 64
  uartRecvQueuSize := 3
  uartSendQueuSize := 3
  uartSendQueuDataSize := 64
  ram := 64
  fifo_keyword := disconnectCmdHead_lt_64 .ec800
  fifo_u16 := fifo64_u16
  fifo_ram := fifo64_ram
  recvQueu_two := smallConfig.recvQueu_two
  sendQueu_two := smallConfig.sendQueu_two

/-- `+QMTRECV: 0,0,"ota",4,"…"` with a payload of four bytes. -/
def otaNotification (payload : List UInt8) (h : payload.length = 4) : Notification .ec800 where
  fields := [CStr.ascii " 0", CStr.ascii "0"]
  topic := CStr.ascii "ota"
  payload := payload
  fields_length := rfl
  fields_ok := by decide
  topic_ok := by decide
  topic_le := by decide
  topic_last := ⟨97, by decide, by decide⟩
  payload_pos := by omega
  payload_le := by omega

/-- The state after the line has come in, and two more bytes with it. -/
def lineReceived (line : List UInt8) : Recv :=
  ((Link.reset (line ++ [43, 43])).deliver lineConfig (line.length + 2)).recv

/-- A payload of a comma, a quote, a NUL and a carriage return. -/
theorem delivered_iff_downlinkOk_ota :
    Delivered lineConfig (lineReceived (otaNotification [44, 34, 0, 13] rfl).bytes)
      (otaNotification [44, 34, 0, 13] rfl) [43, 43] :=
  (delivered_iff_downlinkOk (c := lineConfig) (otaNotification [44, 34, 0, 13] rfl)
      ⟨by decide +kernel, by decide +kernel, by decide +kernel⟩ rfl (by decide +kernel)).2
    ⟨by decide +kernel, by decide +kernel, by decide +kernel, by decide +kernel⟩

/-- A payload with a line end in it is cut there. -/
theorem not_delivered_crlf : ¬ ∀ (c : Config) (r : Recv) (rest : List UInt8)
    (msg : Notification c.moduleType), r.fifo.Wf c → r.cmdGetStep = 0 →
      r.window c = msg.bytes ++ rest → msg.bytes.length ≤ c.uartRecvCmdSize →
      Delivered c r msg rest := by
  intro h
  have hf : (lineReceived (otaNotification [1, 13, 10, 2] rfl).bytes).fifo.Wf lineConfig :=
    ⟨by decide +kernel, by decide +kernel, by decide +kernel⟩
  have hw : (lineReceived (otaNotification [1, 13, 10, 2] rfl).bytes).window lineConfig =
      (otaNotification [1, 13, 10, 2] rfl).bytes ++ [43, 43] := by decide +kernel
  have hd := h lineConfig _ _ (otaNotification [1, 13, 10, 2] rfl) hf rfl hw (by decide +kernel)
  obtain ⟨hfound, hon⟩ := (delivered_iff_copy hf rfl hw).1 hd
  have hbody := (hon.downlinkOk hf hw hfound).body
  revert hbody
  decide +kernel

end AppXd.Net4g
