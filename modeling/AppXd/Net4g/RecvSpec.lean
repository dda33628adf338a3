import AppXd.Net4g.Link

/-!
# What one call of the receive path does

Between two calls the `static` indices of `recv_cmd_from_fifo` stay true of the window as long as
the deliveries fit: `Phase` says of what. `recvPath_cases` then lists the outcomes of a call whose
searches are right (`SearchOk`) in terms of the window alone.
-/

namespace AppXd.Net4g

open Seq (firstAt OccursAt)

abbrev ctrlHead (c : Config) : List UInt8 := netMqttCtrlCmdHead c.moduleType

/-- The indices that step 1 and step 2 have left point to the head of a message at the front of
the window, and to the end of the first tail after it. -/
structure Phase (c : Config) (r : Recv) : Prop where
  wf : r.fifo.Wf c
  step_le : r.cmdGetStep ≤ 3
  two : r.cmdGetStep = 2 → r.cmdHeadIndex = r.fifo.head ∧ OccursAt (ctrlHead c) (r.window c) 0
  three : r.cmdGetStep = 3 → r.cmdHeadIndex = r.fifo.head ∧ OccursAt (ctrlHead c) (r.window c) 0 ∧
    ∃ q, firstAt netMqttCtrlCmdTail (r.window c) = some q ∧
      r.cmdTailIndex = Ring.wrap c.uartRecvFifoSize (r.fifo.head + q) + 2 ∧
      r.cmdTailIndex ≤ c.uartRecvFifoSize

/-- The search of this call's step is right, and a tail that it finds does not straddle the end of
the ring. -/
structure SearchOk (c : Config) (r : Recv) : Prop where
  head : r.cmdGetStep = 1 →
    Crossing c r.fifo.data r.fifo.head r.fifo.tail (ctrlHead c)
  tail : r.cmdGetStep = 2 →
    Crossing c r.fifo.data r.fifo.head r.fifo.tail netMqttCtrlCmdTail
  inside : r.cmdGetStep = 2 → ∀ q, firstAt netMqttCtrlCmdTail (r.window c) = some q →
    Ring.wrap c.uartRecvFifoSize (r.fifo.head + q) + 2 ≤ c.uartRecvFifoSize

instance (c : Config) (r : Recv) : Decidable (SearchOk c r) :=
  decidable_of_iff ((r.cmdGetStep = 1 →
        Crossing c r.fifo.data r.fifo.head r.fifo.tail (ctrlHead c)) ∧
      (r.cmdGetStep = 2 → Crossing c r.fifo.data r.fifo.head r.fifo.tail netMqttCtrlCmdTail) ∧
      (r.cmdGetStep = 2 → ∀ q ∈ firstAt netMqttCtrlCmdTail (r.window c),
        Ring.wrap c.uartRecvFifoSize (r.fifo.head + q) + 2 ≤ c.uartRecvFifoSize))
    ⟨fun h => ⟨h.1, h.2.1, h.2.2⟩, fun h => ⟨h.head, h.tail, h.inside⟩⟩

/-- The call gives the window up: it is shorter than the head, or the head does not occur in it. -/
def Discards (c : Config) (r : Recv) : Prop :=
  r.cmdGetStep = 0 ∧ (r.window c).length < (ctrlHead c).length ∨
    r.cmdGetStep = 1 ∧ firstAt (ctrlHead c) (r.window c) = none

instance (c : Config) (r : Recv) : Decidable (Discards c r) := by
  unfold Discards
  infer_instance

/-- The outcomes of a call without check flags. -/
inductive RecvOutcome (c : Config) (r : Recv) (info : SignalInfo) : GetRecvRet → Prop
  | idle (hi : Nat) : r.cmdGetStep = 0 → r.window c = [] → RecvOutcome c r info ⟨0, r, info, 0, hi⟩
  | start (hi : Nat) : r.cmdGetStep = 0 → (ctrlHead c).length ≤ (r.window c).length →
    RecvOutcome c r info
      ⟨0, { r with cmdHeadIndex := 0, cmdTailIndex := 0, cmdGetStep := 1 }, info, 0, hi⟩
  | noHead (i hi : Nat) : Discards c r →
    RecvOutcome c r info (headFail c { r with cmdHeadIndex := i, cmdGetStep := 0 } info hi)
  | head (p hi : Nat) : r.cmdGetStep = 1 → firstAt (ctrlHead c) (r.window c) = some p →
    RecvOutcome c r info
      ⟨0, { r with
        cmdHeadIndex := Ring.wrap c.uartRecvFifoSize (r.fifo.head + p)
        fifo := { r.fifo with head := Ring.wrap c.uartRecvFifoSize (r.fifo.head + p) }
        cmdGetStep := 2 }, info, 0, hi⟩
  | noTail (i hi : Nat) : r.cmdGetStep = 2 →
    firstAt netMqttCtrlCmdTail (r.window c) = none →
    RecvOutcome c r info ⟨3, { r with cmdTailIndex := i, cmdGetStep := 0 }, info, 0, hi⟩
  | tail (q hi : Nat) : r.cmdGetStep = 2 →
    firstAt netMqttCtrlCmdTail (r.window c) = some q →
    RecvOutcome c r info
      ⟨0, { r with
        cmdTailIndex := Ring.wrap c.uartRecvFifoSize (r.fifo.head + q) + 2
        cmdGetStep := 3 }, info, 0, hi⟩
  | cmd (q hi : Nat) : r.cmdGetStep = 3 →
    firstAt netMqttCtrlCmdTail (r.window c) = some q →
    RecvOutcome c r info
      ⟨1, enqueueCmd c { r with
        recvCmd := CStr.copyInto c.uartRecvCmdSize ((r.window c).take (q + 2))
        recvCmdLen := ((r.window c).take (q + 2)).length
        fifo := { r.fifo with head := r.cmdTailIndex }
        cmdGetStep := 0 }, info, 0, hi⟩

section
variable {c : Config} {r : Recv} {info : SignalInfo}

theorem length_ctrlCmdTail : netMqttCtrlCmdTail.length = 2 := rfl

theorem unread_eq {f : Fifo} (h : f.tail ≠ f.head) :
    (if f.head < f.tail then f.tail - f.head else c.uartRecvFifoSize - f.head + f.tail) =
      Ring.unread c.uartRecvFifoSize f.head f.tail := by
  unfold Ring.unread
  split <;> split <;> omega

/-- A window shorter than the key does not hold it. -/
theorem firstAt_none_of_short {key w : List UInt8} (h : w.length < key.length) :
    firstAt key w = none := by
  refine Seq.firstAt_eq_none fun p hp => ?_
  have hne : key ≠ [] := List.ne_nil_of_length_pos (by omega)
  have := hp.le_length hne
  omega

/-- Where the command at the front of the window ends. -/
theorem Phase.tailIndex (hp : Phase c r) (h3 : r.cmdGetStep = 3) {q : Nat}
    (hq : firstAt netMqttCtrlCmdTail (r.window c) = some q) :
    r.cmdHeadIndex = r.fifo.head ∧ r.cmdTailIndex ≤ c.uartRecvFifoSize ∧
      q + 2 ≤ Ring.unread c.uartRecvFifoSize r.fifo.head r.fifo.tail ∧
      (r.fifo.head + q < c.uartRecvFifoSize ∧ r.cmdTailIndex = r.fifo.head + (q + 2) ∨
        r.cmdTailIndex + c.uartRecvFifoSize = r.fifo.head + (q + 2) ∧
          r.cmdTailIndex ≤ r.fifo.tail ∧ r.fifo.tail < r.fifo.head) := by
  obtain ⟨hh, -, q', hq', ht, hle⟩ := hp.three h3
  rw [hq] at hq'
  cases hq'
  have hlen := Seq.firstAt_le_length hq keyword_ctrlCmdTail.ne_nil
  rw [length_ctrlCmdTail, Recv.window, Fifo.length_window] at hlen
  have hhead := hp.wf.head_le
  have htail := hp.wf.tail_lt
  have hun := Ring.unread_cases c.uartRecvFifoSize r.fifo.head r.fifo.tail
  have hwrap := Ring.wrap_cases c.uartRecvFifoSize (r.fifo.head + q)
  exact ⟨hh, hle, hlen, by omega⟩

/-- Step 3 copies the cells between its two indices. -/
theorem cmdBytes_eq_window (h : r.cmdHeadIndex ≠ r.cmdTailIndex) :
    AppXd.Net4g.cmdBytes c r =
      Ring.window r.fifo.data c.uartRecvFifoSize r.cmdHeadIndex r.cmdTailIndex := by
  unfold AppXd.Net4g.cmdBytes
  split
  · exact (Ring.window_of_le (Nat.le_of_lt ‹_›)).symm
  · exact (Ring.window_of_lt (by omega)).symm

/-- What step 3 copies is the command at the front of the window. -/
theorem Phase.cmdBytes (hp : Phase c r) (h3 : r.cmdGetStep = 3) {q : Nat}
    (hq : firstAt netMqttCtrlCmdTail (r.window c) = some q) :
    cmdBytes c r = (r.window c).take (q + 2) := by
  obtain ⟨hh, hle, hlen, hidx⟩ := hp.tailIndex h3 hq
  have hhead := hp.wf.head_le
  rw [cmdBytes_eq_window (by omega), hh]
  exact Ring.window_take hhead hlen hle (by omega)

/-- The window behind a command. -/
theorem Phase.window_drop (hp : Phase c r) (h3 : r.cmdGetStep = 3) {q : Nat}
    (hq : firstAt netMqttCtrlCmdTail (r.window c) = some q) :
    Fifo.window c { r.fifo with head := r.cmdTailIndex } = (r.window c).drop (q + 2) := by
  obtain ⟨hh, hle, hlen, hidx⟩ := hp.tailIndex h3 hq
  have hend : r.cmdTailIndex = r.fifo.head + (q + 2) ∨
      r.cmdTailIndex + c.uartRecvFifoSize = r.fifo.head + (q + 2) ∧ r.fifo.tail < r.fifo.head :=
    hidx.imp And.right fun h => ⟨h.1, h.2.2⟩
  exact Ring.window_drop hp.wf.head_le hp.wf.tail_lt hlen hle hend

/-- The cases of the `switch` in `recv_cmd_from_fifo`: the four steps and the default. -/
theorem cmdGetStep_cases (n : Nat) : n = 0 ∨ n = 1 ∨ n = 2 ∨ n = 3 ∨ ∃ k, n = k + 4 := by
  obtain h | h : n < 4 ∨ 4 ≤ n := Nat.lt_or_ge n 4
  · omega
  · exact .inr (.inr (.inr (.inr ⟨n - 4, (Nat.sub_add_cancel h).symm⟩)))

/-- Step 0 looks at the number of unread bytes. -/
theorem recvCmdFromFifo_zero (h0 : r.cmdGetStep = 0) :
    recvCmdFromFifo c (ctrlHead c) netMqttCtrlCmdTail r =
      if r.window c = [] then ⟨0, r, 0⟩
      else if (ctrlHead c).length ≤ (r.window c).length then
        ⟨0, { r with cmdHeadIndex := 0, cmdTailIndex := 0, cmdGetStep := 1 }, 0⟩
      else ⟨2, r, 0⟩ := by
  have hkey := (keyword_ctrlCmdHead c.moduleType).length_pos
  rw [recvCmdFromFifo, h0]
  by_cases hne : r.fifo.tail = r.fifo.head
  · have hnil : r.window c = [] := by
      rw [Recv.window, Fifo.window, hne]
      exact Ring.window_self ..
    rw [if_pos hnil]
    exact if_neg (Decidable.not_not.2 hne)
  · simp only [if_pos hne, unread_eq hne]
    rw [← Fifo.length_window]
    by_cases hnil : r.window c = []
    · have hzero : (r.fifo.window c).length = 0 := List.length_eq_zero_iff.2 hnil
      rw [if_pos hnil, hzero, if_neg (Nat.not_le.2 hkey), if_neg (Nat.lt_irrefl 0)]
    · have hpos : 0 < (r.fifo.window c).length := List.length_pos_of_ne_nil hnil
      rw [if_neg hnil, if_pos hpos]
      rfl

theorem recvPath_cases (hp : Phase c r) (hs : SearchOk c r) :
    RecvOutcome c r info (recvPath c r info) := by
  have hh := hp.wf.head_le
  have ht := hp.wf.tail_lt
  have hz := hp.wf.data_tail
  obtain h0 | h1 | h2 | h3 : r.cmdGetStep = 0 ∨ r.cmdGetStep = 1 ∨ r.cmdGetStep = 2 ∨
      r.cmdGetStep = 3 := by have := hp.step_le; omega
  · rw [recvPath, recvCmdFromFifo_zero h0]
    by_cases hnil : r.window c = []
    · rw [if_pos hnil]
      exact .idle _ h0 hnil
    rw [if_neg hnil]
    by_cases hlen : (ctrlHead c).length ≤ (r.window c).length
    · rw [if_pos hlen]
      exact .start _ h0 hlen
    · rw [if_neg hlen]
      have hout : RecvOutcome c r info _ :=
        .noHead r.cmdHeadIndex 0 (.inl ⟨h0, Nat.lt_of_not_le hlen⟩)
      rwa [show { r with cmdHeadIndex := r.cmdHeadIndex, cmdGetStep := 0 } = r by rw [← h0]] at hout
  · have hspec := getKeyDataIndex_spec (keyword_ctrlCmdHead c.moduleType) hh ht hz (hs.head h1)
      r.cmdHeadIndex
    rw [recvPath, recvCmdFromFifo, h1]
    simp only
    cases hfirst : firstAt (ctrlHead c) (r.window c) with
    | some p =>
      obtain ⟨hfound, hindex⟩ := hspec.of_some hfirst
      rw [if_pos hfound]
      simp only [hindex]
      exact .head p _ h1 hfirst
    | none =>
      rw [hspec.of_none hfirst]
      exact .noHead _ _ (.inr ⟨h1, hfirst⟩)
  · have hspec := getKeyDataIndex_spec keyword_ctrlCmdTail hh ht hz (hs.tail h2) r.cmdTailIndex
    rw [recvPath, recvCmdFromFifo, h2]
    simp only
    cases hfirst : firstAt netMqttCtrlCmdTail (r.window c) with
    | some q =>
      obtain ⟨hfound, hindex⟩ := hspec.of_some hfirst
      have hin := hs.inside h2 q hfirst
      have hu16 := c.fifo_u16
      rw [if_pos hfound]
      simp only [hindex, length_ctrlCmdTail]
      rw [Nat.mod_eq_of_lt (by omega)]
      exact .tail q _ h2 hfirst
    | none =>
      rw [hspec.of_none hfirst]
      exact .noTail _ _ h2 hfirst
  · obtain ⟨-, -, q, hq, -⟩ := hp.three h3
    rw [recvPath, recvCmdFromFifo, h3]
    simp only [hp.cmdBytes h3 hq]
    exact .cmd q _ h3 hq

theorem Discards.none (h : Discards c r) : firstAt (ctrlHead c) (r.window c) = none := by
  rcases h with ⟨-, h⟩ | ⟨-, h⟩
  · exact firstAt_none_of_short h
  · exact h

/-- The window from an occurrence in it on. -/
theorem Recv.window_head (hf : r.fifo.Wf c) {key : List UInt8} (hk : Keyword key) {p : Nat}
    (hp : firstAt key (r.window c) = some p) :
    let f : Fifo := { r.fifo with head := Ring.wrap c.uartRecvFifoSize (r.fifo.head + p) }
    f.Wf c ∧ f.head < c.uartRecvFifoSize ∧ f.window c = (r.window c).drop p := by
  have hlen := Seq.firstAt_le_length hp hk.ne_nil
  rw [Recv.window, Fifo.length_window] at hlen
  have hpos := hk.length_pos
  have hhead := hf.head_le
  have htail := hf.tail_lt
  have hun := Ring.unread_cases c.uartRecvFifoSize r.fifo.head r.fifo.tail
  have hwrap := Ring.wrap_cases c.uartRecvFifoSize (r.fifo.head + p)
  have hlt : Ring.wrap c.uartRecvFifoSize (r.fifo.head + p) < c.uartRecvFifoSize := by omega
  have hend : Ring.wrap c.uartRecvFifoSize (r.fifo.head + p) = r.fifo.head + p ∨
      Ring.wrap c.uartRecvFifoSize (r.fifo.head + p) + c.uartRecvFifoSize = r.fifo.head + p ∧
        r.fifo.tail < r.fifo.head := by omega
  have hle : p ≤ Ring.unread c.uartRecvFifoSize r.fifo.head r.fifo.tail := by omega
  exact ⟨⟨hlt.le, htail, hf.data_tail⟩, hlt, Ring.window_drop hhead htail hle hlt.le hend⟩

/-- A delivery that fits moves neither the head nor what is found in the window. -/
theorem Phase.deliver (hp : Phase c r) {f : Fifo} {bs : List UInt8} (hf : f.Wf c)
    (hh : f.head = r.fifo.head) (hw : f.window c = r.window c ++ bs) :
    Phase c { r with fifo := f } := by
  refine ⟨hf, hp.step_le, fun h2 => ?_, fun h3 => ?_⟩
  · obtain ⟨h, ho⟩ := hp.two h2
    refine ⟨h.trans hh.symm, ?_⟩
    rw [Recv.window, hw]
    exact ho.append bs
  · obtain ⟨h, ho, q, hq, ht, hle⟩ := hp.three h3
    refine ⟨h.trans hh.symm, ?_, q, ?_, ?_, hle⟩
    · rw [Recv.window, hw]
      exact ho.append bs
    · rw [Recv.window, hw]
      exact Seq.firstAt_append keyword_ctrlCmdTail.ne_nil hq bs
    · rw [hh]
      exact ht

/-- Before a head is found the indices say nothing. -/
theorem Phase.early (hf : r.fifo.Wf c) (h : r.cmdGetStep ≤ 1) : Phase c r :=
  ⟨hf, by omega, fun h2 => by omega, fun h3 => by omega⟩

theorem RecvOutcome.phase (hp : Phase c r) (hs : SearchOk c r) {g : GetRecvRet}
    (h : RecvOutcome c r info g) : Phase c g.recv := by
  cases h with
  | idle => exact hp
  | start => exact .early hp.wf (Nat.le_refl 1)
  | noHead i hi =>
    obtain ⟨f, hf, hr⟩ := headFail_recv (c := c) { r with cmdHeadIndex := i, cmdGetStep := 0 }
      info hi
    have hwf := hf.wf hp.wf
    rw [hr]
    exact .early ⟨hwf.tail_lt.le, hwf.tail_lt, hwf.data_tail⟩ (Nat.zero_le 1)
  | head p _ h1 hfirst =>
    obtain ⟨hwf, hlt, hw⟩ := Recv.window_head hp.wf (keyword_ctrlCmdHead c.moduleType) hfirst
    refine ⟨hwf, Nat.le_succ 2, fun _ => ⟨rfl, ?_⟩, nofun⟩
    rw [Recv.window, hw]
    exact Seq.occursAt_drop.2 (Seq.firstAt_occursAt hfirst)
  | noTail => exact .early hp.wf (Nat.zero_le 1)
  | tail q _ h2 hfirst =>
    obtain ⟨hh, ho⟩ := hp.two h2
    exact ⟨hp.wf, Nat.le_refl 3, nofun, fun _ => ⟨hh, ho, q, hfirst, rfl, hs.inside h2 q hfirst⟩⟩
  | cmd q _ h3 =>
    obtain ⟨-, -, -, -, -, hle⟩ := hp.three h3
    exact .early ⟨hle, hp.wf.tail_lt, hp.wf.data_tail⟩ (Nat.zero_le 1)

end

end AppXd.Net4g
