import AppXd.Net4g.FifoReads

/-!
# The FIFO's indices

Whatever arrives and however the two sides take turns, the indices stay inside the ring and the
calls read inside the array, as long as every step meets `IndexCond`. What it excludes: a command
that ends at the end of the ring or straddles it, a search that runs on behind the ring's end, a C
string without NUL in the array, a command longer than its buffer, and a ring so small that the
callback's `uint8_t` can point behind it.
-/

namespace AppXd.Net4g

open Seq (firstAt)
open Trace (Run Guarded Fun)

/-- What holds of the indices between two steps. -/
structure Indexed (c : Config) (r : Recv) : Prop where
  head_lt : r.fifo.head < c.uartRecvFifoSize
  tail_lt : r.fifo.tail < c.uartRecvFifoSize
  data_tail : r.fifo.data r.fifo.tail = 0
  cmdHead_lt : r.cmdHeadIndex < c.uartRecvFifoSize
  cmdTail_le : r.cmdTailIndex ≤ c.uartRecvFifoSize
  cmdTail_lt : r.cmdGetStep ≠ 3 → r.cmdTailIndex < c.uartRecvFifoSize
  begun : r.cmdGetStep = 2 → r.cmdHeadIndex = r.fifo.head
  ended : r.cmdGetStep = 3 → r.cmdTailIndex ≠ r.cmdHeadIndex

theorem Indexed.wf {c : Config} {r : Recv} (h : Indexed c r) : r.fifo.Wf c :=
  ⟨h.head_lt.le, h.tail_lt, h.data_tail⟩

/-! ## The condition -/

/-- The search of step 2 is right and the tail that it finds does not straddle the end of the
ring; or a `\r` ends the ring and no `\n` follows it, so that a wrong search finds nothing. -/
def TailOk (c : Config) (f : Fifo) : Prop :=
  (Crossing c f.data f.head f.tail netMqttCtrlCmdTail ∧
    ∀ q ∈ firstAt netMqttCtrlCmdTail (f.window c),
      Ring.wrap c.uartRecvFifoSize (f.head + q) + 2 ≤ c.uartRecvFifoSize) ∨
  (¬ Crossing c f.data f.head f.tail netMqttCtrlCmdTail ∧ ∀ q < f.tail, f.data q ≠ 10)

/-- The condition on a call without check flags. -/
structure RecvIndexCond (c : Config) (r : Recv) : Prop where
  short : r.cmdGetStep = 0 → 0 < (r.window c).length →
    (r.window c).length < (ctrlHead c).length → HeadFailOk c r.fifo
  reads : r.cmdGetStep = 1 → SearchReads c r.fifo (ctrlHead c)
  head : r.cmdGetStep = 1 → Crossing c r.fifo.data r.fifo.head r.fifo.tail (ctrlHead c) ∧
    firstAt (ctrlHead c) (r.window c) ≠ none ∨ HeadFailOk c r.fifo
  tail : r.cmdGetStep = 2 → TailOk c r.fifo
  inside : r.cmdGetStep = 3 → r.cmdTailIndex < c.uartRecvFifoSize
  fits : r.cmdGetStep = 3 →
    Ring.unread c.uartRecvFifoSize r.cmdHeadIndex r.cmdTailIndex ≤ c.uartRecvCmdSize

/-- The condition on a call. -/
def CallIndexCond (c : Config) (r : Recv) : Prop :=
  if r.checkPubMiddleFlag then SearchReads c r.fifo netMqttPubMiddleHead
  else if r.checkPubAckFlag then SearchReads c r.fifo (netMqttPubRspHead c.moduleType)
  else RecvIndexCond c r

def IndexCond (c : Config) (s : Link) : LinkEvent → Prop
  | .uart len => c.uartRecvFifoSize ≤ s.recv.fifo.tail + len →
    (s.recv.fifo.tail + len - c.uartRecvFifoSize) % 256 < c.uartRecvFifoSize
  | .call => CallIndexCond c s.recv

section
variable (c : Config)

instance (f : Fifo) : Decidable (TailOk c f) := by
  unfold TailOk
  infer_instance

instance (r : Recv) : Decidable (RecvIndexCond c r) :=
  decidable_of_iff ((r.cmdGetStep = 0 → 0 < (r.window c).length →
        (r.window c).length < (ctrlHead c).length → HeadFailOk c r.fifo) ∧
      (r.cmdGetStep = 1 → SearchReads c r.fifo (ctrlHead c)) ∧
      (r.cmdGetStep = 1 → Crossing c r.fifo.data r.fifo.head r.fifo.tail (ctrlHead c) ∧
        firstAt (ctrlHead c) (r.window c) ≠ none ∨ HeadFailOk c r.fifo) ∧
      (r.cmdGetStep = 2 → TailOk c r.fifo) ∧
      (r.cmdGetStep = 3 → r.cmdTailIndex < c.uartRecvFifoSize) ∧
      (r.cmdGetStep = 3 →
        Ring.unread c.uartRecvFifoSize r.cmdHeadIndex r.cmdTailIndex ≤ c.uartRecvCmdSize))
    ⟨fun ⟨h1, h2, h3, h4, h5, h6⟩ => ⟨h1, h2, h3, h4, h5, h6⟩,
      fun ⟨h1, h2, h3, h4, h5, h6⟩ => ⟨h1, h2, h3, h4, h5, h6⟩⟩

instance (r : Recv) : Decidable (CallIndexCond c r) := by
  unfold CallIndexCond
  infer_instance

instance (s : Link) (e : LinkEvent) : Decidable (IndexCond c s e) := by
  cases e <;> (unfold IndexCond; infer_instance)

end

/-! ## The property -/

/-- The bytes that step 3 hands out are those of the ring from the head index up to the tail index,
which step 2 has put behind the first tail keyword. -/
structure CopiesOk (c : Config) (r r' : Recv) : Prop where
  tail : r.cmdGetStep = 2 → r'.cmdGetStep = 3 →
    ∃ q, firstAt netMqttCtrlCmdTail (r.window c) = some q ∧
      r'.cmdTailIndex = Ring.wrap c.uartRecvFifoSize (r.fifo.head + q) + 2
  copy : r.cmdGetStep = 3 →
    let bytes := Ring.window r.fifo.data c.uartRecvFifoSize r.cmdHeadIndex r.cmdTailIndex
    r'.recvCmd = CStr.copyInto c.uartRecvCmdSize bytes ∧ r'.recvCmdLen = bytes.length ∧
      bytes.length ≤ c.uartRecvCmdSize

/-- The step leaves the indices in range, and a call reads inside the array. -/
structure IndexOk (c : Config) (s : Link) (e : LinkEvent) : Prop where
  head : (s.step c e).recv.fifo.head < c.uartRecvFifoSize
  tail : (s.step c e).recv.fifo.tail < c.uartRecvFifoSize
  cmdHead : (s.step c e).recv.cmdHeadIndex < c.uartRecvFifoSize
  cmdTail : (s.step c e).recv.cmdTailIndex ≤ c.uartRecvFifoSize
  reads : e = .call → (s.received c).hi ≤ c.uartRecvFifoSize
  copies : e = .call → s.recv.checkPubMiddleFlag = false → s.recv.checkPubAckFlag = false →
    CopiesOk c s.recv (s.received c).recv

/-! ## One step -/

section
variable {c : Config} {r : Recv} (info : SignalInfo)

/-- What a call owes to the indices. -/
structure Called (c : Config) (r : Recv) (g : GetRecvRet) : Prop where
  indexed : Indexed c g.recv
  hi : g.hi ≤ c.uartRecvFifoSize
  copies : CopiesOk c r g.recv

theorem CopiesOk.of_step {r' : Recv} (h2 : r.cmdGetStep ≠ 2) (h3 : r.cmdGetStep ≠ 3) :
    CopiesOk c r r' := ⟨fun h => absurd h h2, fun h => absurd h h3⟩

/-- The branch on a missing head. -/
theorem headFail_called (hr : Indexed c r) (h0 : r.cmdGetStep = 0) {i hi : Nat} {r' : Recv}
    (hi' : i < c.uartRecvFifoSize) (hr' : r' = { r with cmdHeadIndex := i })
    (hok : HeadFailOk c r'.fifo) (hhi : hi ≤ c.uartRecvFifoSize) :
    Indexed c (headFail c r' info hi).recv ∧ (headFail c r' info hi).hi ≤ c.uartRecvFifoSize := by
  subst hr'
  obtain ⟨f, hf, hrecv⟩ := headFail_recv (c := c) { r with cmdHeadIndex := i } info hi
  have hwf := hf.wf hr.wf
  refine ⟨?_, headFail_hi hr.wf hok hhi⟩
  rw [hrecv]
  exact ⟨hwf.tail_lt, hwf.tail_lt, hwf.data_tail, hi', hr.cmdTail_le, hr.cmdTail_lt,
    fun (h : r.cmdGetStep = 2) => by omega, fun (h : r.cmdGetStep = 3) => by omega⟩

/-- A call without check flags whose step is 0. -/
theorem recvPath_zero (hr : Indexed c r) (h : RecvIndexCond c r) (h0 : r.cmdGetStep = 0) :
    Called c r (recvPath c r info) := by
  have hcopies : ∀ r', CopiesOk c r r' := fun r' =>
    .of_step (by rw [h0]; decide) (by rw [h0]; decide)
  have hlt := hr.cmdTail_lt (by rw [h0]; decide)
  rw [recvPath, recvCmdFromFifo_zero h0]
  by_cases hnil : r.window c = []
  · rw [if_pos hnil]
    exact ⟨hr, Nat.zero_le _, hcopies _⟩
  rw [if_neg hnil]
  by_cases hlen : (ctrlHead c).length ≤ (r.window c).length
  · rw [if_pos hlen]
    exact ⟨⟨hr.head_lt, hr.tail_lt, hr.data_tail, c.fifo_pos, Nat.zero_le _, fun _ => c.fifo_pos,
      by rintro ⟨⟩, by rintro ⟨⟩⟩, Nat.zero_le _, hcopies _⟩
  · rw [if_neg hlen]
    obtain ⟨h1, h2⟩ := headFail_called info hr h0 hr.cmdHead_lt rfl
      (h.short h0 (List.length_pos_of_ne_nil hnil) (Nat.lt_of_not_le hlen)) (Nat.zero_le _)
    exact ⟨h1, h2, hcopies _⟩

/-- A call without check flags whose step is 1. -/
theorem recvPath_one (hr : Indexed c r) (h : RecvIndexCond c r) (h1 : r.cmdGetStep = 1) :
    Called c r (recvPath c r info) := by
  have hcopies : ∀ r', CopiesOk c r r' := fun r' =>
    .of_step (by rw [h1]; decide) (by rw [h1]; decide)
  have hlt := hr.cmdTail_lt (by rw [h1]; decide)
  have hk := keyword_ctrlCmdHead c.moduleType
  have hhi := (h.reads h1).hi hr.wf hk r.cmdHeadIndex
  have hidx : (searchWindow c r.fifo (ctrlHead c) r.cmdHeadIndex).index < c.uartRecvFifoSize :=
    getKeyDataIndex_index hr.wf.head_le hr.tail_lt hr.cmdHead_lt
  have hfirst : Crossing c r.fifo.data r.fifo.head r.fifo.tail (ctrlHead c) →
      firstAt (ctrlHead c) (r.window c) ≠ none →
      (searchWindow c r.fifo (ctrlHead c) r.cmdHeadIndex).found = true := fun hx hw => by
    have hspec := getKeyDataIndex_spec hk hr.wf.head_le hr.tail_lt hr.data_tail hx r.cmdHeadIndex
    obtain ⟨p, hp⟩ := Option.ne_none_iff_exists'.1 hw
    exact (hspec.of_some hp).1
  rw [recvPath, recvCmdFromFifo, h1]
  simp only
  rw [searchWindow] at hhi hidx hfirst
  generalize getKeyDataIndex c r.fifo.data r.fifo.head r.fifo.tail (ctrlHead c) r.cmdHeadIndex = k
    at hhi hidx hfirst ⊢
  cases hfound : k.found with
  | true =>
    simp only [if_true]
    exact ⟨⟨hidx, hr.tail_lt, hr.data_tail, hidx, hr.cmdTail_le, fun _ => hlt, fun _ => rfl,
      by rintro ⟨⟩⟩, hhi, hcopies _⟩
  | false =>
    simp only [Bool.false_eq_true, if_false]
    have hok : HeadFailOk c r.fifo := (h.head h1).resolve_left (by
      rintro ⟨hx, hw⟩
      rw [hfirst hx hw] at hfound
      cases hfound)
    have hr0 : Indexed c { r with cmdGetStep := 0 } :=
      ⟨hr.head_lt, hr.tail_lt, hr.data_tail, hr.cmdHead_lt, hr.cmdTail_le, fun _ => hlt,
        by rintro ⟨⟩, by rintro ⟨⟩⟩
    obtain ⟨h2, h3⟩ := headFail_called info hr0 rfl hidx rfl hok hhi
    exact ⟨h2, h3, hcopies _⟩

/-- Where the search of step 2 finds a tail, it is the first one, and it ends inside the ring. -/
theorem TailOk.found {f : Fifo} (h : TailOk c f) (hf : f.Wf c) (idx : Nat)
    (hfound : (searchWindow c f netMqttCtrlCmdTail idx).found = true) :
    ∃ q, firstAt netMqttCtrlCmdTail (f.window c) = some q ∧
      (searchWindow c f netMqttCtrlCmdTail idx).index + 2 =
        Ring.wrap c.uartRecvFifoSize (f.head + q) + 2 ∧
      Ring.wrap c.uartRecvFifoSize (f.head + q) + 2 ≤ c.uartRecvFifoSize := by
  rcases h with ⟨hx, hin⟩ | ⟨hx, hn⟩
  · have hspec := getKeyDataIndex_spec keyword_ctrlCmdTail hf.head_le hf.tail_lt hf.data_tail hx idx
    cases hw : firstAt netMqttCtrlCmdTail (f.window c) with
    | none => exact absurd (hfound.symm.trans (hspec.of_none hw)) nofun
    | some q => exact ⟨q, rfl, congrArg (· + 2) (hspec.of_some hw).2, hin q hw⟩
  · obtain ⟨q, hq, hcell⟩ := (getKeyDataIndex_cut hf.head_le hf.tail_lt hx idx).1 hfound
    exact absurd hcell (hn q hq)

/-- A call without check flags whose step is 2. -/
theorem recvPath_two (hr : Indexed c r) (h : RecvIndexCond c r) (h2 : r.cmdGetStep = 2) :
    Called c r (recvPath c r info) := by
  have hlt := hr.cmdTail_lt (by rw [h2]; decide)
  have hk := keyword_ctrlCmdTail
  have hreads : SearchReads c r.fifo netMqttCtrlCmdTail :=
    .inr (by have := hr.tail_lt; rw [length_ctrlCmdTail]; omega)
  have hhi := hreads.hi hr.wf hk r.cmdTailIndex
  have hidx : (searchWindow c r.fifo netMqttCtrlCmdTail r.cmdTailIndex).index <
      c.uartRecvFifoSize := getKeyDataIndex_index hr.wf.head_le hr.tail_lt hlt
  have hfirst := (h.tail h2).found hr.wf r.cmdTailIndex
  rw [recvPath, recvCmdFromFifo, h2]
  simp only
  rw [searchWindow] at hhi hidx hfirst
  generalize getKeyDataIndex c r.fifo.data r.fifo.head r.fifo.tail netMqttCtrlCmdTail
    r.cmdTailIndex = k at hhi hidx hfirst ⊢
  cases hfound : k.found with
  | false =>
    simp only [Bool.false_eq_true, if_false]
    exact ⟨⟨hr.head_lt, hr.tail_lt, hr.data_tail, hr.cmdHead_lt, hidx.le, fun _ => hidx,
      by rintro ⟨⟩, by rintro ⟨⟩⟩, hhi, fun _ => by rintro ⟨⟩, fun h3 => by rw [h2] at h3; cases h3⟩
  | true =>
    simp only [if_true]
    obtain ⟨q, hq, hkq, hin⟩ := hfirst hfound
    have hu16 := c.fifo_u16
    rw [length_ctrlCmdTail, Nat.mod_eq_of_lt (by omega), hkq]
    refine ⟨⟨hr.head_lt, hr.tail_lt, hr.data_tail, hr.cmdHead_lt, hin,
      fun h3 => absurd rfl h3, by rintro ⟨⟩, fun _ => ?_⟩,
      hhi, fun _ _ => ⟨q, hq, rfl⟩, fun h3 => by rw [h2] at h3; cases h3⟩
    -- the command is shorter than the ring
    have hlen := Seq.firstAt_le_length hq hk.ne_nil
    rw [length_ctrlCmdTail, Fifo.length_window] at hlen
    have hun := Ring.unread_cases c.uartRecvFifoSize r.fifo.head r.fifo.tail
    have hwrap := Ring.wrap_cases c.uartRecvFifoSize (r.fifo.head + q)
    have hh := hr.head_lt
    have ht := hr.tail_lt
    show Ring.wrap c.uartRecvFifoSize (r.fifo.head + q) + 2 ≠ r.cmdHeadIndex
    rw [hr.begun h2]
    omega

/-- A call without check flags whose step is 3. -/
theorem recvPath_three (hr : Indexed c r) (h : RecvIndexCond c r) (h3 : r.cmdGetStep = 3) :
    Called c r (recvPath c r info) := by
  have hin := h.inside h3
  have hne := hr.ended h3
  have hbytes : cmdBytes c r =
      Ring.window r.fifo.data c.uartRecvFifoSize r.cmdHeadIndex r.cmdTailIndex := by
    unfold cmdBytes Ring.window
    split
    · rw [if_pos (Nat.le_of_lt ‹_›)]
    · rw [if_neg (by omega)]
  have hend : cmdBytesEnd c r ≤ c.uartRecvFifoSize := by
    unfold cmdBytesEnd
    split <;> omega
  rw [recvPath, recvCmdFromFifo, h3]
  refine ⟨⟨hin, hr.tail_lt, hr.data_tail, hr.cmdHead_lt, hr.cmdTail_le, fun _ => hin,
    by rintro ⟨⟩, by rintro ⟨⟩⟩,
    hend, fun (h2 : r.cmdGetStep = 2) => by omega, fun _ => ?_⟩
  rw [← hbytes]
  refine ⟨rfl, rfl, ?_⟩
  rw [hbytes, Ring.length_window]
  exact h.fits h3

/-- A call without check flags in any other step only resets the step. -/
theorem recvPath_other (hr : Indexed c r) (h : 3 < r.cmdGetStep) :
    Called c r (recvPath c r info) := by
  have hret : recvCmdFromFifo c (ctrlHead c) netMqttCtrlCmdTail r =
      ⟨0, { r with cmdGetStep := 0 }, 0⟩ := by
    unfold recvCmdFromFifo
    split <;> first | omega | rfl
  have hlt := hr.cmdTail_lt (by omega)
  rw [recvPath, hret]
  exact ⟨⟨hr.head_lt, hr.tail_lt, hr.data_tail, hr.cmdHead_lt, hr.cmdTail_le, fun _ => hlt,
    by rintro ⟨⟩, by rintro ⟨⟩⟩, Nat.zero_le _, .of_step (by omega) (by omega)⟩

theorem recvPath_called (hr : Indexed c r) (h : RecvIndexCond c r) :
    Called c r (recvPath c r info) := by
  obtain h0 | h1 | h2 | h3 | h4 : r.cmdGetStep = 0 ∨ r.cmdGetStep = 1 ∨ r.cmdGetStep = 2 ∨
      r.cmdGetStep = 3 ∨ 3 < r.cmdGetStep := by omega
  · exact recvPath_zero info hr h h0
  · exact recvPath_one info hr h h1
  · exact recvPath_two info hr h h2
  · exact recvPath_three info hr h h3
  · exact recvPath_other info hr h4

/-- The callback leaves the tail inside the ring. -/
theorem Indexed.deliver (hr : Indexed c r) (uart : List UInt8) {len : Nat}
    (h : c.uartRecvFifoSize ≤ r.fifo.tail + len →
      (r.fifo.tail + len - c.uartRecvFifoSize) % 256 < c.uartRecvFifoSize) :
    Indexed c { r with fifo := (net4gUartRecvCb c r.fifo uart len).1 } := by
  have ht := hr.tail_lt
  have htail : (net4gUartRecvCb c r.fifo uart len).1.tail < c.uartRecvFifoSize ∧
      (net4gUartRecvCb c r.fifo uart len).1.data (net4gUartRecvCb c r.fifo uart len).1.tail = 0 ∧
      (net4gUartRecvCb c r.fifo uart len).1.head = r.fifo.head := by
    unfold net4gUartRecvCb uartRecvCb
    split
    · rename_i hge
      have hlt := h hge
      refine ⟨?_, Ring.poke_self .., rfl⟩
      show (((len : Int) - (((c.uartRecvFifoSize : Int) - r.fifo.tail) % 256).toNat) % 256).toNat <
        c.uartRecvFifoSize
      omega
    · rename_i hlt
      exact ⟨Nat.lt_of_not_le hlt, Ring.poke_self .., rfl⟩
  obtain ⟨h1, h2, h3⟩ := htail
  exact ⟨h3.symm ▸ hr.head_lt, h1, h2, hr.cmdHead_lt, hr.cmdTail_le, hr.cmdTail_lt,
    fun hs => (hr.begun hs).trans h3.symm, hr.ended⟩

/-- One call. -/
theorem getNet4GRecvCmd_indexed (hr : Indexed c r) (h : CallIndexCond c r) :
    Indexed c (getNet4GRecvCmd c r info).recv ∧
      (getNet4GRecvCmd c r info).hi ≤ c.uartRecvFifoSize ∧
      (r.checkPubMiddleFlag = false → r.checkPubAckFlag = false →
        CopiesOk c r (getNet4GRecvCmd c r info).recv) := by
  have hflags : ∀ a b d e : Bool, Indexed c { r with
      checkPubMiddleFlag := a, pubMiddleFlag := b, checkPubAckFlag := d, pubAckFlag := e } :=
    fun _ _ _ _ => ⟨hr.head_lt, hr.tail_lt, hr.data_tail, hr.cmdHead_lt, hr.cmdTail_le,
      hr.cmdTail_lt, hr.begun, hr.ended⟩
  unfold CallIndexCond at h
  unfold getNet4GRecvCmd
  split at h
  · rename_i hm
    have hhi := h.hi hr.wf keyword_pubMiddleHead 0
    rw [if_pos hm]
    refine ⟨?_, ?_, fun h' => by rw [hm] at h'; cases h'⟩
    · simp only
      split
      · exact hflags ..
      · exact hr
    · simp only
      split <;> exact hhi
  rename_i hm
  rw [if_neg hm]
  split at h
  · rename_i ha
    have hhi := h.hi hr.wf (keyword_pubRspHead _) 0
    rw [if_pos ha]
    refine ⟨?_, ?_, fun _ h' => by rw [ha] at h'; cases h'⟩
    · simp only
      split
      · exact hflags ..
      · exact hr
    · simp only
      split <;> exact hhi
  · rename_i ha
    rw [if_neg ha]
    obtain ⟨h1, h2, h3⟩ := recvPath_called info hr h
    exact ⟨h1, h2, fun _ _ => h3⟩

/-- One step. -/
theorem Indexed.step {s : Link} {e : LinkEvent} (hs : Indexed c s.recv) (h : IndexCond c s e) :
    Indexed c (s.step c e).recv ∧ IndexOk c s e := by
  cases e with
  | uart len =>
    have hr := Indexed.deliver hs (s.uart ++ s.modem.take len) h
    exact ⟨hr, hr.head_lt, hr.tail_lt, hr.cmdHead_lt, hr.cmdTail_le, nofun, nofun⟩
  | call =>
    obtain ⟨hr, hhi, hcopies⟩ := getNet4GRecvCmd_indexed s.info hs h
    exact ⟨hr, hr.head_lt, hr.tail_lt, hr.cmdHead_lt, hr.cmdTail_le, fun _ => hhi,
      fun _ => hcopies⟩

end

/-! ## Whole runs -/

/-- In a run whose steps meet the condition, every step leaves the indices in range and reads
inside the array. -/
theorem indexOk_of_indexCond (c : Config) {s s' : Link} {es : List LinkEvent}
    (hs : Indexed c s.recv) (h : Run (Guarded (IndexCond c) (Fun (Link.step c))) s es s') :
    Run (Guarded (IndexOk c) (Fun (Link.step c))) s es s' := by
  induction h with
  | nil => exact .nil
  | cons hstep _ ih =>
    obtain ⟨hcond, rfl⟩ := hstep
    obtain ⟨hnext, hok⟩ := hs.step hcond
    exact .cons ⟨hok, rfl⟩ (ih hnext)

/-- The state before anything has been received is one to begin with. -/
theorem Link.reset_indexed (c : Config) (stream : List UInt8) :
    Indexed c (Link.reset stream).recv :=
  ⟨c.fifo_pos, c.fifo_pos, rfl, c.fifo_pos, Nat.zero_le _, fun _ => c.fifo_pos, nofun, nofun⟩

/-- A command that ends inside the ring. -/
theorem indexOk_of_indexCond_small :
    Run (Guarded (IndexOk smallConfig) (Fun (Link.step smallConfig)))
      (Link.reset (CStr.ascii "+QMTRECV:0\r\n")) [.uart 12, .call, .call, .call, .call]
      ([LinkEvent.uart 12, .call, .call, .call, .call].foldl (Link.step smallConfig)
        (Link.reset (CStr.ascii "+QMTRECV:0\r\n"))) :=
  indexOk_of_indexCond smallConfig (Link.reset_indexed _ _)
    (Trace.run_of_checks (by decide +kernel))

/-- A command that ends with the ring leaves the head behind the array. -/
theorem indexOk_fails : ¬ ∀ (c : Config) (stream : List UInt8) (es : List LinkEvent) (s' : Link),
    Run (Fun (Link.step c)) (Link.reset stream) es s' →
      Run (Guarded (IndexOk c) (Fun (Link.step c))) (Link.reset stream) es s' := by
  intro h
  have hrun := h smallConfig (CStr.ascii "abcd+QMTRECV:0\r\n")
    ([.uart 4, .call, .uart 12, .call, .call, .call] ++ [.call]) _ (Trace.run_fun _ _ _)
  obtain ⟨s, hpre, hlast⟩ := Trace.run_append_iff.1 hrun
  have hs := (hpre.mono fun _ _ _ hstep => hstep.2).eq_foldl
  obtain - | ⟨⟨hok, -⟩, -⟩ := hlast
  have hhead := hok.head
  rw [hs] at hhead
  revert hhead
  decide +kernel

end AppXd.Net4g
