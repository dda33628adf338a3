import AppXd.Net4g.FifoIndex
import AppXd.Net4g.Notice

/-!
# What a call leaves unread

A call of `get_net4G_recv_cmd` drops some of the oldest unread bytes, or clears the array. That
needs less than `Phase` and `Indexed`: only the search of a command's end has to be right, since the
head is set behind what it has found.
-/

namespace AppXd.Net4g

section
variable (c : Config)

/-- The head has moved on by `k` of the unread bytes. -/
structure Moved (f f' : Fifo) (k : Nat) : Prop where
  tail : f'.tail = f.tail
  head_le : f'.head ≤ c.uartRecvFifoSize
  le : k ≤ Ring.unread c.uartRecvFifoSize f.head f.tail
  head : f'.head = f.head + k ∨ f'.head + c.uartRecvFifoSize = f.head + k ∧ f.tail < f.head

/-- What a call does to the FIFO. -/
inductive Kept (f : Fifo) : Fifo → Prop
  | moved (k : Nat) (f' : Fifo) : f'.data = f.data → Moved c f f' k → Kept f f'
  | cleared : Kept f (clearFifo c f)

/-- The indices between two steps of a run. The array may hold anything behind the window while
that is empty. -/
structure Ringed (r : Recv) : Prop where
  head_le : r.fifo.head ≤ c.uartRecvFifoSize
  tail_lt : r.fifo.tail < c.uartRecvFifoSize
  data_tail : r.window c ≠ [] → r.fifo.data r.fifo.tail = 0
  begun : r.cmdGetStep ≠ 0 → r.window c ≠ []
  ended : r.cmdGetStep = 3 → ∃ k, Moved c r.fifo { r.fifo with head := r.cmdTailIndex } k

/-- The search of step 2 is right. -/
def TailCond (r : Recv) : Prop := r.Unchecked → r.cmdGetStep = 2 → TailOk c r.fifo

instance (r : Recv) : Decidable (TailCond c r) := inferInstanceAs (Decidable (_ → _ → _))

end

section
variable {c : Config} {f f' : Fifo} {k : Nat}

theorem Moved.window {α : Type*} (h : Moved c f f' k) (hh : f.head ≤ c.uartRecvFifoSize)
    (ht : f.tail < c.uartRecvFifoSize) (data : Nat → α) :
    Ring.window data c.uartRecvFifoSize f'.head f'.tail =
      (Ring.window data c.uartRecvFifoSize f.head f.tail).drop k := by
  rw [h.tail]
  exact Ring.window_drop hh ht h.le h.head_le h.head

theorem Moved.refl (hh : f.head ≤ c.uartRecvFifoSize) : Moved c f f 0 :=
  ⟨rfl, hh, Nat.zero_le _, .inl rfl⟩

/-- The whole window is dropped. -/
theorem Moved.all (hh : f.head ≤ c.uartRecvFifoSize) (ht : f.tail < c.uartRecvFifoSize) :
    Moved c f { f with head := f.tail } (Ring.unread c.uartRecvFifoSize f.head f.tail) := by
  have hun := Ring.unread_cases c.uartRecvFifoSize f.head f.tail
  refine ⟨rfl, ht.le, Nat.le_refl _, ?_⟩
  show f.tail = f.head + _ ∨ f.tail + c.uartRecvFifoSize = f.head + _ ∧ f.tail < f.head
  omega

/-- The head moves to a cell of the window. -/
theorem Moved.inside (hh : f.head ≤ c.uartRecvFifoSize) (ht : f.tail < c.uartRecvFifoSize)
    (hk : k < Ring.unread c.uartRecvFifoSize f.head f.tail) :
    Moved c f { f with head := Ring.wrap c.uartRecvFifoSize (f.head + k) } k := by
  have hun := Ring.unread_cases c.uartRecvFifoSize f.head f.tail
  have hwrap := Ring.wrap_cases c.uartRecvFifoSize (f.head + k)
  refine ⟨rfl, ?_, hk.le, ?_⟩
  · show Ring.wrap _ _ ≤ _
    omega
  · show Ring.wrap _ _ = _ ∨ Ring.wrap _ _ + _ = _ ∧ _
    omega

theorem Kept.window_nil (h : Kept c f f') (hh : f.head ≤ c.uartRecvFifoSize)
    (ht : f.tail < c.uartRecvFifoSize) (hw : f.window c = []) : f'.window c = [] := by
  cases h with
  | moved k _ _ hmoved =>
    refine (hmoved.window hh ht _).trans ?_
    rw [← List.length_eq_zero_iff, Fifo.length_window] at hw
    rw [← List.length_eq_zero_iff, List.length_drop, Ring.length_window]
    omega
  | cleared => exact Fifo.window_empty c (clearFifo c f)

/-- A delivery that fits leaves a later head in the window. -/
theorem Moved.deliver {f₁ g : Fifo} {n : Nat} (h : Moved c f f' k)
    (hh : f.head ≤ c.uartRecvFifoSize) (hf : f₁.head = f.head)
    (hroom : Ring.unread c.uartRecvFifoSize f.head f.tail + n < c.uartRecvFifoSize)
    (htail : f₁.tail = Ring.wrap c.uartRecvFifoSize (f.tail + n)) (hg : g.head = f'.head)
    (hg' : g.tail = f₁.tail) : Moved c f₁ g k := by
  have hun := Ring.unread_cases c.uartRecvFifoSize f.head f.tail
  have hun' := Ring.unread_cases c.uartRecvFifoSize f₁.head f₁.tail
  have hwrap := Ring.wrap_cases c.uartRecvFifoSize (f.tail + n)
  have hle := h.le
  have hhead := h.head
  have hhead_le := h.head_le
  exact ⟨hg', by omega, by omega, by omega⟩

end

section
variable {c : Config} {r : Recv} (info : SignalInfo)

/-- Only the FIFO and the indices of the machine matter. -/
theorem Ringed.congr {r' : Recv} (h : Ringed c r) (hf : r'.fifo = r.fifo)
    (hs : r'.cmdGetStep = r.cmdGetStep) (hi : r'.cmdTailIndex = r.cmdTailIndex) : Ringed c r' := by
  have hw : r'.window c = r.window c := congrArg (Fifo.window c) hf
  refine ⟨?_, ?_, ?_, ?_, ?_⟩
  · rw [hf]
    exact h.head_le
  · rw [hf]
    exact h.tail_lt
  · rw [hw, hf]
    exact h.data_tail
  · rw [hs, hw]
    exact h.begun
  · rw [hs, hf, hi]
    exact h.ended

/-- Nothing is unread and no command is begun. -/
theorem Ringed.of_empty (hh : r.fifo.head ≤ c.uartRecvFifoSize)
    (ht : r.fifo.tail < c.uartRecvFifoSize) (hw : r.window c = []) (hs : r.cmdGetStep = 0) :
    Ringed c r :=
  ⟨hh, ht, fun h => absurd hw h, fun h => absurd hs h, fun h => by rw [hs] at h; cases h⟩

theorem Ringed.wf (h : Ringed c r) (hw : r.window c ≠ []) : r.fifo.Wf c :=
  ⟨h.head_le, h.tail_lt, h.data_tail hw⟩

/-- With nothing unread no command is begun. -/
theorem Ringed.idle (h : Ringed c r) (hw : r.window c = []) : r.cmdGetStep = 0 :=
  Decidable.byContradiction fun h0 => h.begun h0 hw

/-- The branch on a missing head leaves nothing unread. -/
theorem headFail_ringed (h : Ringed c r) (h0 : r.cmdGetStep = 0) (i hi : Nat) :
    Ringed c (headFail c { r with cmdHeadIndex := i } info hi).recv ∧
      Kept c r.fifo (headFail c { r with cmdHeadIndex := i } info hi).recv.fifo ∧
      (headFail c { r with cmdHeadIndex := i } info hi).recv.window c = [] := by
  obtain ⟨f, hf, hrecv⟩ := headFail_recv (c := c) { r with cmdHeadIndex := i } info hi
  rw [hrecv]
  have hempty : Fifo.window c { f with head := f.tail } = [] := Fifo.window_empty c f
  obtain rfl | rfl := hf
  · exact ⟨.of_empty h.tail_lt.le h.tail_lt hempty h0,
      .moved _ _ rfl (.all h.head_le h.tail_lt), hempty⟩
  · exact ⟨.of_empty (Nat.zero_le _) c.fifo_pos hempty h0, .cleared, hempty⟩

/-- A call without check flags. -/
theorem recvPath_ringed (h : Ringed c r) (hc : r.cmdGetStep = 2 → TailOk c r.fifo) :
    Ringed c (recvPath c r info).recv ∧ Kept c r.fifo (recvPath c r info).recv.fifo := by
  have hkept : Kept c r.fifo r.fifo := .moved 0 _ rfl (.refl h.head_le)
  obtain hstep | hstep | hstep | hstep | ⟨n, hstep⟩ := cmdGetStep_cases r.cmdGetStep
  · rw [recvPath, recvCmdFromFifo_zero hstep]
    by_cases hnil : r.window c = []
    · rw [if_pos hnil]
      exact ⟨h, hkept⟩
    rw [if_neg hnil]
    by_cases hlen : (ctrlHead c).length ≤ (r.window c).length
    · rw [if_pos hlen]
      exact ⟨⟨h.head_le, h.tail_lt, h.data_tail, fun _ => hnil, by rintro ⟨⟩⟩, hkept⟩
    · rw [if_neg hlen]
      obtain ⟨h1, h2, -⟩ := headFail_ringed info h hstep r.cmdHeadIndex 0
      exact ⟨h1, h2⟩
  · have hwin := h.begun (by rw [hstep]; decide)
    have hinside := getKeyDataIndex_inside (keyword_ctrlCmdHead c.moduleType) h.head_le h.tail_lt
      (h.data_tail hwin) r.cmdHeadIndex
    rw [recvPath, recvCmdFromFifo, hstep]
    simp only
    generalize getKeyDataIndex c r.fifo.data r.fifo.head r.fifo.tail (ctrlHead c) r.cmdHeadIndex = k
      at hinside ⊢
    cases hfound : k.found with
    | true =>
      obtain ⟨n, hn, hindex⟩ := hinside hfound
      have hmoved := Moved.inside h.head_le h.tail_lt hn
      rw [← hindex] at hmoved
      have hdrop := hmoved.window h.head_le h.tail_lt r.fifo.data
      simp only [if_true]
      refine ⟨⟨hmoved.head_le, h.tail_lt, fun _ => h.data_tail hwin, fun _ hnil => ?_,
        by rintro ⟨⟩⟩, .moved n _ rfl hmoved⟩
      have hlen := congrArg List.length (hdrop.symm.trans hnil)
      rw [List.length_drop, Ring.length_window, List.length_nil] at hlen
      omega
    | false =>
      simp only [Bool.false_eq_true, if_false]
      have h0 : Ringed c { r with cmdGetStep := 0 } :=
        ⟨h.head_le, h.tail_lt, h.data_tail, fun h0 => absurd rfl h0, by rintro ⟨⟩⟩
      obtain ⟨h1, h2, -⟩ := headFail_ringed info h0 rfl k.index k.hi
      exact ⟨h1, h2⟩
  · have hwin := h.begun (by rw [hstep]; decide)
    have hfirst := (hc hstep).found (h.wf hwin) r.cmdTailIndex
    rw [recvPath, recvCmdFromFifo, hstep]
    simp only
    rw [searchWindow] at hfirst
    generalize getKeyDataIndex c r.fifo.data r.fifo.head r.fifo.tail netMqttCtrlCmdTail
      r.cmdTailIndex = k at hfirst ⊢
    cases hfound : k.found with
    | true =>
      obtain ⟨q, hq, hindex, hle⟩ := hfirst hfound
      have hlen := Seq.firstAt_le_length hq keyword_ctrlCmdTail.ne_nil
      rw [length_ctrlCmdTail, Fifo.length_window] at hlen
      have hu16 := c.fifo_u16
      simp only [if_true]
      rw [length_ctrlCmdTail, hindex, Nat.mod_eq_of_lt (by omega)]
      refine ⟨⟨h.head_le, h.tail_lt, h.data_tail, fun _ => hwin, fun _ => ⟨q + 2, ?_⟩⟩, hkept⟩
      have hun := Ring.unread_cases c.uartRecvFifoSize r.fifo.head r.fifo.tail
      have hwrap := Ring.wrap_cases c.uartRecvFifoSize (r.fifo.head + q)
      have htail := h.tail_lt
      refine ⟨rfl, hle, hlen, ?_⟩
      show Ring.wrap c.uartRecvFifoSize (r.fifo.head + q) + 2 = r.fifo.head + (q + 2) ∨
        Ring.wrap c.uartRecvFifoSize (r.fifo.head + q) + 2 + c.uartRecvFifoSize =
          r.fifo.head + (q + 2) ∧ r.fifo.tail < r.fifo.head
      omega
    | false =>
      simp only [Bool.false_eq_true, if_false]
      exact ⟨⟨h.head_le, h.tail_lt, h.data_tail, fun h0 => absurd rfl h0, by rintro ⟨⟩⟩, hkept⟩
  · obtain ⟨k, hmoved⟩ := h.ended hstep
    have hdrop := hmoved.window h.head_le h.tail_lt r.fifo.data
    rw [recvPath, recvCmdFromFifo, hstep]
    refine ⟨⟨hmoved.head_le, h.tail_lt, fun hw => h.data_tail fun hnil => hw ?_,
      fun h0 => absurd rfl h0, by rintro ⟨⟩⟩,
      .moved k _ rfl hmoved⟩
    refine hdrop.trans ?_
    rw [show Ring.window r.fifo.data c.uartRecvFifoSize r.fifo.head r.fifo.tail = [] from hnil]
    exact List.drop_nil
  · rw [recvPath, recvCmdFromFifo, hstep]
    exact ⟨⟨h.head_le, h.tail_lt, h.data_tail, fun h0 => absurd rfl h0, by rintro ⟨⟩⟩, hkept⟩

/-- One call. -/
theorem getNet4GRecvCmd_ringed (h : Ringed c r) (hc : TailCond c r) :
    Ringed c (getNet4GRecvCmd c r info).recv ∧
      Kept c r.fifo (getNet4GRecvCmd c r info).recv.fifo := by
  have hkept : Kept c r.fifo r.fifo := .moved 0 _ rfl (.refl h.head_le)
  unfold getNet4GRecvCmd
  split
  · simp only
    split
    · exact ⟨h.congr rfl rfl rfl, hkept⟩
    · exact ⟨h, hkept⟩
  rename_i hm
  split
  · simp only
    split
    · exact ⟨h.congr rfl rfl rfl, hkept⟩
    · exact ⟨h, hkept⟩
  rename_i ha
  exact recvPath_ringed info h (hc ⟨Bool.eq_false_iff.2 hm, Bool.eq_false_iff.2 ha⟩)

/-- A call that returns 10 leaves nothing unread. -/
theorem getNet4GRecvCmd_ten_window (h : (getNet4GRecvCmd c r info).ret = 10) :
    (getNet4GRecvCmd c r info).recv.window c = [] := by
  unfold getNet4GRecvCmd at h ⊢
  split at h
  · simp only at h
    split at h <;> cases h
  rename_i hm
  rw [if_neg hm]
  split at h
  · simp only at h
    split at h <;> cases h
  rename_i ha
  rw [if_neg ha]
  have hle : (recvCmdFromFifo c (ctrlHead c) netMqttCtrlCmdTail r).ret ≤ 3 :=
    recvCmdFromFifo_two.2.2
  unfold recvPath at h ⊢
  simp only at h ⊢
  split at h
  · cases h
  · obtain ⟨f, -, hrecv⟩ := headFail_recv (c := c)
      (recvCmdFromFifo c (ctrlHead c) netMqttCtrlCmdTail r).recv info
      (recvCmdFromFifo c (ctrlHead c) netMqttCtrlCmdTail r).hi
    rw [hrecv]
    exact Fifo.window_empty c f
  · have h10 : (recvCmdFromFifo c (ctrlHead c) netMqttCtrlCmdTail r).ret = 10 := h
    omega

/-- A delivery that fits. -/
theorem Ringed.deliver {uart : List UInt8} {len : Nat} (h : Ringed c r) (hlen : len ≤ uart.length)
    (hfit : Fits c r.fifo (uart.take len)) :
    Ringed c { r with fifo := (net4gUartRecvCb c r.fifo uart len).1 } ∧
      (net4gUartRecvCb c r.fifo uart len).1.window c = r.window c ++ uart.take len := by
  obtain ⟨f, hcb, hwf, hhead, htail, hwin⟩ :=
    net4gUartRecvCb_window h.head_le h.tail_lt hlen hfit
  have hroom := hfit.room
  rw [List.length_take_of_le hlen] at hroom
  rw [hcb]
  refine ⟨⟨hwf.head_le, hwf.tail_lt, fun _ => hwf.data_tail, fun h0 hnil => ?_, fun h3 => ?_⟩, hwin⟩
  · exact h.begun h0 (List.append_eq_nil_iff.1 (hwin.symm.trans hnil)).1
  · obtain ⟨k, hmoved⟩ := h.ended h3
    exact ⟨k, hmoved.deliver h.head_le hhead hroom htail rfl rfl⟩

end

end AppXd.Net4g
