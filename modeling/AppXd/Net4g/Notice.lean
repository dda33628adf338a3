import AppXd.Net4g.RecvSpec

/-!
# Disconnect notices

`get_net4G_recv_cmd` returns 10 when it gives the window up and finds the notice in it, unless an
answer of the radio follows, whose search overwrites the return value; or when it does not find the
notice and the array, read as one string, holds the reboot banner.
-/

namespace AppXd.Net4g

open CStr (ascii)

section
variable (c : Config)

/-- `recv_cmd_from_fifo` finds no head. -/
def GivesUp (r : Recv) : Prop :=
  r.cmdGetStep = 0 ∧ r.window c ≠ [] ∧ (r.window c).length < (ctrlHead c).length ∨
    r.cmdGetStep = 1 ∧ (searchWindow c r.fifo (ctrlHead c) 0).found = false

/-- The search of the notice in the window succeeds. -/
def NoticeFound (f : Fifo) : Prop :=
  (searchWindow c f (netMqttDisconnectCmdHead c.moduleType) 0).found = true

/-- The string from the head on begins no search of an answer. -/
def NoAnswers (f : Fifo) : Prop :=
  CStr.strstr f.data c.ram f.head (ascii "+CSQ:") = none ∧
    CStr.strstr f.data c.ram f.head
      (if c.moduleType.quectel then ascii "+QENG:" else ascii "+LCELL:") = none

/-- The call gives the window up and returns 10. -/
def Disconnects (r : Recv) : Prop :=
  GivesUp c r ∧ (NoticeFound c r.fifo ∧ NoAnswers c r.fifo ∨
    ¬ NoticeFound c r.fifo ∧ rebootBanner c r.fifo = true)

instance (r : Recv) : Decidable (GivesUp c r) := inferInstanceAs (Decidable (_ ∨ _))
instance (f : Fifo) : Decidable (NoticeFound c f) := inferInstanceAs (Decidable (_ = true))
instance (f : Fifo) : Decidable (NoAnswers c f) := inferInstanceAs (Decidable (_ ∧ _))
instance (r : Recv) : Decidable (Disconnects c r) := inferInstanceAs (Decidable (_ ∧ _))

end

section
variable {c : Config} {r : Recv} {info : SignalInfo}

/-- The return values are at most 3, and the FIFO is untouched where 2 is returned. -/
theorem recvCmdFromFifo_two :
    ((recvCmdFromFifo c (ctrlHead c) netMqttCtrlCmdTail r).ret = 2 ↔ GivesUp c r) ∧
      (GivesUp c r → (recvCmdFromFifo c (ctrlHead c) netMqttCtrlCmdTail r).recv.fifo = r.fifo) ∧
      (recvCmdFromFifo c (ctrlHead c) netMqttCtrlCmdTail r).ret ≤ 3 := by
  unfold GivesUp
  obtain h | h | h | h | ⟨n, h⟩ := cmdGetStep_cases r.cmdGetStep
  · rw [recvCmdFromFifo_zero h, h]
    by_cases hnil : r.window c = []
    · simp [hnil]
    by_cases hlen : (ctrlHead c).length ≤ (r.window c).length
    · simp [hnil, hlen]
    · simp [hnil, hlen, Nat.lt_of_not_le hlen]
  · have hidx : (getKeyDataIndex c r.fifo.data r.fifo.head r.fifo.tail (ctrlHead c)
        r.cmdHeadIndex).found =
      (getKeyDataIndex c r.fifo.data r.fifo.head r.fifo.tail (ctrlHead c) 0).found :=
      getKeyDataIndex_found _ _ c _ _ _ _
    rw [recvCmdFromFifo, h]
    simp only [searchWindow, ← hidx]
    cases hfound : (getKeyDataIndex c r.fifo.data r.fifo.head r.fifo.tail (ctrlHead c)
      r.cmdHeadIndex).found with
    | true => simp
    | false => simp
  · rw [recvCmdFromFifo, h]
    simp only
    split <;> simp
  · rw [recvCmdFromFifo, h]
    simp
  · rw [recvCmdFromFifo, h]
    simp

/-! ## The branch on a missing head -/

/-- The search of an answer overwrites the return value. -/
theorem headFailAnswer_ret {b : Bool} {text key : List UInt8}
    {f : (Nat → UInt8) → Nat → Nat → Nat → SignalInfo → SignalInfo × Nat} {gsm n : Nat}
    {l : HeadFail} : (headFailAnswer c b text key f gsm n l).ret =
      if (CStr.strstr l.fifo.data c.ram l.fifo.head text).isSome then
        if (searchWindow c l.fifo key l.cmdHeadIndex).found then 1 else 0
      else l.ret := by
  unfold headFailAnswer
  cases b <;> simp only [if_true, Bool.false_eq_true, if_false, HeadFail.scanned_fifo] <;> split
  · split <;> rfl
  · rfl
  · split <;> rfl
  · rfl

theorem headFailAnswer_ten {b : Bool} {text key : List UInt8}
    {f : (Nat → UInt8) → Nat → Nat → Nat → SignalInfo → SignalInfo × Nat} {gsm n : Nat}
    {l : HeadFail} : (headFailAnswer c b text key f gsm n l).ret = 10 ↔
      l.ret = 10 ∧ CStr.strstr l.fifo.data c.ram l.fifo.head text = none := by
  rw [headFailAnswer_ret]
  cases CStr.strstr l.fifo.data c.ram l.fifo.head text with
  | none => simp
  | some q =>
    simp only [Option.isSome_some, if_true, reduceCtorEq, and_false, iff_false]
    split <;> decide

/-- A repeated search of the notice finds nothing new. -/
theorem headFailRetry_ret {l : HeadFail} (h : ¬ NoticeFound c l.fifo) (hl : l.ret = 0) :
    (headFailRetry c l).ret = 0 := by
  have hfound : (searchWindow c l.fifo (netMqttDisconnectCmdHead c.moduleType)
      l.cmdHeadIndex).found = false :=
    (getKeyDataIndex_found _ _ c _ _ _ 0).trans (Bool.eq_false_iff.2 h)
  unfold headFailRetry
  simp only
  split
  · simp only [HeadFail.search, HeadFail.scanned, hfound, Bool.false_eq_true, if_false]
    rfl
  · exact hl

/-- The notice, or else the banner. -/
theorem headFailNotice_cases (info : SignalInfo) (f : Fifo) (hi : Nat) :
    NoticeFound c f ∧ (headFailNotice c ⟨2, 0, f, info, 0, hi⟩).ret = 10 ∧
        (headFailNotice c ⟨2, 0, f, info, 0, hi⟩).fifo = f ∨
      (¬ NoticeFound c f ∧ rebootBanner c f = true) ∧
        (headFailNotice c ⟨2, 0, f, info, 0, hi⟩).ret = 10 ∧
        (headFailNotice c ⟨2, 0, f, info, 0, hi⟩).fifo = clearFifo c f ∨
      (¬ NoticeFound c f ∧ rebootBanner c f = false) ∧
        (headFailNotice c ⟨2, 0, f, info, 0, hi⟩).ret = 0 := by
  unfold headFailNotice HeadFail.search
  by_cases hfound : NoticeFound c f
  · have hf : (searchWindow c f (netMqttDisconnectCmdHead c.moduleType) 0).found = true := hfound
    simp only [hf, if_true]
    exact .inl ⟨hfound, trivial, trivial⟩
  · have hf : (searchWindow c f (netMqttDisconnectCmdHead c.moduleType) 0).found = false :=
      Bool.eq_false_iff.2 hfound
    simp only [hf, Bool.false_eq_true, if_false, HeadFail.scanned_fifo,
      show ¬ (0 : Nat) = 1 by decide]
    cases hbanner : rebootBanner c f with
    | true => exact .inr (.inl ⟨⟨hfound, rfl⟩, rfl, rfl⟩)
    | false =>
      refine .inr (.inr ⟨⟨hfound, rfl⟩, ?_⟩)
      simp only [Bool.false_eq_true, if_false]
      split
      · exact headFailRetry_ret hfound rfl
      · rfl

theorem headFail_ten_iff (r : Recv) (info : SignalInfo) (hi : Nat) : (headFail c r info hi).ret = 10 ↔
    NoticeFound c r.fifo ∧ NoAnswers c r.fifo ∨
      ¬ NoticeFound c r.fifo ∧ rebootBanner c r.fifo = true := by
  have hret : (headFail c r info hi).ret = 10 ↔
      (headFailNotice c ⟨2, 0, r.fifo, info, 0, hi⟩).ret = 10 ∧
        NoAnswers c (headFailNotice c ⟨2, 0, r.fifo, info, 0, hi⟩).fifo := by
    unfold headFail NoAnswers
    simp only
    split
    · rw [headFailAnswer_ten, headFailAnswer_ten, headFailAnswer_fifo, and_assoc]
    · rw [headFailAnswer_ten, headFailAnswer_ten, headFailAnswer_fifo, and_assoc,
        and_comm (b := CStr.strstr _ _ _ (ascii "+CSQ:") = none)]
  rw [hret]
  obtain ⟨hn, h10, hf⟩ | ⟨⟨hn, hb⟩, h10, hf⟩ | ⟨⟨hn, hb⟩, h0⟩ :=
    headFailNotice_cases info r.fifo hi
  · rw [h10, hf]
    simp [hn]
  · have hz : (clearFifo c r.fifo).data 0 = 0 := if_pos c.fifo_pos
    have hclear : NoAnswers c (clearFifo c r.fifo) := by
      refine ⟨CStr.strstr_of_nul (by decide) hz, CStr.strstr_of_nul ?_ hz⟩
      split <;> decide
    rw [h10, hf]
    simp [hn, hb, hclear]
  · rw [h0]
    simp [hn, hb]

/-- When the call returns 10. -/
theorem getNet4GRecvCmd_ten_iff :
    (getNet4GRecvCmd c r info).ret = 10 ↔ r.Unchecked ∧ Disconnects c r := by
  unfold getNet4GRecvCmd Recv.Unchecked
  cases hm : r.checkPubMiddleFlag with
  | true =>
    simp only [if_true, reduceCtorEq, false_and, iff_false]
    split
    · exact (by decide : (1 : Nat) ≠ 10)
    · exact (by decide : (0 : Nat) ≠ 10)
  | false =>
    cases ha : r.checkPubAckFlag with
    | true =>
      simp only [Bool.false_eq_true, if_false, if_true, reduceCtorEq, and_false, false_and, iff_false]
      split
      · exact (by decide : (1 : Nat) ≠ 10)
      · exact (by decide : (0 : Nat) ≠ 10)
    | false =>
      obtain ⟨htwo, hfifo, hle⟩ := recvCmdFromFifo_two (c := c) (r := r)
      simp only [Bool.false_eq_true, if_false, and_self, true_and]
      unfold recvPath Disconnects
      simp only
      split
      · rename_i h1
        have hnot : ¬ GivesUp c r := fun h => by
          have h2 := htwo.2 h
          exact absurd (h1.symm.trans h2) (by decide)
        simp [hnot]
      · rename_i h2
        have hup := htwo.1 h2
        have hiff := headFail_ten_iff (c := c)
          (recvCmdFromFifo c (ctrlHead c) netMqttCtrlCmdTail r).recv info
          (recvCmdFromFifo c (ctrlHead c) netMqttCtrlCmdTail r).hi
        rw [hfifo hup] at hiff
        exact hiff.trans ⟨fun h => ⟨hup, h⟩, fun h => h.2⟩
      · rename_i h1 h2
        have hnot : ¬ GivesUp c r := fun h => h2 (htwo.2 h)
        have hret : (recvCmdFromFifo c (ctrlHead c) netMqttCtrlCmdTail r).ret ≠ 10 := by omega
        simp [hnot, hret]

end

end AppXd.Net4g
