import AppXd.Net4g.SendData

/-!
# Counting failed publishes

`net4g_send_data_process` gives the connection up when messages fail. One of its counters counts the
messages that miss their prompt, the other those that miss their acknowledgement. `Accounted` says on
a record of calls which of them are to return 2; `CountsAgree` says on the ends of the messages alone
when the counters see to it.
-/

namespace AppXd.Net4g

/-- How a message ends. -/
inductive MsgEnd
  | published
  | unprompted
  | unacked
  deriving DecidableEq

/-- The end that a message comes to in a call that is not made in `INIT`, if it comes to one. -/
def SendProcess.msgEnd (p : SendProcess) (r : Recv) : Option MsgEnd :=
  let count := (p.waitTimeCount + 1) % 65536
  if p.processWorkStep = 1 then
    if r.pubMiddleFlag = false ∧ 100 ≤ count then some .unprompted else none
  else if p.processWorkStep = 3 ∧ count % 100 = 0 then
    if r.pubAckFlag then some .published
    else if 1500 ≤ count then some .unacked
    else none
  else none

/-! ## The counters -/

section
variable {text : SendEntry → List UInt8} {q : Send} {p : SendProcess} {r : Recv}

/-- The counter of the missed prompts starts again at four. -/
theorem sendData_unprompted (text : SendEntry → List UInt8) (q : Send)
    (h : p.msgEnd r = some .unprompted)
    (hlt : p.dataSendWaitRsp1FailTimes < 4) :
    ((net4gSendDataProcess text false q p r).ret = 2 ↔ p.dataSendWaitRsp1FailTimes = 3) ∧
      (net4gSendDataProcess text false q p r).proc.dataSendWaitRsp1FailTimes =
        (p.dataSendWaitRsp1FailTimes + 1) % 4 := by
  have h1' : 1 ≠ 2 := by decide
  unfold SendProcess.msgEnd at h
  simp only at h
  split at h
  · rename_i h1
    split at h
    · rename_i hmiss
      obtain ⟨hmid, hcount⟩ := hmiss
      have hmod : (p.dataSendWaitRsp1FailTimes + 1) % 256 = p.dataSendWaitRsp1FailTimes + 1 :=
        Nat.mod_eq_of_lt (by omega)
      unfold net4gSendDataProcess
      rw [h1]
      simp only [hmid, Bool.false_eq_true, if_false, if_neg (Nat.not_lt.2 hcount), hmod]
      by_cases hfour : 4 ≤ p.dataSendWaitRsp1FailTimes + 1
      · rw [if_pos hfour]
        have hthree : p.dataSendWaitRsp1FailTimes = 3 := by omega
        rw [hthree]
        exact ⟨iff_of_true rfl rfl, rfl⟩
      · rw [if_neg hfour]
        have hlt : p.dataSendWaitRsp1FailTimes + 1 < 4 := Nat.lt_of_not_le hfour
        exact ⟨iff_of_false h1' (by omega), (Nat.mod_eq_of_lt hlt).symm⟩
    · cases h
  · split at h
    · split at h
      · cases h
      split at h
      · cases h
      · cases h
    · cases h

/-- No other call touches it or returns 2. -/
theorem sendData_prompted (text : SendEntry → List UInt8) (q : Send)
    (h : p.msgEnd r ≠ some .unprompted) :
    (net4gSendDataProcess text false q p r).ret ≠ 2 ∧
      (net4gSendDataProcess text false q p r).proc.dataSendWaitRsp1FailTimes =
        p.dataSendWaitRsp1FailTimes := by
  have h0 : 0 ≠ 2 := by decide
  have h1 : 1 ≠ 2 := by decide
  unfold net4gSendDataProcess
  split
  · exact ⟨h0, rfl⟩
  · rename_i hstep
    cases hmid : r.pubMiddleFlag with
    | true => exact ⟨h0, rfl⟩
    | false =>
      simp only [Bool.false_eq_true, if_false]
      split
      · exact ⟨h0, rfl⟩
      · rename_i hcount
        refine absurd ?_ h
        unfold SendProcess.msgEnd
        simp only
        rw [if_pos hstep, if_pos ⟨hmid, Nat.not_lt.1 hcount⟩]
  · exact ⟨h0, rfl⟩
  · simp only
    split
    · split
      · exact ⟨h1, rfl⟩
      split
      · exact ⟨h0, rfl⟩
      · exact ⟨h1, rfl⟩
    · exact ⟨h0, rfl⟩
  · exact ⟨h0, rfl⟩

end

/-! ## Records of calls -/

/-- A call: the message that it ends, if it ends one, and what it returns. -/
structure SendCall where
  msgEnd : Option MsgEnd
  ret : Nat

/-- A message fails in the call. -/
def SendCall.Fails (call : SendCall) : Prop :=
  call.msgEnd = some .unprompted ∨ call.msgEnd = some .unacked

instance (call : SendCall) : Decidable call.Fails := inferInstanceAs (Decidable (_ ∨ _))

/-- How many messages have failed in succession since the last one that was published, or since the
last return of 2. The newest call stands first. -/
def failuresSince : List SendCall → Nat
  | [] => 0
  | call :: calls =>
    if call.ret = 2 then 0
    else match call.msgEnd with
      | none => failuresSince calls
      | some .published => 0
      | some .unprompted | some .unacked => failuresSince calls + 1

/-- The calls that return 2 are those in which the fourth message in succession fails. -/
def Accounted : List SendCall → Prop
  | [] => True
  | call :: calls =>
    (call.ret = 2 ↔ call.Fails ∧ failuresSince calls = 3) ∧ Accounted calls

instance decidableAccounted : DecidablePred Accounted
  | [] => inferInstanceAs (Decidable True)
  | _ :: calls =>
    have : Decidable (Accounted calls) := decidableAccounted calls
    inferInstanceAs (Decidable (_ ∧ _))

/-- How many messages have failed in succession, counted from the start after every four. -/
def failuresInRow : List MsgEnd → Nat
  | [] => 0
  | .published :: _ => 0
  | .unprompted :: ends | .unacked :: ends => (failuresInRow ends + 1) % 4

/-- The fourth message that fails in succession has missed its prompt, and it is the fourth one to
miss it, whatever was published in between. -/
def CountsAgree : List MsgEnd → Prop
  | [] => True
  | .published :: ends => CountsAgree ends
  | .unprompted :: ends =>
    (failuresInRow ends = 3 ↔ ends.count .unprompted % 4 = 3) ∧ CountsAgree ends
  | .unacked :: ends => failuresInRow ends ≠ 3 ∧ CountsAgree ends

/-- The messages that have ended in the calls. -/
def msgEnds (calls : List SendCall) : List MsgEnd := calls.filterMap SendCall.msgEnd

/-! ## Runs -/

/-- The process, with the calls made so far. -/
structure PublishRun where
  proc : SendProcess
  calls : List SendCall

/-- What a call finds: the queue, and the flags that the reception has set. -/
structure PublishInput where
  queue : Send
  recv : Recv

/-- A call outside of `INIT`. -/
def PublishRun.step (text : SendEntry → List UInt8) (s : PublishRun) (x : PublishInput) : PublishRun :=
  let res := net4gSendDataProcess text false x.queue s.proc x.recv
  ⟨res.proc, ⟨s.proc.msgEnd x.recv, res.ret⟩ :: s.calls⟩

/-- No missed prompt is counted: at the start, and after a return of 2. -/
def PublishRun.start (p : SendProcess) : PublishRun := ⟨{ p with dataSendWaitRsp1FailTimes := 0 }, []⟩

section
variable {text : SendEntry → List UInt8} {s : PublishRun} {x : PublishInput}

/-- The counter, and the failures where all calls so far have returned what they should. -/
structure PublishRun.Inv (s : PublishRun) : Prop where
  unprompted : s.proc.dataSendWaitRsp1FailTimes = (msgEnds s.calls).count .unprompted % 4
  accounted_iff : Accounted s.calls ↔ CountsAgree (msgEnds s.calls)
  failures : Accounted s.calls → failuresSince s.calls = failuresInRow (msgEnds s.calls)

theorem failuresInRow_lt (ends : List MsgEnd) : failuresInRow ends < 4 := by
  cases ends with
  | nil => decide
  | cons o ends =>
    cases o with
    | published => exact (by decide : 0 < 4)
    | unprompted | unacked => exact Nat.mod_lt _ (by decide)

/-- A failure that is not the fourth in succession is one more. -/
theorem failuresInRow_succ {ends : List MsgEnd} (h : failuresInRow ends ≠ 3) :
    (failuresInRow ends + 1) % 4 = failuresInRow ends + 1 := by
  have hlt := failuresInRow_lt ends
  exact Nat.mod_eq_of_lt (by omega)

/-- What a call adds to the record. -/
theorem PublishRun.Inv.call {calls : List SendCall} {o : Option MsgEnd} {ret n : Nat}
    (hret : ret = 2 ↔ o = some .unprompted ∧ n = 3)
    (hacc : Accounted calls ↔ CountsAgree (msgEnds calls))
    (hfail : Accounted calls → failuresSince calls = failuresInRow (msgEnds calls))
    (hn : n = (msgEnds calls).count .unprompted % 4) :
    (Accounted (⟨o, ret⟩ :: calls) ↔ CountsAgree (msgEnds (⟨o, ret⟩ :: calls))) ∧
      (Accounted (⟨o, ret⟩ :: calls) →
        failuresSince (⟨o, ret⟩ :: calls) = failuresInRow (msgEnds (⟨o, ret⟩ :: calls))) := by
  rcases o with _ | _ | _ | _
  · have hne : ret ≠ 2 := fun h => by cases (hret.1 h).1
    have hlaw : Accounted (⟨none, ret⟩ :: calls) ↔ Accounted calls := by
      refine and_iff_right (iff_of_false hne ?_)
      rintro ⟨ho | ho, -⟩
      · cases ho
      · cases ho
    rw [hlaw]
    refine ⟨hacc, fun h => ?_⟩
    exact (if_neg hne).trans (hfail h)
  · have hne : ret ≠ 2 := fun h => by cases (hret.1 h).1
    have hlaw : Accounted (⟨some .published, ret⟩ :: calls) ↔ Accounted calls := by
      refine and_iff_right (iff_of_false hne ?_)
      rintro ⟨ho | ho, -⟩
      · cases ho
      · cases ho
    rw [hlaw]
    exact ⟨hacc, fun _ => if_neg hne⟩
  · have hlaw : Accounted (⟨some .unprompted, ret⟩ :: calls) ↔
        (ret = 2 ↔ failuresSince calls = 3) ∧ Accounted calls := by
      exact and_congr_left fun _ => iff_congr Iff.rfl (and_iff_right (.inl rfl))
    rw [hlaw, hret, and_iff_right rfl]
    constructor
    · show _ ↔ (_ ↔ _) ∧ CountsAgree (msgEnds calls)
      rw [← hacc]
      refine and_congr_left fun h => ?_
      rw [hfail h, hn]
      exact iff_comm
    · rintro ⟨hiff, h⟩
      show (if _ then _ else _) = (failuresInRow (msgEnds calls) + 1) % 4
      rw [← hfail h]
      by_cases hthree : failuresSince calls = 3
      · rw [if_pos (hret.2 ⟨rfl, hiff.2 hthree⟩), hthree]
      · rw [if_neg fun h2 => hthree (hiff.1 (hret.1 h2).2), hfail h]
        rw [hfail h] at hthree
        exact (failuresInRow_succ hthree).symm
  · have hne : ret ≠ 2 := fun h => by cases (hret.1 h).1
    have hlaw : Accounted (⟨some .unacked, ret⟩ :: calls) ↔
        failuresSince calls ≠ 3 ∧ Accounted calls := by
      refine and_congr_left fun _ => ?_
      rw [iff_iff_implies_and_implies]
      constructor
      · exact fun h h3 => hne (h.2 ⟨.inr rfl, h3⟩)
      · exact fun h => ⟨fun h2 => absurd h2 hne, fun h3 => absurd h3.2 h⟩
    rw [hlaw]
    constructor
    · show _ ↔ _ ≠ 3 ∧ CountsAgree (msgEnds calls)
      rw [← hacc]
      refine and_congr_left fun h => ?_
      rw [hfail h]
      exact Iff.rfl
    · rintro ⟨hthree, h⟩
      show (if _ then _ else _) = (failuresInRow (msgEnds calls) + 1) % 4
      rw [hfail h] at hthree
      rw [if_neg hne, failuresInRow_succ hthree, ← hfail h]

theorem PublishRun.Inv.step (h : s.Inv) : (s.step text x).Inv := by
  have hlt : s.proc.dataSendWaitRsp1FailTimes < 4 := by
    rw [h.unprompted]
    exact Nat.mod_lt _ (by decide)
  have hstep : ((net4gSendDataProcess text false x.queue s.proc x.recv).ret = 2 ↔
      s.proc.msgEnd x.recv = some .unprompted ∧ s.proc.dataSendWaitRsp1FailTimes = 3) ∧
      (s.step text x).proc.dataSendWaitRsp1FailTimes =
        (msgEnds (s.step text x).calls).count .unprompted % 4 := by
    by_cases hmiss : s.proc.msgEnd x.recv = some .unprompted
    · obtain ⟨hret, hcount⟩ := sendData_unprompted text x.queue hmiss hlt
      have hends : msgEnds (s.step text x).calls = .unprompted :: msgEnds s.calls :=
        List.filterMap_cons_some hmiss
      refine ⟨hret.trans (and_iff_right hmiss).symm, hcount.trans ?_⟩
      rw [hends, List.count_cons_self, h.unprompted, Nat.mod_add_mod]
    · obtain ⟨hret, hcount⟩ := sendData_prompted text x.queue hmiss
      refine ⟨iff_of_false hret fun h' => hmiss h'.1, hcount.trans (h.unprompted.trans ?_)⟩
      cases ho : s.proc.msgEnd x.recv with
      | none =>
        have hends : msgEnds (s.step text x).calls = msgEnds s.calls := List.filterMap_cons_none ho
        rw [hends]
      | some o =>
        have hends : msgEnds (s.step text x).calls = o :: msgEnds s.calls :=
          List.filterMap_cons_some ho
        rw [hends, List.count_cons_of_ne]
        rintro rfl
        exact hmiss ho
  obtain ⟨hret, hcount⟩ := hstep
  obtain ⟨hacc, hfail⟩ := PublishRun.Inv.call hret h.accounted_iff h.failures h.unprompted
  exact ⟨hcount, hacc, hfail⟩

theorem PublishRun.start_inv (p : SendProcess) : (PublishRun.start p).Inv :=
  ⟨rfl, Iff.rfl, fun _ => rfl⟩

end

/-- The calls of a run return 2 where they should exactly when the ends of its messages let the
counter of the missed prompts agree with the failures. -/
theorem accounted_iff_countsAgree (text : SendEntry → List UInt8) (p : SendProcess)
    (xs : List PublishInput) :
    Accounted (xs.foldl (PublishRun.step text) (.start p)).calls ↔
      CountsAgree (msgEnds (xs.foldl (PublishRun.step text) (.start p)).calls) := by
  have hrun := Trace.run_fun (PublishRun.step text) (.start p) xs
  refine (hrun.inv (I := PublishRun.Inv) (fun s x s' hs hstep => ?_) (PublishRun.start_inv p)).accounted_iff
  rw [hstep]
  exact hs.step

/-! ## A run of five messages -/

/-- What a call finds that waits for nothing that has come. -/
def PublishInput.silent : PublishInput := ⟨.reset, .reset⟩

/-- A call in which the prompt and the acknowledgement have come. -/
def PublishInput.answered : PublishInput :=
  ⟨.reset, { Recv.reset with pubMiddleFlag := true, pubAckFlag := true }⟩

/-- Three messages miss their prompt, one is published, and the next one misses its prompt. -/
def recoveredRun : List PublishInput :=
  List.replicate 303 .silent ++ List.replicate 103 .answered ++ List.replicate 101 .silent

set_option maxRecDepth 8000 in
/-- The last one is the first to fail since a success, and the call returns 2. -/
theorem not_accounted_recovered : ¬ ∀ (text : SendEntry → List UInt8) (p : SendProcess)
    (xs : List PublishInput), Accounted (xs.foldl (PublishRun.step text) (.start p)).calls := by
  intro h
  have hnot : ¬ Accounted
      (recoveredRun.foldl (PublishRun.step fun _ => []) (.start ⟨0, 0, 0, 0⟩)).calls := by
    decide +kernel
  exact hnot (h (fun _ => []) ⟨0, 0, 0, 0⟩ recoveredRun)

end AppXd.Net4g
