import AppXd.Lib.HeldText
import AppXd.Net4g.CmdQueue

/-!
# The wait for a lending before a download

While a download is ordered, each call counts the time that a lending has held it up, and gives the
lending up when the count has come to 6000. Nothing but this sets the count back: a lending that
ends in time leaves it for the next one.
-/

namespace AppXd.Net4g

open Trace (Run Guarded PFun)

/-! ## The law -/

/-- A download waits for a lending. -/
def Device.Waits (d : Device) : Prop := d.otaPara.otaFlag = 1 ∧ 0 < d.globalInfo.batLendingFlag

instance (d : Device) : Decidable d.Waits := inferInstanceAs (Decidable (_ ∧ _))

/-- What a run leaves behind: a call that has come to the branch, with whether it has found a
download waiting and whether it has cleared the flag of the lending; or a state in which no download
waits. -/
inductive LendMark
  | call (waits cleared : Bool)
  | idle
  deriving DecidableEq

def LendMark.waits : LendMark → Bool
  | .call waits _ => waits
  | .idle => false

def LendMark.cleared : LendMark → Bool
  | .call _ cleared => cleared
  | .idle => false

/-- A flag is cleared only behind 6000 calls in a row that have found the download waiting, with no
state between them in which it did not. -/
def LendingGrace (marks : List LendMark) : Prop :=
  ∀ pre m post, marks = pre ++ m :: post → m.cleared = true → 6000 ≤ Seq.trail LendMark.waits pre

structure LendLog where
  comm : Comm
  marks : List LendMark

namespace LendLog

/-- The mark of a state. -/
def rest (d : Device) : List LendMark := if d.Waits then [] else [.idle]

/-- The marks of a call. -/
def callMarks (E : CommEnv) (s : Comm) (x : CallInput E.config) (t : Comm) : List LendMark :=
  (if (s.received E).ret = 10 then []
    else
      let d := (s.entered E x).device
      .call s.device.Waits
        (0 < s.device.globalInfo.batLendingFlag ∧ d.globalInfo.batLendingFlag = 0) :: rest d) ++
    rest t.device

/-- The log with a new state. -/
def next (s : LendLog) (t : Comm) : LendLog := ⟨t, s.marks ++ rest t.device⟩

def step (E : CommEnv) (s : LendLog) : CommEvent E.config → Option LendLog
  | .uart bs => some (s.next (s.comm.deliver E.config bs))
  | .save m => some (s.next (s.comm.save E.config [m]))
  | .others d flag => some (s.next { s.comm with device := d, getCellInfoFlag := flag })
  | .rest data uart netWork registered =>
    some (s.next { s.comm with
      recv := { s.comm.recv with fifo := { s.comm.recv.fifo with data := data } }
      uart := uart
      netWork := netWork
      registered := registered })
  | .call x => (module4gCommunicationProcess E x s.comm).map fun (_, t) =>
    ⟨t, s.marks ++ callMarks E s.comm x t⟩

end LendLog

def LendStep (E : CommEnv) : LendLog → CommEvent E.config → LendLog → Prop := PFun (LendLog.step E)

/-- A call that begins to wait finds the count at 0. -/
def LendCond (E : CommEnv) (s : LendLog) : CommEvent E.config → Prop
  | .call _ => (s.comm.received E).ret ≠ 10 → s.comm.device.Waits →
    Seq.trail LendMark.waits s.marks = 0 → s.comm.lendTimeoutWaitTime = 0
  | _ => True

/-! ## Marks -/

section
variable {marks : List LendMark} {m : LendMark} {d : Device}

theorem lendingGrace_nil : LendingGrace [] := fun pre m post h => by
  cases pre <;> cases h

theorem lendingGrace_concat : LendingGrace (marks ++ [m]) ↔
    LendingGrace marks ∧ (m.cleared = true → 6000 ≤ Seq.trail LendMark.waits marks) := by
  constructor
  · intro h
    refine ⟨fun pre m' post heq => h pre m' (post ++ [m]) ?_, h marks m [] rfl⟩
    rw [heq, List.append_assoc]
    rfl
  · rintro ⟨hold, hnew⟩ pre m' post heq hcleared
    induction post using List.reverseRecOn with
    | nil =>
      obtain ⟨rfl, hm⟩ := List.append_inj' heq rfl
      cases hm
      exact hnew hcleared
    | append_singleton post m'' _ =>
      rw [← List.cons_append, ← List.append_assoc] at heq
      exact hold pre m' post (List.append_inj' heq rfl).1 hcleared

theorem lendingGrace_rest : LendingGrace (marks ++ LendLog.rest d) ↔ LendingGrace marks := by
  unfold LendLog.rest
  split
  · rw [List.append_nil]
  · rw [lendingGrace_concat]
    exact and_iff_left nofun

/-- A state in which no download waits begins the counting anew. -/
theorem trail_rest : Seq.trail LendMark.waits (marks ++ LendLog.rest d) =
    if d.Waits then Seq.trail LendMark.waits marks else 0 := by
  unfold LendLog.rest
  split
  · rw [List.append_nil]
  · exact Seq.trail_append_singleton marks LendMark.idle

end

/-! ## Runs -/

/-- The invariant of a run: the count is not ahead of the calls that have found the download
waiting. -/
structure LendInv (s : LendLog) : Prop where
  grace : LendingGrace s.marks
  count : 0 < Seq.trail LendMark.waits s.marks →
    s.comm.lendTimeoutWaitTime.toNat ≤ Seq.trail LendMark.waits s.marks

/-- The branch on a download. -/
structure Counted (s t : Comm) : Prop where
  kept : ¬ s.device.Waits → t.lendTimeoutWaitTime = s.lendTimeoutWaitTime ∧ t.device = s.device
  counts : s.device.Waits → s.lendTimeoutWaitTime < 6000 →
    t.lendTimeoutWaitTime = s.lendTimeoutWaitTime + 1 ∧ t.device = s.device
  gives : s.device.Waits → 6000 ≤ s.lendTimeoutWaitTime → t.lendTimeoutWaitTime = 0

section
variable {E : CommEnv} {s t : Comm} {x : CallInput E.config} {ret : CommRet}

theorem otaWait_of_waits (hw : s.device.Waits) : s.otaWait E x =
    if 6000 ≤ s.lendTimeoutWaitTime then
      { s with
        lendTimeoutWaitTime := 0
        device := { s.device with
          globalInfo := { s.device.globalInfo with batLendingFlag := 0 } } }
    else { s with lendTimeoutWaitTime := s.lendTimeoutWaitTime + 1 } := by
  unfold Comm.otaWait
  rw [if_pos hw.1, if_pos hw.2]

theorem otaWait_counted : Counted s (s.otaWait E x) := by
  by_cases hw : s.device.Waits
  · rw [otaWait_of_waits hw]
    by_cases h6000 : 6000 ≤ s.lendTimeoutWaitTime
    · rw [if_pos h6000]
      exact ⟨fun h => absurd hw h, fun _ h => absurd h (UInt32.not_lt.2 h6000), fun _ _ => rfl⟩
    · rw [if_neg h6000]
      exact ⟨fun h => absurd hw h, fun _ _ => ⟨rfl, rfl⟩, fun _ h => absurd h h6000⟩
  refine ⟨fun _ => ?_, fun h => absurd h hw, fun h => absurd h hw⟩
  unfold Comm.otaWait
  by_cases hflag : s.device.otaPara.otaFlag = 1
  · rw [if_pos hflag, if_neg fun hlend => hw ⟨hflag, hlend⟩]
    simp only
    split
    · exact ⟨rfl, rfl⟩
    split
    · exact ⟨rfl, rfl⟩
    split
    · exact ⟨rfl, rfl⟩
    · exact ⟨rfl, rfl⟩
  · rw [if_neg hflag]
    exact ⟨rfl, rfl⟩

theorem entered_counted : Counted s (s.entered E x) :=
  have h : Counted (s.afterReceive E x) (s.entered E x) := otaWait_counted
  ⟨h.kept, h.counts, h.gives⟩

/-- Behind the branch a call does not touch the count. -/
theorem Comm.CallOutcome.lendTimeoutWaitTime (h : CallOutcome E s x ret t) :
    t.lendTimeoutWaitTime =
      if (s.received E).ret = 10 then s.lendTimeoutWaitTime
      else (s.entered E x).lendTimeoutWaitTime := by
  cases h with
  | notice h10 => exact (if_pos h10).symm
  | command k buf n t h10 _ _ _ _ hana =>
    obtain ⟨d, ms, rfl⟩ := analyze_eq hana
    exact (if_neg h10).symm
  | cellInfo h10 =>
    obtain ⟨ws, i, flag, heq, -⟩ := getCellInfoProcess_eq (s.entered E x) E.config.moduleType
    rw [heq]
    exact (if_neg h10).symm
  | register h10 | unknown _ _ h10 | disconnect _ _ h10 | publish h10 | idle h10 | published h10
  | failed h10 | publishing h10 => exact (if_neg h10).symm

end

section
variable {E : CommEnv} {s s' : LendLog} {t : Comm} {x : CallInput E.config}
  {e : CommEvent E.config}

/-- A step that does not touch the count. -/
theorem LendInv.next (hs : LendInv s) (ht : t.lendTimeoutWaitTime = s.comm.lendTimeoutWaitTime) :
    LendInv (s.next t) := by
  refine ⟨lendingGrace_rest.2 hs.grace, ?_⟩
  show 0 < Seq.trail _ (s.marks ++ _) → t.lendTimeoutWaitTime.toNat ≤ Seq.trail _ (s.marks ++ _)
  rw [trail_rest, ht]
  split
  · exact hs.count
  · exact fun h => absurd h (Nat.lt_irrefl 0)

/-- A call that comes to the branch. -/
theorem LendInv.branch (hs : LendInv s) (hc : s.comm.device.Waits →
      Seq.trail LendMark.waits s.marks = 0 → s.comm.lendTimeoutWaitTime = 0)
    (ht : Counted s.comm t) :
    LendInv ⟨t, s.marks ++ LendMark.call s.comm.device.Waits
      (0 < s.comm.device.globalInfo.batLendingFlag ∧ t.device.globalInfo.batLendingFlag = 0) ::
        LendLog.rest t.device⟩ := by
  rw [show ∀ m, s.marks ++ m :: LendLog.rest t.device = s.marks ++ [m] ++ LendLog.rest t.device
    from fun m => by simp]
  have hcleared : ∀ d : Device, d = s.comm.device →
      ¬ (0 < s.comm.device.globalInfo.batLendingFlag ∧ d.globalInfo.batLendingFlag = 0) := by
    rintro d rfl ⟨hpos, h0⟩
    rw [h0] at hpos
    exact absurd hpos (by decide)
  by_cases hw : s.comm.device.Waits
  · -- the count is not ahead of the calls before this one
    have hle : s.comm.lendTimeoutWaitTime.toNat ≤ Seq.trail LendMark.waits s.marks := by
      rcases Nat.eq_zero_or_pos (Seq.trail LendMark.waits s.marks) with h0 | hpos
      · rw [hc hw h0]
        exact Nat.zero_le _
      · exact hs.count hpos
    by_cases hlt : s.comm.lendTimeoutWaitTime < 6000
    · obtain ⟨hcount, hdev⟩ := ht.counts hw hlt
      refine ⟨lendingGrace_rest.2 (lendingGrace_concat.2 ⟨hs.grace, fun h => ?_⟩), fun _ => ?_⟩
      · exact absurd (of_decide_eq_true h) (hcleared _ hdev)
      · have hsucc : (s.comm.lendTimeoutWaitTime + 1).toNat =
            s.comm.lendTimeoutWaitTime.toNat + 1 := by
          have hnat := UInt32.lt_iff_toNat_lt.1 hlt
          simp only [UInt32.reduceToNat] at hnat
          rw [UInt32.toNat_add]
          exact Nat.mod_eq_of_lt (by simp only [UInt32.reduceToNat]; omega)
        show t.lendTimeoutWaitTime.toNat ≤ _
        rw [trail_rest, hdev, if_pos hw, Seq.trail_append_singleton, hcount, hsucc]
        split
        · exact Nat.succ_le_succ hle
        · rename_i hnot
          exact absurd (decide_eq_true hw) hnot
    · have hge := UInt32.not_lt.1 hlt
      refine ⟨lendingGrace_rest.2 (lendingGrace_concat.2 ⟨hs.grace, fun _ => ?_⟩), fun _ => ?_⟩
      · exact (UInt32.le_iff_toNat_le.1 hge).trans hle
      · show t.lendTimeoutWaitTime.toNat ≤ _
        rw [ht.gives hw hge]
        exact Nat.zero_le _
  · obtain ⟨hcount, hdev⟩ := ht.kept hw
    refine ⟨lendingGrace_rest.2 (lendingGrace_concat.2 ⟨hs.grace, fun h => ?_⟩), fun h => ?_⟩
    · exact absurd (of_decide_eq_true h) (hcleared _ hdev)
    · rw [trail_rest, hdev, if_neg hw] at h
      exact absurd h (Nat.lt_irrefl 0)

/-- A call. -/
theorem LendInv.call (hs : LendInv s) (hc : LendCond E s (.call x)) {ret : CommRet}
    (hcall : module4gCommunicationProcess E x s.comm = some (ret, t)) :
    LendInv ⟨t, s.marks ++ LendLog.callMarks E s.comm x t⟩ := by
  have ht := (Comm.call_outcome hcall).lendTimeoutWaitTime
  unfold LendLog.callMarks
  by_cases h10 : (s.comm.received E).ret = 10
  · rw [if_pos h10] at ht ⊢
    exact hs.next ht
  · rw [if_neg h10] at ht ⊢
    rw [← List.append_assoc]
    exact (hs.branch (hc h10) (entered_counted (x := x))).next ht

theorem LendStep.inv (hs : LendInv s) (hc : LendCond E s e) (h : LendStep E s e s') :
    LendInv s' := by
  cases e with
  | uart bs =>
    cases h
    obtain ⟨f, u, heq⟩ := s.comm.deliver_eq E.config bs
    exact hs.next (by rw [heq])
  | save m =>
    cases h
    exact hs.next rfl
  | others d flag =>
    cases h
    exact hs.next rfl
  | rest data uart netWork registered =>
    cases h
    exact hs.next rfl
  | call x =>
    obtain ⟨⟨ret, t⟩, hcall, rfl⟩ := Option.map_eq_some_iff.1 h
    exact hs.call hc hcall

end

/-- In a run in which every wait begins with the count at 0, a lending is given up only behind 6000
calls in a row that have waited for it. -/
theorem lendingGrace_of_lendCond {E : CommEnv} {s₀ : Comm} {es : List (CommEvent E.config)}
    {s : LendLog} (h : Run (Guarded (LendCond E) (LendStep E)) ⟨s₀, []⟩ es s) :
    LendingGrace s.marks := by
  have hstart : LendInv ⟨s₀, []⟩ := ⟨lendingGrace_nil, fun h => absurd h (Nat.lt_irrefl 0)⟩
  have hstep : ∀ s e s', LendInv s → Guarded (LendCond E) (LendStep E) s e s' → LendInv s' :=
    fun _ _ _ hs hg => LendStep.inv hs hg.1 hg.2
  exact (h.inv hstep hstart).grace

/-! ## A small program -/

/-- A device with a download ordered, and a lending with the given flag. -/
def lendDevice (batLendingFlag : UInt32) : Device :=
  { Device.reset 0 with
    globalInfo := { (Device.reset 0).globalInfo with batLendingFlag := batLendingFlag }
    otaPara := { (Device.reset 0).otaPara with otaFlag := 1 } }

/-- The communication with that device, online, the countdowns at the given values. -/
def lendComm (batLendingFlag ota lend : UInt32) : Comm :=
  { Comm.reset with
    registered := true
    communicateStep := 1
    device := lendDevice batLendingFlag
    otaStartDelayTime := ota
    lendTimeoutWaitTime := lend }

section
variable {ota lend : UInt32} {marks : List LendMark}

theorem lendComm_received (flag : UInt32) : (lendComm flag ota lend).received (.small queueConfig) =
    ⟨0, .reset, .reset, 0, 0⟩ := rfl

theorem lendComm_entered (flag : UInt32) :
    (lendComm flag ota lend).entered (.small queueConfig) (.quiet _) =
      (lendComm flag ota lend).otaWait (.small queueConfig) (.quiet _) := rfl

/-- A call that does nothing but count. -/
theorem lendComm_call {flag flag' ota' lend' : UInt32}
    (h : (lendComm flag ota lend).entered (.small queueConfig) (.quiet _) =
      lendComm flag' ota' lend') :
    LendStep (.small queueConfig) ⟨lendComm flag ota lend, marks⟩ (.call (.quiet _))
      ⟨lendComm flag' ota' lend', marks ++ LendLog.callMarks (.small queueConfig)
        (lendComm flag ota lend) (.quiet _) (lendComm flag' ota' lend')⟩ := by
  have hcall : module4gCommunicationProcess (.small queueConfig) (.quiet _)
      (lendComm flag ota lend) = some (.wait, lendComm flag' ota' lend') := by
    unfold module4gCommunicationProcess
    rw [if_neg (by rw [lendComm_received]; decide), h]
    rfl
  show (module4gCommunicationProcess _ _ (lendComm flag ota lend)).map _ = _
  rw [hcall]
  rfl

theorem lendDevice_waits : (lendComm 1 ota lend).device.Waits :=
  ⟨rfl, show (0 : UInt32) < 1 by decide⟩

/-- A call that waits. -/
theorem lendStep_wait (ota : UInt32) (marks : List LendMark) (h : lend < 6000) :
    LendStep (.small queueConfig) ⟨lendComm 1 ota lend, marks⟩ (.call (.quiet _))
      ⟨lendComm 1 ota (lend + 1), marks ++ [.call true false]⟩ := by
  have hentered : (lendComm 1 ota lend).entered (.small queueConfig) (.quiet _) =
      lendComm 1 ota (lend + 1) :=
    (lendComm_entered 1).trans
      ((otaWait_of_waits lendDevice_waits).trans (if_neg (UInt32.not_le.2 h)))
  have hmarks : LendLog.callMarks (.small queueConfig) (lendComm 1 ota lend) (.quiet _)
      (lendComm 1 ota (lend + 1)) = [.call true false] := by
    unfold LendLog.callMarks
    rw [if_neg (by rw [lendComm_received]; decide), hentered]
    rfl
  exact hmarks ▸ lendComm_call hentered

/-- Calls that wait. -/
theorem lendRun_wait (ota : UInt32) (marks : List LendMark) (n : Nat) {k : Nat}
    (h : k + n ≤ 6000) : Run (LendStep (.small queueConfig))
    ⟨lendComm 1 ota (UInt32.ofNat k), marks⟩
    (List.replicate n (.call (.quiet _)))
    ⟨lendComm 1 ota (UInt32.ofNat (k + n)), marks ++ List.replicate n (.call true false)⟩ := by
  induction n generalizing k marks with
  | zero =>
    rw [List.replicate_zero, List.replicate_zero, List.append_nil]
    exact .nil
  | succ n ih =>
    have hlt : UInt32.ofNat k < 6000 := by
      rw [UInt32.lt_iff_toNat_lt, UInt32.toNat_ofNat_of_lt' (by rw [UInt32.size]; omega)]
      simp only [UInt32.reduceToNat]
      omega
    have hsucc : UInt32.ofNat k + 1 = UInt32.ofNat (k + 1) := (UInt32.ofNat_add k 1).symm
    have hfirst := lendStep_wait ota marks hlt
    have hrest := ih (marks ++ [.call true false]) (k := k + 1) (by omega)
    rw [hsucc] at hfirst
    rw [List.append_assoc, Nat.add_right_comm, Nat.add_assoc] at hrest
    exact .cons hfirst hrest

end

/-- A call that gives the lending up. -/
theorem lendStep_giveUp (ota : UInt32) (marks : List LendMark) : LendStep (.small queueConfig)
    ⟨lendComm 1 ota 6000, marks⟩ (.call (.quiet _))
    ⟨lendComm 0 ota 0, marks ++ [.call true true, .idle, .idle]⟩ :=
  lendComm_call ((lendComm_entered 1).trans
    ((otaWait_of_waits lendDevice_waits).trans (if_pos (UInt32.le_refl 6000))))

theorem trail_waits (n : Nat) :
    Seq.trail LendMark.waits (List.replicate n (.call true false)) = n := by
  have hall : ∀ x ∈ List.replicate n (LendMark.call true false), x.waits = true := by
    intro x hx
    rw [List.eq_of_mem_replicate hx]
    rfl
  exact (Seq.trail_eq_length_iff.2 hall).trans List.length_replicate

/-- A lending that goes on, from its begin on. -/
theorem lendRun_begin (ota : UInt32) {n : Nat} (h : n ≤ 6000) :
    Run (Guarded (LendCond (.small queueConfig)) (LendStep _)) ⟨lendComm 1 ota 0, []⟩
      (List.replicate n (.call (.quiet _)))
      ⟨lendComm 1 ota (UInt32.ofNat n), List.replicate n (.call true false)⟩ := by
  induction n with
  | zero => exact .nil
  | succ n ih =>
    have hlt : UInt32.ofNat n < 6000 := by
      rw [UInt32.lt_iff_toNat_lt, UInt32.toNat_ofNat_of_lt' (by rw [UInt32.size]; omega)]
      simp only [UInt32.reduceToNat]
      omega
    have hstep := lendStep_wait ota (List.replicate n (.call true false)) hlt
    rw [show UInt32.ofNat n + 1 = UInt32.ofNat (n + 1) from (UInt32.ofNat_add n 1).symm] at hstep
    rw [List.replicate_succ', List.replicate_succ']
    refine (ih (Nat.le_of_succ_le h)).append (.cons ⟨fun _ _ htrail => ?_, hstep⟩ .nil)
    obtain rfl : n = 0 := (trail_waits n).symm.trans htrail
    rfl

/-- A lending that is given up when it has gone on for 6000 calls. -/
theorem lendingGrace_lendComm :
    let marks := List.replicate 6000 (LendMark.call true false) ++ [.call true true, .idle, .idle]
    Run (Guarded (LendCond (.small queueConfig)) (LendStep _)) ⟨lendComm 1 0 0, []⟩
        (List.replicate 6000 (.call (.quiet _)) ++ [.call (.quiet _)]) ⟨lendComm 0 0 0, marks⟩ ∧
      LendingGrace marks := by
  have hend : LendCond (.small queueConfig)
      ⟨lendComm 1 0 6000, List.replicate 6000 (.call true false)⟩ (.call (.quiet _)) := by
    intro _ _ htrail
    exact absurd ((trail_waits 6000).symm.trans htrail) (by decide)
  have hrun := (lendRun_begin 0 (Nat.le_refl 6000)).append
    (.cons ⟨hend, lendStep_giveUp 0 (List.replicate 6000 (.call true false))⟩ .nil)
  exact ⟨hrun, lendingGrace_of_lendCond hrun⟩

/-- The first lending ends after one call, the second one begins behind a call that has found none
and is given up after 5999. -/
theorem not_lendingGrace : ¬ ∀ (E : CommEnv) (s₀ : Comm) (es : List (CommEvent E.config))
    (s : LendLog), s₀.lendTimeoutWaitTime = 0 → Run (LendStep E) ⟨s₀, []⟩ es s →
      LendingGrace s.marks := by
  intro h
  have hfirst : Run (LendStep (.small queueConfig)) ⟨lendComm 1 0 0, []⟩
      [.call (.quiet _), .others (lendDevice 0) false, .call (.quiet _),
        .others (lendDevice 1) false]
      ⟨lendComm 1 1 1, [.call true false, .idle, .call false false, .idle, .idle]⟩ :=
    .cons (lendStep_wait _ _ (by decide)) (.cons rfl (.cons (lendComm_call rfl) (.cons rfl .nil)))
  have hsecond := lendRun_wait 1
    [.call true false, .idle, .call false false, .idle, .idle] 5999 (k := 1) (by decide)
  have hrun := (hfirst.append hsecond).append (.cons (lendStep_giveUp 1 _) .nil)
  have hgrace := h _ _ _ _ rfl hrun _ (.call true true) [.idle, .idle] rfl rfl
  have hle := hgrace.trans (Seq.trail_append_cons_le
    [LendMark.call true false, .idle, .call false false, .idle]
    (List.replicate 5999 (.call true false)) (by decide))
  rw [List.length_replicate] at hle
  omega

end AppXd.Net4g
