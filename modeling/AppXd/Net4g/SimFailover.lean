import AppXd.Lib.Trace
import AppXd.Net4g.NetConfig

/-!
# Change of the SIM card

A run of the configuration is a sequence of calls that begins at step 0. Between two calls the rest
of the program may change everything but the step. The steps behind the attachment to the network
are reached through a successful `AT+CGATT?` only, and no card is selected there.
-/

namespace AppXd.Net4g

open Trace (Run)

/-- One call, with the state that it finds and what the module answers. -/
structure ConfigCall where
  before : NetState
  rsp : AtRsp

section
variable (m : ModuleType) (check : AtCmdId → List UInt8 → Bool)

namespace ConfigCall

variable (c : ConfigCall)

def id : AtCmdId := (configStep m c.before.netConfig).id

/-- The command has been answered as it should. -/
def ok : Bool := (configSend m check c.before c.rsp).1

def ret : ProcessRet := (module4gConfigParaProcess m check c.before c.rsp).1

def after : NetState := (module4gConfigParaProcess m check c.before c.rsp).2

/-- The step that the call comes to, before an end of the table is noticed. -/
def landing : Nat :=
  (configJump m (configSwitch m (c.id m) (c.ok m check)
    (configSend m check c.before c.rsp).2)).netConfig

/-- The serial number is asked for after the connection was lost, with a known card in use. -/
def Reconnects : Prop :=
  c.id m = .getSnNo ∧ c.before.reconnectFlag = 1 ∧ (c.before.simFlag = 1 ∨ c.before.simFlag = 2)

end ConfigCall

/-- The command selects a card. -/
def AtCmdId.SelectsSim (id : AtCmdId) : Prop := id = .simChange1 ∨ id = .simChange2

instance (id : AtCmdId) : Decidable id.SelectsSim := inferInstanceAs (Decidable (_ ∨ _))

/-- Two cards are looked at. -/
def ModuleType.dualSim : ModuleType → Prop
  | nt26e | nt26k | ce109 | ec800 | ec801 => True
  | eg800geu => False

/-- The steps that select a card and look at it. -/
def simSequence (simFlag : UInt8) : List Nat :=
  if m.quectel then
    if simFlag = 1 then List.range' 15 6 else List.range' 9 6 ++ List.range' 21 6
  else
    if simFlag = 1 then List.range' 12 7 else List.range' 5 7 ++ List.range' 19 7

/-- A call leads from one step to another. -/
def ConfigStep (n : Nat) (c : ConfigCall) (n' : Nat) : Prop :=
  c.before.netConfig = n ∧ (c.after m check).netConfig = n'

/-- The attachment was found after the last selection of a card. -/
def Attached (cs : List ConfigCall) : Prop :=
  ∃ cs₁ c cs₂, cs = cs₁ ++ c :: cs₂ ∧ c.id m = .getNetState ∧ c.ok m check = true ∧
    ∀ c' ∈ cs₂, ¬ (c'.id m).SelectsSim

/-- The procedure begins anew behind the calls. -/
def Begins (cs : List ConfigCall) : Prop :=
  cs = [] ∨ ∃ cs' c, cs = cs' ++ [c] ∧ c.ret m check ≠ .wait

/-- What a sequence of calls does about the cards. -/
structure Failover (cs : List ConfigCall) : Prop where
  attached : ∀ cs₁ cs₂ c cs₃, cs = cs₁ ++ (cs₂ ++ c :: cs₃) → Begins m check cs₁ →
    (∀ c' ∈ cs₂, c'.ret m check = .wait) → c.ret m check = .done → Attached m check (cs₂ ++ [c])
  other : ∀ c ∈ cs, c.Reconnects m → c.ret m check = .wait ∧
    (c.after m check).netConfig ∈ simSequence m (3 - c.before.simFlag)

end

section
variable {m : ModuleType} {check : AtCmdId → List UInt8 → Bool} {c : ConfigCall}

/-! ## One call -/

/-- A call in the table stops at an end of the table, or goes on from where it has come to. -/
theorem call_cases (hn : c.before.netConfig < (net4gConfigCommandSteps m).length) :
    c.ret m check = .wait ∧ (c.after m check).netConfig = c.landing m check ∧
        (configStep m (c.landing m check)).id ≠ .error ∨
      c.ret m check = .done ∧ (c.after m check).netConfig = 0 ∧
        (configStep m (c.landing m check)).id = .success ∨
      c.ret m check = .error ∧ (c.after m check).netConfig = 0 ∧
        (configStep m (c.landing m check)).id = .error := by
  unfold ConfigCall.ret ConfigCall.after ConfigCall.landing ConfigCall.id ConfigCall.ok
    module4gConfigParaProcess
  rw [if_neg (Nat.not_le.2 hn)]
  simp only
  generalize configJump m _ = s
  split
  · rename_i hid
    exact .inr (.inl ⟨rfl, rfl, hid⟩)
  · rename_i hid
    exact .inr (.inr ⟨rfl, rfl, hid⟩)
  · rename_i hno
    exact .inl ⟨rfl, rfl, hno⟩

/-- The steps that the case of the serial number can lead to. -/
def snLandings (m : ModuleType) (n : Nat) : List Nat :=
  match m with
  | .nt26e | .nt26k | .ce109 => [(configStep m 19).fJump, (configStep m 12).fJump, 12, 5,
      (configStep m n).sJump]
  | .ec800 | .ec801 => [21, 15, 9, (configStep m n).sJump]
  | .eg800geu => [(configStep m n).sJump]

theorem landing_getSnNo (hid : c.id m = .getSnNo) :
    c.landing m check ∈ snLandings m c.before.netConfig := by
  unfold ConfigCall.landing
  rw [configSend_getSnNo m check c.before c.rsp hid, hid]
  unfold configSwitch
  cases m <;> simp only [snLandings, List.mem_cons]
  case eg800geu => exact .inl rfl
  case ec800 | ec801 =>
    unfold ec800SnNo
    dsimp only
    split_ifs <;> simp [configJump]
  all_goals
    unfold nt26SnNo
    dsimp only
    split_ifs <;> simp [configJump]

/-- Where the code does not choose, the verdict does. -/
theorem landing_eq (hsn : c.id m ≠ .getSnNo)
    (hnet : ¬ (c.id m = .getNetState ∧ c.ok m check = true)) :
    c.landing m check = if c.ok m check then (configStep m c.before.netConfig).sJump
      else (configStep m c.before.netConfig).fJump := by
  have hswitch : configSwitch m (c.id m) (c.ok m check) (configSend m check c.before c.rsp).2 =
      (if c.ok m check then .ok else .err, (configSend m check c.before c.rsp).2) := by
    unfold configSwitch
    dsimp only
    split
    · rename_i hid
      exact absurd hid hsn
    · rename_i hid
      rw [if_neg]
      rintro ⟨-, hok, -⟩
      exact hnet ⟨hid, hok⟩
    · rfl
  unfold ConfigCall.landing
  rw [hswitch]
  unfold configJump
  cases c.ok m check <;> simp [configSend_netConfig]

theorem landing_getNetState (hid : c.id m = .getNetState) (hok : c.ok m check = true) :
    c.landing m check = (configStep m c.before.netConfig).sJump ∨
      c.landing m check = attachedStep m ∧ m.dualSim := by
  unfold ConfigCall.landing configSwitch
  rw [hid, hok]
  dsimp only
  split
  · rename_i h
    refine .inr ⟨rfl, ?_⟩
    have hne := h.1
    cases m <;> trivial
  · left
    simp [configJump, configSend_netConfig]

/-! ## The tables -/

/-- The first step behind the attachment. -/
def attachedFrom : ModuleType → Nat
  | .nt26e | .nt26k | .ce109 => 26
  | .ec800 | .ec801 => 27
  | .eg800geu => 10

/-- A step can be followed: it is in the table, and it is not behind the attachment unless `ok`. -/
def Follows (m : ModuleType) (j : Nat) (ok : Prop) : Prop :=
  j < (net4gConfigCommandSteps m).length ∧
    ((configStep m j).id = .error ∨ j < attachedFrom m ∨ ok)

instance (m : ModuleType) (j : Nat) (ok : Prop) [Decidable ok] : Decidable (Follows m j ok) :=
  inferInstanceAs (Decidable (_ ∧ _))

/-- The step is behind the attachment and selects no card. -/
def Behind (m : ModuleType) (n : Nat) : Prop :=
  attachedFrom m ≤ n ∧ ¬ (configStep m n).id.SelectsSim

instance (m : ModuleType) (n : Nat) : Decidable (Behind m n) :=
  inferInstanceAs (Decidable (_ ∧ _))

theorem follows_sJump (m : ModuleType) : ∀ n < (net4gConfigCommandSteps m).length,
    Follows m (configStep m n).sJump ((configStep m n).id = .getNetState ∨ Behind m n) := by
  cases m <;> decide

theorem follows_fJump (m : ModuleType) : ∀ n < (net4gConfigCommandSteps m).length,
    Follows m (configStep m n).fJump (Behind m n) := by
  cases m <;> decide

theorem follows_snLandings (m : ModuleType) : ∀ n < (net4gConfigCommandSteps m).length,
    (configStep m n).id = .getSnNo → ∀ j ∈ snLandings m n, Follows m j False := by
  cases m <;> decide

theorem attachedStep_lt (m : ModuleType) (hm : m.dualSim) :
    attachedStep m < (net4gConfigCommandSteps m).length := by
  cases m <;> first | decide | exact hm.elim

/-- Behind the attachment a call has either found it or was there before. -/
theorem follows_landing (hn : c.before.netConfig < (net4gConfigCommandSteps m).length) :
    Follows m (c.landing m check)
      (c.id m = .getNetState ∧ c.ok m check = true ∨ Behind m c.before.netConfig) := by
  by_cases hsn : c.id m = .getSnNo
  · obtain ⟨hlt, h⟩ := follows_snLandings m _ hn hsn _ (@landing_getSnNo m check c hsn)
    exact ⟨hlt, h.imp_right fun h => h.imp_right False.elim⟩
  by_cases hnet : c.id m = .getNetState ∧ c.ok m check = true
  · refine ⟨?_, .inr (.inr (.inl hnet))⟩
    obtain h | ⟨h, hm⟩ := landing_getNetState hnet.1 hnet.2
    · rw [h]
      exact (follows_sJump m _ hn).1
    · rw [h]
      exact attachedStep_lt m hm
  rw [landing_eq hsn hnet]
  split
  · rename_i hok
    obtain ⟨hlt, h⟩ := follows_sJump m _ hn
    refine ⟨hlt, h.imp_right fun h => h.imp_right fun h => ?_⟩
    obtain hid | hb := h
    · exact absurd ⟨hid, hok⟩ hnet
    · exact .inr hb
  · obtain ⟨hlt, h⟩ := follows_fJump m _ hn
    exact ⟨hlt, h.imp_right fun h => h.imp_right .inr⟩

theorem attachedFrom_le (m : ModuleType) :
    ∀ j < attachedFrom m, (configStep m j).id ≠ .success := by
  cases m <;> decide

theorem lt_length_of_getSnNo (hid : c.id m = .getSnNo) :
    c.before.netConfig < (net4gConfigCommandSteps m).length := by
  by_contra hge
  unfold ConfigCall.id configStep at hid
  rw [List.getD_eq_default _ _ (Nat.not_lt.1 hge)] at hid
  cases hid

/-! ## Runs -/

section
variable {cs : List ConfigCall} {n : Nat}

theorem Attached.snoc (h : Attached m check cs) (hid : ¬ (c.id m).SelectsSim) :
    Attached m check (cs ++ [c]) := by
  obtain ⟨cs₁, d, cs₂, rfl, hd, hok, hno⟩ := h
  refine ⟨cs₁, d, cs₂ ++ [c], by simp, hd, hok, fun c' hc' => ?_⟩
  obtain hc' | hc' := List.mem_append.1 hc'
  · exact hno c' hc'
  · rwa [List.mem_singleton.1 hc']

theorem attached_of_getNetState (hid : c.id m = .getNetState) (hok : c.ok m check = true) :
    Attached m check (cs ++ [c]) :=
  ⟨cs, c, [], rfl, hid, hok, nofun⟩

/-- A call behind the calls `cs`: it stays before the attachment, or the attachment was found. -/
theorem attached_of_landing (hn : c.before.netConfig < (net4gConfigCommandSteps m).length)
    (hcs : c.before.netConfig < attachedFrom m ∨ Attached m check cs)
    (herr : (configStep m (c.landing m check)).id ≠ .error) :
    c.landing m check < attachedFrom m ∨ Attached m check (cs ++ [c]) := by
  obtain ⟨-, h | h | ⟨hid, hok⟩ | ⟨hle, hno⟩⟩ := @follows_landing m check c hn
  · exact absurd h herr
  · exact .inl h
  · exact .inr (attached_of_getNetState hid hok)
  · obtain hlt | hat := hcs
    · exact absurd hlt (Nat.not_lt.2 hle)
    · exact .inr (hat.snoc hno)

theorem run_lt_length (h : Run (ConfigStep m check) 0 cs n) :
    n < (net4gConfigCommandSteps m).length := by
  have hzero : 0 < (net4gConfigCommandSteps m).length := by cases m <;> decide
  refine h.inv (I := fun n => n < (net4gConfigCommandSteps m).length) ?_ hzero
  rintro n c n' hn ⟨rfl, rfl⟩
  obtain ⟨-, heq, -⟩ | ⟨-, heq, -⟩ | ⟨-, heq, -⟩ := @call_cases m check c hn
  · rw [heq]
    exact (follows_landing hn).1
  · rwa [heq]
  · rwa [heq]

/-- As long as the procedure waits, the steps behind the attachment are reached through it. -/
theorem run_attached (h : Run (ConfigStep m check) 0 cs n)
    (hwait : ∀ c ∈ cs, c.ret m check = .wait) : n < attachedFrom m ∨ Attached m check cs := by
  have hinv : n < (net4gConfigCommandSteps m).length ∧
      ((∀ c ∈ cs, c.ret m check = .wait) → n < attachedFrom m ∨ Attached m check cs) := by
    refine h.inv_trace (I := fun cs n => n < (net4gConfigCommandSteps m).length ∧
      ((∀ c ∈ cs, c.ret m check = .wait) → n < attachedFrom m ∨ Attached m check cs)) ?_ ?_
    · rintro cs n c n' ⟨hn, ih⟩ hstep
      have hn' := hstep
      obtain ⟨rfl, rfl⟩ := hstep
      obtain ⟨-, heq, herr⟩ | ⟨hret, heq, -⟩ | ⟨hret, heq, -⟩ := @call_cases m check c hn
      · rw [heq]
        refine ⟨(follows_landing hn).1, fun hall => ?_⟩
        exact attached_of_landing hn (ih fun c' hc' => hall c' (List.mem_append_left _ hc')) herr
      all_goals
        rw [heq]
        refine ⟨Nat.zero_lt_of_lt hn, fun hall => ?_⟩
        have hc := hall c (List.mem_append_right _ (List.mem_singleton_self c))
        rw [hret] at hc
        cases hc
    · refine ⟨?_, fun _ => .inl ?_⟩ <;> cases m <;> decide
  exact hinv.2 hwait

theorem run_begins (h : Run (ConfigStep m check) 0 cs n) (hb : Begins m check cs) : n = 0 := by
  obtain rfl | ⟨cs', c, rfl, hret⟩ := hb
  · cases h
    rfl
  · obtain ⟨n', hrun, hstep⟩ := Trace.run_append_iff.1 h
    obtain _ | ⟨⟨rfl, heq'⟩, hnil⟩ := hstep
    cases hnil
    rw [← heq']
    obtain ⟨hwait, -⟩ | ⟨-, heq, -⟩ | ⟨-, heq, -⟩ := call_cases (run_lt_length hrun)
    · exact absurd hwait hret
    · exact heq
    · exact heq

theorem run_done (h : Run (ConfigStep m check) 0 cs n) : ∀ cs₁ cs₂ c cs₃,
    cs = cs₁ ++ (cs₂ ++ c :: cs₃) → Begins m check cs₁ →
      (∀ c' ∈ cs₂, c'.ret m check = .wait) → c.ret m check = .done →
        Attached m check (cs₂ ++ [c]) := by
  rintro cs₁ cs₂ c cs₃ rfl hb hwait hdone
  obtain ⟨n₁, hrun₁, hrest⟩ := Trace.run_append_iff.1 h
  obtain rfl := run_begins hrun₁ hb
  obtain ⟨n₂, hrun₂, hrest⟩ := Trace.run_append_iff.1 hrest
  obtain _ | ⟨⟨rfl, -⟩, -⟩ := hrest
  have hn := run_lt_length hrun₂
  obtain ⟨hret, -⟩ | ⟨-, -, hid⟩ | ⟨hret, -⟩ := @call_cases m check c hn
  · rw [hdone] at hret
    cases hret
  · have herr : (configStep m (c.landing m check)).id ≠ .error := by
      rw [hid]
      decide
    obtain hlt | hat := attached_of_landing hn (run_attached hrun₂ hwait) herr
    · exact absurd hid (attachedFrom_le m _ hlt)
    · exact hat
  · rw [hdone] at hret
    cases hret

end

/-! ## After a lost connection -/

theorem landing_reconnects (h : c.Reconnects m) (hm : m.dualSim) : c.landing m check =
    if m.quectel then if c.before.simFlag = 1 then 21 else 15 else 33 := by
  obtain ⟨hid, hflag, hsim⟩ := h
  have hone : (2 : UInt8) ≠ 1 := by decide
  unfold ConfigCall.landing configSwitch
  rw [configSend_getSnNo m check c.before c.rsp hid, hid]
  obtain hsim | hsim := hsim <;> cases m <;>
    simp [nt26SnNo, ec800SnNo, hflag, hsim, hone, configJump, ModuleType.quectel] <;>
    first | rfl | exact hm.elim

/-- EC800 and EC801 go on with the other card. -/
theorem other_of_quectel (h : c.Reconnects m) (hm : m.dualSim) (hq : m.quectel = true) :
    c.ret m check = .wait ∧
      (c.after m check).netConfig ∈ simSequence m (3 - c.before.simFlag) := by
  have hland := @landing_reconnects m check c h hm
  rw [if_pos hq] at hland
  have hsim := h.2.2
  have hends : (configStep m (c.landing m check)).id = .simChange1 ∨
      (configStep m (c.landing m check)).id = .simChange2 := by
    rw [hland]
    obtain hsim | hsim := hsim <;> rw [hsim] <;> cases m <;>
      first | decide | exact hm.elim | cases hq
  obtain ⟨hret, heq, -⟩ | ⟨-, -, hid⟩ | ⟨-, -, hid⟩ := call_cases (lt_length_of_getSnNo h.1)
  · refine ⟨hret, ?_⟩
    rw [heq, hland]
    obtain hsim | hsim := hsim <;> rw [hsim] <;> unfold simSequence <;> rw [if_pos hq] <;> decide
  · obtain h | h := hends <;> rw [hid] at h <;> cases h
  · obtain h | h := hends <;> rw [hid] at h <;> cases h

/-- The NT26 family gives up. -/
theorem error_of_not_quectel (h : c.Reconnects m) (hm : m.dualSim) (hq : m.quectel = false) :
    c.ret m check = .error := by
  have hland := @landing_reconnects m check c h hm
  rw [hq, if_neg Bool.false_ne_true] at hland
  have herr : (configStep m (c.landing m check)).id = .error := by
    rw [hland]
    cases m <;> first | rfl | cases hq
  obtain ⟨-, -, hid⟩ | ⟨-, -, hid⟩ | ⟨hret, -⟩ := call_cases (lt_length_of_getSnNo h.1)
  · exact absurd herr hid
  · rw [herr] at hid
    cases hid
  · exact hret

end

/-- In every run from step 0 the cards are treated as they should, as long as the NT26 family does
not ask for its serial number after a lost connection. -/
theorem failover_iff {m : ModuleType} {check : AtCmdId → List UInt8 → Bool}
    {cs : List ConfigCall} {n : Nat} (hm : m.dualSim) (h : Run (ConfigStep m check) 0 cs n) :
    Failover m check cs ↔ (m.quectel = false → ∀ c ∈ cs, ¬ c.Reconnects m) := by
  constructor
  · intro hf hq c hc hrec
    have hret := (hf.other c hc hrec).1
    rw [error_of_not_quectel hrec hm hq] at hret
    cases hret
  · intro hno
    refine ⟨run_done h, fun c hc hrec => ?_⟩
    cases hq : m.quectel with
    | true => exact other_of_quectel hrec hm hq
    | false => exact absurd hrec (hno hq c hc)

/-- The calls of a run from the state `s` in which each command has its answer. -/
def answeredCalls (m : ModuleType) (check : AtCmdId → List UInt8 → Bool)
    (answer : AtCmdId → AtRsp) : Nat → NetState → List ConfigCall
  | 0, _ => []
  | k + 1, s =>
    let c : ConfigCall := ⟨s, answer (configStep m s.netConfig).id⟩
    c :: answeredCalls m check answer k (c.after m check)

theorem run_answeredCalls (m : ModuleType) (check : AtCmdId → List UInt8 → Bool)
    (answer : AtCmdId → AtRsp) (k : Nat) (s : NetState) :
    ∃ n, Run (ConfigStep m check) s.netConfig (answeredCalls m check answer k s) n := by
  induction k generalizing s with
  | zero => exact ⟨_, .nil⟩
  | succ k ih =>
    obtain ⟨n, hrun⟩ := ih (ConfigCall.after m check ⟨s, answer (configStep m s.netConfig).id⟩)
    exact ⟨n, .cons ⟨rfl, rfl⟩ hrun⟩

instance (c : ConfigCall) (m : ModuleType) : Decidable (c.Reconnects m) :=
  inferInstanceAs (Decidable (_ ∧ _ ∧ (_ ∨ _)))

/-- The second card is in use and attached. -/
def secondCardAnswer (id : AtCmdId) : AtRsp := fun _ =>
  match id with
  | .simCheck => CStr.ascii "+QDSIM: 1\r\nOK\r\n"
  | .isSimOk => CStr.ascii "+CPIN: READY\r\nOK\r\n"
  | .getSimNo => CStr.ascii "+QCCID: 8986\r\nOK\r\n"
  | .getSimState => CStr.ascii "+CEREG: 0,1\r\nOK\r\n"
  | .getNetState => CStr.ascii "+CGATT: 1\r\nOK\r\n"
  | _ => CStr.ascii "OK\r\n"

/-- The connection was lost with the first card. -/
def firstCardLost : NetState := ⟨0, 1, 1, 1, 0, 1, List.replicate 32 0, List.replicate 32 0⟩

/-- After a lost connection with the first card EC800 comes to the second one and is done. -/
theorem failover_ec800 :
    let check := fun _ _ => true
    let cs := answeredCalls .ec800 check secondCardAnswer 21 firstCardLost
    Failover .ec800 check cs ∧ (∃ c ∈ cs, c.Reconnects .ec800) ∧
      ∃ c ∈ cs, c.ret .ec800 check = .done := by
  obtain ⟨n, hrun⟩ := run_answeredCalls .ec800 (fun _ _ => true) secondCardAnswer 21 firstCardLost
  exact ⟨(failover_iff (m := .ec800) trivial hrun).2 nofun, by decide +kernel, by decide +kernel⟩

/-- A call at the given step after a lost connection with the first card; the module answers `OK`. -/
def reconnectCall (n : Nat) : ConfigCall :=
  ⟨⟨n, 1, 1, 0, 0, 0, [], []⟩, fun _ => CStr.ascii "OK\r\n"⟩

/-- The NT26 family ends with an error instead of trying the second card. -/
theorem not_failover_nt26 : ¬ ∀ (m : ModuleType) (check : AtCmdId → List UInt8 → Bool)
    (cs : List ConfigCall) (n : Nat), m.dualSim → Run (ConfigStep m check) 0 cs n →
      Failover m check cs := by
  intro h
  have hf := h .nt26e (fun _ _ => true) [reconnectCall 0, reconnectCall 1, reconnectCall 2,
    reconnectCall 3, reconnectCall 4] 0 trivial
    (.cons ⟨rfl, rfl⟩ (.cons ⟨rfl, rfl⟩ (.cons ⟨rfl, rfl⟩ (.cons ⟨rfl, rfl⟩
      (.cons ⟨rfl, rfl⟩ .nil)))))
  have hret := (hf.other (reconnectCall 4) (by simp) ⟨rfl, rfl, .inl rfl⟩).1
  revert hret
  decide

end AppXd.Net4g
