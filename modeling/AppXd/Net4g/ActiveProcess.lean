import AppXd.Lib.Trace
import AppXd.Net4g.Activation
import AppXd.Net4g.NetConfig

/-!
# Activation of the device

`device_active_process` makes one step of a table in each call, as the configuration of the network
does. A device that has stored its credentials begins with the confirm request.

A run is a sequence of calls that begins at step 0. Between two calls the rest of the program may
change everything but the step.
-/

namespace AppXd.Net4g

open CStr (ascii)
open Trace (Run)

/-- The commands of the activation steps. -/
inductive ActiveCmdId
  | activeHttpConfigCache | routeHttpConfigSslCtxId
  | activeSetUrlCmd | activeSetUrlData | activeSetConnectUrl | activeGetHttpRsp
  | activeConfirmSetUrlCmd | activeConfirmSetUrlData | activeConfirmConnectUrl
  | activeConfirmGetHttpRsp | success | error
  deriving DecidableEq, Repr

/-- The rows of `module_4g_cmds` for these commands. -/
def activeCmds (m : ModuleType) : ActiveCmdId → AtCmd
  | .activeHttpConfigCache | .routeHttpConfigSslCtxId => ⟨3, netCmdAckOk⟩
  | .activeSetUrlCmd | .activeConfirmSetUrlCmd => ⟨3, ascii "CONNECT"⟩
  | .activeSetUrlData | .activeConfirmSetUrlData => ⟨3, netCmdAckOk⟩
  | .activeSetConnectUrl | .activeConfirmConnectUrl =>
    ⟨3, if m.quectel then netCmdAckOk else ascii "+LHTTPGET: "⟩
  | .activeGetHttpRsp | .activeConfirmGetHttpRsp => ⟨3, netCmdAckOk⟩
  | .success | .error => ⟨0, []⟩

/-- `device_active_steps` of the NT26 family. -/
def nt26ActiveSteps : List (AtStep ActiveCmdId) :=
  [⟨.activeHttpConfigCache, 1, 11⟩, ⟨.routeHttpConfigSslCtxId, 2, 11⟩, ⟨.activeSetUrlCmd, 3, 11⟩,
    ⟨.activeSetUrlData, 4, 11⟩, ⟨.activeSetConnectUrl, 5, 11⟩, ⟨.activeGetHttpRsp, 6, 11⟩,
    ⟨.activeConfirmSetUrlCmd, 7, 11⟩, ⟨.activeConfirmSetUrlData, 8, 11⟩,
    ⟨.activeConfirmConnectUrl, 9, 11⟩, ⟨.activeConfirmGetHttpRsp, 10, 11⟩,
    ⟨.success, 10, 10⟩, ⟨.error, 11, 11⟩]

/-- `device_active_steps` of the other family. -/
def quectelActiveSteps : List (AtStep ActiveCmdId) :=
  [⟨.activeSetUrlCmd, 1, 0⟩, ⟨.activeSetUrlData, 2, 9⟩, ⟨.activeSetConnectUrl, 3, 9⟩,
    ⟨.activeGetHttpRsp, 4, 9⟩, ⟨.activeConfirmSetUrlCmd, 5, 9⟩,
    ⟨.activeConfirmSetUrlData, 6, 9⟩, ⟨.activeConfirmConnectUrl, 7, 9⟩,
    ⟨.activeConfirmGetHttpRsp, 8, 9⟩, ⟨.success, 8, 8⟩, ⟨.error, 9, 9⟩]

def deviceActiveSteps (m : ModuleType) : List (AtStep ActiveCmdId) :=
  if m.quectel then quectelActiveSteps else nt26ActiveSteps

/-- A callback on the device that may have no result. Without one, nothing is taken any more. -/
def deviceCallback (f : List UInt8 → Device → Option (Bool × Device)) :
    AtCallback (Option Device) := fun srcData s =>
  match s.bind (f srcData) with
  | none => (false, none)
  | some x => (x.1, some x.2)

section
variable (e : ActiveEnv) (m : ModuleType) (released : List UInt8 → List UInt8)

/-- A step of the table. The function never looks behind its end. -/
def activeStep (n : Nat) : AtStep ActiveCmdId := (deviceActiveSteps m).getD n ⟨.error, n, n⟩

/-- The step of the confirm request. -/
def confirmStep : Nat := if m.quectel then 4 else 6

/-- The callback of each command, if it has one. -/
def activeCallback : ActiveCmdId → Option (List UInt8 → Device → Option (Bool × Device))
  | .activeGetHttpRsp => some (net4gActivePostRspCb e m released)
  | .activeConfirmGetHttpRsp => some (net4gActiveConfirmRspCb e m)
  | _ => none

/-- The command of a step, its verdict, and the device behind it. -/
def activeSend (id : ActiveCmdId) (d : Device) (rsp : AtRsp) : Bool × Option Device :=
  atCmdSendCheck (activeCmds m id) ((activeCallback e m released id).map deviceCallback) rsp (some d)

/-- The step that a call makes. -/
def activeBegin (n : Nat) (d : Device) : Nat :=
  if d.loginInfo.activeFlag = 0xBB ∧ n = 0 then confirmStep m else n

/-- `device_active_process` at the step `n`: its result, the next step, and the device. -/
def deviceActiveProcess (n : Nat) (d : Device) (rsp : AtRsp) : ProcessRet × Nat × Option Device :=
  let n := activeBegin m n d
  if (deviceActiveSteps m).length ≤ n then (.error, n, some d)
  else
    let step := activeStep m n
    let x := activeSend e m released step.id d rsp
    let n := if x.1 then step.sJump else step.fJump
    match (activeStep m n).id with
    | .success => (.done, 0, x.2)
    | .error => (.error, 0, x.2)
    | _ => (.wait, n, x.2)

end

/-- One call, with the step and the device that it finds, what the module answers, and what released
memory reads as. -/
structure ActiveCall where
  before : Nat
  device : Device
  rsp : AtRsp
  released : List UInt8 → List UInt8

section
variable (e : ActiveEnv) (m : ModuleType)

namespace ActiveCall

variable (c : ActiveCall)

def step : Nat := activeBegin m c.before c.device

def id : ActiveCmdId := (activeStep m (c.step m)).id

def ok : Bool := (activeSend e m c.released (c.id m) c.device c.rsp).1

def after : Nat := (deviceActiveProcess e m c.released c.before c.device c.rsp).2.1

def callback : Option (List UInt8 → Device → Option (Bool × Device)) :=
  activeCallback e m c.released (c.id m)

/-- The answers that the callback gets, each with the device that it finds. -/
def answers : List (List UInt8 × Option Device) :=
  match c.callback e m with
  | none => []
  | some f => atCmdSendTrace (activeCmds m (c.id m)).ack (deviceCallback f) c.rsp
      (activeCmds m (c.id m)).retryTimes 0 (some c.device)

/-- The credentials of a signed response have been stored. -/
def Stores : Prop :=
  c.id m = .activeGetHttpRsp ∧ ∃ x ∈ c.answers e m, ∃ d rsp deviceKey deviceSecret deviceNo d',
    x.2 = some d ∧ httpMessage m e.decodeActive x.1 = some rsp ∧
      rsp.Verified e deviceKey deviceSecret deviceNo ∧
      net4gActivePostRspCb e m c.released x.1 d = some (true, d') ∧
      d'.Stored deviceKey.chars deviceSecret.chars deviceNo.chars

/-- A signed response has come. -/
def Signed : Prop :=
  c.id m = .activeGetHttpRsp ∧ ∃ x ∈ c.answers e m, x.2.isSome ∧
    ∃ rsp deviceKey deviceSecret deviceNo, httpMessage m e.decodeActive x.1 = some rsp ∧
      rsp.Verified e deviceKey deviceSecret deviceNo

/-- A device that is not active yet is told that it is. -/
def Confirms : Prop :=
  c.id m = .activeConfirmGetHttpRsp ∧ ∃ x ∈ c.answers e m, ∃ d, x.2 = some d ∧
    d.loginInfo.activeFlag ≠ 0xAA ∧ HttpFits m x.1 ∧ httpMessage m e.decodeConfirm x.1 = some true

/-- The call finds the flag that says that credentials are stored. -/
def Resumes : Prop := c.before = 0 ∧ c.device.loginInfo.activeFlag = 0xBB

end ActiveCall

def ActiveStep (n : Nat) (c : ActiveCall) (n' : Nat) : Prop := c.before = n ∧ c.after e m = n'

/-- What a sequence of calls does about the credentials and the flag. -/
structure Activation (cs : List ActiveCall) : Prop where
  post : ∀ c ∈ cs, c.id m = .activeGetHttpRsp → ∀ x ∈ c.answers e m, ∀ d, x.2 = some d →
    ∃ ok d', net4gActivePostRspCb e m c.released x.1 d = some (ok, d') ∧
      PostLaw e d (httpMessage m e.decodeActive x.1) ok d'
  active : ∀ cs₁ c cs₂, cs = cs₁ ++ c :: cs₂ → ∀ f ∈ c.callback e m, ∀ x ∈ c.answers e m,
    ∀ d ok d', x.2 = some d → f x.1 d = some (ok, d') → d.loginInfo.activeFlag ≠ 0xAA →
      d'.loginInfo.activeFlag = 0xAA → ∃ c' ∈ cs₁, c'.Stores e m

/-- Every activation response of the calls fits and is handled as it should be. -/
def PostsOk (cs : List ActiveCall) : Prop :=
  ∀ c ∈ cs, c.id m = .activeGetHttpRsp → ∀ x ∈ c.answers e m, ∀ d, x.2 = some d →
    HttpFits m x.1 ∧ ∀ rsp ∈ httpMessage m e.decodeActive x.1, PostOk e c.released d rsp

/-- Behind a call that found the flag, a device is confirmed only if a signed response has come. -/
def ResumesOk (cs : List ActiveCall) : Prop :=
  ∀ cs₁ c cs₂, cs = cs₁ ++ c :: cs₂ → (∃ c' ∈ cs₁, c'.Resumes) → c.Confirms e m →
    ∃ c' ∈ cs₁, c'.Signed e m

end

section
variable {e : ActiveEnv} {m : ModuleType} {c : ActiveCall}

/-! ## One call -/

theorem confirmStep_le_step (h : confirmStep m ≤ c.step m) :
    confirmStep m ≤ c.before ∨ c.Resumes := by
  unfold ActiveCall.step activeBegin at h
  split at h
  · rename_i hr
    exact .inr ⟨hr.2, hr.1⟩
  · exact .inl h

/-- A call goes back to step 0, stays behind the table, or jumps. -/
theorem after_cases : c.after e m = 0 ∨ c.after e m = c.step m ∨
    c.step m < (deviceActiveSteps m).length ∧ (activeStep m (c.after e m)).id ≠ .error ∧
      (c.ok e m = true ∧ c.after e m = (activeStep m (c.step m)).sJump ∨
        c.after e m = (activeStep m (c.step m)).fJump) := by
  unfold ActiveCall.after deviceActiveProcess
  dsimp only
  split
  · exact .inr (.inl rfl)
  · rename_i hlt
    split
    · exact .inl rfl
    · exact .inl rfl
    · rename_i herr
      refine .inr (.inr ⟨Nat.not_le.1 hlt, herr, ?_⟩)
      split
      · rename_i hok
        exact .inl ⟨hok, rfl⟩
      · exact .inr rfl

/-! ## The tables -/

theorem confirmStep_le_sJump (m : ModuleType) : ∀ n < (deviceActiveSteps m).length,
    confirmStep m ≤ (activeStep m n).sJump → confirmStep m ≤ n ∨
      (activeStep m n).id = .activeGetHttpRsp := by
  cases m <;> decide

theorem confirmStep_le_fJump (m : ModuleType) : ∀ n < (deviceActiveSteps m).length,
    confirmStep m ≤ (activeStep m n).fJump → confirmStep m ≤ n ∨
      (activeStep m (activeStep m n).fJump).id = .error := by
  cases m <;> decide

theorem confirmStep_lt_confirm (m : ModuleType) : ∀ n < (deviceActiveSteps m).length,
    (activeStep m n).id = .activeConfirmGetHttpRsp → confirmStep m < n := by
  cases m <;> decide

/-- The steps of the confirm request are reached from themselves or through an accepted response. -/
theorem confirmStep_le_after (h : confirmStep m ≤ c.after e m) :
    confirmStep m ≤ c.step m ∨ c.id m = .activeGetHttpRsp ∧ c.ok e m = true := by
  have hpos : 0 < confirmStep m := by cases m <;> decide
  obtain h0 | heq | ⟨hlt, herr, ⟨hok, heq⟩ | heq⟩ := after_cases (e := e) (m := m) (c := c)
  · rw [h0] at h
    exact absurd h (Nat.not_le.2 hpos)
  · exact .inl (heq ▸ h)
  · rw [heq] at h
    exact (confirmStep_le_sJump m _ hlt h).imp_right fun hid => ⟨hid, hok⟩
  · rw [heq] at h herr
    exact .inl ((confirmStep_le_fJump m _ hlt h).resolve_right herr)

/-- The answer to the confirm request is read behind the confirm request. -/
theorem confirmStep_le_before (hid : c.id m = .activeConfirmGetHttpRsp) :
    confirmStep m ≤ c.before := by
  have hlt : confirmStep m < c.step m := by
    refine confirmStep_lt_confirm m _ ?_ hid
    by_contra hge
    unfold ActiveCall.id activeStep at hid
    rw [List.getD_eq_default _ _ (Nat.not_lt.1 hge)] at hid
    cases hid
  unfold ActiveCall.step activeBegin at hlt
  split at hlt
  · exact absurd hlt (Nat.lt_irrefl _)
  · exact hlt.le

/-! ## The callbacks -/

theorem deviceCallback_eq_true {f : List UInt8 → Device → Option (Bool × Device)}
    {x : List UInt8 × Option Device} (h : (deviceCallback f x.1 x.2).1 = true) :
    ∃ d d', x.2 = some d ∧ f x.1 d = some (true, d') := by
  unfold deviceCallback at h
  split at h
  · cases h
  · rename_i y hy
    obtain ⟨d, hd, hf⟩ := Option.bind_eq_some_iff.1 hy
    obtain ⟨ok, d'⟩ := y
    obtain rfl : ok = true := h
    exact ⟨d, d', hd, hf⟩

/-- The first callback does not end the activation. -/
theorem activePostRspCb_activeFlag {released : List UInt8 → List UInt8} {srcData : List UInt8}
    {d d' : Device} {ok : Bool} (h : net4gActivePostRspCb e m released srcData d = some (ok, d')) :
    d'.loginInfo.activeFlag = d.loginInfo.activeFlag ∨ d'.loginInfo.activeFlag = 0xBB := by
  unfold net4gActivePostRspCb at h
  split at h
  · cases h
  · cases h
    exact .inl rfl
  · obtain ⟨k, s, n, g, hk, hs, hn, hg, hf⟩ := fits_of_activeApply h
    rw [activeApply_of_fits hk hs hn hg hf] at h
    dsimp only at h
    split at h
    · cases h
      exact .inr rfl
    · cases h
      exact .inl rfl

/-- A call whose response was accepted has stored a signed response, if all responses are handled as
they should be. -/
theorem stores_of_ok (hid : c.id m = .activeGetHttpRsp) (hok : c.ok e m = true)
    (hposts : ∀ x ∈ c.answers e m, ∀ d, x.2 = some d → HttpFits m x.1 ∧
      ∀ rsp ∈ httpMessage m e.decodeActive x.1, PostOk e c.released d rsp) : c.Stores e m := by
  have hcb : c.callback e m = some (net4gActivePostRspCb e m c.released) := by
    unfold ActiveCall.callback
    rw [hid]
    rfl
  have hsend : (atCmdSendCheck (activeCmds m (c.id m))
      (some (deviceCallback (net4gActivePostRspCb e m c.released))) c.rsp (some c.device)).1 =
        true := by
    unfold ActiveCall.ok activeSend at hok
    unfold ActiveCall.callback at hcb
    rwa [hcb] at hok
  obtain ⟨x, hx, htaken⟩ := exists_mem_atCmdSendTrace _ hsend
  have hmem : x ∈ c.answers e m := by
    unfold ActiveCall.answers
    rw [hcb]
    exact hx
  obtain ⟨d, d', hd, hf⟩ := deviceCallback_eq_true htaken
  obtain ⟨ok, d'', hf', hlaw⟩ := activePostRspCb_iff.2 (hposts x hmem d hd)
  cases hf.symm.trans hf'
  refine ⟨hid, x, hmem, ?_⟩
  by_contra hno
  -- a response that is not signed is not accepted
  have hkept := hlaw.kept fun rsp hrsp k s n hv =>
    hno ⟨d, rsp, k, s, n, d', hd, hrsp, hv, hf, (hlaw.stored rsp k s n hrsp hv).2⟩
  cases hkept.1

theorem signed_of_stores (h : c.Stores e m) : c.Signed e m := by
  obtain ⟨hid, x, hx, d, rsp, k, s, n, d', hd, hmsg, hv, -⟩ := h
  exact ⟨hid, x, hx, hd ▸ rfl, rsp, k, s, n, hmsg, hv⟩

/-- A signed response is stored if it is handled as it should be. -/
theorem stores_of_signed (h : c.Signed e m) (hposts : ∀ x ∈ c.answers e m, ∀ d, x.2 = some d →
    HttpFits m x.1 ∧ ∀ rsp ∈ httpMessage m e.decodeActive x.1, PostOk e c.released d rsp) :
    c.Stores e m := by
  obtain ⟨hid, x, hx, hdev, rsp, k, s, n, hmsg, hv⟩ := h
  obtain ⟨d, hd⟩ := Option.isSome_iff_exists.1 hdev
  obtain ⟨ok, d', hf, hlaw⟩ := activePostRspCb_iff.2 (hposts x hx d hd)
  obtain ⟨rfl, hst⟩ := hlaw.stored rsp k s n hmsg hv
  exact ⟨hid, x, hx, d, rsp, k, s, n, d', hd, hmsg, hv, hf, hst⟩

/-- The answer to the confirm request sets the flag. -/
theorem activeConfirmRspCb_of_true {srcData : List UInt8} {d : Device} (hfits : HttpFits m srcData)
    (hmsg : httpMessage m e.decodeConfirm srcData = some true) :
    ∃ d', net4gActiveConfirmRspCb e m srcData d = some (true, d') ∧
      d'.loginInfo.activeFlag = 0xAA := by
  unfold net4gActiveConfirmRspCb
  rw [httpDecode_of_fits hfits, hmsg]
  exact ⟨_, rfl, rfl⟩

/-! ## Runs -/

section
variable {cs : List ActiveCall} {n : Nat}

/-- The steps of the confirm request are reached when credentials are stored. -/
theorem run_confirmStep (h : Run (ActiveStep e m) 0 cs n) (hposts : PostsOk e m cs)
    (hn : confirmStep m ≤ n) : ∃ c ∈ cs, c.Stores e m ∨ c.Resumes := by
  have hinv : PostsOk e m cs → confirmStep m ≤ n → ∃ c ∈ cs, c.Stores e m ∨ c.Resumes := by
    refine h.inv_trace (I := fun cs n => PostsOk e m cs → confirmStep m ≤ n →
      ∃ c ∈ cs, c.Stores e m ∨ c.Resumes) ?_ ?_
    · rintro cs _ c _ ih ⟨rfl, rfl⟩ hposts hn
      have hmem : c ∈ cs ++ [c] := List.mem_append_right _ (List.mem_singleton_self c)
      obtain hle | ⟨hid, hok⟩ := confirmStep_le_after hn
      · obtain hbefore | hres := confirmStep_le_step hle
        · obtain ⟨c', hc', hst⟩ := ih (fun c' hc' => hposts c' (List.mem_append_left _ hc')) hbefore
          exact ⟨c', List.mem_append_left _ hc', hst⟩
        · exact ⟨c, hmem, .inr hres⟩
      · exact ⟨c, hmem, .inl (stores_of_ok hid hok (hposts c hmem hid))⟩
    · intro _ hle
      have hpos : 0 < confirmStep m := by cases m <;> decide
      exact absurd hle (Nat.not_le.2 hpos)
  exact hinv hposts hn

/-- The flag is set by the answer to the confirm request alone. -/
theorem id_of_activeFlag {f : List UInt8 → Device → Option (Bool × Device)}
    (hf : f ∈ c.callback e m) {srcData : List UInt8} {d d' : Device} {ok : Bool}
    (h : f srcData d = some (ok, d')) (hne : d.loginInfo.activeFlag ≠ 0xAA)
    (hset : d'.loginInfo.activeFlag = 0xAA) : c.id m = .activeConfirmGetHttpRsp := by
  unfold ActiveCall.callback activeCallback at hf
  split at hf
  · obtain rfl := Option.some.inj hf
    obtain heq | heq := activePostRspCb_activeFlag h
    · exact absurd (heq.symm.trans hset) hne
    · rw [heq] at hset
      cases hset
  · assumption
  · cases hf

/-- It sets the flag only where it says so. -/
theorem confirmed_of_activeFlag {f : List UInt8 → Device → Option (Bool × Device)}
    (hid : c.id m = .activeConfirmGetHttpRsp) (hf : f ∈ c.callback e m) {srcData : List UInt8}
    {d d' : Device} {ok : Bool} (h : f srcData d = some (ok, d'))
    (hset : d'.loginInfo.activeFlag = 0xAA) (hne : d.loginInfo.activeFlag ≠ 0xAA) :
    HttpFits m srcData ∧ httpMessage m e.decodeConfirm srcData = some true := by
  unfold ActiveCall.callback at hf
  rw [hid] at hf
  obtain rfl := Option.some.inj hf
  unfold net4gActiveConfirmRspCb at h
  by_cases hfits : HttpFits m srcData
  · refine ⟨hfits, ?_⟩
    rw [httpDecode_of_fits hfits] at h
    cases hmsg : httpMessage m e.decodeConfirm srcData with
    | none =>
      rw [hmsg] at h
      cases h
      exact absurd hset hne
    | some success =>
      rw [hmsg] at h
      cases success with
      | true => rfl
      | false =>
        cases h
        cases hset
  · rw [httpDecode_of_not_fits hfits] at h
    cases h

end

/-- In every run the credentials are stored all or nothing, and the device counts as active only
behind that, exactly when every response is handled as it should be and a device that begins with
the confirm request is not confirmed before. -/
theorem activation_iff_postsOk {cs : List ActiveCall} {n : Nat}
    (h : Run (ActiveStep e m) 0 cs n) :
    Activation e m cs ↔ PostsOk e m cs ∧ ResumesOk e m cs := by
  constructor
  · intro hact
    refine ⟨fun c hc hid x hx d hd => activePostRspCb_iff.1 (hact.post c hc hid x hx d hd), ?_⟩
    rintro cs₁ c cs₂ hcs - ⟨hid, x, hx, d, hd, hne, hfits, hmsg⟩
    have hcb : net4gActiveConfirmRspCb e m ∈ c.callback e m := by
      unfold ActiveCall.callback
      rw [hid]
      exact rfl
    obtain ⟨d', hf, hset⟩ := activeConfirmRspCb_of_true (d := d) hfits hmsg
    obtain ⟨c', hc', hst⟩ := hact.active cs₁ c cs₂ hcs _ hcb x hx d true d' hd hf hne hset
    exact ⟨c', hc', signed_of_stores hst⟩
  · rintro ⟨hposts, hresumes⟩
    constructor
    · intro c hc hid x hx d hd
      exact activePostRspCb_iff.2 (hposts c hc hid x hx d hd)
    · rintro cs₁ c cs₂ rfl f hf x hx d ok d' hd hr hne hset
      obtain ⟨n', hrun, hrest⟩ := Trace.run_append_iff.1 h
      obtain _ | ⟨⟨rfl, -⟩, -⟩ := hrest
      have hposts₁ : PostsOk e m cs₁ := fun c' hc' => hposts c' (List.mem_append_left _ hc')
      have hid := id_of_activeFlag hf hr hne hset
      obtain ⟨c', hc', hst | hres⟩ := run_confirmStep hrun hposts₁ (confirmStep_le_before hid)
      · exact ⟨c', hc', hst⟩
      · obtain ⟨c'', hc'', hsigned⟩ := hresumes cs₁ c cs₂ rfl ⟨c', hc', hres⟩
          ⟨hid, x, hx, d, hd, hne, confirmed_of_activeFlag hid hf hr hset hne⟩
        exact ⟨c'', hc'', stores_of_signed hsigned (hposts₁ c'' hc'' hsigned.1)⟩

end

/-! ## Two devices -/

/-- A response that is signed for the shared secret `o`. -/
def signedRsp : ActiveRsp where
  deviceKey := some ⟨ascii "k", by decide⟩
  deviceSecret := some ⟨ascii "s", by decide⟩
  t := 5
  sign := some ⟨ascii "5f256e8c88b29a0b", by decide⟩
  deviceNo := some ⟨ascii "n", by decide⟩

/-- The same response on the wire. -/
def signedMsg : List UInt8 :=
  [8, 1, 34, 29, 10, 1] ++ ascii "k" ++ [18, 1] ++ ascii "s" ++ [24, 5, 34, 16] ++
    ascii "5f256e8c88b29a0b" ++ [42, 1] ++ ascii "n"

def signedAnswer : List UInt8 := ascii "CONNECT\r\n" ++ signedMsg ++ ascii "\r\nOK\r\n"

def confirmAnswer : List UInt8 := ascii "CONNECT\r\n" ++ [8, 1] ++ ascii "\r\nOK\r\n"

def signedEnv (md5 : List UInt8 → List UInt8) : ActiveEnv where
  md5 := md5
  originSecret := ⟨ascii "o", by decide⟩
  decodeActive s := if s = signedMsg then some signedRsp else none
  decodeConfirm s := if s = [8, 1] then some true else none

/-- A device with nothing but the given key stored. -/
def keyDevice (deviceKey : List UInt8) : Device :=
  { Device.reset 0 with
    loginInfo := { SysLoginInfo.reset with deviceKey := CStr.copyInto 8 deviceKey } }

/-- The calls up to the response. -/
def signedCalls (deviceKey : List UInt8) : List ActiveCall :=
  [⟨0, keyDevice deviceKey, fun _ => ascii "CONNECT\r\n", id⟩,
    ⟨1, keyDevice deviceKey, fun _ => ascii "OK\r\n", id⟩,
    ⟨2, keyDevice deviceKey, fun _ => ascii "OK\r\n", id⟩,
    ⟨3, keyDevice deviceKey, fun _ => signedAnswer, id⟩]

/-- The device that has stored the response. -/
def signedDevice : Device :=
  let l := (keyDevice []).loginInfo.active (ascii "k") (ascii "s") (ascii "n")
  (({ keyDevice [] with loginInfo := l }.setActiveFlag 0xBB).writeLoginInfo).writeLoginInfoBack

/-- The calls of the confirm request. -/
def confirmCalls : List ActiveCall :=
  [⟨4, signedDevice, fun _ => ascii "CONNECT\r\n", id⟩,
    ⟨5, signedDevice, fun _ => ascii "OK\r\n", id⟩,
    ⟨6, signedDevice, fun _ => ascii "OK\r\n", id⟩,
    ⟨7, signedDevice, fun _ => confirmAnswer, id⟩]

/-- A device without credentials stores those of the response, and is confirmed. -/
theorem activation_signed :
    let e := signedEnv fun _ => ascii "8af2d1ba5f256e8c88b29a0b0e87e972"
    Activation e .ec800 (signedCalls [] ++ confirmCalls) ∧
      ∃ c ∈ confirmCalls, c.Confirms e .ec800 := by
  intro e
  refine ⟨(activation_iff_postsOk (n := 0) ?_).2 ⟨?_, ?_⟩, ?_⟩
  · exact .cons ⟨rfl, rfl⟩ (.cons ⟨rfl, rfl⟩ (.cons ⟨rfl, rfl⟩ (.cons ⟨rfl, rfl⟩
      (.cons ⟨rfl, rfl⟩ (.cons ⟨rfl, rfl⟩ (.cons ⟨rfl, rfl⟩ (.cons ⟨rfl, rfl⟩ .nil)))))))
  · intro c hc hid x hx d hd
    simp only [signedCalls, confirmCalls, List.cons_append, List.nil_append, List.mem_cons,
      List.not_mem_nil, or_false] at hc
    obtain rfl | rfl | rfl | rfl | rfl | rfl | rfl | rfl := hc
    case inr.inr.inr.inl =>
      obtain rfl := List.mem_singleton.1 hx
      obtain rfl := Option.some.inj hd
      refine ⟨?_, ?_⟩
      · intro v hv
        obtain rfl : signedMsg = v := Option.some.inj hv
        decide
      · intro rsp hrsp
        obtain rfl : signedRsp = rsp := Option.some.inj hrsp
        exact .signed ⟨rfl, rfl, rfl, _, rfl, by decide⟩ rfl (by decide) (by decide) (by decide)
          (by decide)
    all_goals cases hid
  · rintro cs₁ c cs₂ hcs ⟨c', hc', hbefore, hflag⟩ -
    have hmem : c' ∈ signedCalls [] ++ confirmCalls := hcs ▸ List.mem_append_left _ hc'
    simp only [signedCalls, confirmCalls, List.cons_append, List.nil_append, List.mem_cons,
      List.not_mem_nil, or_false] at hmem
    obtain rfl | rfl | rfl | rfl | rfl | rfl | rfl | rfl := hmem
    · cases hflag
    all_goals cases hbefore
  · refine ⟨_, List.mem_of_getElem? (i := 3) rfl, rfl, (confirmAnswer, some signedDevice),
      List.mem_cons_self, signedDevice, rfl, by decide, ?_, rfl⟩
    intro v hv
    obtain rfl : [8, 1] = v := Option.some.inj hv
    decide

/-- A longer key leaves its end behind the new one, whatever the sums are. -/
theorem not_activation_longer : ¬ ∃ md5 : List UInt8 → List UInt8, ∀ (originSecret : CStr.Text)
    (decodeActive : List UInt8 → Option ActiveRsp) (decodeConfirm : List UInt8 → Option Bool)
    (m : ModuleType) (cs : List ActiveCall) (n : Nat),
    Run (ActiveStep ⟨md5, originSecret, decodeActive, decodeConfirm⟩ m) 0 cs n →
      Activation ⟨md5, originSecret, decodeActive, decodeConfirm⟩ m cs := by
  rintro ⟨md5, h⟩
  have hact : Activation (signedEnv md5) .ec800 (signedCalls (ascii "ab")) :=
    h _ _ _ .ec800 (signedCalls (ascii "ab")) _
      (.cons ⟨rfl, rfl⟩ (.cons ⟨rfl, rfl⟩ (.cons ⟨rfl, rfl⟩ (.cons ⟨rfl, rfl⟩ .nil))))
  have hpost := activePostRspCb_iff.1 (hact.post _ (List.mem_of_getElem? (i := 3) rfl) rfl
    (signedAnswer, some (keyDevice (ascii "ab"))) List.mem_cons_self _ rfl)
  obtain ⟨hv, -, hnul, -⟩ | ⟨-, hkey, -, -, -, -, hpre, -⟩ := hpost.2 signedRsp rfl
  · obtain rfl := Option.some.inj hv.key
    revert hnul
    decide
  · obtain rfl := Option.some.inj hkey
    revert hpre
    decide

end AppXd.Net4g
