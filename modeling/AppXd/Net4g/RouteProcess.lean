import AppXd.Lib.StepTable
import AppXd.Net4g.ActiveProcess
import AppXd.Net4g.Route

/-!
# The request for the broker

`device_route_process` announces the length of a URL, sends the URL, lets the module fetch it, and
reads the response. The URL is made when its length is announced, and kept in a `static` array until
it is sent. Its text is made by a function that is not part of the repository.
-/

namespace AppXd.Net4g

open CStr (ascii textAt store clear)
open StepTable (Outcome Passed Straight)
open Trace (Run)

/-! ## The end of a call -/

section
variable {ι : Type} [DecidableEq ι] (steps : List (AtStep ι)) (success error : ι)

/-- A row of a table. The functions never look behind its end. -/
def stepRow (n : Nat) : AtStep ι := steps.getD n ⟨error, n, n⟩

/-- How the processes for the route and the login end a call: the jump by the verdict, and what the
row that it leads to means. -/
def stepJump (n : Nat) (ok : Bool) : ProcessRet × Nat :=
  let n := if ok then (stepRow steps error n).sJump else (stepRow steps error n).fJump
  if (stepRow steps error n).id = success then (.done, 0)
  else if (stepRow steps error n).id = error then (.error, 0)
  else (.wait, n)

end

/-- What a result and the next step say about the procedure. -/
def stepOutcome : ProcessRet × Nat → Outcome
  | (.done, _) => .done
  | (.error, _) => .failed
  | (.wait, n) => .next n

/-- The table is a procedure of `size` steps. -/
def StraightTable {ι : Type} [DecidableEq ι] (steps : List (AtStep ι)) (success error : ι)
    (size : Nat) (strict : Nat → Bool) : Prop :=
  0 < size ∧ size < steps.length ∧ ∀ n < size, ∀ ok,
    stepOutcome (stepJump steps success error n ok) = StepTable.straight size strict n ok

instance {ι : Type} [DecidableEq ι] (steps : List (AtStep ι)) (success error : ι) (size : Nat)
    (strict : Nat → Bool) : Decidable (StraightTable steps success error size strict) :=
  inferInstanceAs (Decidable (_ ∧ _ ∧ ∀ n < size, _))

theorem stepOutcome_after {ι : Type} [DecidableEq ι] (steps : List (AtStep ι)) (success error : ι)
    (n : Nat) (ok : Bool) : (stepOutcome (stepJump steps success error n ok)).after =
      (stepJump steps success error n ok).2 := by
  unfold stepJump
  dsimp only
  split_ifs <;> rfl

theorem stepJump_zero {ι : Type} [DecidableEq ι] {steps : List (AtStep ι)} {success error : ι}
    {n : Nat} {ok : Bool} (h : (stepJump steps success error n ok).1 ≠ .wait) :
    (stepJump steps success error n ok).2 = 0 := by
  unfold stepJump at h ⊢
  dsimp only at h ⊢
  split_ifs at h ⊢ <;> first | rfl | exact absurd rfl h

/-! ## The commands -/

inductive RouteCmdId
  | routeHttpConfigCache | routeSetUrlCmd | routeSetUrlData | routeConnectUrl | routeGetHttpRsp
  | success | error
  deriving DecidableEq, Repr

/-- The rows of `module_4g_cmds` for these commands. -/
def routeCmds (m : ModuleType) : RouteCmdId → AtCmd
  | .routeHttpConfigCache => ⟨3, netCmdAckOk⟩
  | .routeSetUrlCmd => ⟨3, ascii "CONNECT"⟩
  | .routeSetUrlData => ⟨3, netCmdAckOk⟩
  | .routeConnectUrl => ⟨3, if m.quectel then netCmdAckOk else ascii "+LHTTPGET: "⟩
  | .routeGetHttpRsp => ⟨if m.quectel then 5 else 3, netCmdAckOk⟩
  | .success | .error => ⟨0, []⟩

/-- `device_route_steps` of the NT26 family. -/
def nt26RouteSteps : List (AtStep RouteCmdId) :=
  [⟨.routeHttpConfigCache, 1, 6⟩, ⟨.routeSetUrlCmd, 2, 6⟩, ⟨.routeSetUrlData, 3, 6⟩,
    ⟨.routeConnectUrl, 4, 6⟩, ⟨.routeGetHttpRsp, 5, 6⟩, ⟨.success, 5, 5⟩, ⟨.error, 6, 6⟩]

/-- `device_route_steps` of the other family. -/
def quectelRouteSteps : List (AtStep RouteCmdId) :=
  [⟨.routeSetUrlCmd, 1, 5⟩, ⟨.routeSetUrlData, 2, 5⟩, ⟨.routeConnectUrl, 3, 5⟩,
    ⟨.routeGetHttpRsp, 4, 5⟩, ⟨.success, 4, 4⟩, ⟨.error, 5, 5⟩]

def deviceRouteSteps (m : ModuleType) : List (AtStep RouteCmdId) :=
  if m.quectel then quectelRouteSteps else nt26RouteSteps

/-- What the route uses of other modules: the decoder of the response, the kind of the board, and
`device_route_url_pack`, which leaves a text in an array of 150 bytes. -/
structure RouteEnv where
  decodeRoute : List UInt8 → Option RouteRsp
  noPowerOff : Bool
  urlPack : Device → CStr.Text
  urlPack_lt : ∀ d, (urlPack d).chars.length < 150

/-- The text of a command. `payload` is what `payload_data` holds. -/
def routeText (m : ModuleType) (payload : List UInt8) : RouteCmdId → List UInt8
  | .routeHttpConfigCache => ascii "AT+LHTTPCFG=cachetype,0\r\n"
  | .routeSetUrlCmd =>
    (if m.quectel then ascii "AT+QHTTPURL=" else ascii "AT+LHTTPURL=") ++
      ascii (toString payload.length) ++ ascii ",30\r\n"
  | .routeSetUrlData => payload
  | .routeConnectUrl => if m.quectel then ascii "AT+QHTTPGET=60\r\n" else ascii "AT+LHTTPGET=60\r\n"
  | .routeGetHttpRsp => if m.quectel then ascii "AT+QHTTPREAD=60\r\n" else ascii "AT+LHTTPREAD=60\r\n"
  | .success | .error => []

section
variable (P : RouteEnv) (m : ModuleType)

def routeStep (n : Nat) : AtStep RouteCmdId := stepRow (deviceRouteSteps m) .error n

/-- The callback of the response. The other commands have none. -/
def routeCallback : RouteCmdId → Option (AtCallback (Option Device))
  | .routeGetHttpRsp =>
    some (deviceCallback fun srcData d => deviceRouteRspCb P.noPowerOff d m P.decodeRoute srcData)
  | _ => none

/-- The command of a step, its verdict, and the device behind it. -/
def routeSend (id : RouteCmdId) (d : Device) (rsp : AtRsp) : Bool × Option Device :=
  atCmdSendCheck (routeCmds m id) (routeCallback P m id) rsp (some d)

/-- `payload_data`, when the command is sent. -/
def routePayload (id : RouteCmdId) (payload : List UInt8) (d : Device) : List UInt8 :=
  if id = .routeSetUrlCmd then (P.urlPack d).chars else payload

/-- `net4G_process_steps.connectRoute` and `payload_data`. -/
structure RouteState where
  step : Nat
  payload : List UInt8

/-- `device_route_process`: its result, what it keeps, and the device. -/
def deviceRouteProcess (s : RouteState) (d : Device) (rsp : AtRsp) :
    ProcessRet × RouteState × Option Device :=
  if (deviceRouteSteps m).length ≤ s.step then (.error, s, some d)
  else
    let id := (routeStep m s.step).id
    let payload := routePayload P id s.payload d
    let x := routeSend P m id d rsp
    let r := stepJump (deviceRouteSteps m) .success .error s.step x.1
    (r.1, ⟨r.2, payload⟩, x.2)

end

/-- One call, with what it finds and what the module answers. -/
structure RouteCall where
  before : RouteState
  device : Device
  rsp : AtRsp

section
variable (P : RouteEnv) (m : ModuleType)

namespace RouteCall

variable (c : RouteCall)

def step : Nat := c.before.step

def id : RouteCmdId := (routeStep m c.step).id

def ok : Bool := (routeSend P m (c.id m) c.device c.rsp).1

def ret : ProcessRet := (deviceRouteProcess P m c.before c.device c.rsp).1

def after : RouteState := (deviceRouteProcess P m c.before c.device c.rsp).2.1

def deviceAfter : Option Device := (deviceRouteProcess P m c.before c.device c.rsp).2.2

/-- The text that is sent. -/
def text : List UInt8 := routeText m (routePayload P (c.id m) c.before.payload c.device) (c.id m)

def outcome : Outcome := stepOutcome (c.ret P m, (c.after P m).step)

/-- The call has read a response that the callback has accepted: it names a broker, and the settings
are those of the broker. -/
def Accepts (q : MqttPara) : Prop :=
  ∃ i rsp broker, i < (routeCmds m .routeGetHttpRsp).retryTimes ∧
    httpMessage m P.decodeRoute (c.rsp i) = some rsp ∧ rsp.broker = some broker ∧
      let x := getAtcmdRspBeforeAfterValue broker.chars (ascii ":")
      x.1.length < 32 ∧ textAt q.addr 0 = x.1 ∧ q.port = mqttPort x.2 ∧ q.hbInterval = rsp.keepalive

end RouteCall

def RouteStep (s : RouteState) (c : RouteCall) (s' : RouteState) : Prop :=
  c.before = s ∧ c.after P m = s'

/-- The number of steps. -/
def routeSize : Nat := if m.quectel then 4 else 5

/-- A round of the route: every step has succeeded, the URL that was sent is the one that was
announced, and the settings are those of the response. -/
structure RouteRound (cs : List RouteCall) (q : MqttPara) : Prop where
  passed : Passed (fun _ => true) RouteCall.step (RouteCall.ok P m) (routeSize m) cs
  url : ∃ url, (∀ c ∈ cs, c.id m = .routeSetUrlCmd → c.text P m = routeText m url .routeSetUrlCmd) ∧
    ∀ c ∈ cs, c.id m = .routeSetUrlData → c.text P m = url
  accepted : ∃ cs₁ c, cs = cs₁ ++ [c] ∧ c.Accepts P m q

end

/-! ## The command and its callback -/

/-- A command that succeeds through its callback leaves what the callback has made of the answer that
it takes. -/
theorem atCmdSendCheck_takes {σ : Type} {f : AtCallback σ} {cmd : AtCmd} {rsp : AtRsp} {s : σ}
    (h : (atCmdSendCheck cmd (some f) rsp s).1 = true) : ∃ i t, i < cmd.retryTimes ∧
      f (rsp i) t = (true, (atCmdSendCheck cmd (some f) rsp s).2) := by
  suffices H : ∀ n j s, (atCmdSendLoop cmd.ack (some f) rsp n j s).1 = true →
      ∃ i t, i < j + n ∧ f (rsp i) t = (true, (atCmdSendLoop cmd.ack (some f) rsp n j s).2) by
    obtain ⟨i, t, hi, ht⟩ := H cmd.retryTimes 0 s h
    exact ⟨i, t, by rwa [Nat.zero_add] at hi, ht⟩
  intro n
  induction n with
  | zero => exact fun _ _ hno => absurd hno Bool.false_ne_true
  | succ n ih =>
    intro j s hok
    rw [atCmdSendLoop] at hok ⊢
    split at hok
    · rename_i hack
      rw [if_pos hack]
      dsimp only at hok ⊢
      split at hok
      · rename_i htaken
        rw [if_pos htaken]
        exact ⟨j, s, by omega, Prod.ext htaken rfl⟩
      · rename_i htaken
        rw [if_neg htaken]
        obtain ⟨i, t, hi, ht⟩ := ih (j + 1) _ hok
        exact ⟨i, t, by omega, ht⟩
    · rename_i hack
      rw [if_neg hack]
      obtain ⟨i, t, hi, ht⟩ := ih (j + 1) s hok
      exact ⟨i, t, by omega, ht⟩

/-- What the callback of the response has stored, when it accepts it. -/
theorem deviceRouteRspCb_accepts {noPowerOff : Bool} {d d' : Device} {m : ModuleType}
    {decode : List UInt8 → Option RouteRsp} {srcData : List UInt8}
    (h : deviceRouteRspCb noPowerOff d m decode srcData = some (true, d')) :
    ∃ rsp broker, httpMessage m decode srcData = some rsp ∧ rsp.broker = some broker ∧
      let x := getAtcmdRspBeforeAfterValue broker.chars (ascii ":")
      x.1.length < 32 ∧ textAt d'.globalInfo.mqtt.addr 0 = x.1 ∧
        d'.globalInfo.mqtt.port = mqttPort x.2 ∧ d'.globalInfo.mqtt.hbInterval = rsp.keepalive := by
  unfold deviceRouteRspCb at h
  by_cases hfits : HttpFits m srcData
  · rw [httpDecode_of_fits hfits] at h
    cases hmsg : httpMessage m decode srcData with
    | none =>
      rw [hmsg] at h
      cases h
    | some rsp =>
      rw [hmsg] at h
      replace h : routeApply noPowerOff d rsp = some (true, d') := h
      unfold routeApply at h
      cases hbroker : rsp.broker with
      | none =>
        rw [hbroker] at h
        cases h
      | some broker =>
        rw [hbroker] at h
        simp only at h
        split at h
        · rename_i hstores
          split at h
          · cases h
          · cases h
            have hnul : 0 ∉ (getAtcmdRspBeforeAfterValue broker.chars (ascii ":")).1 := by
              unfold getAtcmdRspBeforeAfterValue
              split
              · exact List.not_mem_nil
              · split
                · exact fun h0 => broker.noNul (List.mem_of_mem_take h0)
                · exact List.not_mem_nil
            exact ⟨rsp, broker, rfl, hbroker, hstores.1, CStr.textAt_store_clear _ hnul, rfl, rfl⟩
        · cases h
  · rw [httpDecode_of_not_fits hfits] at h
    cases h

/-! ## One call -/

section
variable {P : RouteEnv} {m : ModuleType} {c : RouteCall} {cs : List RouteCall}
variable {s s' : RouteState} {q : MqttPara}

theorem deviceRouteSteps_straight (m : ModuleType) :
    StraightTable (deviceRouteSteps m) .success .error (routeSize m) fun _ => true := by
  cases m <;> decide

theorem RouteCall.call_eq (hc : c.step < routeSize m) :
    (c.ret P m, (c.after P m).step) =
        stepJump (deviceRouteSteps m) .success .error c.step (c.ok P m) ∧
      (c.after P m).payload = routePayload P (c.id m) c.before.payload c.device ∧
      c.deviceAfter P m = (routeSend P m (c.id m) c.device c.rsp).2 := by
  have hlt : c.before.step < (deviceRouteSteps m).length :=
    Nat.lt_trans hc (deviceRouteSteps_straight m).2.1
  unfold RouteCall.ret RouteCall.after RouteCall.deviceAfter deviceRouteProcess
  rw [if_neg (Nat.not_le.2 hlt)]
  exact ⟨rfl, rfl, rfl⟩

/-- A round that ends begins anew. -/
theorem RouteCall.after_zero (hc : c.step < routeSize m) (hne : c.ret P m ≠ .wait) :
    (c.after P m).step = 0 := by
  obtain ⟨heq, -⟩ := RouteCall.call_eq (P := P) hc
  have hret : c.ret P m =
      (stepJump (deviceRouteSteps m) .success .error c.step (c.ok P m)).1 := congrArg Prod.fst heq
  have hstep : (c.after P m).step =
      (stepJump (deviceRouteSteps m) .success .error c.step (c.ok P m)).2 := congrArg Prod.snd heq
  rw [hstep]
  exact stepJump_zero (hret ▸ hne)

theorem route_straight : Straight (routeSize m) (fun _ => true) RouteCall.step
    (RouteCall.ok P m) (RouteCall.outcome P m) := by
  obtain ⟨hpos, -, htable⟩ := deviceRouteSteps_straight m
  refine ⟨hpos, fun c hc => ?_⟩
  unfold RouteCall.outcome
  rw [(RouteCall.call_eq hc).1]
  exact htable _ hc _

/-! ## A round -/

/-- The step that announces the URL. The next one sends it. -/
def urlStep (m : ModuleType) : Nat := if m.quectel then 0 else 1

theorem routeStep_url (m : ModuleType) : ∀ n < routeSize m,
    ((routeStep m n).id = .routeSetUrlCmd ↔ n = urlStep m) ∧
      ((routeStep m n).id = .routeSetUrlData ↔ n = urlStep m + 1) := by
  cases m <;> decide

/-- The calls have announced and sent the same URL. -/
def SameUrl (P : RouteEnv) (m : ModuleType) (cs : List RouteCall) (url : List UInt8) : Prop :=
  (∀ c ∈ cs, c.id m = .routeSetUrlCmd → c.text P m = routeText m url .routeSetUrlCmd) ∧
    ∀ c ∈ cs, c.id m = .routeSetUrlData → c.text P m = url

theorem SameUrl.snoc {url : List UInt8} (h : SameUrl P m cs url)
    (hcmd : c.id m = .routeSetUrlCmd → c.text P m = routeText m url .routeSetUrlCmd)
    (hdata : c.id m = .routeSetUrlData → c.text P m = url) : SameUrl P m (cs ++ [c]) url := by
  constructor
  all_goals
    intro c' hc'
    obtain hc' | hc' := List.mem_append.1 hc'
  · exact h.1 c' hc'
  · rwa [List.mem_singleton.1 hc']
  · exact h.2 c' hc'
  · rwa [List.mem_singleton.1 hc']

/-- What `payload_data` holds in a round: behind the announcement the URL that was announced. -/
def HoldsUrl (P : RouteEnv) (m : ModuleType) (cs : List RouteCall) (s : RouteState) : Prop :=
  ∃ url, SameUrl P m cs url ∧ (urlStep m < s.step → s.payload = url)

theorem HoldsUrl.call (hc : c.step < routeSize m) (h : HoldsUrl P m cs c.before)
    (hpassed : Passed (fun _ => true) RouteCall.step (RouteCall.ok P m) c.step cs) :
    HoldsUrl P m (cs ++ [c]) ⟨c.step + 1, (c.after P m).payload⟩ := by
  obtain ⟨url, hsame, hheld⟩ := h
  obtain ⟨-, hpayload, -⟩ := RouteCall.call_eq (P := P) hc
  obtain ⟨hcmd, hdata⟩ := routeStep_url m c.step hc
  rw [hpayload]
  rcases Nat.lt_trichotomy c.step (urlStep m) with hlt | heq | hgt
  · refine ⟨url, hsame.snoc (fun hid => ?_) (fun hid => ?_), fun hle => ?_⟩
    · exact absurd (hcmd.1 hid) (Nat.ne_of_lt hlt)
    · exact absurd (hdata.1 hid) (by omega)
    · exact absurd hlt (Nat.not_lt.2 (Nat.le_of_lt_succ hle))
  · -- the URL is made; no call before has sent any
    have hid : c.id m = .routeSetUrlCmd := hcmd.2 heq
    have hnone : SameUrl P m cs (P.urlPack c.device).chars := by
      constructor
      all_goals
        intro c' hc' hid'
        have hlt := hpassed.step_lt hc'
        obtain ⟨hcmd', hdata'⟩ := routeStep_url m c'.step (Nat.lt_trans hlt hc)
      · exact absurd (hcmd'.1 hid') (by omega)
      · exact absurd (hdata'.1 hid') (by omega)
    have hmade : routePayload P (c.id m) c.before.payload c.device = (P.urlPack c.device).chars :=
      if_pos hid
    rw [hmade]
    refine ⟨_, hnone.snoc (fun _ => ?_) (fun hid' => ?_), fun _ => rfl⟩
    · rw [RouteCall.text, hmade, hid]
    · rw [hid] at hid'
      cases hid'
  · have hid : c.id m ≠ .routeSetUrlCmd := fun hid => absurd (hcmd.1 hid) (by omega)
    have hkept : routePayload P (c.id m) c.before.payload c.device = c.before.payload := if_neg hid
    rw [hkept, hheld hgt]
    refine ⟨url, hsame.snoc (fun hid' => absurd hid' hid) (fun hid' => ?_), fun _ => rfl⟩
    rw [RouteCall.text, hkept, hheld hgt, hid']
    rfl

theorem RouteCall.outcome_wait (h : c.ret P m = .wait) :
    c.outcome P m = .next (c.after P m).step := by
  unfold RouteCall.outcome
  rw [h]
  rfl

/-- As long as the route waits, the calls are a part of one round. -/
theorem route_waits (h : Run (RouteStep P m) s cs s') (hs : s.step = 0)
    (hwait : ∀ c ∈ cs, c.ret P m = .wait) : s'.step < routeSize m ∧
      Passed (fun _ => true) RouteCall.step (RouteCall.ok P m) s'.step cs ∧ HoldsUrl P m cs s' := by
  refine h.inv_trace (I := fun cs s => (∀ c ∈ cs, c.ret P m = .wait) → s.step < routeSize m ∧
    Passed (fun _ => true) RouteCall.step (RouteCall.ok P m) s.step cs ∧ HoldsUrl P m cs s) ?_ ?_
    hwait
  · rintro cs s c s' ih ⟨rfl, rfl⟩ hall
    obtain ⟨hlt, hpassed, hurl⟩ := ih fun c' hc' => hall c' (List.mem_append_left _ hc')
    have hret := hall c (List.mem_append_right _ (List.mem_singleton_self c))
    have hnext := RouteCall.outcome_wait hret
    obtain ⟨heq, hlt', hok⟩ | ⟨heq, -⟩ | ⟨heq, -⟩ := (route_straight (P := P) (m := m)).cases hlt
    · obtain hstep : (c.after P m).step = c.step + 1 := Outcome.next.inj (hnext.symm.trans heq)
      rw [hstep]
      refine ⟨hlt', hpassed.snoc rfl hok, ?_⟩
      obtain ⟨url, hsame, hheld⟩ := hurl.call hlt hpassed
      exact ⟨url, hsame, fun hle => hheld (hstep ▸ hle)⟩
    all_goals
      rw [hnext] at heq
      cases heq
  · intro _
    have hnone : SameUrl P m [] [] :=
      ⟨fun c hc => absurd hc List.not_mem_nil, fun c hc => absurd hc List.not_mem_nil⟩
    have hfirst : ¬ urlStep m < s.step := by
      rw [hs]
      exact Nat.not_lt_zero _
    refine ⟨?_, ?_, [], hnone, fun hlt => absurd hlt hfirst⟩
    · rw [hs]
      exact (deviceRouteSteps_straight m).1
    · rw [hs]
      exact .nil

theorem routeStep_last (m : ModuleType) : ∀ n, n + 1 = routeSize m →
    (routeStep m n).id = .routeGetHttpRsp := by
  intro n hn
  obtain rfl : n = routeSize m - 1 := by omega
  cases m <;> rfl

/-- The step that reads the response is made when the callback has accepted one. -/
theorem RouteCall.accepts_of_ok (hid : c.id m = .routeGetHttpRsp) (hok : c.ok P m = true) :
    ∃ d', (routeSend P m (c.id m) c.device c.rsp).2 = some d' ∧
      c.Accepts P m d'.globalInfo.mqtt := by
  unfold RouteCall.ok at hok
  rw [hid] at hok ⊢
  obtain ⟨i, t, hi, htaken⟩ := atCmdSendCheck_takes hok
  unfold deviceCallback at htaken
  split at htaken
  · cases htaken
  · rename_i x hx
    obtain ⟨d, -, hcb⟩ := Option.bind_eq_some_iff.1 hx
    obtain ⟨ok, d'⟩ := x
    obtain ⟨rfl, hd'⟩ := Prod.mk.inj htaken
    obtain ⟨rsp, broker, hrsp, hbroker, hq⟩ := deviceRouteRspCb_accepts hcb
    exact ⟨d', hd'.symm, i, rsp, broker, hi, hrsp, hbroker, hq⟩

/-- Calls that wait, from step 0 on, and a call that is done behind them are a round. -/
theorem route_round (h : Run (RouteStep P m) s cs s') (hs : s.step = 0)
    (hwait : ∀ c ∈ cs, c.ret P m = .wait) (hc : c.before = s') (hdone : c.ret P m = .done) :
    ∃ d', c.deviceAfter P m = some d' ∧ RouteRound P m (cs ++ [c]) d'.globalInfo.mqtt := by
  subst hc
  obtain ⟨hlt, hpassed, hurl⟩ := route_waits h hs hwait
  have hout : c.outcome P m = .done := by
    unfold RouteCall.outcome
    rw [hdone]
    rfl
  obtain ⟨heq, -⟩ | ⟨-, hlast, hok⟩ | ⟨heq, -⟩ := (route_straight (P := P) (m := m)).cases hlt
  · rw [hout] at heq
    cases heq
  · have hid := routeStep_last m _ hlast
    obtain ⟨-, -, hdevice⟩ := RouteCall.call_eq (P := P) hlt
    obtain ⟨d', hd', haccepts⟩ := RouteCall.accepts_of_ok hid (hok rfl)
    obtain ⟨url, hsame, -⟩ := hurl.call hlt hpassed
    exact ⟨d', hdevice.trans hd', hlast ▸ hpassed.snoc rfl hok, ⟨url, hsame⟩, cs, c, rfl, haccepts⟩
  · rw [hout] at heq
    cases heq

end

end AppXd.Net4g
