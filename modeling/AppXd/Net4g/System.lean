import Mathlib
import AppXd.Net4g.CloudLogin
import AppXd.Net4g.ErrorHandle
import AppXd.Net4g.RebootProcess
import AppXd.Net4g.SimFailover
import AppXd.Net4g.WorkProcess

/-!
# From the module to the broker

The program starts in `INIT`: with a kept connection it looks whether that still stands, and
otherwise, or if it does not, it connects anew. Here `net4GWorkProcess` gets the results of the
procedures that the work step selects: the configuration, the activation, the route, the login, and
the waiting behind an error, each with the variables that it keeps between two calls. The rest of the
program may change the device between two calls, but not the settings of the broker, which nothing
else stores.
-/

namespace AppXd.Net4g

open CStr (ascii)
open Trace (Run)

/-- `NET4G_ACTIVE_ROUTE_STEP`. -/
inductive ActiveRouteStep
  | check | active | route | fin
  deriving DecidableEq, Repr

/-- What the procedures use of other modules. `ping` is the report that is saved at the start, and
`check` is the verdict of the callbacks of the configuration that store nothing that it reads. -/
structure SystemEnv where
  comm : CommEnv
  ping : List (PubMsg comm.config)
  active : ActiveEnv
  route : RouteEnv
  login : LoginEnv
  check : AtCmdId → List UInt8 → Bool

/-- The work process, `net4G_process_steps`, the `static` variables of the procedures, and the number
of attempts on the way to the broker that have failed. -/
structure System where
  work : Work
  pingSendFlag : Bool
  netConfig : Nat
  activeRouteStep : ActiveRouteStep
  active : Nat
  route : RouteState
  cloudLogin : Nat
  error : ErrorState
  routeRetryTimes : Nat

/-- What a call meets: what the module answers, the variables that the configuration shares with
other procedures, the value of `check_active_or_route`, and what released memory reads as. `rsps` and
`uart` are what the answers leave for the communication. -/
structure SystemInput (c : Config) where
  call : CallInput c
  rsp : AtRsp
  net : NetState
  activated : Bool
  released : List UInt8 → List UInt8
  rsps : List (List UInt8)
  uart : List UInt8

/-- What a call has done. In `INIT` that is nothing, or a call that has met the queue in this state
and returned this. -/
inductive Did
  | init (call : Option (Comm × RebootRet))
  | config (c : ConfigCall)
  | check (activated : Bool)
  | active (c : ActiveCall)
  | route (c : RouteCall)
  | fin
  | login (c : LoginCall)
  | normal (ret : Option CommRet)
  | error

namespace System

variable (P : SystemEnv) (s : System)

/-- `g_deviceGlobalInfo` and the other structures. -/
def device : Device := s.work.comm.device

def mqtt : MqttPara := s.device.globalInfo.mqtt

def setDevice (d : Device) : System :=
  { s with work := { s.work with comm := { s.work.comm with device := d } } }

/-- `module_4g_active_route_process`. A failed activation is tried again. -/
def activeRouteProcess (x : SystemInput P.comm.config) : Option (ProcessRet × Did × System) :=
  let m := P.comm.config.moduleType
  match s.activeRouteStep with
  | .check => some (.wait, .check x.activated,
      { s with activeRouteStep := if x.activated then .route else .active })
  | .active =>
    let c : ActiveCall := ⟨s.active, s.device, x.rsp, x.released⟩
    match deviceActiveProcess P.active m x.released s.active s.device x.rsp with
    | (_, _, none) => none
    | (ret, n, some d) => some (.wait, .active c,
        { s.setDevice d with
          active := n
          activeRouteStep := if ret = .done then .route else .active })
  | .route =>
    let c : RouteCall := ⟨s.route, s.device, x.rsp⟩
    match deviceRouteProcess P.route m s.route s.device x.rsp with
    | (_, _, none) => none
    | (.done, r, some d) =>
      some (.wait, .route c, { s.setDevice d with route := r, activeRouteStep := .fin })
    | (.error, r, some d) =>
      some (.error, .route c, { s.setDevice d with route := r, activeRouteStep := .check })
    | (.wait, r, some d) => some (.wait, .route c, { s.setDevice d with route := r })
  | .fin => some (.done, .fin, { s with activeRouteStep := .check })

/-- The retries that a result on the way to the broker leaves. -/
def countRetries (ret : ProcessRet) : System :=
  match ret with
  | .done => { s with routeRetryTimes := 0 }
  | .error => { s with routeRetryTimes := min (s.routeRetryTimes + 1) 15 }
  | .wait => s

/-- The procedure of the work step. In `NORMAL` the work process calls the communication itself. -/
def process (x : SystemInput P.comm.config) : Option (ProcessRet × Did × System) :=
  let m := P.comm.config.moduleType
  match s.work.comm.netWork with
  | .netConfig =>
    let c : ConfigCall := ⟨{ x.net with netConfig := s.netConfig }, x.rsp⟩
    some (c.ret m P.check, .config c, { s with netConfig := (c.after m P.check).netConfig })
  | .activeRoute => (s.activeRouteProcess P x).map fun (ret, did, s) => (ret, did, s.countRetries ret)
  | .login =>
    let c : LoginCall := ⟨s.cloudLogin, s.device, x.rsp⟩
    some (c.ret m, .login c, { s with cloudLogin := c.after m }.countRetries (c.ret m))
  | .error =>
    let (ret, e) := module4gErrorHandleProcess s.routeRetryTimes s.error
    some (ret, .error, { s with error := e })
  | .normal => some (.wait, .normal none, s)
  | .init | .ota => none

/-- The case `INIT`, behind the call of `device_reboot_module_4g_communication_process`. -/
def initWork (ret : RebootRet) (t : Comm) : Work :=
  let w := { s.work with comm := t }
  let w := match ret with
    | .netDisconnect =>
      { w with comm := { w.comm with registered := false, netWork := .netConfig } }
    | .fin =>
      { w with comm := { w.comm with registered := true, netWork := .normal, communicateStep := 1 } }
    | .wait => w
  { w.waitReport P.comm.config.moduleType with processRetryTimes := 0 }

/-- The case `INIT`. -/
def initCall (x : SystemInput P.comm.config) : Option (Did × System) :=
  if P.route.noPowerOff then
    (deviceRebootModule4gCommunicationProcess P.comm P.ping x.call s.pingSendFlag s.work.comm).map
      fun (ret, flag, t) =>
        (.init (some (s.work.comm.pinged P.comm x.call P.ping s.pingSendFlag, ret)),
          { s with work := s.initWork P ret t, pingSendFlag := flag })
  else some (.init none, { s with work := { s.work.goto .netConfig with processRetryTimes := 0 } })

/-- The other cases. -/
def phaseCall (x : SystemInput P.comm.config) : Option (Did × System) :=
  match s.process P x with
  | none => none
  | some (ret, did, s) =>
    match net4GWorkProcess P.comm ⟨x.call, ret, x.rsps, x.uart⟩ s.work with
    | none => none
    | some (none, w) => some (did, { s with work := w })
    | some (some ret, w) => some (.normal (some ret), { s with work := w })

/-- One call of `net4G_work_process`. -/
def call (x : SystemInput P.comm.config) : Option (Did × System) :=
  if s.work.comm.netWork = .init then s.initCall P x else s.phaseCall P x

end System

/-- What happens in a run. -/
inductive SystemEvent (c : Config)
  | uart (bs : List UInt8)
  | save (m : PubMsg c)
  | others (d : Device) (getCellInfoFlag : Bool)
  | call (x : SystemInput c)

/-- Everything of the device but the settings of the broker. -/
def Device.withMqtt (d : Device) (q : MqttPara) : Device :=
  { d with globalInfo := { d.globalInfo with mqtt := q } }

def System.step (P : SystemEnv) (s : System) (e : SystemEvent P.comm.config) :
    Option (Option Did × System) :=
  match e with
  | .uart bs => (s.work.step P.comm (.uart bs)).map fun x => (none, { s with work := x.2 })
  | .save m => (s.work.step P.comm (.save m)).map fun x => (none, { s with work := x.2 })
  | .others d flag => (s.work.step P.comm (.others (d.withMqtt s.mqtt) flag)).map fun x =>
      (none, { s with work := x.2 })
  | .call x =>
    if s.work.rebooted then none else (s.call P x).map fun y => (some y.1, y.2)

def SystemStep (P : SystemEnv) (s : System) (e : SystemEvent P.comm.config × Option Did)
    (s' : System) : Prop := s.step P e.1 = some (e.2, s')

/-- The calls of a run, in order. -/
def didLog {c : Config} (es : List (SystemEvent c × Option Did)) : List Did := es.filterMap Prod.snd

/-- The program at its start: no procedure has begun. -/
structure System.Started (s : System) : Prop where
  netWork : s.work.comm.netWork = .init
  rebooted : s.work.rebooted = false
  netConfig : s.netConfig = 0
  activeRouteStep : s.activeRouteStep = .check
  route : s.route.step = 0
  cloudLogin : s.cloudLogin = 0
  error : s.error = ⟨0, 0⟩

/-! ## What the calls have achieved -/

section
variable (P : SystemEnv) (log : List Did)

/-- The last calls have attached the module to the network. -/
def Configured : Prop := ∃ pre cs, log = pre ++ cs.map .config ∧
  Attached P.comm.config.moduleType P.check cs

/-- The device was activated already, or the calls have activated it. -/
def Activated (acts : List Did) : Prop := acts = [.check true] ∨
  ∃ cs c, acts = .check false :: (cs ++ [c]).map .active ∧
    (deviceActiveProcess P.active P.comm.config.moduleType c.released c.before c.device c.rsp).1 = .done

/-- Behind that the last calls have activated the device and read the settings `q` of the broker. -/
def Routed (q : MqttPara) : Prop := ∃ log₁ acts cs, log = log₁ ++ acts ++ cs.map .route ∧
  Configured P log₁ ∧ Activated P acts ∧ RouteRound P.route P.comm.config.moduleType cs q

/-- Behind that the last calls have logged in to the broker with these settings. -/
def LoggedIn (q : MqttPara) : Prop := ∃ log₁ cs, log = log₁ ++ .fin :: cs.map .login ∧
  Routed P log₁ q ∧ LoginRound P.comm.config.moduleType cs q

/-- The server has answered the ping of a program that has not made any other call. -/
def Ponged : Prop := P.route.noPowerOff = true ∧ ∃ (ts : List Comm) (t : Comm),
  log = ts.map (fun t => .init (some (t, .wait))) ++ [.init (some (t, .fin))] ∧ t.Answered P.comm

/-- Since then the connection has not been lost. -/
def Since (B : List Did → Prop) (log : List Did) : Prop :=
  ∃ (log₁ : List Did) (rets : List (Option CommRet)), log = log₁ ++ rets.map .normal ∧ B log₁ ∧
    ∀ ret ∈ rets, ret ≠ some .netDisconnect

/-- The device has connected to the broker, or the server has answered. -/
def Connected : Prop := (∃ q, LoggedIn P log q) ∨ Ponged P log

/-- Since a login with these settings the connection has not been lost. -/
def CameOnline (q : MqttPara) : Prop := Since (fun log => LoggedIn P log q) log

/-- Since the answer of the server the connection has not been lost. -/
def StillKept : Prop := Since (Ponged P) log

end

theorem Since.begin {B : List Did → Prop} {log : List Did} (h : B log) : Since B log :=
  ⟨log, [], (List.append_nil _).symm, h, List.forall_mem_nil _⟩

/-- A call of the communication that has not found the connection lost. -/
theorem Since.normal {B : List Did → Prop} {log : List Did} {ret : CommRet} (h : Since B log)
    (hret : ret ≠ .netDisconnect) : Since B (log ++ [.normal (some ret)]) := by
  obtain ⟨log₁, rets, rfl, hbegin, hrets⟩ := h
  refine ⟨log₁, rets ++ [some ret], ?_, hbegin, ?_⟩
  · rw [List.map_append, List.append_assoc]
    rfl
  · refine List.forall_mem_append.2 ⟨hrets, List.forall_mem_singleton.2 ?_⟩
    exact fun heq => hret (Option.some.inj heq)

/-! ## The invariant -/

/-- Outside its own phase a procedure stands at its beginning. -/
structure System.Rests (s : System) : Prop where
  netConfig : s.work.comm.netWork ≠ .netConfig → s.netConfig = 0
  activeRouteStep : s.work.comm.netWork ≠ .activeRoute → s.activeRouteStep = .check
  route : s.activeRouteStep ≠ .route → s.route.step = 0
  cloudLogin : s.work.comm.netWork ≠ .login → s.cloudLogin = 0
  error : s.work.comm.netWork ≠ .error → s.error = ⟨0, 0⟩

/-- What the calls have achieved in each phase. -/
inductive SystemPhase (P : SystemEnv) (log : List Did) (s : System) : Prop
  | init (ts : List Comm) : s.work.comm.netWork = .init → s.work.rebooted = false →
    log = ts.map (fun t => .init (some (t, .wait))) → SystemPhase P log s
  | netConfig (pre : List Did) (cs : List ConfigCall) : s.work.comm.netWork = .netConfig →
    log = pre ++ cs.map .config →
    Run (ConfigStep P.comm.config.moduleType P.check) 0 cs s.netConfig →
    (∀ c ∈ cs, c.ret P.comm.config.moduleType P.check = .wait) → SystemPhase P log s
  | check : s.work.comm.netWork = .activeRoute → s.activeRouteStep = .check → Configured P log →
    SystemPhase P log s
  | active (log₁ : List Did) (cs : List ActiveCall) : s.work.comm.netWork = .activeRoute →
    s.activeRouteStep = .active → log = log₁ ++ .check false :: cs.map .active →
    Configured P log₁ → SystemPhase P log s
  | route (log₁ acts : List Did) (r : RouteState) (cs : List RouteCall) :
    s.work.comm.netWork = .activeRoute → s.activeRouteStep = .route →
    log = log₁ ++ acts ++ cs.map .route → Configured P log₁ → Activated P acts →
    r.step = 0 → Run (RouteStep P.route P.comm.config.moduleType) r cs s.route →
    (∀ c ∈ cs, c.ret P.route P.comm.config.moduleType = .wait) → SystemPhase P log s
  | fin : s.work.comm.netWork = .activeRoute → s.activeRouteStep = .fin → Routed P log s.mqtt →
    SystemPhase P log s
  | login (log₁ : List Did) (cs : List LoginCall) : s.work.comm.netWork = .login →
    log = log₁ ++ .fin :: cs.map .login → Routed P log₁ s.mqtt →
    Run (LoginStep P.comm.config.moduleType) 0 cs s.cloudLogin →
    (∀ c ∈ cs, c.ret P.comm.config.moduleType = .wait) →
    (∀ c ∈ cs, c.device.globalInfo.mqtt = s.mqtt) → SystemPhase P log s
  | normal : s.work.comm.netWork = .normal → Since (Connected P) log → SystemPhase P log s
  | error (pre : List Did) (k : Nat) : s.work.comm.netWork = .error →
    log = pre ++ List.replicate k .error → .error ∉ pre → k < backOff s.routeRetryTimes + 2 →
    s.error = .behind s.routeRetryTimes k → SystemPhase P log s
  | gone : s.work.comm.netWork = .init ∧ s.work.rebooted = true ∨ s.work.comm.netWork = .ota →
    SystemPhase P log s

section
variable {P : SystemEnv} {log : List Did} {s s' : System} {x : SystemInput P.comm.config}
variable {did : Did} {w : Work}

theorem System.Rests.work (h : s.Rests) (hn : w.comm.netWork = s.work.comm.netWork) :
    { s with work := w }.Rests where
  netConfig hne := h.netConfig (hn ▸ hne)
  activeRouteStep hne := h.activeRouteStep (hn ▸ hne)
  route := h.route
  cloudLogin hne := h.cloudLogin (hn ▸ hne)
  error hne := h.error (hn ▸ hne)

/-- The work process leaves the phase alone as long as it leaves the work step and the settings. -/
theorem SystemPhase.work (h : SystemPhase P log s) (hn : w.comm.netWork = s.work.comm.netWork)
    (hq : w.comm.device.globalInfo.mqtt = s.mqtt) (hb : w.rebooted = s.work.rebooted) :
    SystemPhase P log { s with work := w } := by
  have hmqtt : { s with work := w }.mqtt = s.mqtt := hq
  cases h with
  | init ts h1 h2 => exact .init ts (hn.trans h1) (hb.trans h2) ‹_›
  | netConfig pre cs h1 => exact .netConfig pre cs (hn.trans h1) ‹_› ‹_› ‹_›
  | check h1 => exact .check (hn.trans h1) ‹_› ‹_›
  | active log₁ cs h1 => exact .active log₁ cs (hn.trans h1) ‹_› ‹_› ‹_›
  | route log₁ acts r cs h1 => exact .route log₁ acts r cs (hn.trans h1) ‹_› ‹_› ‹_› ‹_› ‹_› ‹_› ‹_›
  | fin h1 h2 h3 =>
    refine .fin (hn.trans h1) h2 ?_
    rw [hmqtt]
    exact h3
  | login log₁ cs h1 h2 h3 h4 h5 h6 =>
    refine .login log₁ cs (hn.trans h1) h2 ?_ h4 h5 fun c hc => (h6 c hc).trans hmqtt.symm
    rw [hmqtt]
    exact h3
  | normal h1 h2 => exact .normal (hn.trans h1) h2
  | error pre k h1 => exact .error pre k (hn.trans h1) ‹_› ‹_› ‹_› ‹_›
  | gone h1 => exact .gone (h1.imp (fun h => ⟨hn.trans h.1, hb.trans h.2⟩) hn.trans)

/-! ## One call -/

/-- The three phases, each with the one behind it. -/
inductive NetworkWorkStep.Before : NetworkWorkStep → NetworkWorkStep → Prop
  | netConfig : Before .netConfig .activeRoute
  | activeRoute : Before .activeRoute .login
  | login : Before .login .normal

/-- The work step behind a result in one of the three phases. -/
def landingStep (ret : ProcessRet) (n next : NetworkWorkStep) : NetworkWorkStep :=
  match ret with
  | .done => next
  | .wait => n
  | .error => .error

/-- In the three phases the work process changes the work step by the result. -/
theorem System.phaseCall_landing {s₁ : System} {ret : ProcessRet} {did₁ : Did}
    (next : NetworkWorkStep) (hbefore : s₁.work.comm.netWork.Before next)
    (hp : s.process P x = some (ret, did₁, s₁))
    (h : s.phaseCall P x = some (did, s')) : did = did₁ ∧ ∃ w, s' = { s₁ with work := w } ∧
      w.comm.device = s₁.work.comm.device ∧
      w.comm.netWork = landingStep ret s₁.work.comm.netWork next := by
  have hwork : net4GWorkProcess P.comm ⟨x.call, ret, x.rsps, x.uart⟩ s₁.work =
      some (none, s₁.work.phase ⟨x.call, ret, x.rsps, x.uart⟩ next) := by
    unfold net4GWorkProcess
    generalize hn : s₁.work.comm.netWork = n at hbefore ⊢
    cases hbefore <;> rfl
  unfold System.phaseCall at h
  rw [hp] at h
  simp only [hwork] at h
  cases h
  refine ⟨rfl, _, rfl, ?_⟩
  unfold Work.phase landingStep
  cases ret <;> exact ⟨rfl, rfl⟩

/-- An error begins a round of waiting. -/
theorem SystemPhase.begin_error (hno : .error ∉ log) (hdid : did ≠ .error)
    (hn : s.work.comm.netWork = .error) (he : s.error = ⟨0, 0⟩) : SystemPhase P (log ++ [did]) s := by
  refine .error (log ++ [did]) 0 hn (List.append_nil _).symm (fun hmem => ?_) (Nat.succ_pos _) he
  obtain hmem | hmem := List.mem_append.1 hmem
  · exact hno hmem
  · exact hdid (List.mem_singleton.1 hmem).symm

/-- A call of the configuration. -/
theorem call_netConfig {pre : List Did} {cs : List ConfigCall} (hr : s.Rests) (hno : .error ∉ log)
    (hn : s.work.comm.netWork = .netConfig) (hlog : log = pre ++ cs.map .config)
    (hrun : Run (ConfigStep P.comm.config.moduleType P.check) 0 cs s.netConfig)
    (hwait : ∀ c ∈ cs, c.ret P.comm.config.moduleType P.check = .wait)
    (h : s.phaseCall P x = some (did, s')) : SystemPhase P (log ++ [did]) s' ∧ s'.Rests := by
  let c : ConfigCall := ⟨{ x.net with netConfig := s.netConfig }, x.rsp⟩
  have hp : s.process P x = some (c.ret P.comm.config.moduleType P.check, .config c,
      { s with netConfig := (c.after P.comm.config.moduleType P.check).netConfig }) := by
    unfold System.process
    rw [hn]
  obtain ⟨rfl, w, rfl, hdev, hland⟩ := System.phaseCall_landing .activeRoute
    (by rw [hn]; exact .netConfig) hp h
  simp only [hn] at hland
  have hrun' := hrun.append (.cons (e := c) ⟨rfl, rfl⟩ .nil)
  have hlog' : log ++ [.config c] = pre ++ (cs ++ [c]).map Did.config := by
    rw [hlog, List.map_append, List.append_assoc]
    rfl
  rcases @call_cases P.comm.config.moduleType P.check c (run_lt_length hrun) with ⟨hret, -⟩ | ⟨hret, hzero, -⟩ | ⟨hret, hzero, -⟩
  · rw [hret] at hland
    refine ⟨.netConfig pre _ hland hlog' hrun'
      (List.forall_mem_append.2 ⟨hwait, List.forall_mem_singleton.2 hret⟩), ?_⟩
    exact ⟨fun hne => absurd hland hne, fun _ => hr.activeRouteStep (by rw [hn]; decide), hr.route,
      fun _ => hr.cloudLogin (by rw [hn]; decide), fun _ => hr.error (by rw [hn]; decide)⟩
  · rw [hret] at hland
    have hcheck := hr.activeRouteStep (by rw [hn]; decide)
    have hatt := run_done hrun' [] cs c [] rfl (.inl rfl) hwait hret
    refine ⟨.check hland hcheck ⟨pre, _, hlog', hatt⟩, ?_⟩
    exact ⟨fun _ => hzero, fun _ => hcheck, hr.route,
      fun _ => hr.cloudLogin (by rw [hn]; decide), fun _ => hr.error (by rw [hn]; decide)⟩
  · rw [hret] at hland
    have herror := hr.error (by rw [hn]; decide)
    refine ⟨.begin_error hno nofun hland herror, ?_⟩
    exact ⟨fun _ => hzero, fun _ => hr.activeRouteStep (by rw [hn]; decide), hr.route,
      fun _ => hr.cloudLogin (by rw [hn]; decide), fun _ => herror⟩

theorem System.countRetries_eq (s : System) (ret : ProcessRet) :
    ∃ n, s.countRetries ret = { s with routeRetryTimes := n } := by
  unfold System.countRetries
  cases ret <;> exact ⟨_, rfl⟩

/-- In the phase of the route the work process changes the work step by the result. -/
theorem System.phaseCall_activeRoute {s₁ : System} {ret : ProcessRet} {did₁ : Did}
    (hn : s.work.comm.netWork = .activeRoute)
    (hp : s.activeRouteProcess P x = some (ret, did₁, s₁))
    (hn₁ : s₁.work.comm.netWork = .activeRoute) (h : s.phaseCall P x = some (did, s')) :
    did = did₁ ∧ ∃ w n, s' = { s₁ with work := w, routeRetryTimes := n } ∧
      w.comm.device = s₁.work.comm.device ∧
      w.comm.netWork = landingStep ret .activeRoute .login := by
  obtain ⟨n, hcount⟩ := System.countRetries_eq s₁ ret
  have hp' : s.process P x = some (ret, did₁, { s₁ with routeRetryTimes := n }) := by
    unfold System.process
    rw [hn]
    simp only [hp, Option.map_some, hcount]
  obtain ⟨rfl, w, rfl, hdev, hland⟩ := System.phaseCall_landing .login
    (by rw [hn₁]; exact .activeRoute) hp' h
  simp only [hn₁] at hland
  exact ⟨rfl, w, n, rfl, hdev, hland⟩

/-- The call that looks whether the device is activated. -/
theorem call_check (hr : s.Rests) (hn : s.work.comm.netWork = .activeRoute)
    (hstep : s.activeRouteStep = .check) (hconf : Configured P log)
    (h : s.phaseCall P x = some (did, s')) : SystemPhase P (log ++ [did]) s' ∧ s'.Rests := by
  have hp : s.activeRouteProcess P x = some (.wait, .check x.activated,
      { s with activeRouteStep := if x.activated then .route else .active }) := by
    unfold System.activeRouteProcess
    rw [hstep]
  obtain ⟨rfl, w, n, rfl, hdev, hland⟩ := System.phaseCall_activeRoute hn hp hn h
  have hroute := hr.route (by rw [hstep]; decide)
  have hnet : w.comm.netWork = .activeRoute := hland
  refine ⟨?_, fun _ => hr.netConfig (by rw [hn]; decide), fun hne => absurd hnet hne,
    fun _ => hroute, fun _ => hr.cloudLogin (by rw [hn]; decide),
    fun _ => hr.error (by rw [hn]; decide)⟩
  cases hact : x.activated with
  | true =>
    exact .route log [.check true] s.route [] hnet rfl (List.append_nil _).symm hconf (.inl rfl)
      hroute .nil (List.forall_mem_nil _)
  | false => exact .active log [] hnet rfl rfl hconf

theorem System.activeRouteProcess_isSome (hn : s.work.comm.netWork = .activeRoute)
    (h : s.phaseCall P x = some (did, s')) :
    ∃ ret did₁ s₁, s.activeRouteProcess P x = some (ret, did₁, s₁) := by
  cases hp : s.activeRouteProcess P x with
  | none =>
    unfold System.phaseCall System.process at h
    rw [hn] at h
    simp only [hp, Option.map_none] at h
    cases h
  | some y => exact ⟨y.1, y.2.1, y.2.2, rfl⟩

/-- A call of the activation. -/
theorem call_active {log₁ : List Did} {cs : List ActiveCall} (hr : s.Rests)
    (hn : s.work.comm.netWork = .activeRoute) (hstep : s.activeRouteStep = .active)
    (hlog : log = log₁ ++ .check false :: cs.map .active) (hconf : Configured P log₁)
    (h : s.phaseCall P x = some (did, s')) : SystemPhase P (log ++ [did]) s' ∧ s'.Rests := by
  obtain ⟨ret, did₁, s₁, hp⟩ := System.activeRouteProcess_isSome hn h
  have hp' := hp
  unfold System.activeRouteProcess at hp
  rw [hstep] at hp
  simp only at hp
  split at hp
  · cases hp
  rename_i ret k d hcall
  cases hp
  obtain ⟨rfl, w, n, rfl, hdev, hland⟩ := System.phaseCall_activeRoute hn hp' hn h
  have hroute := hr.route (by rw [hstep]; decide)
  have hnet : w.comm.netWork = .activeRoute := hland
  refine ⟨?_, fun _ => hr.netConfig (by rw [hn]; decide), fun hne => absurd hnet hne,
    fun _ => hroute, fun _ => hr.cloudLogin (by rw [hn]; decide),
    fun _ => hr.error (by rw [hn]; decide)⟩
  let c : ActiveCall := ⟨s.active, s.device, x.rsp, x.released⟩
  have hlog' : log ++ [.active c] = log₁ ++ .check false :: (cs ++ [c]).map Did.active := by
    rw [hlog, List.map_append, List.append_assoc]
    rfl
  by_cases hdone : ret = .done
  · refine .route log₁ (.check false :: (cs ++ [c]).map .active) s.route [] hnet (if_pos hdone)
      (hlog'.trans (List.append_nil _).symm) hconf (.inr ⟨cs, c, rfl, ?_⟩) hroute .nil
      (List.forall_mem_nil _)
    exact (congrArg Prod.fst hcall).trans hdone
  · exact .active log₁ (cs ++ [c]) hnet (if_neg hdone) hlog' hconf

/-- A call of the route. -/
theorem call_route {log₁ acts : List Did} {r : RouteState} {cs : List RouteCall} (hr : s.Rests)
    (hno : .error ∉ log)
    (hn : s.work.comm.netWork = .activeRoute) (hstep : s.activeRouteStep = .route)
    (hlog : log = log₁ ++ acts ++ cs.map .route) (hconf : Configured P log₁)
    (hacts : Activated P acts) (hr0 : r.step = 0)
    (hrun : Run (RouteStep P.route P.comm.config.moduleType) r cs s.route)
    (hwait : ∀ c ∈ cs, c.ret P.route P.comm.config.moduleType = .wait)
    (h : s.phaseCall P x = some (did, s')) : SystemPhase P (log ++ [did]) s' ∧ s'.Rests := by
  obtain ⟨ret, did₁, s₁, hp⟩ := System.activeRouteProcess_isSome hn h
  have hp' := hp
  unfold System.activeRouteProcess at hp
  rw [hstep] at hp
  simp only at hp
  let c : RouteCall := ⟨s.route, s.device, x.rsp⟩
  have hlog' : log ++ [.route c] = log₁ ++ acts ++ (cs ++ [c]).map Did.route := by
    rw [hlog, List.map_append, List.append_assoc]
    rfl
  have hlt : c.step < routeSize P.comm.config.moduleType := (route_waits hrun hr0 hwait).1
  have hidle : s.netConfig = 0 ∧ s.cloudLogin = 0 ∧ s.error = ⟨0, 0⟩ :=
    ⟨hr.netConfig (by rw [hn]; decide), hr.cloudLogin (by rw [hn]; decide),
      hr.error (by rw [hn]; decide)⟩
  obtain ⟨hconfig, hlogin, herror⟩ := hidle
  split at hp
  · cases hp
  all_goals
    rename_i r' d hcall
    cases hp
    obtain ⟨rfl, w, n, rfl, hdev, hland⟩ := System.phaseCall_activeRoute hn hp' hn h
    have hafter : c.after P.route P.comm.config.moduleType = r' :=
      congrArg (fun y => y.2.1) hcall
    have hret : c.ret P.route P.comm.config.moduleType = _ := congrArg Prod.fst hcall
  · -- the round is complete
    have hnet : w.comm.netWork = .activeRoute := hland
    obtain ⟨d', hd', hround⟩ := route_round (c := c) hrun hr0 hwait rfl hret
    obtain rfl : d' = d :=
      Option.some.inj (hd'.symm.trans (congrArg (fun y => y.2.2) hcall))
    have hzero := RouteCall.after_zero hlt (P := P.route) (by rw [hret]; exact nofun)
    rw [hafter] at hzero
    have hmqtt : w.comm.device.globalInfo.mqtt = d'.globalInfo.mqtt :=
      congrArg (fun d => d.globalInfo.mqtt) hdev
    refine ⟨.fin hnet rfl ⟨log₁, acts, cs ++ [c], hlog', hconf, hacts, ?_⟩, fun _ => hconfig,
      fun hne => absurd hnet hne, fun _ => hzero, fun _ => hlogin, fun _ => herror⟩
    unfold System.mqtt System.device
    rw [hmqtt]
    exact hround
  · have hnet : w.comm.netWork = .error := hland
    have hzero := RouteCall.after_zero hlt (P := P.route) (by rw [hret]; exact nofun)
    rw [hafter] at hzero
    exact ⟨.begin_error hno nofun hnet herror, fun _ => hconfig, fun _ => rfl, fun _ => hzero,
      fun _ => hlogin, fun _ => herror⟩
  · have hnet : w.comm.netWork = .activeRoute := hland
    have hrun' := hrun.append (.cons (e := c) ⟨rfl, hafter⟩ .nil)
    refine ⟨.route log₁ acts r (cs ++ [c]) hnet hstep hlog' hconf hacts hr0 hrun' ?_,
      fun _ => hconfig, fun hne => absurd hnet hne, fun hne => absurd hstep hne, fun _ => hlogin,
      fun _ => herror⟩
    exact List.forall_mem_append.2 ⟨hwait, List.forall_mem_singleton.2 hret⟩

/-- The call behind the route. -/
theorem call_fin (hr : s.Rests) (hn : s.work.comm.netWork = .activeRoute)
    (hstep : s.activeRouteStep = .fin) (hrouted : Routed P log s.mqtt)
    (h : s.phaseCall P x = some (did, s')) : SystemPhase P (log ++ [did]) s' ∧ s'.Rests := by
  have hp : s.activeRouteProcess P x = some (.done, .fin, { s with activeRouteStep := .check }) := by
    unfold System.activeRouteProcess
    rw [hstep]
  obtain ⟨rfl, w, n, rfl, hdev, hland⟩ := System.phaseCall_activeRoute hn hp hn h
  have hnet : w.comm.netWork = .login := hland
  have hmqtt : w.comm.device.globalInfo.mqtt = s.mqtt := congrArg (fun d => d.globalInfo.mqtt) hdev
  have hlogin := hr.cloudLogin (by rw [hn]; decide)
  refine ⟨.login log [] hnet rfl ?_ (hlogin ▸ .nil) (List.forall_mem_nil _) (List.forall_mem_nil _),
    fun _ => hr.netConfig (by rw [hn]; decide), fun _ => rfl,
    fun _ => hr.route (by rw [hstep]; decide), fun _ => hlogin,
    fun _ => hr.error (by rw [hn]; decide)⟩
  unfold System.mqtt System.device
  rw [hmqtt]
  exact hrouted

/-- A call of the login. -/
theorem call_login {log₁ : List Did} {cs : List LoginCall} (hr : s.Rests) (hno : .error ∉ log)
    (hn : s.work.comm.netWork = .login) (hlog : log = log₁ ++ .fin :: cs.map .login)
    (hrouted : Routed P log₁ s.mqtt)
    (hrun : Run (LoginStep P.comm.config.moduleType) 0 cs s.cloudLogin)
    (hwait : ∀ c ∈ cs, c.ret P.comm.config.moduleType = .wait)
    (hq : ∀ c ∈ cs, c.device.globalInfo.mqtt = s.mqtt) (h : s.phaseCall P x = some (did, s')) :
    SystemPhase P (log ++ [did]) s' ∧ s'.Rests := by
  let c : LoginCall := ⟨s.cloudLogin, s.device, x.rsp⟩
  obtain ⟨n, hcount⟩ := System.countRetries_eq
    { s with cloudLogin := c.after P.comm.config.moduleType } (c.ret P.comm.config.moduleType)
  have hp : s.process P x = some (c.ret P.comm.config.moduleType, .login c,
      { s with cloudLogin := c.after P.comm.config.moduleType, routeRetryTimes := n }) := by
    unfold System.process
    rw [hn]
    exact congrArg (fun t => some (c.ret P.comm.config.moduleType, Did.login c, t)) hcount
  obtain ⟨rfl, w, rfl, hdev, hland⟩ := System.phaseCall_landing .normal
    (by rw [hn]; exact .login) hp h
  simp only [hn] at hland
  have hmqtt : w.comm.device.globalInfo.mqtt = s.mqtt := congrArg (fun d => d.globalInfo.mqtt) hdev
  have hq' : ∀ c' ∈ cs ++ [c], c'.device.globalInfo.mqtt = s.mqtt :=
    List.forall_mem_append.2 ⟨hq, List.forall_mem_singleton.2 rfl⟩
  have hlt : c.before < 11 := (login_straight.run (LoginStep.run_steps hrun)).1
  have hlog' : log ++ [.login c] = log₁ ++ .fin :: (cs ++ [c]).map Did.login := by
    rw [hlog, List.map_append, List.append_assoc]
    rfl
  have hconfig := hr.netConfig (by rw [hn]; decide)
  have hcheck := hr.activeRouteStep (by rw [hn]; decide)
  have hroute := hr.route (by rw [hcheck]; decide)
  have herror := hr.error (by rw [hn]; decide)
  cases hret : c.ret P.comm.config.moduleType with
  | wait =>
    rw [hret] at hland
    have hnet : w.comm.netWork = .login := hland
    refine ⟨.login log₁ (cs ++ [c]) hnet hlog' ?_ (hrun.append (.cons ⟨rfl, rfl⟩ .nil)) ?_ ?_,
      fun _ => hconfig, fun _ => hcheck, fun _ => hroute, fun hne => absurd hnet hne,
      fun _ => herror⟩
    · unfold System.mqtt System.device
      rw [hmqtt]
      exact hrouted
    · exact List.forall_mem_append.2 ⟨hwait, List.forall_mem_singleton.2 hret⟩
    · exact fun c' hc' => (hq' c' hc').trans hmqtt.symm
  | done =>
    rw [hret] at hland
    have hzero := LoginCall.after_zero (m := P.comm.config.moduleType) hlt (by rw [hret]; decide)
    have hround := login_round hrun hwait rfl hret hq'
    have hin : LoggedIn P (log ++ [.login c]) s.mqtt := ⟨log₁, _, hlog', hrouted, hround⟩
    refine ⟨.normal hland (.begin (.inl ⟨s.mqtt, hin⟩)), fun _ => hconfig, fun _ => hcheck,
      fun _ => hroute, fun _ => hzero, fun _ => herror⟩
  | error =>
    rw [hret] at hland
    have hzero := LoginCall.after_zero (m := P.comm.config.moduleType) hlt (by rw [hret]; decide)
    exact ⟨.begin_error hno nofun hland herror, fun _ => hconfig, fun _ => hcheck, fun _ => hroute,
      fun _ => hzero, fun _ => herror⟩

theorem Work.waitReport_eq (w : Work) (m : ModuleType) : ∃ ws r n b, w.waitReport m = { w with
      comm := { w.comm with writes := ws }
      waitReportRet := r
      waitReportDelay := n
      rebooted := b } ∧
    (w.rebooted = true → b = true) := by
  unfold Work.waitReport
  split
  · simp only
    split
    · split
      · exact ⟨_, _, _, _, rfl, fun _ => rfl⟩
      · exact ⟨_, _, _, _, rfl, id⟩
    · exact ⟨_, _, _, _, rfl, id⟩
  · exact ⟨_, _, _, _, rfl, id⟩

/-- The connection is lost for the second time exactly when the device reboots. -/
theorem Work.normal_lost (w : Work) (m : ModuleType) (t : Comm) :
    (w.normal m .netDisconnect t).comm.netWork = .netConfig ∨
      (w.normal m .netDisconnect t).comm.netWork = .init ∧
        (w.normal m .netDisconnect t).rebooted = true := by
  unfold Work.normal
  simp only
  obtain ⟨ws, r, n, b, heq, hb⟩ := Work.waitReport_eq { w with comm := t }.disconnect m
  rw [heq]
  revert hb
  unfold Work.disconnect
  simp only
  split
  · exact fun hb => .inr ⟨rfl, hb rfl⟩
  · exact fun _ => .inl rfl

/-- A call of the communication. -/
theorem call_normal (hr : s.Rests) (hn : s.work.comm.netWork = .normal)
    (honline : Since (Connected P) log) (h : s.phaseCall P x = some (did, s')) :
    SystemPhase P (log ++ [did]) s' ∧ s'.Rests := by
  have hp : s.process P x = some (.wait, .normal none, s) := by
    unfold System.process
    rw [hn]
  unfold System.phaseCall at h
  rw [hp] at h
  simp only at h
  split at h
  · cases h
  · rename_i w hw
    unfold net4GWorkProcess at hw
    rw [hn] at hw
    obtain ⟨⟨ret, t⟩, -, heq⟩ := Option.map_eq_some_iff.1 hw
    cases heq
  · rename_i ret w hw
    cases h
    unfold net4GWorkProcess at hw
    rw [hn] at hw
    obtain ⟨⟨ret', t⟩, hcall, heq⟩ := Option.map_eq_some_iff.1 hw
    cases heq
    have hconfig := hr.netConfig (by rw [hn]; decide)
    have hcheck := hr.activeRouteStep (by rw [hn]; decide)
    have hroute := hr.route (by rw [hcheck]; decide)
    have hlogin := hr.cloudLogin (by rw [hn]; decide)
    have herror := hr.error (by rw [hn]; decide)
    refine ⟨?_, fun _ => hconfig, fun _ => hcheck, fun _ => hroute, fun _ => hlogin,
      fun _ => herror⟩
    by_cases hlost : ret = .netDisconnect
    · -- the connection is lost
      subst hlost
      obtain hnet | hgone := Work.normal_lost s.work P.comm.config.moduleType t
      · exact .netConfig (log ++ [.normal (some .netDisconnect)]) [] hnet (List.append_nil _).symm
          (hconfig ▸ .nil) (List.forall_mem_nil _)
      · exact .gone (.inl hgone)
    · have hnet := ((Work.normal_afterCall s.work P.comm.config.moduleType ret t).kept hlost).2
      obtain ht | ht := (Comm.call_outcome hcall).netWork
      · exact .normal (hnet.trans (ht.trans hn)) (honline.normal hlost)
      · exact .gone (.inr (hnet.trans ht))

theorem System.phaseCall_eq_error (hn : s.work.comm.netWork = .error) :
    s.phaseCall P x = some (.error, { s with
      error := (module4gErrorHandleProcess s.routeRetryTimes s.error).2
      work := if (module4gErrorHandleProcess s.routeRetryTimes s.error).1 = .wait then s.work
        else { s.work.goto .init with rebooted := true } }) := by
  unfold System.phaseCall System.process net4GWorkProcess
  rw [hn]
  simp only [hn]

/-- A call behind an error. The device reboots at the end of the round. -/
theorem call_error {pre : List Did} {k : Nat} (hr : s.Rests) (hn : s.work.comm.netWork = .error)
    (hlog : log = pre ++ List.replicate k .error) (hno : .error ∉ pre)
    (hk : k < backOff s.routeRetryTimes + 2) (he : s.error = .behind s.routeRetryTimes k)
    (h : s.phaseCall P x = some (did, s')) :
    (s'.work.rebooted = true → s.work.rebooted = true ∨
      log ++ [did] = pre ++ List.replicate (backOff s.routeRetryTimes + 2) .error) ∧
      SystemPhase P (log ++ [did]) s' ∧ s'.Rests := by
  have hlog' : log ++ [.error] = pre ++ List.replicate (k + 1) .error := by
    rw [hlog, List.append_assoc, List.replicate_succ']
  have hconfig := hr.netConfig (by rw [hn]; decide)
  have hcheck := hr.activeRouteStep (by rw [hn]; decide)
  have hroute := hr.route (by rw [hcheck]; decide)
  have hlogin := hr.cloudLogin (by rw [hn]; decide)
  rw [System.phaseCall_eq_error hn, he, errorHandle_behind hk] at h
  by_cases hlast : k = backOff s.routeRetryTimes + 1
  · rw [if_pos hlast] at h
    cases h
    exact ⟨fun _ => .inr (by rw [hlog', hlast]), .gone (.inl ⟨rfl, rfl⟩), fun _ => hconfig,
      fun _ => hcheck, fun _ => hroute, fun _ => hlogin, fun _ => rfl⟩
  · rw [if_neg hlast] at h
    cases h
    have hk' : k + 1 < backOff s.routeRetryTimes + 2 := by omega
    exact ⟨fun hreboot => .inl hreboot, .error pre (k + 1) hn hlog' hno hk' rfl,
      fun _ => hconfig, fun _ => hcheck, fun _ => hroute, fun _ => hlogin, fun hne => absurd hn hne⟩

/-- A call at the start. -/
theorem call_init {ts : List Comm} (hr : s.Rests) (hn : s.work.comm.netWork = .init)
    (hlog : log = ts.map fun t => .init (some (t, .wait)))
    (h : s.initCall P x = some (did, s')) : SystemPhase P (log ++ [did]) s' ∧ s'.Rests := by
  have hconfig := hr.netConfig (by rw [hn]; decide)
  have hcheck := hr.activeRouteStep (by rw [hn]; decide)
  have hroute := hr.route (by rw [hcheck]; decide)
  have hlogin := hr.cloudLogin (by rw [hn]; decide)
  have herror := hr.error (by rw [hn]; decide)
  unfold System.initCall at h
  split at h
  · rename_i hpower
    obtain ⟨⟨ret, flag, t⟩, hreboot, heq⟩ := Option.map_eq_some_iff.1 h
    cases heq
    refine ⟨?_, fun _ => hconfig, fun _ => hcheck, fun _ => hroute, fun _ => hlogin,
      fun _ => herror⟩
    obtain ⟨hfin, hwait⟩ := reboot_ends hreboot
    generalize s.work.comm.pinged P.comm x.call P.ping s.pingSendFlag = u at hfin ⊢
    cases ret with
    | wait =>
      obtain ⟨ws, r, n, b, hw, -⟩ :=
        Work.waitReport_eq { s.work with comm := t } P.comm.config.moduleType
      have hnet : t.netWork = .init := (hwait nofun).trans hn
      unfold System.initWork
      simp only
      rw [hw]
      cases b with
      | true => exact .gone (.inl ⟨hnet, rfl⟩)
      | false =>
        refine .init (ts ++ [u]) hnet rfl ?_
        rw [hlog, List.map_append]
        rfl
    | fin =>
      obtain ⟨ws, r, n, b, hw, -⟩ := Work.waitReport_eq { s.work with
        comm := { t with registered := true, netWork := .normal, communicateStep := 1 } }
        P.comm.config.moduleType
      unfold System.initWork
      simp only
      rw [hw]
      refine .normal rfl (.begin (.inr ⟨hpower, ts, u, ?_, hfin rfl⟩))
      rw [hlog]
    | netDisconnect =>
      obtain ⟨ws, r, n, b, hw, -⟩ := Work.waitReport_eq { s.work with
        comm := { t with registered := false, netWork := .netConfig } } P.comm.config.moduleType
      unfold System.initWork
      simp only
      rw [hw]
      exact .netConfig (log ++ [.init (some (u, .netDisconnect))]) [] rfl (List.append_nil _).symm
        (hconfig ▸ .nil) (List.forall_mem_nil _)
  · cases h
    refine ⟨?_, fun _ => hconfig, fun _ => hcheck, fun _ => hroute, fun _ => hlogin,
      fun _ => herror⟩
    exact .netConfig (log ++ [.init none]) [] rfl (List.append_nil _).symm (hconfig ▸ .nil)
      (List.forall_mem_nil _)

/-! ## Runs -/

/-- There has been no error yet. Only a reboot leads out of one. -/
def NoError (log : List Did) (s : System) : Prop :=
  s.work.comm.netWork ≠ .error → s.work.rebooted = false → .error ∉ log

theorem System.phaseCall_did (hn : s.work.comm.netWork ≠ .error)
    (h : s.phaseCall P x = some (did, s')) : did ≠ .error := by
  have hp : ∀ ret did₁ s₁, s.process P x = some (ret, did₁, s₁) → did₁ ≠ .error := by
    intro ret did₁ s₁ hp
    unfold System.process at hp
    split at hp
    · cases hp
      exact nofun
    · obtain ⟨⟨ret', did', s₂⟩, hroute, heq⟩ := Option.map_eq_some_iff.1 hp
      cases heq
      unfold System.activeRouteProcess at hroute
      split at hroute
      · cases hroute
        exact nofun
      · simp only at hroute
        split at hroute <;> cases hroute
        exact nofun
      · simp only at hroute
        split at hroute <;> cases hroute <;> exact nofun
      · cases hroute
        exact nofun
    · cases hp
      exact nofun
    · exact absurd ‹_› hn
    · cases hp
      exact nofun
    · cases hp
    · cases hp
  unfold System.phaseCall at h
  split at h
  · cases h
  · rename_i ret did₁ s₁ hp₁
    split at h
    · cases h
    · cases h
      exact hp _ _ _ hp₁
    · cases h
      exact nofun

theorem System.initCall_did (h : s.initCall P x = some (did, s')) : did ≠ .error := by
  unfold System.initCall at h
  split at h
  · obtain ⟨y, -, heq⟩ := Option.map_eq_some_iff.1 h
    cases heq
    exact nofun
  · cases h
    exact nofun

theorem System.call_of_init (hn : s.work.comm.netWork = .init) : s.call P x = s.initCall P x :=
  if_pos hn

theorem System.call_of_ne (hn : s.work.comm.netWork ≠ .init) : s.call P x = s.phaseCall P x :=
  if_neg hn

theorem NoError.call (hno : NoError log s) (hlive : s.work.rebooted = false)
    (h : s.call P x = some (did, s')) : NoError (log ++ [did]) s' := by
  intro hn' hlive' hmem
  by_cases hn : s.work.comm.netWork = .error
  · rw [System.call_of_ne (by rw [hn]; decide), System.phaseCall_eq_error hn] at h
    cases h
    simp only at hn' hlive'
    split at hlive'
    · rename_i hwait
      rw [if_pos hwait] at hn'
      exact hn' hn
    · cases hlive'
  · have hdid : did ≠ .error := by
      by_cases hinit : s.work.comm.netWork = .init
      · rw [System.call_of_init hinit] at h
        exact System.initCall_did h
      · rw [System.call_of_ne hinit] at h
        exact System.phaseCall_did hn h
    obtain hmem | hmem := List.mem_append.1 hmem
    · exact hno hn hlive hmem
    · exact hdid (List.mem_singleton.1 hmem).symm

theorem call_phase (hphase : SystemPhase P log s) (hr : s.Rests) (hno : NoError log s)
    (hlive : s.work.rebooted = false) (h : s.call P x = some (did, s')) :
    SystemPhase P (log ++ [did]) s' ∧ s'.Rests := by
  have hcall : s.work.comm.netWork ≠ .init → s.phaseCall P x = some (did, s') := fun hn =>
    (System.call_of_ne hn).symm.trans h
  cases hphase with
  | init ts h1 _ h3 =>
    rw [System.call_of_init h1] at h
    exact call_init hr h1 h3 h
  | netConfig pre cs h1 h2 h3 h4 =>
    exact call_netConfig hr (hno (by rw [h1]; decide) hlive) h1 h2 h3 h4 (hcall (by rw [h1]; decide))
  | check h1 h2 h3 => exact call_check hr h1 h2 h3 (hcall (by rw [h1]; decide))
  | active log₁ cs h1 h2 h3 h4 => exact call_active hr h1 h2 h3 h4 (hcall (by rw [h1]; decide))
  | route log₁ acts r cs h1 h2 h3 h4 h5 h6 h7 h8 =>
    exact call_route hr (hno (by rw [h1]; decide) hlive) h1 h2 h3 h4 h5 h6 h7 h8
      (hcall (by rw [h1]; decide))
  | fin h1 h2 h3 => exact call_fin hr h1 h2 h3 (hcall (by rw [h1]; decide))
  | login log₁ cs h1 h2 h3 h4 h5 h6 =>
    exact call_login hr (hno (by rw [h1]; decide) hlive) h1 h2 h3 h4 h5 h6
      (hcall (by rw [h1]; decide))
  | normal h1 h2 => exact call_normal hr h1 h2 (hcall (by rw [h1]; decide))
  | error pre k h1 h2 h3 h4 h5 =>
    exact (call_error hr h1 h2 h3 h4 h5 (hcall (by rw [h1]; decide))).2
  | gone h1 =>
    obtain ⟨-, hgone⟩ | hota := h1
    · exact absurd (hlive.symm.trans hgone) nofun
    · have h := hcall (by rw [hota]; decide)
      unfold System.phaseCall System.process at h
      rw [hota] at h
      cases h

/-- The work process leaves the work step and the settings alone, and does not reboot. -/
def KeepsPhase (t w : Work) : Prop := w.comm.netWork = t.comm.netWork ∧
  w.comm.device.globalInfo.mqtt = t.comm.device.globalInfo.mqtt ∧ w.rebooted = t.rebooted

section
variable {E : CommEnv} {t : Work} {ret : Option CommRet}

theorem keepsPhase_uart {bs : List UInt8} (h : t.step E (.uart bs) = some (ret, w)) :
    KeepsPhase t w := by
  unfold Work.step at h
  split at h
  · cases h
  · cases h
    obtain ⟨f, u, heq⟩ := Comm.deliver_eq E.config t.comm bs
    unfold KeepsPhase
    rw [heq]
    exact ⟨rfl, rfl, rfl⟩

theorem keepsPhase_save {m : PubMsg E.config} (h : t.step E (.save m) = some (ret, w)) :
    KeepsPhase t w := by
  unfold Work.step at h
  split at h
  · cases h
  · cases h
    exact ⟨rfl, rfl, rfl⟩

theorem keepsPhase_others {d : Device} {flag : Bool}
    (hq : d.globalInfo.mqtt = t.comm.device.globalInfo.mqtt)
    (h : t.step E (.others d flag) = some (ret, w)) : KeepsPhase t w := by
  unfold Work.step at h
  split at h
  · cases h
  · cases h
    exact ⟨rfl, hq, rfl⟩

end

theorem SystemPhase.keeps (hphase : SystemPhase P log s) (hr : s.Rests) (hno : NoError log s)
    (hw : KeepsPhase s.work w) : SystemPhase P (log ++ []) { s with work := w } ∧
      { s with work := w }.Rests ∧ NoError (log ++ []) { s with work := w } := by
  rw [List.append_nil]
  exact ⟨hphase.work hw.1 hw.2.1 hw.2.2, hr.work hw.1,
    fun hn hlive => hno (hw.1 ▸ hn) (hw.2.2 ▸ hlive)⟩

theorem SystemStep.phase {e : SystemEvent P.comm.config × Option Did} (hphase : SystemPhase P log s)
    (hr : s.Rests) (hno : NoError log s) (h : SystemStep P s e s') :
    SystemPhase P (log ++ e.2.toList) s' ∧ s'.Rests ∧ NoError (log ++ e.2.toList) s' := by
  obtain ⟨e, did⟩ := e
  unfold SystemStep System.step at h
  cases e with
  | call y =>
    simp only at h
    split at h
    · cases h
    · rename_i hlive
      have hlive := Bool.eq_false_iff.2 hlive
      obtain ⟨⟨did', t⟩, hcall, heq⟩ := Option.map_eq_some_iff.1 h
      cases heq
      obtain ⟨hphase', hr'⟩ := call_phase hphase hr hno hlive hcall
      exact ⟨hphase', hr', hno.call hlive hcall⟩
  | uart bs =>
    obtain ⟨⟨ret, w⟩, hstep, heq⟩ := Option.map_eq_some_iff.1 h
    cases heq
    exact hphase.keeps hr hno (keepsPhase_uart hstep)
  | save m =>
    obtain ⟨⟨ret, w⟩, hstep, heq⟩ := Option.map_eq_some_iff.1 h
    cases heq
    exact hphase.keeps hr hno (keepsPhase_save hstep)
  | others d flag =>
    obtain ⟨⟨ret, w⟩, hstep, heq⟩ := Option.map_eq_some_iff.1 h
    cases heq
    exact hphase.keeps hr hno (keepsPhase_others (d := d.withMqtt s.mqtt) rfl hstep)

theorem System.Started.phase (h : s.Started) : SystemPhase P [] s ∧ s.Rests ∧ NoError [] s := by
  refine ⟨.init [] h.netWork h.rebooted rfl, ?_, fun _ _ => List.not_mem_nil⟩
  exact ⟨fun _ => h.netConfig, fun _ => h.activeRouteStep, fun _ => h.route, fun _ => h.cloudLogin,
    fun _ => h.error⟩

theorem didLog_concat {c : Config} (es : List (SystemEvent c × Option Did))
    (e : SystemEvent c × Option Did) : didLog (es ++ [e]) = didLog es ++ e.2.toList := by
  unfold didLog
  rw [List.filterMap_append]
  cases he : e.2 <;> simp [he]

theorem SystemStep.run_phase {es : List (SystemEvent P.comm.config × Option Did)}
    (h : Run (SystemStep P) s es s') (hs : s.Started) :
    SystemPhase P (didLog es) s' ∧ s'.Rests ∧ NoError (didLog es) s' := by
  refine h.inv_trace
    (I := fun es s => SystemPhase P (didLog es) s ∧ s.Rests ∧ NoError (didLog es) s) ?_ hs.phase
  rintro es t e t' ⟨hphase, hr, hno⟩ hstep
  rw [didLog_concat]
  exact hstep.phase hphase hr hno

end

section
variable {P : SystemEnv} {s s' : System} {es : List (SystemEvent P.comm.config × Option Did)}

/-- The last route response of the calls names a broker, and behind it the module has opened a
connection to this broker, which it has acknowledged and not reported as lost since. -/
def Opened (P : SystemEnv) (log : List Did) : Prop :=
  ∃ pre r mid c post rsp broker i, log = pre ++ .route r :: (mid ++ .login c :: post) ∧
    (∀ r', .route r' ∉ mid ++ post) ∧ .normal (some .netDisconnect) ∉ post ∧
    httpMessage P.comm.config.moduleType P.route.decodeRoute (r.rsp i) = some rsp ∧
    rsp.broker = some broker ∧ c.id P.comm.config.moduleType = .mqttOpen ∧
    c.Acknowledged P.comm.config.moduleType ∧
    let x := getAtcmdRspBeforeAfterValue broker.chars (ascii ":")
    c.text P.login P.comm.config.moduleType =
      netCmdMqttOpen P.comm.config.moduleType x.1 (mqttPort x.2)

theorem CameOnline.opened {log : List Did} {q : MqttPara} (h : CameOnline P log q) : Opened P log := by
  obtain ⟨log₁, rets, rfl, ⟨log₂, ls, rfl, ⟨log₃, acts, rs, rfl, -, -, hround⟩, hlogin⟩, hrets⟩ := h
  obtain ⟨rs₁, r, rfl, i, rsp, broker, -, hrsp, hbroker, hlen, haddr, hport, -⟩ := hround.accepted
  -- the step of the login that opens the connection
  have hmem : 8 ∈ ls.map LoginCall.before := by
    rw [hlogin.steps]
    decide
  obtain ⟨c, hc, hbefore⟩ := List.mem_map.1 hmem
  obtain ⟨ls₁, ls₂, rfl⟩ := List.append_of_mem hc
  have hid : c.id P.comm.config.moduleType = .mqttOpen := by
    unfold LoginCall.id
    rw [hbefore]
    cases P.comm.config.moduleType <;> rfl
  have hq : c.device.globalInfo.mqtt = q := hlogin.settings c hc
  refine ⟨log₃ ++ acts ++ rs₁.map .route, r, .fin :: ls₁.map .login, c,
    ls₂.map .login ++ rets.map .normal, rsp, broker, i, ?_, fun r' hr' => ?_, fun hlost => ?_, hrsp,
    hbroker, hid, hlogin.acknowledged c hc (by omega), ?_⟩
  · simp
  · simp at hr'
  · obtain hlost | hlost := List.mem_append.1 hlost
    · simp at hlost
    · obtain ⟨ret, hret, heq⟩ := List.mem_map.1 hlost
      cases heq
      exact hrets _ hret rfl
  · unfold LoginCall.text
    rw [hid]
    unfold loginText
    rw [hq, haddr, hport]
    exact cmdDataBuff_open hlen _

/-! ## A small system -/

/-- The calls of a list of events. -/
def System.exec (P : SystemEnv) (s : System) : List (SystemEvent P.comm.config) →
    Option (List (SystemEvent P.comm.config × Option Did) × System)
  | [] => some ([], s)
  | e :: es =>
    match s.step P e with
    | none => none
    | some (did, t) => (t.exec P es).map fun x => ((e, did) :: x.1, x.2)

theorem System.run_of_exec {xs : List (SystemEvent P.comm.config)}
    (h : s.exec P xs = some (es, s')) : Run (SystemStep P) s es s' := by
  induction xs generalizing s es with
  | nil =>
    cases h
    exact .nil
  | cons e xs ih =>
    unfold System.exec at h
    split at h
    · cases h
    · rename_i did t hstep
      obtain ⟨⟨es', s''⟩, hrest, heq⟩ := Option.map_eq_some_iff.1 h
      cases heq
      exact .cons hstep (ih hrest)

end

theorem zero_notMem_nil : (0 : UInt8) ∉ ([] : List UInt8) := List.not_mem_nil

/-- A cloud that names a broker. -/
def smallSystemEnv : SystemEnv where
  comm := .small queueConfig
  ping := []
  active := ⟨fun _ => [], ⟨[], zero_notMem_nil⟩, fun _ => none, fun _ => none⟩
  route :=
    { decodeRoute := fun s =>
        if s = ascii "route" then some ⟨true, some ⟨ascii "b:1883", by decide⟩, 60, 0⟩ else none
      noPowerOff := false
      urlPack := fun _ => ⟨ascii "url", by decide⟩
      urlPack_lt := fun _ => by decide }
  login := ⟨[], fun _ => ⟨⟨[], zero_notMem_nil⟩, ⟨[], zero_notMem_nil⟩⟩⟩
  check _ _ := true

/-- A device that is activated, at its start. -/
def smallSystem : System where
  work := { Work.reset with comm := { Comm.reset with
    netWork := .init
    device := (Device.reset 0).withMqtt ⟨List.replicate 8 0, 0, 0, 0, 0, 0, [], [], []⟩ } }
  pingSendFlag := true
  netConfig := 0
  activeRouteStep := .check
  active := 0
  route := ⟨0, []⟩
  cloudLogin := 0
  error := ⟨0, 0⟩
  routeRetryTimes := 0

/-- A call in which the module gives the same answer each time. -/
def answered (c : Config) (answer : List UInt8) : SystemEvent c :=
  .call ⟨⟨fun _ => [], 0⟩, fun _ => answer, ⟨0, 0, 0, 0, 0, 0, [], []⟩, true, fun s => s, [], []⟩

/-- The answers up to the subscription. The cards cannot be changed at first. -/
def connectAnswers : List (List UInt8) :=
  List.replicate 10 (ascii "OK\r\n") ++ [[], []] ++
    [ascii "OK\r\n", ascii "+QDSIM: 0\r\nOK\r\n", ascii "+CPIN: READY\r\nOK\r\n",
      ascii "+QCCID: 1\r\nOK\r\n", ascii "+CEREG: 0,1\r\nOK\r\n", ascii "+CGATT: 1\r\nOK\r\n"] ++
    List.replicate 6 (ascii "OK\r\n") ++
    [[], ascii "CONNECT\r\n", ascii "OK\r\n", ascii "OK\r\n",
      ascii "CONNECT\r\nroute\r\nOK\r\n", []] ++
    List.replicate 8 (ascii "OK\r\n") ++
    [ascii "+QMTOPEN: 0,0\r\n", ascii "+QMTCONN: 0,0\r\n", ascii "+QMTSUB: 0,1,0\r\n"]

/-! ## A small system that keeps its connection -/

def keptConfig : Config := { queueConfig with uartRecvCmdSize := 64 }

/-- A server whose messages are all answers to a ping. -/
def keptEnv : SystemEnv :=
  { smallSystemEnv with
    comm := { CommEnv.small keptConfig with
      decoder := { (CommEnv.small keptConfig).decoder with device := fun _ => some ⟨⟨1, 0⟩, 15⟩ } }
    ping := [⟨ascii "ping", [1], by decide, by decide⟩]
    route := { smallSystemEnv.route with noPowerOff := true } }

/-- The small system with the device key `k`. -/
def keptSystem : System :=
  smallSystem.setDevice { smallSystem.device with
    loginInfo := { SysLoginInfo.reset with deviceKey := 107 :: List.replicate 7 0 } }

/-- The module gives the prompt, acknowledges the ping and hands on a message of the server. -/
def keptEvents : List (SystemEvent keptConfig) :=
  let call := answered keptConfig []
  List.replicate 3 call ++ .uart (ascii "\r\n> ") :: List.replicate 2 call ++
    .uart (ascii "+QMTPUBEX: 0,0,0\r\n") :: List.replicate 100 call ++
    .uart (ascii "+QMTRECV:0,0,\"device/pk/k/command/device\",1,\"" ++ [1, 34] ++ ascii "\r\n") ::
      List.replicate 4 call

def Did.isInit : Did → Bool
  | .init _ => true
  | _ => false

/-! ## The connection -/

section
variable {P : SystemEnv} {s : System} {k : Nat}

/-- A call of the waiting. -/
theorem System.step_waits (x : SystemInput P.comm.config) (hn : s.work.comm.netWork = .error)
    (hlive : s.work.rebooted = false) (he : s.error = .behind s.routeRetryTimes k)
    (hk : k < backOff s.routeRetryTimes + 1) : SystemStep P s (.call x, some .error)
      { s with error := .behind s.routeRetryTimes (k + 1) } := by
  have hhandle := errorHandle_behind (Nat.lt_succ_of_lt hk)
  rw [if_neg (Nat.ne_of_lt hk)] at hhandle
  unfold SystemStep System.step
  simp only [hlive, Bool.false_eq_true, if_false]
  rw [System.call_of_ne (by rw [hn]; decide), System.phaseCall_eq_error hn, he, hhandle]
  rfl

/-- The last call of the waiting. -/
theorem System.step_reboots (x : SystemInput P.comm.config) (hn : s.work.comm.netWork = .error)
    (hlive : s.work.rebooted = false)
    (he : s.error = .behind s.routeRetryTimes (backOff s.routeRetryTimes + 1)) :
    ∃ s', SystemStep P s (.call x, some .error) s' ∧ s'.work.rebooted = true := by
  have hhandle := errorHandle_behind (Nat.lt_succ_self (backOff s.routeRetryTimes + 1))
  rw [if_pos rfl] at hhandle
  unfold SystemStep System.step
  simp only [hlive, Bool.false_eq_true, if_false]
  rw [System.call_of_ne (by rw [hn]; decide), System.phaseCall_eq_error hn, he, hhandle]
  exact ⟨_, rfl, rfl⟩

/-- The waiting comes to its last call. -/
theorem System.run_waits (x : SystemInput P.comm.config) (hn : s.work.comm.netWork = .error)
    (hlive : s.work.rebooted = false) (he : s.error = .behind s.routeRetryTimes 0) {n : Nat}
    (hle : n ≤ backOff s.routeRetryTimes + 1) :
    Run (SystemStep P) s (List.replicate n (.call x, some .error))
      { s with error := .behind s.routeRetryTimes n } := by
  induction n with
  | zero =>
    rw [← he]
    exact .nil
  | succ n ih =>
    rw [List.replicate_succ']
    refine (ih (Nat.le_of_succ_le hle)).append (.cons ?_ .nil)
    exact System.step_waits (s := { s with error := .behind s.routeRetryTimes n }) x hn hlive rfl hle

end

section
variable {P : SystemEnv} {s s' : System} {es : List (SystemEvent P.comm.config × Option Did)}

/-- In every run the program is in `NORMAL` only behind a complete connection: the module was attached
to the network, the device was activated, the broker was asked for, the login made its steps in order,
each behind the other, and the connection has not been lost since. It is one to the broker that the
cloud has named. On a board that keeps the connection over a reboot the answer of the server stands for
all this. -/
theorem online_of_normal (h : Run (SystemStep P) s es s') (hs : s.Started)
    (hn : s'.work.comm.netWork = .normal) :
    (∃ q, CameOnline P (didLog es) q) ∧ Opened P (didLog es) ∨ StillKept P (didLog es) := by
  cases (SystemStep.run_phase h hs).1 with
  | normal _ honline =>
    obtain ⟨log₁, rets, hlog, ⟨q, hin⟩ | hponged, hrets⟩ := honline
    · have honline : CameOnline P (didLog es) q := ⟨log₁, rets, hlog, hin, hrets⟩
      exact .inl ⟨⟨q, honline⟩, honline.opened⟩
    · exact .inr ⟨log₁, rets, hlog, hponged, hrets⟩
  | init _ h1 => exact absurd (hn.symm.trans h1) (by decide)
  | netConfig _ _ h1 => exact absurd (hn.symm.trans h1) (by decide)
  | check h1 => exact absurd (hn.symm.trans h1) (by decide)
  | active _ _ h1 => exact absurd (hn.symm.trans h1) (by decide)
  | route _ _ _ _ h1 => exact absurd (hn.symm.trans h1) (by decide)
  | fin h1 => exact absurd (hn.symm.trans h1) (by decide)
  | login _ _ h1 => exact absurd (hn.symm.trans h1) (by decide)
  | error _ _ h1 => exact absurd (hn.symm.trans h1) (by decide)
  | gone h1 =>
    obtain ⟨h1, -⟩ | h1 := h1
    · exact absurd (hn.symm.trans h1) (by decide)
    · exact absurd (hn.symm.trans h1) (by decide)

/-- The small systems get there with the answers above, each in its own way. -/
theorem online_small : (∃ es s', Run (SystemStep smallSystemEnv) smallSystem es s' ∧
    (∃ q, CameOnline smallSystemEnv (didLog es) q) ∧ Opened smallSystemEnv (didLog es)) ∧
      ∃ es s', Run (SystemStep keptEnv) keptSystem es s' ∧ StillKept keptEnv (didLog es) := by
  constructor
  · have h : (smallSystem.exec smallSystemEnv (connectAnswers.map (answered queueConfig))).map
        (fun x => x.2.work.comm.netWork) = some .normal := by decide +kernel
    obtain ⟨⟨es, s'⟩, hx, hn⟩ := Option.map_eq_some_iff.1 h
    have hrun := System.run_of_exec hx
    refine ⟨es, s', hrun, ?_⟩
    obtain honline | ⟨log₁, rets, -, ⟨hpower, -⟩, -⟩ :=
      online_of_normal hrun ⟨rfl, rfl, rfl, rfl, rfl, rfl, rfl⟩ hn
    · exact honline
    · cases hpower
  · have h : (keptSystem.exec keptEnv keptEvents).map
        (fun x => (x.2.work.comm.netWork, (didLog x.1).all Did.isInit)) = some (.normal, true) := by
      decide +kernel
    obtain ⟨⟨es, s'⟩, hx, heq⟩ := Option.map_eq_some_iff.1 h
    obtain ⟨hn, hinit⟩ := Prod.mk.inj heq
    have hrun := System.run_of_exec hx
    refine ⟨es, s', hrun, ?_⟩
    obtain ⟨-, pre, r, mid, c, post, rsp, broker, i, hlog, -⟩ | hkept :=
      online_of_normal hrun ⟨rfl, rfl, rfl, rfl, rfl, rfl, rfl⟩ hn
    · have hroute : Did.route r ∈ didLog es := by
        rw [hlog]
        exact List.mem_append_right pre List.mem_cons_self
      exact absurd (List.all_eq_true.1 hinit _ hroute) nofun
    · exact hkept

/-- The device reboots behind an error when it has waited as long as the failed attempts ask for. -/
theorem backOff_of_reboot {s'' : System} {x : SystemInput P.comm.config} {did : Did}
    (h : Run (SystemStep P) s es s') (hs : s.Started) (hn : s'.work.comm.netWork = .error)
    (hstep : SystemStep P s' (.call x, some did) s'') (hreboot : s''.work.rebooted = true) :
    ∃ pre, .error ∉ pre ∧ didLog (es ++ [(.call x, some did)]) =
      pre ++ List.replicate (backOff s'.routeRetryTimes + 2) .error := by
  obtain ⟨hphase, hr, -⟩ := SystemStep.run_phase h hs
  unfold SystemStep System.step at hstep
  simp only at hstep
  split at hstep
  · cases hstep
  · rename_i hlive
    obtain ⟨⟨did', t⟩, hcall, heq⟩ := Option.map_eq_some_iff.1 hstep
    cases heq
    cases hphase with
    | error pre k h1 h2 h3 h4 h5 =>
      rw [System.call_of_ne (by rw [h1]; decide)] at hcall
      obtain ⟨hlast, -⟩ := call_error hr h1 h2 h3 h4 h5 hcall
      refine ⟨pre, h3, ?_⟩
      rw [didLog_concat]
      exact (hlast hreboot).resolve_left hlive
    | init _ h1 => exact absurd (hn.symm.trans h1) (by decide)
    | netConfig _ _ h1 => exact absurd (hn.symm.trans h1) (by decide)
    | check h1 => exact absurd (hn.symm.trans h1) (by decide)
    | active _ _ h1 => exact absurd (hn.symm.trans h1) (by decide)
    | route _ _ _ _ h1 => exact absurd (hn.symm.trans h1) (by decide)
    | fin h1 => exact absurd (hn.symm.trans h1) (by decide)
    | login _ _ h1 => exact absurd (hn.symm.trans h1) (by decide)
    | normal h1 => exact absurd (hn.symm.trans h1) (by decide)
    | gone h1 =>
      obtain ⟨h1, -⟩ | h1 := h1
      · exact absurd (hn.symm.trans h1) (by decide)
      · exact absurd (hn.symm.trans h1) (by decide)

/-- The small system, when the module answers once and then no more. -/
theorem backOff_small : ∃ es s' pre, Run (SystemStep smallSystemEnv) smallSystem es s' ∧
    s'.work.rebooted = true ∧ .error ∉ pre ∧ didLog es = pre ++ List.replicate 2002 .error := by
  have h : (smallSystem.exec smallSystemEnv
      ((List.replicate 2 (ascii "OK\r\n") ++ List.replicate 6 []).map (answered queueConfig))).map (fun x => (x.2.work.comm.netWork, x.2.work.rebooted, x.2.error,
        x.2.routeRetryTimes)) = some (.error, false, ⟨0, 0⟩, 0) := by
    decide +kernel
  obtain ⟨⟨es, s⟩, hx, heq⟩ := Option.map_eq_some_iff.1 h
  obtain ⟨hn, hlive, he, hretry⟩ : s.work.comm.netWork = .error ∧ s.work.rebooted = false ∧
      s.error = ⟨0, 0⟩ ∧ s.routeRetryTimes = 0 := by
    simpa using heq
  have hfirst : s.error = .behind s.routeRetryTimes 0 := he
  let x : SystemInput queueConfig :=
    ⟨⟨fun _ => [], 0⟩, fun _ => [], ⟨0, 0, 0, 0, 0, 0, [], []⟩, true, fun s => s, [], []⟩
  have hwaits := System.run_waits (P := smallSystemEnv) x hn hlive hfirst (Nat.le_refl _)
  have hrun := (System.run_of_exec hx).append hwaits
  obtain ⟨s'', hstep, hreboot⟩ := System.step_reboots (P := smallSystemEnv) x hn hlive
    (s := { s with error := .behind s.routeRetryTimes (backOff s.routeRetryTimes + 1) }) rfl
  obtain ⟨pre, hno, hlog⟩ :=
    backOff_of_reboot hrun ⟨rfl, rfl, rfl, rfl, rfl, rfl, rfl⟩ hn hstep hreboot
  refine ⟨_, s'', pre, hrun.append (.cons hstep .nil), hreboot, hno, ?_⟩
  rw [hlog, hretry]
  rfl

end

end AppXd.Net4g
