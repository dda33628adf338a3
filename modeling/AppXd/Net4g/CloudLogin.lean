import AppXd.Net4g.Communication
import AppXd.Net4g.RouteProcess

/-!
# Login to the broker

`module_4g_cloud_logIn_process` closes an old connection, configures the client, opens a connection
to the broker, logs in and subscribes. The first two steps may fail. The client's identity and the
password are made by a function that is not part of the repository.
-/

namespace AppXd.Net4g

open CStr (ascii textAt)
open StepTable (Outcome Passed Straight)
open Trace (Run)

/-! ## The commands -/

inductive LoginCmdId
  | mqttDisconnect | mqttNetClose | mqttConfigSendmode | mqttConfigPdp | mqttConfigSession
  | mqttTconfigVersion | mqttConfigTimeout | mqttConfigKeepalive | mqttConfigRecmode | mqttOpen
  | mqttConnect | mqttSubTopic | success | error
  deriving DecidableEq, Repr

section
variable (m : ModuleType)

/-- The rows of `module_4g_cmds` for these commands. -/
def loginCmds : LoginCmdId → AtCmd
  | .mqttDisconnect => ⟨if m.quectel then 1 else 2, netCmdAckOk⟩
  | .mqttNetClose => ⟨1, netCmdAckOk⟩
  | .mqttOpen => ⟨3, if m.quectel then ascii "+QMTOPEN: 0,0" else ascii "+LMQTTOPEN: "⟩
  | .mqttConnect => ⟨3, if m.quectel then ascii "+QMTCONN: 0,0" else ascii "+LMQTTCONN: "⟩
  | .mqttSubTopic =>
    ⟨3, if m.quectel then ascii "+QMTSUB: 0,1,0" else ascii "+LMQTTSUBUNSUB: 0,1,0,1"⟩
  | .success | .error => ⟨0, []⟩
  | _ => ⟨3, netCmdAckOk⟩

/-- The only row in which the families differ. -/
def loginConfigFirst : LoginCmdId := if m.quectel then .mqttConfigPdp else .mqttConfigSendmode

/-- `device_signIn_steps`. -/
def deviceSignInSteps : List (AtStep LoginCmdId) :=
  [⟨.mqttDisconnect, 1, 1⟩, ⟨.mqttNetClose, 2, 2⟩, ⟨loginConfigFirst m, 3, 12⟩,
    ⟨.mqttConfigSession, 4, 12⟩, ⟨.mqttTconfigVersion, 5, 12⟩, ⟨.mqttConfigTimeout, 6, 12⟩,
    ⟨.mqttConfigKeepalive, 7, 12⟩, ⟨.mqttConfigRecmode, 8, 12⟩, ⟨.mqttOpen, 9, 12⟩,
    ⟨.mqttConnect, 10, 12⟩, ⟨.mqttSubTopic, 11, 12⟩, ⟨.success, 11, 11⟩, ⟨.error, 12, 12⟩]

/-- The parameter of a configuration command. -/
def netCmdMqttCfg (para : List UInt8) : List UInt8 :=
  (if m.quectel then ascii "AT+QMTCFG=" else ascii "AT+LMQTTCFG=") ++ para ++ ascii "\r\n"

def netCmdMqttOpen (addr : List UInt8) (port : UInt16) : List UInt8 :=
  (if m.quectel then ascii "AT+QMTOPEN=0,\"" else ascii "AT+LMQTTOPEN=0,\"") ++ addr ++
    ascii "\"," ++ ascii (toString port.toNat) ++ ascii "\r\n"

def netCmdMqttConnect (clientId deviceKey password : List UInt8) : List UInt8 :=
  (if m.quectel then ascii "AT+QMTCONN=0,\"" else ascii "AT+LMQTTCONN=0,\"") ++ clientId ++
    ascii "\",\"" ++ deviceKey ++ ascii "\",\"" ++ password ++ ascii "\"\r\n"

def netCmdMqttSubTopic (productkey deviceKey : List UInt8) : List UInt8 :=
  (if m.quectel then ascii "AT+QMTSUB=0,1,\"/device/" else
    ascii "AT+LMQTTSUBUNSUB=0,0,1,\"/device/") ++
    productkey ++ ascii "/" ++ deviceKey ++ ascii "/#\",1\r\n"

end

/-- What `APP_NETWORK_MqttConnData` leaves: `gSysLoginInfo.clientId` and the password. -/
structure MqttConn where
  clientId : CStr.Text
  password : CStr.Text

/-- What the login uses of other modules. -/
structure LoginEnv where
  pucProductkey : List UInt8
  mqttConnData : Device → MqttConn

/-- What `snprintf` leaves of a text in `cmd_data_buff`. -/
def cmdDataBuff (text : List UInt8) : List UInt8 := text.take 299

section
variable (P : LoginEnv) (m : ModuleType)

/-- The text of a command. -/
def loginText (d : Device) : LoginCmdId → List UInt8
  | .mqttDisconnect => Comm.netCmdMqttDisconnect m
  | .mqttNetClose => if m.quectel then ascii "AT+QMTCLOSE=0\r\n" else ascii "AT+LMQTTCLOSE=0\r\n"
  | .mqttConfigSendmode => netCmdMqttCfg m (ascii "\"send/mode\",0,0")
  | .mqttConfigPdp => netCmdMqttCfg m (ascii "\"pdpcid\",0,1")
  | .mqttConfigSession => netCmdMqttCfg m (ascii "\"session\",0,1")
  | .mqttTconfigVersion => netCmdMqttCfg m (ascii "\"version\",0,4")
  | .mqttConfigTimeout => cmdDataBuff (netCmdMqttCfg m (ascii "\"timeout\",0,60,3,0"))
  | .mqttConfigKeepalive => cmdDataBuff
    (netCmdMqttCfg m (ascii "\"keepalive\",0," ++ ascii (toString d.globalInfo.mqtt.hbInterval)))
  | .mqttConfigRecmode => cmdDataBuff (netCmdMqttCfg m (ascii "\"recv/mode\",0,0,1"))
  | .mqttOpen =>
    cmdDataBuff (netCmdMqttOpen m (textAt d.globalInfo.mqtt.addr 0) d.globalInfo.mqtt.port)
  | .mqttConnect => cmdDataBuff (netCmdMqttConnect m (P.mqttConnData d).clientId.chars
    (textAt d.loginInfo.deviceKey 0) (P.mqttConnData d).password.chars)
  | .mqttSubTopic =>
    cmdDataBuff (netCmdMqttSubTopic m P.pucProductkey (textAt d.loginInfo.deviceKey 0))
  | .success | .error => []

def loginStep (n : Nat) : AtStep LoginCmdId := stepRow (deviceSignInSteps m) .error n

/-- `module_4g_cloud_logIn_process` at the step `n`: its result and the next step. -/
def module4gCloudLogInProcess (n : Nat) (rsp : AtRsp) : ProcessRet × Nat :=
  if (deviceSignInSteps m).length ≤ n then (.error, n)
  else
    let x := atCmdSendCheck (loginCmds m (loginStep m n).id) none rsp ()
    stepJump (deviceSignInSteps m) .success .error n x.1

end

/-- One call, with what it finds and what the module answers. -/
structure LoginCall where
  before : Nat
  device : Device
  rsp : AtRsp

section
variable (P : LoginEnv) (m : ModuleType)

namespace LoginCall

variable (c : LoginCall)

def id : LoginCmdId := (loginStep m c.before).id

def ok : Bool := (atCmdSendCheck (loginCmds m (c.id m)) none c.rsp ()).1

def ret : ProcessRet := (module4gCloudLogInProcess m c.before c.rsp).1

def after : Nat := (module4gCloudLogInProcess m c.before c.rsp).2

/-- The text that is sent. -/
def text : List UInt8 := loginText P m c.device (c.id m)

def outcome : Outcome := stepOutcome (c.ret m, c.after m)

/-- One of the answers has the text that the command waits for. -/
def Acknowledged : Prop := ∃ i < (loginCmds m (c.id m)).retryTimes,
  (Seq.firstAt (loginCmds m (c.id m)).ack (textAt (c.rsp i) 0)).isSome

end LoginCall

def LoginStep (n : Nat) (c : LoginCall) (n' : Nat) : Prop := c.before = n ∧ c.after m = n'

/-- The steps that may not fail. -/
def loginStrict (n : Nat) : Bool := decide (2 ≤ n)

/-- A round of the login with the settings `q`: the steps have been made in order, and from the third
one on the module has acknowledged each command. -/
structure LoginRound (cs : List LoginCall) (q : MqttPara) : Prop where
  steps : cs.map LoginCall.before = List.range 11
  acknowledged : ∀ c ∈ cs, 2 ≤ c.before → c.Acknowledged m
  settings : ∀ c ∈ cs, c.device.globalInfo.mqtt = q

end

section
variable {m : ModuleType} {c : LoginCall} {cs : List LoginCall} {n : Nat} {q : MqttPara}

/-! ## One call -/

theorem deviceSignInSteps_straight (m : ModuleType) :
    StraightTable (deviceSignInSteps m) .success .error 11 loginStrict := by
  cases m <;> decide

theorem LoginCall.call_eq (hc : c.before < 11) : (c.ret m, c.after m) =
    stepJump (deviceSignInSteps m) .success .error c.before (c.ok m) := by
  have hlt := Nat.lt_trans hc (deviceSignInSteps_straight m).2.1
  unfold LoginCall.ret LoginCall.after module4gCloudLogInProcess
  rw [if_neg (Nat.not_le.2 hlt)]
  rfl

/-- A round that ends begins anew. -/
theorem LoginCall.after_zero (hc : c.before < 11) (hne : c.ret m ≠ .wait) : c.after m = 0 := by
  have heq := LoginCall.call_eq (m := m) hc
  have hret : c.ret m = (stepJump (deviceSignInSteps m) .success .error c.before (c.ok m)).1 :=
    congrArg Prod.fst heq
  have hstep : c.after m = (stepJump (deviceSignInSteps m) .success .error c.before (c.ok m)).2 :=
    congrArg Prod.snd heq
  rw [hstep]
  exact stepJump_zero (hret ▸ hne)

theorem login_straight : Straight 11 loginStrict LoginCall.before (LoginCall.ok m)
    (LoginCall.outcome m) := by
  obtain ⟨hpos, -, htable⟩ := deviceSignInSteps_straight m
  refine ⟨hpos, fun c hc => ?_⟩
  unfold LoginCall.outcome
  rw [LoginCall.call_eq hc]
  exact htable _ hc _

theorem LoginCall.outcome_after (hc : c.before < 11) : (c.outcome m).after = c.after m := by
  have heq := LoginCall.call_eq (m := m) hc
  unfold LoginCall.outcome
  rw [heq, stepOutcome_after, ← heq]

/-- Without a callback a command succeeds when the module acknowledges it. -/
theorem atCmdSendCheck_none_iff {σ : Type} {cmd : AtCmd} {rsp : AtRsp} {s : σ} :
    (atCmdSendCheck cmd none rsp s).1 = true ↔ ∃ i < cmd.retryTimes,
      0 < (rsp i).length ∧ (Seq.firstAt cmd.ack (textAt (rsp i) 0)).isSome := by
  suffices H : ∀ n j, (atCmdSendLoop cmd.ack none rsp n j s).1 = true ↔ ∃ i, j ≤ i ∧ i < j + n ∧
      0 < (rsp i).length ∧ (Seq.firstAt cmd.ack (textAt (rsp i) 0)).isSome by
    refine (H cmd.retryTimes 0).trans ⟨?_, ?_⟩
    · rintro ⟨i, -, hi, hack⟩
      exact ⟨i, by omega, hack⟩
    · rintro ⟨i, hi, hack⟩
      exact ⟨i, Nat.zero_le i, by omega, hack⟩
  intro n
  induction n with
  | zero => exact fun j => iff_of_false Bool.false_ne_true fun ⟨i, h1, h2, _⟩ => by omega
  | succ n ih =>
    intro j
    rw [atCmdSendLoop]
    split
    · rename_i hack
      exact iff_of_true rfl ⟨j, Nat.le_refl j, by omega, hack⟩
    · rename_i hack
      rw [ih]
      constructor
      · rintro ⟨i, h1, h2, h⟩
        exact ⟨i, by omega, by omega, h⟩
      · rintro ⟨i, h1, h2, h⟩
        have hne : i ≠ j := by
          rintro rfl
          exact hack h
        exact ⟨i, by omega, by omega, h⟩

theorem loginCmds_ack (m : ModuleType) (id : LoginCmdId) :
    (loginCmds m id).retryTimes = 0 ∨ (loginCmds m id).ack ≠ [] := by
  cases m <;> cases id <;> decide

theorem LoginCall.ok_iff : c.ok m = true ↔ c.Acknowledged m := by
  unfold LoginCall.ok
  rw [atCmdSendCheck_none_iff]
  refine exists_congr fun i => and_congr_right fun hi => ⟨fun h => h.2, fun h => ⟨?_, h⟩⟩
  -- an empty answer has no text that a command waits for
  rw [List.length_pos_iff]
  intro hnil
  rw [hnil] at h
  obtain ⟨k, hk⟩ := Option.isSome_iff_exists.1 h
  have hack := (loginCmds_ack m (c.id m)).resolve_left (Nat.ne_zero_of_lt hi)
  have hpos := List.length_pos_of_ne_nil hack
  have hle : k + (loginCmds m (c.id m)).ack.length ≤ 0 := Seq.firstAt_le_length hk hack
  omega

theorem LoginCall.outcome_wait (h : c.ret m = .wait) : c.outcome m = .next (c.after m) := by
  unfold LoginCall.outcome
  rw [h]
  rfl

/-- The address and the port fit in the buffer of the command. -/
theorem cmdDataBuff_open {addr : List UInt8} (haddr : addr.length < 32) (port : UInt16) :
    cmdDataBuff (netCmdMqttOpen m addr port) = netCmdMqttOpen m addr port := by
  have hport : (ascii (toString port.toNat)).length ≤ 5 := by
    have hdigits : (Nat.toDigits 10 port.toNat).length ≤ 5 :=
      (Nat.length_toDigits_le_iff (by decide) (by decide)).2
        (Nat.lt_trans port.toNat_lt (by decide))
    rwa [ascii, List.length_map, Nat.toString_eq_ofList_toDigits, String.toList_ofList]
  refine List.take_of_length_le ?_
  unfold netCmdMqttOpen
  simp only [List.length_append]
  have hhead : (if m.quectel then ascii "AT+QMTOPEN=0,\"" else
      ascii "AT+LMQTTOPEN=0,\"").length ≤ 16 := by
    cases m <;> decide
  have hcomma : (ascii "\",").length = 2 := by decide
  have htail : (ascii "\r\n").length = 2 := by decide
  omega

/-! ## Runs -/

theorem LoginStep.run_steps (h : Run (LoginStep m) 0 cs n) :
    Run (StepTable.Step LoginCall.before (LoginCall.outcome m)) 0 cs n := by
  have hstep : ∀ (n : Nat) (c : LoginCall) (n' : Nat), LoginStep m n c n' → id n < 11 →
      c.before = id n ∧ (LoginCall.outcome m c).after = id n' := by
    rintro n c n' ⟨rfl, rfl⟩ hn
    exact ⟨rfl, LoginCall.outcome_after hn⟩
  exact login_straight.run_steps hstep h (by decide)

theorem Passed.acknowledged {k : Nat}
    (h : Passed loginStrict LoginCall.before (LoginCall.ok m) k cs) (hc : c ∈ cs)
    (hle : 2 ≤ c.before) : c.Acknowledged m :=
  LoginCall.ok_iff.1 (h.strict c hc (decide_eq_true hle))

/-- Calls that wait, from step 0 on, and a call that is done behind them are a round. -/
theorem login_round (h : Run (LoginStep m) 0 cs n) (hwait : ∀ c ∈ cs, c.ret m = .wait)
    (hc : c.before = n) (hdone : c.ret m = .done)
    (hq : ∀ c' ∈ cs ++ [c], c'.device.globalInfo.mqtt = q) : LoginRound m (cs ++ [c]) q := by
  subst hc
  have hsteps := LoginStep.run_steps h
  have hpassed := login_straight.run_waits hsteps fun c' hc' =>
    ⟨_, LoginCall.outcome_wait (hwait c' hc')⟩
  have hout : c.outcome m = .done := by
    unfold LoginCall.outcome
    rw [hdone]
    rfl
  obtain ⟨heq, -⟩ | ⟨-, hlast, hok⟩ | ⟨heq, -⟩ := login_straight.cases (login_straight.run hsteps).1
  · rw [hout] at heq
    cases heq
  · have hround := hpassed.snoc rfl hok
    rw [hlast] at hround
    exact ⟨hround.steps, fun c' hc' => Passed.acknowledged hround hc', hq⟩
  · rw [hout] at heq
    cases heq

/-- What a sequence of calls does. A login ends well behind a complete round only, and badly at a
command that the module has not acknowledged; and it ends within eleven calls. -/
structure LoginRounds (m : ModuleType) (cs : List LoginCall) : Prop where
  done : ∀ cs₁ c cs₂, cs = cs₁ ++ c :: cs₂ → c.ret m = .done → ∃ pre round,
    cs₁ ++ [c] = pre ++ round ∧ round.map LoginCall.before = List.range 11 ∧
      ∀ c' ∈ round, 2 ≤ c'.before → c'.Acknowledged m
  failed : ∀ cs₁ c cs₂, cs = cs₁ ++ c :: cs₂ → c.ret m = .error → 2 ≤ c.before ∧
    ¬ c.Acknowledged m ∧ ∃ pre round, cs₁ = pre ++ round ∧
      round.map LoginCall.before = List.range c.before ∧
        ∀ c' ∈ round, 2 ≤ c'.before → c'.Acknowledged m
  ends : ∀ cs₁ cs₂ cs₃, cs = cs₁ ++ (cs₂ ++ cs₃) → (∀ c ∈ cs₂, c.ret m = .wait) → cs₂.length < 11

/-- In every run the login ends as it should. -/
theorem login_rounds {m : ModuleType} {cs : List LoginCall} {n : Nat}
    (h : Run (LoginStep m) 0 cs n) : LoginRounds m cs := by
  have hsteps := LoginStep.run_steps h
  constructor
  · rintro cs₁ c cs₂ rfl hdone
    have hout : c.outcome m = .done := by
      unfold LoginCall.outcome
      rw [hdone]
      rfl
    obtain ⟨pre, round, heq, hround⟩ := login_straight.run_done hsteps hout
    exact ⟨pre, round, heq, hround.steps, fun c' hc' => Passed.acknowledged hround hc'⟩
  · rintro cs₁ c cs₂ rfl herr
    have hout : c.outcome m = .failed := by
      unfold LoginCall.outcome
      rw [herr]
      rfl
    obtain ⟨⟨pre, round, heq, hround⟩, hstrict, hok⟩ := login_straight.run_failed hsteps hout
    refine ⟨of_decide_eq_true hstrict, fun hack => ?_, pre, round, heq, hround.steps,
      fun c' hc' => Passed.acknowledged hround hc'⟩
    rw [LoginCall.ok_iff.2 hack] at hok
    cases hok
  · rintro cs₁ cs₂ cs₃ rfl hwait
    rw [← List.append_assoc] at hsteps
    obtain ⟨n', hprefix, -⟩ := Trace.run_append_iff.1 hsteps
    exact login_straight.length_lt hprefix fun c hc => ⟨_, LoginCall.outcome_wait (hwait c hc)⟩

/-- Two calls in which the module answers `OK`, and one without an answer. -/
def refusedCalls : List LoginCall :=
  [⟨0, .reset 0, fun _ => ascii "OK\r\n"⟩, ⟨1, .reset 0, fun _ => ascii "OK\r\n"⟩,
    ⟨2, .reset 0, fun _ => []⟩]

theorem login_rounds_refused : LoginRounds .nt26e refusedCalls :=
  login_rounds (n := 0) (.cons ⟨rfl, rfl⟩ (.cons ⟨rfl, rfl⟩ (.cons ⟨rfl, rfl⟩ .nil)))

end

end AppXd.Net4g
