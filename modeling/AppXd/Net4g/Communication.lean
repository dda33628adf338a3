import AppXd.Net4g.Link
import AppXd.Net4g.NetConfig
import AppXd.Net4g.RspAnalyze
import AppXd.Net4g.SendData

/-!
# The communication step

`module4gCommunicationProcess` is called again and again while the device is online. A call first
receives, then either takes a command from the queue, or begins to publish, or goes on with a
publish that has begun. The messages that a report puts into the publish queue, and the value that
`RspAnalyze` returns where it ends without one, come with the call; the node events and the lamp are
left out.
-/

namespace AppXd.Net4g

open CStr (ascii strcmp textAt)

/-- What the program is built with. `decrypt` gives the contents of `g_payload` after the
decryption of that many bytes with the key. -/
structure CommEnv where
  config : Config
  board : Board
  decoder : Decoder board
  decrypt : List UInt8 → Nat → List UInt8 → List UInt8
  sendCmdSize : Nat

/-- The state of the communication: `gNet4g_dataStruct`, the fields of `net4G_process_steps` and the
`static` variables that a call uses, the callback's registration with the bytes that the driver has
received, and the writes made so far. -/
structure Comm where
  recv : Recv
  info : SignalInfo
  send : Send
  proc : SendProcess
  device : Device
  netWork : NetworkWorkStep
  communicateStep : Nat
  getCellInfoStep : Nat
  getCellInfoFlag : Bool
  otaStartDelayTime : UInt32
  lendTimeoutWaitTime : UInt32
  registered : Bool
  uart : List UInt8
  writes : List Write

/-- The values that `module_4g_communication_process` returns. -/
inductive CommRet
  | wait | netDisconnect | netTypeWifi
  deriving DecidableEq, Repr

/-- What a call meets: the messages that each report saves, and the value that is found where a
function returns none. -/
structure CallInput (c : Config) where
  reports : Publication → List (PubMsg c)
  garbage : Nat

namespace Comm

section
variable (c : Config) (s : Comm)

/-- Messages are saved one after the other. -/
def save (ms : List (PubMsg c)) : Comm :=
  { s with
    send := ms.foldl (fun q m => savePubMsgToQueue c q m.topic m.payload m.payload.length) s.send }

def write (w : Write) : Comm := { s with writes := s.writes ++ [w] }

/-- The driver has received `bs`. Without a callback it keeps them. -/
def deliver (bs : List UInt8) : Comm :=
  if s.registered then
    let (fifo, uart) := net4gUartRecvCb c s.recv.fifo (s.uart ++ bs) bs.length
    { s with recv := { s.recv with fifo := fifo }, uart := uart }
  else { s with uart := s.uart ++ bs }

end

variable (E : CommEnv) (s : Comm)

/-- The call of `get_net4G_recv_cmd`. -/
def received : GetRecvRet := getNet4GRecvCmd E.config s.recv s.info

def afterReceive (x : CallInput E.config) : Comm :=
  { s with recv := (s.received E).recv, info := (s.received E).info }.save E.config
    ((List.replicate (s.received E).gsmPubs (Publication.gsmData 0 0)).flatMap x.reports)

def netCmdMqttDisconnect (m : ModuleType) : List UInt8 :=
  if m.quectel then ascii "AT+QMTDISC=0\r\n" else ascii "AT+LMQTTDISC=0\r\n"

/-- The countdown to a download that a message has ordered. A lent slot holds it up. -/
def otaWait (x : CallInput E.config) : Comm :=
  if s.device.otaPara.otaFlag = 1 then
    if 0 < s.device.globalInfo.batLendingFlag then
      if 6000 ≤ s.lendTimeoutWaitTime then
        { s with
          lendTimeoutWaitTime := 0
          device := { s.device with
            globalInfo := { s.device.globalInfo with batLendingFlag := 0 } } }
      else { s with lendTimeoutWaitTime := s.lendTimeoutWaitTime + 1 }
    else
      let s :=
        if s.otaStartDelayTime = 500 then s.save E.config (x.reports (.deviceVersion 0 29))
        else if s.otaStartDelayTime = 1500 then
          s.write ⟨.other, netCmdMqttDisconnect E.config.moduleType⟩
        else if s.otaStartDelayTime = 5000 then { s with otaStartDelayTime := 0, netWork := .ota }
        else s
      { s with otaStartDelayTime := s.otaStartDelayTime + 1 }
  else s

/-! ## Step 1 -/

/-- `net4g_get_cell_info_config_command_steps`. -/
def getCellInfoSteps (m : ModuleType) : List (AtStep AtCmdId) :=
  [⟨if m.quectel then .getQengServingcell else .getCell, 1, 1⟩, ⟨.getRssi, 2, 3⟩, ⟨.success, 2, 2⟩,
    ⟨.error, 3, 3⟩]

/-- The commands of these steps, which are sent without waiting for an answer. -/
def getCellInfoCmd (m : ModuleType) : AtCmdId → List UInt8
  | .getRssi => ascii "AT+CSQ\r\n"
  | _ => if m.quectel then ascii "AT+QENG=\"servingcell\"\r\n" else ascii "AT+LCELL?\r\n"

/-- `module_4g_get_cell_info_process`. -/
def getCellInfoProcess (m : ModuleType) : Comm :=
  match (getCellInfoSteps m)[s.getCellInfoStep]? with
  | none => s
  | some step =>
    let s := s.write ⟨.other, getCellInfoCmd m step.id⟩
    match (getCellInfoSteps m)[step.sJump]?.map AtStep.id with
    | some .success | some .error => { s with getCellInfoStep := 0, getCellInfoFlag := false }
    | _ => { s with getCellInfoStep := step.sJump }

/-- The entry at the head of the command queue, which `strtok` cuts in place. -/
def headCmd : CmdQ := s.recv.cmdQ s.recv.qHead

def takeCmd (buf : List UInt8) : Comm :=
  { s with recv := { s.recv with
      cmdQ := Ring.poke s.recv.cmdQ s.recv.qHead ⟨buf, s.headCmd.qLen⟩
      qHead := (s.recv.qHead + 1) % E.config.uartRecvQueuSize } }

/-- The messages that the handling of a command has published. -/
def published (before after : Device) : List Publication :=
  (after.log.drop before.log.length).filterMap fun
    | .publish p => some p
    | _ => none

/-- The decryption and `RspAnalyze`: the value of `pb_parse_ret`. Nothing where the last byte of an
empty plaintext is read, or where `RspAnalyze` itself leaves what C defines. -/
def analyze (x : CallInput E.config) (i : DecryptInput) : Option (Nat × Comm) :=
  if i.len = 0 then none
  else
    let payload := E.decrypt i.data i.len s.device.globalInfo.mqtt.secretKey
    let pkcsLen := (payload.getD (i.len - 1) 0).toNat
    if pkcsLen ≤ i.len then
      let pbdata := payload.take (if pkcsLen < 100 then i.len - pkcsLen else i.len)
      match rspAnalyze s.netWork s.device E.decoder i.topic pbdata with
      | none => none
      | some none => some (x.garbage % 256, s)
      | some (some r) =>
        some (r.ret, { s with device := r.device }.save E.config
          ((published s.device r.device).flatMap x.reports))
    else some (0, s)

/-- Whether the settings ask for the other network after a command. -/
def commandRet (pbParseRet : Nat) (wifi : WifiInfo) : CommRet :=
  if pbParseRet ∈ [1, 3, 4, 7, 8, 9] ∧ wifi.wifiConfigFlag = 0xAA ∧ wifi.wifiEnableFlag = 1 ∧
      textAt wifi.ssid 0 ≠ [] then .netTypeWifi
  else .wait

/-- The command at the head of the queue. -/
def handleCmd (x : CallInput E.config) : Option (CommRet × Comm) :=
  let m := E.config.moduleType
  match getAtRspKeywordsPb s.headCmd.qData (netMqttCtrlCmdHead m) (topicKeyNum m) with
  | none => none
  | some (k, buf) =>
    if k.ret then
      match s.analyze E x k.decryptInput with
      | none => none
      | some (pbParseRet, s) =>
        some (commandRet pbParseRet s.device.sysInfo.wifi, s.takeCmd E buf)
    else
      let s := s.takeCmd E buf
      if strcmp (textAt buf 0) (netMqttDisconnectCmdHead m) = 0 then
        some (.netDisconnect, { s with communicateStep := 0 })
      else some (.wait, s)

def recvStep (x : CallInput E.config) : Option (CommRet × Comm) :=
  if s.recv.qHead ≠ s.recv.qTail then s.handleCmd E x
  else if getPubMsgFlag s.send then some (.wait, { s with communicateStep := 2 })
  else if s.getCellInfoFlag then some (.wait, s.getCellInfoProcess E.config.moduleType)
  else some (.wait, s)

/-! ## Step 2 -/

/-- The call of `net4g_send_data_process`. -/
def sendData : SendDataRet :=
  net4gSendDataProcess
    (netCmdMqttPubMsg E.config.moduleType E.sendCmdSize E.board.pucProductkey
      s.device.loginInfo.deviceKey)
    (s.netWork = .init) s.send s.proc s.recv

theorem sendData_outcome : SendDataOutcome
    (netCmdMqttPubMsg E.config.moduleType E.sendCmdSize E.board.pucProductkey
      s.device.loginInfo.deviceKey) s.send s.proc s.recv (s.sendData E) :=
  AppXd.Net4g.sendData_outcome

def afterSend : Comm :=
  { s with
    proc := (s.sendData E).proc
    recv := (s.sendData E).recv
    writes := s.writes ++ (s.sendData E).write.toList }

def pubStep : CommRet × Comm :=
  let s' := s.afterSend E
  if (s.sendData E).ret = 1 then
    (.wait, { s' with send := resetPubMsgQueue E.config s'.send, communicateStep := 1 })
  else if (s.sendData E).ret = 2 then (.netDisconnect, { s' with communicateStep := 0 })
  else (.wait, s')

/-- The switch on `communicateStep`. -/
def switch (x : CallInput E.config) : Option (CommRet × Comm) :=
  match s.communicateStep with
  | 0 => some (.wait, { s with registered := true, communicateStep := 1 })
  | 1 => s.recvStep E x
  | 2 => some (s.pubStep E)
  | _ => some (.wait, s)

/-- The state in which a call enters the switch. -/
def entered (x : CallInput E.config) : Comm := (s.afterReceive E x).otaWait E x

end Comm

/-- `module_4g_communication_process`, with its return value. Nothing where the call leaves what C
defines. -/
def module4gCommunicationProcess (E : CommEnv) (x : CallInput E.config) (s : Comm) :
    Option (CommRet × Comm) :=
  if (s.received E).ret = 10 then
    some (.netDisconnect, { s.afterReceive E x with communicateStep := 0 })
  else (s.entered E x).switch E x

/-! ## What the parts of a call leave alone -/

namespace Comm

section
variable {c : Config} (s : Comm)

/-- A delivery reaches only the FIFO and the driver's bytes. -/
theorem deliver_eq (c : Config) (s : Comm) (bs : List UInt8) :
    ∃ f u, s.deliver c bs = { s with recv := { s.recv with fifo := f }, uart := u } := by
  unfold deliver
  split
  · exact ⟨_, _, rfl⟩
  · exact ⟨_, _, rfl⟩

end

section
variable {E : CommEnv} {s : Comm} {x : CallInput E.config}

/-- The report that the countdown saves. -/
def otaReports (E : CommEnv) (s : Comm) (x : CallInput E.config) : List (PubMsg E.config) :=
  if s.device.otaPara.otaFlag = 1 ∧ ¬ 0 < s.device.globalInfo.batLendingFlag ∧
      s.otaStartDelayTime = 500 then x.reports (.deviceVersion 0 29)
  else []

/-- The countdown saves its report, may write the disconnect command, and touches neither the
reception nor the publish that has begun. -/
structure Waited (E : CommEnv) (s : Comm) (x : CallInput E.config) (t : Comm) : Prop where
  recv : t.recv = s.recv
  proc : t.proc = s.proc
  communicateStep : t.communicateStep = s.communicateStep
  registered : t.registered = s.registered
  uart : t.uart = s.uart
  netWork : t.netWork = s.netWork ∨ t.netWork = .ota
  send : t.send = (s.save E.config (s.otaReports E x)).send
  writes : t.writes = s.writes ∨
    t.writes = s.writes ++ [⟨.other, netCmdMqttDisconnect E.config.moduleType⟩]

theorem otaWait_waited : Waited E s x (s.otaWait E x) := by
  unfold otaWait
  by_cases hflag : s.device.otaPara.otaFlag = 1
  · by_cases hlend : 0 < s.device.globalInfo.batLendingFlag
    · have hnone : s.otaReports E x = [] := if_neg fun h => h.2.1 hlend
      rw [if_pos hflag, if_pos hlend]
      split <;> exact ⟨rfl, rfl, rfl, rfl, rfl, .inl rfl, by rw [hnone]; rfl, .inl rfl⟩
    · rw [if_pos hflag, if_neg hlend]
      by_cases h500 : s.otaStartDelayTime = 500
      · have hsome : s.otaReports E x = x.reports (.deviceVersion 0 29) :=
          if_pos ⟨hflag, hlend, h500⟩
        simp only [if_pos h500]
        exact ⟨rfl, rfl, rfl, rfl, rfl, .inl rfl, by rw [hsome], .inl rfl⟩
      · have hnone : s.otaReports E x = [] := if_neg fun h => h500 h.2.2
        simp only [if_neg h500]
        split
        · exact ⟨rfl, rfl, rfl, rfl, rfl, .inl rfl, by rw [hnone]; rfl, .inr rfl⟩
        split
        · exact ⟨rfl, rfl, rfl, rfl, rfl, .inr rfl, by rw [hnone]; rfl, .inl rfl⟩
        · exact ⟨rfl, rfl, rfl, rfl, rfl, .inl rfl, by rw [hnone]; rfl, .inl rfl⟩
  · have hnone : s.otaReports E x = [] := if_neg fun h => hflag h.1
    rw [if_neg hflag]
    exact ⟨rfl, rfl, rfl, rfl, rfl, .inl rfl, by rw [hnone]; rfl, .inl rfl⟩

theorem entered_waited : Waited E (s.afterReceive E x) x (s.entered E x) := otaWait_waited

@[simp] theorem entered_recv : (s.entered E x).recv = (s.received E).recv := entered_waited.recv

/-- The query of the cell writes a command and counts its steps. -/
theorem getCellInfoProcess_eq (s : Comm) (m : ModuleType) : ∃ ws i flag,
    s.getCellInfoProcess m =
        { s with writes := ws, getCellInfoStep := i, getCellInfoFlag := flag } ∧
      (ws = s.writes ∨ ∃ bs, ws = s.writes ++ [⟨.other, bs⟩]) := by
  unfold getCellInfoProcess
  split
  · exact ⟨_, _, _, rfl, .inl rfl⟩
  · simp only
    split <;> exact ⟨_, _, _, rfl, .inr ⟨_, rfl⟩⟩

/-- The handling of a command changes the device and saves reports. -/
theorem analyze_eq {i : DecryptInput} {n : Nat} {t : Comm} (h : s.analyze E x i = some (n, t)) :
    ∃ d ms, t = { s with device := d }.save E.config ms := by
  unfold analyze at h
  split at h
  · cases h
  simp only at h
  split at h
  · split at h
    · cases h
    · cases h
      exact ⟨s.device, [], rfl⟩
    · cases h
      exact ⟨_, _, rfl⟩
  · cases h
    exact ⟨s.device, [], rfl⟩

end

/-! ## The outcomes of a call -/

/-- The fields that `get_at_rsp_keywords_pb` finds in the command at the head of the queue, and what
`strtok` leaves of it. -/
def headFields (E : CommEnv) (s : Comm) : Option (PbKeywords × List UInt8) :=
  getAtRspKeywordsPb s.headCmd.qData (netMqttCtrlCmdHead E.config.moduleType)
    (topicKeyNum E.config.moduleType)

/-- The rest of the command is the head of a disconnect notice. -/
def ToldDisconnect (m : ModuleType) (buf : List UInt8) : Prop :=
  strcmp (textAt buf 0) (netMqttDisconnectCmdHead m) = 0

inductive CallOutcome (E : CommEnv) (s : Comm) (x : CallInput E.config) : CommRet → Comm → Prop
  | notice : (s.received E).ret = 10 →
    CallOutcome E s x .netDisconnect { s.afterReceive E x with communicateStep := 0 }
  | register : (s.received E).ret ≠ 10 → s.communicateStep = 0 →
    CallOutcome E s x .wait { s.entered E x with registered := true, communicateStep := 1 }
  | command (k : PbKeywords) (buf : List UInt8) (n : Nat) (t : Comm) : (s.received E).ret ≠ 10 →
    s.communicateStep = 1 → (s.entered E x).recv.qHead ≠ (s.entered E x).recv.qTail →
    headFields E (s.entered E x) = some (k, buf) → k.ret = true →
    (s.entered E x).analyze E x k.decryptInput = some (n, t) →
    CallOutcome E s x (commandRet n t.device.sysInfo.wifi) (t.takeCmd E buf)
  | unknown (k : PbKeywords) (buf : List UInt8) : (s.received E).ret ≠ 10 →
    s.communicateStep = 1 → (s.entered E x).recv.qHead ≠ (s.entered E x).recv.qTail →
    headFields E (s.entered E x) = some (k, buf) → k.ret = false →
    ¬ ToldDisconnect E.config.moduleType buf →
    CallOutcome E s x .wait ((s.entered E x).takeCmd E buf)
  | disconnect (k : PbKeywords) (buf : List UInt8) : (s.received E).ret ≠ 10 →
    s.communicateStep = 1 → (s.entered E x).recv.qHead ≠ (s.entered E x).recv.qTail →
    headFields E (s.entered E x) = some (k, buf) → k.ret = false →
    ToldDisconnect E.config.moduleType buf →
    CallOutcome E s x .netDisconnect { (s.entered E x).takeCmd E buf with communicateStep := 0 }
  | publish : (s.received E).ret ≠ 10 → s.communicateStep = 1 →
    (s.entered E x).recv.qHead = (s.entered E x).recv.qTail →
    getPubMsgFlag (s.entered E x).send = true →
    CallOutcome E s x .wait { s.entered E x with communicateStep := 2 }
  | cellInfo : (s.received E).ret ≠ 10 → s.communicateStep = 1 →
    (s.entered E x).recv.qHead = (s.entered E x).recv.qTail →
    getPubMsgFlag (s.entered E x).send = false →
    CallOutcome E s x .wait ((s.entered E x).getCellInfoProcess E.config.moduleType)
  | idle : (s.received E).ret ≠ 10 →
    (s.communicateStep = 1 → (s.entered E x).recv.qHead = (s.entered E x).recv.qTail ∧
      getPubMsgFlag (s.entered E x).send = false) → s.communicateStep ≠ 0 →
    s.communicateStep ≠ 2 → CallOutcome E s x .wait (s.entered E x)
  | published : (s.received E).ret ≠ 10 → s.communicateStep = 2 →
    ((s.entered E x).sendData E).ret = 1 →
    CallOutcome E s x .wait { (s.entered E x).afterSend E with
      send := resetPubMsgQueue E.config (s.entered E x).send, communicateStep := 1 }
  | failed : (s.received E).ret ≠ 10 → s.communicateStep = 2 →
    ((s.entered E x).sendData E).ret = 2 →
    CallOutcome E s x .netDisconnect { (s.entered E x).afterSend E with communicateStep := 0 }
  | publishing : (s.received E).ret ≠ 10 → s.communicateStep = 2 →
    ((s.entered E x).sendData E).ret ≠ 1 → ((s.entered E x).sendData E).ret ≠ 2 →
    CallOutcome E s x .wait ((s.entered E x).afterSend E)

section
variable {E : CommEnv} {s s' : Comm} {x : CallInput E.config} {ret : CommRet}

theorem handleCmd_outcome (h10 : (s.received E).ret ≠ 10) (h1 : s.communicateStep = 1)
    (hne : (s.entered E x).recv.qHead ≠ (s.entered E x).recv.qTail)
    (h : (s.entered E x).handleCmd E x = some (ret, s')) : CallOutcome E s x ret s' := by
  unfold handleCmd at h
  simp only at h
  split at h
  · cases h
  rename_i k buf hfields
  cases hk : k.ret with
  | true =>
    rw [hk, if_pos rfl] at h
    split at h
    · cases h
    rename_i n t hana
    cases h
    exact .command k buf n t h10 h1 hne hfields hk hana
  | false =>
    rw [hk, if_neg Bool.false_ne_true] at h
    split at h
    · cases h
      exact .disconnect k buf h10 h1 hne hfields hk ‹_›
    · cases h
      exact .unknown k buf h10 h1 hne hfields hk ‹_›

/-- Every call has one of the outcomes. -/
theorem call_outcome (h : module4gCommunicationProcess E x s = some (ret, s')) :
    CallOutcome E s x ret s' := by
  unfold module4gCommunicationProcess at h
  have hstep : (s.entered E x).communicateStep = s.communicateStep :=
    entered_waited.communicateStep
  split at h
  · cases h
    exact .notice ‹_›
  rename_i h10
  unfold switch at h
  split at h
  · rename_i h0
    cases h
    exact .register h10 (hstep ▸ h0)
  · rename_i h1
    rw [hstep] at h1
    unfold recvStep at h
    split at h
    · exact handleCmd_outcome h10 h1 ‹_› h
    rename_i heq
    have heq := Decidable.not_not.1 heq
    split at h
    · cases h
      exact .publish h10 h1 heq ‹_›
    rename_i hflag
    have hflag := Bool.eq_false_iff.2 hflag
    split at h
    · cases h
      exact .cellInfo h10 h1 heq hflag
    · cases h
      exact .idle h10 (fun _ => ⟨heq, hflag⟩) (by rw [h1]; decide) (by rw [h1]; decide)
  · rename_i h2
    rw [hstep] at h2
    unfold pubStep at h
    simp only at h
    split at h
    · cases h
      exact .published h10 h2 ‹_›
    split at h
    · cases h
      exact .failed h10 h2 ‹_›
    · cases h
      exact .publishing h10 h2 ‹_› ‹_›
  · rename_i h0 h1 h2
    rw [hstep] at h0 h1 h2
    cases h
    exact .idle h10 (fun h => absurd h h1) h0 h2

/-- A call leaves the work step alone, or begins a download. -/
theorem CallOutcome.netWork (h : CallOutcome E s x ret s') :
    s'.netWork = s.netWork ∨ s'.netWork = .ota := by
  have hu : (s.entered E x).netWork = s.netWork ∨ (s.entered E x).netWork = .ota :=
    entered_waited.netWork
  cases h with
  | notice => exact .inl rfl
  | command k buf n t _ _ _ _ _ hana =>
    obtain ⟨d, ms, rfl⟩ := analyze_eq hana
    exact hu
  | cellInfo =>
    obtain ⟨ws, i, flag, heq, -⟩ := getCellInfoProcess_eq (s.entered E x) E.config.moduleType
    rw [heq]
    exact hu
  | _ => exact hu

/-- A call takes nothing from the driver. -/
theorem CallOutcome.uart (h : CallOutcome E s x ret s') : s'.uart = s.uart := by
  have hu : (s.entered E x).uart = s.uart := entered_waited.uart
  cases h with
  | notice => rfl
  | command k buf n t _ _ _ _ _ hana =>
    obtain ⟨d, ms, rfl⟩ := analyze_eq hana
    exact hu
  | cellInfo =>
    obtain ⟨ws, i, flag, heq, -⟩ := getCellInfoProcess_eq (s.entered E x) E.config.moduleType
    rw [heq]
    exact hu
  | _ => exact hu

/-- A call that keeps the connection ends behind the registration. -/
theorem CallOutcome.kept (h : CallOutcome E s x ret s') (hret : ret ≠ .netDisconnect) :
    s'.communicateStep ≠ 0 ∧ (s'.registered = false → s.registered = false) := by
  have hstep : (s.entered E x).communicateStep = s.communicateStep := entered_waited.communicateStep
  have hreg : (s.entered E x).registered = s.registered := entered_waited.registered
  cases h with
  | notice | disconnect | failed => exact absurd rfl hret
  | register => exact ⟨Nat.one_ne_zero, nofun⟩
  | command k buf n t _ h1 _ _ _ hana =>
    obtain ⟨d, ms, rfl⟩ := analyze_eq hana
    exact ⟨fun h0 => absurd (h1.symm.trans (hstep.symm.trans h0)) (by decide), hreg.symm.trans⟩
  | unknown _ _ _ h1 =>
    exact ⟨fun h0 => absurd (h1.symm.trans (hstep.symm.trans h0)) (by decide), hreg.symm.trans⟩
  | publish => exact ⟨Nat.succ_ne_zero 1, hreg.symm.trans⟩
  | cellInfo _ h1 =>
    obtain ⟨ws, i, flag, heq, -⟩ := getCellInfoProcess_eq (s.entered E x) E.config.moduleType
    rw [heq]
    exact ⟨fun h0 => absurd (h1.symm.trans (hstep.symm.trans h0)) (by decide), hreg.symm.trans⟩
  | idle _ _ h0 => exact ⟨fun h => h0 (hstep.symm.trans h), hreg.symm.trans⟩
  | published => exact ⟨Nat.one_ne_zero, hreg.symm.trans⟩
  | publishing _ h2 =>
    exact ⟨fun h0 => absurd (h2.symm.trans (hstep.symm.trans h0)) (by decide), hreg.symm.trans⟩

end

end Comm

/-! ## A small program -/

/-- The small configuration with a FIFO for several commands. -/
def queueConfig : Config where
  moduleType := .ec800
  uartRecvFifoSize := 64
  uartRecvCmdSize := 16
  uartRecvQueuSize := 3
  uartSendQueuSize := 3
  uartSendQueuDataSize := 16
  ram := 64
  fifo_keyword := disconnectCmdHead_lt_64 .ec800
  fifo_u16 := fifo64_u16
  fifo_ram := fifo64_ram
  recvQueu_two := smallConfig.recvQueu_two
  sendQueu_two := smallConfig.sendQueu_two

/-- A program whose messages cannot be decoded, and are not encrypted. -/
def CommEnv.small (c : Config) : CommEnv where
  config := c
  board := .small
  decoder := ⟨fun _ => none, fun _ => none, fun _ => none, fun _ => none, fun _ => none,
    fun _ => none⟩
  decrypt data _ _ := data
  sendCmdSize := 200

/-- The communication with all its memory zero. -/
def Comm.reset : Comm where
  recv := .reset
  info := .reset
  send := .reset
  proc := ⟨0, 0, 0, 0⟩
  device := .reset 0
  netWork := .normal
  communicateStep := 0
  getCellInfoStep := 0
  getCellInfoFlag := false
  otaStartDelayTime := 0
  lendTimeoutWaitTime := 0
  registered := false
  uart := []
  writes := []

/-- A call in which no report saves anything. -/
def CallInput.quiet (c : Config) : CallInput c := ⟨fun _ => [], 0⟩

end AppXd.Net4g
