import AppXd.Net4g.AtCommand

/-!
# Configuration of the network

`module_4g_config_para_process` makes one step of a table in each call. A step names a command and
the steps that follow its success and its failure; for two commands the code itself chooses the next
step. `AT_OK` and `AT_ERR` then still mean a jump by the table, from the chosen step, and 5 that the
choice stands.
-/

namespace AppXd.Net4g

/-- `net4g_at_step_t`. The number of a step is its place in the table. -/
structure AtStep (ι : Type) where
  id : ι
  sJump : Nat
  fJump : Nat

/-- `net4g_config_command_steps` of the NT26 family. -/
def nt26ConfigSteps : List (AtStep AtCmdId) :=
  [⟨.handshake, 1, 0⟩, ⟨.setCloseAte, 2, 2⟩, ⟨.getModuleInfo, 3, 33⟩, ⟨.getImei, 4, 33⟩,
    ⟨.getSnNo, 5, 33⟩,
    -- the second card is looked at first
    ⟨.rfOff, 6, 33⟩, ⟨.simChange2, 7, 7⟩, ⟨.rfOn, 8, 33⟩, ⟨.simCheck, 9, 12⟩,
    ⟨.getSimNo, 10, 12⟩, ⟨.getSimState, 11, 12⟩, ⟨.getNetState, 12, 12⟩,
    -- the first card, which is used if it works
    ⟨.rfOff, 13, 33⟩, ⟨.simChange1, 14, 14⟩, ⟨.rfOn, 15, 33⟩, ⟨.simCheck, 16, 19⟩,
    ⟨.getSimNo, 17, 19⟩, ⟨.getSimState, 18, 19⟩, ⟨.getNetState, 26, 19⟩,
    -- and else the second card
    ⟨.rfOff, 20, 33⟩, ⟨.simChange2, 21, 21⟩, ⟨.rfOn, 22, 33⟩, ⟨.simCheck, 23, 33⟩,
    ⟨.getSimNo, 24, 33⟩, ⟨.getSimState, 25, 33⟩, ⟨.getNetState, 26, 33⟩,
    ⟨.mqttDisconnect, 30, 30⟩, ⟨.getLocationPara, 29, 28⟩, ⟨.setLocationPara, 29, 29⟩,
    ⟨.getLocationAddr, 30, 30⟩, ⟨.getCell, 31, 31⟩, ⟨.getRssi, 32, 33⟩,
    ⟨.success, 32, 32⟩, ⟨.error, 33, 33⟩]

/-- `net4g_config_command_steps` of EC800 and EC801. -/
def ec800ConfigSteps : List (AtStep AtCmdId) :=
  [⟨.handshake, 1, 0⟩, ⟨.setCloseAte, 2, 2⟩, ⟨.rfOff, 3, 3⟩, ⟨.minLev, 4, 4⟩,
    ⟨.setFence, 5, 5⟩, ⟨.rfOn, 6, 6⟩, ⟨.getModuleInfo, 7, 38⟩, ⟨.getImei, 8, 38⟩,
    ⟨.getSnNo, 9, 38⟩,
    -- the second card is looked at first
    ⟨.simChange2, 10, 15⟩, ⟨.simCheck, 11, 15⟩, ⟨.isSimOk, 12, 15⟩, ⟨.getSimNo, 13, 15⟩,
    ⟨.getSimState, 14, 15⟩, ⟨.getNetState, 15, 15⟩,
    -- the first card, which is used if it works
    ⟨.simChange1, 16, 21⟩, ⟨.simCheck, 17, 21⟩, ⟨.isSimOk, 18, 21⟩, ⟨.getSimNo, 19, 21⟩,
    ⟨.getSimState, 20, 21⟩, ⟨.getNetState, 27, 21⟩,
    -- and else the second card
    ⟨.simChange2, 22, 38⟩, ⟨.simCheck, 23, 38⟩, ⟨.isSimOk, 24, 38⟩, ⟨.getSimNo, 25, 38⟩,
    ⟨.getSimState, 26, 38⟩, ⟨.getNetState, 27, 38⟩,
    ⟨.setPdp, 28, 28⟩, ⟨.setDns, 29, 29⟩, ⟨.mqttDisconnect, 34, 34⟩,
    ⟨.getLocationPara, 32, 31⟩, ⟨.setLocationPara, 32, 32⟩, ⟨.getLocationAddr, 33, 33⟩,
    ⟨.getQcell, 34, 34⟩, ⟨.getQengServingcell, 35, 35⟩, ⟨.getQengNeighbourcell, 36, 36⟩,
    ⟨.getRssi, 37, 37⟩, ⟨.success, 37, 37⟩, ⟨.error, 38, 38⟩]

/-- `net4g_config_command_steps` of EG800, which has one card. -/
def eg800ConfigSteps : List (AtStep AtCmdId) :=
  [⟨.handshake, 1, 0⟩, ⟨.setCloseAte, 2, 2⟩, ⟨.getModuleInfo, 3, 19⟩, ⟨.getImei, 4, 19⟩,
    ⟨.getSnNo, 5, 19⟩, ⟨.isSimOk, 6, 19⟩, ⟨.getSimNo, 7, 19⟩, ⟨.setApn, 8, 19⟩,
    ⟨.getSimState, 9, 19⟩, ⟨.getNetState, 10, 19⟩, ⟨.mqttDisconnect, 11, 11⟩,
    ⟨.getLocationPara, 13, 12⟩, ⟨.setLocationPara, 13, 14⟩, ⟨.getLocationAddr, 14, 14⟩,
    ⟨.getQcell, 15, 15⟩, ⟨.getQengServingcell, 16, 16⟩, ⟨.getQengNeighbourcell, 17, 17⟩,
    ⟨.getRssi, 18, 19⟩, ⟨.success, 18, 18⟩, ⟨.error, 19, 19⟩]

def net4gConfigCommandSteps : ModuleType → List (AtStep AtCmdId)
  | .nt26e | .nt26k | .ce109 => nt26ConfigSteps
  | .ec800 | .ec801 => ec800ConfigSteps
  | .eg800geu => eg800ConfigSteps

/-- The return value of the switch: `AT_OK`, `AT_ERR`, or 5. -/
inductive AtRet
  | ok | err | keep
  deriving DecidableEq, Repr

/-- `PROCESS_STEP_RET_E`. -/
inductive ProcessRet
  | done | error | wait
  deriving DecidableEq, Repr

section
variable (m : ModuleType)

/-- A step of the table. The function never looks behind its end. -/
def configStep (n : Nat) : AtStep AtCmdId := (net4gConfigCommandSteps m).getD n ⟨.error, n, n⟩

/-- The case of the serial number in the NT26 family, behind the command. -/
def nt26SnNo (s : NetState) : AtRet × NetState :=
  let pick (s : NetState) : AtRet × NetState :=
    if s.firstSim = 1 then (.keep, { s with netConfig := 12 })
    else if s.firstSim = 2 then (.keep, { s with netConfig := 5 })
    else (.ok, s)
  if s.reconnectFlag = 1 then
    let s := { s with reconnectFlag := 0 }
    -- these two leave the switch with the AT_ERR that it was entered with
    if s.simFlag = 1 then (.err, { s with sim1State := 2, netConfig := 19 })
    else if s.simFlag = 2 then (.err, { s with sim2State := 2, netConfig := 12 })
    else pick s
  else pick s

/-- The same case for EC800 and EC801. -/
def ec800SnNo (s : NetState) : AtRet × NetState :=
  let pick (s : NetState) : AtRet × NetState :=
    if s.firstSim = 1 then (.keep, { s with netConfig := 15 })
    else if s.firstSim = 2 then (.keep, { s with netConfig := 9 })
    else (.ok, s)
  if s.reconnectFlag = 1 then
    let s := { s with reconnectFlag := 0 }
    if s.simFlag = 1 then (.keep, { s with sim1State := 2, netConfig := 21 })
    else if s.simFlag = 2 then (.keep, { s with sim2State := 2, netConfig := 15 })
    else pick s
  else pick s

/-- The step that follows where the second card comes first and the first card's number is known. -/
def attachedStep : Nat := if m.quectel then 27 else 26

/-- The switch, behind the command and its verdict. -/
def configSwitch (id : AtCmdId) (ok : Bool) (s : NetState) : AtRet × NetState :=
  let ret : AtRet := if ok then .ok else .err
  match id with
  | .getSnNo =>
    match m with
    | .nt26e | .nt26k | .ce109 => nt26SnNo s
    | .ec800 | .ec801 => ec800SnNo s
    | .eg800geu => (.ok, s)
  | .getNetState =>
    if m ≠ .eg800geu ∧ ok ∧ s.firstSim = 2 ∧ (CStr.textAt s.iccid 0).length < 32 then
      (.keep, { s with netConfig := attachedStep m })
    else (ret, s)
  | _ => (ret, s)

/-- The jump behind the switch. -/
def configJump (x : AtRet × NetState) : NetState :=
  match x.1 with
  | .ok => { x.2 with netConfig := (configStep m x.2.netConfig).sJump }
  | .keep => x.2
  | .err => { x.2 with netConfig := (configStep m x.2.netConfig).fJump }

/-- The command of a step and its verdict. -/
def configSend (check : AtCmdId → List UInt8 → Bool) (s : NetState) (rsp : AtRsp) :
    Bool × NetState :=
  let id := (configStep m s.netConfig).id
  atCmdSendCheck (module4gCmds m id) (atCallback m check id) rsp s

def module4gConfigParaProcess (check : AtCmdId → List UInt8 → Bool) (s : NetState) (rsp : AtRsp) :
    ProcessRet × NetState :=
  if (net4gConfigCommandSteps m).length ≤ s.netConfig then (.error, s)
  else
    let id := (configStep m s.netConfig).id
    let x := configSend m check s rsp
    let s := configJump m (configSwitch m id x.1 x.2)
    match (configStep m s.netConfig).id with
    | .success => (.done, { s with netConfig := 0 })
    | .error => (.error, { s with netConfig := 0 })
    | _ => (.wait, s)

end

/-! ## What the callbacks keep -/

section
variable (m : ModuleType) (check : AtCmdId → List UInt8 → Bool) (s : NetState) (rsp : AtRsp)

theorem setSimState_netConfig (v : UInt8) : (s.setSimState v).netConfig = s.netConfig := by
  unfold NetState.setSimState
  split
  · rfl
  split <;> rfl

theorem atCallback_netConfig {id : AtCmdId} {f : AtCallback NetState}
    (hf : f ∈ atCallback m check id) (data : List UInt8) : (f data s).2.netConfig = s.netConfig := by
  unfold atCallback at hf
  split at hf <;> cases hf
  · unfold net4gGetSimUsingCb
    split
    · rfl
    dsimp only
    split_ifs <;> rfl
  · unfold net4gIsSimOkCb
    split <;> rfl
  · unfold net4gGetSimNoCb
    split_ifs
    · split
      · rfl
      split <;> rfl
    · split
      · rfl
      split <;> rfl
    · rfl
  · unfold net4gGetSimStateCb
    split
    · rfl
    split <;> exact setSimState_netConfig s _
  · unfold net4gGetNetStateCb
    split
    · rfl
    split <;> exact setSimState_netConfig s _
  all_goals rfl

/-- No callback changes the step. -/
theorem configSend_netConfig : (configSend m check s rsp).2.netConfig = s.netConfig :=
  atCmdSendCheck_keeps (P := fun t => t.netConfig = s.netConfig)
    (fun _ hf data t ht => (atCallback_netConfig m check t hf data).trans ht) _ rfl

/-- The command for the serial number changes nothing. -/
theorem configSend_getSnNo (hid : (configStep m s.netConfig).id = .getSnNo) :
    (configSend m check s rsp).2 = s := by
  unfold configSend
  rw [hid]
  refine atCmdSendCheck_keeps (P := fun t => t = s) (fun f hf data t ht => ?_) _ rfl
  obtain rfl : (fun srcData s => (check .getSnNo srcData, s)) = f := Option.some.inj hf
  exact ht

end

end AppXd.Net4g
