import AppXd.Net4g.Command

/-!
# The configuration commands

The branch of `RspAnalyze` on a decoded config message: report (24), query (25), set (26) and
clear (27). `ConfigCommandFlag` records which fields a command has named; set and clear write the
settings to the flash when one of them belongs to `gSysInfo_struct`.
-/

namespace AppXd.Net4g

open CStr (ascii strcmp store clear)

/-- `ConfigCommandFlag[k] = v`. -/
def Device.setFlag (d : Device) (k : Nat) (v : UInt32) : Device :=
  { d with configCommandFlag := Function.update d.configCommandFlag k v }

/-- `gSysInfo_struct` after a change of it. -/
def Device.mapSysInfo (d : Device) (f : SysInfo → SysInfo) : Device :=
  { d with sysInfo := f d.sysInfo }

/-- The trace id of a report, which is 0 when 16 bits do not hold it. -/
def MsgHeader.reportTraceId (h : MsgHeader) : UInt32 :=
  if h.traceId ≤ 0xFFFF then h.traceId else 0

/-- The test on a text of a set command. -/
def given (s : List UInt8) : Bool := s.length ≠ 0 ∧ s.getD 0 0 ≠ 0x0E ∧ s.getD 1 0 ≠ 0

def characteristic25 : List UInt8 := ascii "QUERY"

def characteristic27 : List UInt8 := ascii "CLEAR"

/-- The test on a text of a query or clear command. -/
def marked (characteristic s : List UInt8) : Bool := 0 ≤ strcmp s characteristic

/-- The loop of `get_clientIdList_keywords_pb`. A token that is missing is a NULL that `atoi`
reads. -/
def clientIdLoop : Nat → List UInt8 → Nat → Nat → List Int → Option (List Int)
  | 0, _, _, _, ids => some ids
  | n + 1, buf, pos, k, ids =>
    match CStr.strtok 44 buf pos with
    | (none, _, _) => none
    | (some tok, buf, pos) =>
      clientIdLoop n buf pos (k + 1) (ids.set k (CStr.atoi (CStr.textAt buf tok)))

/-- `get_clientIdList_keywords_pb`: the entries that the list sets. -/
def getClientIdListKeywordsPb (srcData : List UInt8) (keyNum : Nat) (ids : List Int) :
    Option (List Int) :=
  clientIdLoop keyNum srcData 0 0 ids

section
variable {b : Board} (m : DeviceConfig b) (d : Device)

/-! ## Report and query -/

/-- A query command names a field with a number by 9. -/
def queryNumber (k : Nat) (v : UInt32) (d : Device) : Device := if v = 9 then d.setFlag k 1 else d

/-- A query command names a field with a text by `QUERY`. -/
def queryText (k : Nat) (s : List UInt8) (d : Device) : Device :=
  if marked characteristic25 s then d.setFlag k 1 else d

/-- The first entry of the list of columns with disabled slots, if the list has one to four. -/
def DeviceConfig.firstDisable : Option (CubbyDisable b) :=
  if m.cubbyDisable.length ≤ 4 then m.cubbyDisable.head? else none

def queryCubbyDisable : Device :=
  match m.firstDisable with
  | none => d
  | some e => if 1 ≤ e.addr then queryText 15 e.slotDisable.chars d else d

def configQuery : Device :=
  let d := d.setFlag 1 1
  let d := queryNumber 2 m.bleEnable d
  let d := queryNumber 3 m.wifiEnable d
  let d := queryText 4 m.ssid.chars d
  let d := queryText 5 m.password.chars d
  let d := queryNumber 6 m.remember d
  let d := queryNumber 7 m.gsmActiveSubId d
  let d := queryNumber 8 m.cubbyInterval d
  let d := queryNumber 9 m.cubbyHeaderInterval d
  let d := queryNumber 10 m.bleSpeakerVolume d
  let d := queryText 11 m.bleSpeakerPairCode.chars d
  let d := queryNumber 12 m.bleSpeakerBroadEnable d
  let d := queryText 13 m.clientIdList.chars d
  let d := queryText 14 m.bleSpeakerName.chars d
  queryCubbyDisable m d

/-! ## Set -/

def setBleEnable : Device :=
  if m.bleEnable = 1 then
    ((d.setFlag 2 1).mapSysInfo fun s =>
      { s with btInfo := { s.btInfo with bleEnableFlag := 1 } }).emit .bleEnable
  else if m.bleEnable = 2 then
    ((d.setFlag 2 1).mapSysInfo fun s =>
      { s with btInfo := { s.btInfo with bleEnableFlag := 0 } }).emit .bleDisable
  else d

/-- Returns 1 when the WiFi is enabled and 2 when it is disabled. -/
def setWifiEnable (ret : Nat) : Device × Nat :=
  if m.wifiEnable = 1 then
    let d := (d.setFlag 3 1).mapSysInfo fun s =>
      { s with wifi := { s.wifi with wifiEnableFlag := 1 } }
    ({ d with wifiState := if d.wifiState ≠ 2 then 1 else d.wifiState }, 1)
  else if m.wifiEnable = 2 then
    let d := (d.setFlag 3 1).mapSysInfo fun s =>
      { s with wifi := { s.wifi with wifiEnableFlag := 0 } }
    ({ d with wifiState := 0 }, 2)
  else (d, ret)

def setGsmActiveSubId : Device :=
  if m.gsmActiveSubId = 1 ∨ m.gsmActiveSubId = 2 then
    (d.setFlag 7 1).mapSysInfo fun s =>
      { s with net4G := { s.net4G with firstSim := m.gsmActiveSubId } }
  else d

def setCubbyInterval : Device :=
  if m.cubbyInterval ≠ 0 then
    (d.setFlag 8 1).mapSysInfo fun s => { s with cubbyInterval := m.cubbyInterval }
  else d

def setCubbyHeaderInterval : Device :=
  if m.cubbyHeaderInterval ≠ 0 then
    (d.setFlag 9 1).mapSysInfo fun s => { s with cubbyHeaderInterval := m.cubbyHeaderInterval }
  else d

def setBleSpeakerBroadEnable : Device :=
  if m.bleSpeakerBroadEnable = 1 then
    let d := d.setFlag 12 1
    { d with globalInfo := { d.globalInfo with btAdvState := 1 } }.wtNodeEvent 0 .btMusicAdvSwitch
  else if m.bleSpeakerBroadEnable = 2 then
    let d := d.setFlag 12 1
    { d with globalInfo := { d.globalInfo with btAdvState := 0 } }.wtNodeEvent 0 .btMusicAdvSwitch
  else d

def setBleSpeakerVolume : Device :=
  if m.bleSpeakerVolume ≠ 0 then
    let d := d.setFlag 10 1
    if 1 ≤ m.bleSpeakerVolume ∧ m.bleSpeakerVolume ≤ 100 then
      let d := d.mapSysInfo fun s =>
        { s with btInfo := { s.btInfo with btToneVolume := m.bleSpeakerVolume } }
      { d with globalInfo := { d.globalInfo with btToneVol := d.sysInfo.btInfo.btToneVolume } }
    else d
  else d

def setBleSpeakerName : Device :=
  if given m.bleSpeakerName.chars then
    (d.setFlag 14 1).mapSysInfo fun s =>
      { s with btInfo := { s.btInfo with
          btName := store (clear s.btInfo.btName) m.bleSpeakerName.chars } }
  else d

/-- A pair code of fewer than four characters is only reported. -/
def setBleSpeakerPairCode : Device :=
  if given m.bleSpeakerPairCode.chars then
    let d := d.setFlag 11 1
    if 4 ≤ m.bleSpeakerPairCode.chars.length then
      { d with globalInfo := { d.globalInfo with
          btPinCode := store (clear d.globalInfo.btPinCode) m.bleSpeakerPairCode.chars }
        }.wtNodeEvent 0 .setBtPinCode
    else d
  else d

/-- Nothing where the list has fewer than ten entries. -/
def setClientIdList : Option Device :=
  if given m.clientIdList.chars then
    let d := d.setFlag 13 1
    (getClientIdListKeywordsPb m.clientIdList.chars 10 d.sysInfo.clientIdListBuf).map fun ids =>
      (d.mapSysInfo fun s => { s with clientIdListBuf := ids }).wtNodeEvent 0xFF .clientIdListSet
  else some d

/-- The six slots of one column: `1` disables a slot and `2` enables it. -/
def setSlotDisable (e : CubbyDisable b) (slotForbiddenFlag : UInt32) : UInt32 :=
  if given e.slotDisable.chars then
    (List.range 6).foldl (fun flag k =>
      let bit := b.shl (k.toUInt32 + (e.addr - 1) * 6)
      if e.slotDisable.chars.getD k 0 = 49 then bit ||| flag
      else if e.slotDisable.chars.getD k 0 = 50 then ~~~bit &&& flag
      else flag) slotForbiddenFlag
  else slotForbiddenFlag

def setCubbyDisable : Device :=
  if 0 < m.cubbyDisable.length ∧ m.cubbyDisable.length ≤ 4 then
    ((d.setFlag 15 1).mapSysInfo fun s =>
      { s with slot := {
          slotForbiddenFlag := m.cubbyDisable.foldl (fun flag e => setSlotDisable e flag)
            s.slot.slotForbiddenFlag
          forbiddenSetFlag := 0xAA } }).wtNodeEvent 0xFF .batChargeCtrl
  else d

/-- A new network name clears the password. -/
def setSsid (ret : Nat) : Device × Nat :=
  if given m.ssid.chars then
    let d := (d.setFlag 4 1).mapSysInfo fun s =>
      { s with wifi := { s.wifi with
          password := clear s.wifi.password
          ssid := store (clear s.wifi.ssid) m.ssid.chars
          wifiConfigFlag := 0xAA } }
    if d.configCommandFlag 3 = 1 ∧ d.sysInfo.wifi.wifiEnableFlag = 1 then (d, 7)
    else if d.configCommandFlag 3 = 1 ∧ d.sysInfo.wifi.wifiEnableFlag = 0 then (d, 5)
    else (d, 3)
  else (d, ret)

def setPassword (ret : Nat) : Device × Nat :=
  if given m.password.chars then
    let d := (d.setFlag 5 1).mapSysInfo fun s =>
      { s with wifi := { s.wifi with
          password := store (clear s.wifi.password) m.password.chars
          wifiConfigFlag := 0xAA } }
    if d.configCommandFlag 3 = 1 ∧ d.configCommandFlag 4 = 1 ∧
      d.sysInfo.wifi.wifiEnableFlag = 1 then (d, 9)
    else if d.configCommandFlag 3 = 1 ∧ d.configCommandFlag 4 = 1 ∧
      d.sysInfo.wifi.wifiEnableFlag = 0 then (d, 10)
    else if d.configCommandFlag 3 = 1 ∧ d.sysInfo.wifi.wifiEnableFlag = 1 then (d, 8)
    else if d.configCommandFlag 3 = 1 ∧ d.sysInfo.wifi.wifiEnableFlag = 0 then (d, 6)
    else (d, 4)
  else (d, ret)

def setRemember : Device :=
  if m.remember = 1 then
    (d.setFlag 6 1).mapSysInfo fun s =>
      { s with wifi := { s.wifi with remember := 1, isSaveFlash := 1 } }
  else if m.remember = 2 then
    (d.setFlag 6 1).mapSysInfo fun s =>
      { s with wifi := { s.wifi with remember := 0, isSaveFlash := 0 } }
  else d

/-- The settings are written when one of the given flags is set. -/
def Device.writeIfFlagged (d : Device) (ks : List Nat) : Device :=
  if ks.any fun k => d.configCommandFlag k = 1 then d.writeSysInfo else d

/-- The flags of a set command that stand for fields of `gSysInfo_struct`. -/
def setSavedFlags : List Nat := [2, 3, 4, 5, 6, 7, 8, 9, 10, 13, 14, 15]

/-- The fields of a set command that stand before the list of client ids. -/
def configSetFirst : Device × Nat :=
  let d := d.setFlag 1 1
  let d := setBleEnable m d
  let x := setWifiEnable m d 0
  let d := setGsmActiveSubId m x.1
  let d := setCubbyInterval m d
  let d := setCubbyHeaderInterval m d
  let d := setBleSpeakerBroadEnable m d
  let d := setBleSpeakerVolume m d
  let d := setBleSpeakerName m d
  (setBleSpeakerPairCode m d, x.2)

/-- The fields of a set command that stand behind the list of client ids. -/
def configSetRest (ret : Nat) : Device × Nat :=
  let d := setCubbyDisable m d
  let x := setSsid m d ret
  let x := setPassword m x.1 x.2
  (setRemember m x.1, x.2)

def configSet : Option (Device × Nat) :=
  let x := configSetFirst m d
  (setClientIdList m x.1).map fun d =>
    let x := configSetRest m d x.2
    (x.1.writeIfFlagged setSavedFlags, x.2)

/-! ## Clear -/

def clearSsid (ret : Nat) : Device × Nat :=
  if marked characteristic27 m.ssid.chars then
    ((d.setFlag 4 1).mapSysInfo fun s =>
      { s with wifi := { s.wifi with ssid := clear s.wifi.ssid, wifiConfigFlag := 0 } }, 11)
  else (d, ret)

def clearPassword (ret : Nat) : Device × Nat :=
  if marked characteristic27 m.password.chars then
    let d := (d.setFlag 5 1).mapSysInfo fun s =>
      { s with wifi := { s.wifi with password := clear s.wifi.password, wifiConfigFlag := 0 } }
    (d, if d.configCommandFlag 4 = 1 then 13 else 12)
  else (d, ret)

/-- The default code that is written first does not stay. -/
def clearBleSpeakerPairCode : Device :=
  if marked characteristic27 m.bleSpeakerPairCode.chars then
    let d := d.setFlag 11 1
    let pin := store d.globalInfo.btPinCode [50, 50, 50, 50, 0]
    ({ d with globalInfo := { d.globalInfo with btPinCode := clear pin } }.wtNodeEvent 0
      .setBtPinCode).wtNodeEvent 0 .cleanConnectInfo
  else d

def clearClientIdList : Device :=
  if marked characteristic27 m.clientIdList.chars then
    ((d.setFlag 13 1).mapSysInfo fun s =>
      { s with clientIdListBuf :=
          (List.range 10).foldl (fun ids k => ids.set k 99) s.clientIdListBuf }).wtNodeEvent 0xFF
        .clientIdListSet
  else d

def clearBleSpeakerName : Device :=
  if marked characteristic27 m.bleSpeakerName.chars then
    (d.setFlag 14 1).mapSysInfo fun s =>
      { s with btInfo := { s.btInfo with btName := clear s.btInfo.btName } }
  else d

def clearCubbyDisable : Device :=
  match m.firstDisable with
  | none => d
  | some e =>
    if 0 < e.addr ∧ marked characteristic27 e.slotDisable.chars then
      ((d.setFlag 15 1).mapSysInfo fun s => { s with slot := ⟨0, 0⟩ }).wtNodeEvent 0xFF
        .batChargeCtrl
    else d

/-- The flags of a clear command that stand for fields of `gSysInfo_struct`. -/
def clearSavedFlags : List Nat := [4, 5, 13, 14, 15]

def configClear : Device × Nat :=
  let d := d.setFlag 1 1
  let x := clearSsid m d 0
  let x := clearPassword m x.1 x.2
  let d := clearBleSpeakerPairCode m x.1
  let d := clearClientIdList m d
  let d := clearBleSpeakerName m d
  let d := clearCubbyDisable m d
  (d.writeIfFlagged clearSavedFlags, x.2)

end

/-! ## The branch -/

/-- What an accepted config message does. -/
def configRun {b : Board} (d : Device) (m : ConfigCommand b) : Option RspRet :=
  let report : Effect := .publish (.deviceConfigData m.header.reportTraceId m.command)
  let d := { d with configCommandFlag := fun _ => 0 }
  match m.command.toNat with
  | 24 => some (((d.setFlag 0 m.command).emit report).rspRet 0)
  | 25 =>
    let d := d.setFlag 0 m.command
    if m.hasDeviceConfig then some (((configQuery m.deviceConfig d).emit report).rspRet 0)
    else some (d.rspRet 0)
  | 26 =>
    let d := d.setFlag 0 m.command
    if m.hasDeviceConfig then
      (configSet m.deviceConfig d).map fun x => (x.1.emit report).rspRet x.2
    else some (d.rspRet 0)
  | 27 =>
    let d := d.setFlag 0 m.command
    if m.hasDeviceConfig then
      let x := configClear m.deviceConfig d
      some ((x.1.emit report).rspRet x.2)
    else some (d.rspRet 0)
  | _ => some (d.rspRet 0)

def configCommand {b : Board} (d : Device) (m : ConfigCommand b) : Option RspRet :=
  match d.acceptOpCode m.header.opCode with
  | none => some (d.rspRet 0)
  | some d => configRun d m

end AppXd.Net4g
