import AppXd.Lib.CArray

/-!
# The state of the device

`Device` holds the global structures that the handling of the cloud's messages reads and writes:
the send buffers of the slots, `g_deviceGlobalInfo`, `gSysInfo_struct`, `gSysLoginInfo` and
`g_ota_para_t`, the copies of the settings in the flash, and a log of the calls that leave the
module. Macros and arrays that are declared elsewhere are parameters, gathered in `Board`.
-/

namespace AppXd.Net4g

/-- The values of `net4G_process_steps.netWork`. -/
inductive NetworkWorkStep
  | init | netConfig | activeRoute | login | normal | ota | error
  deriving DecidableEq, Repr

/-- The commands `SLOT_CMD_…` that slot and cubby messages carry. -/
inductive SlotCmd
  | singleSlotInfoCheckRsp | preOpenSlotLendCheckRsp | openSlotRsp | cancelOpenSlotRsp
  | forceOpenSlotRsp | readNfcEncipheredDataRsp | readNfcPlaintextDataRsp
  | readNfcSuccessPlayAudio | readNfcFailPlayAudio
  | singleSlaveInfoCheckRsp | allSlotInfoCheckRsp
  deriving DecidableEq, Repr

/-- The events `NODE_…`. -/
inductive NodeEvt
  | singleSlotUp | lendCheck | lendOpen | forceOpen | radNfcEncipheredData | radNfcPlaintextData
  | singleCubbyUp | allSlotUp | btMusicAdvSwitch | setBtPinCode | cleanConnectInfo
  | clientIdListSet | batChargeCtrl | slaveNoSet
  deriving DecidableEq, Repr

/-- The sizes of the strings' arrays, the values of the macros and the device's own texts. A shift
of a 32-bit one by 32 or more is left open, as C leaves it. -/
structure Board where
  ssidSize : Nat
  passwordSize : Nat
  btNameSize : Nat
  pinCodeSize : Nat
  clientIdListSize : Nat
  slotDisableSize : Nat
  urlSize : Nat
  verSize : Nat
  versionTypeSize : Nat
  hvSize : Nat
  pucProductkey : List UInt8
  mainHardVer : List UInt8
  slotCmd : UInt32 → Option SlotCmd
  shl : UInt32 → UInt32
  shl_lt : ∀ n < 32, shl n = 1 <<< n
  productkey_noNul : 0 ∉ pucProductkey
  hardVer_noNul : 0 ∉ mainHardVer

/-! ## The structures -/

/-- `g_deviceGlobalInfo.mqtt`. -/
structure MqttPara where
  addr : List UInt8
  port : UInt16
  hbInterval : Int
  retryInterval : UInt32
  retryTimes : UInt32
  timerReportInterval : UInt32
  password : List UInt8
  token : List UInt8
  secretKey : List UInt8
  deriving DecidableEq

/-- `g_deviceGlobalInfo`. -/
structure DeviceGlobalInfo where
  cloudOpCode : UInt32
  cloudTraceId : UInt32
  lengCheckTime : UInt8 → UInt32
  batLendingFlag : UInt32
  btAdvState : UInt8
  btToneVol : UInt32
  btPinCode : List UInt8
  deviceLowPowerMode : UInt8
  deviceNoPowerMode : UInt8
  mqtt : MqttPara

structure BtInfo where
  bleEnableFlag : UInt8
  btToneVolume : UInt32
  btName : List UInt8
  deriving DecidableEq

structure WifiInfo where
  wifiEnableFlag : UInt8
  wifiConfigFlag : UInt8
  ssid : List UInt8
  password : List UInt8
  remember : UInt8
  isSaveFlash : UInt8
  deriving DecidableEq

structure SlotInfo where
  slotForbiddenFlag : UInt32
  forbiddenSetFlag : UInt8
  deriving DecidableEq

structure Net4gInfo where
  firstSim : UInt32
  activeFlag : UInt8
  deriving DecidableEq

/-- `gSysInfo_struct`. The numbers that a message brings are kept as wide as the message has
them. -/
structure SysInfo where
  btInfo : BtInfo
  wifi : WifiInfo
  slot : SlotInfo
  net4G : Net4gInfo
  clientIdListBuf : List Int
  cubbyInterval : UInt32
  cubbyHeaderInterval : UInt32
  deriving DecidableEq

/-- `gSysLoginInfo`. -/
structure SysLoginInfo where
  deviceKey : List UInt8
  deviceSecret : List UInt8
  deviceNo : List UInt8
  activeFlag : UInt8
  addr : List UInt8
  port : UInt16
  hbInterval : Int
  retryInterval : UInt32
  retryTimes : UInt32
  timerReportInterval : UInt32
  deriving DecidableEq

/-- `memset` of the whole structure. -/
def SysLoginInfo.clear (l : SysLoginInfo) : SysLoginInfo :=
  ⟨CStr.clear l.deviceKey, CStr.clear l.deviceSecret, CStr.clear l.deviceNo, 0,
    CStr.clear l.addr, 0, 0, 0, 0, 0⟩

/-- The values of `g_ota_para_t.type`. -/
inductive UpdateType
  | masterCtrlModule | slaveBoardModule | btMusicModule | board4g
  deriving DecidableEq, Repr

/-- `g_ota_para_t`. -/
structure OtaPara where
  type : Option UpdateType
  hardVer : Int
  addr : UInt32
  url : List UInt8
  crc : UInt32
  size : UInt32
  ver : List UInt8
  otaFlag : UInt8
  deriving DecidableEq

/-! ## Calls that leave the module -/

/-- The publications `Info…PubTopic`, with the trace id and the command that they answer. -/
inductive Publication
  | deviceConfigData (traceId command : UInt32)
  | deviceList (traceId command : UInt32)
  | deviceData (traceId command : UInt32)
  | deviceVersion (traceId command : UInt32)
  | wifiData (traceId command : UInt32)
  | gsmData (traceId command : UInt32)
  | bleData (traceId command : UInt32)
  | lowPowerData (traceId command : UInt32)
  deriving DecidableEq, Repr

inductive Effect
  | nodeEvent (arg : UInt32) (evt : NodeEvt)
  | playTone (a b : UInt8)
  | publish (p : Publication)
  | writeSysInfo
  | writeLoginInfo
  | writeLoginInfoBack
  | bleEnable
  | bleDisable
  | reboot
  | powerOff
  | rebootTest
  deriving DecidableEq, Repr

structure Device where
  pbCmdByteUartSendBuf : UInt32 → List UInt8
  nfcpwdUartSendBuf : UInt32 → List UInt8
  globalInfo : DeviceGlobalInfo
  sysInfo : SysInfo
  loginInfo : SysLoginInfo
  sysFlash : SysInfo
  loginFlash : SysLoginInfo
  loginBackFlash : SysLoginInfo
  wifiState : UInt8
  otaPara : OtaPara
  configCommandFlag : Nat → UInt32
  log : List Effect

namespace Device

variable (d : Device)

/-- A call that leaves the module. -/
def emit (e : Effect) : Device := { d with log := d.log ++ [e] }

/-- `Wt_NodeEvent_Ff((arg << 8) | evt)`. -/
def wtNodeEvent (arg : UInt32) (evt : NodeEvt) : Device := d.emit (.nodeEvent (arg <<< 8) evt)

/-- `tls_fls_write(DEVICE_COFNIG_PARA_INFO_FLASH_ADDR, …)`. -/
def writeSysInfo : Device := { d.emit .writeSysInfo with sysFlash := d.sysInfo }

/-- `tls_fls_write(DEVICE_LOGIN_INFO_FLASH_ADDR, …)`. -/
def writeLoginInfo : Device := { d.emit .writeLoginInfo with loginFlash := d.loginInfo }

/-- `tls_fls_write(DEVICE_LOGIN_INFO_BACK_FLASH_ADDR, …)`. -/
def writeLoginInfoBack : Device :=
  { d.emit .writeLoginInfoBack with loginBackFlash := d.loginInfo }

end Device

/-! ## After a reset -/

/-- A board with short arrays. -/
def Board.small : Board where
  ssidSize := 8
  passwordSize := 8
  btNameSize := 8
  pinCodeSize := 8
  clientIdListSize := 32
  slotDisableSize := 8
  urlSize := 8
  verSize := 8
  versionTypeSize := 16
  hvSize := 8
  pucProductkey := CStr.ascii "pk"
  mainHardVer := CStr.ascii "12"
  slotCmd n := if n = 1 then some .singleSlotInfoCheckRsp else
    if n = 2 then some .singleSlaveInfoCheckRsp else none
  shl n := if n < 32 then 1 <<< n else 0
  shl_lt n hn := if_pos hn
  productkey_noNul := by decide
  hardVer_noNul := by decide

def SysInfo.reset : SysInfo where
  btInfo := ⟨0, 0, List.replicate 8 0⟩
  wifi := ⟨0, 0, List.replicate 8 0, List.replicate 8 0, 0, 0⟩
  slot := ⟨0, 0⟩
  net4G := ⟨0, 0⟩
  clientIdListBuf := List.replicate 10 0
  cubbyInterval := 0
  cubbyHeaderInterval := 0

def SysLoginInfo.reset : SysLoginInfo where
  deviceKey := List.replicate 8 0
  deviceSecret := List.replicate 8 0
  deviceNo := List.replicate 8 0
  activeFlag := 0
  addr := List.replicate 8 0
  port := 0
  hbInterval := 0
  retryInterval := 0
  retryTimes := 0
  timerReportInterval := 0

def MqttPara.reset : MqttPara where
  addr := List.replicate 8 0
  port := 0
  hbInterval := 0
  retryInterval := 0
  retryTimes := 0
  timerReportInterval := 0
  password := List.replicate 8 0
  token := List.replicate 8 0
  secretKey := List.replicate 8 0

/-- The small board's device with all its memory zero and the given stored operation code. -/
def Device.reset (opCode : UInt32) : Device where
  pbCmdByteUartSendBuf _ := List.replicate 21 0
  nfcpwdUartSendBuf _ := List.replicate 21 0
  globalInfo := ⟨opCode, 0, fun _ => 0, 0, 0, 0, List.replicate 8 0, 0, 0, .reset⟩
  sysInfo := .reset
  loginInfo := .reset
  sysFlash := .reset
  loginFlash := .reset
  loginBackFlash := .reset
  wifiState := 0
  otaPara := ⟨none, 0, 0, List.replicate 8 0, 0, 0, List.replicate 8 0, 0⟩
  configCommandFlag _ := 0
  log := []

end AppXd.Net4g
