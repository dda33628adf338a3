import AppXd.Net4g.Device

/-!
# Messages of the cloud, and the commands for slots and columns

The types of the messages are what the protobuf decoder fills. `slotCommand` and `cubbyCommand` are
the branches of `RspAnalyze` on a decoded slot or cubby message. Next to the new state a branch
returns the slot and column indices that it has used.
-/

namespace AppXd.Net4g

open CStr (Str)

/-! ## Messages -/

structure MsgHeader where
  opCode : UInt32
  traceId : UInt32
  deriving DecidableEq

/-- `PB_BYTES_ARRAY_T(100)`. The size of a field that the message lacks is whatever stood on the
stack. -/
structure PbBytes where
  size : Nat
  bytes : List UInt8
  length_bytes : bytes.length = 100
  deriving DecidableEq

structure SlotCommand where
  header : MsgHeader
  command : UInt32
  addr : UInt32
  slotId : UInt32
  pbCmd : PbBytes
  nfcpwd : PbBytes
  deriving DecidableEq

structure CubbyCommand where
  header : MsgHeader
  command : UInt32
  addr : UInt32
  deriving DecidableEq

structure CubbyDisable (b : Board) where
  addr : UInt32
  slotDisable : Str b.slotDisableSize
  deriving DecidableEq

structure DeviceConfig (b : Board) where
  bleEnable : UInt32
  wifiEnable : UInt32
  ssid : Str b.ssidSize
  password : Str b.passwordSize
  remember : UInt32
  gsmActiveSubId : UInt32
  cubbyInterval : UInt32
  cubbyHeaderInterval : UInt32
  bleSpeakerVolume : UInt32
  bleSpeakerPairCode : Str b.pinCodeSize
  bleSpeakerBroadEnable : UInt32
  clientIdList : Str b.clientIdListSize
  bleSpeakerName : Str b.btNameSize
  cubbyDisable : List (CubbyDisable b)
  deriving DecidableEq

structure ConfigCommand (b : Board) where
  header : MsgHeader
  command : UInt32
  hasDeviceConfig : Bool
  deviceConfig : DeviceConfig b
  deriving DecidableEq

structure DeviceCommand where
  header : MsgHeader
  command : UInt32
  deriving DecidableEq

structure Ota (b : Board) where
  header : MsgHeader
  command : UInt32
  versionType : Str b.versionTypeSize
  addr : UInt32
  url : Str b.urlSize
  crc : UInt32
  size : UInt32
  version : Str b.verSize
  hv : Str b.hvSize
  deriving DecidableEq

structure LowpowerCommand where
  header : MsgHeader
  command : UInt32
  lowpower : UInt32
  deriving DecidableEq

/-! ## The check of the operation code -/

/-- The new `CloudopCode` when a message is accepted: its code is greater than the stored one, or
the stored one is the last and the message's is smaller. -/
def checkOpCode (stored opCode : UInt32) : Option UInt32 :=
  if stored < opCode then some opCode
  else if opCode < stored ∧ stored = 0xFFFFFFFF then some opCode
  else none

/-- The trace id is kept if 16 bits hold it. -/
def DeviceGlobalInfo.setTraceId (g : DeviceGlobalInfo) (traceId : UInt32) : DeviceGlobalInfo :=
  if traceId ≤ 0xFFFF then { g with cloudTraceId := traceId } else g

/-- The check of a slot, cubby or config message: one that is not accepted goes no further. -/
def Device.acceptOpCode (d : Device) (opCode : UInt32) : Option Device :=
  (checkOpCode d.globalInfo.cloudOpCode opCode).map fun code =>
    { d with globalInfo := { d.globalInfo with cloudOpCode := code } }

/-- The check of a device, ota or lowpower message, which is handled in any case. -/
def Device.noteOpCode (d : Device) (opCode : UInt32) : Device :=
  (d.acceptOpCode opCode).getD d

/-! ## Slots -/

/-- Result of a branch: the return value, the state, and the slot and column indices used. -/
structure RspRet where
  ret : Nat
  device : Device
  slots : List UInt32
  columns : List UInt32

/-- A branch that uses no index. -/
def Device.rspRet (d : Device) (ret : Nat) : RspRet := ⟨ret, d, [], []⟩

/-- `((addr-1)*6 + slotId-1)`. -/
def SlotCommand.index (m : SlotCommand) : UInt32 := (m.addr - 1) * 6 + m.slotId - 1

/-- The first 21 bytes of a row are cleared. -/
def clearRow (buf : UInt32 → List UInt8) (i : UInt32) : UInt32 → List UInt8 :=
  Function.update buf i (List.replicate 21 0 ++ (buf i).drop 21)

/-- A row takes the size of the field and its bytes, if they fit. -/
def fillRow (buf : UInt32 → List UInt8) (i : UInt32) (f : PbBytes) : UInt32 → List UInt8 :=
  if f.size < 21 then
    Function.update buf i (f.size.toUInt8 :: f.bytes.take f.size ++ (buf i).drop (f.size + 1))
  else buf

/-- The rows of both fields are cleared before the operation code is checked. -/
def SlotCommand.clearRows (m : SlotCommand) (d : Device) : Device :=
  { d with
    pbCmdByteUartSendBuf := clearRow d.pbCmdByteUartSendBuf m.index
    nfcpwdUartSendBuf := clearRow d.nfcpwdUartSendBuf m.index }

def SlotCommand.fillRows (m : SlotCommand) (d : Device) : Device :=
  { d with
    pbCmdByteUartSendBuf := fillRow d.pbCmdByteUartSendBuf m.index m.pbCmd
    nfcpwdUartSendBuf := fillRow d.nfcpwdUartSendBuf m.index m.nfcpwd }

/-- The lending check of a slot is given up. `DeviceSlotId` is a `uint8_t`. -/
def cancelLending (b : Board) (d : Device) (i : UInt32) : Device :=
  let deviceSlotId := i.toUInt8
  { d with globalInfo := { d.globalInfo with
      lengCheckTime := Function.update d.globalInfo.lengCheckTime deviceSlotId 0
      batLendingFlag := d.globalInfo.batLendingFlag &&& ~~~b.shl deviceSlotId.toUInt32 } }

/-- What an accepted command does, and the indices that it uses. -/
def slotCmdRun (b : Board) (d : Device) (i : UInt32) : Option SlotCmd → Device × List UInt32
  | some .singleSlotInfoCheckRsp => (d.wtNodeEvent i .singleSlotUp, [i])
  | some .preOpenSlotLendCheckRsp => (d.wtNodeEvent i .lendCheck, [i])
  | some .openSlotRsp => (d.wtNodeEvent i .lendOpen, [i])
  | some .cancelOpenSlotRsp =>
    (cancelLending b d i, [i.toUInt8.toUInt32, i.toUInt8.toUInt32])
  | some .forceOpenSlotRsp => (d.wtNodeEvent i .forceOpen, [i])
  | some .readNfcEncipheredDataRsp => (d.wtNodeEvent i .radNfcEncipheredData, [i])
  | some .readNfcPlaintextDataRsp => (d.wtNodeEvent i .radNfcPlaintextData, [i])
  | some .readNfcSuccessPlayAudio => (d.emit (.playTone 0x40 0x04), [])
  | some .readNfcFailPlayAudio =>
    ((d.emit (.playTone 0x40 0x05)).emit (.playTone 0x40 0x07), [])
  | _ => (d, [])

def slotCommand (b : Board) (d : Device) (m : SlotCommand) : RspRet :=
  let i := m.index
  let d := m.clearRows d
  match d.acceptOpCode m.header.opCode with
  | none => ⟨0, d, [i, i], []⟩
  | some d =>
    let d := { d with globalInfo := d.globalInfo.setTraceId m.header.traceId }
    let d := m.fillRows d
    let (d, used) := slotCmdRun b d i (b.slotCmd m.command)
    ⟨0, d, i :: i :: i :: i :: used, []⟩

/-! ## Columns -/

/-- `addr - 1`. -/
def CubbyCommand.column (m : CubbyCommand) : UInt32 := m.addr - 1

def cubbyCommand (b : Board) (d : Device) (m : CubbyCommand) : RspRet :=
  match d.acceptOpCode m.header.opCode with
  | none => d.rspRet 0
  | some d =>
    let d := { d with globalInfo := d.globalInfo.setTraceId m.header.traceId }
    match b.slotCmd m.command with
    | some .singleSlaveInfoCheckRsp => ⟨0, d.wtNodeEvent m.column .singleCubbyUp, [], [m.column]⟩
    | some .allSlotInfoCheckRsp => (d.wtNodeEvent 0xFF .allSlotUp).rspRet 0
    | _ => d.rspRet 0

end AppXd.Net4g
