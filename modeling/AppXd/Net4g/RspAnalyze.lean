import AppXd.Net4g.ConfigCommand

/-!
# The messages of the cloud

`rspAnalyze` takes a decrypted message apart: the topic is compared level by level, its last level
names the operation, and the payload is decoded as that operation's message. The protobuf decoder
is a parameter.
-/

namespace AppXd.Net4g

open CStr (ascii strcmp store)

/-! ## Device -/

def deviceCommand (netWork : NetworkWorkStep) (d : Device) (m : DeviceCommand) : RspRet :=
  let d := d.noteOpCode m.header.opCode
  let traceId := m.header.reportTraceId
  match m.command.toNat with
  | 9 => (d.emit (.publish (.deviceList traceId m.command))).rspRet 0
  | 10 => (d.wtNodeEvent 0 .cleanConnectInfo).rspRet 0
  | 11 => d.rspRet 0
  | 12 => (d.emit .reboot).rspRet 0
  | 13 => (d.emit .powerOff).rspRet 0
  | 14 => ({ d with loginInfo := d.loginInfo.clear }.writeLoginInfo.emit .reboot).rspRet 0
  | 15 =>
    if netWork = .normal then (d.emit (.publish (.deviceData traceId m.command))).rspRet 0
    else d.rspRet 14
  | 16 => (d.emit (.publish (.deviceVersion traceId m.command))).rspRet 0
  | 18 => (d.emit (.publish (.wifiData traceId m.command))).rspRet 0
  | 19 => (d.emit (.publish (.gsmData traceId m.command))).rspRet 0
  | 20 => (d.emit (.publish (.bleData traceId m.command))).rspRet 0
  | 21 => (d.wtNodeEvent 0 .slaveNoSet).rspRet 0
  | 36 => (d.emit .rebootTest).rspRet 0
  | _ => d.rspRet 0

/-! ## Firmware -/

section
variable {b : Board} (m : Ota b)

/-- The target that the message selects, if it is one. Each branch but the second compares the
hardware version once more. -/
def otaTarget (p : OtaPara) : OtaPara :=
  let versionType := m.versionType.chars
  let hv := m.hv.chars
  let hardVer := if strcmp hv b.mainHardVer = 0 then CStr.atoi hv else p.hardVer
  if strcmp versionType (ascii "mcu") = 0 ∧ strcmp hv b.mainHardVer = 0 then
    { p with type := some .masterCtrlModule, hardVer := hardVer, addr := 0 }
  else if strcmp versionType (ascii "cubby") = 0 then
    { p with
      type := some .slaveBoardModule
      hardVer := CStr.atoi hv
      addr := if 0 < m.addr ∧ m.addr ≤ 4 ∨ m.addr = 0x0F then m.addr else 0 }
  else if strcmp versionType (ascii "btSpeaker") = 0 ∧ strcmp hv b.mainHardVer = 0 then
    { p with type := some .btMusicModule, hardVer := hardVer, addr := 0 }
  else if strcmp versionType (ascii "gsm") = 0 ∧ strcmp hv b.mainHardVer = 0 then
    { p with type := some .board4g, hardVer := hardVer, addr := 0 }
  else p

/-- The parameters of a download. The texts are copied over the old ones without terminator. -/
def otaStart (p : OtaPara) : OtaPara :=
  let p := otaTarget m p
  { p with
    url := store p.url m.url.chars
    crc := m.crc
    size := m.size
    ver := store p.ver m.version.chars
    otaFlag := 1 }

/-- The condition under which a message starts a download. -/
def Ota.starts (d : Device) : Prop := m.command = 29 ∧ d.globalInfo.deviceNoPowerMode ≠ 1

instance (d : Device) : Decidable (m.starts d) := inferInstanceAs (Decidable (_ ∧ _))

def otaCommand (d : Device) : RspRet :=
  let d := d.noteOpCode m.header.opCode
  let d := { d with globalInfo := d.globalInfo.setTraceId m.header.traceId }
  let d := if m.starts d then { d with otaPara := otaStart m d.otaPara }.emit .bleDisable else d
  if d.globalInfo.deviceNoPowerMode ≠ 1 then
    (d.emit (.publish (.deviceVersion m.header.traceId m.command))).rspRet 0
  else (d.emit (.publish (.lowPowerData 0 0))).rspRet 0

end

/-! ## Low power -/

def lowpowerCommand (d : Device) (m : LowpowerCommand) : RspRet :=
  let d := d.noteOpCode m.header.opCode
  let d := { d with globalInfo := d.globalInfo.setTraceId m.header.traceId }
  let d :=
    if m.command = 33 then
      if m.lowpower = 1 then
        { d with globalInfo := { d.globalInfo with deviceLowPowerMode := 1, deviceNoPowerMode := 1 } }
      else if m.lowpower = 2 then
        { d with globalInfo := { d.globalInfo with deviceLowPowerMode := 2, deviceNoPowerMode := 2 } }
      else d
    else d
  (d.emit (.publish (.lowPowerData m.header.traceId m.command))).rspRet 0

/-! ## All messages -/

/-- The kinds of messages, by the last level of the topic. -/
inductive Operation
  | slot | cubby | config | device | ota | lowpower
  deriving DecidableEq, Repr

def Operation.name : Operation → List UInt8
  | slot => ascii "slot"
  | cubby => ascii "cubby"
  | config => ascii "config"
  | device => ascii "device"
  | ota => ascii "ota"
  | lowpower => ascii "lowpower"

/-- A decoded message. -/
inductive RspMsg (b : Board)
  | slot (m : SlotCommand)
  | cubby (m : CubbyCommand)
  | config (m : ConfigCommand b)
  | device (m : DeviceCommand)
  | ota (m : Ota b)
  | lowpower (m : LowpowerCommand)

/-- `pb_decode` for each type of message. -/
structure Decoder (b : Board) where
  slot : List UInt8 → Option SlotCommand
  cubby : List UInt8 → Option CubbyCommand
  config : List UInt8 → Option (ConfigCommand b)
  device : List UInt8 → Option DeviceCommand
  ota : List UInt8 → Option (Ota b)
  lowpower : List UInt8 → Option LowpowerCommand

def Decoder.decode {b : Board} (dec : Decoder b) (pbdata : List UInt8) :
    Operation → Option (RspMsg b)
  | .slot => (dec.slot pbdata).map .slot
  | .cubby => (dec.cubby pbdata).map .cubby
  | .config => (dec.config pbdata).map .config
  | .device => (dec.device pbdata).map .device
  | .ota => (dec.ota pbdata).map .ota
  | .lowpower => (dec.lowpower pbdata).map .lowpower

section
variable {b : Board} (netWork : NetworkWorkStep) (d : Device)

/-- The branch of a decoded message; nothing where it reads through a NULL. -/
def rspHandle : RspMsg b → Option RspRet
  | .slot m => some (slotCommand b d m)
  | .cubby m => some (cubbyCommand b d m)
  | .config m => configCommand d m
  | .device m => some (deviceCommand netWork d m)
  | .ota m => some (otaCommand m d)
  | .lowpower m => some (lowpowerCommand d m)

/-- The branch of an operation. A message that cannot be decoded is dropped. -/
def rspOperation (dec : Decoder b) (op : Operation) (pbdata : List UInt8) : Option RspRet :=
  match dec.decode pbdata op with
  | none => some (d.rspRet 0)
  | some msg => rspHandle netWork d msg

/-! ## The topic -/

/-- The levels of the topic are compared one after the other: nothing where a level is missing,
`some none` where one differs, and otherwise the rest of the topic. -/
def matchLevels : List (List UInt8) → List UInt8 → Nat → Option (Option (List UInt8 × Nat))
  | [], buf, pos => some (some (buf, pos))
  | key :: keys, buf, pos =>
    match CStr.strtok 47 buf pos with
    | (none, _, _) => none
    | (some tok, buf, pos) =>
      if strcmp (CStr.textAt buf tok) key = 0 then matchLevels keys buf pos else some none

/-- The operation of the last level. -/
def operationOf (level : List UInt8) : Option Operation :=
  [Operation.slot, .cubby, .config, .device, .ota, .lowpower].find? fun op =>
    strcmp level op.name = 0

/-- `RspAnalyze`. Nothing where the call reads through a NULL, and where the loop that prints the
payload counts in a `uint8_t` to a length that this never reaches; `some none` where the topic is
not one of this device's, so that the function ends without a return value. -/
def rspAnalyze (dec : Decoder b) (topic pbdata : List UInt8) : Option (Option RspRet) :=
  if 256 ≤ pbdata.length then none
  else if 200 ≤ pbdata.length then some (some (d.rspRet 0))
  else
    match matchLevels [ascii "device", b.pucProductkey, CStr.textAt d.loginInfo.deviceKey 0,
      ascii "command"] topic 0 with
    | none => none
    | some none => some none
    | some (some (buf, pos)) =>
      match CStr.strtok 47 buf pos with
      | (none, _, _) => none
      | (some tok, buf, _) =>
        match operationOf (CStr.textAt buf tok) with
        | none => some none
        | some op => (rspOperation netWork d dec op pbdata).map some

end

end AppXd.Net4g
