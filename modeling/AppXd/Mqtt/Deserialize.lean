import AppXd.Lib.Base128
import AppXd.Mqtt.Packet

/-!
# Reading MQTT packets

The functions of the packet library that take a packet apart, with all that they return. A byte that
is read outside of the buffer, and an entry that is written outside of an array, is undefined: it
gives `none`.
-/

namespace AppXd.Mqtt.Wire

/-- A pointer into the buffer with a length. -/
structure Slice where
  start : Nat
  len : Nat
  deriving DecidableEq

def Slice.text (s : Slice) (buf : List UInt8) : List UInt8 := (buf.drop s.start).take s.len

def headerDup (b : UInt8) : UInt8 := b >>> 3 &&& 1

def headerRetain (b : UInt8) : UInt8 := b &&& 1

section
variable (buf : List UInt8)

def readInt (p : Nat) : Option Nat := do
  let hi ← buf[p]?
  let lo ← buf[p + 1]?
  some (256 * hi.toNat + lo.toNat)

/-- The string, if it ends before `enddata`. -/
def readMQTTLenString (p enddata : Nat) : Option (Option Slice) :=
  if p + 1 < enddata then do
    let len ← readInt buf p
    some (if p + 2 + len ≤ enddata then some ⟨p + 2, len⟩ else none)
  else some none

/-! ## Packets for the client -/

/-- What `MQTTDeserialize_publish` returns through its pointers. The packet identifier is set for a
QoS above 0 only. -/
structure PublishData where
  dup : UInt8
  qos : Nat
  retained : UInt8
  packetid : Option Nat
  topicName : Slice
  payload : Nat
  payloadlen : Int
  deriving DecidableEq

/-- What the function returns, and the publication if its topic is set. -/
def mqttDeserializePublish : Option (Int × Option PublishData) := do
  let header ← buf[0]?
  if headerType header ≠ MsgType.publish.code then some (0, none)
  else
    let (rc, mylen) ← mqttPacketDecodeBuf buf 1
    let enddata := 1 + rc + mylen
    match ← readMQTTLenString buf (1 + rc) enddata with
    | none => some (rc, none)
    | some topicName =>
      let curdata := topicName.start + topicName.len
      let qos := headerQos header
      if 0 < qos then
        let packetid ← readInt buf curdata
        some (1, some ⟨headerDup header, qos, headerRetain header, some packetid, topicName,
          curdata + 2, enddata - (curdata + 2 : Nat)⟩)
      else
        some (1, some ⟨headerDup header, qos, headerRetain header, none, topicName, curdata,
          enddata - curdata⟩)

/-- What the function returns, the type of the packet, its DUP flag and its identifier if it is
set. -/
def mqttDeserializeAck : Option (Int × Nat × UInt8 × Option Nat) := do
  let header ← buf[0]?
  let (rc, mylen) ← mqttPacketDecodeBuf buf 1
  if mylen < 2 then some (rc, headerType header, headerDup header, none)
  else
    let packetid ← readInt buf (1 + rc)
    some (1, headerType header, headerDup header, some packetid)

/-- The result of `MQTTDeserialize_ack` is replaced by 1 where the type is right. -/
def mqttDeserializeUnsuback : Option (Int × Option Nat) :=
  (mqttDeserializeAck buf).map fun d =>
    (if (d.2.1 : Int) = MsgType.unsuback.code then 1 else d.1, d.2.2.2)

/-- What the function returns, the flag and the return code of the server. -/
def mqttDeserializeConnack : Option (Int × Option (UInt8 × UInt8)) := do
  let header ← buf[0]?
  if headerType header ≠ MsgType.connack.code then some (0, none)
  else
    let (rc, mylen) ← mqttPacketDecodeBuf buf 1
    if mylen < 2 then some (rc, none)
    else
      let flags ← buf[1 + rc]?
      let connackRc ← buf[2 + rc]?
      some (1, some (flags &&& 1, connackRc))

/-- The loop over the granted QoS, with room for `maxcount`. -/
def subackLoop (maxcount enddata : Nat) : Nat → Nat → List Int → Option (Int × List Int)
  | 0, _, grantedQoSs => some (1, grantedQoSs)
  | n + 1, p, grantedQoSs =>
    if p < enddata then
      if maxcount < grantedQoSs.length then some (-1, grantedQoSs)
      else do
        let granted ← buf[p]?
        if grantedQoSs.length < maxcount then
          subackLoop maxcount enddata n (p + 1) (grantedQoSs ++ [granted.toInt8.toInt])
        else none
    else some (1, grantedQoSs)

/-- What the function returns, the identifier and the granted QoS. -/
def mqttDeserializeSuback (maxcount : Nat) : Option (Int × Option (Nat × List Int)) := do
  let header ← buf[0]?
  if headerType header ≠ MsgType.suback.code then some (0, none)
  else
    let (rc, mylen) ← mqttPacketDecodeBuf buf 1
    if mylen < 2 then some (rc, none)
    else
      let packetid ← readInt buf (1 + rc)
      let r ← subackLoop buf maxcount (1 + rc + mylen) mylen (1 + rc + 2) []
      some (r.1, some (packetid, r.2))

/-! ## Packets for the server -/

/-- What is filled out of `MQTTPacket_connectData`. -/
structure ConnectRead where
  cleansession : UInt8
  keepAliveInterval : Nat
  clientID : Slice
  /-- Topic, message, QoS and retained flag. -/
  will : Option (Slice × Slice × UInt8 × UInt8)
  username : Option Slice
  password : Option Slice
  deriving DecidableEq

/-- `memcmp` compares as many bytes as the shorter name has. -/
def mqttPacketCheckVersion (protocol : Slice) (version : UInt8) : Bool :=
  version = 3 && (protocol.text buf).take 6 = [0x4D, 0x51, 0x49, 0x73, 0x64, 0x70].take protocol.len ||
    version = 4 && (protocol.text buf).take 4 = [0x4D, 0x51, 0x54, 0x54].take protocol.len

/-- A string that the flags announce. It takes at least one byte. -/
def readCredential (p enddata : Nat) : Option (Option Slice) :=
  if enddata < p + 3 then some none else readMQTTLenString buf p enddata

/-- User name and password. -/
def readCredentials (flags : UInt8) (p enddata : Nat) :
    Option (Option (Option Slice × Option Slice)) :=
  if flags >>> 7 &&& 1 ≠ 0 then do
    match ← readCredential buf p enddata with
    | none => some none
    | some username =>
      if flags >>> 6 &&& 1 ≠ 0 then
        (readCredential buf (username.start + username.len) enddata).map
          (·.map fun password => (some username, some password))
      else some (some (some username, none))
  else if flags >>> 6 &&& 1 ≠ 0 then some none
  else some (some (none, none))

/-- The will, and what stands behind it. -/
def readWill (flags : UInt8) (p enddata : Nat) :
    Option (Option (Option (Slice × Slice × UInt8 × UInt8) × Nat)) :=
  if flags >>> 2 &&& 1 ≠ 0 then do
    match ← readMQTTLenString buf p enddata with
    | none => some none
    | some topicName =>
      (readMQTTLenString buf (topicName.start + topicName.len) enddata).map
        (·.map fun message => (some (topicName, message, flags >>> 3 &&& 3, flags >>> 5 &&& 1),
          message.start + message.len))
  else some (some (none, p))

/-- What is left of the packet behind the flags, with the strings one behind the other. -/
def readConnect (flags : UInt8) (p enddata : Nat) : Option (Option ConnectRead) := do
  let keepAliveInterval ← readInt buf p
  match ← readMQTTLenString buf (p + 2) enddata with
  | none => some none
  | some clientID =>
    match ← readWill buf flags (clientID.start + clientID.len) enddata with
    | none => some none
    | some (will, p) =>
      (readCredentials buf flags p enddata).map (·.map fun c =>
        ⟨flags >>> 1 &&& 1, keepAliveInterval, clientID, will, c.1, c.2⟩)

/-- The connect data if the function returns 1. Otherwise it returns 0. -/
def mqttDeserializeConnect (len : Nat) : Option (Option ConnectRead) := do
  let header ← buf[0]?
  if headerType header ≠ MsgType.connect.code then some none
  else
    let (rc, _) ← mqttPacketDecodeBuf buf 1
    match ← readMQTTLenString buf (1 + rc) len with
    | none => some none
    | some protocol =>
      let p := protocol.start + protocol.len
      let version ← buf[p]?
      if mqttPacketCheckVersion buf protocol version then
        let flags ← buf[p + 1]?
        readConnect buf flags (p + 2) len
      else some none

/-- The loop over the entries of a list, with room for `maxcount`: whether it gets to the end. -/
def entriesLoop {α : Type*} (entry : Nat → Option (Option (α × Nat))) (maxcount enddata : Nat) :
    Nat → Nat → List α → Option (Bool × List α)
  | 0, _, entries => some (true, entries)
  | n + 1, p, entries =>
    if p < enddata then
      if entries.length < maxcount then do
        match ← entry p with
        | none => some (false, entries)
        | some (a, p) => entriesLoop entry maxcount enddata n p (entries ++ [a])
      else none
    else some (true, entries)

/-- A topic filter with the requested QoS. -/
def subscribeEntry (enddata p : Nat) : Option (Option ((Slice × Int) × Nat)) := do
  match ← readMQTTLenString buf p enddata with
  | none => some none
  | some topic =>
    let p := topic.start + topic.len
    if enddata ≤ p then some none
    else
      let qos ← buf[p]?
      some (some ((topic, qos.toInt8.toInt), p + 1))

def unsubscribeEntry (enddata p : Nat) : Option (Option (Slice × Nat)) :=
  (readMQTTLenString buf p enddata).map (·.map fun topic => (topic, topic.start + topic.len))

/-- What the function returns, the DUP flag, the identifier and the filters with the requested
QoS. -/
def mqttDeserializeSubscribe (maxcount : Nat) :
    Option (Int × Option (UInt8 × Nat × List (Slice × Int))) := do
  let header ← buf[0]?
  if headerType header ≠ MsgType.subscribe.code then some (-1, none)
  else
    let (rc, mylen) ← mqttPacketDecodeBuf buf 1
    let packetid ← readInt buf (1 + rc)
    let enddata := 1 + rc + mylen
    let r ← entriesLoop (subscribeEntry buf enddata) maxcount enddata mylen (1 + rc + 2) []
    some (if r.1 then 1 else rc, some (headerDup header, packetid, r.2))

def mqttDeserializeUnsubscribe (maxcount : Nat) :
    Option (Int × Option (UInt8 × Nat × List Slice)) := do
  let header ← buf[0]?
  if headerType header ≠ MsgType.unsubscribe.code then some (0, none)
  else
    let (rc, mylen) ← mqttPacketDecodeBuf buf 1
    let packetid ← readInt buf (1 + rc)
    let enddata := 1 + rc + mylen
    let r ← entriesLoop (unsubscribeEntry buf enddata) maxcount enddata mylen (1 + rc + 2) []
    some (if r.1 then 1 else rc, some (headerDup header, packetid, r.2))

end

end AppXd.Mqtt.Wire
