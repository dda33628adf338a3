import Mathlib.Tactic.Common

/-!
# MQTT packets

The packet library, as far as the client of a session uses it: how long the packets are that it
writes, and what it takes out of a packet in the read buffer. A function that reads outside of the
buffer, or writes outside of an array, is undefined: it gives `none`.
-/

namespace AppXd.Mqtt

inductive MsgType
  | connect
  | connack
  | publish
  | puback
  | pubrec
  | pubrel
  | pubcomp
  | subscribe
  | suback
  | unsubscribe
  | unsuback
  | pingreq
  | pingresp
  | disconnect
  deriving DecidableEq

def MsgType.code : MsgType → Int
  | connect => 1
  | connack => 2
  | publish => 3
  | puback => 4
  | pubrec => 5
  | pubrel => 6
  | pubcomp => 7
  | subscribe => 8
  | suback => 9
  | unsubscribe => 10
  | unsuback => 11
  | pingreq => 12
  | pingresp => 13
  | disconnect => 14

/-- `MQTTPACKET_BUFFER_TOO_SHORT`. -/
def mqttpacketBufferTooShort : Int := -2

/-! ## Lengths -/

def encodeDigits : Nat → Nat → List UInt8
  | 0, _ => []
  | n + 1, length =>
    let d := (length % 128).toUInt8
    if 0 < length / 128 then (d ||| 0x80) :: encodeDigits n (length / 128) else [d]

/-- The digits of a length to the base 128. An `int` has at most five. -/
def mqttPacketEncode (length : Nat) : List UInt8 := encodeDigits 5 length

def mqttPacketLen (remLen : Nat) : Nat :=
  let remLen := remLen + 1
  if remLen < 128 then remLen + 1
  else if remLen < 16384 then remLen + 2
  else if remLen < 2097151 then remLen + 3
  else remLen + 4

/-- What is written for a packet whose header announces `remLen` bytes, if the buffer takes it. -/
def serialized (bufSize remLen : Nat) : Int :=
  if bufSize < mqttPacketLen remLen then mqttpacketBufferTooShort
  else 1 + (mqttPacketEncode remLen).length + remLen

/-- A string that ends with a NUL or one with its length: a pointer may be `NULL`. -/
structure MQTTString where
  cstring : Option (List UInt8)
  lenstring : Option (List UInt8)

namespace MQTTString

variable (s : MQTTString)

/-- `lenstring.len`. -/
def len : Nat := (s.lenstring.getD []).length

def isSet : Bool := s.cstring.isSome || s.lenstring.isSome

/-- `MQTTstrlen`. -/
def strlen : Nat :=
  match s.cstring with
  | some c => c.length
  | none => s.len

/-- How much `writeMQTTString` writes. It looks at the other string first. -/
def written : Nat := if 0 < s.len then 2 + s.len else 2 + (s.cstring.getD []).length

end MQTTString

/-- `MQTTPacket_connectData`. -/
structure ConnectData where
  mqttVersion : UInt8
  clientID : MQTTString
  keepAliveInterval : UInt16
  willFlag : Bool
  willTopicName : MQTTString
  willMessage : MQTTString
  username : MQTTString
  password : MQTTString

section
variable (o : ConnectData)

def mqttSerializeConnectLength : Nat :=
  (if o.mqttVersion = 3 then 12 else if o.mqttVersion = 4 then 10 else 0) +
    (o.clientID.strlen + 2) +
    (if o.willFlag then o.willTopicName.strlen + 2 + o.willMessage.strlen + 2 else 0) +
    (if o.username.isSet then o.username.strlen + 2 else 0) +
    (if o.password.isSet then o.password.strlen + 2 else 0)

/-- What is written behind the fixed header: name and version of the protocol, flags, interval and
strings. -/
def connectBody : Nat :=
  (if o.mqttVersion = 4 then 7 else 9) + 1 + 2 + o.clientID.written +
    (if o.willFlag then o.willTopicName.written + o.willMessage.written else 0) +
    (if o.username.isSet then o.username.written else 0) +
    (if o.password.isSet then o.password.written else 0)

/-- The length that is computed and the bytes that are written need not agree. -/
def mqttSerializeConnect (bufSize : Nat) : Option Int :=
  if bufSize < mqttPacketLen (mqttSerializeConnectLength o) then some mqttpacketBufferTooShort
  else
    let n := 1 + (mqttPacketEncode (mqttSerializeConnectLength o)).length + connectBody o
    if n ≤ bufSize then some n else none

end

def mqttSerializeZero (bufSize : Nat) : Int := if bufSize < 2 then mqttpacketBufferTooShort else 2

def mqttSerializeDisconnect (bufSize : Nat) : Int := mqttSerializeZero bufSize

def mqttSerializePingreq (bufSize : Nat) : Int := mqttSerializeZero bufSize

def mqttSerializeAck (bufSize : Nat) : Int := if bufSize < 4 then mqttpacketBufferTooShort else 4

/-- A subscription to one topic. -/
def mqttSerializeSubscribe (bufSize : Nat) (topicFilter : List UInt8) : Int :=
  serialized bufSize (2 + (2 + topicFilter.length + 1))

def mqttSerializePublish (bufSize qos : Nat) (topicName payload : List UInt8) : Int :=
  serialized bufSize (2 + topicName.length + payload.length + if 0 < qos then 2 else 0)

/-! ## The read buffer -/

section
variable (buf : List UInt8)

def headerType (b : UInt8) : Nat := (b >>> 4).toNat

def headerQos (b : UInt8) : Nat := (b >>> 1 &&& 3).toNat

/-- `MQTTPacket_decode` on a buffer: the number of bytes read and the value. After four bytes a
fifth is counted, but not read. -/
def decodeBufLoop : Nat → Nat → Nat → Nat → Nat → Option (Nat × Nat)
  | 0, _, len, _, value => some (len + 1, value)
  | n + 1, p, len, multiplier, value => do
    let c ← buf[p]?
    let value := value + (c &&& 127).toNat * multiplier
    if c &&& 128 ≠ 0 then decodeBufLoop n (p + 1) (len + 1) (multiplier * 128) value
    else some (len + 1, value)

def mqttPacketDecodeBuf (p : Nat) : Option (Nat × Nat) := decodeBufLoop buf 4 p 0 1 0

/-- What the function returns, and the return code of the server if it is set. Where the packet is
too short the function returns how many bytes the length takes, and that may be 1. -/
def mqttDeserializeConnack : Option (Int × Option UInt8) := do
  let header ← buf[0]?
  if headerType header ≠ MsgType.connack.code then some (0, none)
  else
    let (rc, mylen) ← mqttPacketDecodeBuf buf 1
    if mylen < 2 then some (rc, none)
    else
      let _ ← buf[1 + rc]?
      let connackRc ← buf[2 + rc]?
      some (1, some connackRc)

/-- What the function returns, and the granted QoS, a signed `char`, or the -1 from before. The
caller's array takes one QoS, and the function writes a second one. -/
def mqttDeserializeSuback : Option (Int × Int) := do
  let header ← buf[0]?
  if headerType header ≠ MsgType.suback.code then some (0, -1)
  else
    let (rc, mylen) ← mqttPacketDecodeBuf buf 1
    if mylen < 2 then some (rc, -1)
    else
      let _ ← buf[1 + rc]?
      let _ ← buf[2 + rc]?
      if mylen = 2 then some (1, -1)
      else if mylen = 3 then
        let granted ← buf[3 + rc]?
        some (1, granted.toInt8.toInt)
      else none

/-- What the function returns. The identifier that it sets goes into the answer only. -/
def mqttDeserializeAck : Option Int := do
  let _ ← buf[0]?
  let (rc, mylen) ← mqttPacketDecodeBuf buf 1
  if mylen < 2 then some rc
  else
    let _ ← buf[1 + rc]?
    let _ ← buf[2 + rc]?
    some 1

/-- What `MQTTDeserialize_publish` leaves. -/
structure Publish where
  rc : Int
  qos : Nat
  /-- Whether the topic is set. -/
  named : Bool

/-- `readMQTTLenString`: where the string ends, if it ends before `enddata`. -/
def readMQTTLenString (p enddata : Nat) : Option (Option Nat) :=
  if p + 1 < enddata then do
    let hi ← buf[p]?
    let lo ← buf[p + 1]?
    let stop := p + 2 + (256 * hi.toNat + lo.toNat)
    some (if stop ≤ enddata then some stop else none)
  else some none

def mqttDeserializePublish : Option Publish := do
  let header ← buf[0]?
  if headerType header ≠ MsgType.publish.code then some ⟨0, 0, false⟩
  else
    let qos := headerQos header
    let (rc, mylen) ← mqttPacketDecodeBuf buf 1
    match ← readMQTTLenString buf (1 + rc) (1 + rc + mylen) with
    | none => some ⟨rc, qos, false⟩
    | some p =>
      if 0 < qos then
        let _ ← buf[p]?
        let _ ← buf[p + 1]?
        some ⟨1, qos, true⟩
      else some ⟨1, qos, true⟩

end

end AppXd.Mqtt
