import AppXd.Lib.Base128
import AppXd.Mqtt.Packet

/-!
# Writing MQTT packets

The functions of the packet library that write a packet, with the bytes they write. Each goes from
the start of its buffer on. A write past the end of the buffer is undefined: it gives `none`.
-/

namespace AppXd.Mqtt.Wire

/-! ## Bytes -/

/-- What a function returns that has written these bytes, if the buffer takes them. -/
def written (buflen : Nat) (bytes : List UInt8) : Option (Int × List UInt8) :=
  if bytes.length ≤ buflen then some (bytes.length, bytes) else none

def tooShort : Option (Int × List UInt8) := some (mqttpacketBufferTooShort, [])

/-- The bit fields of `MQTTHeader`. A value is cut to the width of its field. -/
def headerByte (type : MsgType) (dup : UInt8) (qos : Nat) (retain : UInt8) : UInt8 :=
  type.code.toNat.toUInt8 <<< 4 ||| (dup &&& 1) <<< 3 ||| (qos.toUInt8 &&& 3) <<< 1 ||| retain &&& 1

def writeInt (anInt : Nat) : List UInt8 := [(anInt / 256).toUInt8, (anInt % 256).toUInt8]

def writeCString (string : List UInt8) : List UInt8 := writeInt string.length ++ string

/-- It looks at the string with a length first. -/
def writeMQTTString (s : MQTTString) : List UInt8 :=
  if 0 < s.len then writeInt s.len ++ s.lenstring.getD []
  else writeCString (s.cstring.getD [])

/-! ## Packets of the client -/

def mqttSerializePublishLength (qos : Nat) (topicName : MQTTString) (payloadlen : Nat) : Nat :=
  2 + topicName.strlen + payloadlen + if 0 < qos then 2 else 0

def mqttSerializePublish (buflen : Nat) (dup : UInt8) (qos : Nat) (retained : UInt8)
    (packetid : UInt16) (topicName : MQTTString) (payload : List UInt8) :
    Option (Int × List UInt8) :=
  let remLen := mqttSerializePublishLength qos topicName payload.length
  if buflen < mqttPacketLen remLen then tooShort
  else
    written buflen (headerByte .publish dup qos retained :: (mqttPacketEncode remLen ++
      (writeMQTTString topicName ++ ((if 0 < qos then writeInt packetid.toNat else []) ++ payload))))

def mqttSerializeAck (buflen : Nat) (packettype : MsgType) (dup : UInt8) (packetid : UInt16) :
    Option (Int × List UInt8) :=
  if buflen < 4 then tooShort
  else
    written buflen (headerByte packettype dup (if packettype = .pubrel then 1 else 0) 0 ::
      (mqttPacketEncode 2 ++ writeInt packetid.toNat))

def mqttSerializeZero (buflen : Nat) (packettype : MsgType) : Option (Int × List UInt8) :=
  if buflen < 2 then tooShort
  else written buflen (headerByte packettype 0 0 0 :: mqttPacketEncode 0)

def mqttSerializeDisconnect (buflen : Nat) : Option (Int × List UInt8) :=
  mqttSerializeZero buflen .disconnect

def mqttSerializePingreq (buflen : Nat) : Option (Int × List UInt8) :=
  mqttSerializeZero buflen .pingreq

def mqttSerializeSubscribeLength (topicFilters : List (MQTTString × Int)) : Nat :=
  2 + (topicFilters.map fun t => 2 + t.1.strlen + 1).sum

/-- The filters come with the requested QoS. -/
def mqttSerializeSubscribe (buflen : Nat) (dup : UInt8) (packetid : UInt16)
    (topicFilters : List (MQTTString × Int)) : Option (Int × List UInt8) :=
  let remLen := mqttSerializeSubscribeLength topicFilters
  if buflen < mqttPacketLen remLen then tooShort
  else
    written buflen (headerByte .subscribe dup 1 0 :: (mqttPacketEncode remLen ++
      (writeInt packetid.toNat ++
        topicFilters.flatMap fun t => writeMQTTString t.1 ++ [UInt8.ofInt t.2])))

def mqttSerializeUnsubscribeLength (topicFilters : List MQTTString) : Nat :=
  2 + (topicFilters.map fun t => 2 + t.strlen).sum

def mqttSerializeUnsubscribe (buflen : Nat) (dup : UInt8) (packetid : UInt16)
    (topicFilters : List MQTTString) : Option (Int × List UInt8) :=
  let remLen := mqttSerializeUnsubscribeLength topicFilters
  if buflen < mqttPacketLen remLen then tooShort
  else
    written buflen (headerByte .unsubscribe dup 1 0 :: (mqttPacketEncode remLen ++
      (writeInt packetid.toNat ++ topicFilters.flatMap writeMQTTString)))

/-- `MQTTPacket_connectData` with the fields that go into the flags. -/
structure ConnectOptions extends ConnectData where
  cleansession : UInt8
  willQos : UInt8
  willRetained : UInt8

/-- The bit fields of `MQTTConnectFlags`. -/
def connectFlags (o : ConnectOptions) : UInt8 :=
  (o.cleansession &&& 1) <<< 1 |||
    (if o.willFlag then (0x04 : UInt8) ||| (o.willQos &&& 3) <<< 3 ||| (o.willRetained &&& 1) <<< 5
      else 0) |||
    (if o.username.isSet then (0x80 : UInt8) else 0) |||
    (if o.password.isSet then (0x40 : UInt8) else 0)

/-- `MQTT` and `MQIsdp`, with the version. -/
def connectProtocol (version : UInt8) : List UInt8 :=
  if version = 4 then writeCString [0x4D, 0x51, 0x54, 0x54] ++ [4]
  else writeCString [0x4D, 0x51, 0x49, 0x73, 0x64, 0x70] ++ [3]

def mqttSerializeConnect (buflen : Nat) (o : ConnectOptions) : Option (Int × List UInt8) :=
  let len := mqttSerializeConnectLength o.toConnectData
  if buflen < mqttPacketLen len then tooShort
  else
    written buflen (headerByte .connect 0 0 0 :: (mqttPacketEncode len ++
      (connectProtocol o.mqttVersion ++ (connectFlags o :: (writeInt o.keepAliveInterval.toNat ++
        (writeMQTTString o.clientID ++
          ((if o.willFlag then writeMQTTString o.willTopicName ++ writeMQTTString o.willMessage
            else []) ++
            ((if o.username.isSet then writeMQTTString o.username else []) ++
              if o.password.isSet then writeMQTTString o.password else []))))))))

/-! ## Packets of the server -/

/-- It takes a buffer of two bytes for one that a CONNACK fits into. -/
def mqttSerializeConnack (buflen : Nat) (connackRc sessionPresent : UInt8) :
    Option (Int × List UInt8) :=
  if buflen < 2 then tooShort
  else
    written buflen
      (headerByte .connack 0 0 0 :: (mqttPacketEncode 2 ++ [sessionPresent &&& 1, connackRc]))

def mqttSerializeSuback (buflen : Nat) (packetid : UInt16) (grantedQoSs : List Int) :
    Option (Int × List UInt8) :=
  if buflen < 2 + grantedQoSs.length then tooShort
  else
    written buflen (headerByte .suback 0 0 0 :: (mqttPacketEncode (2 + grantedQoSs.length) ++
      (writeInt packetid.toNat ++ grantedQoSs.map UInt8.ofInt)))

def mqttSerializeUnsuback (buflen : Nat) (packetid : UInt16) : Option (Int × List UInt8) :=
  if buflen < 2 then tooShort
  else
    written buflen
      (headerByte .unsuback 0 0 0 :: (mqttPacketEncode 2 ++ writeInt packetid.toNat))

end AppXd.Mqtt.Wire
