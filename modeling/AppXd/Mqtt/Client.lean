import AppXd.Lib.Links
import AppXd.Mqtt.Packet

/-!
# MQTT sessions

The client of `mqtt_client_core.c`. A session reaches the network through the functions of its port,
whose answers, like those of the lock, `select` and the clock, are inputs of a call. Time-outs only
go to the port and the lock. The callbacks of the application leave the session as it is.
-/

namespace AppXd.Mqtt

/-- What the port's `mqtt_read` does: it stores bytes and returns how many, or it stores some and
returns a negative value. -/
inductive ReadAnswer
  | bytes (data : List UInt8)
  | error (data : List UInt8) (n : Nat)

namespace ReadAnswer

def stored (mlen : Nat) : ReadAnswer → List UInt8
  | bytes data => data.take mlen
  | error data _ => data.take mlen

def rc (mlen : Nat) : ReadAnswer → Int
  | bytes data => (data.take mlen).length
  | error _ n => Int.negSucc n

end ReadAnswer

/-- What the port answers in a call, in the order in which it is asked. Behind the last answer it
fails. -/
structure Answers where
  writes : List Int
  reads : List ReadAnswer

/-- What has happened to a session, for the statements about runs. -/
inductive Effect
  /-- `mqtt_net_connect` has got a socket. -/
  | opened
  /-- `mqtt_net_disconnect` has given it back. -/
  | closed
  | sent (t : MsgType)
  /-- A CONNACK has come, with this return code if it has one. -/
  | connack (code : Option UInt8)
  /-- `mqtt_client_disconnect` has ended the session. -/
  | disconnected
  /-- `mqtt_client_connect` is called. -/
  | called
  | returned (ret : Int)
  deriving DecidableEq

/-- A message that waits to be published. -/
structure QueuedMsg where
  qos : Nat
  topicName : List UInt8
  payload : List UInt8

/-- `struct mqtt_client_session` without its node. -/
structure Session where
  nextPacketid : UInt32
  netIsConnected : Bool
  isConnected : Bool
  bufSize : UInt16
  readbuf : List UInt8
  keepAliveInterval : UInt32
  tickPing : UInt32
  socket : Int
  /-- Whether the port has a function `disconnect`. -/
  disconnect : Bool
  /-- Whether `mqtt_notice_cb` is set. -/
  mqttNoticeCb : Bool
  /-- The filters of `sub.messageHandlers`. One may be `NULL`. -/
  topicFilters : List (Option (List UInt8))
  msgs : List QueuedMsg
  answers : Answers
  /-- Newest first. -/
  log : List Effect

namespace Session

variable (cs : Session)

def note (e : Effect) : Session := { cs with log := e :: cs.log }

/-- The port's answers for the call that begins. -/
def load (answers : Answers) : Session := { cs with answers := answers }

/-- `get_mqtt_next_packet_id` -/
def getNextPacketId : Session :=
  { cs with nextPacketid := if cs.nextPacketid = 65535 then 1 else cs.nextPacketid + 1 }

/-! ## Sending -/

/-- The bytes that are sent when the loop of `mqtt_send_packet` ends. -/
def sendLoop (length : Int) : Int → List Int → Int × List Int
  | sent, [] => (sent, [])
  | sent, rc :: writes =>
    if sent < length then
      if rc ≤ 0 then (sent, writes) else sendLoop length (sent + rc) writes
    else (sent, rc :: writes)

def mqttSendPacket (t : MsgType) (length : Int) : Int × Session :=
  let r := sendLoop length 0 cs.answers.writes
  let cs := { cs with answers := { cs.answers with writes := r.2 } }
  if r.1 = length then (0, cs.note (.sent t)) else (-1, cs)

/-! ## Receiving -/

/-- The bytes that `mqtt_read` stores and what it returns. -/
def mqttRead (mlen : Nat) : List UInt8 × Int × Session :=
  match cs.answers.reads with
  | [] => ([], -1, cs)
  | a :: reads => (a.stored mlen, a.rc mlen, { cs with answers := { cs.answers with reads := reads } })

/-- Stores bytes in the read buffer, which they must not exceed. -/
def store (p : Nat) (data : List UInt8) : Option Session :=
  if p + data.length ≤ cs.readbuf.length then
    some { cs with readbuf := cs.readbuf.take p ++ data ++ cs.readbuf.drop (p + data.length) }
  else none

/-- The loop of `decodePacket`: the value so far when it ends. -/
def decodePacket : Nat → Nat → Nat → Session → Nat × Session
  | 0, _, value, cs => (value, cs)
  | n + 1, multiplier, value, cs =>
    match cs.mqttRead 1 with
    | (i :: _, rc, cs) =>
      if rc ≠ 1 then (value, cs)
      else
        let value := value + (i &&& 127).toNat * multiplier
        if i &&& 128 ≠ 0 then decodePacket n (multiplier * 128) value cs else (value, cs)
    | ([], _, cs) => (value, cs)

def mqttReadPacket : Option (Int × Session) :=
  let r := cs.mqttRead 1
  (r.2.2.store 0 r.1).bind fun cs =>
  if r.2.1 ≠ 1 then some (r.2.1, cs)
  else
    let d := decodePacket 4 1 0 cs
    let header := mqttPacketEncode d.1
    (d.2.store 1 header).bind fun cs =>
    let r := cs.mqttRead d.1
    (r.2.2.store (1 + header.length) r.1).bind fun cs =>
    if 0 < d.1 ∧ r.2.1 ≠ d.1 then some (r.2.1, cs)
    else cs.readbuf.head?.map fun header => (headerType header, cs)

/-! ## Subscribing and publishing -/

/-- `MQTTSubscribe`. A SUBACK counts unless the granted QoS is 0x80. -/
def mqttSubscribe (topicFilter : List UInt8) : Option (Int × Session) :=
  if !cs.isConnected then some (-1, cs)
  else
    let cs := cs.getNextPacketId
    let len := mqttSerializeSubscribe cs.bufSize.toNat topicFilter
    if len ≤ 0 then some (-1, cs)
    else
      let r := cs.mqttSendPacket .subscribe len
      if r.1 ≠ 0 then some r
      else
        r.2.mqttReadPacket.bind fun r =>
        if r.1 < 0 then some r
        else if r.1 = MsgType.suback.code then
          (mqttDeserializeSuback r.2.readbuf).map fun d =>
          let rc := if d.1 = 1 then d.2 else r.1
          (if rc ≠ 0x80 then 0 else rc, r.2)
        else some (-1, r.2)

/-- `mqtt_client_subscribe_handler` on the topics that are left. -/
def subscribeHandler : List (Option (List UInt8)) → Session → Option (Int × Session)
  | [], cs => some (0, cs)
  | none :: topics, cs => subscribeHandler topics cs
  | some topic :: topics, cs =>
    (cs.mqttSubscribe topic).bind fun r =>
    if r.1 ≠ 0 then some (-1, r.2) else subscribeHandler topics r.2

def mqttSendPublish (m : QueuedMsg) : Int × Session :=
  let cs := if m.qos = 1 ∨ m.qos = 2 then cs.getNextPacketId else cs
  let len := mqttSerializePublish cs.bufSize.toNat m.qos m.topicName m.payload
  if len ≤ 0 then (-1, cs)
  else
    let r := cs.mqttSendPacket .publish len
    if r.1 ≠ 0 then (-1, r.2) else (0, r.2)

/-- The handler publishes the first message that waits. -/
def sendQueued : Session :=
  match cs.msgs with
  | [] => cs
  | m :: msgs => (mqttSendPublish { cs with msgs := msgs } m).2

section
variable (locked : Bool)

def mqttPublish (malloced : Bool) (m : QueuedMsg) : Int × Session :=
  if !locked then (-1, cs)
  else if !cs.isConnected || !malloced then (-1, cs)
  else (0, { cs with msgs := cs.msgs ++ [m] })

def mqttClientPublish (malloced : Bool) (qos : Nat) (topic msgStr : List UInt8) : Int × Session :=
  if qos ≠ 1 then (-1, cs) else cs.mqttPublish locked malloced ⟨qos, topic, msgStr⟩

def mqttClientSubscribe (topic : List UInt8) : Option (Int × Session) :=
  if !locked then some (-1, cs)
  else (cs.mqttSubscribe topic).map fun r => (if r.1 ≠ 0 then -1 else 0, r.2)

end

/-! ## What comes in -/

/-- Sends the packet `t` of `len` bytes, if it could be written. -/
def answer (t : MsgType) (len : Int) : Int × Session :=
  if len ≤ 0 then (-1, cs) else cs.mqttSendPacket t len

/-- `MQTT_cycle`. A result of the read that is negative is a failure if it is -1. Undefined is a
publication whose topic is not set, and a notice without a function to take it. -/
def mqttCycle (now : UInt32) : Option (Int × Session) :=
  cs.mqttReadPacket.bind fun r =>
  let cs := r.2
  let ack := mqttSerializeAck cs.bufSize.toNat
  if r.1 = -1 then some (-1, cs)
  else if r.1 = MsgType.puback.code then
    if cs.mqttNoticeCb then some (0, { cs with tickPing := now }) else none
  else if r.1 = MsgType.publish.code then
    (mqttDeserializePublish cs.readbuf).bind fun d =>
    if d.rc ≠ 1 then some (0, cs)
    else if !d.named then none
    else
      let cs := { cs with tickPing := now }
      if d.qos = 0 then some (0, cs)
      else if d.qos = 1 then some (cs.answer .puback ack)
      else if d.qos = 2 then some (cs.answer .pubrec ack)
      else some (-1, cs)
  else if r.1 = MsgType.pubrec.code then
    (mqttDeserializeAck cs.readbuf).map fun rc =>
    if rc ≠ 1 then (-1, cs) else cs.answer .pubrel ack
  else if r.1 = MsgType.pingresp.code then some (0, { cs with tickPing := now })
  else some (0, cs)

/-! ## The network connection -/

/-- `socket` is what the port's function leaves in `netport.socket`. -/
def mqttNetConnect (socket : Int) : Int × Session :=
  if !cs.netIsConnected then
    let cs := { cs with socket := socket }
    if 0 ≤ socket then (0, ({ cs with netIsConnected := true } : Session).note .opened) else (-1, cs)
  else (0, cs)

def mqttNetDisconnect : Session :=
  if cs.disconnect then
    let cs := { cs with socket := if 0 ≤ cs.socket then -1 else cs.socket }
    ({ cs with netIsConnected := false } : Session).note .closed
  else cs

end Session

/-! ## The list of sessions -/

section
variable {ι : Type*} [DecidableEq ι]

/-- The node of a session is taken out of its list, if it is in one. -/
def removeNode (l : Links (Option ι)) (i : ι) : Links (Option ι) :=
  if !l.isEmpty (some i) then l.delInit (some i) else l

def mqttClientSendDisconnectPacket (i : ι) (l : Links (Option ι)) (cs : Session) :
    Int × Links (Option ι) × Session :=
  let len := mqttSerializeDisconnect cs.bufSize.toNat
  if 0 < len then
    let r := cs.mqttSendPacket .disconnect len
    (if r.1 = 0 then 0 else -5000, removeNode l i, r.2)
  else (-1, l, cs)

/-- The session takes the interval over from the options. -/
def Session.configured (cs : Session) (o : ConnectData) : Session :=
  { cs with keepAliveInterval := o.keepAliveInterval.toUInt32 }

structure ConnectInput where
  /-- Whether the lock is taken. -/
  locked : Bool
  answers : Answers
  options : ConnectData
  now : UInt32

/-- The label `exit` of `mqtt_client_connect`. -/
def connectExit (ret : Int) (l : Links (Option ι)) (cs : Session) :
    Int × Links (Option ι) × Session :=
  (ret, l, if !cs.isConnected then cs.mqttNetDisconnect else cs)

/-- A CONNACK has come: the session is marked whatever the server's return code is. -/
def connackReceived (i : ι) (l : Links (Option ι)) (cs : Session) (code : Option UInt8)
    (now : UInt32) : Option (Int × Links (Option ι) × Session) :=
  let cs := ({ cs with isConnected := true, tickPing := now } : Session).note (.connack code)
  (cs.subscribeHandler cs.topicFilters).map fun r => (r.1, l.addTail (some i) none, r.2)

/-- The CONNECT, and what comes for it. Nothing is put into `ret` where the CONNECT does not fit and
where the read fails. -/
def connectExchange (i : ι) (l : Links (Option ι)) (cs : Session) (x : ConnectInput) :
    Option (Int × Links (Option ι) × Session) :=
  let cs := cs.configured x.options
  (mqttSerializeConnect x.options cs.bufSize.toNat).bind fun len =>
  if len ≤ 0 then some (connectExit 0 l cs)
  else
    let r := cs.mqttSendPacket .connect len
    if r.1 ≠ 0 then some (connectExit r.1 l r.2)
    else
      r.2.mqttReadPacket.bind fun r =>
      if r.1 < 0 then some (connectExit 0 l r.2)
      else if r.1 = MsgType.connack.code then
        (mqttDeserializeConnack r.2.readbuf).bind fun d =>
        if d.1 = 1 then connackReceived i l r.2 d.2 x.now else some (connectExit (-1) l r.2)
      else some (connectExit (-1) l r.2)

def mqttClientConnect (i : ι) (l : Links (Option ι)) (cs : Session) (x : ConnectInput) :
    Option (Int × Links (Option ι) × Session) :=
  if !x.locked then some (-1, l, cs)
  else if !cs.netIsConnected then some (connectExit (-6600) l cs)
  else if cs.isConnected then some (connectExit 0 l cs)
  else connectExchange i l cs x

def mqttClientDisconnect (i : ι) (l : Links (Option ι)) (cs : Session) (locked : Bool) :
    Int × Links (Option ι) × Session :=
  if !locked then (-1, l, cs)
  else
    let len := mqttSerializeDisconnect cs.bufSize.toNat
    let cs := if 0 < len then (cs.mqttSendPacket .disconnect len).2 else cs
    (0, removeNode l i, ({ cs with isConnected := false } : Session).note .disconnected)

/-- The list `mqtt_hd`, whose head is the node `none`, and the sessions. -/
structure Client (ι : Type*) where
  links : Links (Option ι)
  sessions : ι → Session

def Client.put (s : Client ι) (i : ι) (l : Links (Option ι)) (cs : Session) : Client ι :=
  ⟨l, Function.update s.sessions i cs⟩

/-! ## The handler -/

structure HandlerInput where
  locked : Bool
  answers : Answers
  /-- What `select` returns. -/
  res : Int
  fdIsSet : Bool
  /-- The time when the handler looks whether a ping is due. -/
  dueTime : UInt32
  now : UInt32

/-- A ping is due. -/
def Session.PingDue (cs : Session) (x : HandlerInput) : Prop :=
  cs.tickPing + cs.keepAliveInterval ≤ x.dueTime

instance (cs : Session) (x : HandlerInput) : Decidable (cs.PingDue x) :=
  inferInstanceAs (Decidable (_ ≤ _))

/-- The body of the handler's loop, which runs once: whether the connection is to be dropped. -/
def Session.serve (cs : Session) (x : HandlerInput) : Option (Bool × Session) :=
  if x.res = 0 then
    if cs.PingDue x then
      let r := cs.mqttSendPacket .pingreq (mqttSerializePingreq cs.bufSize.toNat)
      if r.1 ≠ 0 then some (true, r.2) else some (false, { r.2 with tickPing := x.now })
    else some (false, cs)
  else if x.res < 0 then some (true, cs)
  else if x.fdIsSet then (cs.mqttCycle x.now).map fun r => (decide (r.1 < 0), r.2)
  else some (false, cs)

/-- What the handler does to the first session of the list. -/
def handle (i : ι) (l : Links (Option ι)) (cs : Session) (x : HandlerInput) :
    Option (Links (Option ι) × Session) :=
  if !x.locked then some (l, cs)
  else if !cs.isConnected || !cs.netIsConnected then some (removeNode l i, cs)
  else
    (cs.sendQueued.serve x).map fun r =>
    if r.1 then
      let d := mqttClientSendDisconnectPacket i l r.2
      (d.2.1, d.2.2.mqttNetDisconnect)
    else (l, r.2)

def mqttCoreHandler (s : Client ι) (x : HandlerInput) : Option (Client ι) :=
  match s.links.next none with
  | none => some s
  | some i =>
    (handle i s.links ((s.sessions i).load x.answers) x).map fun r => s.put i r.1 r.2

end

end AppXd.Mqtt
