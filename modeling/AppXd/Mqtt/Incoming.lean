import AppXd.Mqtt.Deliver
import AppXd.Mqtt.TcpRead

/-!
# Publications that come in

From the server's writer over TCP to the callbacks of the application: each piece keeps what the one
before has given.
-/

namespace AppXd.Mqtt

/-- What `MQTT_cycle` delivers of a PUBLISH in the read buffer: who gets a message, its topic and its
payload. Undefined is one whose topic is not set. -/
def cycleDelivery (readbuf : List UInt8) (messageHandlers : List SubMsgHandler)
    (defaultMessageHandler : Bool) : Option (Option (List Receiver × List UInt8 × List UInt8)) := do
  let (rc, d) ← Wire.mqttDeserializePublish readbuf
  if rc ≠ 1 then some none
  else
    let d ← d
    let topicName := d.topicName.text readbuf
    some (some ((deliverMessage messageHandlers defaultMessageHandler topicName).1, topicName,
      Wire.Slice.text ⟨d.payload, d.payloadlen.toNat⟩ readbuf))

namespace Session

section
variable {cs : Session} {buflen qos : Nat} {dup retained : UInt8} {packetid : UInt16}
  {topicName : MQTTString} {payload bytes : List UInt8} {n : Int} {reads : List ReadAnswer}
  {timeout : UInt32} {calls : List (Nat × List Round)}

/-- What the client takes from a publication that its packet library reads. -/
theorem exists_publish {readbuf : List UInt8} {d : Wire.PublishData}
    (h : Wire.mqttDeserializePublish readbuf = some (1, some d)) :
    ∃ p, mqttDeserializePublish readbuf = some p ∧ p.rc = 1 ∧ p.named = true ∧ p.qos = d.qos := by
  have hclient := Wire.mqttDeserializePublish_client readbuf
  rw [h, Option.map_some, Option.map_some] at hclient
  obtain ⟨p, hp, hfields⟩ := Option.map_eq_some_iff.1 hclient.symm
  obtain ⟨hrc, hqos⟩ := Prod.mk.inj hfields
  refine ⟨p, hp, hrc, ?_⟩
  cases hnamed : p.named with
  | true =>
    rw [hnamed, if_pos rfl] at hqos
    exact ⟨rfl, Option.some.inj hqos⟩
  | false =>
    rw [hnamed] at hqos
    cases hqos

/-- A publication that the server writes and sends, in whatever pieces, behind it whatever comes: if
it fits into the read buffer and the pieces come in time, `MQTT_cycle` takes it from the connection,
delivers its topic and payload to those who get messages of this topic, and acknowledges it as its
QoS says. -/
theorem mqttCycle_of_sent (hbuf : buflen < 65536) (hone : topicName.One) (hqos : qos < 4)
    (h : Wire.mqttSerializePublish buflen dup qos retained packetid topicName payload =
      some (n, bytes)) (hn : 0 < n) (hroom : bytes.length ≤ cs.readbuf.length) (more : List UInt8)
    (hcalls : calls.map Prod.fst =
      (packetPieces 0 (Wire.publishBody qos packetid topicName payload)).map List.length)
    (htimely : ∀ c ∈ calls, Timely timeout c.1 c.2)
    (hreads : cs.answers.reads = tcpAnswers timeout calls (bytes ++ more) ++ reads) :
    cs.mqttReadPacket = some (MsgType.publish.code, cs.filled reads bytes) ∧
      (∀ messageHandlers defaultMessageHandler,
        cycleDelivery (cs.filled reads bytes).readbuf messageHandlers defaultMessageHandler =
          some (some ((deliverMessage messageHandlers defaultMessageHandler topicName.text).1,
            topicName.text, payload))) ∧
      ∀ now, cs.mqttCycle now =
        let cs' := { cs.filled reads bytes with tickPing := now }
        some (if qos = 0 then (0, cs')
          else if qos = 1 then cs'.answer .puback (mqttSerializeAck cs.bufSize.toNat)
          else if qos = 2 then cs'.answer .pubrec (mqttSerializeAck cs.bufSize.toNat)
          else (-1, cs')) := by
  have hread := Wire.mqttDeserializePublish_serialize hbuf hone hqos h hn
    (cs.readbuf.drop bytes.length)
  rw [Wire.mqttSerializePublish_eq hbuf hone] at h
  obtain ⟨rfl, -, -, hbody⟩ := Wire.wrapped_eq_some hbuf h hn
  have hpieces : (packetPieces (Wire.headerByte .publish dup qos retained)
      (Wire.publishBody qos packetid topicName payload)).map List.length = calls.map Prod.fst :=
    hcalls.symm
  have hanswers := tcpAnswers_timely htimely hpieces more
  rw [flatten_packetPieces] at hanswers
  rw [hanswers] at hreads
  have hpacket := mqttReadPacket_pieces (Nat.lt_trans hbody (by decide)) hroom hreads
  rw [(Wire.headerByte_fields .publish dup retained hqos).1] at hpacket
  generalize Wire.packet (Wire.headerByte .publish dup qos retained)
    (Wire.publishBody qos packetid topicName payload) = bytes at *
  obtain ⟨-, -, d, hd, -, hdqos, -, -, htopic, hlen, hpayload⟩ := hread
  have hbuffer : (cs.filled reads bytes).readbuf = bytes ++ cs.readbuf.drop bytes.length := rfl
  refine ⟨hpacket, fun messageHandlers defaultMessageHandler => ?_, fun now => ?_⟩
  · have hnat : d.payloadlen.toNat = payload.length := by omega
    unfold cycleDelivery
    rw [hbuffer, hd]
    simp only [Option.bind_eq_bind, Option.bind_some, ne_eq, not_true_eq_false, if_false, htopic,
      hnat, hpayload]
  · obtain ⟨p, hp, hrc, hnamed, hpqos⟩ := exists_publish hd
    unfold mqttCycle
    rw [hpacket]
    simp only [Option.bind_some, hbuffer, hp, hrc, hnamed, hpqos, hdqos, MsgType.code]
    rw [if_neg (by decide), if_neg (by decide), if_pos trivial, if_neg (by decide),
      if_neg (by decide)]
    split_ifs <;> rfl

end

/-- The calls for a packet with a body of six bytes, where no round has more than two. -/
def slowCalls : List (Nat × List Round) :=
  [1, 1, 6].map fun mlen => (mlen, List.replicate mlen ⟨1, .bytes 2, 1⟩)

/-- A session to which a publication comes that way, and the first byte of the next packet. -/
def slowSession : Session :=
  reading (tcpAnswers 100 slowCalls ([0x32, 6, 0, 1, 97, 0, 7, 120] ++ [0xC0]) ++ [])

theorem slowCalls_timely : ∀ c ∈ slowCalls, Timely 100 c.1 c.2 := by
  intro c hc
  obtain ⟨mlen, hmem, rfl⟩ := List.mem_map.1 hc
  clear hc
  refine ⟨Nat.le_of_eq List.length_replicate.symm, fun r hr => ?_, fun r hr => ?_, ?_⟩
  · rw [List.eq_of_mem_replicate hr]
    decide
  · rw [List.eq_of_mem_replicate hr]
    exact ⟨1, rfl⟩
  · revert mlen
    decide

theorem mqttCycle_of_sent_slow :
    ∃ cs', slowSession.mqttReadPacket = some (3, cs') ∧
      cycleDelivery cs'.readbuf [⟨some [43], true⟩] false =
        some (some ([.handler 0], [97], [120])) := by
  have hwrite : Wire.mqttSerializePublish 16 0 1 0 7 ⟨some [97], none⟩ [120] =
      some (8, [0x32, 6, 0, 1, 97, 0, 7, 120]) := by decide
  have hroom : [0x32, 6, 0, 1, 97, 0, 7, 120].length ≤ slowSession.readbuf.length := by decide
  obtain ⟨hread, hdeliver, -⟩ := mqttCycle_of_sent (by decide) (.inr rfl) (by decide) hwrite
    (by decide) hroom [0xC0] rfl slowCalls_timely rfl
  exact ⟨_, hread, hdeliver [⟨some [43], true⟩] false⟩

end Session

end AppXd.Mqtt
