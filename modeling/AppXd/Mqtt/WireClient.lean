import AppXd.Mqtt.SubscribeFormat
import AppXd.Mqtt.ConnectFormat

/-!
# The client's view of the packets

The client asks of a writer how many bytes it has written, and of a reader a part of what it
returns: the functions of `Packet`.
-/

namespace AppXd.Mqtt.Wire

/-! ## Writers -/

section
variable {buflen : Nat}

theorem wrapped_fst (buflen : Nat) (header : UInt8) (body : List UInt8) :
    (wrapped buflen header body).map (·.1) = some (serialized buflen body.length) := by
  unfold wrapped serialized
  split
  · rfl
  · rename_i h
    simp only [Option.map_some, packet, List.length_cons, List.length_append]
    congr 1
    omega

theorem one_cstring (c : List UInt8) : MQTTString.One ⟨some c, none⟩ := .inr rfl

theorem mqttSerializePublish_fst (hbuf : buflen < 65536) (dup : UInt8) (qos : Nat) (retained : UInt8)
    (packetid : UInt16) (topicName payload : List UInt8) :
    (mqttSerializePublish buflen dup qos retained packetid ⟨some topicName, none⟩ payload).map
      (·.1) = some (Mqtt.mqttSerializePublish buflen qos topicName payload) := by
  rw [mqttSerializePublish_eq hbuf (one_cstring topicName), wrapped_fst,
    length_publishBody qos packetid payload (one_cstring topicName)]
  rfl

theorem mqttSerializeSubscribe_fst (hbuf : buflen < 65536) (dup : UInt8) (packetid : UInt16)
    (topicFilter : List UInt8) (qos : Int) :
    (mqttSerializeSubscribe buflen dup packetid [(⟨some topicFilter, none⟩, qos)]).map (·.1) =
      some (Mqtt.mqttSerializeSubscribe buflen topicFilter) := by
  have hone : ∀ t ∈ [((⟨some topicFilter, none⟩ : MQTTString), qos)], t.1.One := by
    intro t ht
    rw [List.mem_singleton.1 ht]
    exact one_cstring topicFilter
  rw [mqttSerializeSubscribe_eq hbuf hone, wrapped_fst, length_listBody]
  simp only [List.flatMap_cons, List.flatMap_nil, List.append_nil, length_writeSubscription]
  rfl

theorem mqttSerializeAck_fst (buflen : Nat) (packettype : MsgType) (dup : UInt8)
    (packetid : UInt16) :
    (mqttSerializeAck buflen packettype dup packetid).map (·.1) =
      some (Mqtt.mqttSerializeAck buflen) := by
  unfold mqttSerializeAck Mqtt.mqttSerializeAck
  split
  · rfl
  · rename_i h
    have htwo : (writeInt packetid.toNat).length = 2 := rfl
    rw [(written_four htwo h (Nat.le_refl 4)).1]
    rfl

theorem mqttSerializeZero_fst (buflen : Nat) (packettype : MsgType) :
    (mqttSerializeZero buflen packettype).map (·.1) = some (Mqtt.mqttSerializeZero buflen) := by
  unfold mqttSerializeZero Mqtt.mqttSerializeZero written
  split
  · rfl
  · rename_i h
    have htwo : (headerByte packettype 0 0 0 :: mqttPacketEncode 0).length = 2 := rfl
    rw [if_pos (Nat.le_trans (Nat.le_of_eq htwo) (Nat.not_lt.1 h)), htwo]
    rfl

theorem length_writeMQTTString_eq_written (s : MQTTString) :
    (writeMQTTString s).length = s.written := by
  rw [length_writeMQTTString]
  unfold MQTTString.text MQTTString.written
  split
  · rfl
  · rfl

theorem length_connectBytes_eq_connectBody (o : ConnectOptions) :
    (connectBytes o).length = connectBody o.toConnectData := by
  have hprotocol : (connectProtocol o.mqttVersion).length = if o.mqttVersion = 4 then 7 else 9 := by
    unfold connectProtocol
    split <;> rfl
  unfold connectBytes connectBody willBytes credentialBytes
  simp only [List.length_append, List.length_cons, length_writeMQTTString_eq_written, hprotocol,
    apply_ite List.length, List.length_nil, writeInt]
  omega

/-- Whatever strings are given: where one function writes past the end of the buffer, so does the
other. -/
theorem mqttSerializeConnect_fst (buflen : Nat) (o : ConnectOptions) :
    (mqttSerializeConnect buflen o).map (·.1) =
      Mqtt.mqttSerializeConnect o.toConnectData buflen := by
  have hlen : (headerByte .connect 0 0 0 ::
      (mqttPacketEncode (mqttSerializeConnectLength o.toConnectData) ++ connectBytes o)).length =
      1 + (mqttPacketEncode (mqttSerializeConnectLength o.toConnectData)).length +
        connectBody o.toConnectData := by
    rw [List.length_cons, List.length_append, length_connectBytes_eq_connectBody]
    omega
  unfold mqttSerializeConnect Mqtt.mqttSerializeConnect
  simp only
  split
  · rfl
  · change (written buflen (headerByte .connect 0 0 0 ::
      (mqttPacketEncode (mqttSerializeConnectLength o.toConnectData) ++ connectBytes o))).map _ = _
    unfold written
    rw [hlen]
    split
    · rfl
    · rfl

end

/-! ## Readers -/

section
variable (buf : List UInt8)

theorem readMQTTLenString_end (p enddata : Nat) :
    (readMQTTLenString buf p enddata).map (·.map fun s => s.start + s.len) =
      Mqtt.readMQTTLenString buf p enddata := by
  unfold readMQTTLenString Mqtt.readMQTTLenString readInt
  split
  · cases buf[p]? with
    | none => rfl
    | some hi =>
      cases buf[p + 1]? with
      | none => rfl
      | some lo =>
        simp only [Option.bind_eq_bind, Option.bind_some, Option.map_some]
        split
        · rfl
        · rfl
  · rfl

theorem mqttDeserializePublish_client :
    (mqttDeserializePublish buf).map (fun d => (d.1, d.2.map (·.qos))) =
      (Mqtt.mqttDeserializePublish buf).map fun d =>
        (d.rc, if d.named then some d.qos else none) := by
  unfold mqttDeserializePublish Mqtt.mqttDeserializePublish
  cases buf[0]? with
  | none => rfl
  | some header =>
    simp only [Option.bind_eq_bind, Option.bind_some]
    split
    · rfl
    · cases mqttPacketDecodeBuf buf 1 with
      | none => rfl
      | some d =>
        obtain ⟨rc, mylen⟩ := d
        simp only [Option.bind_some, ← readMQTTLenString_end]
        cases readMQTTLenString buf (1 + rc) (1 + rc + mylen) with
        | none => rfl
        | some s =>
          cases s with
          | none => rfl
          | some s =>
            simp only [Option.bind_some, Option.map_some, readInt]
            split
            · cases buf[s.start + s.len]? with
              | none => rfl
              | some hi =>
                cases buf[s.start + s.len + 1]? with
                | none => rfl
                | some lo => rfl
            · rfl

theorem mqttDeserializeAck_client :
    (mqttDeserializeAck buf).map (·.1) = Mqtt.mqttDeserializeAck buf := by
  unfold mqttDeserializeAck Mqtt.mqttDeserializeAck readInt
  cases buf[0]? with
  | none => rfl
  | some header =>
    cases mqttPacketDecodeBuf buf 1 with
    | none => rfl
    | some d =>
      obtain ⟨rc, mylen⟩ := d
      simp only [Option.bind_eq_bind, Option.bind_some, Nat.add_right_comm 1 rc 1]
      split
      · rfl
      · cases buf[1 + rc]? with
        | none => rfl
        | some hi =>
          cases buf[2 + rc]? with
          | none => rfl
          | some lo => rfl

theorem mqttDeserializeConnack_client :
    (mqttDeserializeConnack buf).map (fun d => (d.1, d.2.map (·.2))) =
      Mqtt.mqttDeserializeConnack buf := by
  unfold mqttDeserializeConnack Mqtt.mqttDeserializeConnack
  cases buf[0]? with
  | none => rfl
  | some header =>
    simp only [Option.bind_eq_bind, Option.bind_some]
    split
    · rfl
    · cases mqttPacketDecodeBuf buf 1 with
      | none => rfl
      | some d =>
        obtain ⟨rc, mylen⟩ := d
        simp only [Option.bind_some]
        split
        · rfl
        · cases buf[1 + rc]? with
          | none => rfl
          | some flags =>
            cases buf[2 + rc]? with
            | none => rfl
            | some connackRc => rfl

/-- The loop over the granted QoS, where there is room for one. -/
theorem subackLoop_one (rc mylen packetid : Nat) (h : 2 ≤ mylen) :
    ((subackLoop buf 1 (1 + rc + mylen) mylen (1 + rc + 2) []).bind fun r =>
        some (r.1, some (packetid, r.2))).map
      (fun d => (d.1, (d.2.bind (·.2.head?)).getD (-1))) =
      if mylen = 2 then some (1, -1)
      else if mylen = 3 then (buf[3 + rc]?).bind fun granted => some (1, granted.toInt8.toInt)
      else none := by
  obtain ⟨mylen, rfl⟩ := Nat.exists_eq_add_of_le' h
  have hindex : 1 + rc + 2 = 3 + rc := by omega
  rw [subackLoop, hindex]
  cases mylen with
  | zero =>
    rw [if_neg (by omega), if_pos rfl]
    rfl
  | succ mylen =>
    cases mylen with
    | zero =>
      rw [if_pos (by omega), if_neg (by decide), if_neg (by decide), if_pos rfl]
      cases buf[3 + rc]? with
      | none => rfl
      | some granted =>
        simp only [Option.bind_eq_bind, Option.bind_some, List.length_nil, Nat.zero_lt_one, if_true,
          subackLoop]
        rw [if_neg (by omega)]
        rfl
    | succ mylen =>
      rw [if_pos (by omega), if_neg (by decide), if_neg (by omega), if_neg (by omega)]
      cases buf[3 + rc]? with
      | none => rfl
      | some granted =>
        simp only [Option.bind_eq_bind, Option.bind_some, List.length_nil, Nat.zero_lt_one, if_true,
          subackLoop]
        rw [if_pos (by omega)]
        cases buf[3 + rc + 1]? with
        | none => rfl
        | some granted => rfl

/-- The array of the client takes one QoS, and is filled with -1 before. -/
theorem mqttDeserializeSuback_client :
    (mqttDeserializeSuback buf 1).map (fun d => (d.1, (d.2.bind (·.2.head?)).getD (-1))) =
      Mqtt.mqttDeserializeSuback buf := by
  unfold mqttDeserializeSuback Mqtt.mqttDeserializeSuback readInt
  cases buf[0]? with
  | none => rfl
  | some header =>
    simp only [Option.bind_eq_bind, Option.bind_some]
    split
    · rfl
    · cases mqttPacketDecodeBuf buf 1 with
      | none => rfl
      | some d =>
        obtain ⟨rc, mylen⟩ := d
        simp only [Option.bind_some, Nat.add_right_comm 1 rc 1]
        split
        · rfl
        · cases buf[1 + rc]? with
          | none => rfl
          | some hi =>
            cases buf[2 + rc]? with
            | none => rfl
            | some lo =>
              simp only [Option.bind_some]
              exact subackLoop_one buf rc mylen (256 * hi.toNat + lo.toNat) (Nat.not_lt.1 ‹_›)

end

end AppXd.Mqtt.Wire
