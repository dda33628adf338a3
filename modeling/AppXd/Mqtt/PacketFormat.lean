import AppXd.Mqtt.Serialize
import AppXd.Mqtt.Deserialize

/-!
# The format of MQTT packets

What the functions of `Serialize` write, those of `Deserialize` read back. A buffer is `p` bytes in
where the text `buf.drop p` is left of it.
-/

namespace AppXd.Mqtt

namespace Wire

/-! ## Lengths -/

theorem encodeDigits_eq {k n : Nat} (h : n < 128 ^ (k + 1)) :
    encodeDigits (k + 1) n = Base128.digits n := by
  induction k generalizing n with
  | zero =>
    have h' : n < 128 := h
    rw [Base128.digits_of_lt h', encodeDigits, Nat.mod_eq_of_lt h', Nat.div_eq_of_lt h']
    rfl
  | succ k ih =>
    rw [encodeDigits]
    rcases Nat.lt_or_ge n 128 with hn | hn
    · rw [Base128.digits_of_lt hn, Nat.mod_eq_of_lt hn, Nat.div_eq_of_lt hn]
      rfl
    · have hdiv : n / 128 < 128 ^ (k + 1) := by
        rwa [Nat.div_lt_iff_lt_mul (by decide), ← Nat.pow_succ]
      rw [Base128.digits_of_le hn, if_pos (Nat.div_pos hn (by decide)), ih hdiv]

theorem mqttPacketEncode_eq {n : Nat} (h : n < 128 ^ 4) : mqttPacketEncode n = Base128.digits n :=
  encodeDigits_eq (Nat.lt_trans h (by decide))

/-- The header and a remaining length of at most four bytes fit into what `MQTTPacket_len` counts. -/
theorem length_le_mqttPacketLen {n : Nat} (h : n < 128 ^ 4) :
    1 + (mqttPacketEncode n).length + n ≤ mqttPacketLen n := by
  have hdigits : ∀ k, n < 128 ^ (k + 1) → (mqttPacketEncode n).length ≤ k + 1 := by
    intro k hk
    rw [mqttPacketEncode_eq h]
    exact Base128.length_digits_le_iff.2 hk
  have h1 := hdigits 0
  have h2 := hdigits 1
  have h3 := hdigits 2
  have h4 := hdigits 3 h
  simp only [Nat.reduceAdd, Nat.reducePow] at h1 h2 h3 h4
  unfold mqttPacketLen
  simp only
  split_ifs <;> omega

theorem lt_of_mqttPacketLen {n buflen : Nat} (h : ¬ buflen < mqttPacketLen n)
    (hbuf : buflen < 65536) : n < 65536 := by
  unfold mqttPacketLen at h
  simp only at h
  split_ifs at h <;> omega

/-! ## The header byte -/

theorem and_one_eq (x : UInt8) : x &&& 1 = 0 ∨ x &&& 1 = 1 := by
  have hall : ∀ x : BitVec 8, UInt8.ofBitVec x &&& 1 = 0 ∨ UInt8.ofBitVec x &&& 1 = 1 := by
    decide +kernel
  exact hall x.toBitVec

/-- The bit fields of the header byte. -/
theorem headerByte_fields (t : MsgType) (dup retain : UInt8) {qos : Nat} (h : qos < 4) :
    (headerType (headerByte t dup qos retain) : Int) = t.code ∧
      headerDup (headerByte t dup qos retain) = dup &&& 1 ∧
      headerQos (headerByte t dup qos retain) = qos ∧
      headerRetain (headerByte t dup qos retain) = retain &&& 1 := by
  have hall : ∀ d r : UInt8, d = 0 ∨ d = 1 → r = 0 ∨ r = 1 → ∀ q : Nat, q < 4 → ∀ b : UInt8,
      b = t.code.toNat.toUInt8 <<< 4 ||| d <<< 3 ||| (q.toUInt8 &&& 3) <<< 1 ||| r →
      (headerType b : Int) = t.code ∧ headerDup b = d ∧ headerQos b = q ∧ headerRetain b = r := by
    rintro d r (rfl | rfl) (rfl | rfl) q hq b rfl <;> revert q <;> cases t <;> decide
  exact hall _ _ (and_one_eq dup) (and_one_eq retain) qos h _ rfl

/-! ## Bytes of a buffer -/

section
variable {buf r x : List UInt8} {p n : Nat} {b : UInt8}

theorem getElem?_of_drop (h : buf.drop p = b :: r) : buf[p]? = some b := by
  have hhead := congrArg List.head? h
  rwa [List.head?_drop] at hhead

theorem drop_add_of_drop (h : buf.drop p = x ++ r) : buf.drop (p + x.length) = r := by
  rw [← List.drop_drop, h, List.drop_left]

theorem drop_succ_of_drop (h : buf.drop p = b :: r) : buf.drop (p + 1) = r :=
  drop_add_of_drop (x := [b]) h

theorem Slice.text_of_drop (h : buf.drop p = x ++ r) : Slice.text ⟨p, x.length⟩ buf = x := by
  unfold Slice.text
  rw [h, List.take_left]

theorem toNat_toUInt8_of_lt (h : n < 256) : n.toUInt8.toNat = n :=
  Nat.mod_eq_of_lt h

/-- A number of two bytes is read back. -/
theorem readInt_of_drop (hn : n < 65536) (h : buf.drop p = writeInt n ++ r) :
    readInt buf p = some n ∧ buf.drop (p + 2) = r := by
  refine ⟨?_, drop_add_of_drop h⟩
  have hlo : buf.drop (p + 1) = (n % 256).toUInt8 :: r := drop_succ_of_drop h
  unfold readInt
  rw [getElem?_of_drop h, getElem?_of_drop hlo]
  simp only [Option.bind_eq_bind, Option.bind_some]
  rw [toNat_toUInt8_of_lt (by omega), toNat_toUInt8_of_lt (by omega), Nat.div_add_mod]

/-- The loop reads the number that the bytes hold. -/
theorem decodeBufLoop_read (len multiplier value : Nat) {k m : Nat}
    (h : Base128.read k (buf.drop p) = some (m, r)) :
    ∃ c, decodeBufLoop buf k p len multiplier value = some (len + c, value + multiplier * m) ∧
      (buf.drop p).length = c + r.length := by
  induction k generalizing p m len multiplier value with
  | zero => cases h
  | succ k ih =>
    cases hbuf : buf.drop p with
    | nil =>
      rw [hbuf] at h
      cases h
    | cons b l =>
      have hnext : buf.drop (p + 1) = l := drop_succ_of_drop hbuf
      rw [hbuf, Base128.read] at h
      unfold decodeBufLoop
      rw [getElem?_of_drop hbuf]
      simp only [Option.bind_eq_bind, Option.bind_some]
      split at h
      · rename_i hlast
        obtain ⟨rfl, rfl⟩ := Prod.mk.inj (Option.some.inj h)
        rw [if_neg (fun hmore => hmore hlast)]
        exact ⟨1, by rw [Nat.mul_comm], by rw [List.length_cons, Nat.add_comm]⟩
      · rename_i hmore
        obtain ⟨⟨m', r'⟩, hm, hr⟩ := Option.map_eq_some_iff.1 h
        obtain ⟨rfl, rfl⟩ := Prod.mk.inj hr
        rw [← hnext] at hm
        obtain ⟨c, hloop, hlen⟩ := ih (len + 1) (multiplier * 128)
          (value + (b &&& 127).toNat * multiplier) hm
        rw [if_pos hmore, hloop]
        refine ⟨c + 1, ?_, ?_⟩
        · have hsum : value + (b &&& 127).toNat * multiplier + multiplier * 128 * m' =
              value + multiplier * ((b &&& 127).toNat + 128 * m') := by
            rw [Nat.mul_add, Nat.mul_comm (b &&& 127).toNat, Nat.mul_assoc, Nat.add_assoc]
          have hc : len + 1 + c = len + (c + 1) := by omega
          rw [hsum, hc]
        · rw [hnext] at hlen
          rw [List.length_cons, hlen]
          omega

/-- A remaining length of at most four bytes is read back. -/
theorem mqttPacketDecodeBuf_of_drop (hn : n < 128 ^ 4)
    (h : buf.drop p = mqttPacketEncode n ++ r) :
    mqttPacketDecodeBuf buf p = some ((mqttPacketEncode n).length, n) ∧
      buf.drop (p + (mqttPacketEncode n).length) = r := by
  refine ⟨?_, drop_add_of_drop h⟩
  have hread : Base128.read 4 (buf.drop p) = some (n, r) := by
    rw [h, mqttPacketEncode_eq hn]
    exact Base128.read_digits (Base128.length_digits_le_iff.2 hn)
  obtain ⟨c, hloop, hlen⟩ := decodeBufLoop_read 0 1 0 hread
  have hc : c = (mqttPacketEncode n).length := by
    rw [h, List.length_append] at hlen
    omega
  unfold mqttPacketDecodeBuf
  rw [hloop, hc, Nat.zero_add, Nat.zero_add, Nat.one_mul]

end

/-! ## Strings -/

end Wire

namespace MQTTString

variable (s : MQTTString)

/-- Only one of the two strings is given. -/
def One : Prop := s.cstring = none ∨ s.len = 0

instance : Decidable s.One := inferInstanceAs (Decidable (_ ∨ _))

/-- What is written of the string. -/
def text : List UInt8 := if 0 < s.len then s.lenstring.getD [] else s.cstring.getD []

variable {s}

theorem One.strlen (h : s.One) : s.strlen = s.text.length := by
  unfold MQTTString.strlen text
  rcases h with h | h
  · rw [h]
    simp only [Option.getD_none]
    split
    · rfl
    · rename_i hlen
      exact Nat.eq_zero_of_not_pos hlen
  · rw [if_neg (Nat.not_lt.2 (Nat.le_of_eq h))]
    cases s.cstring with
    | none => exact h
    | some c => rfl

end MQTTString

namespace Wire

section
variable {s : MQTTString} {buf r : List UInt8} {p enddata : Nat}

theorem writeMQTTString_eq (s : MQTTString) :
    writeMQTTString s = writeInt s.text.length ++ s.text := by
  unfold writeMQTTString MQTTString.text
  split
  · rfl
  · rfl

@[simp] theorem length_writeMQTTString (s : MQTTString) :
    (writeMQTTString s).length = 2 + s.text.length := by
  rw [writeMQTTString_eq, List.length_append]
  rfl

/-- A string is read back. -/
theorem readMQTTLenString_of_drop (hs : s.text.length < 65536)
    (hend : p + (2 + s.text.length) ≤ enddata) (h : buf.drop p = writeMQTTString s ++ r) :
    readMQTTLenString buf p enddata = some (some ⟨p + 2, s.text.length⟩) ∧
      Slice.text ⟨p + 2, s.text.length⟩ buf = s.text ∧
      buf.drop (p + 2 + s.text.length) = r := by
  rw [writeMQTTString_eq, List.append_assoc] at h
  obtain ⟨hlen, hrest⟩ := readInt_of_drop hs h
  refine ⟨?_, Slice.text_of_drop hrest, drop_add_of_drop hrest⟩
  unfold readMQTTLenString
  rw [if_pos (by omega), hlen]
  simp only [Option.bind_eq_bind, Option.bind_some]
  rw [if_pos (by omega)]

end

/-! ## Packets -/

/-- A packet with a remaining length of at most four bytes. -/
def packet (header : UInt8) (body : List UInt8) : List UInt8 :=
  header :: (mqttPacketEncode body.length ++ body)

/-- What a function gives that writes the packet if it passes the check of the buffer's size. -/
def wrapped (buflen : Nat) (header : UInt8) (body : List UInt8) : Option (Int × List UInt8) :=
  if buflen < mqttPacketLen body.length then tooShort
  else some ((packet header body).length, packet header body)

section
variable {buflen remLen : Nat} {header : UInt8} {body bytes : List UInt8} {n : Int}

theorem written_eq_some (h : written buflen body = some (n, bytes)) : bytes = body := by
  unfold written at h
  split at h
  · cases h
    rfl
  · cases h

/-- A packet that passes the check fits into the buffer. -/
theorem written_packet (hlen : body.length = remLen) (hbuf : buflen < 65536)
    (h : ¬ buflen < mqttPacketLen remLen) :
    written buflen (header :: (mqttPacketEncode remLen ++ body)) =
      some (((packet header body).length : Int), packet header body) := by
  subst hlen
  have hrem := lt_of_mqttPacketLen h hbuf
  have hfits := length_le_mqttPacketLen (Nat.lt_trans hrem (by decide))
  refine if_pos ?_
  rw [List.length_cons, List.length_append]
  omega

theorem wrapped_eq_some (hbuf : buflen < 65536) (h : wrapped buflen header body = some (n, bytes))
    (hn : 0 < n) :
    bytes = packet header body ∧ n = bytes.length ∧ bytes.length ≤ buflen ∧
      body.length < 65536 := by
  unfold wrapped at h
  split at h
  · cases h
    exact absurd hn (by decide)
  · cases h
    have hlen := lt_of_mqttPacketLen ‹_› hbuf
    have hfits := length_le_mqttPacketLen (Nat.lt_trans hlen (by decide))
    refine ⟨rfl, rfl, ?_, hlen⟩
    rw [packet, List.length_cons, List.length_append]
    omega

/-- The fixed header of a packet is read back, whatever stands behind the packet. -/
theorem packet_read (h : body.length < 128 ^ 4) (header : UInt8) (t : List UInt8) :
    (packet header body ++ t)[0]? = some header ∧
      mqttPacketDecodeBuf (packet header body ++ t) 1 =
        some ((mqttPacketEncode body.length).length, body.length) ∧
      (packet header body ++ t).drop (1 + (mqttPacketEncode body.length).length) = body ++ t := by
  have hdrop : (packet header body ++ t).drop 1 = mqttPacketEncode body.length ++ (body ++ t) := by
    rw [← List.append_assoc]
    rfl
  exact ⟨rfl, mqttPacketDecodeBuf_of_drop h hdrop⟩

end

/-! ## PUBLISH -/

section
variable {buflen qos : Nat} {dup retained : UInt8} {packetid : UInt16} {topicName : MQTTString}
  {payload bytes : List UInt8} {n : Int}

/-- What stands behind the remaining length. -/
def publishBody (qos : Nat) (packetid : UInt16) (topicName : MQTTString) (payload : List UInt8) :
    List UInt8 :=
  writeMQTTString topicName ++ ((if 0 < qos then writeInt packetid.toNat else []) ++ payload)

theorem length_publishBody (qos : Nat) (packetid : UInt16) (payload : List UInt8)
    (h : topicName.One) :
    (publishBody qos packetid topicName payload).length =
      mqttSerializePublishLength qos topicName payload.length := by
  unfold publishBody mqttSerializePublishLength
  rw [List.length_append, List.length_append, length_writeMQTTString, h.strlen]
  split
  · simp only [writeInt, List.length_cons, List.length_nil]
    omega
  · simp only [List.length_nil]
    omega

theorem mqttSerializePublish_eq (hbuf : buflen < 65536) (hone : topicName.One) :
    mqttSerializePublish buflen dup qos retained packetid topicName payload =
      wrapped buflen (headerByte .publish dup qos retained)
        (publishBody qos packetid topicName payload) := by
  have hlen := length_publishBody qos packetid payload hone
  unfold mqttSerializePublish wrapped
  rw [hlen]
  exact ite_congr rfl (fun _ => rfl) fun h => written_packet hlen hbuf h

/-- A publication that has been written is read back from the buffer, whatever stands behind it:
the same flags, identifier, topic and payload. -/
theorem mqttDeserializePublish_serialize (hbuf : buflen < 65536) (hone : topicName.One)
    (hqos : qos < 4)
    (h : mqttSerializePublish buflen dup qos retained packetid topicName payload = some (n, bytes))
    (hn : 0 < n) (t : List UInt8) :
    n = bytes.length ∧ bytes.length ≤ buflen ∧
      ∃ d, mqttDeserializePublish (bytes ++ t) = some (1, some d) ∧
        d.dup = dup &&& 1 ∧ d.qos = qos ∧ d.retained = retained &&& 1 ∧
        d.packetid = (if 0 < qos then some packetid.toNat else none) ∧
        d.topicName.text (bytes ++ t) = topicName.text ∧
        d.payloadlen = payload.length ∧
        Slice.text ⟨d.payload, payload.length⟩ (bytes ++ t) = payload := by
  rw [mqttSerializePublish_eq hbuf hone] at h
  obtain ⟨rfl, hlen, hfits, hbody⟩ := wrapped_eq_some hbuf h hn
  refine ⟨hlen, hfits, ?_⟩
  obtain ⟨hhead, hdec, hrest⟩ := packet_read (Nat.lt_trans hbody (by decide))
    (headerByte .publish dup qos retained) t
  obtain ⟨htype, hdup, hqos', hretain⟩ := headerByte_fields .publish dup retained hqos
  generalize packet (headerByte .publish dup qos retained)
    (publishBody qos packetid topicName payload) ++ t = buf at hhead hdec hrest ⊢
  have hlength : (publishBody qos packetid topicName payload).length =
      2 + topicName.text.length + ((if 0 < qos then 2 else 0) + payload.length) := by
    unfold publishBody
    rw [List.length_append, List.length_append, length_writeMQTTString]
    split <;> rfl
  generalize (publishBody qos packetid topicName payload).length = mylen at *
  generalize (mqttPacketEncode mylen).length = rc at *
  unfold publishBody at hrest
  rw [List.append_assoc, List.append_assoc] at hrest
  have hend : 1 + rc + (2 + topicName.text.length) ≤ 1 + rc + mylen := by omega
  obtain ⟨hread, htopic, hrest⟩ := readMQTTLenString_of_drop (by omega) hend hrest
  unfold mqttDeserializePublish
  simp only [hhead, Option.bind_eq_bind, Option.bind_some, htype, ne_eq, not_true_eq_false, if_false,
    hdec, hread, hqos', hdup, hretain]
  split
  · rename_i hpos
    rw [if_pos hpos] at hrest hlength
    obtain ⟨hid, hrest⟩ := readInt_of_drop packetid.toNat_lt hrest
    rw [hid]
    refine ⟨_, rfl, rfl, rfl, rfl, rfl, htopic, ?_, Slice.text_of_drop hrest⟩
    simp only
    omega
  · rename_i hpos
    rw [if_neg hpos] at hrest hlength
    refine ⟨_, rfl, rfl, rfl, rfl, rfl, htopic, ?_, Slice.text_of_drop hrest⟩
    simp only
    omega

end

/-! ## Acknowledgements -/

section
variable {buflen : Nat} {dup : UInt8} {packetid : UInt16} {bytes : List UInt8} {n : Int}

/-- A packet with a body of two bytes, written into a buffer for which it is looked whether it has
`room` bytes. -/
theorem written_four {room : Nat} {header : UInt8} {body : List UInt8} (hbody : body.length = 2)
    (hroom : ¬ buflen < room) (hfour : 4 ≤ room) :
    written buflen (header :: (mqttPacketEncode 2 ++ body)) = some (4, packet header body) ∧
      (packet header body).length = 4 := by
  have hlen : (header :: (mqttPacketEncode 2 ++ body)).length = 4 := by
    rw [List.length_cons, List.length_append, hbody]
    rfl
  unfold written packet
  rw [hlen, if_pos (by omega), hbody, hlen]
  exact ⟨rfl, rfl⟩

/-- A packet with an identifier and nothing else is read back. -/
theorem mqttDeserializeAck_packet (packettype : MsgType) (dup : UInt8) {qos : Nat} (hqos : qos < 4)
    (packetid : UInt16) (t : List UInt8) :
    mqttDeserializeAck (packet (headerByte packettype dup qos 0) (writeInt packetid.toNat) ++ t) =
      some (1, packettype.code.toNat, dup &&& 1, some packetid.toNat) := by
  have htwo : (writeInt packetid.toNat).length = 2 := rfl
  have hshort : (writeInt packetid.toNat).length < 128 ^ 4 := show 2 < 128 ^ 4 by decide
  obtain ⟨hhead, hdec, hrest⟩ := packet_read hshort (headerByte packettype dup qos 0) t
  obtain ⟨htype, hdup, -⟩ := headerByte_fields packettype dup 0 hqos
  generalize headerByte packettype dup qos 0 = header at *
  generalize packet header (writeInt packetid.toNat) ++ t = buf at hhead hdec hrest ⊢
  have hid := (readInt_of_drop packetid.toNat_lt hrest).1
  unfold mqttDeserializeAck
  simp only [hhead, hdec, Option.bind_eq_bind, Option.bind_some, htwo, Nat.lt_irrefl,
    if_false] at hid ⊢
  simp only [hid, hdup, Option.bind_some]
  rw [← htype]
  rfl

/-- An acknowledgement is read back. -/
theorem mqttDeserializeAck_serialize {packettype : MsgType}
    (h : mqttSerializeAck buflen packettype dup packetid = some (n, bytes)) (hn : 0 < n)
    (t : List UInt8) :
    n = 4 ∧ bytes.length = 4 ∧ 4 ≤ buflen ∧ mqttDeserializeAck (bytes ++ t) =
      some (1, packettype.code.toNat, dup &&& 1, some packetid.toNat) := by
  unfold mqttSerializeAck at h
  split at h
  · cases h
    exact absurd hn (by decide)
  · rename_i hroom
    have htwo : (writeInt packetid.toNat).length = 2 := rfl
    obtain ⟨hwritten, hlen⟩ := written_four htwo hroom (Nat.le_refl 4)
    rw [hwritten] at h
    cases h
    have hqos : (if packettype = .pubrel then 1 else 0) < 4 := by split <;> decide
    exact ⟨rfl, hlen, Nat.not_lt.1 hroom, mqttDeserializeAck_packet packettype dup hqos packetid t⟩

/-- A PUBREL that is sent again, and a packet behind it. -/
theorem mqttDeserializeAck_pubrel :
    mqttDeserializeAck ([0x6A, 2, 1, 2] ++ [0xC0, 0]) = some (1, 6, 1, some 258) := by
  have hwrite : mqttSerializeAck 4 .pubrel 1 258 = some (4, [0x6A, 2, 1, 2]) := by decide
  exact (mqttDeserializeAck_serialize hwrite (by decide) [0xC0, 0]).2.2.2

/-- An UNSUBACK of the server is read back by the client. -/
theorem mqttDeserializeUnsuback_serialize
    (h : mqttSerializeUnsuback buflen packetid = some (n, bytes)) (hn : 0 < n) (t : List UInt8) :
    mqttDeserializeUnsuback (bytes ++ t) = some (1, some packetid.toNat) := by
  unfold mqttSerializeUnsuback at h
  split at h
  · cases h
    exact absurd hn (by decide)
  · obtain rfl := written_eq_some h
    have hack := mqttDeserializeAck_packet .unsuback 0 (show 0 < 4 by decide) packetid t
    exact congrArg (Option.map _) hack

/-- A CONNACK of the server is read back by the client. -/
theorem mqttDeserializeConnack_serialize {connackRc sessionPresent : UInt8}
    (h : mqttSerializeConnack buflen connackRc sessionPresent = some (n, bytes)) (hn : 0 < n)
    (t : List UInt8) :
    mqttDeserializeConnack (bytes ++ t) = some (1, some (sessionPresent &&& 1, connackRc)) := by
  unfold mqttSerializeConnack at h
  split at h
  · cases h
    exact absurd hn (by decide)
  · obtain rfl := written_eq_some h
    have hshort : [sessionPresent &&& 1, connackRc].length < 128 ^ 4 := show 2 < 128 ^ 4 by decide
    obtain ⟨hhead, hdec, hrest⟩ := packet_read hshort (headerByte .connack 0 0 0) t
    have htype := (headerByte_fields .connack 0 0 (show 0 < 4 by decide)).1
    change mqttDeserializeConnack (packet _ [sessionPresent &&& 1, connackRc] ++ t) = _
    generalize packet (headerByte .connack 0 0 0) [sessionPresent &&& 1, connackRc] ++ t = buf at *
    have hflags := getElem?_of_drop hrest
    have hrc := getElem?_of_drop (drop_succ_of_drop hrest)
    have hone : sessionPresent &&& 1 &&& 1 = sessionPresent &&& 1 := by
      rw [UInt8.and_assoc, UInt8.and_self]
    unfold mqttDeserializeConnack
    rw [List.length_cons, List.length_singleton] at hdec hflags hrc
    rw [Nat.add_right_comm] at hrc
    simp only [hhead, hdec, Option.bind_eq_bind, Option.bind_some, htype, hflags, hrc, hone, ne_eq,
      not_true_eq_false, if_false, Nat.lt_irrefl]

end

end Wire

end AppXd.Mqtt
