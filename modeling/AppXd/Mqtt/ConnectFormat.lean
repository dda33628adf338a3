import AppXd.Mqtt.PacketFormat

/-!
# The format of CONNECT

The reader of a CONNECT gives back what the writer has put into it, except where a password comes
without a user name, and where the last of the two is empty: a string that the flags announce is
looked for in three bytes at least, and an empty one takes two.
-/

namespace AppXd.Mqtt.Wire

/-! ## Flags -/

/-- The bit fields of the connect flags. -/
theorem connectFlags_fields (o : ConnectOptions) :
    connectFlags o >>> 1 &&& 1 = o.cleansession &&& 1 ∧
      (connectFlags o >>> 2 &&& 1 = 0 ↔ o.willFlag = false) ∧
      (o.willFlag = true → connectFlags o >>> 3 &&& 3 = o.willQos &&& 3 ∧
        connectFlags o >>> 5 &&& 1 = o.willRetained &&& 1) ∧
      (connectFlags o >>> 7 &&& 1 = 0 ↔ o.username.isSet = false) ∧
      (connectFlags o >>> 6 &&& 1 = 0 ↔ o.password.isSet = false) := by
  have hqos : ∀ x : BitVec 8, UInt8.ofBitVec x &&& 3 = 0 ∨ UInt8.ofBitVec x &&& 3 = 1 ∨
      UInt8.ofBitVec x &&& 3 = 2 ∨ UInt8.ofBitVec x &&& 3 = 3 := by decide +kernel
  have hall : ∀ c q r : UInt8, c = 0 ∨ c = 1 → q = 0 ∨ q = 1 ∨ q = 2 ∨ q = 3 → r = 0 ∨ r = 1 →
      ∀ w u p : Bool, ∀ f : UInt8, f = (c <<< 1 |||
        (if w then (0x04 : UInt8) ||| q <<< 3 ||| r <<< 5 else 0) |||
        (if u then (0x80 : UInt8) else 0) ||| (if p then (0x40 : UInt8) else 0)) →
      f >>> 1 &&& 1 = c ∧ (f >>> 2 &&& 1 = 0 ↔ w = false) ∧
        (w = true → f >>> 3 &&& 3 = q ∧ f >>> 5 &&& 1 = r) ∧ (f >>> 7 &&& 1 = 0 ↔ u = false) ∧
        (f >>> 6 &&& 1 = 0 ↔ p = false) := by
    rintro c q r (rfl | rfl) (rfl | rfl | rfl | rfl) (rfl | rfl) w u p f rfl <;>
      revert w u p <;> decide
  exact hall _ _ _ (and_one_eq o.cleansession) (hqos o.willQos.toBitVec)
    (and_one_eq o.willRetained) o.willFlag o.username.isSet o.password.isSet _ rfl

/-! ## Contents -/

/-- What a CONNECT says. -/
structure ConnectContent where
  cleansession : UInt8
  keepAliveInterval : Nat
  clientID : List UInt8
  /-- Topic, message, QoS and retained flag. -/
  will : Option (List UInt8 × List UInt8 × UInt8 × UInt8)
  username : Option (List UInt8)
  password : Option (List UInt8)
  deriving DecidableEq

def ConnectOptions.content (o : ConnectOptions) : ConnectContent where
  cleansession := o.cleansession &&& 1
  keepAliveInterval := o.keepAliveInterval.toNat
  clientID := o.clientID.text
  will := if o.willFlag then some (o.willTopicName.text, o.willMessage.text, o.willQos &&& 3,
    o.willRetained &&& 1) else none
  username := if o.username.isSet then some o.username.text else none
  password := if o.password.isSet then some o.password.text else none

def ConnectRead.content (c : ConnectRead) (buf : List UInt8) : ConnectContent where
  cleansession := c.cleansession
  keepAliveInterval := c.keepAliveInterval
  clientID := c.clientID.text buf
  will := c.will.map fun w => (w.1.text buf, w.2.1.text buf, w.2.2)
  username := c.username.map (·.text buf)
  password := c.password.map (·.text buf)

/-- What the reader takes. -/
def ConnectContent.Accepted (c : ConnectContent) : Prop :=
  (c.password.isSome = true → c.username.isSome = true) ∧ c.password ≠ some [] ∧
    (c.username = some [] → c.password.isSome = true)

instance (c : ConnectContent) : Decidable c.Accepted := inferInstanceAs (Decidable (_ ∧ _ ∧ _))

/-! ## Reading -/

section
variable {buf r : List UInt8} {s : MQTTString} {p enddata : Nat} {o : ConnectOptions} {flags : UInt8}

/-- The bytes of the will. -/
def willBytes (o : ConnectOptions) : List UInt8 :=
  if o.willFlag then writeMQTTString o.willTopicName ++ writeMQTTString o.willMessage else []

/-- The will is read back. -/
theorem readWill_of_drop (hbytes : (willBytes o).length < 65536)
    (hflag : flags >>> 2 &&& 1 = 0 ↔ o.willFlag = false)
    (hbits : o.willFlag = true → flags >>> 3 &&& 3 = o.willQos &&& 3 ∧
      flags >>> 5 &&& 1 = o.willRetained &&& 1)
    (h : buf.drop p = willBytes o ++ r) (hend : p + (willBytes o).length ≤ enddata) :
    ∃ will, readWill buf flags p enddata = some (some (will, p + (willBytes o).length)) ∧
      (will.map fun w => (w.1.text buf, w.2.1.text buf, w.2.2)) = o.content.will ∧
      buf.drop (p + (willBytes o).length) = r := by
  have hnext := drop_add_of_drop h
  unfold readWill
  simp only [ConnectOptions.content]
  cases hw : o.willFlag with
  | false =>
    have hnil : (willBytes o).length = 0 := by
      unfold willBytes
      rw [hw]
      rfl
    rw [if_neg (not_not_intro (hflag.2 hw)), if_neg Bool.false_ne_true, hnil]
    rw [hnil] at hnext
    exact ⟨none, rfl, rfl, hnext⟩
  | true =>
    obtain ⟨hqos, hretained⟩ := hbits hw
    have hone : flags >>> 2 &&& 1 ≠ 0 := fun h0 => Bool.noConfusion (hw.symm.trans (hflag.1 h0))
    unfold willBytes at *
    simp only [hw, if_true, List.length_append, length_writeMQTTString] at hbytes hend hnext ⊢
    rw [hw, if_pos rfl, List.append_assoc] at h
    have hend' : p + (2 + o.willTopicName.text.length) ≤ enddata := by omega
    have hend'' : p + 2 + o.willTopicName.text.length + (2 + o.willMessage.text.length) ≤
        enddata := by omega
    obtain ⟨htopic, htext, hrest⟩ := readMQTTLenString_of_drop (by omega) hend' h
    obtain ⟨hmessage, htext', -⟩ := readMQTTLenString_of_drop (by omega) hend'' hrest
    rw [if_pos hone, htopic]
    simp only [Option.bind_eq_bind, Option.bind_some, hmessage, Option.map_some]
    refine ⟨_, congrArg (fun p => some (some (_, p))) (by omega), ?_, hnext⟩
    simp only [Option.map_some, htext, htext', hqos, hretained]

/-- The bytes of the user name and the password. -/
def credentialBytes (o : ConnectOptions) : List UInt8 :=
  (if o.username.isSet then writeMQTTString o.username else []) ++
    if o.password.isSet then writeMQTTString o.password else []

theorem readCredential_of_drop (hs : s.text.length < 65536) (h : buf.drop p = writeMQTTString s ++ r)
    (hend : p + (2 + s.text.length) ≤ enddata) :
    readCredential buf p enddata =
        some (if enddata < p + 3 then none else some ⟨p + 2, s.text.length⟩) ∧
      Slice.text ⟨p + 2, s.text.length⟩ buf = s.text ∧ buf.drop (p + 2 + s.text.length) = r := by
  obtain ⟨hread, htext, hrest⟩ := readMQTTLenString_of_drop hs hend h
  refine ⟨?_, htext, hrest⟩
  unfold readCredential
  rw [hread]
  split
  · rfl
  · rfl

theorem credentialBytes_of_both (hu : o.username.isSet = true) (hp : o.password.isSet = true) :
    credentialBytes o = writeMQTTString o.username ++ writeMQTTString o.password := by
  unfold credentialBytes
  rw [hu, hp]
  rfl

theorem credentialBytes_of_username (hu : o.username.isSet = true) (hp : o.password.isSet = false) :
    credentialBytes o = writeMQTTString o.username := by
  unfold credentialBytes
  rw [hu, hp]
  exact List.append_nil _

/-- The user name and the password are read back as far as they are accepted. -/
theorem readCredentials_of_drop (hbytes : (credentialBytes o).length < 65536)
    (hname : flags >>> 7 &&& 1 = 0 ↔ o.username.isSet = false)
    (hpassword : flags >>> 6 &&& 1 = 0 ↔ o.password.isSet = false)
    (h : buf.drop p = credentialBytes o ++ r) (hend : p + (credentialBytes o).length = enddata) :
    ∃ c, readCredentials buf flags p enddata = some c ∧
      (c.isSome = true ↔ o.content.Accepted) ∧ ∀ c' ∈ c,
        c'.1.map (·.text buf) = o.content.username ∧ c'.2.map (·.text buf) = o.content.password := by
  unfold readCredentials ConnectContent.Accepted
  simp only [ConnectOptions.content]
  cases hu : o.username.isSet with
  | false =>
    rw [if_neg (not_not_intro (hname.2 hu)), if_neg Bool.false_ne_true]
    cases hp : o.password.isSet with
    | false =>
      rw [if_neg (not_not_intro (hpassword.2 hp)), if_neg Bool.false_ne_true]
      refine ⟨_, rfl, by decide, ?_⟩
      rintro c' ⟨⟩
      exact ⟨rfl, rfl⟩
    | true =>
      have hone : flags >>> 6 &&& 1 ≠ 0 := fun h0 =>
        Bool.noConfusion (hp.symm.trans (hpassword.1 h0))
      rw [if_pos hone, if_pos rfl]
      refine ⟨none, rfl, by simp, ?_⟩
      rintro c' ⟨⟩
  | true =>
    have hone : flags >>> 7 &&& 1 ≠ 0 := fun h0 => Bool.noConfusion (hu.symm.trans (hname.1 h0))
    rw [if_pos hone, if_pos rfl]
    cases hp : o.password.isSet with
    | false =>
      rw [credentialBytes_of_username hu hp] at h hend hbytes
      rw [length_writeMQTTString] at hend hbytes
      obtain ⟨hread, htext, -⟩ := readCredential_of_drop (by omega) h (Nat.le_of_eq hend)
      have hzero : ¬ flags >>> 6 &&& 1 ≠ 0 := not_not_intro (hpassword.2 hp)
      rw [if_neg Bool.false_ne_true, hread]
      simp only [Option.bind_eq_bind, Option.bind_some, hzero, if_false]
      rcases Nat.eq_zero_or_pos o.username.text.length with h0 | hpos
      · -- An empty user name at the end of the packet.
        rw [if_pos (by omega)]
        refine ⟨none, rfl, ?_, ?_⟩
        · simp [List.length_eq_zero_iff.1 h0]
        · rintro c' ⟨⟩
      · rw [if_neg (by omega)]
        refine ⟨_, rfl, ?_, ?_⟩
        · simp [List.length_pos_iff.1 hpos]
        · rintro c' ⟨⟩
          exact ⟨congrArg some htext, rfl⟩
    | true =>
      have hone' : flags >>> 6 &&& 1 ≠ 0 := fun h0 =>
        Bool.noConfusion (hp.symm.trans (hpassword.1 h0))
      rw [credentialBytes_of_both hu hp] at h hend hbytes
      rw [List.length_append, length_writeMQTTString, length_writeMQTTString] at hend hbytes
      rw [List.append_assoc] at h
      have hend' : p + (2 + o.username.text.length) ≤ enddata := by omega
      have hend'' : p + 2 + o.username.text.length + (2 + o.password.text.length) ≤ enddata := by
        omega
      obtain ⟨hread, htext, hrest⟩ := readCredential_of_drop (by omega) h hend'
      obtain ⟨hread', htext', -⟩ := readCredential_of_drop (by omega) hrest hend''
      rw [if_pos rfl, hread, if_neg (by omega)]
      simp only [Option.bind_eq_bind, Option.bind_some, if_pos hone', hread', Option.map_some]
      rcases Nat.eq_zero_or_pos o.password.text.length with h0 | hpos
      · rw [if_pos (by omega)]
        refine ⟨none, rfl, ?_, ?_⟩
        · simp [List.length_eq_zero_iff.1 h0]
        · rintro c' ⟨⟩
      · rw [if_neg (by omega)]
        refine ⟨_, rfl, ?_, ?_⟩
        · simp [List.length_pos_iff.1 hpos]
        · rintro c' ⟨⟩
          exact ⟨congrArg some htext, congrArg some htext'⟩

/-- What is behind the flags is read back as far as it is accepted. -/
theorem readConnect_of_drop (hid : o.clientID.text.length < 65536)
    (hwill : (willBytes o).length < 65536) (hcredentials : (credentialBytes o).length < 65536)
    (h : buf.drop p = writeInt o.keepAliveInterval.toNat ++
      (writeMQTTString o.clientID ++ (willBytes o ++ (credentialBytes o ++ r))))
    (hend : p + 2 + (2 + o.clientID.text.length) + (willBytes o).length +
      (credentialBytes o).length = enddata) :
    (readConnect buf (connectFlags o) p enddata).map (·.map (·.content buf)) =
      some (if o.content.Accepted then some o.content else none) := by
  obtain ⟨hclean, hwillFlag, hwillBits, hname, hpassword⟩ := connectFlags_fields o
  have hend' : p + 2 + (2 + o.clientID.text.length) ≤ enddata := by omega
  obtain ⟨hkeep, hrest⟩ := readInt_of_drop o.keepAliveInterval.toNat_lt h
  obtain ⟨hread, htext, hrest⟩ := readMQTTLenString_of_drop hid hend' hrest
  have hend'' : p + 2 + 2 + o.clientID.text.length + (willBytes o).length ≤ enddata := by omega
  obtain ⟨will, hwillRead, hwillText, hrest⟩ :=
    readWill_of_drop hwill hwillFlag hwillBits hrest hend''
  have hlast : p + 2 + 2 + o.clientID.text.length + (willBytes o).length +
      (credentialBytes o).length = enddata := by omega
  obtain ⟨c, hread', haccepted, hc⟩ :=
    readCredentials_of_drop hcredentials hname hpassword hrest hlast
  unfold readConnect
  simp only [hkeep, hread, hwillRead, hread', Option.bind_eq_bind, Option.bind_some,
    Option.map_some]
  cases c with
  | none =>
    rw [if_neg fun h => Bool.false_ne_true (haccepted.2 h)]
    rfl
  | some c =>
    obtain ⟨husername, hpassword⟩ := hc c rfl
    rw [if_pos (haccepted.1 rfl)]
    simp only [Option.map_some, ConnectRead.content, htext, hwillText, husername, hpassword, hclean]
    rfl

end

/-! ## The packet -/

/-- The version is one that the reader knows, and no string is given twice. -/
structure ConnectOptions.Given (o : ConnectOptions) : Prop where
  version : o.mqttVersion = 3 ∨ o.mqttVersion = 4
  clientID : o.clientID.One
  willTopicName : o.willTopicName.One
  willMessage : o.willMessage.One
  username : o.username.One
  password : o.password.One

section
variable {buflen : Nat} {o : ConnectOptions} {bytes : List UInt8} {n : Int}

/-- What stands behind the remaining length. -/
def connectBytes (o : ConnectOptions) : List UInt8 :=
  connectProtocol o.mqttVersion ++ (connectFlags o :: (writeInt o.keepAliveInterval.toNat ++
    (writeMQTTString o.clientID ++ (willBytes o ++ credentialBytes o))))

theorem length_willBytes (h : o.Given) : (willBytes o).length =
    if o.willFlag then o.willTopicName.strlen + 2 + o.willMessage.strlen + 2 else 0 := by
  unfold willBytes
  rw [h.willTopicName.strlen, h.willMessage.strlen]
  split
  · rw [List.length_append, length_writeMQTTString, length_writeMQTTString]
    omega
  · rfl

theorem length_credentialBytes (h : o.Given) : (credentialBytes o).length =
    (if o.username.isSet then o.username.strlen + 2 else 0) +
      if o.password.isSet then o.password.strlen + 2 else 0 := by
  unfold credentialBytes
  rw [h.username.strlen, h.password.strlen, List.length_append]
  split <;> split <;> simp only [length_writeMQTTString, List.length_nil] <;> omega

theorem length_connectProtocol {version : UInt8} (h : version = 3 ∨ version = 4) :
    (connectProtocol version).length + 3 =
      if version = 3 then 12 else if version = 4 then 10 else 0 := by
  rcases h with rfl | rfl <;> rfl

theorem length_connectBytes (h : o.Given) :
    (connectBytes o).length = mqttSerializeConnectLength o.toConnectData := by
  have hprotocol := length_connectProtocol h.version
  unfold connectBytes mqttSerializeConnectLength
  rw [← hprotocol, h.clientID.strlen, List.length_append, List.length_cons, List.length_append,
    List.length_append, List.length_append, length_willBytes h, length_credentialBytes h,
    length_writeMQTTString]
  simp only [writeInt, List.length_cons, List.length_nil]
  omega

theorem mqttSerializeConnect_eq (hbuf : buflen < 65536) (h : o.Given) :
    mqttSerializeConnect buflen o =
      wrapped buflen (headerByte .connect 0 0 0) (connectBytes o) := by
  have hlen := length_connectBytes h
  unfold mqttSerializeConnect wrapped
  rw [hlen]
  exact ite_congr rfl (fun _ => rfl) fun h => written_packet hlen hbuf h

/-- The name of the protocol is read back, and known with its version. -/
theorem protocol_of_drop {version : UInt8} (hversion : version = 3 ∨ version = 4)
    {buf r : List UInt8} {p enddata : Nat} (h : buf.drop p = connectProtocol version ++ r)
    (hend : p + (connectProtocol version).length ≤ enddata) :
    ∃ protocol, readMQTTLenString buf p enddata = some (some protocol) ∧
      protocol.start + protocol.len + 1 = p + (connectProtocol version).length ∧
      buf[protocol.start + protocol.len]? = some version ∧
      mqttPacketCheckVersion buf protocol version = true := by
  rcases hversion with rfl | rfl
  · obtain ⟨hread, htext, hrest⟩ := readMQTTLenString_of_drop (s :=
      ⟨some [0x4D, 0x51, 0x49, 0x73, 0x64, 0x70], none⟩) (by decide) (Nat.le_of_succ_le hend) h
    refine ⟨_, hread, rfl, getElem?_of_drop hrest, ?_⟩
    unfold mqttPacketCheckVersion
    rw [htext]
    rfl
  · obtain ⟨hread, htext, hrest⟩ := readMQTTLenString_of_drop (s :=
      ⟨some [0x4D, 0x51, 0x54, 0x54], none⟩) (by decide) (Nat.le_of_succ_le hend) h
    refine ⟨_, hread, rfl, getElem?_of_drop hrest, ?_⟩
    unfold mqttPacketCheckVersion
    rw [htext]
    rfl

/-- A CONNECT that has been written is read back, exactly where user name and password are such that
the reader takes them. -/
theorem mqttDeserializeConnect_serialize (hbuf : buflen < 65536) (hgiven : o.Given)
    (h : mqttSerializeConnect buflen o = some (n, bytes)) (hn : 0 < n) (t : List UInt8) :
    (mqttDeserializeConnect (bytes ++ t) bytes.length).map (·.map (·.content (bytes ++ t))) =
      some (if o.content.Accepted then some o.content else none) := by
  rw [mqttSerializeConnect_eq hbuf hgiven] at h
  obtain ⟨rfl, -, -, hbody⟩ := wrapped_eq_some hbuf h hn
  obtain ⟨hhead, hdec, hrest⟩ := packet_read (Nat.lt_trans hbody (by decide))
    (headerByte .connect 0 0 0) t
  have htype := (headerByte_fields .connect 0 0 (show 0 < 4 by decide)).1
  have hlen : (packet (headerByte .connect 0 0 0) (connectBytes o)).length =
      1 + (mqttPacketEncode (connectBytes o).length).length + (connectBytes o).length := by
    rw [packet, List.length_cons, List.length_append]
    omega
  rw [hlen]
  generalize packet (headerByte .connect 0 0 0) (connectBytes o) ++ t = buf at hhead hdec hrest ⊢
  have hlength : (connectBytes o).length = (connectProtocol o.mqttVersion).length + 1 + 2 +
      (2 + o.clientID.text.length) + (willBytes o).length + (credentialBytes o).length := by
    simp only [connectBytes, List.length_append, List.length_cons, length_writeMQTTString, writeInt,
      List.length_nil]
    omega
  generalize (connectBytes o).length = mylen at *
  generalize (mqttPacketEncode mylen).length = rc at *
  unfold connectBytes at hrest
  rw [List.append_assoc] at hrest
  have hend : 1 + rc + (connectProtocol o.mqttVersion).length ≤ 1 + rc + mylen := by omega
  obtain ⟨protocol, hread, hstart, hversion, hcheck⟩ := protocol_of_drop hgiven.version hrest hend
  have hflags := drop_add_of_drop hrest
  rw [← hstart, List.cons_append] at hflags
  have hbody' := drop_succ_of_drop hflags
  rw [List.append_assoc, List.append_assoc, List.append_assoc] at hbody'
  have hlast : protocol.start + protocol.len + 2 + 2 + (2 + o.clientID.text.length) +
      (willBytes o).length + (credentialBytes o).length = 1 + rc + mylen := by omega
  have hconnect :=
    readConnect_of_drop (by omega) (by omega) (by omega) hbody' hlast
  have hflagsByte := getElem?_of_drop hflags
  unfold mqttDeserializeConnect
  simp only [hhead, Option.bind_eq_bind, Option.bind_some, htype, ne_eq, not_true_eq_false, if_false,
    hdec, hread, hversion, hcheck, if_true, hflagsByte]
  exact hconnect

/-- A user without a password, but with the flag for one, and the user with a password. -/
theorem mqttDeserializeConnect_passwords :
    (mqttDeserializeConnect
        ([0x10, 17, 0, 4, 77, 81, 84, 84, 4, 0xC2, 0, 60, 0, 0, 0, 1, 117, 0, 0] ++ []) 19).map
      (·.map (·.content
        ([0x10, 17, 0, 4, 77, 81, 84, 84, 4, 0xC2, 0, 60, 0, 0, 0, 1, 117, 0, 0] ++ []))) =
      some none ∧
    (mqttDeserializeConnect
        ([0x10, 18, 0, 4, 77, 81, 84, 84, 4, 0xC2, 0, 60, 0, 0, 0, 1, 117, 0, 1, 112] ++ []) 20).map
      (·.map (·.content
        ([0x10, 18, 0, 4, 77, 81, 84, 84, 4, 0xC2, 0, 60, 0, 0, 0, 1, 117, 0, 1, 112] ++ []))) =
      some (some ⟨1, 60, [], none, some [117], some [112]⟩) := by
  have hwrite : mqttSerializeConnect 64 ⟨⟨4, ⟨some [], none⟩, 60, false, ⟨none, none⟩, ⟨none, none⟩,
      ⟨some [117], none⟩, ⟨some [], none⟩⟩, 1, 0, 0⟩ =
      some (19, [0x10, 17, 0, 4, 77, 81, 84, 84, 4, 0xC2, 0, 60, 0, 0, 0, 1, 117, 0, 0]) := by
    decide
  have hwrite' : mqttSerializeConnect 64 ⟨⟨4, ⟨some [], none⟩, 60, false, ⟨none, none⟩,
      ⟨none, none⟩, ⟨some [117], none⟩, ⟨some [112], none⟩⟩, 1, 0, 0⟩ =
      some (20, [0x10, 18, 0, 4, 77, 81, 84, 84, 4, 0xC2, 0, 60, 0, 0, 0, 1, 117, 0, 1, 112]) := by
    decide
  exact ⟨mqttDeserializeConnect_serialize (by decide)
      ⟨.inr rfl, .inr rfl, .inr rfl, .inr rfl, .inr rfl, .inr rfl⟩ hwrite (by decide) [],
    mqttDeserializeConnect_serialize (by decide)
      ⟨.inr rfl, .inr rfl, .inr rfl, .inr rfl, .inr rfl, .inr rfl⟩ hwrite' (by decide) []⟩

end

end AppXd.Mqtt.Wire
