import AppXd.Mqtt.PacketFormat

/-!
# The format of subscriptions

SUBSCRIBE, UNSUBSCRIBE and SUBACK carry lists. The reader of a list of filters does not look whether
its arrays have room for one more entry, and the reader of granted QoS takes one entry too many.
-/

namespace AppXd.Mqtt.Wire

/-! ## Lists of entries -/

section
variable {α β : Type*} {entry : Nat → Option (Option (α × Nat))} {write : β → List UInt8}
  {Reads : β → α → Prop} {enddata : Nat} {buf : List UInt8}

/-- A reader of one entry reads a list of them. -/
theorem entriesLoop_flatMap {bs : List β}
    (hentry : ∀ b ∈ bs, ∀ p r, buf.drop p = write b ++ r → p + (write b).length ≤ enddata →
      0 < (write b).length ∧
        ∃ a, entry p = some (some (a, p + (write b).length)) ∧ Reads b a)
    (maxcount n p : Nat) (entries : List α) {r : List UInt8}
    (h : buf.drop p = bs.flatMap write ++ r)
    (hend : p + (bs.flatMap write).length = enddata) (hroom : entries.length + bs.length ≤ maxcount)
    (hn : bs.length ≤ n) :
    ∃ as, entriesLoop entry maxcount enddata n p entries = some (true, entries ++ as) ∧
      List.Forall₂ Reads bs as := by
  induction bs generalizing n p entries with
  | nil =>
    refine ⟨[], ?_, .nil⟩
    rw [List.append_nil]
    cases n with
    | zero => rfl
    | succ n => exact if_neg (Nat.not_lt.2 (Nat.le_of_eq hend.symm))
  | cons b bs ih =>
    obtain ⟨n, rfl⟩ := Nat.exists_eq_add_of_le' (Nat.lt_of_lt_of_le (Nat.succ_pos _) hn)
    rw [List.flatMap_cons, List.length_append] at hend
    rw [List.flatMap_cons, List.append_assoc] at h
    rw [List.length_cons] at hroom hn
    obtain ⟨hb, a, ha, hread⟩ := hentry b List.mem_cons_self p _ h (by omega)
    have hnext : buf.drop (p + (write b).length) = bs.flatMap write ++ r := drop_add_of_drop h
    have hroom' : (entries ++ [a]).length + bs.length ≤ maxcount := by
      rw [List.length_append, List.length_singleton]
      omega
    obtain ⟨as, hloop, hreads⟩ := ih (fun b' hb' => hentry b' (List.mem_cons_of_mem b hb')) n
      (p + (write b).length) (entries ++ [a]) hnext (by omega) hroom' (by omega)
    refine ⟨a :: as, ?_, .cons hread hreads⟩
    rw [entriesLoop, if_pos (by omega), if_pos (by omega), ha]
    simp only [Option.bind_eq_bind, Option.bind_some]
    rw [hloop, List.append_assoc]
    rfl

theorem length_le_length_flatMap {bs : List β} (hpos : ∀ b ∈ bs, 0 < (write b).length) :
    bs.length ≤ (bs.flatMap write).length := by
  induction bs with
  | nil => exact Nat.zero_le _
  | cons b bs ih =>
    have hb := hpos b List.mem_cons_self
    have hbs := ih fun b' hb' => hpos b' (List.mem_cons_of_mem b hb')
    rw [List.flatMap_cons, List.length_append, List.length_cons]
    omega

theorem length_le_of_mem_flatMap (write : β → List UInt8) {bs : List β} {b : β} (h : b ∈ bs) :
    (write b).length ≤ (bs.flatMap write).length := by
  obtain ⟨bs₁, bs₂, rfl⟩ := List.append_of_mem h
  rw [List.flatMap_append, List.flatMap_cons, List.length_append, List.length_append]
  omega

end

/-! ## Packets with a list -/

section
variable {α β : Type*} {write : β → List UInt8} {bs : List β}

/-- What stands behind the remaining length of a packet with a list. -/
def listBody (packetid : UInt16) (write : β → List UInt8) (bs : List β) : List UInt8 :=
  writeInt packetid.toNat ++ bs.flatMap write

theorem length_listBody (packetid : UInt16) (write : β → List UInt8) (bs : List β) :
    (listBody packetid write bs).length = 2 + (bs.flatMap write).length := by
  rw [listBody, List.length_append]
  rfl

/-- What the reader of a packet with a list finds in it. -/
theorem listBody_read (entry : List UInt8 → Nat → Nat → Option (Option (α × Nat)))
    (Reads : List UInt8 → β → α → Prop)
    (hentry : ∀ buf enddata, ∀ b ∈ bs, ∀ p r, buf.drop p = write b ++ r →
      p + (write b).length ≤ enddata → 0 < (write b).length ∧
        ∃ a, entry buf enddata p = some (some (a, p + (write b).length)) ∧ Reads buf b a)
    (packetid : UInt16) {maxcount : Nat} (hroom : bs.length ≤ maxcount)
    (hbody : (listBody packetid write bs).length < 65536) (header : UInt8) (t : List UInt8) :
    ∃ buf rc mylen as, packet header (listBody packetid write bs) ++ t = buf ∧
      buf[0]? = some header ∧ mqttPacketDecodeBuf buf 1 = some (rc, mylen) ∧
      readInt buf (1 + rc) = some packetid.toNat ∧
      entriesLoop (entry buf (1 + rc + mylen)) maxcount (1 + rc + mylen) mylen (1 + rc + 2) [] =
        some (true, as) ∧ List.Forall₂ (Reads buf) bs as := by
  obtain ⟨hhead, hdec, hrest⟩ := packet_read (Nat.lt_trans hbody (by decide)) header t
  generalize packet header (listBody packetid write bs) ++ t = buf at hhead hdec hrest
  have hlength := length_listBody packetid write bs
  generalize (listBody packetid write bs).length = mylen at *
  generalize (mqttPacketEncode mylen).length = rc at *
  unfold listBody at hrest
  rw [List.append_assoc] at hrest
  obtain ⟨hid, hlist⟩ := readInt_of_drop packetid.toNat_lt hrest
  have hcount : bs.length ≤ (bs.flatMap write).length := by
    refine length_le_length_flatMap fun b hb => ?_
    have hb' : (write b ++ [] : List UInt8).drop 0 = write b ++ [] := rfl
    exact (hentry _ _ b hb 0 [] hb' (Nat.le_refl _)).1
  obtain ⟨as, hloop, has⟩ := entriesLoop_flatMap (hentry buf (1 + rc + mylen)) maxcount mylen
    (1 + rc + 2) [] hlist (by omega) (by rwa [List.length_nil, Nat.zero_add]) (by omega)
  exact ⟨buf, rc, mylen, as, rfl, hhead, hdec, hid, hloop, has⟩

end

/-! ## SUBSCRIBE -/

/-- A QoS goes through a signed `char`. -/
theorem toInt_toInt8_ofInt (q : Int) : (UInt8.ofInt q).toInt8.toInt = q.bmod 256 := by
  have hnat : ((q % 2 ^ 8).toNat : Int) = q % (256 : Nat) :=
    Int.toNat_of_nonneg (Int.emod_nonneg q (by decide))
  have hbyte : (UInt8.ofInt q).toInt8.toInt = ((q % 2 ^ 8).toNat : Int).bmod 256 :=
    BitVec.toInt_ofNat' _
  rw [hbyte, hnat, Int.emod_bmod]

/-- What is written for a filter with its QoS. -/
def writeSubscription (t : MQTTString × Int) : List UInt8 := writeMQTTString t.1 ++ [UInt8.ofInt t.2]

@[simp] theorem length_writeSubscription (t : MQTTString × Int) :
    (writeSubscription t).length = 2 + t.1.text.length + 1 := by
  rw [writeSubscription, List.length_append, length_writeMQTTString]
  rfl

section
variable {buflen maxcount : Nat} {dup : UInt8} {packetid : UInt16} {bytes buf r : List UInt8}
  {n : Int} {enddata p : Nat}

/-- One filter is read back with its QoS. -/
theorem subscribeEntry_of_drop {t : MQTTString × Int} (hs : t.1.text.length < 65536)
    (h : buf.drop p = writeSubscription t ++ r)
    (hend : p + (writeSubscription t).length ≤ enddata) :
    ∃ f, subscribeEntry buf enddata p = some (some (f, p + (writeSubscription t).length)) ∧
      f.1.text buf = t.1.text ∧ f.2 = t.2.bmod 256 := by
  rw [length_writeSubscription] at hend ⊢
  rw [writeSubscription, List.append_assoc] at h
  have hstring : p + (2 + t.1.text.length) ≤ enddata := by omega
  obtain ⟨hread, htext, hrest⟩ := readMQTTLenString_of_drop hs hstring h
  refine ⟨(_, _), ?_, htext, toInt_toInt8_ofInt t.2⟩
  unfold subscribeEntry
  rw [hread]
  simp only [Option.bind_eq_bind, Option.bind_some]
  rw [if_neg (by omega), getElem?_of_drop hrest]
  exact congrArg (fun p => some (some (_, p))) (by omega)

theorem mqttSerializeSubscribe_eq (hbuf : buflen < 65536) {ts : List (MQTTString × Int)}
    (hone : ∀ t ∈ ts, t.1.One) :
    mqttSerializeSubscribe buflen dup packetid ts =
      wrapped buflen (headerByte .subscribe dup 1 0) (listBody packetid writeSubscription ts) := by
  have hsum : (ts.map fun t => 2 + t.1.strlen + 1) =
      ts.map fun t => (writeSubscription t).length := by
    refine List.map_congr_left fun t ht => ?_
    rw [length_writeSubscription, (hone t ht).strlen]
  have hlen : (listBody packetid writeSubscription ts).length =
      mqttSerializeSubscribeLength ts := by
    rw [length_listBody, mqttSerializeSubscribeLength, List.length_flatMap, hsum]
  unfold mqttSerializeSubscribe wrapped
  rw [hlen]
  exact ite_congr rfl (fun _ => rfl) fun h => written_packet hlen hbuf h

/-- A list of filters that has been written is read back with the requested QoS, if the arrays of the
reader have room for it. -/
theorem mqttDeserializeSubscribe_serialize (hbuf : buflen < 65536) {ts : List (MQTTString × Int)}
    (hone : ∀ t ∈ ts, t.1.One) (hroom : ts.length ≤ maxcount)
    (h : mqttSerializeSubscribe buflen dup packetid ts = some (n, bytes)) (hn : 0 < n)
    (t : List UInt8) :
    ∃ filters, mqttDeserializeSubscribe (bytes ++ t) maxcount =
        some (1, some (dup &&& 1, packetid.toNat, filters)) ∧
      List.Forall₂ (fun filter f => f.1.text (bytes ++ t) = filter.1.text ∧
        f.2 = filter.2.bmod 256)
        ts filters := by
  rw [mqttSerializeSubscribe_eq hbuf hone] at h
  obtain ⟨rfl, -, -, hbody⟩ := wrapped_eq_some hbuf h hn
  have hshort : ∀ t ∈ ts, t.1.text.length < 65536 := by
    intro t ht
    have hmem := length_le_of_mem_flatMap writeSubscription ht
    rw [length_writeSubscription] at hmem
    rw [length_listBody] at hbody
    omega
  obtain ⟨buf, rc, mylen, filters, hbuf, hhead, hdec, hid, hloop, hfilters⟩ :=
    listBody_read subscribeEntry
      (fun buf filter f => f.1.text buf = filter.1.text ∧ f.2 = filter.2.bmod 256)
      (fun buf enddata b hb p r h hend => ⟨by
        rw [length_writeSubscription]
        exact Nat.succ_pos _, subscribeEntry_of_drop (hshort b hb) h hend⟩)
      packetid hroom hbody (headerByte .subscribe dup 1 0) t
  obtain ⟨htype, hdup, -⟩ := headerByte_fields .subscribe dup 0 (show 1 < 4 by decide)
  rw [hbuf]
  refine ⟨filters, ?_, hfilters⟩
  unfold mqttDeserializeSubscribe
  simp only [hhead, Option.bind_eq_bind, Option.bind_some, htype, ne_eq, not_true_eq_false, if_false,
    hdec, hid, hdup, hloop, if_true]

/-- Two filters, the second one with its length. -/
theorem mqttDeserializeSubscribe_two :
    ∃ filters, mqttDeserializeSubscribe
        ([0x82, 10, 0, 7, 0, 1, 97, 1, 0, 1, 98, 2] ++ [0xC0, 0]) 2 =
        some (1, some (0, 7, filters)) ∧
      List.Forall₂ (fun filter f =>
        f.1.text ([0x82, 10, 0, 7, 0, 1, 97, 1, 0, 1, 98, 2] ++ [0xC0, 0]) = filter.1.text ∧
        f.2 = filter.2.bmod 256)
        [((⟨some [97], none⟩ : MQTTString), (1 : Int)), (⟨none, some [98]⟩, 2)] filters := by
  have hwrite : mqttSerializeSubscribe 20 0 7 [(⟨some [97], none⟩, 1), (⟨none, some [98]⟩, 2)] =
      some (12, [0x82, 10, 0, 7, 0, 1, 97, 1, 0, 1, 98, 2]) := by decide
  exact mqttDeserializeSubscribe_serialize (by decide) (by decide) (by decide) hwrite (by decide)
    [0xC0, 0]

/-! ## UNSUBSCRIBE -/

theorem unsubscribeEntry_of_drop {s : MQTTString} (hs : s.text.length < 65536)
    (h : buf.drop p = writeMQTTString s ++ r) (hend : p + (writeMQTTString s).length ≤ enddata) :
    ∃ f, unsubscribeEntry buf enddata p = some (some (f, p + (writeMQTTString s).length)) ∧
      f.text buf = s.text := by
  rw [length_writeMQTTString] at hend ⊢
  obtain ⟨hread, htext, -⟩ := readMQTTLenString_of_drop hs hend h
  refine ⟨_, ?_, htext⟩
  unfold unsubscribeEntry
  rw [hread, ← Nat.add_assoc]
  rfl

theorem mqttSerializeUnsubscribe_eq (hbuf : buflen < 65536) {ts : List MQTTString}
    (hone : ∀ t ∈ ts, t.One) :
    mqttSerializeUnsubscribe buflen dup packetid ts =
      wrapped buflen (headerByte .unsubscribe dup 1 0) (listBody packetid writeMQTTString ts) := by
  have hsum : (ts.map fun t => 2 + t.strlen) = ts.map fun t => (writeMQTTString t).length := by
    refine List.map_congr_left fun t ht => ?_
    rw [length_writeMQTTString, (hone t ht).strlen]
  have hlen : (listBody packetid writeMQTTString ts).length =
      mqttSerializeUnsubscribeLength ts := by
    rw [length_listBody, mqttSerializeUnsubscribeLength, List.length_flatMap, hsum]
  unfold mqttSerializeUnsubscribe wrapped
  rw [hlen]
  exact ite_congr rfl (fun _ => rfl) fun h => written_packet hlen hbuf h

theorem mqttDeserializeUnsubscribe_serialize (hbuf : buflen < 65536) {ts : List MQTTString}
    (hone : ∀ t ∈ ts, t.One) (hroom : ts.length ≤ maxcount)
    (h : mqttSerializeUnsubscribe buflen dup packetid ts = some (n, bytes)) (hn : 0 < n)
    (t : List UInt8) :
    ∃ filters, mqttDeserializeUnsubscribe (bytes ++ t) maxcount =
        some (1, some (dup &&& 1, packetid.toNat, filters)) ∧
      List.Forall₂ (fun filter f => f.text (bytes ++ t) = filter.text) ts filters := by
  rw [mqttSerializeUnsubscribe_eq hbuf hone] at h
  obtain ⟨rfl, -, -, hbody⟩ := wrapped_eq_some hbuf h hn
  have hshort : ∀ t ∈ ts, t.text.length < 65536 := by
    intro t ht
    have hmem := length_le_of_mem_flatMap writeMQTTString ht
    rw [length_writeMQTTString] at hmem
    rw [length_listBody] at hbody
    omega
  obtain ⟨buf, rc, mylen, filters, hbuf, hhead, hdec, hid, hloop, hfilters⟩ :=
    listBody_read unsubscribeEntry (fun buf filter f => f.text buf = filter.text)
      (fun buf enddata b hb p r h hend => ⟨by
        rw [length_writeMQTTString]
        exact Nat.add_pos_left Nat.two_pos _, unsubscribeEntry_of_drop (hshort b hb) h hend⟩)
      packetid hroom hbody (headerByte .unsubscribe dup 1 0) t
  obtain ⟨htype, hdup, -⟩ := headerByte_fields .unsubscribe dup 0 (show 1 < 4 by decide)
  rw [hbuf]
  refine ⟨filters, ?_, hfilters⟩
  unfold mqttDeserializeUnsubscribe
  simp only [hhead, Option.bind_eq_bind, Option.bind_some, htype, ne_eq, not_true_eq_false, if_false,
    hdec, hid, hdup, hloop, if_true]

theorem mqttDeserializeUnsubscribe_two :
    ∃ filters, mqttDeserializeUnsubscribe ([0xA2, 8, 0, 7, 0, 1, 97, 0, 1, 98] ++ [0xC0, 0]) 2 =
        some (1, some (0, 7, filters)) ∧
      List.Forall₂ (fun filter f =>
        f.text ([0xA2, 8, 0, 7, 0, 1, 97, 0, 1, 98] ++ [0xC0, 0]) = filter.text)
        [(⟨some [97], none⟩ : MQTTString), ⟨none, some [98]⟩] filters := by
  have hwrite : mqttSerializeUnsubscribe 20 0 7 [⟨some [97], none⟩, ⟨none, some [98]⟩] =
      some (10, [0xA2, 8, 0, 7, 0, 1, 97, 0, 1, 98]) := by decide
  exact mqttDeserializeUnsubscribe_serialize (by decide) (by decide) (by decide) hwrite (by decide)
    [0xC0, 0]

/-! ## SUBACK -/

/-- The loop takes what the array takes, and writes past the end of the array where there is one
more. -/
theorem subackLoop_eq (qs : List Int) (n : Nat) (granted : List Int)
    (hgranted : granted.length ≤ maxcount) (h : buf.drop p = qs.map UInt8.ofInt ++ r)
    (hend : p + qs.length = enddata) (hn : qs.length ≤ n) :
    subackLoop buf maxcount enddata n p granted =
      if granted.length + qs.length ≤ maxcount then some (1, granted ++ qs.map (·.bmod 256))
      else none := by
  induction qs generalizing n p granted with
  | nil =>
    have hdone : granted.length + ([] : List Int).length ≤ maxcount := hgranted
    rw [if_pos hdone, List.map_nil, List.append_nil]
    cases n with
    | zero => rfl
    | succ n => exact if_neg (Nat.not_lt.2 (Nat.le_of_eq hend.symm))
  | cons q qs ih =>
    obtain ⟨n, rfl⟩ := Nat.exists_eq_add_of_le' (Nat.lt_of_lt_of_le (Nat.succ_pos _) hn)
    rw [List.length_cons] at hend hn
    have hnext : buf.drop (p + 1) = qs.map UInt8.ofInt ++ r := drop_succ_of_drop h
    have hlen : (granted ++ [q.bmod 256]).length = granted.length + 1 := by
      rw [List.length_append, List.length_singleton]
    rw [subackLoop, if_pos (by omega), if_neg (Nat.not_lt.2 hgranted), getElem?_of_drop h]
    simp only [Option.bind_eq_bind, Option.bind_some, List.length_cons]
    rcases Nat.lt_or_ge granted.length maxcount with hlt | hge
    · rw [if_pos hlt, toInt_toInt8_ofInt, ih n (granted ++ [q.bmod 256]) (by omega) hnext (by omega)
        (by omega), hlen, List.append_assoc]
      exact ite_congr (by rw [Nat.add_assoc, Nat.add_comm 1]) (fun _ => rfl) fun _ => rfl
    · rw [if_neg (Nat.not_lt.2 hge), if_neg (by omega)]

/-- The client reads the granted QoS of a SUBACK if its array takes them all. With one more, the
reader writes past the end of the array. -/
theorem mqttDeserializeSuback_serialize (hbuf : buflen < 128 ^ 4) {qs : List Int}
    (h : mqttSerializeSuback buflen packetid qs = some (n, bytes)) (hn : 0 < n) (maxcount : Nat)
    (t : List UInt8) :
    mqttDeserializeSuback (bytes ++ t) maxcount =
      if qs.length ≤ maxcount then some (1, some (packetid.toNat, qs.map (·.bmod 256)))
      else none := by
  have hlength : (writeInt packetid.toNat ++ qs.map UInt8.ofInt).length = 2 + qs.length := by
    rw [List.length_append, List.length_map]
    rfl
  unfold mqttSerializeSuback at h
  split at h
  · cases h
    exact absurd hn (by decide)
  · rename_i hroom
    rw [← hlength] at h
    obtain rfl := written_eq_some h
    have hshort : (writeInt packetid.toNat ++ qs.map UInt8.ofInt).length < 128 ^ 4 := by omega
    obtain ⟨hhead, hdec, hrest⟩ := packet_read hshort (headerByte .suback 0 0 0) t
    have htype := (headerByte_fields .suback 0 0 (show 0 < 4 by decide)).1
    change mqttDeserializeSuback (packet _ _ ++ t) maxcount = _
    generalize packet (headerByte .suback 0 0 0) (writeInt packetid.toNat ++ qs.map UInt8.ofInt) ++
      t = buf at hhead hdec hrest ⊢
    generalize (writeInt packetid.toNat ++ qs.map UInt8.ofInt).length = mylen at *
    generalize (mqttPacketEncode mylen).length = rc at *
    rw [List.append_assoc] at hrest
    obtain ⟨hid, hlist⟩ := readInt_of_drop packetid.toNat_lt hrest
    have hend : 1 + rc + 2 + qs.length = 1 + rc + mylen := by omega
    have hloop := subackLoop_eq qs mylen [] (Nat.zero_le maxcount) hlist hend (by omega)
    rw [List.length_nil, Nat.zero_add, List.nil_append] at hloop
    unfold mqttDeserializeSuback
    simp only [hhead, Option.bind_eq_bind, Option.bind_some, htype, ne_eq, not_true_eq_false,
      if_false, hdec, hid, hloop]
    rw [if_neg (by omega)]
    split
    · rfl
    · rfl

/-- The array of the client takes one of two. -/
theorem mqttDeserializeSuback_two :
    mqttDeserializeSuback ([0x90, 4, 0, 7, 1, 2] ++ [0xC0, 0]) 1 = none := by
  have hwrite : mqttSerializeSuback 20 7 [1, 2] = some (6, [0x90, 4, 0, 7, 1, 2]) := by decide
  exact mqttDeserializeSuback_serialize (by decide) hwrite (by decide) 1 [0xC0, 0]

end

end AppXd.Mqtt.Wire
