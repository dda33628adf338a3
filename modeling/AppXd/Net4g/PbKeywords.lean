import AppXd.Lib.CArray
import AppXd.Net4g.CellInfo
import Mathlib.Data.List.DropRight

/-!
# The fields of a message notification

`get_at_rsp_keywords_pb` cuts a command at its commas with `strtok`. At the field that holds the
topic it copies the topic, the length behind it and as many bytes of the field after that. The
buffers that it fills belong to its caller, which hands them to the decryption.
-/

namespace AppXd.Net4g

open CStr (strtok textAt copyInto store ascii)

/-- The return value and the caller's buffers `ucchar[100]`, `ucdatalen[4]` and `ucdata[200]`. -/
structure PbKeywords where
  ret : Bool
  destData1 : List UInt8
  datalen : List UInt8
  destData2 : List UInt8
  deriving DecidableEq

/-- The buffers as the caller clears them. -/
def PbKeywords.clear : PbKeywords :=
  ⟨false, List.replicate 100 0, List.replicate 4 0, List.replicate 200 0⟩

/-- The loop `for(i=strlen(pKeyWord)-1; i>=0; i--)` from the index `i` on, which lowers `key_len` over
blanks. The index has 16 bits: behind 0 comes 65535, which stands outside the token. -/
def trimLoop (token : List UInt8) : Nat → Nat → Option Nat
  | 0, keyLen => if blank (token.getD 0 0) then none else some keyLen
  | i + 1, keyLen =>
    if blank (token.getD (i + 1) 0) then trimLoop token i (keyLen - 1) else some keyLen

/-- The length without the blanks at the token's end. In an empty token the loop begins at 65535. -/
def trimmedLen (token : List UInt8) : Option Nat :=
  if token = [] then none else trimLoop token (token.length - 1) token.length

/-- The body of `if(key_count == keyNum)` for the token at `tok`. A missing token behind it is a
NULL that `strlen` reads, and a copy longer than its buffer is not made. The length is copied
without terminator: `atoi` reads on behind one of four characters, which ends here with its array,
and what is read behind the command's buffer is empty here. -/
def takePbFields (k : PbKeywords) (buf : List UInt8) (tok pos : Nat) :
    Option (PbKeywords × List UInt8 × Nat) :=
  let p := if buf.getD tok 0 = 34 then tok + 1 else tok
  match trimmedLen (textAt buf p) with
  | none => none
  | some keyLen =>
    match strtok 44 buf pos with
    | (none, _, _) => none
    | (some q, buf', pos) =>
      let offset := (textAt buf' q).length % 256
      let datalen := store k.datalen ((buf'.drop q).take offset)
      let pbdataLen := (CStr.atoi (textAt datalen 0) % 65536).toNat
      let offset' := (offset + 1) % 256
      let q := if buf'.getD (q + offset') 0 = 34 then q + 1 else q
      if keyLen < 100 ∧ offset ≤ 4 ∧ pbdataLen < 200 then
        some (⟨true, store k.destData1 ((textAt buf p).take keyLen ++ [0]), datalen,
          store k.destData2 ((buf'.drop (q + offset')).take pbdataLen ++ [0])⟩, buf', pos)
      else none

/-- The loop `while(pKeyWord != NULL)`. -/
def keywordsPbLoop (keyNum : Nat) :
    Nat → List UInt8 → Nat → Nat → PbKeywords → Option (PbKeywords × List UInt8)
  | 0, buf, _, _, k => some (k, buf)
  | n + 1, buf, pos, keyCount, k =>
    match strtok 44 buf pos with
    | (none, buf, _) => some (k, buf)
    | (some tok, buf, pos) =>
      let keyCount := (keyCount + 1) % 256
      if keyCount = keyNum then
        match takePbFields k buf tok pos with
        | none => none
        | some (k, buf, pos) => keywordsPbLoop keyNum n buf pos keyCount k
      else keywordsPbLoop keyNum n buf pos keyCount k

/-- `get_at_rsp_keywords_pb`, with the command's buffer as `strtok` leaves it; `none` where it reads
through a NULL or an index that has wrapped, or would copy more than a buffer of its caller holds. -/
def getAtRspKeywordsPb (srcData srcHeader : List UInt8) (keyNum : Nat) :
    Option (PbKeywords × List UInt8) :=
  keywordsPbLoop keyNum (srcData.length + 1) srcData srcHeader.length 0 .clear

/-- The field that holds the topic, in the call of `module_4g_communication_process`. -/
def topicKeyNum (m : ModuleType) : Nat := if m.quectel then 3 else 4

/-- What `module_4g_communication_process` hands on: the topic, the length, and the bytes to be
decrypted. -/
structure DecryptInput where
  topic : List UInt8
  len : Nat
  data : List UInt8
  deriving DecidableEq

def PbKeywords.decryptInput (k : PbKeywords) : DecryptInput :=
  let len := (CStr.atoi (textAt k.datalen 0) % 65536).toNat
  ⟨textAt k.destData1 0, len, k.destData2.take len⟩

/-! ## Notifications -/

/-- A number in decimal digits. -/
def decimal (n : Nat) : List UInt8 := (Nat.toDigits 10 n).map fun c => c.toNat.toUInt8

/-- What a message notification of the module is made of: the fields before the topic, the topic
and the encrypted payload. -/
structure Notification (m : ModuleType) where
  fields : List (List UInt8)
  topic : List UInt8
  payload : List UInt8
  fields_length : fields.length + 1 = topicKeyNum m
  fields_ok : ∀ f ∈ fields, f ≠ [] ∧ 44 ∉ f ∧ 0 ∉ f
  topic_ok : 44 ∉ topic ∧ 34 ∉ topic
  topic_le : topic.length ≤ 99
  topic_last : ∃ b, topic.getLast? = some b ∧ blank b = false
  payload_pos : 1 ≤ payload.length
  payload_le : payload.length ≤ 199

namespace Notification

variable {m : ModuleType} (msg : Notification m)

/-- The fields before the topic, each with its comma. -/
def before : List UInt8 := msg.fields.flatMap (· ++ [44])

/-- The quoted topic, the length and the quoted payload. -/
def quoted : List UInt8 :=
  34 :: msg.topic ++ 34 :: 44 :: decimal msg.payload.length ++ 44 :: 34 :: msg.payload ++ [34]

/-- The line up to its end. -/
def body : List UInt8 := netMqttCtrlCmdHead m ++ (msg.before ++ msg.quoted)

def bytes : List UInt8 := msg.body ++ netMqttCtrlCmdTail

end Notification

/-! ## The loop -/

section
variable {keyNum : Nat}

/-- Tokens before the wanted one are counted. -/
theorem keywordsPbLoop_fields {fs : List (List UInt8)} {a t : List UInt8} {n j : Nat}
    {k : PbKeywords} (hfs : ∀ f ∈ fs, f ≠ [] ∧ 44 ∉ f ∧ 0 ∉ f) (hj : j + fs.length < keyNum)
    (hk : keyNum < 256) :
    keywordsPbLoop keyNum (fs.length + n) (a ++ (fs.flatMap (· ++ [44]) ++ t)) a.length j k =
      keywordsPbLoop keyNum n (a ++ fs.flatMap (· ++ [0]) ++ t)
        (a ++ fs.flatMap (· ++ [0])).length (j + fs.length) k := by
  induction fs generalizing a j with
  | nil => simp
  | cons f fs ih =>
    obtain ⟨⟨hne, h44, h0⟩, hfs⟩ := List.forall_mem_cons.1 hfs
    have hbuf : a ++ ((f :: fs).flatMap (· ++ [44]) ++ t) =
        a ++ (f ++ 44 :: (fs.flatMap (· ++ [44]) ++ t)) := by simp
    have hstep := CStr.strtok_token (a := a) (t := fs.flatMap (· ++ [44]) ++ t) (.inl rfl) hne h44 h0
    rw [if_neg (by decide)] at hstep
    have hcount : (j + 1) % 256 = j + 1 := Nat.mod_eq_of_lt (by simp at hj; omega)
    rw [List.length_cons] at hj
    rw [List.length_cons, show fs.length + 1 + n = fs.length + n + 1 by omega, hbuf, keywordsPbLoop,
      hstep]
    simp only
    rw [hcount, if_neg (by omega)]
    have hrest := ih (a := a ++ f ++ [0]) (j := j + 1) hfs (by omega)
    have hlen : (a ++ f ++ [0]).length = a.length + f.length + 1 := by
      rw [List.length_append, List.length_append]
      rfl
    rw [hlen] at hrest
    have hlist : a ++ (f ++ 0 :: (fs.flatMap (· ++ [44]) ++ t)) =
        a ++ f ++ [0] ++ (fs.flatMap (· ++ [44]) ++ t) := by simp
    rw [hlist, hrest]
    simp [Nat.add_assoc, Nat.add_comm 1]

/-- Tokens behind the wanted one change nothing, as long as the counter does not come round. -/
theorem keywordsPbLoop_behind (n z : Nat) (k : PbKeywords) {pos j : Nat} {buf : List UInt8}
    (hz : buf.getD z 0 = 0) (hpz : pos ≤ z) (hj : keyNum ≤ j) (hround : j + (z - pos) < 256) :
    ∃ buf', keywordsPbLoop keyNum n buf pos j k = some (k, buf') := by
  induction n generalizing buf pos j with
  | zero => exact ⟨buf, rfl⟩
  | succ n ih =>
    rw [keywordsPbLoop]
    generalize hs : strtok 44 buf pos = s
    obtain ⟨_ | t, buf', pos'⟩ := s
    · exact ⟨buf', rfl⟩
    · obtain ⟨h1, h2, h3⟩ := CStr.strtok_frame (by decide) hz hpz hs
      simp only
      rw [Nat.mod_eq_of_lt (by omega), if_neg (by omega)]
      exact ih h3 h2 (by omega) (by omega)

/-! ## The topic and what follows it -/

/-- The text of a token without the blanks at its end. -/
def trimmed (token : List UInt8) : List UInt8 := token.rdropWhile blank

theorem trimLoop_append {token t : List UInt8} {i : Nat} (h : i < token.length) (keyLen : Nat) :
    trimLoop (token ++ t) i keyLen = trimLoop token i keyLen := by
  induction i generalizing keyLen with
  | zero => rw [trimLoop, trimLoop, List.getD_append _ _ _ _ h]
  | succ i ih =>
    rw [trimLoop, trimLoop, List.getD_append _ _ _ _ h, ih (Nat.lt_of_succ_lt h)]

/-- The loop leaves the token exactly when all its bytes are blanks. -/
theorem trimmedLen_eq (token : List UInt8) :
    trimmedLen token = if trimmed token = [] then none else some (trimmed token).length := by
  induction token using List.reverseRecOn with
  | nil => rfl
  | append_singleton token b ih =>
    have hlast : (token ++ [b]).getD token.length 0 = b := by
      rw [List.getD_append_right _ _ _ _ (Nat.le_refl _), Nat.sub_self]
      rfl
    unfold trimmedLen trimmed at ih ⊢
    rw [if_neg (List.append_ne_nil_of_right_ne_nil _ (List.cons_ne_nil b [])), List.rdropWhile_concat,
      List.length_append, List.length_singleton, Nat.add_sub_cancel]
    cases hlen : token.length with
    | zero =>
      obtain rfl := List.length_eq_zero_iff.1 hlen
      unfold trimLoop
      cases hb : blank b with
      | true => simp [hb]
      | false => simp [hb]
    | succ i =>
      rw [hlen] at hlast
      rw [if_neg (List.ne_nil_of_length_eq_add_one hlen), hlen] at ih
      rw [trimLoop, hlast]
      cases hb : blank b with
      | true =>
        rw [if_pos rfl, if_pos rfl, trimLoop_append (by omega)]
        exact ih
      | false => simp [hlen]

theorem trimmedLen_quoted {topic : List UInt8} (h : ∃ b, topic.getLast? = some b ∧ blank b = false) :
    trimmedLen (topic ++ [34]) = some topic.length := by
  obtain ⟨b, hlast, hb⟩ := h
  obtain ⟨init, rfl⟩ := List.getLast?_eq_some_iff.1 hlast
  have hquote : blank 34 = true := rfl
  have htrim : trimmed (init ++ [b] ++ [34]) = init ++ [b] := by
    unfold trimmed
    rw [List.rdropWhile_concat_pos _ _ _ hquote, List.rdropWhile_concat_neg _ _ _ (by simp [hb])]
  rw [trimmedLen_eq, htrim, if_neg (List.append_ne_nil_of_right_ne_nil _ (List.cons_ne_nil b []))]

/-- The decimal digits of a length that `ucdatalen` holds. -/
theorem decimal_spec {n : Nat} (h : n < 200) :
    decimal n ≠ [] ∧ 44 ∉ decimal n ∧ 0 ∉ decimal n ∧ (decimal n).length ≤ 3 ∧
      (CStr.atoi (textAt (copyInto 4 (decimal n)) 0) % 65536).toNat = n := by
  have hall : ∀ n < 200, decimal n ≠ [] ∧ 44 ∉ decimal n ∧ 0 ∉ decimal n ∧
      (decimal n).length ≤ 3 ∧
      (CStr.atoi (textAt (copyInto 4 (decimal n)) 0) % 65536).toNat = n := by decide +kernel
  exact hall n h

theorem getD_append_at (a : List UInt8) (b : UInt8) (t : List UInt8) :
    (a ++ b :: t).getD a.length 0 = b := by
  rw [List.getD_eq_getElem?_getD, List.getElem?_append_right (Nat.le_refl _), Nat.sub_self]
  rfl

/-- A string is copied with its terminator into a cleared buffer. -/
theorem store_replicate_nul {n : Nat} {s : List UInt8} (h : s.length < n) :
    store (List.replicate n 0) (s ++ [0]) = copyInto n s := by
  unfold CStr.store CStr.copyInto
  rw [List.drop_replicate, List.append_assoc, List.length_append, List.length_singleton,
    List.singleton_append, ← List.replicate_succ]
  congr 2
  omega

/-- The fields that are copied at the topic. -/
theorem takePbFields_quoted {topic payload dec t : List UInt8} (a : List UInt8)
    (h0 : 0 ∉ topic) (hlast : ∃ b, topic.getLast? = some b ∧ blank b = false)
    (htopic : topic.length ≤ 99) (hpay : payload.length ≤ 199)
    (hdec : decimal payload.length = dec) :
    takePbFields .clear (a ++ (34 :: topic ++ [34] ++ 0 :: (dec ++ 44 :: 34 :: (payload ++ t)))) a.length
        (a ++ (34 :: topic ++ [34, 0])).length =
      some (⟨true, copyInto 100 topic, copyInto 4 dec, copyInto 200 payload⟩,
        a ++ (34 :: topic ++ [34, 0]) ++ (dec ++ 0 :: 34 :: (payload ++ t)),
        (a ++ (34 :: topic ++ [34, 0])).length + dec.length + 1) := by
  obtain ⟨hne, h44, hdec0, hlen3, hatoi⟩ := decimal_spec (n := payload.length) (by omega)
  rw [hdec] at hne h44 hdec0 hlen3 hatoi
  have hquote : (a ++ (34 :: topic ++ [34] ++ 0 :: (dec ++ 44 :: 34 :: (payload ++ t)))).getD
      a.length 0 = 34 := by
    rw [List.cons_append, List.cons_append]
    exact getD_append_at ..
  have htext : textAt (a ++ (34 :: topic ++ [34] ++ 0 :: (dec ++ 44 :: 34 :: (payload ++ t))))
      (a.length + 1) = topic ++ [34] := by
    have h := CStr.textAt_append (a := a ++ [34]) (s := topic ++ [34])
      (t := dec ++ 44 :: 34 :: (payload ++ t)) (by simp [h0])
    simpa using h
  have hbuf : a ++ (34 :: topic ++ [34] ++ 0 :: (dec ++ 44 :: 34 :: (payload ++ t))) =
      a ++ (34 :: topic ++ [34, 0]) ++ (dec ++ 44 :: 34 :: (payload ++ t)) := by simp
  have htok := CStr.strtok_token (a := a ++ (34 :: topic ++ [34, 0]))
    (t := 34 :: (payload ++ t)) (.inl rfl) hne h44 hdec0
  rw [if_neg (by decide)] at htok
  generalize hb : a ++ (34 :: topic ++ [34, 0]) = b at hbuf htok ⊢
  have hlen : textAt (b ++ (dec ++ 0 :: 34 :: (payload ++ t))) b.length = dec :=
    CStr.textAt_append hdec0
  have hquote' : (b ++ (dec ++ 0 :: 34 :: (payload ++ t))).getD (b.length + (dec.length + 1)) 0 =
      34 := by
    have h := getD_append_at (b ++ dec ++ [0]) 34 (payload ++ t)
    simpa [Nat.add_assoc] using h
  have hdata : (b ++ (dec ++ 0 :: 34 :: (payload ++ t))).drop (b.length + 1 + (dec.length + 1)) =
      payload ++ t := by
    have h : (b ++ dec ++ [0, 34] ++ (payload ++ t)).drop (b ++ dec ++ [0, 34]).length =
        payload ++ t := List.drop_left
    rw [← h]
    congr 1
    · simp; omega
    · simp
  unfold takePbFields
  simp only [hquote, if_true, htext, trimmedLen_quoted hlast]
  rw [hbuf, htok]
  simp only [hlen, List.drop_left, List.take_left]
  rw [Nat.mod_eq_of_lt (by omega), Nat.mod_eq_of_lt (by omega)]
  simp only [hquote', if_true, hdata]
  have hdatalen : store PbKeywords.clear.datalen dec = copyInto 4 dec :=
    @CStr.store_clear (List.replicate 4 0) dec
  have hdata1 : store PbKeywords.clear.destData1 (topic ++ [0]) = copyInto 100 topic :=
    store_replicate_nul (by omega)
  have hdata2 : store PbKeywords.clear.destData2 (payload ++ [0]) = copyInto 200 payload :=
    store_replicate_nul (by omega)
  rw [List.take_left, hdatalen, hatoi, if_pos ⟨by omega, by omega, by omega⟩, List.take_left,
    hdata1, hdata2]

/-- A NUL in the topic ends the command for `strtok`, and the token behind it is missing. -/
theorem takePbFields_cut (k : PbKeywords) (a topic t : List UInt8) :
    takePbFields k (a ++ (34 :: topic ++ 0 :: t)) a.length (a.length + (34 :: topic).length) = none := by
  have hnul : (a ++ (34 :: topic ++ 0 :: t)).getD (a.length + (34 :: topic).length) 0 = 0 := by
    have h := getD_append_at (a ++ 34 :: topic) 0 t
    rwa [List.append_assoc, List.length_append] at h
  unfold takePbFields
  simp only [CStr.strtok_nul (d := 44) (by decide) hnul]
  split <;> rfl

end

/-! ## A whole notification -/

namespace Notification

variable {m : ModuleType} (msg : Notification m)

theorem bytes_eq : msg.bytes = netMqttCtrlCmdHead m ++ (msg.before ++
    ((34 :: msg.topic ++ [34]) ++ 44 :: (decimal msg.payload.length ++ 44 :: 34 ::
      (msg.payload ++ [34, 13, 10])))) := by
  simp [bytes, body, quoted, netMqttCtrlCmdTail, CStr.ascii]

theorem topicKeyNum_lt (m : ModuleType) : topicKeyNum m < 5 := by
  unfold topicKeyNum
  split <;> decide

/-- The loop up to the topic, with what follows the topic's opening quote left open. -/
theorem keywordsPb_topic {t : List UInt8} (n : Nat) :
    keywordsPbLoop (topicKeyNum m) (msg.fields.length + n)
        (netMqttCtrlCmdHead m ++ (msg.before ++ t)) (netMqttCtrlCmdHead m).length 0 .clear =
      keywordsPbLoop (topicKeyNum m) n
        (netMqttCtrlCmdHead m ++ msg.fields.flatMap (· ++ [0]) ++ t)
        (netMqttCtrlCmdHead m ++ msg.fields.flatMap (· ++ [0])).length msg.fields.length .clear := by
  have hlen := msg.fields_length
  have hkey := topicKeyNum_lt m
  have h := keywordsPbLoop_fields (a := netMqttCtrlCmdHead m) (t := t) (n := n) (j := 0)
    (k := .clear) msg.fields_ok (by omega : 0 + msg.fields.length < topicKeyNum m) (by omega)
  rwa [Nat.zero_add] at h

/-- The loop may go on behind the fields before the topic. -/
theorem exists_rounds {buf t : List UInt8} (hbuf : buf = netMqttCtrlCmdHead m ++ t) :
    ∃ n, buf.length + 1 = msg.fields.length + (n + 1) := by
  have hlen := msg.fields_length
  have hkey := topicKeyNum_lt m
  have hhead : 9 ≤ (netMqttCtrlCmdHead m).length := by cases m <;> decide
  refine ⟨buf.length - msg.fields.length, ?_⟩
  rw [hbuf, List.length_append]
  omega

/-- The topic, the length and the payload are copied out of a notification, whatever the payload's
bytes. -/
theorem keywordsPb (h0 : 0 ∉ msg.topic) (size : Nat) :
    ∃ k buf, getAtRspKeywordsPb (copyInto size msg.bytes) (netMqttCtrlCmdHead m) (topicKeyNum m) =
        some (k, buf) ∧ k.ret = true ∧
      k.decryptInput = ⟨msg.topic, msg.payload.length, msg.payload⟩ := by
  obtain ⟨hne, h44, hdec0, hlen3, hatoi⟩ := decimal_spec (n := msg.payload.length)
    (by have := msg.payload_le; omega)
  have hlen := msg.fields_length
  have hkey := topicKeyNum_lt m
  have hpay := msg.payload_le
  have htopic := msg.topic_le
  have hbuf : copyInto size msg.bytes = netMqttCtrlCmdHead m ++ (msg.before ++
      ((34 :: msg.topic ++ [34]) ++ 44 :: (decimal msg.payload.length ++ 44 :: 34 ::
        (msg.payload ++ ([34, 13, 10] ++ List.replicate (size - msg.bytes.length) 0))))) := by
    unfold CStr.copyInto
    rw [bytes_eq]
    simp
  obtain ⟨n, hn⟩ := msg.exists_rounds hbuf
  generalize hz : [34, 13, 10] ++ List.replicate (size - msg.bytes.length) (0 : UInt8) = z at hbuf
  have hzero : ∀ a : List UInt8, (a ++ z).getD (a.length + 3) 0 = 0 := fun a => by
    rw [← hz, ← List.append_assoc, List.getD_eq_getElem?_getD, List.getElem?_append_right (by simp)]
    simp only [List.length_append]
    rw [List.getElem?_replicate]
    split <;> rfl
  have hstep := CStr.strtok_token (d := 44) (s := 34 :: msg.topic ++ [34])
    (a := netMqttCtrlCmdHead m ++ msg.fields.flatMap (· ++ [0]))
    (t := decimal msg.payload.length ++ 44 :: 34 :: (msg.payload ++ z)) (.inl rfl)
    (by simp) (by simp [msg.topic_ok.1]) (by simp [h0])
  have hfields := takePbFields_quoted (t := z)
    (netMqttCtrlCmdHead m ++ msg.fields.flatMap (· ++ [0])) h0 msg.topic_last htopic hpay rfl
  rw [if_neg (by decide)] at hstep
  unfold getAtRspKeywordsPb
  rw [hn, hbuf, msg.keywordsPb_topic]
  generalize netMqttCtrlCmdHead m ++ msg.fields.flatMap (· ++ [0]) = a at hstep hfields ⊢
  have hpos : a.length + (34 :: msg.topic ++ [34]).length + 1 =
      (a ++ (34 :: msg.topic ++ [34, 0])).length := by simp; omega
  rw [keywordsPbLoop, hstep]
  simp only
  rw [Nat.mod_eq_of_lt (by omega), if_pos hlen, hpos, hfields]
  -- the tokens behind the length stay uncounted
  generalize a ++ (34 :: msg.topic ++ [34, 0]) = b
  have hz' := hzero (b ++ decimal msg.payload.length ++ [0, 34] ++ msg.payload)
  obtain ⟨buf, hbehind⟩ := keywordsPbLoop_behind n _ ⟨true, copyInto 100 msg.topic,
    copyInto 4 (decimal msg.payload.length), copyInto 200 msg.payload⟩ hz'
    (show b.length + (decimal msg.payload.length).length + 1 ≤ _ by simp; omega) hlen.ge
    (by simp; omega)
  refine ⟨⟨true, copyInto 100 msg.topic, copyInto 4 (decimal msg.payload.length),
    copyInto 200 msg.payload⟩, buf, ?_, rfl, ?_⟩
  · rw [← hbehind]
    simp
  · have htext : textAt (copyInto 100 msg.topic) 0 = msg.topic := by
      have h := CStr.textAt_append (a := []) (s := msg.topic)
        (t := List.replicate (99 - msg.topic.length) 0) h0
      rwa [← List.replicate_succ, show 99 - msg.topic.length + 1 = 100 - msg.topic.length by omega]
        at h
    simp only [PbKeywords.decryptInput, htext, hatoi, CStr.take_copyInto]

/-- With a NUL in the topic the fields are not found. -/
theorem keywordsPb_nul (h0 : 0 ∈ msg.topic) (size : Nat) :
    getAtRspKeywordsPb (copyInto size msg.bytes) (netMqttCtrlCmdHead m) (topicKeyNum m) = none := by
  obtain ⟨topic, rest, htopic, h0⟩ := List.eq_append_cons_of_mem h0
  have hlen := msg.fields_length
  have hkey := topicKeyNum_lt m
  have h44 := msg.topic_ok.1
  rw [htopic] at h44
  obtain ⟨t, hbuf⟩ : ∃ t, copyInto size msg.bytes = netMqttCtrlCmdHead m ++ (msg.before ++
      (34 :: topic ++ 0 :: t)) := by
    unfold CStr.copyInto
    rw [bytes_eq, htopic]
    exact ⟨_, by simp; rfl⟩
  obtain ⟨n, hn⟩ := msg.exists_rounds hbuf
  have hstep := CStr.strtok_token (d := 44) (s := 34 :: topic) (t := t)
    (a := netMqttCtrlCmdHead m ++ msg.fields.flatMap (· ++ [0])) (.inr rfl) (by simp)
    (by simp at h44 ⊢; exact h44.1) (by simp [h0])
  rw [if_pos rfl] at hstep
  unfold getAtRspKeywordsPb
  rw [hn, hbuf, msg.keywordsPb_topic, keywordsPbLoop, hstep]
  simp only
  rw [Nat.mod_eq_of_lt (by omega), if_pos hlen, takePbFields_cut]

end Notification

end AppXd.Net4g
