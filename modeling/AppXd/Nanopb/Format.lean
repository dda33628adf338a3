import AppXd.Nanopb.Merge
import AppXd.Nanopb.Encode

/-!
# What is written is read back

A structure comes back from its message up to what the message does not have: what a string has behind
its end, and the fields of a message whose flag is not set.
-/

namespace AppXd.Nanopb

open Records

/-! ## Well-formed descriptors -/

/-- The tags of a message are in order and fit next to the wire type. -/
def tagsWellFormed (tags : List Nat) : Bool :=
  decide (tags.Pairwise (· < ·)) && tags.all fun tag => decide (0 < tag ∧ tag < 2 ^ 29)

mutual

def FieldType.wellFormed : FieldType → Bool
  | .message fields => tagsWellFormed (fields.map Field.tag) && typesWellFormed fields
  | _ => true

def typesWellFormed : List (Field FieldType) → Bool
  | [] => true
  | ⟨_, t⟩ :: fields => t.wellFormed && typesWellFormed fields

end

def wellFormed (fields : List (Field FieldType)) : Bool :=
  tagsWellFormed (fields.map Field.tag) && typesWellFormed fields

/-! ## What comes back -/

mutual

def FieldType.normal : FieldType → Value → Value
  | .string, .string (some str) => .string (some (cString str))
  | .message fields, .message has values =>
    if has then .message true (normal fields values) else .message false (setToDefaults fields)
  | _, v => v

def normal : List (Field FieldType) → List Value → List Value
  | ⟨_, t⟩ :: fields, v :: values => t.normal v :: normal fields values
  | _, _ => []

end

section
variable {fields : List (Field FieldType)} {values : List Value} {tag wireType n : Nat}
  {t : FieldType} {v : Value} {l r : List UInt8}

@[simp] theorem normal_nil : normal [] values = [] := rfl

@[simp] theorem normal_cons {f : Field FieldType} :
    normal (f :: fields) (v :: values) = f.type.normal v :: normal fields values := rfl

@[simp] theorem FieldType.normal_bool : FieldType.normal .bool v = v := rfl

@[simp] theorem FieldType.normal_varint : FieldType.normal (.varint n) v = v := rfl

@[simp] theorem FieldType.normal_message :
    FieldType.normal (.message fields) (.message true values) =
      .message true (AppXd.Nanopb.normal fields values) := rfl

theorem decoders_eq (fields : List (Field FieldType)) :
    decoders fields = fields.map fun f => ⟨f.tag, f.type.decoder⟩ := by
  induction fields with
  | nil => rfl
  | cons f fields ih => rw [decoders, ih, List.map_cons]

theorem map_tag_decoders (fields : List (Field FieldType)) :
    (decoders fields).map Field.tag = fields.map Field.tag := by
  rw [decoders_eq, List.map_map]
  rfl

theorem decoders_proper {d : Field Decoder} (h : d ∈ decoders fields) : d.type.Proper := by
  rw [decoders_eq] at h
  obtain ⟨f, -, rfl⟩ := List.mem_map.1 h
  exact f.type.decoder_proper

theorem table_of_sorted (h : (fields.map Field.tag).Pairwise (· < ·)) : Table (decoders fields) :=
  ⟨(map_tag_decoders fields).symm ▸ h, fun _ hd => decoders_proper hd⟩

theorem wellFormed_sorted (h : wellFormed fields = true) :
    (fields.map Field.tag).Pairwise (· < ·) :=
  of_decide_eq_true ((Bool.and_eq_true_iff.1 ((Bool.and_eq_true_iff.1 h).1)).1)

theorem wellFormed_tag (h : wellFormed fields = true) {f : Field FieldType} (hf : f ∈ fields) :
    0 < f.tag ∧ f.tag < 2 ^ 29 :=
  of_decide_eq_true (List.all_eq_true.1 ((Bool.and_eq_true_iff.1 ((Bool.and_eq_true_iff.1 h).1)).2) _
    (List.mem_map_of_mem hf))

theorem typesWellFormed_mem (h : typesWellFormed fields = true) {f : Field FieldType}
    (hf : f ∈ fields) : f.type.wellFormed = true := by
  induction fields with
  | nil => cases hf
  | cons f' fields ih =>
    obtain ⟨hfirst, hrest⟩ := Bool.and_eq_true_iff.1 h
    rcases List.mem_cons.1 hf with rfl | hf
    · exact hfirst
    · exact ih hrest hf

/-! ## One record -/

theorem tag_or (hw : wireType < 8) : tag <<< 3 ||| wireType = tag * 8 + wireType := by
  rw [Nat.shiftLeft_eq, Nat.mul_comm, ← Nat.two_pow_add_eq_or_of_lt hw]

theorem pbDecodeTag_wireTag (hw : wireType < 8) (htag : tag < 2 ^ 29) (r : List UInt8) :
    pbDecodeTag (wireTag wireType tag ++ r) = some ((wireType, tag), r) := by
  have hmod : (tag * 8 + wireType) % 8 = wireType := by omega
  have hdiv : (tag * 8 + wireType) / 8 = tag := by omega
  rw [pbDecodeTag, wireTag, tag_or hw, pbDecodeVarint32_encode (by omega), Option.map_some, hmod,
    hdiv]

theorem pbReadString_wireSized (hl : l.length < 2 ^ 32) (r : List UInt8) :
    pbReadString (wireSized l ++ r) = some (l, r) := by
  rw [pbReadString, wireSized, List.append_assoc, pbDecodeVarint32_encode hl, Option.bind_some,
    sized_append rfl]

/-- What is written of a field: nothing if it holds its default, and else a record that is decoded into
the field while that holds its default. -/
structure Recorded (t : FieldType) (tag : Nat) (v : Value) (wireType : Nat) (payload : List UInt8) :
    Prop where
  wire : t.wire tag v = wireTag wireType tag ++ payload
  wireType_lt : wireType < 8
  decoder r : t.decoder wireType (t.zero, .roomy) (payload ++ r) = some ((t.normal v, .roomy), r)

/-- A field is written as a record or is left out. -/
def Written (t : FieldType) (tag : Nat) (v : Value) : Prop :=
  t.wire tag v = [] ∧ t.normal v = t.zero ∨ ∃ wireType payload, Recorded t tag v wireType payload

theorem written_bool (tag : Nat) (b : Bool) : Written .bool tag (.bool b) := by
  cases b with
  | false => exact .inl ⟨rfl, rfl⟩
  | true =>
    refine .inr ⟨0, pbEncodeVarint 1, rfl, by decide, fun r => ?_⟩
    rw [FieldType.decoder, pbDecBool, if_neg (not_not_intro rfl),
      pbDecodeVarint32_encode (by decide)]
    rfl

theorem toNat_emod_lt (i : Int) : (i % 2 ^ 64).toNat < 2 ^ 64 := by omega

theorem natCast_emod (i : Int) : ((i % 2 ^ 64).toNat : Int) = i % 2 ^ 64 := by omega

theorem bmod_emod_32 (i : Int) : (i % 2 ^ 64).bmod (2 ^ 32) = i.bmod (2 ^ 32) := by
  have hemod : i % 2 ^ 64 % 2 ^ 32 = i % 2 ^ 32 := by omega
  rw [← Int.emod_bmod, ← Int.emod_bmod (x := i)]
  exact congrArg (fun j => Int.bmod j (2 ^ 32)) hemod

theorem bmod_32_of_bmod {n : Nat} (h : n ∈ [1, 2, 4]) {i : Int} (hi : i.bmod (2 ^ (8 * n)) = i) :
    i.bmod (2 ^ 32) = i := by
  have hsize : n = 1 ∨ n = 2 ∨ n = 4 := by simpa using h
  rcases hsize with rfl | rfl | rfl <;> simp only [Int.bmod_def] at hi ⊢ <;> omega

/-- The lower bits of a number with a sign have it back. -/
theorem signedField_encode {dataSize : Nat} (h : dataSize ∈ [1, 2, 4, 8]) {i : Int}
    (hi : i.bmod (2 ^ (8 * dataSize)) = i) :
    signedField dataSize (i % 2 ^ 64).toNat = some i := by
  have hvalue : (if dataSize = 8 then ((i % 2 ^ 64).toNat : Int).bmod (2 ^ 64)
      else ((i % 2 ^ 64).toNat : Int).bmod (2 ^ 32)) = i := by
    rw [natCast_emod]
    split
    · rename_i h8
      subst h8
      exact (Int.emod_bmod ..).trans hi
    · rename_i h8
      have hsize : dataSize ∈ [1, 2, 4] := by
        simp only [List.mem_cons, List.not_mem_nil, or_false] at h ⊢
        omega
      rw [bmod_emod_32, bmod_32_of_bmod hsize hi]
  unfold signedField
  simp only [hvalue]
  exact if_pos ⟨h, hi⟩

theorem unsignedField_encode {dataSize : Nat} (h : dataSize ∈ [1, 2, 4, 8]) {i : Int}
    (hi : i % 2 ^ (8 * dataSize) = i) : unsignedField dataSize (i % 2 ^ 64).toNat = some i := by
  have hsize : dataSize = 1 ∨ dataSize = 2 ∨ dataSize = 4 ∨ dataSize = 8 := by simpa using h
  have hvalue : ((i % 2 ^ 64).toNat : Int) = i := by
    rcases hsize with rfl | rfl | rfl | rfl <;> omega
  have hcut : (i % 2 ^ 64).toNat % 2 ^ (8 * dataSize) = (i % 2 ^ 64).toNat := by
    rcases hsize with rfl | rfl | rfl | rfl <;> omega
  rw [unsignedField, if_pos ⟨h, hcut⟩, hvalue]

theorem written_varint {dataSize : Nat} {i : Int} (tag : Nat)
    (h : FieldType.Holds (.varint dataSize) (.int i)) : Written (.varint dataSize) tag (.int i) := by
  by_cases hi : i = 0
  · exact .inl ⟨by rw [FieldType.wire, if_pos hi], by rw [hi]; rfl⟩
  · refine .inr ⟨0, pbEncodeVarint (i % 2 ^ 64).toNat, ?_, by decide, fun r => ?_⟩
    · rw [FieldType.wire, if_neg hi]
    · rw [FieldType.decoder, pbDecVarint, if_neg (not_not_intro rfl),
        pbDecodeVarint_encode (toNat_emod_lt i), Option.bind_some, signedField_encode h.1 h.2]
      rfl

theorem written_uvarint {dataSize : Nat} {i : Int} (tag : Nat)
    (h : FieldType.Holds (.uvarint dataSize) (.int i)) :
    Written (.uvarint dataSize) tag (.int i) := by
  by_cases hi : i = 0
  · exact .inl ⟨by rw [FieldType.wire, if_pos hi], by rw [hi]; rfl⟩
  · refine .inr ⟨0, pbEncodeVarint (i % 2 ^ 64).toNat, ?_, by decide, fun r => ?_⟩
    · rw [FieldType.wire, if_neg hi]
    · rw [FieldType.decoder, pbDecVarint, if_neg (not_not_intro rfl),
        pbDecodeVarint_encode (toNat_emod_lt i), Option.bind_some, unsignedField_encode h.1 h.2]
      rfl

theorem length_wireSized (l : List UInt8) : l.length < (wireSized l).length := by
  rw [wireSized, List.length_append]
  exact Nat.lt_add_of_pos_left (List.length_pos_iff.2 (pbEncodeVarint_ne_nil _))

theorem length_wireTag_pos (wireType tag : Nat) : 0 < (wireTag wireType tag).length :=
  List.length_pos_iff.2 (pbEncodeVarint_ne_nil _)

theorem written_string (tag : Nat) (pData : Option (List UInt8))
    (hlen : (FieldType.wire .string tag (.string pData)).length < 2 ^ 32) :
    Written .string tag (.string pData) := by
  cases pData with
  | none => exact .inl ⟨rfl, rfl⟩
  | some str =>
    refine .inr ⟨2, wireSized (cString str), rfl, by decide, fun r => ?_⟩
    rw [FieldType.wire, List.length_append] at hlen
    have htag := length_wireTag_pos 2 tag
    have hsized := length_wireSized (cString str)
    have hne : ¬ (cString str).length = 2 ^ 32 - 1 := by omega
    have hmalloc : Heap.roomy.enableMalloc = true := rfl
    rw [FieldType.decoder, decodePointerField, if_pos hmalloc, pbDecString,
      if_neg (not_not_intro rfl), wireSized, List.append_assoc,
      pbDecodeVarint32_encode (by omega), Option.bind_some, if_neg hne, sized_append rfl]
    rfl

/-! ## All records -/

/-- A record of the field behind those that are done. -/
theorem tableRecord_field {done rest : List (Field FieldType)} {dest dest' : List Value}
    {payload : List UInt8}
    (hsorted : ((done ++ ⟨tag, t⟩ :: rest).map Field.tag).Pairwise (· < ·)) (hpos : 0 < tag)
    (htag : tag < 2 ^ 29) (hdest : dest.length = done.length)
    (hrec : Recorded t tag v wireType payload) (r : List UInt8) :
    tableRecord (decoders (done ++ ⟨tag, t⟩ :: rest)) (dest ++ t.zero :: dest', .roomy)
        (wireTag wireType tag ++ (payload ++ r)) =
      some ((dest ++ t.normal v :: dest', .roomy), r) := by
  have hmem : tag ∈ (done ++ ⟨tag, t⟩ :: rest).map Field.tag :=
    List.mem_map.2 ⟨⟨tag, t⟩, List.mem_append_right _ List.mem_cons_self, rfl⟩
  have hindex : ((done ++ ⟨tag, t⟩ :: rest).map Field.tag).idxOf tag = done.length := by
    have hget : ((done ++ ⟨tag, t⟩ :: rest).map Field.tag)[done.length]? = some tag := by
      rw [List.getElem?_map, List.getElem?_append_right (Nat.le_refl _), Nat.sub_self]
      rfl
    obtain ⟨hlt, hget⟩ := List.getElem?_eq_some_iff.1 hget
    have hnodup : ((done ++ ⟨tag, t⟩ :: rest).map Field.tag).Nodup := hsorted.imp Nat.ne_of_lt
    rw [← hnodup.idxOf_getElem done.length hlt, hget]
  have hdecoder : (decoders (done ++ ⟨tag, t⟩ :: rest))[done.length]? = some ⟨tag, t.decoder⟩ := by
    rw [decoders_eq, List.getElem?_map, List.getElem?_append_right (Nat.le_refl _), Nat.sub_self]
    rfl
  have hvalue : (dest ++ t.zero :: dest')[done.length]? = some t.zero := by
    rw [← hdest, List.getElem?_append_right (Nat.le_refl _), Nat.sub_self]
    rfl
  rw [tableRecord, pbDecodeTag_wireTag hrec.wireType_lt htag, Option.bind_some,
    if_neg (Nat.ne_of_gt hpos), map_tag_decoders, if_pos hmem, hindex, decodeField]
  simp only [hdecoder, hvalue, hrec.decoder r, Option.map_some]
  rw [← hdest, List.set_append_right _ _ (Nat.le_refl _), Nat.sub_self, List.set_cons_zero]

/-- The fields that are left are decoded behind those that are done. -/
theorem run_wire (done : List (Field FieldType)) (dest : List Value)
    (hsorted : ((done ++ fields).map Field.tag).Pairwise (· < ·))
    (htags : ∀ f ∈ fields, 0 < f.tag ∧ f.tag < 2 ^ 29) (hdest : dest.length = done.length)
    (hold : Hold fields values) (hlen : (wire fields values).length < 2 ^ 32)
    (hwritten : ∀ f ∈ fields, ∀ v, f.type.Holds v →
      (f.type.wire f.tag v).length < 2 ^ 32 → Written f.type f.tag v) :
    run (tableRecord (decoders (done ++ fields))) (dest ++ setToDefaults fields, .roomy)
      (wire fields values) = some (dest ++ normal fields values, .roomy) := by
  induction fields generalizing done dest values with
  | nil => rfl
  | cons f fields ih =>
    cases values with
    | nil => exact absurd hold id
    | cons v values =>
      obtain ⟨tag, t⟩ := f
      rw [wire, List.length_append] at hlen
      rw [Hold] at hold
      have hdecoders : ∀ d ∈ decoders (done ++ ⟨tag, t⟩ :: fields), d.type.Proper :=
        fun _ => decoders_proper
      have hproper := tableRecord_proper hdecoders
      -- the field is done now
      have hnext := ih (done ++ [⟨tag, t⟩]) (dest ++ [t.normal v])
        (by rwa [List.append_assoc]) (fun f hf => htags f (List.mem_cons_of_mem _ hf))
        (by rw [List.length_append, List.length_append, hdest]; rfl) hold.2 (by omega)
        fun f hf => hwritten f (List.mem_cons_of_mem _ hf)
      rw [List.append_assoc, List.append_assoc, List.append_assoc] at hnext
      rw [wire, setToDefaults, normal]
      refine Eq.trans ?_ hnext
      have hfirst : (t.wire tag v).length < 2 ^ 32 := by omega
      rcases hwritten ⟨tag, t⟩ List.mem_cons_self v hold.1 hfirst with
        ⟨hnil, hzero⟩ | ⟨wireType, payload, hrec⟩
      · rw [hnil, hzero]
        rfl
      · obtain ⟨hpos, htag⟩ := htags ⟨tag, t⟩ List.mem_cons_self
        rw [hrec.wire, List.append_assoc]
        exact run_record hproper (tableRecord_field hsorted hpos htag hdest hrec _)

theorem pbDecodeInner_wire (hwf : wellFormed fields = true) (hold : Hold fields values)
    (hlen : (wire fields values).length < 2 ^ 32)
    (hwritten : ∀ f ∈ fields, ∀ v, f.type.Holds v →
      (f.type.wire f.tag v).length < 2 ^ 32 → Written f.type f.tag v) :
    pbDecodeInner (decoders fields) (setToDefaults fields, .roomy) (wire fields values) =
      some (normal fields values, .roomy) := by
  rw [pbDecodeInner_eq (table_of_sorted (wellFormed_sorted hwf))]
  exact run_wire [] [] (wellFormed_sorted hwf) (fun f => wellFormed_tag hwf) rfl hold hlen hwritten

theorem written_message {has : Bool} (tag : Nat) (hwf : wellFormed fields = true)
    (hold : Hold fields values)
    (hlen : (FieldType.wire (.message fields) tag (.message has values)).length < 2 ^ 32)
    (hwritten : ∀ f ∈ fields, ∀ v, f.type.Holds v →
      (f.type.wire f.tag v).length < 2 ^ 32 → Written f.type f.tag v) :
    Written (.message fields) tag (.message has values) := by
  cases has with
  | false => exact .inl ⟨rfl, rfl⟩
  | true =>
    refine .inr ⟨2, wireSized (wire fields values), rfl, by decide, fun r => ?_⟩
    rw [FieldType.wire, if_pos rfl, List.length_append] at hlen
    have hsized := length_wireSized (wire fields values)
    have hshort : (wire fields values).length < 2 ^ 32 := by omega
    rw [FieldType.decoder, pbDecSubmessage, if_neg (not_not_intro rfl),
      pbReadString_wireSized hshort, Option.bind_some, decodeInto, FieldType.zero]
    simp only [pbDecodeInner_wire hwf hold hshort hwritten]
    rfl

theorem FieldType.written (t : FieldType) (tag : Nat) (v : Value) (hwf : t.wellFormed = true)
    (h : t.Holds v) (hlen : (t.wire tag v).length < 2 ^ 32) : Written t tag v := by
  induction t using FieldType.ind generalizing tag v with
  | bool =>
    match v, h with
    | .bool b, _ => exact written_bool tag b
  | varint dataSize =>
    match v, h with
    | .int i, h => exact written_varint tag h
  | uvarint dataSize =>
    match v, h with
    | .int i, h => exact written_uvarint tag h
  | string =>
    match v, h with
    | .string pData, _ => exact written_string tag pData hlen
  | message fields ih =>
    match v, h with
    | .message has values, hold =>
      have hwf' : AppXd.Nanopb.wellFormed fields = true := hwf
      have htypes : typesWellFormed fields = true := (Bool.and_eq_true_iff.1 hwf').2
      exact written_message tag hwf' hold hlen fun f hf v =>
        ih f hf f.tag v (typesWellFormed_mem htypes hf)

/-- The message of a structure is decoded into the structure, where there is memory for its strings. -/
theorem pbDecode_wire (hwf : wellFormed fields = true) (hold : Hold fields values)
    (hlen : (wire fields values).length < 2 ^ 32) :
    pbDecode fields .roomy (wire fields values) = some (normal fields values, .roomy) := by
  have htypes : typesWellFormed fields = true := (Bool.and_eq_true_iff.1 hwf).2
  exact pbDecodeInner_wire hwf hold hlen fun f hf v =>
    f.type.written f.tag v (typesWellFormed_mem htypes hf)

/-- What the encoder has put into a buffer the decoder takes out of it, where there is memory for the
strings. -/
theorem pbDecode_pbEncode {bufsize : Nat} {s : OStream} (hwf : wellFormed fields = true)
    (hold : Hold fields values) (hsize : bufsize < 2 ^ 32)
    (h : pbEncode fields values (pbOstreamFromBuffer bufsize) = some s) :
    pbDecode fields .roomy s.state = some (normal fields values, .roomy) := by
  rw [pbEncode_fromBuffer hold] at h
  split at h
  · cases h
  · rename_i hfits
    cases h
    exact pbDecode_wire hwf hold (by omega)

end

/-- A string comes back without what stands behind its end, and a message that is not there comes back
with its defaults. -/
theorem pbDecode_pbEncode_nested :
    (pbEncode [⟨1, .string⟩, ⟨4, .message [⟨1, .varint 2⟩]⟩]
        [.string (some [107, 0, 108]), .message false [.int 7]] (pbOstreamFromBuffer 8)).map (·.state) =
      some [10, 1, 107] ∧
    pbDecode [⟨1, .string⟩, ⟨4, .message [⟨1, .varint 2⟩]⟩] .roomy [10, 1, 107] =
      some ([.string (some [107]), .message false [.int 0]], .roomy) := by
  have hencode : pbEncode [⟨1, .string⟩, ⟨4, .message [⟨1, .varint 2⟩]⟩]
      [.string (some [107, 0, 108]), .message false [.int 7]] (pbOstreamFromBuffer 8) =
      some ⟨true, 8, 3, [10, 1, 107]⟩ := rfl
  have hold : Hold [⟨1, .string⟩, ⟨4, .message [⟨1, .varint 2⟩]⟩]
      [.string (some [107, 0, 108]), .message false [.int 7]] :=
    ⟨trivial, ⟨⟨by decide, by decide⟩, trivial⟩, trivial⟩
  refine ⟨congrArg (Option.map (·.state)) hencode, ?_⟩
  exact pbDecode_pbEncode (by decide) hold (by decide) hencode

end AppXd.Nanopb
