import AppXd.Nanopb.Format

/-!
# Messages without NUL

The cloud's responses go through functions for texts. A message is a text when nothing in it is
present and empty: a string or a message of no bytes has a size of 0, and nothing else has a NUL.
-/

namespace AppXd.Nanopb

mutual

/-- What is present has some bytes. -/
def FieldType.Full : FieldType → Value → Prop
  | .string, .string (some str) => cString str ≠ []
  | .message fields, .message has values => has = true → wire fields values ≠ [] ∧ Full fields values
  | _, _ => True

def Full : List (Field FieldType) → List Value → Prop
  | ⟨_, t⟩ :: fields, v :: values => t.Full v ∧ Full fields values
  | _, _ => True

end

section
variable {fields : List (Field FieldType)} {values : List Value} {tag wireType n : Nat}
  {t : FieldType} {v : Value} {l : List UInt8}

theorem zero_mem_pbEncodeVarint (h : n < 2 ^ 64) : 0 ∈ pbEncodeVarint n ↔ n = 0 := by
  rw [pbEncodeVarint_eq h, Base128.zero_mem_digits_iff]

theorem zero_notMem_wireTag (hw : wireType < 8) (hpos : 0 < tag) (hlt : tag < 2 ^ 29) :
    0 ∉ wireTag wireType tag := by
  rw [wireTag, tag_or hw, zero_mem_pbEncodeVarint (by omega)]
  omega

theorem zero_notMem_cString (str : List UInt8) : 0 ∉ cString str := by
  intro h
  have hne := List.mem_takeWhile_imp (p := fun b : UInt8 => decide (b ≠ 0)) h
  exact absurd hne (by decide)

theorem zero_notMem_wireSized (hl : l.length < 2 ^ 64) :
    0 ∉ wireSized l ↔ l ≠ [] ∧ 0 ∉ l := by
  rw [wireSized, List.mem_append, not_or, zero_mem_pbEncodeVarint hl, List.length_eq_zero_iff]

theorem toNat_emod_ne_zero {dataSize : Nat} (h : dataSize ∈ [1, 2, 4, 8]) {i : Int} (hi : i ≠ 0)
    (hrange : i.bmod (2 ^ (8 * dataSize)) = i ∨ i % 2 ^ (8 * dataSize) = i) :
    (i % 2 ^ 64).toNat ≠ 0 := by
  have hsize : dataSize = 1 ∨ dataSize = 2 ∨ dataSize = 4 ∨ dataSize = 8 := by simpa using h
  rcases hrange with hr | hr
  · rcases hsize with rfl | rfl | rfl | rfl <;> simp only [Int.bmod_def] at hr <;> omega
  · rcases hsize with rfl | rfl | rfl | rfl <;> omega

/-- The fields one after the other. -/
theorem zero_notMem_wire_of_fields
    (h : ∀ f ∈ fields, ∀ v, f.type.Holds v → (f.type.wire f.tag v).length < 2 ^ 32 →
      (0 ∉ f.type.wire f.tag v ↔ f.type.Full v))
    (hold : Hold fields values) (hlen : (wire fields values).length < 2 ^ 32) :
    0 ∉ wire fields values ↔ Full fields values := by
  induction fields generalizing values with
  | nil => exact iff_of_true List.not_mem_nil trivial
  | cons f fields ih =>
    cases values with
    | nil => exact absurd hold id
    | cons v values =>
      rw [wire, List.length_append] at hlen
      rw [Hold] at hold
      have hfirst : (f.type.wire f.tag v).length < 2 ^ 32 := by omega
      rw [wire, Full, List.mem_append, not_or, h f List.mem_cons_self v hold.1 hfirst,
        ih (fun f hf => h f (List.mem_cons_of_mem _ hf)) hold.2 (by omega)]

theorem zero_notMem_varint {dataSize : Nat} {i : Int} (h : dataSize ∈ [1, 2, 4, 8])
    (hrange : i.bmod (2 ^ (8 * dataSize)) = i ∨ i % 2 ^ (8 * dataSize) = i) (hpos : 0 < tag)
    (hlt : tag < 2 ^ 29) :
    0 ∉ if i = 0 then [] else wireTag 0 tag ++ pbEncodeVarint (i % 2 ^ 64).toNat := by
  split
  · exact List.not_mem_nil
  · rename_i hi
    rw [List.mem_append, not_or, zero_mem_pbEncodeVarint (toNat_emod_lt i)]
    exact ⟨zero_notMem_wireTag (by decide) hpos hlt, toNat_emod_ne_zero h hi hrange⟩

theorem FieldType.zero_notMem_wire (t : FieldType) (tag : Nat) (v : Value) (hpos : 0 < tag)
    (hlt : tag < 2 ^ 29) (hwf : t.wellFormed = true) (h : t.Holds v)
    (hlen : (t.wire tag v).length < 2 ^ 32) : 0 ∉ t.wire tag v ↔ t.Full v := by
  induction t using FieldType.ind generalizing tag v with
  | bool =>
    cases v with
    | bool b =>
      cases b with
      | false => exact iff_of_true List.not_mem_nil trivial
      | true =>
        refine iff_of_true ?_ trivial
        rw [FieldType.wire, if_pos rfl, List.mem_append, not_or,
          zero_mem_pbEncodeVarint (by decide)]
        exact ⟨zero_notMem_wireTag (by decide) hpos hlt, by decide⟩
    | _ => exact absurd h id
  | varint dataSize =>
    cases v with
    | int i => exact iff_of_true (zero_notMem_varint h.1 (.inl h.2) hpos hlt) trivial
    | _ => exact absurd h id
  | uvarint dataSize =>
    cases v with
    | int i => exact iff_of_true (zero_notMem_varint h.1 (.inr h.2) hpos hlt) trivial
    | _ => exact absurd h id
  | string =>
    cases v with
    | string str =>
      cases str with
      | none => exact iff_of_true List.not_mem_nil trivial
      | some str =>
        rw [FieldType.wire, List.length_append] at hlen
        have hsized := length_wireSized (cString str)
        rw [FieldType.wire, List.mem_append, not_or, zero_notMem_wireSized (by omega)]
        exact ⟨fun h => h.2.1,
          fun h => ⟨zero_notMem_wireTag (by decide) hpos hlt, h, zero_notMem_cString str⟩⟩
    | _ => exact absurd h id
  | message fields ih =>
    cases v with
    | message present values =>
      cases present with
      | false => exact iff_of_true List.not_mem_nil fun h => absurd h Bool.false_ne_true
      | true =>
        have hold : Hold fields values := h
        have hwf' : AppXd.Nanopb.wellFormed fields = true := hwf
        have htypes : typesWellFormed fields = true := (Bool.and_eq_true_iff.1 hwf').2
        rw [FieldType.wire, if_pos rfl, List.length_append] at hlen
        have hsized := length_wireSized (AppXd.Nanopb.wire fields values)
        have hfields : 0 ∉ AppXd.Nanopb.wire fields values ↔ AppXd.Nanopb.Full fields values :=
          zero_notMem_wire_of_fields (fun f hf v hv hl =>
            ih f hf f.tag v (wellFormed_tag hwf' hf).1 (wellFormed_tag hwf' hf).2
              (typesWellFormed_mem htypes hf) hv hl) hold (by omega)
        rw [FieldType.wire, if_pos rfl, List.mem_append, not_or, zero_notMem_wireSized (by omega),
          hfields]
        exact ⟨fun h _ => h.2, fun h => ⟨zero_notMem_wireTag (by decide) hpos hlt, h rfl⟩⟩
    | _ => exact absurd h id

/-- A message has no NUL exactly when what is present in it has some bytes. -/
theorem zero_notMem_wire_iff (hwf : wellFormed fields = true) (hold : Hold fields values)
    (hlen : (wire fields values).length < 2 ^ 32) :
    0 ∉ wire fields values ↔ Full fields values := by
  have htypes : typesWellFormed fields = true := (Bool.and_eq_true_iff.1 hwf).2
  exact zero_notMem_wire_of_fields (fun f hf v hv hl =>
    f.type.zero_notMem_wire f.tag v (wellFormed_tag hwf hf).1 (wellFormed_tag hwf hf).2
      (typesWellFormed_mem htypes hf) hv hl) hold hlen

end

end AppXd.Nanopb
