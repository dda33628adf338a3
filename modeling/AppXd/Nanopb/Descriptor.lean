import Mathlib.Data.List.Nodup
import Mathlib.Tactic.Common

/-!
# Messages and their descriptors

The kinds of fields that the messages of `route_pb.h` have: numbers and messages inside the structure,
strings behind a pointer. The repeated fields of `diot_pb.h` and `tsl_pb.h` are not among them. A
message has its fields in the order of their tags.
-/

namespace AppXd.Nanopb

/-- An entry of a descriptor. -/
structure Field (α : Type) where
  tag : Nat
  type : α

/-- Singular numbers and strings, and an optional message with a flag in front of it. The size is
that of the number in the structure. -/
inductive FieldType
  | bool
  | varint (dataSize : Nat)
  | uvarint (dataSize : Nat)
  | string
  | message (fields : List (Field FieldType))

/-- What a field of the structure holds. -/
inductive Value
  | bool (b : Bool)
  | int (i : Int)
  | string (pData : Option (List UInt8))
  | message (has : Bool) (values : List Value)

/-- A statement about a type holds if it holds for those without fields and goes from the fields of a
message to the message. -/
theorem FieldType.ind {P : FieldType → Prop} (bool : P .bool) (varint : ∀ n, P (.varint n))
    (uvarint : ∀ n, P (.uvarint n)) (string : P .string)
    (message : ∀ fields, (∀ f ∈ fields, P f.type) → P (.message fields)) (t : FieldType) : P t :=
  @FieldType.rec P (fun fields => ∀ f ∈ fields, P f.type) (fun f => P f.type) bool varint uvarint
    string message (fun _ hf => absurd hf List.not_mem_nil)
    (fun _ _ hf hfs f hmem => (List.mem_cons.1 hmem).elim (fun h => h ▸ hf) fun h => hfs f h)
    (fun _ _ h => h) t

/-! ## Defaults -/

mutual

/-- What `pb_field_set_to_default` puts into a field. -/
def FieldType.zero : FieldType → Value
  | .bool => .bool false
  | .varint _ => .int 0
  | .uvarint _ => .int 0
  | .string => .string none
  | .message fields => .message false (setToDefaults fields)

/-- `pb_message_set_to_defaults` -/
def setToDefaults : List (Field FieldType) → List Value
  | [] => []
  | ⟨_, t⟩ :: fields => t.zero :: setToDefaults fields

end

theorem setToDefaults_eq (fields : List (Field FieldType)) :
    setToDefaults fields = fields.map fun f => f.type.zero := by
  induction fields with
  | nil => rfl
  | cons f fields ih => rw [setToDefaults, ih, List.map_cons]

/-! ## The iterator -/

section
variable (tags : List Nat)

/-- `advance_iterator` -/
def advanceIterator (index : Nat) : Nat := if tags.length ≤ index + 1 then 0 else index + 1

/-- The loop of `pb_field_iter_find`. The descriptor's word has the lowest six bits of a tag. -/
def findLoop (start tag : Nat) : Nat → Nat → Option Nat
  | 0, _ => none
  | n + 1, index =>
    let index := advanceIterator tags index
    if tags[index]?.any fun t => t % 64 = tag % 64 ∧ t = tag then some index
    else if index = start then none
    else findLoop start tag n index

/-- Where the iterator stands afterwards, and whether it stands at the tag. The largest tag is the
last one. -/
def pbFieldIterFind (index tag : Nat) : Nat × Bool :=
  if tags[index]? = some tag then (index, true)
  else if tags.getLastD 0 < tag then (index, false)
  else
    let first := if tag < tags[index]?.getD 0 then tags.length else index
    match findLoop tags index tag (tags.length + 1) first with
    | some i => (i, true)
    | none => (index, false)

variable {tags} {index tag start : Nat}

theorem findLoop_eq_none (h : tag ∉ tags) (n : Nat) : findLoop tags start tag n index = none := by
  induction n generalizing index with
  | zero => rfl
  | succ n ih =>
    have hmiss : ¬ (tags[advanceIterator tags index]?.any fun t =>
        decide (t % 64 = tag % 64 ∧ t = tag)) = true := by
      rw [Option.any_eq_true]
      rintro ⟨t, ht, heq⟩
      obtain ⟨-, rfl⟩ := of_decide_eq_true heq
      exact h (List.mem_of_getElem? ht)
    rw [findLoop, if_neg hmiss, ih]
    exact ite_self none

/-- The loop finds a tag that stands in front of where it ends. -/
theorem findLoop_eq_some {n i j : Nat} (hnodup : tags.Nodup) (hi : tags[i]? = some tag)
    (hadvance : advanceIterator tags index = j) (hji : j ≤ i) (hn : i < n + j)
    (hstart : ∀ k, j ≤ k → k < i → k ≠ start) : findLoop tags start tag n index = some i := by
  induction n generalizing index j with
  | zero => omega
  | succ n ih =>
    have hlt : i < tags.length := (List.getElem?_eq_some_iff.1 hi).1
    rw [findLoop, hadvance]
    rcases Nat.lt_or_ge j i with hlt' | hge
    · have hne : ¬ (tags[j]?.any fun t => decide (t % 64 = tag % 64 ∧ t = tag)) = true := by
        rw [Option.any_eq_true]
        rintro ⟨t, ht, heq⟩
        obtain ⟨-, rfl⟩ := of_decide_eq_true heq
        exact Nat.ne_of_lt hlt' ((List.getElem?_inj (Nat.lt_trans hlt' hlt) hnodup).1 (ht.trans hi.symm))
      rw [if_neg hne, if_neg (hstart j (Nat.le_refl j) hlt')]
      refine ih (j := j + 1) ?_ hlt' (by omega) fun k hk => hstart k (Nat.le_of_succ_le hk)
      unfold advanceIterator
      exact if_neg (by omega)
    · obtain rfl : j = i := Nat.le_antisymm hji hge
      rw [hi, if_pos]
      exact decide_eq_true ⟨rfl, rfl⟩

/-- The largest tag is the last one. -/
theorem le_getLastD (hsorted : tags.Pairwise (· < ·)) (h : tag ∈ tags) :
    tag ≤ tags.getLastD 0 := by
  have hne : tags ≠ [] := List.ne_nil_of_mem h
  rw [List.getLastD_eq_getLast?, List.getLast?_eq_some_getLast hne, Option.getD_some]
  rw [← List.dropLast_concat_getLast hne, List.mem_append, List.mem_singleton] at h
  rw [← List.dropLast_concat_getLast hne, List.pairwise_append] at hsorted
  rcases h with h | rfl
  · exact Nat.le_of_lt (hsorted.2.2 tag h _ (List.mem_singleton_self _))
  · exact Nat.le_refl _

theorem getElem_lt_iff (hsorted : tags.Pairwise (· < ·)) {i j : Nat} (hi : i < tags.length)
    (hj : j < tags.length) : tags[i] < tags[j] ↔ i < j := by
  have hlt := List.pairwise_iff_getElem.1 hsorted
  refine ⟨fun h => ?_, hlt i j hi hj⟩
  rcases Nat.lt_trichotomy i j with hij | rfl | hji
  · exact hij
  · exact absurd h (Nat.lt_irrefl _)
  · exact absurd (hlt j i hj hi hji) (Nat.lt_asymm h)

/-- The search from where the iterator stands. -/
theorem findLoop_getElem (hsorted : tags.Pairwise (· < ·)) (hindex : index < tags.length)
    {i : Nat} (hi : i < tags.length) (hne : i ≠ index) :
    findLoop tags index tags[i] (tags.length + 1)
      (if tags[i] < tags[index] then tags.length else index) = some i := by
  have hnodup : tags.Nodup := hsorted.imp Nat.ne_of_lt
  have hi' : tags[i]? = some tags[i] := List.getElem?_eq_getElem hi
  split
  · rename_i hless
    have hlt : i < index := (getElem_lt_iff hsorted hi hindex).1 hless
    -- from behind the last field the search starts again at the first one
    have hadvance : advanceIterator tags tags.length = 0 := if_pos (Nat.le_succ _)
    exact findLoop_eq_some hnodup hi' hadvance (Nat.zero_le _) (by omega) fun k _ hk =>
      Nat.ne_of_lt (Nat.lt_trans hk hlt)
  · rename_i hless
    have hgt : index < i := by
      have hle := mt (getElem_lt_iff hsorted hi hindex).2 hless
      omega
    have hadvance : advanceIterator tags index = index + 1 := if_neg (by omega)
    exact findLoop_eq_some hnodup hi' hadvance hgt (by omega) fun k hk _ =>
      Nat.ne_of_gt hk

/-- Wherever the iterator stands, it finds the field with the tag if there is one, and stays where it
is if there is none. -/
theorem pbFieldIterFind_eq (hsorted : tags.Pairwise (· < ·)) (hindex : index < tags.length) :
    pbFieldIterFind tags index tag =
      if tag ∈ tags then (tags.idxOf tag, true) else (index, false) := by
  unfold pbFieldIterFind
  split
  · rename_i hhere
    obtain ⟨hlt, rfl⟩ := List.getElem?_eq_some_iff.1 hhere
    rw [if_pos (List.getElem_mem hlt), List.Nodup.idxOf_getElem (hsorted.imp Nat.ne_of_lt) index hlt]
  · rename_i haway
    by_cases hmem : tag ∈ tags
    · obtain ⟨i, hi, rfl⟩ := List.getElem_of_mem hmem
      have hne : i ≠ index := by
        rintro rfl
        exact haway (List.getElem?_eq_getElem hi)
      have hloop := findLoop_getElem hsorted hindex hi hne
      rw [if_neg (Nat.not_lt.2 (le_getLastD hsorted hmem)), if_pos hmem,
        List.getElem?_eq_getElem hindex, Option.getD_some]
      simp only [hloop]
      rw [List.Nodup.idxOf_getElem (hsorted.imp Nat.ne_of_lt) i hi]
    · simp only [findLoop_eq_none hmem, ite_self, if_neg hmem]

/-- A message without fields has none with the tag. -/
theorem pbFieldIterFind_nil (htag : tag ≠ 0) : pbFieldIterFind [] index tag = (index, false) := by
  unfold pbFieldIterFind
  rw [if_neg nofun, List.getLastD_nil, if_pos (Nat.pos_of_ne_zero htag)]

end

end AppXd.Nanopb
