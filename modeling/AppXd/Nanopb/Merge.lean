import AppXd.Nanopb.Decode

/-!
# Messages as tables

A message is a table from tags to fields: a record goes to the field with its tag, wherever the
iterator stands. So a buffer in two parts is decoded part by part, with an iterator that begins again.
-/

namespace AppXd.Nanopb

open Records

/-- A record of the table. -/
def tableRecord (ds : List (Field Decoder)) : Reader (List Value × Heap) UInt8 := fun dest l =>
  (pbDecodeTag l).bind fun x =>
    if x.1.2 = 0 then none
    else if x.1.2 ∈ ds.map Field.tag then
      decodeField ds ((ds.map Field.tag).idxOf x.1.2) x.1.1 dest x.2
    else (pbSkipField x.1.1 x.2).map fun y => (dest, y.2)

/-- The tags are in order, and each decoder takes something. -/
structure Table (ds : List (Field Decoder)) : Prop where
  sorted : (ds.map Field.tag).Pairwise (· < ·)
  proper : ∀ field ∈ ds, field.type.Proper

section
variable {ds : List (Field Decoder)} {dest dest' : List Value × Heap} {l a b : List UInt8}
  {i wireType : Nat}

theorem decodeField_front (h : ∀ field ∈ ds, field.type.Proper) :
    Front (decodeField ds i wireType dest) := by
  unfold decodeField
  cases hd : ds[i]? with
  | none => exact Front.none
  | some field =>
    cases dest.1[i]? with
    | none => exact Front.none
    | some v =>
      exact (((h field (List.mem_of_getElem? hd)) wireType).front (v, dest.2)).map
        fun v' => (dest.1.set i v'.1, v'.2)

theorem tableRecord_proper (h : ∀ field ∈ ds, field.type.Proper) : (tableRecord ds).Proper := by
  refine ⟨fun dest => ?_, fun _ => rfl⟩
  let record (x : Nat × Nat) : Read (List Value × Heap) UInt8 := fun l =>
    if x.2 = 0 then none
    else if x.2 ∈ ds.map Field.tag then
      decodeField ds ((ds.map Field.tag).idxOf x.2) x.1 dest l
    else (pbSkipField x.1 l).map fun y => (dest, y.2)
  refine pbDecodeTag_front.bind (g := record) fun x => Front.ite Front.none ?_
  exact Front.ite (decodeField_front h) ((pbSkipField_front x.1).map fun _ => dest)

theorem decodeRecord_proper (h : ∀ field ∈ ds, field.type.Proper) : (decodeRecord ds).Proper := by
  refine ⟨fun iter => ?_, fun _ => rfl⟩
  let record (x : Nat × Nat) : Read Iter UInt8 := fun l =>
    if x.2 = 0 then none
    else
      let found := pbFieldIterFind (ds.map Field.tag) iter.index x.2
      if found.2 then
        (decodeField ds found.1 x.1 (iter.values, iter.heap) l).map fun y =>
          (⟨found.1, y.1.1, y.1.2⟩, y.2)
      else (pbSkipField x.1 l).map fun y => (⟨found.1, iter.values, iter.heap⟩, y.2)
  refine pbDecodeTag_front.bind (g := record) fun x => Front.ite Front.none ?_
  exact Front.ite ((decodeField_front h).map fun y => (⟨_, y.1, y.2⟩ : Iter))
    ((pbSkipField_front x.1).map fun _ => (⟨_, iter.values, iter.heap⟩ : Iter))

/-- Where the iterator can stand. -/
def Iter.InRange (ds : List (Field Decoder)) (iter : Iter) : Prop := ds = [] ∨ iter.index < ds.length

theorem Iter.InRange.find {iter : Iter} (hrange : iter.InRange ds)
    (hsorted : (ds.map Field.tag).Pairwise (· < ·)) {tag : Nat} (htag : tag ≠ 0) :
    pbFieldIterFind (ds.map Field.tag) iter.index tag =
      if tag ∈ ds.map Field.tag then ((ds.map Field.tag).idxOf tag, true)
      else (iter.index, false) := by
  rcases hrange with rfl | hlt
  · exact pbFieldIterFind_nil htag
  · exact pbFieldIterFind_eq hsorted (List.length_map Field.tag ▸ hlt)

/-- The iterator finds what the table has. -/
theorem tableRecord_iter {iter : Iter} (h : Table ds) (hrange : iter.InRange ds) (l : List UInt8) :
    tableRecord ds (iter.values, iter.heap) l =
      (decodeRecord ds iter l).map (Prod.map (fun iter => (iter.values, iter.heap)) id) := by
  unfold tableRecord decodeRecord
  rw [Option.map_bind]
  refine Option.bind_congr fun x hx => ?_
  simp only [Function.comp_apply]
  split
  · rfl
  · rename_i htag
    simp only [hrange.find h.sorted htag]
    split
    · rw [if_pos rfl, Option.map_map]
      exact (Option.map_id').symm
    · rw [if_neg Bool.false_ne_true, Option.map_map]
      rfl

theorem decodeRecord_inRange {iter : Iter} {x : Iter × List UInt8} (h : Table ds)
    (hrange : iter.InRange ds) (hx : decodeRecord ds iter l = some x) : x.1.InRange ds := by
  obtain ⟨y, hy, hx⟩ := Option.bind_eq_some_iff.1 hx
  split at hx
  · cases hx
  · rename_i htag
    simp only [hrange.find h.sorted htag] at hx
    split at hx
    · rename_i hmem
      rw [if_pos rfl] at hx
      obtain ⟨z, hz, rfl⟩ := Option.map_eq_some_iff.1 hx
      refine .inr ?_
      rw [← List.length_map Field.tag]
      exact List.idxOf_lt_length_of_mem hmem
    · rw [if_neg Bool.false_ne_true] at hx
      obtain ⟨z, hz, rfl⟩ := Option.map_eq_some_iff.1 hx
      exact hrange

theorem pbDecodeInner_eq (h : Table ds) (dest : List Value × Heap) (l : List UInt8) :
    pbDecodeInner ds dest l = run (tableRecord ds) dest l := by
  have hrange : Iter.InRange ds ⟨0, dest.1, dest.2⟩ := by
    rcases Nat.eq_zero_or_pos ds.length with hzero | hpos
    · exact .inl (List.length_eq_zero_iff.1 hzero)
    · exact .inr hpos
  exact (run_map (decodeRecord_proper h.proper) (tableRecord_proper h.proper)
    (fun hI => decodeRecord_inRange h hI) (fun hI => tableRecord_iter h hI) hrange).symm

/-- What is decoded from two parts in a row, the second one into what the first one has left. -/
theorem pbDecodeInner_append (h : Table ds) (ha : pbDecodeInner ds dest a = some dest') :
    pbDecodeInner ds dest (a ++ b) = pbDecodeInner ds dest' b := by
  rw [pbDecodeInner_eq h] at ha ⊢
  rw [pbDecodeInner_eq h, run_append (tableRecord_proper h.proper) ha]

end

end AppXd.Nanopb
