import AppXd.Lib.Records
import AppXd.Nanopb.Varint
import AppXd.Nanopb.Descriptor

/-!
# Decoding

A message is a run of records, a tag with a wire type and a payload each. The iterator goes to the field
with the tag and the payload goes into what the field holds; a payload under another tag is skipped. A
string is put into memory that `realloc` gives, in a build with `PB_ENABLE_MALLOC`. Without it, and so it
is in `pb.h`, no string is decoded.
-/

namespace AppXd.Nanopb

open Records

/-! ## Fields -/

/-- Whether the build has `PB_ENABLE_MALLOC`, and what `realloc` answers there, call by call. Behind the
end it always has memory. -/
structure Heap where
  enableMalloc : Bool
  answers : List Bool

def Heap.realloc (heap : Heap) : Option Heap :=
  match heap.answers with
  | [] => some heap
  | ok :: answers => if ok then some { heap with answers } else none

/-- With `PB_ENABLE_MALLOC`, and with memory for everything. -/
def Heap.roomy : Heap := ⟨true, []⟩

/-- Decodes a payload of a wire type into what a field holds. -/
abbrev Decoder := Nat → Reader (Value × Heap) UInt8

/-- The wire type and the tag. -/
def pbDecodeTag : Read (Nat × Nat) UInt8 := fun l =>
  (pbDecodeVarint32 l).map fun x => ((x.1 % 8, x.1 / 8), x.2)

/-- A payload with its size in front. -/
def pbReadString : Read (List UInt8) UInt8 := fun l =>
  (pbDecodeVarint32 l).bind fun x => sized x.1 x.2

def pbSkipField (wireType : Nat) : Read Unit UInt8 := fun l =>
  if wireType = 0 then (pbSkipVarint l).map fun r => ((), r)
  else if wireType = 1 then (sized 8 l).map fun x => ((), x.2)
  else if wireType = 2 then (pbReadString l).map fun x => ((), x.2)
  else if wireType = 5 then (sized 4 l).map fun x => ((), x.2)
  else none

def pbDecBool : Decoder := fun wireType dest l =>
  if wireType ≠ 0 then none
  else (pbDecodeVarint32 l).map fun x => ((.bool (x.1 ≠ 0), dest.2), x.2)

/-- The number in the structure. A field of 32 bits or less takes the lower 32 bits of the varint, and
none that its own size cuts. -/
def signedField (dataSize value : Nat) : Option Int :=
  let svalue : Int := if dataSize = 8 then (value : Int).bmod (2 ^ 64) else (value : Int).bmod (2 ^ 32)
  if dataSize ∈ [1, 2, 4, 8] ∧ svalue.bmod (2 ^ (8 * dataSize)) = svalue then some svalue else none

def unsignedField (dataSize value : Nat) : Option Int :=
  if dataSize ∈ [1, 2, 4, 8] ∧ value % 2 ^ (8 * dataSize) = value then some value else none

/-- `pb_dec_varint`, with the conversion of the field. -/
def pbDecVarint (field : Nat → Option Int) : Decoder := fun wireType dest l =>
  if wireType ≠ 0 then none
  else (pbDecodeVarint l).bind fun x => (field x.1).map fun i => ((.int i, dest.2), x.2)

def pbDecString : Decoder := fun wireType dest l =>
  if wireType ≠ 2 then none
  else (pbDecodeVarint32 l).bind fun x =>
    if x.1 = 2 ^ 32 - 1 then none
    else (sized x.1 x.2).bind fun y =>
      dest.2.realloc.map fun heap => ((.string (some y.1), heap), y.2)

/-- `decode_pointer_field`, which has "no malloc support" in a build without. -/
def decodePointerField (d : Decoder) : Decoder := fun wireType dest l =>
  if dest.2.enableMalloc then d wireType dest l else none

/-! ## Messages -/

/-- The structure while it is decoded, with the index of the iterator. -/
structure Iter where
  index : Nat
  values : List Value
  heap : Heap

section
variable (ds : List (Field Decoder))

/-- `decode_field` for the field at an index. -/
def decodeField (i wireType : Nat) : Reader (List Value × Heap) UInt8 := fun dest l =>
  match ds[i]?, dest.1[i]? with
  | some field, some v =>
    (field.type wireType (v, dest.2) l).map fun x => ((dest.1.set i x.1.1, x.1.2), x.2)
  | _, _ => none

/-- A round of the loop of `pb_decode_inner`. -/
def decodeRecord : Reader Iter UInt8 := fun iter l =>
  (pbDecodeTag l).bind fun x =>
    if x.1.2 = 0 then none
    else
      let found := pbFieldIterFind (ds.map Field.tag) iter.index x.1.2
      if found.2 then
        (decodeField ds found.1 x.1.1 (iter.values, iter.heap) x.2).map fun y =>
          (⟨found.1, y.1.1, y.1.2⟩, y.2)
      else (pbSkipField x.1.1 x.2).map fun y => (⟨found.1, iter.values, iter.heap⟩, y.2)

def pbDecodeInner (dest : List Value × Heap) (l : List UInt8) : Option (List Value × Heap) :=
  (run (decodeRecord ds) ⟨0, dest.1, dest.2⟩ l).map fun iter => (iter.values, iter.heap)

/-- Into a message that a field holds, which has its flag set then. It is not set to its defaults
before, so that what comes is merged with what came earlier. -/
def decodeInto (dest : Value × Heap) (l : List UInt8) : Option (Value × Heap) :=
  match dest.1 with
  | .message _ values =>
    (pbDecodeInner ds (values, dest.2) l).map fun x => (.message true x.1, x.2)
  | _ => none

def pbDecSubmessage : Decoder := fun wireType dest l =>
  if wireType ≠ 2 then none
  else (pbReadString l).bind fun x => (decodeInto ds dest x.1).map fun v => (v, x.2)

end

mutual

/-- `decode_basic_field`, and `decode_pointer_field` around it for a string. -/
def FieldType.decoder : FieldType → Decoder
  | .bool => pbDecBool
  | .varint dataSize => pbDecVarint (signedField dataSize)
  | .uvarint dataSize => pbDecVarint (unsignedField dataSize)
  | .string => decodePointerField pbDecString
  | .message fields => pbDecSubmessage (decoders fields)

def decoders : List (Field FieldType) → List (Field Decoder)
  | [] => []
  | ⟨tag, t⟩ :: fields => ⟨tag, t.decoder⟩ :: decoders fields

end

def pbDecode (fields : List (Field FieldType)) (heap : Heap) (l : List UInt8) :
    Option (List Value × Heap) :=
  pbDecodeInner (decoders fields) (setToDefaults fields, heap) l

/-! ## What stands behind has no part -/

section
variable {ds : List (Field Decoder)} {l r : List UInt8} {bitpos result wireType : Nat}

theorem varint32Loop_append {x : Nat × List UInt8} (h : varint32Loop l bitpos result = some x) :
    ∃ t, l = t ++ x.2 ∧ ∀ r, varint32Loop (t ++ r) bitpos result = some (x.1, r) := by
  induction l generalizing bitpos result with
  | nil => cases h
  | cons byte l ih =>
    rw [varint32Loop, Option.bind_eq_bind, Option.bind_eq_some_iff] at h
    obtain ⟨result', hbyte, h⟩ := h
    split at h
    · rename_i hmore
      obtain ⟨t, rfl, hread⟩ := ih h
      refine ⟨byte :: t, rfl, fun r => ?_⟩
      rw [List.cons_append, varint32Loop, hbyte]
      exact (if_pos hmore).trans (hread r)
    · rename_i hlast
      cases h
      refine ⟨[byte], rfl, fun r => ?_⟩
      rw [List.cons_append, varint32Loop, hbyte]
      exact if_neg hlast

theorem pbDecodeVarint32_front : Front pbDecodeVarint32 := by
  intro l x h
  cases l with
  | nil => cases h
  | cons byte l =>
    rw [pbDecodeVarint32] at h
    split at h
    · rename_i hlast
      cases h
      exact ⟨[byte], rfl, fun r => if_pos hlast⟩
    · rename_i hmore
      obtain ⟨t, rfl, hread⟩ := varint32Loop_append h
      exact ⟨byte :: t, rfl, fun r => (if_neg hmore).trans (hread r)⟩

theorem pbDecodeVarint_front : Front pbDecodeVarint := by
  intro l x h
  rw [pbDecodeVarint_eq, Option.filter_eq_some_iff] at h
  obtain ⟨hread, hfits⟩ := h
  obtain ⟨t, ht, -, -, hagain⟩ := Base128.read_eq_some hread
  refine ⟨t, ht, fun r => ?_⟩
  rw [pbDecodeVarint_eq, hagain, Option.filter_some, if_pos hfits]

theorem pbSkipVarint_front : Front fun l => (pbSkipVarint l).map fun r => ((), r) := by
  intro l x h
  obtain ⟨r, hskip, rfl⟩ := Option.map_eq_some_iff.1 h
  clear h
  induction l with
  | nil => cases hskip
  | cons byte l ih =>
    rw [pbSkipVarint] at hskip
    split at hskip
    · rename_i hmore
      obtain ⟨t, rfl, hread⟩ := ih hskip
      refine ⟨byte :: t, rfl, fun r => ?_⟩
      simp only [List.cons_append, pbSkipVarint, if_pos hmore]
      exact hread r
    · rename_i hlast
      cases hskip
      refine ⟨[byte], rfl, fun r => ?_⟩
      simp only [List.cons_append, pbSkipVarint, if_neg hlast]
      rfl

theorem pbDecodeTag_front : Front pbDecodeTag :=
  pbDecodeVarint32_front.map fun n => (n % 8, n / 8)

theorem pbReadString_front : Front pbReadString :=
  pbDecodeVarint32_front.bind fun n => Front.sized n

theorem pbSkipField_front (wireType : Nat) : Front (pbSkipField wireType) :=
  Front.ite pbSkipVarint_front <| Front.ite ((Front.sized 8).map fun _ => ()) <|
    Front.ite (pbReadString_front.map fun _ => ()) <|
      Front.ite ((Front.sized 4).map fun _ => ()) Front.none

/-- A decoder takes something from the front, whatever the wire type. -/
def Decoder.Proper (d : Decoder) : Prop := ∀ wireType, (d wireType).Proper

theorem pbDecBool_proper : Decoder.Proper pbDecBool := by
  refine fun wireType => ⟨fun dest => ?_, fun dest => ite_self none⟩
  exact Front.ite Front.none <|
    pbDecodeVarint32_front.map fun n => (Value.bool (decide (n ≠ 0)), dest.2)

theorem pbDecVarint_proper (field : Nat → Option Int) : Decoder.Proper (pbDecVarint field) := by
  refine fun wireType => ⟨fun dest => ?_, fun dest => ite_self none⟩
  exact Front.ite Front.none <| pbDecodeVarint_front.check field fun i => (Value.int i, dest.2)

theorem pbDecString_proper : Decoder.Proper pbDecString := by
  refine fun wireType => ⟨fun dest => ?_, fun dest => ite_self none⟩
  let string (s : List UInt8) : Read (Value × Heap) UInt8 := fun l =>
    dest.2.realloc.map fun heap => ((.string (some s), heap), l)
  have hstring : ∀ s, Front (string s) := fun s => by
    simp only [string]
    cases dest.2.realloc with
    | none => exact Front.none
    | some heap => exact Front.some _
  let sizedString (n : Nat) : Read (Value × Heap) UInt8 := fun l =>
    if n = 2 ^ 32 - 1 then none else (sized n l).bind fun x => string x.1 x.2
  refine Front.ite Front.none <| pbDecodeVarint32_front.bind (g := sizedString) fun n => ?_
  exact Front.ite Front.none ((Front.sized n).bind hstring)

theorem Decoder.Proper.pointer {d : Decoder} (h : d.Proper) : (decodePointerField d).Proper := by
  refine fun wireType => ⟨fun dest => Front.ite ((h wireType).front dest) Front.none, fun dest => ?_⟩
  rw [decodePointerField, (h wireType).nil, ite_self]

theorem pbDecSubmessage_proper : Decoder.Proper (pbDecSubmessage ds) := by
  refine fun wireType => ⟨fun dest => ?_, fun dest => ite_self none⟩
  exact Front.ite Front.none <| pbReadString_front.check (decodeInto ds dest) id

theorem FieldType.decoder_proper (t : FieldType) : t.decoder.Proper := by
  cases t with
  | bool => exact pbDecBool_proper
  | varint dataSize => exact pbDecVarint_proper _
  | uvarint dataSize => exact pbDecVarint_proper _
  | string => exact pbDecString_proper.pointer
  | message fields => exact pbDecSubmessage_proper

end

end AppXd.Nanopb
