import AppXd.Nanopb.Varint
import AppXd.Nanopb.Descriptor

/-!
# Encoding

The encoder writes to a buffer or only counts. A message in a message is encoded twice, to have its
size in front of it. Both agree in what they write: the bytes of the message, if these fit.
-/

namespace AppXd.Nanopb

/-! ## Streams -/

/-- Without a callback the stream only counts. `state` is what the buffer has. -/
structure OStream where
  callback : Bool
  maxSize : Nat
  bytesWritten : Nat
  state : List UInt8

/-- `PB_OSTREAM_SIZING` -/
def OStream.sizing : OStream := ⟨false, 0, 0, []⟩

def pbOstreamFromBuffer (bufsize : Nat) : OStream := ⟨true, bufsize, 0, []⟩

def pbWrite (buf : List UInt8) (s : OStream) : Option OStream :=
  if 0 < buf.length ∧ s.callback then
    if s.maxSize < s.bytesWritten + buf.length then none
    else some { s with bytesWritten := s.bytesWritten + buf.length, state := s.state ++ buf }
  else some { s with bytesWritten := s.bytesWritten + buf.length }

/-! ## Fields -/

def pbEncodeTag (wireType fieldNumber : Nat) : OStream → Option OStream :=
  pbWrite (pbEncodeVarint (fieldNumber <<< 3 ||| wireType))

def pbEncBool (b : Bool) : OStream → Option OStream :=
  pbWrite (pbEncodeVarint (if b then 1 else 0))

def pbEncVarint (dataSize : Nat) (i : Int) (s : OStream) : Option OStream :=
  if dataSize ∈ [1, 2, 4, 8] then pbWrite (pbEncodeVarint (i % 2 ^ 64).toNat) s else none

/-- What a string has in front of its end. There is an end behind what the pointer has. -/
def cString (s : List UInt8) : List UInt8 := s.takeWhile (· ≠ 0)

def pbEncodeString (buf : List UInt8) (s : OStream) : Option OStream :=
  (pbWrite (pbEncodeVarint buf.length) s).bind (pbWrite buf)

/-- `pb_encode_submessage` -/
def pbEncodeSubmessage (encode : OStream → Option OStream) (s : OStream) : Option OStream :=
  (encode .sizing).bind fun substream =>
    let size := substream.bytesWritten
    (pbWrite (pbEncodeVarint size) s).bind fun s =>
      if s.callback = false then some { s with bytesWritten := s.bytesWritten + size }
      else if s.maxSize < s.bytesWritten + size then none
      else (encode ⟨s.callback, size, 0, s.state⟩).bind fun substream =>
        if substream.bytesWritten ≠ size then none
        else some { s with
          bytesWritten := s.bytesWritten + substream.bytesWritten, state := substream.state }

mutual

/-- `encode_field`. A number that is zero, a string behind a NULL pointer and a message whose flag is
not set are not written. -/
def FieldType.encode : FieldType → Nat → Value → OStream → Option OStream
  | .bool, tag, .bool b, s => if b then (pbEncodeTag 0 tag s).bind (pbEncBool b) else some s
  | .varint dataSize, tag, .int i, s
  | .uvarint dataSize, tag, .int i, s =>
    if i = 0 then some s else (pbEncodeTag 0 tag s).bind (pbEncVarint dataSize i)
  | .string, tag, .string pData, s =>
    match pData with
    | none => some s
    | some str => (pbEncodeTag 2 tag s).bind (pbEncodeString (cString str))
  | .message fields, tag, .message has values, s =>
    if has then (pbEncodeTag 2 tag s).bind (pbEncodeSubmessage (pbEncode fields values)) else some s
  | _, _, _, _ => none

def pbEncode : List (Field FieldType) → List Value → OStream → Option OStream
  | ⟨tag, t⟩ :: fields, v :: values, s => (t.encode tag v s).bind (pbEncode fields values)
  | _, _, s => some s

end

def pbGetEncodedSize (fields : List (Field FieldType)) (values : List Value) : Option Nat :=
  (pbEncode fields values .sizing).map OStream.bytesWritten

/-! ## What a structure holds -/

mutual

/-- Each field holds what its type can hold. -/
def FieldType.Holds : FieldType → Value → Prop
  | .bool, .bool _ => True
  | .varint dataSize, .int i => dataSize ∈ [1, 2, 4, 8] ∧ i.bmod (2 ^ (8 * dataSize)) = i
  | .uvarint dataSize, .int i => dataSize ∈ [1, 2, 4, 8] ∧ i % 2 ^ (8 * dataSize) = i
  | .string, .string _ => True
  | .message fields, .message _ values => Hold fields values
  | _, _ => False

def Hold : List (Field FieldType) → List Value → Prop
  | ⟨_, t⟩ :: fields, v :: values => t.Holds v ∧ Hold fields values
  | [], [] => True
  | _, _ => False

end

/-! ## The bytes of a message -/

def wireTag (wireType tag : Nat) : List UInt8 := pbEncodeVarint (tag <<< 3 ||| wireType)

/-- Something with its size in front. -/
def wireSized (l : List UInt8) : List UInt8 := pbEncodeVarint l.length ++ l

mutual

def FieldType.wire : FieldType → Nat → Value → List UInt8
  | .bool, tag, .bool b => if b then wireTag 0 tag ++ pbEncodeVarint 1 else []
  | .varint _, tag, .int i
  | .uvarint _, tag, .int i =>
    if i = 0 then [] else wireTag 0 tag ++ pbEncodeVarint (i % 2 ^ 64).toNat
  | .string, tag, .string (some str) => wireTag 2 tag ++ wireSized (cString str)
  | .message fields, tag, .message has values =>
    if has then wireTag 2 tag ++ wireSized (wire fields values) else []
  | _, _, _ => []

def wire : List (Field FieldType) → List Value → List UInt8
  | ⟨tag, t⟩ :: fields, v :: values => t.wire tag v ++ wire fields values
  | _, _ => []

end

/-! ## The encoder writes them -/

section
variable {fields : List (Field FieldType)} {values : List Value} {s : OStream} {w : List UInt8}
  {encode : OStream → Option OStream}

/-- A stream that only counts. -/
theorem pbWrite_sizing (hcb : s.callback = false) (w : List UInt8) :
    pbWrite w s = some { s with bytesWritten := s.bytesWritten + w.length } := by
  rw [pbWrite, if_neg]
  rintro ⟨-, h⟩
  exact absurd h (hcb ▸ Bool.false_ne_true)

/-- A stream with a buffer that is not exceeded. -/
theorem pbWrite_buffer (hcb : s.callback = true) (hle : s.bytesWritten ≤ s.maxSize)
    (w : List UInt8) :
    pbWrite w s = if s.maxSize < s.bytesWritten + w.length then none
      else some { s with bytesWritten := s.bytesWritten + w.length, state := s.state ++ w } := by
  rw [pbWrite]
  cases w with
  | nil =>
    rw [if_neg fun h => Nat.lt_irrefl _ h.1, List.length_nil, Nat.add_zero,
      if_neg (Nat.not_lt.2 hle), List.append_nil]
  | cons b w => rw [if_pos ⟨Nat.zero_lt_succ _, hcb⟩]

theorem bytesWritten_le_of_pbWrite {s' : OStream} (hw : w ≠ []) (hcb : s.callback = true)
    (h : pbWrite w s = some s') : s'.bytesWritten ≤ s'.maxSize := by
  rw [pbWrite, if_pos ⟨List.length_pos_iff.2 hw, hcb⟩] at h
  split at h
  · cases h
  · rename_i hle
    cases h
    exact Nat.not_lt.1 hle

theorem callback_of_pbWrite {s' : OStream} (h : pbWrite w s = some s') :
    s'.callback = s.callback := by
  unfold pbWrite at h
  split at h
  · split at h
    · cases h
    · cases h
      rfl
  · cases h
    rfl

theorem pbWrite_append (a b : List UInt8) (s : OStream) :
    pbWrite (a ++ b) s = (pbWrite a s).bind (pbWrite b) := by
  cases hcb : s.callback with
  | false =>
    rw [pbWrite_sizing hcb, pbWrite_sizing hcb, Option.bind_some, List.length_append,
      pbWrite_sizing (by exact hcb), Nat.add_assoc]
  | true =>
    by_cases ha : a = []
    · rw [ha]
      rfl
    · have hab : 0 < (a ++ b).length := List.length_pos_iff.2 (List.append_ne_nil_of_left_ne_nil ha b)
      rw [pbWrite, if_pos ⟨hab, hcb⟩, List.length_append]
      cases hwrite : pbWrite a s with
      | none =>
        rw [pbWrite, if_pos ⟨List.length_pos_iff.2 ha, hcb⟩] at hwrite
        split at hwrite
        · rw [if_pos (by omega)]
          rfl
        · cases hwrite
      | some s' =>
        have hle := bytesWritten_le_of_pbWrite ha hcb hwrite
        rw [pbWrite, if_pos ⟨List.length_pos_iff.2 ha, hcb⟩] at hwrite
        split at hwrite
        · cases hwrite
        · obtain rfl := Option.some.inj hwrite
          rw [Option.bind_some, pbWrite_buffer (by exact hcb) hle, Nat.add_assoc,
            List.append_assoc]

theorem pbEncodeVarint_ne_nil (n : Nat) : pbEncodeVarint n ≠ [] := by
  unfold pbEncodeVarint pbEncodeVarint32
  simp only
  split
  · exact List.cons_ne_nil _ _
  · split <;> simp

/-- A submessage whose encoder writes its bytes: their size, and then the bytes. -/
theorem pbEncodeSubmessage_eq (h : ∀ s, encode s = pbWrite w s) (s : OStream) :
    pbEncodeSubmessage encode s = pbWrite (wireSized w) s := by
  have hsize : encode .sizing = some ⟨false, 0, w.length, []⟩ := by
    rw [h, pbWrite_sizing rfl, OStream.sizing, Nat.zero_add]
  rw [pbEncodeSubmessage, hsize, Option.bind_some, wireSized, pbWrite_append]
  refine Option.bind_congr fun s' hs' => ?_
  cases hcb : s'.callback with
  | false => rw [if_pos rfl, pbWrite_sizing hcb, hcb]
  | true =>
    have hle : s'.bytesWritten ≤ s'.maxSize :=
      bytesWritten_le_of_pbWrite (pbEncodeVarint_ne_nil _) (callback_of_pbWrite hs' ▸ hcb) hs'
    rw [if_neg Bool.false_ne_true.symm, pbWrite_buffer hcb hle]
    split
    · rfl
    · -- the substream has room for the size that was counted, and no more
      have hsub : encode ⟨true, w.length, 0, s'.state⟩ =
          some ⟨true, w.length, w.length, s'.state ++ w⟩ := by
        rw [h, pbWrite_buffer rfl (Nat.zero_le _)]
        simp only [Nat.zero_add, Nat.lt_irrefl, if_false]
      rw [hsub, Option.bind_some, if_neg (not_not_intro rfl), hcb]

theorem pbEncVarint_eq {dataSize : Nat} (h : dataSize ∈ [1, 2, 4, 8]) (i : Int) :
    pbEncVarint dataSize i s = pbWrite (pbEncodeVarint (i % 2 ^ 64).toNat) s :=
  if_pos h

/-- The fields one after the other. -/
theorem pbEncode_of_fields
    (h : ∀ f ∈ fields, ∀ v s, f.type.Holds v → f.type.encode f.tag v s = pbWrite (f.type.wire f.tag v) s)
    (hold : Hold fields values) (s : OStream) :
    pbEncode fields values s = pbWrite (wire fields values) s := by
  induction fields generalizing values s with
  | nil => rfl
  | cons f fields ih =>
    cases values with
    | nil => exact absurd hold id
    | cons v values =>
      rw [Hold] at hold
      rw [pbEncode, wire, pbWrite_append, h f List.mem_cons_self v s hold.1]
      exact Option.bind_congr fun s' _ =>
        ih (fun f hf => h f (List.mem_cons_of_mem _ hf)) hold.2 s'

theorem FieldType.encode_eq (t : FieldType) (tag : Nat) (v : Value) (s : OStream) (h : t.Holds v) :
    t.encode tag v s = pbWrite (t.wire tag v) s := by
  induction t using FieldType.ind generalizing tag v s with
  | bool =>
    match v, h with
    | .bool true, _ => exact (pbWrite_append _ _ s).symm
    | .bool false, _ => rfl
  | varint dataSize =>
    match v, h with
    | .int i, h =>
      rw [FieldType.encode, FieldType.wire]
      split
      · rfl
      · rw [pbWrite_append]
        exact Option.bind_congr fun s' _ => pbEncVarint_eq h.1 i
  | uvarint dataSize =>
    match v, h with
    | .int i, h =>
      rw [FieldType.encode, FieldType.wire]
      split
      · rfl
      · rw [pbWrite_append]
        exact Option.bind_congr fun s' _ => pbEncVarint_eq h.1 i
  | string =>
    match v, h with
    | .string none, _ => rfl
    | .string (some str), _ =>
      rw [FieldType.encode, FieldType.wire, pbWrite_append]
      exact Option.bind_congr fun s' _ => (pbWrite_append _ _ s').symm
  | message fields ih =>
    match v, h with
    | .message has values, h =>
      rw [FieldType.encode, FieldType.wire]
      split
      · rw [pbWrite_append]
        refine Option.bind_congr fun s' _ => pbEncodeSubmessage_eq (fun s => ?_) s'
        exact pbEncode_of_fields (fun f hf v s => ih f hf f.tag v s) h s
      · rfl

/-- A structure is encoded into the bytes of its message, whatever the stream. -/
theorem pbEncode_eq (hold : Hold fields values) (s : OStream) :
    pbEncode fields values s = pbWrite (wire fields values) s :=
  pbEncode_of_fields (fun f _ v s => f.type.encode_eq f.tag v s) hold s

theorem pbGetEncodedSize_eq (hold : Hold fields values) :
    pbGetEncodedSize fields values = some (wire fields values).length := by
  rw [pbGetEncodedSize, pbEncode_eq hold, pbWrite_sizing rfl]
  exact congrArg some (Nat.zero_add _)

/-- The size that is counted is the size that is needed: a buffer of that size or more gets the bytes,
and a smaller one is refused. -/
theorem pbEncode_fromBuffer (hold : Hold fields values) (bufsize : Nat) :
    pbEncode fields values (pbOstreamFromBuffer bufsize) =
      if bufsize < (wire fields values).length then none
      else some ⟨true, bufsize, (wire fields values).length, wire fields values⟩ := by
  rw [pbEncode_eq hold, pbOstreamFromBuffer, pbWrite_buffer rfl (Nat.zero_le _)]
  simp only [Nat.zero_add, List.nil_append]

/-- `pb_get_encoded_size` is the size of the smallest buffer that `pb_encode` accepts, for any
structure, and every larger buffer gets the same bytes. -/
theorem pbGetEncodedSize_exact (hold : Hold fields values) :
    ∃ out, pbGetEncodedSize fields values = some out.length ∧ ∀ bufsize,
      pbEncode fields values (pbOstreamFromBuffer bufsize) =
        if bufsize < out.length then none else some ⟨true, bufsize, out.length, out⟩ :=
  ⟨wire fields values, pbGetEncodedSize_eq hold, pbEncode_fromBuffer hold⟩

end

/-- A message with a message in it. -/
theorem pbGetEncodedSize_exact_nested :
    ∃ out, pbGetEncodedSize [⟨1, .bool⟩, ⟨4, .message [⟨1, .string⟩]⟩]
        [.bool true, .message true [.string (some [107])]] = some out.length ∧ ∀ bufsize,
      pbEncode [⟨1, .bool⟩, ⟨4, .message [⟨1, .string⟩]⟩]
          [.bool true, .message true [.string (some [107])]] (pbOstreamFromBuffer bufsize) =
        if bufsize < out.length then none else some ⟨true, bufsize, out.length, out⟩ :=
  pbGetEncodedSize_exact ⟨trivial, ⟨trivial, trivial⟩, trivial⟩

end AppXd.Nanopb
