import AppXd.Lib.Search
import AppXd.Lib.Ring

/-!
# Strings of the C library

Two kinds of memory hold strings. `text data ram p` is the NUL-terminated string that begins at
the cell `p` of a flat memory whose readable cells end before `ram`; a string without terminator
ends there. A buffer of its own is a list of bytes, what lies behind it reads as NUL.

`strstr`, `strtok`, `strtol` and `atoi` follow the C library, where a `long` and an `int` have 32
bits. `textEnd` and `strstrEnd` say how far a call reads: one past the last cell.
-/

namespace CStr

/-- The bytes of an ASCII literal. -/
def ascii (s : String) : List UInt8 := s.toList.map fun c => c.toNat.toUInt8

/-! ## Strings in a flat memory -/

section
variable (data : Nat → UInt8) (ram : Nat)

/-- The string at `p`, without its terminator. -/
def text (p : Nat) : List UInt8 := (Ring.cells data p ram).takeWhile (· ≠ 0)

/-- One past the last cell read by a scan of the string at `p` up to its terminator. -/
def textEnd (p : Nat) : Nat := p + (text data ram p).length + 1

/-- The cell where `key` first occurs in the string at `p`. -/
def strstr (p : Nat) (key : List UInt8) : Option Nat :=
  (Seq.firstAt key (text data ram p)).map (p + ·)

/-- One past the last cell that `strstr` reads. -/
def strstrEnd (p : Nat) (key : List UInt8) : Nat :=
  match strstr data ram p key with
  | some q => q + key.length
  | none => textEnd data ram p

end

theorem length_takeWhile_le {α : Type*} (p : α → Bool) (l : List α) :
    (l.takeWhile p).length ≤ l.length := (List.takeWhile_sublist p).length_le

/-- A string stops at the first NUL. -/
theorem text_length_le {data : Nat → UInt8} {ram p z : Nat} (hz : data z = 0) (hpz : p ≤ z) :
    (text data ram p).length ≤ z - p := by
  rcases Nat.lt_or_ge z ram with hr | hr
  · have hsplit := Ring.cells_append data (a := p) (b := z) (c := ram) hpz hr.le
    have hrest : Ring.cells data z ram = 0 :: Ring.cells data (z + 1) ram := by
      have h1 := Ring.cells_append data (a := z) (b := z + 1) (c := ram) (by omega) (by omega)
      rw [← h1]; simp [Ring.cells, hz]
    unfold text
    rw [← hsplit, hrest, List.takeWhile_append]
    split
    · simp
    · exact (length_takeWhile_le _ _).trans (by simp)
  · have := length_takeWhile_le (· ≠ 0) (Ring.cells data p ram)
    unfold text
    rw [Ring.length_cells] at this
    omega

theorem textEnd_le {data : Nat → UInt8} {ram p z : Nat} (hz : data z = 0) (hpz : p ≤ z) :
    textEnd data ram p ≤ z + 1 := by
  have h : (text data ram p).length ≤ z - p := text_length_le hz hpz
  unfold textEnd; omega

theorem strstr_le_textEnd {data : Nat → UInt8} {ram p q : Nat} {key : List UInt8} (hk : key ≠ [])
    (h : strstr data ram p key = some q) : p ≤ q ∧ q + key.length + 1 ≤ textEnd data ram p := by
  unfold strstr at h
  rw [Option.map_eq_some_iff] at h
  obtain ⟨k, hk', rfl⟩ := h
  have := Seq.firstAt_le_length hk' hk
  unfold textEnd
  omega

theorem strstrEnd_le_textEnd (data : Nat → UInt8) (ram p : Nat) {key : List UInt8}
    (hk : key ≠ []) : strstrEnd data ram p key ≤ textEnd data ram p := by
  unfold strstrEnd
  split
  · rename_i q h
    have := strstr_le_textEnd hk h
    omega
  · exact Nat.le_refl _

/-- A scan stops at the next NUL. -/
theorem strstrEnd_le {data : Nat → UInt8} {p z : Nat} (ram : Nat) {key : List UInt8}
    (hk : key ≠ []) (hz : data z = 0) (hpz : p ≤ z) : strstrEnd data ram p key ≤ z + 1 :=
  (strstrEnd_le_textEnd data ram p hk).trans (textEnd_le hz hpz)

/-- What is found stands before the next NUL. -/
theorem strstr_le {data : Nat → UInt8} {ram p q z : Nat} {key : List UInt8} (hk : key ≠ [])
    (h : strstr data ram p key = some q) (hz : data z = 0) (hpz : p ≤ z) :
    p ≤ q ∧ q + key.length ≤ z := by
  obtain ⟨h1, h2⟩ := strstr_le_textEnd hk h
  have h3 : textEnd data ram p ≤ z + 1 := textEnd_le hz hpz
  exact ⟨h1, by omega⟩

/-- Nothing is found in an empty string. -/
theorem strstr_of_nul {data : Nat → UInt8} {ram p : Nat} {key : List UInt8} (hk : key ≠ [])
    (hz : data p = 0) : strstr data ram p key = none := by
  cases h : strstr data ram p key with
  | none => rfl
  | some q =>
    have := strstr_le hk h hz (Nat.le_refl p)
    have := List.length_pos_of_ne_nil hk
    omega

/-! ## Buffers -/

/-- The string at position `p` of a buffer. -/
def textAt (buf : List UInt8) (p : Nat) : List UInt8 := (buf.drop p).takeWhile (· ≠ 0)

theorem zero_notMem_textAt (buf : List UInt8) (p : Nat) : 0 ∉ textAt buf p := by
  intro h
  have hne := List.all_eq_true.1 (List.all_takeWhile (p := fun b : UInt8 => b ≠ 0)) 0 h
  exact of_decide_eq_true hne rfl

/-- One call of `strtok` with the delimiter `d`, going on at `pos`: where the token begins, if
there is one, the buffer with the token terminated, and where the next call goes on. -/
def strtok (d : UInt8) (buf : List UInt8) (pos : Nat) : Option Nat × List UInt8 × Nat :=
  let start := pos + ((buf.drop pos).takeWhile (· = d)).length
  let tok := (buf.drop start).takeWhile fun b => b ≠ d ∧ b ≠ 0
  if tok = [] then (none, buf, start)
  else if buf.getD (start + tok.length) 0 = 0 then (some start, buf, start + tok.length)
  else (some start, buf.set (start + tok.length) 0, start + tok.length + 1)

section
variable {d : UInt8} {a s t : List UInt8}

theorem takeWhile_append_stop {α : Type*} {p : α → Bool} {s t : List α} {x : α}
    (hs : ∀ b ∈ s, p b = true) (hx : p x = false) : (s ++ x :: t).takeWhile p = s := by
  induction s with
  | nil => simp [hx]
  | cons b s ih =>
    rw [List.cons_append, List.takeWhile_cons, if_pos (hs b List.mem_cons_self),
      ih fun b' hb => hs b' (List.mem_cons_of_mem _ hb)]

/-- The string that begins behind the part `a` of a buffer. -/
theorem textAt_append (h : 0 ∉ s) : textAt (a ++ (s ++ 0 :: t)) a.length = s := by
  rw [textAt, List.drop_left]
  exact takeWhile_append_stop (fun b hb => decide_eq_true fun h0 => h (h0 ▸ hb)) (by simp)

/-- Where a token is terminated by `e`, the call returns its beginning. -/
theorem strtok_token {e : UInt8} (he : e = d ∨ e = 0) (hne : s ≠ []) (hd : d ∉ s) (h0 : 0 ∉ s) :
    strtok d (a ++ (s ++ e :: t)) a.length =
      if e = 0 then (some a.length, a ++ (s ++ e :: t), a.length + s.length)
      else (some a.length, a ++ (s ++ 0 :: t), a.length + s.length + 1) := by
  have hskip : (s ++ e :: t).takeWhile (· = d) = [] := by
    cases s with
    | nil => exact absurd rfl hne
    | cons b s =>
      rw [List.cons_append, List.takeWhile_cons, if_neg]
      intro hb
      exact hd (of_decide_eq_true hb ▸ List.mem_cons_self)
  have htok : (s ++ e :: t).takeWhile (fun b => b ≠ d ∧ b ≠ 0) = s := by
    refine takeWhile_append_stop (fun b hb => decide_eq_true ⟨?_, ?_⟩) ?_
    · rintro rfl
      exact hd hb
    · rintro rfl
      exact h0 hb
    · rcases he with rfl | rfl <;> simp
  have hget : (a ++ (s ++ e :: t)).getD (a.length + s.length) 0 = e := by
    rw [← List.append_assoc, List.getD_eq_getElem?_getD, ← List.length_append,
      List.getElem?_append_right (Nat.le_refl _), Nat.sub_self]
    rfl
  have hset : (a ++ (s ++ e :: t)).set (a.length + s.length) 0 = a ++ (s ++ 0 :: t) := by
    rw [List.set_append_right _ _ (Nat.le_add_right _ _), Nat.add_sub_cancel_left,
      List.set_append_right _ _ (Nat.le_refl _), Nat.sub_self, List.set_cons_zero]
  unfold strtok
  simp only [List.drop_left, hskip, List.length_nil, Nat.add_zero, htok, if_neg hne, hget, hset]

/-- A scan from `pos` on that stops at a NUL does not pass the cell `z` that holds one. -/
theorem length_takeWhile_drop_le {buf : List UInt8} {pos z : Nat} {p : UInt8 → Bool}
    (hp : p 0 = false) (hpz : pos ≤ z) (hz : buf.getD z 0 = 0) :
    ((buf.drop pos).takeWhile p).length ≤ z - pos := by
  rcases Nat.lt_or_ge z buf.length with hlt | hge
  · have hsplit : buf.drop pos = (buf.drop pos).take (z - pos) ++ 0 :: buf.drop (z + 1) := by
      rw [List.getD_eq_getElem?_getD, List.getElem?_eq_getElem hlt, Option.getD_some] at hz
      have hcons := List.drop_eq_getElem_cons hlt
      rw [hz] at hcons
      rw [← hcons, show buf.drop z = (buf.drop pos).drop (z - pos) by
        rw [List.drop_drop, Nat.add_sub_cancel' hpz], List.take_append_drop]
    rw [hsplit, List.takeWhile_append]
    split
    · rw [List.takeWhile_cons, hp]
      simp only [Bool.false_eq_true, if_false, List.append_nil]
      exact List.length_take_le _ _
    · exact (length_takeWhile_le _ _).trans (List.length_take_le _ _)
  · refine (length_takeWhile_le _ _).trans ?_
    rw [List.length_drop]
    exact Nat.sub_le_sub_right hge pos

/-- No token is found at the end of a string. -/
theorem strtok_nul {buf : List UInt8} {pos : Nat} (hd0 : d ≠ 0) (h : buf.getD pos 0 = 0) :
    strtok d buf pos = (none, buf, pos) := by
  have hnil : ∀ p : UInt8 → Bool, p 0 = false → (buf.drop pos).takeWhile p = [] := fun p hp => by
    have hle := length_takeWhile_drop_le hp (Nat.le_refl pos) h
    rw [Nat.sub_self] at hle
    exact List.length_eq_zero_iff.1 (Nat.le_zero.1 hle)
  unfold strtok
  rw [hnil _ (decide_eq_false fun h => hd0 h.symm)]
  simp only [List.length_nil, Nat.add_zero]
  rw [hnil _ (by simp), if_pos rfl]

/-- A call that returns a token goes on behind it, and stays in the string. -/
theorem strtok_frame {buf buf' : List UInt8} {pos pos' z t : Nat} (hd0 : d ≠ 0)
    (hz : buf.getD z 0 = 0) (hpz : pos ≤ z) (h : strtok d buf pos = (some t, buf', pos')) :
    pos < pos' ∧ pos' ≤ z ∧ buf'.getD z 0 = 0 := by
  unfold strtok at h
  simp only at h
  have hskip : pos + ((buf.drop pos).takeWhile (· = d)).length ≤ z := by
    have := length_takeWhile_drop_le (p := fun b => b = d) (decide_eq_false fun h => hd0 h.symm)
      hpz hz
    omega
  have htok : ∀ start ≤ z, start +
      ((buf.drop start).takeWhile fun b => b ≠ d ∧ b ≠ 0).length ≤ z := fun start hs => by
    have := length_takeWhile_drop_le (p := fun b => b ≠ d ∧ b ≠ 0) (by simp) hs hz
    omega
  have hend := htok _ hskip
  generalize ((buf.drop pos).takeWhile (· = d)).length = k at h hskip hend
  generalize (buf.drop (pos + k)).takeWhile (fun b => b ≠ d ∧ b ≠ 0) = tok at h hend
  split at h
  · cases h
  · rename_i hne
    have hpos := List.length_pos_of_ne_nil hne
    split at h
    · cases h
      exact ⟨by omega, hend, hz⟩
    · rename_i hget
      cases h
      have hne' : pos + k + tok.length ≠ z := by
        rintro rfl
        exact hget hz
      refine ⟨by omega, by omega, ?_⟩
      rw [List.getD_eq_getElem?_getD, List.getElem?_set_ne hne', ← List.getD_eq_getElem?_getD]
      exact hz

end

/-- Write `bs` over the front of a buffer of zeros of the given size. A copy longer than the
buffer shows in the length of the result. -/
def copyInto (size : Nat) (bs : List UInt8) : List UInt8 := bs ++ List.replicate (size - bs.length) 0

theorem take_copyInto (size : Nat) (bs : List UInt8) : (copyInto size bs).take bs.length = bs := by
  simp [copyInto]

theorem length_copyInto {size : Nat} {bs : List UInt8} (h : bs.length ≤ size) :
    (copyInto size bs).length = size := by
  simp [copyInto]; omega

/-! ## Numbers -/

def isSpace (b : UInt8) : Bool := b = 32 ∨ 9 ≤ b ∧ b ≤ 13

/-- The value of a digit in a base up to 16. -/
def digitVal (b : UInt8) : Nat :=
  if 48 ≤ b ∧ b ≤ 57 then b.toNat - 48
  else if 97 ≤ b ∧ b ≤ 102 then b.toNat - 87
  else if 65 ≤ b ∧ b ≤ 70 then b.toNat - 55
  else 16

/-- The value of the digits at the front of a string. -/
def digits (base : Nat) (s : List UInt8) : Nat :=
  (s.takeWhile fun b => digitVal b < base).foldl (fun v b => v * base + digitVal b) 0

/-- The number that a text begins with, for the bases 10 and 16. -/
def number (base : Nat) (s : List UInt8) : Int :=
  let s := s.dropWhile isSpace
  let neg := s.head? = some 45
  let s := if s.head? = some 45 ∨ s.head? = some 43 then s.drop 1 else s
  let s := if base = 16 ∧ s.head? = some 48 ∧ (s[1]? = some 120 ∨ s[1]? = some 88) ∧
      (∃ b ∈ s[2]?, digitVal b < 16) then s.drop 2 else s
  if neg then -(digits base s : Int) else digits base s

/-- `strtol` without its end pointer. A number beyond the range gives `LONG_MAX` or `LONG_MIN`. -/
def strtol (base : Nat) (s : List UInt8) : Int :=
  max (-2147483648) (min 2147483647 (number base s))

/-- `atoi` is `strtol` to the base 10. -/
def atoi (s : List UInt8) : Int := strtol 10 s

/-- The number is in the range of `long`. -/
def InRange (base : Nat) (s : List UInt8) : Prop :=
  -2147483648 ≤ number base s ∧ number base s ≤ 2147483647

theorem strtol_eq_number_iff {base : Nat} {s : List UInt8} :
    strtol base s = number base s ↔ InRange base s := by
  unfold strtol InRange
  omega

/-- The number of a decimal text. -/
theorem number_decimal {e : List UInt8} (h : ∀ b ∈ e, 48 ≤ b ∧ b ≤ 57) :
    number 10 e = digits 10 e := by
  cases e with
  | nil => rfl
  | cons b e =>
    have hb := (h b List.mem_cons_self).1
    rw [UInt8.le_iff_toNat_le] at hb
    have hne : ∀ n : UInt8, n.toNat < 48 → b ≠ n := by
      rintro n hn rfl
      exact absurd hb (Nat.not_le.2 hn)
    have hspace : isSpace b = false := by
      have h13 : ¬ b ≤ 13 := by
        rw [UInt8.le_iff_toNat_le]
        simp only [UInt8.reduceToNat] at hb ⊢
        omega
      unfold isSpace
      simp [hne 32 (by decide), h13]
    have hhead : (b :: e).head? ≠ some 45 ∧ (b :: e).head? ≠ some 43 :=
      ⟨fun h => hne 45 (by decide) (Option.some.inj h),
        fun h => hne 43 (by decide) (Option.some.inj h)⟩
    unfold number
    simp only [List.dropWhile_cons_of_neg (p := isSpace) (by rw [hspace]; decide), hhead,
      or_self, if_false, show ¬ (10 : Nat) = 16 by decide, false_and]

/-- `atoi` reads the number of a decimal text exactly when an `int` takes it. -/
theorem atoi_decimal_iff {e : List UInt8} (h : ∀ b ∈ e, 48 ≤ b ∧ b ≤ 57) :
    atoi e = digits 10 e ↔ digits 10 e ≤ 2147483647 := by
  rw [← number_decimal h]
  refine strtol_eq_number_iff.trans ?_
  unfold InRange
  rw [number_decimal h]
  omega

example : atoi (ascii " 42,7") = 42 ∧ atoi (ascii "-99999999999") = -2147483648 := by decide

end CStr
