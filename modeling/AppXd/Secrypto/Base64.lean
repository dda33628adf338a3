import AppXd.Lib.HeldText
import AppXd.Lib.CArray
import Mathlib.Tactic.IntervalCases

/-!
# Base64

`base64_encode` turns three bytes into four characters, a rest of one or two bytes into characters
and padding. `base64_decode` reads four characters at once and looks for the terminator only in
front of them. A string lies in a flat memory, what stands behind its terminator is arbitrary.
-/

namespace AppXd.Secrypto

open CStr (ascii Holds)

def base64char : List UInt8 :=
  ascii "ABCDEFGHIJKLMNOPQRSTUVWXYZabcdefghijklmnopqrstuvwxyz0123456789+/"

/-! ## The encoder -/

/-- `base64char[(int)current]`. -/
def base64Digit (current : UInt8) : UInt8 := base64char.getD current.toNat 0

/-- The characters of the encoder's string, without its terminator. -/
def base64Text : List UInt8 → List UInt8
  | [] => []
  | [a] =>
    [base64Digit (a >>> 2 &&& (0x3F : UInt8)), base64Digit (a <<< 4 &&& (0x30 : UInt8)), 61, 61]
  | [a, b] =>
    [base64Digit (a >>> 2 &&& (0x3F : UInt8)),
      base64Digit (a <<< 4 &&& (0x30 : UInt8) ||| b >>> 4 &&& (0x0F : UInt8)),
      base64Digit (b <<< 2 &&& (0x3C : UInt8)), 61]
  | a :: b :: c :: bindata =>
    base64Digit (a >>> 2 &&& (0x3F : UInt8)) ::
      base64Digit (a <<< 4 &&& (0x30 : UInt8) ||| b >>> 4 &&& (0x0F : UInt8)) ::
      base64Digit (b <<< 2 &&& (0x3C : UInt8) ||| c >>> 6 &&& (0x03 : UInt8)) ::
      base64Digit (c &&& (0x3F : UInt8)) :: base64Text bindata

/-- `base64_encode`: the memory that `base64` points to. -/
def base64Encode (bindata : List UInt8) (base64 : Nat → UInt8) : Nat → UInt8 :=
  Ring.blit base64 0 (base64Text bindata ++ [0])

/-! ## The decoder -/

/-- The loop that looks a character up. The value 0xFF of one that is none stays. -/
def base64Value (b : UInt8) : UInt8 :=
  (List.range 64).foldl (fun temp k => if base64char.getD k 0 = b then k.toUInt8 else temp) 0xFF

/-- The memory that `bindata` points to, the number of bytes written there, which is returned, and
one past the last byte of the string that has been read. -/
structure Base64Decoded where
  bindata : Nat → UInt8
  j : Nat
  readEnd : Nat

/-- The body of the loop: the bytes that it writes, and whether it ends the loop. -/
def base64Group (base64 : Nat → UInt8) (i : Nat) : List UInt8 × Bool :=
  let temp k := base64Value (base64 (i + k))
  let first := temp 0 <<< 2 &&& (0xFC : UInt8) ||| temp 1 >>> 4 &&& (0x03 : UInt8)
  let second := temp 1 <<< 4 &&& (0xF0 : UInt8) ||| temp 2 >>> 2 &&& (0x0F : UInt8)
  let third := temp 2 <<< 6 &&& (0xF0 : UInt8) ||| temp 3 &&& (0x3F : UInt8)
  if base64 (i + 2) = 61 then ([first], true)
  else if base64 (i + 3) = 61 then ([first, second], true)
  else ([first, second, third], false)

def base64DecodeLoop (base64 : Nat → UInt8) :
    Nat → Nat → Nat → (Nat → UInt8) → Option Base64Decoded
  | 0, _, _, _ => none
  | n + 1, i, j, bindata =>
    if base64 i = 0 then some ⟨bindata, j, i + 1⟩
    else
      match base64Group base64 i with
      | (bs, true) => some ⟨Ring.blit bindata j bs, j + bs.length, i + 4⟩
      | (bs, false) => base64DecodeLoop base64 n (i + 4) (j + bs.length) (Ring.blit bindata j bs)

/-- `base64_decode`, in at most `n` rounds. -/
def base64Decode (n : Nat) (base64 bindata : Nat → UInt8) : Option Base64Decoded :=
  base64DecodeLoop base64 n 0 0 bindata

/-! ## Digits -/

theorem base64Value_digit : ∀ n < 64, base64Value (base64char.getD n 0) = n.toUInt8 := by
  decide +kernel

theorem base64char_length : base64char.length = 64 := by decide +kernel

section
variable {x : UInt8}

/-- The decoder finds the digit that the encoder has written. -/
theorem base64Value_base64Digit (h : x < 64) : base64Value (base64Digit x) = x := by
  have hlt : x.toNat < 64 := UInt8.lt_iff_toNat_lt.1 h
  refine (base64Value_digit _ hlt).trans ?_
  exact UInt8.ofNat_toNat

/-- A digit is neither padding nor a terminator. -/
theorem base64Digit_ne (h : x < 64) : base64Digit x ≠ 61 ∧ base64Digit x ≠ 0 := by
  have hlt : x.toNat < base64char.length := by
    rw [base64char_length]
    exact UInt8.lt_iff_toNat_lt.1 h
  have hmem : base64Digit x ∈ base64char := by
    unfold base64Digit
    rw [List.getD_eq_getElem _ _ hlt]
    exact List.getElem_mem hlt
  have h61 : 61 ∉ base64char := by decide
  have h0 : 0 ∉ base64char := by decide
  exact ⟨fun h => h61 (h ▸ hmem), fun h => h0 (h ▸ hmem)⟩

theorem and_lt_64 (x : UInt8) {m : UInt8} (hm : m < 64) : x &&& m < 64 := by
  rw [UInt8.lt_iff_toNat_lt] at hm ⊢
  rw [UInt8.toNat_and]
  exact Nat.lt_of_le_of_lt Nat.and_le_right hm

theorem or_lt_64 {y : UInt8} (hx : x < 64) (hy : y < 64) : x ||| y < 64 := by
  rw [UInt8.lt_iff_toNat_lt] at hx hy ⊢
  rw [UInt8.toNat_or]
  exact Nat.or_lt_two_pow (n := 6) hx hy

end

/-! ## Bits -/

/-- Two bytes with the same eight bits are the same. -/
theorem eq_of_bits {x y : UInt8} (h : ∀ i < 8, x.toBitVec.getLsbD i = y.toBitVec.getLsbD i) :
    x = y :=
  UInt8.eq_of_toBitVec_eq (BitVec.eq_of_getLsbD_eq h)

theorem firstByte (a x : UInt8) :
    (a >>> 2 &&& (0x3F : UInt8)) <<< 2 &&& (0xFC : UInt8) |||
      (a <<< 4 &&& (0x30 : UInt8) ||| x &&& (0x0F : UInt8)) >>> 4 &&& (0x03 : UInt8) = a := by
  refine eq_of_bits fun i hi => ?_
  interval_cases i <;> simp

theorem secondByte (a b x : UInt8) :
    (a <<< 4 &&& (0x30 : UInt8) ||| b >>> 4 &&& (0x0F : UInt8)) <<< 4 &&& (0xF0 : UInt8) |||
      (b <<< 2 &&& (0x3C : UInt8) ||| x &&& (0x03 : UInt8)) >>> 2 &&& (0x0F : UInt8) = b := by
  refine eq_of_bits fun i hi => ?_
  interval_cases i <;> simp

theorem thirdByte (b c : UInt8) :
    (b <<< 2 &&& (0x3C : UInt8) ||| c >>> 6 &&& (0x03 : UInt8)) <<< 6 &&& (0xF0 : UInt8) |||
      c &&& (0x3F : UInt8) &&& (0x3F : UInt8) = c := by
  refine eq_of_bits fun i hi => ?_
  interval_cases i <;> simp

/-! ## The round trip -/

section
variable {base64 bindata : Nat → UInt8} {ram n i j : Nat} {a b c : UInt8} {s : List UInt8}

/-- What the body of the loop does with four characters. -/
theorem base64Group_eq {w x y z : UInt8} (h : Holds base64 ram i (w :: x :: y :: z :: s)) :
    base64Group base64 i =
      if y = 61 then
        ([base64Value w <<< 2 &&& (0xFC : UInt8) ||| base64Value x >>> 4 &&& (0x03 : UInt8)], true)
      else if z = 61 then
        ([base64Value w <<< 2 &&& (0xFC : UInt8) ||| base64Value x >>> 4 &&& (0x03 : UInt8),
          base64Value x <<< 4 &&& (0xF0 : UInt8) ||| base64Value y >>> 2 &&& (0x0F : UInt8)], true)
      else
        ([base64Value w <<< 2 &&& (0xFC : UInt8) ||| base64Value x >>> 4 &&& (0x03 : UInt8),
          base64Value x <<< 4 &&& (0xF0 : UInt8) ||| base64Value y >>> 2 &&& (0x0F : UInt8),
          base64Value y <<< 6 &&& (0xF0 : UInt8) ||| base64Value z &&& (0x3F : UInt8)], false) := by
  have h0 : base64 (i + 0) = w := h.cell 0 (by simp)
  have h1 : base64 (i + 1) = x := h.cell 1 (by simp)
  have h2 : base64 (i + 2) = y := h.cell 2 (by simp)
  have h3 : base64 (i + 3) = z := h.cell 3 (by simp)
  unfold base64Group
  simp only [h0, h1, h2, h3]

theorem base64Text_noNul (l : List UInt8) : 0 ∉ base64Text l := by
  have hdigit : ∀ {x : UInt8}, x < 64 → (0 : UInt8) ≠ base64Digit x := fun h =>
    (base64Digit_ne h).2.symm
  have h61 : (0 : UInt8) ≠ 61 := by decide
  induction l using base64Text.induct with
  | case1 => exact List.not_mem_nil
  | case2 a =>
    simp only [base64Text, List.mem_cons, List.not_mem_nil, or_false, not_or]
    exact ⟨hdigit (and_lt_64 _ (by decide)), hdigit (and_lt_64 _ (by decide)), h61, h61⟩
  | case3 a b =>
    simp only [base64Text, List.mem_cons, List.not_mem_nil, or_false, not_or]
    exact ⟨hdigit (and_lt_64 _ (by decide)),
      hdigit (or_lt_64 (and_lt_64 _ (by decide)) (and_lt_64 _ (by decide))),
      hdigit (and_lt_64 _ (by decide)), h61⟩
  | case4 a b c l ih =>
    simp only [base64Text, List.mem_cons, not_or]
    exact ⟨hdigit (and_lt_64 _ (by decide)),
      hdigit (or_lt_64 (and_lt_64 _ (by decide)) (and_lt_64 _ (by decide))),
      hdigit (or_lt_64 (and_lt_64 _ (by decide)) (and_lt_64 _ (by decide))),
      hdigit (and_lt_64 _ (by decide)), ih⟩

/-- A round that ends the loop. -/
theorem base64DecodeLoop_last {bs : List UInt8} (h0 : base64 i ≠ 0)
    (h : base64Group base64 i = (bs, true)) :
    base64DecodeLoop base64 (n + 1) i j bindata =
      some ⟨Ring.blit bindata j bs, j + bs.length, i + 4⟩ := by
  rw [base64DecodeLoop, if_neg h0, h]

/-- A round that goes on. -/
theorem base64DecodeLoop_next {bs : List UInt8} (h0 : base64 i ≠ 0)
    (h : base64Group base64 i = (bs, false)) :
    base64DecodeLoop base64 (n + 1) i j bindata =
      base64DecodeLoop base64 n (i + 4) (j + bs.length) (Ring.blit bindata j bs) := by
  rw [base64DecodeLoop, if_neg h0, h]

theorem holds_next {w x y z : UInt8} (h : Holds base64 ram i (w :: x :: y :: z :: s)) :
    Holds base64 ram (i + 4) s := h.drop (k := 4) (by simp)

/-- The decoder writes what has been encoded. -/
theorem base64DecodeLoop_base64Text {l : List UInt8} (bindata : Nat → UInt8)
    (h : Holds base64 ram i (base64Text l)) : ∃ n e, base64DecodeLoop base64 n i j bindata =
      some ⟨Ring.blit bindata j l, j + l.length, e⟩ := by
  induction l using base64Text.induct generalizing i j bindata with
  | case1 =>
    have hstop : base64 i = 0 := h.stop
    refine ⟨1, i + 1, ?_⟩
    rw [base64DecodeLoop, if_pos hstop, Ring.blit_nil]
    rfl
  | case2 a =>
    have hbyte := firstByte a 0
    rw [UInt8.zero_and, UInt8.or_zero] at hbyte
    refine ⟨1, i + 4, base64DecodeLoop_last h.ne_zero ?_⟩
    rw [base64Group_eq h, if_pos rfl, base64Value_base64Digit (and_lt_64 _ (by decide)),
      base64Value_base64Digit (and_lt_64 _ (by decide)), hbyte]
  | case3 a b =>
    have hbyte := secondByte a b 0
    rw [UInt8.zero_and, UInt8.or_zero] at hbyte
    have hthird := base64Digit_ne (and_lt_64 (b <<< 2) (m := 0x3C) (by decide))
    refine ⟨1, i + 4, base64DecodeLoop_last h.ne_zero ?_⟩
    rw [base64Group_eq h, if_neg hthird.1, if_pos rfl,
      base64Value_base64Digit (and_lt_64 _ (by decide)),
      base64Value_base64Digit (or_lt_64 (and_lt_64 _ (by decide)) (and_lt_64 _ (by decide))),
      base64Value_base64Digit (and_lt_64 _ (by decide)), firstByte, hbyte]
  | case4 a b c l ih =>
    obtain ⟨n, e, hrest⟩ := ih (j := j + [a, b, c].length) (Ring.blit bindata j [a, b, c])
      (holds_next h)
    have hsecond : b <<< 2 &&& (0x3C : UInt8) ||| c >>> 6 &&& (0x03 : UInt8) < 64 :=
      or_lt_64 (and_lt_64 _ (by decide)) (and_lt_64 _ (by decide))
    have hthird : c &&& (0x3F : UInt8) < 64 := and_lt_64 _ (by decide)
    have hgroup : base64Group base64 i = ([a, b, c], false) := by
      rw [base64Group_eq h, if_neg (base64Digit_ne hsecond).1, if_neg (base64Digit_ne hthird).1,
        base64Value_base64Digit (and_lt_64 _ (by decide)),
        base64Value_base64Digit (or_lt_64 (and_lt_64 _ (by decide)) (and_lt_64 _ (by decide))),
        base64Value_base64Digit hsecond, base64Value_base64Digit hthird, firstByte, secondByte,
        thirdByte]
    refine ⟨n + 1, e, ?_⟩
    rw [base64DecodeLoop_next h.ne_zero hgroup, hrest, ← Ring.blit_append]
    simp [Nat.add_assoc, Nat.add_comm 3]

end

/-- What is encoded is decoded again. -/
theorem base64Decode_base64Encode (b : List UInt8) (base64 bindata : Nat → UInt8) :
    ∃ n d, base64Decode n (base64Encode b base64) bindata = some d ∧ d.j = b.length ∧
      d.bindata = Ring.blit bindata 0 b := by
  have hheld : Holds (base64Encode b base64) _ 0 (base64Text b) :=
    .blit base64 0 (base64Text_noNul b)
  obtain ⟨n, e, hrun⟩ := base64DecodeLoop_base64Text (j := 0) bindata hheld
  exact ⟨n, _, hrun, Nat.zero_add _, rfl⟩

/-! ## How far the decoder reads -/

/-- A whole number of groups, or padding in the third or fourth place of one. -/
def StopsInside (s : List UInt8) : Prop :=
  4 ∣ s.length ∨ ∃ q < s.length, 2 ≤ q % 4 ∧ s[q]? = some 61

/-- The call returns, has read no byte behind the terminator, and has written at most three bytes
for each four of the string, rounded up. -/
def ReadsInside (s : List UInt8) (base64 bindata : Nat → UInt8) : Prop :=
  ∃ n d, base64Decode n base64 bindata = some d ∧ d.readEnd ≤ s.length + 1 ∧
    d.j ≤ 3 * ((s.length + 3) / 4) ∧ ∀ p, d.j ≤ p → d.bindata p = bindata p

section
variable {base64 bindata : Nat → UInt8} {ram n i j : Nat} {s : List UInt8}

theorem stopsInside_cons {w x y z : UInt8} :
    StopsInside (w :: x :: y :: z :: s) ↔ y = 61 ∨ z = 61 ∨ StopsInside s := by
  unfold StopsInside
  have hlen : (w :: x :: y :: z :: s).length = s.length + 4 := rfl
  rw [hlen]
  constructor
  · rintro (h | ⟨q, hq, hplace, hpad⟩)
    · exact .inr (.inr (.inl ((Nat.dvd_add_left (Nat.dvd_refl 4)).1 h)))
    · match q with
      | 0 => exact absurd hplace (by decide)
      | 1 => exact absurd hplace (by decide)
      | 2 => exact .inl (Option.some.inj hpad)
      | 3 => exact .inr (.inl (Option.some.inj hpad))
      | q + 4 => exact .inr (.inr (.inr ⟨q, by omega, by omega, hpad⟩))
  · rintro (rfl | rfl | h | ⟨q, hq, hplace, hpad⟩)
    · exact .inr ⟨2, by omega, by decide, rfl⟩
    · exact .inr ⟨3, by omega, by decide, rfl⟩
    · exact .inl ((Nat.dvd_add_left (Nat.dvd_refl 4)).2 h)
    · exact .inr ⟨q + 4, by omega, by omega, hpad⟩

theorem not_stopsInside_one {w : UInt8} : ¬ StopsInside [w] := by
  rintro (h | ⟨q, hq, hplace, -⟩)
  · rw [List.length_singleton] at h
    exact absurd h (by decide)
  · rw [List.length_singleton] at hq
    omega

theorem not_stopsInside_two {w x : UInt8} : ¬ StopsInside [w, x] := by
  rintro (h | ⟨q, hq, hplace, -⟩)
  · rw [List.length_cons, List.length_singleton] at h
    exact absurd h (by decide)
  · rw [List.length_cons, List.length_singleton] at hq
    omega

theorem stopsInside_three {w x y : UInt8} : StopsInside [w, x, y] ↔ y = 61 := by
  constructor
  · rintro (h | ⟨q, hq, hplace, hpad⟩)
    · rw [List.length_cons, List.length_cons, List.length_singleton] at h
      exact absurd h (by decide)
    · rw [List.length_cons, List.length_cons, List.length_singleton] at hq
      obtain rfl : q = 2 := by omega
      exact Option.some.inj hpad
  · rintro rfl
    exact .inr ⟨2, Nat.lt_succ_self 2, by decide, rfl⟩

/-- The loop ends in a round exactly when it meets padding. -/
theorem base64Group_snd (base64 : Nat → UInt8) (i : Nat) :
    (base64Group base64 i).2 = true ↔ base64 (i + 2) = 61 ∨ base64 (i + 3) = 61 := by
  unfold base64Group
  simp only
  split
  · rename_i h
    exact iff_of_true rfl (.inl h)
  · rename_i h
    split
    · rename_i h'
      exact iff_of_true rfl (.inr h')
    · rename_i h'
      exact iff_of_false Bool.false_ne_true (not_or.2 ⟨h, h'⟩)

theorem base64Group_length (base64 : Nat → UInt8) (i : Nat) :
    (base64Group base64 i).1.length ≤ 3 := by
  unfold base64Group
  simp only
  split
  · exact Nat.le_add_left 1 2
  split
  · exact Nat.le_succ 2
  · exact Nat.le_refl 3

/-- A round, by what it meets. -/
theorem base64DecodeLoop_succ (h0 : base64 i ≠ 0) :
    base64DecodeLoop base64 (n + 1) i j bindata =
      if base64 (i + 2) = 61 ∨ base64 (i + 3) = 61 then
        some ⟨Ring.blit bindata j (base64Group base64 i).1,
          j + (base64Group base64 i).1.length, i + 4⟩
      else base64DecodeLoop base64 n (i + 4) (j + (base64Group base64 i).1.length)
        (Ring.blit bindata j (base64Group base64 i).1) := by
  split
  · rename_i hpad
    exact base64DecodeLoop_last h0 (Prod.ext rfl ((base64Group_snd base64 i).2 hpad))
  · rename_i hpad
    refine base64DecodeLoop_next h0 (Prod.ext rfl (Bool.eq_false_iff.2 fun h => ?_))
    exact hpad ((base64Group_snd base64 i).1 h)

/-- A round reads its four characters. -/
theorem base64DecodeLoop_readEnd {d : Base64Decoded}
    (h : base64DecodeLoop base64 n i j bindata = some d) :
    i + 1 ≤ d.readEnd ∧ (base64 i ≠ 0 → i + 4 ≤ d.readEnd) := by
  induction n generalizing i j bindata with
  | zero => cases h
  | succ n ih =>
    by_cases h0 : base64 i = 0
    · rw [base64DecodeLoop, if_pos h0] at h
      cases h
      exact ⟨Nat.le_refl _, fun hne => absurd h0 hne⟩
    rw [base64DecodeLoop_succ h0] at h
    split at h
    · cases h
      exact ⟨by simp, fun _ => Nat.le_refl _⟩
    · have hle := (ih h).1
      exact ⟨by omega, fun _ => by omega⟩

/-- A string whose groups are whole, or which is padded in time, is left at its terminator. -/
theorem base64DecodeLoop_inside : ∀ {s : List UInt8} {i j : Nat} (bindata : Nat → UInt8),
    Holds base64 ram i s → StopsInside s →
      ∃ n d, base64DecodeLoop base64 n i j bindata = some d ∧ d.readEnd ≤ i + s.length + 1 ∧
        j ≤ d.j ∧ d.j ≤ j + 3 * ((s.length + 3) / 4) ∧ ∀ p, d.j ≤ p → d.bindata p = bindata p
  | [], i, j, bindata, h, _ => by
    have hstop : base64 i = 0 := h.stop
    refine ⟨1, ⟨bindata, j, i + 1⟩, ?_, Nat.le_refl _, Nat.le_refl _, Nat.le_add_right _ _,
      fun _ _ => rfl⟩
    rw [base64DecodeLoop, if_pos hstop]
  | [_], _, _, _, _, hin => absurd hin not_stopsInside_one
  | [_, _], _, _, _, _, hin => absurd hin not_stopsInside_two
  | [w, x, y], i, j, bindata, h, hin => by
    have hpad : base64 (i + 2) = 61 := (h.cell 2 (by simp)).trans (stopsInside_three.1 hin)
    have hbytes := base64Group_length base64 i
    refine ⟨1, _, (base64DecodeLoop_succ h.ne_zero).trans (if_pos (.inl hpad)), Nat.le_refl _,
      Nat.le_add_right _ _, ?_, fun p hp => Ring.blit_of_ge hp⟩
    simpa using hbytes
  | w :: x :: y :: z :: s, i, j, bindata, h, hin => by
    have hy : base64 (i + 2) = y := h.cell 2 (by simp)
    have hz : base64 (i + 3) = z := h.cell 3 (by simp)
    have hbytes := base64Group_length base64 i
    have hlen : (w :: x :: y :: z :: s).length = s.length + 4 := rfl
    rw [hlen]
    by_cases hpad : base64 (i + 2) = 61 ∨ base64 (i + 3) = 61
    · refine ⟨1, _, (base64DecodeLoop_succ h.ne_zero).trans (if_pos hpad), ?_,
        Nat.le_add_right _ _, ?_, fun p hp => Ring.blit_of_ge hp⟩
      · simp only
        omega
      · simp only
        omega
    · obtain hpady | hpadz | hin := stopsInside_cons.1 hin
      · exact absurd (.inl (hy.trans hpady)) hpad
      · exact absurd (.inr (hz.trans hpadz)) hpad
      obtain ⟨n, d, hrun, hread, hj, hj', hrest⟩ := base64DecodeLoop_inside
        (j := j + (base64Group base64 i).1.length)
        (Ring.blit bindata j (base64Group base64 i).1) (holds_next h) hin
      have hround := (base64DecodeLoop_succ h.ne_zero).trans ((if_neg hpad).trans hrun)
      exact ⟨n + 1, d, hround, by omega, by omega, by omega,
        fun p hp => (hrest p hp).trans (Ring.blit_of_ge (by omega))⟩

/-- The terminator of any other string is passed. -/
theorem base64DecodeLoop_outside : ∀ {s : List UInt8} {n i j : Nat} {bindata : Nat → UInt8}
    {d : Base64Decoded}, Holds base64 ram i s → ¬ StopsInside s →
      base64DecodeLoop base64 n i j bindata = some d → i + s.length + 1 < d.readEnd
  | [], _, _, _, _, _, _, hin, _ => absurd (.inl (Nat.dvd_zero 4)) hin
  | [_], _, i, _, _, _, h, _, hrun => by
    have hread := (base64DecodeLoop_readEnd hrun).2 h.ne_zero
    rw [List.length_singleton]
    omega
  | [_, _], _, i, _, _, _, h, _, hrun => by
    have hread := (base64DecodeLoop_readEnd hrun).2 h.ne_zero
    rw [List.length_cons, List.length_singleton]
    omega
  | [w, x, y], 0, _, _, _, _, _, _, hrun => by cases hrun
  | [w, x, y], n + 1, i, j, bindata, d, h, hin, hrun => by
    have hy : base64 (i + 2) = y := h.cell 2 (by simp)
    have hnul : base64 (i + 3) = 0 := h.stop
    -- the group ends with the terminator, so the next one begins behind it
    have hgo : ¬ (base64 (i + 2) = 61 ∨ base64 (i + 3) = 61) := by
      rw [hy, hnul]
      rintro (hpad | hpad)
      · exact hin (stopsInside_three.2 hpad)
      · exact absurd hpad (by decide)
    rw [base64DecodeLoop_succ h.ne_zero, if_neg hgo] at hrun
    have hread := (base64DecodeLoop_readEnd hrun).1
    have hlen : [w, x, y].length = 3 := rfl
    omega
  | w :: x :: y :: z :: s, 0, _, _, _, _, _, _, hrun => by cases hrun
  | w :: x :: y :: z :: s, n + 1, i, j, bindata, d, h, hin, hrun => by
    have hy : base64 (i + 2) = y := h.cell 2 (by simp)
    have hz : base64 (i + 3) = z := h.cell 3 (by simp)
    rw [stopsInside_cons, not_or, not_or] at hin
    have hgo : ¬ (base64 (i + 2) = 61 ∨ base64 (i + 3) = 61) := by
      rw [hy, hz]
      exact not_or.2 ⟨hin.1, hin.2.1⟩
    rw [base64DecodeLoop_succ h.ne_zero, if_neg hgo] at hrun
    have hread := base64DecodeLoop_outside (holds_next h) hin.2.2 hrun
    have hlen : (w :: x :: y :: z :: s).length = s.length + 4 := rfl
    omega

end

/-- The decoder stays in the string exactly when its groups are whole or it is padded in the third
or fourth place of one. -/
theorem readsInside_iff (s : CStr.Text) (behind bindata : Nat → UInt8) :
    ReadsInside s.chars (Ring.blit behind 0 (s.chars ++ [0])) bindata ↔ StopsInside s.chars := by
  have hheld := Holds.blit behind 0 s.noNul
  constructor
  · rintro ⟨n, d, hrun, hread, -⟩
    by_contra hin
    have hpast := base64DecodeLoop_outside hheld hin hrun
    omega
  · intro hin
    obtain ⟨n, d, hrun, hread, -, hj, hrest⟩ :=
      base64DecodeLoop_inside (j := 0) bindata hheld hin
    exact ⟨n, d, hrun, by omega, by omega, hrest⟩

/-- The one character `A` is read as a group of four. -/
theorem not_readsInside : ¬ ∀ (s : CStr.Text) (behind bindata : Nat → UInt8),
    ReadsInside s.chars (Ring.blit behind 0 (s.chars ++ [0])) bindata := by
  intro h
  obtain ⟨n, d, hrun, hread, -⟩ := h ⟨[65], by decide⟩ (fun _ => 0) (fun _ => 0)
  have hne : Ring.blit (fun _ => (0 : UInt8)) 0 ([65] ++ [0]) 0 ≠ 0 := by decide
  have hpast := (base64DecodeLoop_readEnd hrun).2 hne
  exact absurd (hpast.trans hread) (by decide)

end AppXd.Secrypto
