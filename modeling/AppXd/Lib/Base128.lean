import Mathlib

/-!
# Numbers to the base 128

A number goes as bytes of seven bits each, the lowest first. Every byte but the last has its high bit
set.
-/

namespace Base128

/-- The bytes of a number. -/
def digits (n : Nat) : List UInt8 :=
  if n < 128 then [n.toUInt8] else ((n % 128).toUInt8 ||| 0x80) :: digits (n / 128)

/-- The number that ends within the first `k` bytes, and what stands behind it. -/
def read : Nat → List UInt8 → Option (Nat × List UInt8)
  | 0, _ => none
  | _ + 1, [] => none
  | k + 1, b :: l =>
    if b &&& 0x80 = 0 then some ((b &&& 0x7F).toNat, l)
    else (read k l).map fun r => ((b &&& 0x7F).toNat + 128 * r.1, r.2)

/-! ## A byte -/

section
variable {d : Nat}

theorem last_and_high (h : d < 128) : d.toUInt8 &&& 0x80 = 0 := by
  have hall : ∀ d < 128, d.toUInt8 &&& 0x80 = 0 := by decide +kernel
  exact hall d h

theorem last_and_low (h : d < 128) : (d.toUInt8 &&& 0x7F).toNat = d := by
  have hall : ∀ d < 128, (d.toUInt8 &&& 0x7F).toNat = d := by decide +kernel
  exact hall d h

theorem more_and_high (h : d < 128) : (d.toUInt8 ||| 0x80) &&& 0x80 ≠ 0 := by
  have hall : ∀ d < 128, (d.toUInt8 ||| 0x80) &&& 0x80 ≠ 0 := by decide +kernel
  exact hall d h

theorem more_and_low (h : d < 128) : ((d.toUInt8 ||| 0x80) &&& 0x7F).toNat = d := by
  have hall : ∀ d < 128, ((d.toUInt8 ||| 0x80) &&& 0x7F).toNat = d := by decide +kernel
  exact hall d h

theorem and_low_lt (b : UInt8) : (b &&& 0x7F).toNat < 128 := by
  have hall : ∀ b : BitVec 8, (UInt8.ofBitVec b &&& 0x7F).toNat < 128 := by decide +kernel
  exact hall b.toBitVec

end

/-! ## The bytes of a number -/

section
variable {n k : Nat} {l r : List UInt8}

theorem digits_of_lt (h : n < 128) : digits n = [n.toUInt8] := by
  rw [digits, if_pos h]

theorem digits_of_le (h : 128 ≤ n) :
    digits n = ((n % 128).toUInt8 ||| 0x80) :: digits (n / 128) := by
  rw [digits, if_neg (Nat.not_lt.2 h)]

theorem digits_ne_nil (n : Nat) : digits n ≠ [] := by
  rw [digits]
  split <;> exact List.cons_ne_nil _ _

theorem length_digits_pos (n : Nat) : 0 < (digits n).length :=
  List.length_pos_iff.2 (digits_ne_nil n)

/-- Only the number 0 has a byte that is 0. -/
theorem zero_mem_digits_iff : 0 ∈ digits n ↔ n = 0 := by
  induction n using digits.induct with
  | case1 n hlt =>
    have hall : ∀ d < 128, (0 : UInt8) = d.toUInt8 ↔ d = 0 := by decide +kernel
    rw [digits_of_lt hlt, List.mem_singleton]
    exact hall n hlt
  | case2 n hge ih =>
    have hall : ∀ d < 128, (0 : UInt8) ≠ d.toUInt8 ||| 0x80 := by decide +kernel
    have hdigit := hall (n % 128) (Nat.mod_lt n (by decide))
    rw [digits_of_le (Nat.not_lt.1 hge), List.mem_cons, ih]
    constructor
    · rintro (h | h)
      · exact absurd h hdigit
      · omega
    · omega

/-- How many bytes a number has. -/
theorem length_digits_le_iff : (digits n).length ≤ k + 1 ↔ n < 128 ^ (k + 1) := by
  induction k generalizing n with
  | zero =>
    rcases Nat.lt_or_ge n 128 with h | h
    · rw [digits_of_lt h]
      exact iff_of_true (Nat.le_refl 1) h
    · have hpos := length_digits_pos (n / 128)
      rw [digits_of_le h, List.length_cons]
      exact iff_of_false (by omega) (Nat.not_lt.2 h)
  | succ k ih =>
    rcases Nat.lt_or_ge n 128 with h | h
    · have hpow : 128 ^ 1 ≤ 128 ^ (k + 1 + 1) := Nat.pow_le_pow_right (by decide) (by omega)
      rw [digits_of_lt h]
      exact iff_of_true (by simp) (by omega)
    · rw [digits_of_le h, List.length_cons, Nat.add_le_add_iff_right, ih,
        Nat.div_lt_iff_lt_mul (by decide), ← Nat.pow_succ]

/-! ## Reading -/

/-- A number is read from its bytes, whatever stands behind them. -/
theorem read_digits (h : (digits n).length ≤ k) : read k (digits n ++ l) = some (n, l) := by
  induction k generalizing n with
  | zero => exact absurd h (Nat.not_le.2 (length_digits_pos n))
  | succ k ih =>
    rcases Nat.lt_or_ge n 128 with hn | hn
    · rw [digits_of_lt hn]
      simp only [List.cons_append, List.nil_append, read, last_and_high hn, last_and_low hn, if_true]
    · have hmod : n % 128 < 128 := Nat.mod_lt _ (by decide)
      rw [digits_of_le hn, List.length_cons, Nat.add_le_add_iff_right] at h
      rw [digits_of_le hn, List.cons_append, read, if_neg (more_and_high hmod), ih h,
        Option.map_some, more_and_low hmod]
      exact congrArg (fun n => some (n, l)) (Nat.mod_add_div n 128)

/-- What is read stands in front of what is left, in at most `k` bytes, and the bytes of the number
are no more than those. -/
theorem read_eq_some (h : read k l = some (n, r)) :
    ∃ ds, l = ds ++ r ∧ ds.length ≤ k ∧ (digits n).length ≤ ds.length ∧
      ∀ r', read k (ds ++ r') = some (n, r') := by
  induction k generalizing l n with
  | zero => cases h
  | succ k ih =>
    cases l with
    | nil => cases h
    | cons b l =>
      unfold read at h
      split at h
      · rename_i hb
        obtain ⟨rfl, rfl⟩ := Prod.mk.inj (Option.some.inj h)
        refine ⟨[b], rfl, by simp, ?_, fun r' => ?_⟩
        · rw [digits_of_lt (and_low_lt b)]
          exact Nat.le_refl 1
        · rw [List.singleton_append, read, if_pos hb]
      · rename_i hb
        obtain ⟨⟨m, r'⟩, hm, hr⟩ := Option.map_eq_some_iff.1 h
        obtain ⟨rfl, rfl⟩ := Prod.mk.inj hr
        obtain ⟨ds, rfl, hlen, hdig, hread⟩ := ih hm
        refine ⟨b :: ds, rfl, Nat.succ_le_succ hlen, ?_, fun r' => ?_⟩
        · have hb' := and_low_lt b
          rcases Nat.lt_or_ge ((b &&& 0x7F).toNat + 128 * m) 128 with hlt | hle
          · rw [digits_of_lt hlt]
            exact Nat.succ_le_succ (Nat.zero_le _)
          · have hdiv : ((b &&& 0x7F).toNat + 128 * m) / 128 = m := by omega
            rw [digits_of_le hle, hdiv]
            exact Nat.succ_le_succ hdig
        · rw [List.cons_append, read, if_neg hb, hread]
          rfl

end

end Base128
