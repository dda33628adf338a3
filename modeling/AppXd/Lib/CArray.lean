import AppXd.Lib.CString
import Mathlib.Data.List.GetD

/-!
# Strings in arrays of fixed size

A `Str n` is a string that a `char` array of `n` bytes holds with its terminator. `clear` is a
`memset` of a whole array to zero and `store` a `memcpy` of a string without its terminator: what
the array reads as afterwards depends on the byte behind the copy.
-/

namespace CStr

/-- A string in an array of `n` bytes. -/
structure Str (n : Nat) where
  chars : List UInt8
  noNul : 0 ∉ chars
  fits : chars.length < n
  deriving DecidableEq

/-- A string of any length. -/
structure Text where
  chars : List UInt8
  noNul : 0 ∉ chars
  deriving DecidableEq

/-- The difference of the first two bytes that differ. A string that ends counts as a NUL. -/
def strcmp : List UInt8 → List UInt8 → Int
  | [], [] => 0
  | [], b :: _ => -b.toNat
  | a :: _, [] => a.toNat
  | a :: s, b :: t => if a = b then strcmp s t else a.toNat - b.toNat

theorem strcmp_eq_zero {s t : List UInt8} (hs : 0 ∉ s) (ht : 0 ∉ t) : strcmp s t = 0 ↔ s = t := by
  induction s generalizing t with
  | nil =>
    cases t with
    | nil => simp [strcmp]
    | cons b t =>
      have hb : b ≠ 0 := fun h => ht (h ▸ List.mem_cons_self)
      have hpos : b.toNat ≠ 0 := fun h => hb (UInt8.toNat_inj.1 h)
      simp [strcmp, hpos]
  | cons a s ih =>
    cases t with
    | nil =>
      have ha : a ≠ 0 := fun h => hs (h ▸ List.mem_cons_self)
      have hpos : a.toNat ≠ 0 := fun h => ha (UInt8.toNat_inj.1 h)
      simp [strcmp, hpos]
    | cons b t =>
      have hs' : 0 ∉ s := fun h => hs (List.mem_cons_of_mem a h)
      have ht' : 0 ∉ t := fun h => ht (List.mem_cons_of_mem b h)
      unfold strcmp
      by_cases hab : a = b
      · rw [if_pos hab, ih hs' ht', hab, List.cons.injEq]
        simp
      · have hne : a.toNat ≠ b.toNat := fun h => hab (UInt8.toNat_inj.1 h)
        rw [if_neg hab, List.cons.injEq]
        constructor
        · intro h
          omega
        · rintro ⟨h, -⟩
          exact absurd h hab

/-! ## Arrays -/

section
variable {buf s : List UInt8}

def clear (buf : List UInt8) : List UInt8 := List.replicate buf.length 0

def store (buf s : List UInt8) : List UInt8 := s ++ buf.drop s.length

@[simp] theorem length_clear : (clear buf).length = buf.length := List.length_replicate

@[simp] theorem clear_clear : clear (clear buf) = clear buf :=
  congrArg (List.replicate · 0) length_clear

theorem clear_eq_self_iff : clear buf = buf ↔ ∀ b ∈ buf, b = 0 := by
  unfold clear
  rw [eq_comm, List.eq_replicate_iff]
  exact and_iff_right rfl

/-- A cleared array holds zeros behind a copy. -/
theorem store_clear : store (clear buf) s = copyInto buf.length s := by
  unfold store clear copyInto
  rw [List.drop_replicate]

theorem length_store (h : s.length ≤ buf.length) : (store buf s).length = buf.length := by
  unfold store
  rw [List.length_append, List.length_drop]
  omega

/-- Behind the copy the array reads on. -/
theorem textAt_store (hs : 0 ∉ s) : textAt (store buf s) 0 = s ++ textAt buf s.length := by
  have hall : ∀ b ∈ s, decide (b ≠ 0) = true := fun b hb => decide_eq_true fun h => hs (h ▸ hb)
  unfold textAt store
  rw [List.drop_zero, List.takeWhile_append_of_pos hall]

/-- A string ends at `p` when a NUL stands there, or when the array ends. -/
theorem textAt_eq_nil_iff {p : Nat} : textAt buf p = [] ↔ buf.getD p 0 = 0 := by
  unfold textAt
  rcases Nat.lt_or_ge p buf.length with hp | hp
  · rw [List.drop_eq_getElem_cons hp, List.getD_eq_getElem _ _ hp, List.takeWhile_cons]
    split
    · rename_i h
      have hne : buf[p] ≠ 0 := of_decide_eq_true h
      simp [hne]
    · rename_i h
      simpa using h
  · rw [List.drop_eq_nil_of_le hp, List.getD_eq_default _ _ hp]
    simp

/-- The copy is what the array reads as exactly when a NUL stands behind it. -/
theorem textAt_store_eq_iff (hs : 0 ∉ s) :
    textAt (store buf s) 0 = s ↔ buf.getD s.length 0 = 0 := by
  rw [textAt_store hs, List.append_right_eq_self, textAt_eq_nil_iff]

/-- A copy stays in the array, and the array keeps a terminator. -/
def Fits (buf s : List UInt8) : Prop := s.length ≤ buf.length ∧ 0 ∈ store buf s

instance : Decidable (Fits buf s) := inferInstanceAs (Decidable (_ ∧ _))

/-- A copy without a NUL keeps a terminator only where it stays in the array. -/
theorem fits_iff (hs : 0 ∉ s) : Fits buf s ↔ 0 ∈ store buf s := by
  refine ⟨fun h => h.2, fun h => ⟨?_, h⟩⟩
  by_contra hlong
  unfold store at h
  rw [List.drop_eq_nil_of_le (Nat.le_of_not_le hlong), List.append_nil] at h
  exact hs h

/-- A copy that fits is what the array reads as exactly when a NUL of the array stands behind it. -/
theorem fits_and_textAt_store_iff (hs : 0 ∉ s) :
    Fits buf s ∧ textAt (store buf s) 0 = s ↔ buf[s.length]? = some 0 := by
  rw [textAt_store_eq_iff hs, List.getD_eq_getElem?_getD]
  constructor
  · rintro ⟨⟨hle, hnul⟩, hget⟩
    rcases Nat.lt_or_ge s.length buf.length with hlt | hge
    · rw [List.getElem?_eq_getElem hlt] at hget ⊢
      exact congrArg some hget
    · -- the copy fills the array
      unfold store at hnul
      rw [List.drop_eq_nil_of_le hge, List.append_nil] at hnul
      exact absurd hnul hs
  · intro hget
    obtain ⟨hlt, hval⟩ := List.getElem?_eq_some_iff.1 hget
    refine ⟨⟨hlt.le, ?_⟩, by rw [hget]; rfl⟩
    unfold store
    rw [List.drop_eq_getElem_cons hlt, hval]
    exact List.mem_append_right _ List.mem_cons_self

/-- A copy changes nothing where the array begins with it. -/
theorem store_eq_self_iff : store buf s = buf ↔ s <+: buf := List.prefix_iff_eq_append.symm

/-- A NUL stands at `p` when the copy ends before and one stood there already. -/
theorem getElem?_store_eq_zero_iff {p : Nat} (hs : 0 ∉ s) :
    (store buf s)[p]? = some 0 ↔ s.length ≤ p ∧ buf[p]? = some 0 := by
  unfold store
  rcases Nat.lt_or_ge p s.length with hp | hp
  · rw [List.getElem?_append_left hp, List.getElem?_eq_getElem hp]
    have hne : some s[p] ≠ some 0 := fun h => hs (Option.some.inj h ▸ List.getElem_mem hp)
    exact iff_of_false hne fun h => absurd h.1 (Nat.not_le.2 hp)
  · rw [List.getElem?_append_right hp, List.getElem?_drop, Nat.add_sub_cancel' hp]
    exact ⟨fun h => ⟨hp, h⟩, fun h => h.2⟩

/-- A copy into a cleared array. -/
theorem textAt_store_clear (buf : List UInt8) (hs : 0 ∉ s) : textAt (store (clear buf) s) 0 = s := by
  refine (textAt_store_eq_iff hs).2 ?_
  rcases Nat.lt_or_ge s.length buf.length with h | h
  · rw [List.getD_eq_getElem _ _ (by rwa [length_clear])]
    exact List.getElem_replicate _
  · rw [List.getD_eq_default _ _ (by rwa [length_clear])]

theorem textAt_copyInto {n : Nat} (hs : 0 ∉ s) : textAt (copyInto n s) 0 = s := by
  have h := textAt_store_clear (List.replicate n 0) hs
  rwa [store_clear, List.length_replicate] at h

/-- A copy into an array of zeros is terminated when it leaves room. -/
theorem zero_mem_copyInto_iff {n : Nat} (hs : 0 ∉ s) : 0 ∈ copyInto n s ↔ s.length < n := by
  unfold copyInto
  rw [List.mem_append, List.mem_replicate]
  constructor
  · rintro (h | ⟨hne, -⟩)
    · exact absurd h hs
    · omega
  · intro hlt
    exact .inr ⟨by omega, rfl⟩

end

end CStr
