import Mathlib.Data.List.Infix
import Mathlib.Tactic.Common

/-!
# Searching a key in a list

`OccursAt k w p` says that the key `k` stands in `w` from position `p` on; `firstAt k w` is the
least such position. `frames h t w` cuts `w` into the pieces that begin with an occurrence of `h`
and end with the first occurrence of `t` after it, skipping what stands between them.

The lemmas say how the search behaves when the list grows at its end (a first occurrence stays
first) and when a part without the key is dropped from its front.
-/

namespace Seq

variable {α : Type*}

/-- The key `k` stands in `w` from position `p` on. -/
def OccursAt (k w : List α) (p : Nat) : Prop := k <+: w.drop p

instance [DecidableEq α] (k w : List α) (p : Nat) : Decidable (OccursAt k w p) :=
  inferInstanceAs (Decidable (k <+: w.drop p))

theorem occursAt_iff {k w : List α} {p : Nat} :
    OccursAt k w p ↔ ∀ j (h : j < k.length), w[p + j]? = some k[j] := by
  simp only [OccursAt, List.prefix_iff_getElem?, List.getElem?_drop]

theorem OccursAt.le_length {k w : List α} {p : Nat} (h : OccursAt k w p) (hk : k ≠ []) :
    p + k.length ≤ w.length := by
  have hle := List.IsPrefix.length_le h
  have hpos := List.length_pos_of_ne_nil hk
  rw [List.length_drop] at hle
  omega

theorem OccursAt.getElem? {k w : List α} {p j : Nat} (h : OccursAt k w p) (hj : j < k.length) :
    w[p + j]? = some k[j] := occursAt_iff.1 h j hj

theorem occursAt_drop {k w : List α} {d p : Nat} :
    OccursAt k (w.drop d) p ↔ OccursAt k w (d + p) := by
  simp only [OccursAt, List.drop_drop]

/-- Bytes put after the list neither add nor remove an occurrence that ends inside it. -/
theorem occursAt_append {k w v : List α} {p : Nat} (hp : p + k.length ≤ w.length) :
    OccursAt k (w ++ v) p ↔ OccursAt k w p := by
  simp only [occursAt_iff]
  refine forall₂_congr fun j hj => ?_
  rw [List.getElem?_append_left (by omega)]

theorem OccursAt.append {k w : List α} {p : Nat} (h : OccursAt k w p) (v : List α) :
    OccursAt k (w ++ v) p := by
  by_cases hk : k = []
  · subst hk; exact List.nil_prefix
  · exact (occursAt_append (h.le_length hk)).2 h

/-- An occurrence in the rest of a list. -/
theorem OccursAt.prepend {k w : List α} {p : Nat} (h : OccursAt k w p) (u : List α) :
    OccursAt k (u ++ w) (u.length + p) := by
  rw [← occursAt_drop, List.drop_left]
  exact h

/-- No occurrence of `k` begins in `w`, whatever follows `w`. -/
def NoStart (k w : List α) : Prop := ∀ p < w.length, ¬ k <+: w.drop p ∧ ¬ w.drop p <+: k

instance [DecidableEq α] (k w : List α) : Decidable (NoStart k w) :=
  inferInstanceAs (Decidable (∀ p < w.length, _))

theorem NoStart.nil (k : List α) : NoStart k [] := fun p hp => absurd hp (Nat.not_lt_zero p)

theorem NoStart.length_le {k w v : List α} {p : Nat} (h : NoStart k w)
    (ho : OccursAt k (w ++ v) p) : w.length ≤ p := by
  by_contra hp
  have hp : p < w.length := Nat.lt_of_not_le hp
  obtain ⟨h1, h2⟩ := h p hp
  unfold OccursAt at ho
  rw [List.drop_append_of_le_length hp.le] at ho
  obtain h | h := List.prefix_or_prefix_of_prefix ho (List.prefix_append (w.drop p) v)
  · exact h1 h
  · exact h2 h

/-- Position of the first occurrence of `k`. -/
def firstAt [DecidableEq α] (k : List α) : List α → Option Nat
  | [] => if k = [] then some 0 else none
  | x :: w => if k <+: x :: w then some 0 else (firstAt k w).map (· + 1)

section
variable [DecidableEq α] {k w : List α}

theorem firstAt_eq_some_iff {p : Nat} :
    firstAt k w = some p ↔ OccursAt k w p ∧ p ≤ w.length ∧ ∀ q < p, ¬ OccursAt k w q := by
  induction w generalizing p with
  | nil =>
    by_cases hk : k = []
    · subst hk; simp [firstAt, OccursAt, eq_comm (a := p)]; omega
    · simp [firstAt, OccursAt, hk]
  | cons x w ih =>
    by_cases hx : k <+: x :: w
    · simp only [firstAt, if_pos hx, Option.some.injEq]
      constructor
      · rintro rfl; exact ⟨hx, Nat.zero_le _, fun q hq => absurd hq (Nat.not_lt_zero q)⟩
      · rintro ⟨_, _, h⟩
        rcases Nat.eq_zero_or_pos p with rfl | hp
        · rfl
        · exact absurd hx (h 0 hp)
    · simp only [firstAt, if_neg hx, Option.map_eq_some_iff]
      constructor
      · rintro ⟨q, hq, rfl⟩
        obtain ⟨ho, hl, hf⟩ := ih.1 hq
        refine ⟨ho, by simpa using hl, fun r hr => ?_⟩
        cases r with
        | zero => exact hx
        | succ r => exact hf r (by omega)
      · rintro ⟨ho, hl, hf⟩
        cases p with
        | zero => exact absurd ho hx
        | succ p =>
          exact ⟨p, ih.2 ⟨ho, by simpa using hl, fun q hq => hf (q + 1) (by omega)⟩, rfl⟩

theorem firstAt_eq_none_iff : firstAt k w = none ↔ ∀ p ≤ w.length, ¬ OccursAt k w p := by
  induction w with
  | nil =>
    by_cases hk : k = [] <;> simp [firstAt, OccursAt, hk]
  | cons x w ih =>
    by_cases hx : k <+: x :: w
    · simp only [firstAt, if_pos hx, reduceCtorEq, false_iff, not_forall, not_not]
      exact ⟨0, Nat.zero_le _, hx⟩
    · simp only [firstAt, if_neg hx, Option.map_eq_none_iff, ih]
      constructor
      · intro h p hp
        cases p with
        | zero => exact hx
        | succ p => exact h p (by simpa using hp)
      · intro h p hp
        exact h (p + 1) (by simpa using hp)

theorem firstAt_occursAt {p : Nat} (h : firstAt k w = some p) : OccursAt k w p :=
  (firstAt_eq_some_iff.1 h).1

theorem not_occursAt_of_lt_firstAt {p q : Nat} (h : firstAt k w = some p) (hq : q < p) :
    ¬ OccursAt k w q := (firstAt_eq_some_iff.1 h).2.2 q hq

theorem firstAt_le_length {p : Nat} (h : firstAt k w = some p) (hk : k ≠ []) :
    p + k.length ≤ w.length := (firstAt_occursAt h).le_length hk

/-- For a proper key the bound on the position is part of the occurrence. -/
theorem firstAt_eq_some (hk : k ≠ []) {p : Nat} (ho : OccursAt k w p)
    (hf : ∀ q < p, ¬ OccursAt k w q) : firstAt k w = some p :=
  firstAt_eq_some_iff.2 ⟨ho, by have := ho.le_length hk; omega, hf⟩

theorem not_occursAt_of_firstAt_none (hk : k ≠ []) (h : firstAt k w = none) (p : Nat) :
    ¬ OccursAt k w p := by
  intro ho
  have := ho.le_length hk
  exact firstAt_eq_none_iff.1 h p (by omega) ho

theorem firstAt_eq_none (h : ∀ p, ¬ OccursAt k w p) : firstAt k w = none :=
  firstAt_eq_none_iff.2 fun p _ => h p

/-- A first occurrence stays first when the list grows. -/
theorem firstAt_append (hk : k ≠ []) {p : Nat} (h : firstAt k w = some p) (v : List α) :
    firstAt k (w ++ v) = some p := by
  have hp := firstAt_le_length h hk
  refine firstAt_eq_some hk ((firstAt_occursAt h).append v) fun q hq => ?_
  rw [occursAt_append (by omega)]
  exact not_occursAt_of_lt_firstAt h hq

/-- A key stands first where its first element does. -/
theorem firstAt_append_left {a : α} {k s : List α} (hs : a ∉ s) (t : List α) :
    firstAt (a :: k) (s ++ (a :: k ++ t)) = some s.length := by
  refine firstAt_eq_some (List.cons_ne_nil a k) ?_ fun q hq ho => ?_
  · rw [OccursAt, List.drop_left]
    exact List.prefix_append (a :: k) t
  · have hget : (s ++ (a :: k ++ t))[q]? = some a := ho.getElem? (j := 0) (Nat.succ_pos _)
    rw [List.getElem?_append_left hq] at hget
    exact hs (List.mem_of_getElem? hget)

theorem firstAt_singleton {a : α} {s t : List α} (hs : a ∉ s) :
    firstAt [a] (s ++ a :: t) = some s.length :=
  firstAt_append_left hs t

/-- Dropping a part in which no occurrence begins moves the first one forward. -/
theorem firstAt_drop (hk : k ≠ []) {d : Nat} (hd : ∀ q < d, ¬ OccursAt k w q) :
    firstAt k w = (firstAt k (w.drop d)).map (d + ·) := by
  cases h : firstAt k (w.drop d) with
  | none =>
    refine firstAt_eq_none fun p hp => ?_
    rcases Nat.lt_or_ge p d with hlt | hge
    · exact hd p hlt hp
    · refine not_occursAt_of_firstAt_none hk h (p - d) (occursAt_drop.2 ?_)
      rwa [Nat.add_sub_cancel' hge]
  | some q =>
    refine firstAt_eq_some hk (occursAt_drop.1 (firstAt_occursAt h)) fun r (hr : r < d + q) hor => ?_
    rcases Nat.lt_or_ge r d with hlt | hge
    · exact hd r hlt hor
    · refine not_occursAt_of_lt_firstAt h (q := r - d) (by omega) (occursAt_drop.2 ?_)
      rwa [Nat.add_sub_cancel' hge]

/-- Dropping a part before the first occurrence moves it forward. -/
theorem firstAt_drop_le {d p : Nat} (h : firstAt k w = some p) (hd : d ≤ p) :
    firstAt k (w.drop d) = some (p - d) := by
  obtain ⟨ho, hle, hfirst⟩ := firstAt_eq_some_iff.1 h
  refine firstAt_eq_some_iff.2 ⟨?_, ?_, fun q hq hoq => ?_⟩
  · rwa [occursAt_drop, Nat.add_sub_cancel' hd]
  · rw [List.length_drop]
    omega
  · exact hfirst (d + q) (by omega) (occursAt_drop.1 hoq)

theorem firstAt_drop_none {d : Nat} (h : firstAt k w = none) (hd : d ≤ w.length) :
    firstAt k (w.drop d) = none := by
  refine firstAt_eq_none_iff.2 fun q hq ho => ?_
  rw [List.length_drop] at hq
  exact firstAt_eq_none_iff.1 h (d + q) (by omega) (occursAt_drop.1 ho)

end

/-! ## Frames -/

/-- The pieces of `w` that begin with `h` and run to the end of the first `t` behind it. -/
def frames [DecidableEq α] (h t : List α) (w : List α) : List (List α) :=
  match firstAt h w with
  | none => []
  | some p =>
    match firstAt t (w.drop p) with
    | none => []
    | some q =>
      if _hlen : 0 < p + (q + t.length) ∧ 0 < w.length then
        (w.drop p).take (q + t.length) :: frames h t (w.drop (p + (q + t.length)))
      else []
termination_by w.length
decreasing_by simp only [List.length_drop]; omega

section
variable [DecidableEq α] {h t w : List α}

theorem frames_of_none (hw : firstAt h w = none) : frames h t w = [] := by
  rw [frames, hw]

theorem frames_of_tail_none {p : Nat} (hw : firstAt h w = some p)
    (ht : firstAt t (w.drop p) = none) : frames h t w = [] := by
  rw [frames, hw]; simp only [ht]

/-- The first frame and what follows it. -/
theorem frames_cons (hh : h ≠ []) (ht : t ≠ []) {p q : Nat} (hw : firstAt h w = some p)
    (hq : firstAt t (w.drop p) = some q) :
    frames h t w =
      (w.drop p).take (q + t.length) :: frames h t (w.drop (p + (q + t.length))) := by
  have h1 := firstAt_le_length hw hh
  have h2 := List.length_pos_of_ne_nil hh
  have h3 := List.length_pos_of_ne_nil ht
  rw [frames, hw]
  simp only [hq]
  rw [dif_pos ⟨by omega, by omega⟩]

@[simp] theorem frames_nil (hh : h ≠ []) : frames h t ([] : List α) = [] :=
  frames_of_none (by simp [firstAt, hh])

/-- A part in which no head begins holds no frame. -/
theorem frames_drop (hh : h ≠ []) (ht : t ≠ []) {d : Nat} (hd : ∀ q < d, ¬ OccursAt h w q) :
    frames h t (w.drop d) = frames h t w := by
  have hf := firstAt_drop hh hd
  cases h1 : firstAt h (w.drop d) with
  | none =>
    rw [h1] at hf
    rw [frames_of_none h1, frames_of_none hf]
  | some p =>
    rw [h1, Option.map_some] at hf
    cases h2 : firstAt t ((w.drop d).drop p) with
    | none =>
      rw [frames_of_tail_none h1 h2, frames_of_tail_none hf (by rwa [List.drop_drop] at h2)]
    | some q =>
      have h2' : firstAt t (w.drop (d + p)) = some q := by rwa [List.drop_drop] at h2
      rw [frames_cons hh ht h1 h2, frames_cons hh ht hf h2']
      simp only [List.drop_drop, Nat.add_assoc]

end

end Seq
