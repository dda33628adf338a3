import Mathlib.Data.List.Induction
import Mathlib.Tactic.Common

/-!
# The last write wins

A list of writes is gone through from the front, and a write may set the value or leave it. What
stands there in the end is what the last one has set.
-/

namespace Seq

variable {α β γ : Type*}

/-- The value behind the writes `l`, where `f` says what a write sets. -/
def lastWrite (f : α → Option β) (v : β) (l : List α) : β := l.foldl (fun v x => (f x).getD v) v

section
variable {f g : α → Option β} {v : β} {l : List α}

@[simp] theorem lastWrite_nil : lastWrite f v [] = v := rfl

theorem lastWrite_append (l l' : List α) :
    lastWrite f v (l ++ l') = lastWrite f (lastWrite f v l) l' := List.foldl_append

theorem lastWrite_concat (l : List α) (x : α) :
    lastWrite f v (l ++ [x]) = (f x).getD (lastWrite f v l) := lastWrite_append l [x]

/-- Writes that come in groups. -/
theorem lastWrite_flatMap {h : γ → List α} {f' : γ → Option β}
    (hgroup : ∀ c v, lastWrite f v (h c) = (f' c).getD v) (l : List γ) :
    lastWrite f v (l.flatMap h) = lastWrite f' v l := by
  induction l using List.reverseRecOn with
  | nil => rfl
  | append_singleton l c ih =>
    rw [List.flatMap_append, lastWrite_append, ih, lastWrite_concat, List.flatMap_singleton, hgroup]

theorem lastWrite_filterMap (h : γ → Option α) (l : List γ) :
    lastWrite f v (l.filterMap h) = lastWrite (fun c => (h c).bind f) v l := by
  induction l using List.reverseRecOn with
  | nil => rfl
  | append_singleton l c ih =>
    rw [List.filterMap_append, lastWrite_append, ih, lastWrite_concat]
    cases hc : h c with
    | none => simp [hc]
    | some x => simp [hc, lastWrite]

/-- What has been set is what a search from the end finds first. -/
theorem lastWrite_eq_findSome? : lastWrite f v l = (l.reverse.findSome? f).getD v := by
  induction l using List.reverseRecOn with
  | nil => rfl
  | append_singleton l x ih =>
    rw [lastWrite_concat, ih, List.reverse_append]
    cases hx : f x with
    | none => simp [hx]
    | some b => simp [hx]

/-- One of the writes with the numbers below `n` sets something. -/
theorem lastWrite_range {f : Nat → Option β} {n k : Nat} (hk : k < n)
    (h : ∀ i < n, i ≠ k → f i = none) : lastWrite f v (List.range n) = (f k).getD v := by
  induction n with
  | zero => exact absurd hk (Nat.not_lt_zero k)
  | succ n ih =>
    rw [List.range_succ, lastWrite_concat]
    rcases Nat.lt_or_eq_of_le (Nat.le_of_lt_succ hk) with hlt | rfl
    · rw [h n (Nat.lt_succ_self n) (Nat.ne_of_gt hlt),
        ih hlt fun i hi => h i (Nat.lt_succ_of_lt hi)]
      rfl
    · have hbefore : lastWrite f v (List.range k) = v := by
        rw [lastWrite_eq_findSome?, List.findSome?_eq_none_iff.2 fun i hi => ?_]
        · rfl
        · rw [List.mem_reverse, List.mem_range] at hi
          exact h i (Nat.lt_succ_of_lt hi) (Nat.ne_of_lt hi)
      rw [hbefore]

theorem lastWrite_congr (h : ∀ x ∈ l, f x = g x) : lastWrite f v l = lastWrite g v l := by
  induction l using List.reverseRecOn with
  | nil => rfl
  | append_singleton l x ih =>
    rw [List.forall_mem_append] at h
    rw [lastWrite_concat, lastWrite_concat, ih h.1, h.2 x (List.mem_singleton_self x)]

/-- Some of the writes change nothing in the end exactly when the last write is not one of them, or
sets what stands there without them. -/
theorem lastWrite_eq_iff (hg : ∀ x, g x = none ∨ g x = f x) :
    lastWrite f v l = lastWrite g v l ↔
      ∀ x ∈ l.reverse.find? fun x => (f x).isSome, g x = none → f x = some (lastWrite g v l) := by
  induction l using List.reverseRecOn with
  | nil => exact iff_of_true rfl nofun
  | append_singleton l x ih =>
    rw [lastWrite_concat, lastWrite_concat, List.reverse_append]
    cases hx : f x with
    | none =>
      have hgx : g x = none := by
        rcases hg x with h | h
        · exact h
        · exact h.trans hx
      rw [hgx]
      simpa [hx] using ih
    | some b =>
      rcases hg x with h | h
      · simp [hx, h]
      · simp [hx, h]

end

end Seq
