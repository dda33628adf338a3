import AppXd.Lib.Trace

/-!
# Procedures that go through their steps in order

A procedure makes one step in each call. Behind a step it goes on with the next one, and behind the
last one it is done. A strict step that fails ends it at once. Behind both ends it begins anew.
-/

namespace StepTable

open Trace (Run)

/-- What a call comes to. -/
inductive Outcome
  | next (n : Nat)
  | done
  | failed
  deriving DecidableEq, Repr

/-- The step of the next call. -/
def Outcome.after : Outcome → Nat
  | next n => n
  | done | failed => 0

/-- The procedure of `size` steps. -/
def straight (size : Nat) (strict : Nat → Bool) (n : Nat) (ok : Bool) : Outcome :=
  if strict n = true ∧ ok = false then .failed
  else if n + 1 < size then .next (n + 1) else .done

section
variable {κ : Type*} (size : Nat) (strict : Nat → Bool) (before : κ → Nat) (ok : κ → Bool)
variable (outcome : κ → Outcome)

/-- A call leads from one step to another. -/
def Step (n : Nat) (c : κ) (n' : Nat) : Prop := before c = n ∧ (outcome c).after = n'

/-- The calls behave as the procedure does. -/
def Straight : Prop :=
  0 < size ∧ ∀ c, before c < size → outcome c = straight size strict (before c) (ok c)

/-- The calls make the first `n` steps in order, the strict ones with success. -/
structure Passed (n : Nat) (cs : List κ) : Prop where
  steps : cs.map before = List.range n
  strict : ∀ c ∈ cs, strict (before c) = true → ok c = true

end

section
variable {κ : Type*} {size : Nat} {strict : Nat → Bool} {before : κ → Nat} {ok : κ → Bool}
variable {outcome : κ → Outcome} {cs : List κ} {c : κ} {n : Nat}

theorem Passed.nil : Passed strict before ok 0 [] := ⟨rfl, nofun⟩

theorem Passed.snoc (h : Passed strict before ok n cs) (hn : before c = n)
    (hc : strict n = true → ok c = true) : Passed strict before ok (n + 1) (cs ++ [c]) := by
  refine ⟨?_, fun c' hc' => ?_⟩
  · rw [List.map_append, h.steps, List.range_succ, List.map_singleton, hn]
  · obtain hc' | hc' := List.mem_append.1 hc'
    · exact h.strict c' hc'
    · rwa [List.mem_singleton.1 hc', hn]

theorem Passed.step_lt (h : Passed strict before ok n cs) (hc : c ∈ cs) : before c < n := by
  have hmem := List.mem_map_of_mem (f := before) hc
  rw [h.steps] at hmem
  exact List.mem_range.1 hmem

/-! ## One call -/

/-- A call that does not fail has made its step. -/
theorem Straight.cases (h : Straight size strict before ok outcome) (hc : before c < size) :
    (outcome c = .next (before c + 1) ∧ before c + 1 < size ∧
        (strict (before c) = true → ok c = true)) ∨
      (outcome c = .done ∧ before c + 1 = size ∧ (strict (before c) = true → ok c = true)) ∨
      (outcome c = .failed ∧ strict (before c) = true ∧ ok c = false) := by
  rw [h.2 c hc]
  unfold straight
  split
  · rename_i hfail
    exact .inr (.inr ⟨rfl, hfail⟩)
  · rename_i hpass
    have hok : strict (before c) = true → ok c = true := fun hs => by
      rw [← Bool.not_eq_false]
      exact fun hno => hpass ⟨hs, hno⟩
    split
    · rename_i hlt
      exact .inl ⟨rfl, hlt, hok⟩
    · exact .inr (.inl ⟨rfl, by omega, hok⟩)

theorem Straight.after_lt (h : Straight size strict before ok outcome) (hc : before c < size) :
    (outcome c).after < size := by
  obtain ⟨heq, hlt, -⟩ | ⟨heq, -⟩ | ⟨heq, -⟩ := h.cases hc
  · rw [heq]
    exact hlt
  all_goals
    rw [heq]
    exact h.1

/-! ## Runs -/

/-- A system whose states have a step runs as the procedure does. -/
theorem Straight.run_steps (h : Straight size strict before ok outcome) {σ : Type*}
    {R : σ → κ → σ → Prop} {step : σ → Nat} (hR : ∀ s c s', R s c s' → step s < size →
      before c = step s ∧ (outcome c).after = step s') {s s' : σ} (hrun : Run R s cs s')
    (hs : step s < size) : Run (Step before outcome) (step s) cs (step s') := by
  induction hrun with
  | nil => exact .nil
  | cons hstep _ ih =>
    obtain ⟨hbefore, hafter⟩ := hR _ _ _ hstep hs
    refine .cons ⟨hbefore, hafter⟩ (ih ?_)
    rw [← hafter]
    exact h.after_lt (hbefore ▸ hs)

/-- The calls since the procedure began make its first steps in order. -/
theorem Straight.run (h : Straight size strict before ok outcome)
    (hrun : Run (Step before outcome) 0 cs n) :
    n < size ∧ ∃ pre round, cs = pre ++ round ∧ Passed strict before ok n round := by
  refine hrun.inv_trace (I := fun cs n => n < size ∧ ∃ pre round, cs = pre ++ round ∧
    Passed strict before ok n round) ?_ ⟨h.1, [], [], rfl, .nil⟩
  rintro cs n c n' ⟨hn, pre, round, rfl, hround⟩ ⟨hbefore, rfl⟩
  subst hbefore
  obtain ⟨heq, hlt, hok⟩ | ⟨heq, -, -⟩ | ⟨heq, -, -⟩ := h.cases hn
  · rw [heq]
    exact ⟨hlt, pre, round ++ [c], List.append_assoc .., hround.snoc rfl hok⟩
  all_goals
    rw [heq]
    exact ⟨h.1, pre ++ round ++ [c], [], (List.append_nil _).symm, .nil⟩

/-- Where every call has another one behind it, no step is made twice. -/
theorem Straight.run_waits (h : Straight size strict before ok outcome)
    (hrun : Run (Step before outcome) 0 cs n)
    (hwait : ∀ c ∈ cs, ∃ k, outcome c = .next k) : Passed strict before ok n cs := by
  have hinv : n < size ∧
      ((∀ c ∈ cs, ∃ k, outcome c = .next k) → Passed strict before ok n cs) := by
    refine hrun.inv_trace (I := fun cs n => n < size ∧
      ((∀ c ∈ cs, ∃ k, outcome c = .next k) → Passed strict before ok n cs)) ?_
      ⟨h.1, fun _ => .nil⟩
    rintro cs n c n' ⟨hn, ih⟩ ⟨hbefore, rfl⟩
    subst hbefore
    obtain ⟨heq, hlt, hok⟩ | ⟨heq, -, -⟩ | ⟨heq, -, -⟩ := h.cases hn
    · rw [heq]
      refine ⟨hlt, fun hall => ?_⟩
      exact (ih fun c' hc' => hall c' (List.mem_append_left _ hc')).snoc rfl hok
    all_goals
      rw [heq]
      refine ⟨h.1, fun hall => ?_⟩
      obtain ⟨k, hk⟩ := hall c (List.mem_append_right _ (List.mem_singleton_self c))
      rw [heq] at hk
      cases hk
  exact hinv.2 hwait

/-- A call that is done is the last of a round: all steps in order, the strict ones with success. -/
theorem Straight.run_done (h : Straight size strict before ok outcome) {post : List κ}
    (hrun : Run (Step before outcome) 0 (cs ++ c :: post) n) (hdone : outcome c = .done) :
    ∃ pre round, cs ++ [c] = pre ++ round ∧ Passed strict before ok size round := by
  obtain ⟨n₁, hrun₁, hrest⟩ := Trace.run_append_iff.1 hrun
  obtain _ | ⟨⟨hbefore, -⟩, -⟩ := hrest
  subst hbefore
  obtain ⟨hn, pre, round, rfl, hround⟩ := h.run hrun₁
  obtain ⟨heq, -⟩ | ⟨-, hlast, hok⟩ | ⟨heq, -⟩ := h.cases hn
  · rw [hdone] at heq
    cases heq
  · exact ⟨pre, round ++ [c], List.append_assoc .., hlast ▸ hround.snoc rfl hok⟩
  · rw [hdone] at heq
    cases heq

/-- A call that fails is the first strict one of its round without success. -/
theorem Straight.run_failed (h : Straight size strict before ok outcome) {post : List κ}
    (hrun : Run (Step before outcome) 0 (cs ++ c :: post) n) (hfailed : outcome c = .failed) :
    (∃ pre round, cs = pre ++ round ∧ Passed strict before ok (before c) round) ∧
      strict (before c) = true ∧ ok c = false := by
  obtain ⟨n₁, hrun₁, hrest⟩ := Trace.run_append_iff.1 hrun
  obtain _ | ⟨⟨hbefore, -⟩, -⟩ := hrest
  subst hbefore
  obtain ⟨hn, hround⟩ := h.run hrun₁
  obtain ⟨heq, -⟩ | ⟨heq, -⟩ | ⟨-, hfail⟩ := h.cases hn
  · rw [hfailed] at heq
    cases heq
  · rw [hfailed] at heq
    cases heq
  · exact ⟨hround, hfail⟩

/-- Fewer calls than there are steps can go by without an end. -/
theorem Straight.length_lt (h : Straight size strict before ok outcome)
    {pre mid : List κ} (hrun : Run (Step before outcome) 0 (pre ++ mid) n)
    (hwait : ∀ c ∈ mid, ∃ k, outcome c = .next k) : mid.length < size := by
  obtain ⟨n₁, hrun₁, hrest⟩ := Trace.run_append_iff.1 hrun
  have hlt := (h.run hrun).1
  have hcount : n = n₁ + mid.length := by
    have hn₁ := (h.run hrun₁).1
    clear hrun hrun₁ hlt
    induction hrest with
    | nil => rfl
    | @cons n₁ c n₂ mid n hstep _ ih =>
      obtain ⟨hbefore, hafter⟩ := hstep
      subst hbefore
      obtain ⟨heq, hlt, -⟩ | ⟨heq, -⟩ | ⟨heq, -⟩ := h.cases hn₁
      · rw [heq] at hafter
        subst hafter
        rw [ih (fun c' hc' => hwait c' (List.mem_cons_of_mem _ hc')) hlt, List.length_cons]
        simp only [Outcome.after]
        omega
      all_goals
        obtain ⟨k, hk⟩ := hwait c List.mem_cons_self
        rw [heq] at hk
        cases hk
  omega

end

end StepTable
