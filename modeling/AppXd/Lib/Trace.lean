import Mathlib.Tactic.Common

/-!
# Runs of a labelled transition system

`Run R s es s'` says that the steps `es` lead from `s` to `s'`. `Guarded c R` keeps the steps of
`R` that meet the condition `c` on the state before the step and its label.
-/

namespace Trace

variable {σ ε : Type*} {R : σ → ε → σ → Prop}

inductive Run (R : σ → ε → σ → Prop) : σ → List ε → σ → Prop
  | nil {s} : Run R s [] s
  | cons {s e s' es s''} : R s e s' → Run R s' es s'' → Run R s (e :: es) s''

/-- The steps that meet `c`. -/
def Guarded (c : σ → ε → Prop) (R : σ → ε → σ → Prop) (s : σ) (e : ε) (s' : σ) : Prop :=
  c s e ∧ R s e s'

theorem Run.append {s s' s'' : σ} {es es' : List ε} (h : Run R s es s') (h' : Run R s' es' s'') :
    Run R s (es ++ es') s'' := by
  induction h with
  | nil => exact h'
  | cons hr _ ih => exact .cons hr (ih h')

theorem run_append_iff {s s'' : σ} {es es' : List ε} :
    Run R s (es ++ es') s'' ↔ ∃ s', Run R s es s' ∧ Run R s' es' s'' := by
  constructor
  · induction es generalizing s with
    | nil => exact fun h => ⟨s, .nil, h⟩
    | cons e es ih =>
      rintro (_ | ⟨hr, h⟩)
      obtain ⟨s', h1, h2⟩ := ih h
      exact ⟨s', .cons hr h1, h2⟩
  · rintro ⟨s', h, h'⟩
    exact h.append h'

/-- What holds at the start and is kept by every step holds in every state reached. -/
theorem Run.inv {I : σ → Prop} (hstep : ∀ s e s', I s → R s e s' → I s') {s s' : σ} {es : List ε}
    (h : Run R s es s') (hs : I s) : I s' := by
  induction h with
  | nil => exact hs
  | cons hr _ ih => exact ih (hstep _ _ _ hs hr)

/-- The same for a relation between the steps made so far and the state reached. -/
theorem Run.inv_trace {I : List ε → σ → Prop} {s s' : σ} {es : List ε}
    (hstep : ∀ tr t e t', I tr t → R t e t' → I (tr ++ [e]) t') (h : Run R s es s')
    (hs : I [] s) : I es s' := by
  suffices H : ∀ tr, I tr s → I (tr ++ es) s' from H [] hs
  clear hs
  induction h with
  | nil => intro tr htr; simpa using htr
  | cons hr _ ih =>
    intro tr htr
    simpa using ih _ (hstep _ _ _ _ htr hr)

theorem Run.mono {R' : σ → ε → σ → Prop} (hR : ∀ s e s', R s e s' → R' s e s') {s s' : σ}
    {es : List ε} (h : Run R s es s') : Run R' s es s' := by
  induction h with
  | nil => exact .nil
  | cons hr _ ih => exact .cons (hR _ _ _ hr) ih

/-- Where one step keeps `P` exactly when it meets `c`, the states that a run of a deterministic
system passes all have `P` exactly when the run's steps all meet `c`. -/
theorem Run.passes_iff {J P : σ → Prop} {c : σ → ε → Prop}
    (hdet : ∀ s e s₁ s₂, R s e s₁ → R s e s₂ → s₁ = s₂)
    (hJ : ∀ s e s', J s → R s e s' → J s')
    (hP : ∀ s e s', J s → P s → R s e s' → (P s' ↔ c s e)) {s s' : σ} {es : List ε}
    (h : Run R s es s') (hs : J s) (hPs : P s) :
    (∀ es₁ s₁, es₁ <+: es → Run R s es₁ s₁ → P s₁) ↔ Run (Guarded c R) s es s' := by
  induction h with
  | nil =>
    refine ⟨fun _ => .nil, fun _ es₁ s₁ hpre hrun => ?_⟩
    cases List.prefix_nil.1 hpre
    cases hrun
    exact hPs
  | @cons s e s₁ es s' hr hrest ih =>
    constructor
    · intro hall
      have hPs₁ := hall [e] s₁ (List.cons_prefix_cons.2 ⟨rfl, List.nil_prefix⟩) (.cons hr .nil)
      refine .cons ⟨(hP s e s₁ hs hPs hr).1 hPs₁, hr⟩ ((ih (hJ _ _ _ hs hr) hPs₁).1 ?_)
      intro es₁ s₂ hpre hrun
      exact hall (e :: es₁) s₂ (List.cons_prefix_cons.2 ⟨rfl, hpre⟩) (.cons hr hrun)
    · intro hg es₁ s₂ hpre hrun
      obtain _ | ⟨⟨hc, hr'⟩, hg⟩ := hg
      cases hdet _ _ _ _ hr hr'
      have hPs₁ := (hP s e s₁ hs hPs hr).2 hc
      cases hrun with
      | nil => exact hPs
      | cons hr₂ hrun =>
        obtain ⟨rfl, hpre'⟩ := List.cons_prefix_cons.1 hpre
        cases hdet _ _ _ _ hr hr₂
        exact (ih (hJ _ _ _ hs hr) hPs₁).2 hg _ _ hpre' hrun

/-! ## Deterministic steps -/

/-- The steps of a function. -/
def Fun (step : σ → ε → σ) (s : σ) (e : ε) (s' : σ) : Prop := s' = step s e

section
variable {step : σ → ε → σ} {c : σ → ε → Prop}

theorem run_fun (step : σ → ε → σ) (s : σ) (es : List ε) : Run (Fun step) s es (es.foldl step s) := by
  induction es generalizing s with
  | nil => exact .nil
  | cons e es ih => exact .cons rfl (ih _)

theorem Run.eq_foldl {s s' : σ} {es : List ε} (h : Run (Fun step) s es s') :
    s' = es.foldl step s := by
  induction h with
  | nil => rfl
  | cons hr _ ih => rw [ih, hr]; rfl

/-- Whether every step of a run meets a decidable condition. -/
def checks [∀ s e, Decidable (c s e)] (step : σ → ε → σ) : σ → List ε → Bool
  | _, [] => true
  | s, e :: es => decide (c s e) && checks step (step s e) es

theorem run_of_checks [∀ s e, Decidable (c s e)] {s : σ} {es : List ε}
    (h : checks (c := c) step s es = true) :
    Run (Guarded c (Fun step)) s es (es.foldl step s) := by
  induction es generalizing s with
  | nil => exact .nil
  | cons e es ih =>
    rw [checks, Bool.and_eq_true, decide_eq_true_eq] at h
    exact .cons ⟨h.1, rfl⟩ (ih h.2)

end

/-! ## Steps that may be undefined -/

/-- The steps of a partial function. -/
def PFun (step : σ → ε → Option σ) (s : σ) (e : ε) (s' : σ) : Prop := step s e = some s'

section
variable {step : σ → ε → Option σ}

theorem PFun.det {s s₁ s₂ : σ} {e : ε} (h₁ : PFun step s e s₁) (h₂ : PFun step s e s₂) : s₁ = s₂ :=
  Option.some.inj (h₁.symm.trans h₂)

theorem run_pfun_iff {s s' : σ} {es : List ε} :
    Run (PFun step) s es s' ↔ es.foldlM step s = some s' := by
  induction es generalizing s with
  | nil =>
    constructor
    · rintro ⟨⟩
      rfl
    · intro h
      cases h
      exact .nil
  | cons e es ih =>
    rw [List.foldlM_cons]
    constructor
    · rintro (_ | ⟨hr, h⟩)
      rw [show step s e = some _ from hr]
      exact ih.1 h
    · intro h
      obtain ⟨t, ht, h⟩ := Option.bind_eq_some_iff.1 h
      exact .cons ht (ih.2 h)

/-- The partial function, undefined where a decidable condition fails. -/
def guard (c : σ → ε → Prop) [∀ s e, Decidable (c s e)] (step : σ → ε → Option σ) (s : σ) (e : ε) :
    Option σ := if c s e then step s e else none

theorem run_guarded_of_foldlM {c : σ → ε → Prop} [∀ s e, Decidable (c s e)] {s s' : σ} {es : List ε}
    (h : es.foldlM (guard c step) s = some s') : Run (Guarded c (PFun step)) s es s' := by
  refine (run_pfun_iff.2 h).mono fun s e s' hstep => ?_
  unfold PFun guard at hstep
  split at hstep
  · exact ⟨‹_›, hstep⟩
  · cases hstep

end

end Trace
