import Mathlib.Tactic.Common

/-!
# Buffers that are runs of records

A reader takes something from the front of a buffer, and what stands behind has no part in it. Readers
in a row are a reader again. A reader of records changes a state by each record; it goes on until
nothing is left of the buffer, and a buffer in two parts is read part by part.
-/

namespace AppXd.Records

variable {α β γ δ σ τ : Type}

/-! ## Readers -/

/-- What is read, and what is left of the buffer. -/
abbrev Read (α β : Type) := List β → Option (α × List β)

/-- The reader takes the front of the buffer, the same one with anything else behind. -/
def Front (f : Read α β) : Prop :=
  ∀ l x, f l = some x → ∃ t, l = t ++ x.2 ∧ ∀ r, f (t ++ r) = some (x.1, r)

/-- So many bytes. -/
def sized (n : Nat) : Read (List β) β := fun l =>
  if l.length < n then none else some (l.take n, l.drop n)

section
variable {f f' : Read α β} {g : α → Read γ β} {l t r : List β} {n : Nat}

theorem Front.none : Front fun _ : List β => (Option.none : Option (α × List β)) :=
  fun _ _ h => nomatch h

theorem Front.some (a : α) : Front fun l : List β => some (a, l) := by
  rintro l x ⟨⟩
  exact ⟨[], rfl, fun _ => rfl⟩

theorem Front.ite {p : Prop} [Decidable p] (hf : Front f) (hf' : Front f') :
    Front fun l => if p then f l else f' l := by
  split
  · exact hf
  · exact hf'

theorem Front.bind (hf : Front f) (hg : ∀ a, Front (g a)) :
    Front fun l => (f l).bind fun x => g x.1 x.2 := by
  intro l y h
  obtain ⟨x, hx, hy⟩ := Option.bind_eq_some_iff.1 h
  obtain ⟨t, ht, hread⟩ := hf l x hx
  obtain ⟨t', ht', hread'⟩ := hg x.1 x.2 y hy
  refine ⟨t ++ t', by rw [ht, ht', List.append_assoc], fun r => ?_⟩
  have hfirst : f (t ++ (t' ++ r)) = Option.some (x.1, t' ++ r) := hread _
  simp only [List.append_assoc, hfirst]
  exact hread' r

theorem Front.map (hf : Front f) (g : α → γ) : Front fun l => (f l).map fun x => (g x.1, x.2) := by
  intro l y h
  obtain ⟨x, hx, rfl⟩ := Option.map_eq_some_iff.1 h
  obtain ⟨t, ht, hread⟩ := hf l x hx
  refine ⟨t, ht, fun r => ?_⟩
  simp only [hread]
  rfl

/-- A value that is checked. -/
theorem Front.check (hf : Front f) (c : α → Option δ) (g : δ → γ) :
    Front fun l => (f l).bind fun x => (c x.1).map fun d => (g d, x.2) := by
  refine hf.bind (g := fun a l => (c a).map fun d => (g d, l)) fun a => ?_
  cases c a with
  | none => exact Front.none
  | some d => exact Front.some (g d)

theorem sized_append (h : t.length = n) (r : List β) : sized n (t ++ r) = some (t, r) := by
  rw [sized, if_neg, List.take_left' h, List.drop_left' h]
  rw [List.length_append]
  omega

theorem Front.sized (n : Nat) : Front (sized n : Read (List β) β) := by
  intro l x h
  unfold Records.sized at h
  split at h
  · cases h
  · cases h
    exact ⟨l.take n, (List.take_append_drop n l).symm, sized_append (List.length_take_of_le (by omega))⟩

/-- A reader that has nothing to read from an empty buffer takes something. -/
theorem Front.length_lt (hf : Front f) (hnil : f [] = Option.none) {x : α × List β}
    (h : f l = Option.some x) : x.2.length < l.length := by
  obtain ⟨t, rfl, hread⟩ := hf l x h
  have hne : t ≠ [] := by
    rintro rfl
    exact absurd (hread []) (hnil ▸ nofun)
  rw [List.length_append]
  exact Nat.lt_add_of_pos_left (List.length_pos_iff.2 hne)

theorem Front.append (hf : Front f) {x : α × List β} (h : f l = Option.some x) (r : List β) :
    f (l ++ r) = Option.some (x.1, x.2 ++ r) := by
  obtain ⟨t, rfl, hread⟩ := hf l x h
  rw [List.append_assoc]
  exact hread _

end

/-! ## Runs -/

/-- A record changes a state. -/
abbrev Reader (σ β : Type) := σ → Read σ β

/-- Reads records, each of which has something. -/
structure Reader.Proper (read : Reader σ β) : Prop where
  front s : Front (read s)
  nil s : read s [] = none

/-- The buffer to its end, in at most `n` records. -/
def readAll (read : Reader σ β) : Nat → σ → List β → Option σ
  | _, s, [] => some s
  | 0, _, _ :: _ => none
  | n + 1, s, b :: l => (read s (b :: l)).bind fun x => readAll read n x.1 x.2

/-- There are no more records than bytes. -/
def run (read : Reader σ β) (s : σ) (l : List β) : Option σ := readAll read l.length s l

section
variable {read : Reader σ β} {s s' : σ} {l a b : List β} {n : Nat}

theorem Reader.Proper.length_lt {x : σ × List β} (hread : read.Proper) (h : read s l = some x) :
    x.2.length < l.length :=
  (hread.front s).length_lt (hread.nil s) h

theorem readAll_nil : readAll read n s [] = some s := by
  cases n <;> rfl

theorem readAll_eq (hread : read.Proper) {m : Nat} (hm : l.length ≤ m) (hn : l.length ≤ n) :
    readAll read m s l = readAll read n s l := by
  induction m generalizing s l n with
  | zero => rw [List.length_eq_zero_iff.1 (Nat.le_zero.1 hm), readAll_nil, readAll_nil]
  | succ m ih =>
    cases l with
    | nil => rw [readAll_nil, readAll_nil]
    | cons b l =>
      rw [List.length_cons] at hm hn
      obtain ⟨n, rfl⟩ : ∃ k, n = k + 1 := ⟨n - 1, by omega⟩
      rw [readAll, readAll]
      refine Option.bind_congr fun x hx => ?_
      have hlt := hread.length_lt hx
      rw [List.length_cons] at hlt
      exact ih (by omega) (by omega)

theorem run_of_ne_nil (hread : read.Proper) (hl : l ≠ []) :
    run read s l = (read s l).bind fun x => run read x.1 x.2 := by
  obtain ⟨b, l, rfl⟩ := List.exists_cons_of_ne_nil hl
  rw [run, List.length_cons, readAll]
  refine Option.bind_congr fun x hx => ?_
  have hlt := hread.length_lt hx
  rw [List.length_cons] at hlt
  exact readAll_eq hread (by omega) (Nat.le_refl _)

theorem Reader.Proper.ne_nil {x : σ × List β} (hread : read.Proper) (h : read s l = some x) :
    l ≠ [] := by
  rintro rfl
  exact absurd h (hread.nil s ▸ nofun)

/-- What every record keeps holds at the end of the run. -/
theorem run_keeps {I : σ → Prop} (hkeep : ∀ {s l x}, I s → read s l = some x → I x.1) (hI : I s)
    (h : run read s l = some s') : I s' := by
  rw [run] at h
  generalize l.length = n at h
  induction n generalizing s l with
  | zero =>
    cases l with
    | nil => exact Option.some.inj h ▸ hI
    | cons b l => cases h
  | succ n ih =>
    cases l with
    | nil => exact Option.some.inj h ▸ hI
    | cons b l =>
      obtain ⟨x, hx, h⟩ := Option.bind_eq_some_iff.1 h
      exact ih (hkeep hI hx) h

/-- A record, and then the rest. -/
theorem run_record (hread : read.Proper) (h : read s l = some (s', b)) :
    run read s l = run read s' b := by
  rw [run_of_ne_nil hread (hread.ne_nil h), h]
  rfl

/-- A buffer in two parts. -/
theorem run_append (hread : read.Proper) (h : run read s a = some s') :
    run read s (a ++ b) = run read s' b := by
  induction hn : a.length using Nat.strongRecOn generalizing s a with
  | ind n ih =>
    subst hn
    by_cases ha : a = []
    · subst ha
      obtain rfl : s = s' := Option.some.inj h
      rfl
    · rw [run_of_ne_nil hread ha, Option.bind_eq_some_iff] at h
      obtain ⟨x, hx, hrun⟩ := h
      rw [run_record hread ((hread.front s).append hx b)]
      exact ih _ (hread.length_lt hx) hrun rfl

/-- A reader that takes the records of another one, and takes them alike, does so in whole runs. -/
theorem run_sim {read' : Reader τ β} {R : σ → τ → Prop} {t : τ} (hread : read.Proper)
    (hread' : read'.Proper)
    (hsim : ∀ {s t l x}, R s t → read s l = some x → ∃ t', R x.1 t' ∧ read' t l = some (t', x.2))
    (hR : R s t) (h : run read s l = some s') : ∃ t', R s' t' ∧ run read' t l = some t' := by
  induction hn : l.length using Nat.strongRecOn generalizing s t l with
  | ind n ih =>
    subst hn
    by_cases hl : l = []
    · subst hl
      obtain rfl : s = s' := Option.some.inj h
      exact ⟨t, hR, rfl⟩
    · rw [run_of_ne_nil hread hl, Option.bind_eq_some_iff] at h
      obtain ⟨x, hx, hrun⟩ := h
      obtain ⟨t', hR', hx'⟩ := hsim hR hx
      rw [run_record hread' hx']
      exact ih _ (hread.length_lt hx) hR' hrun rfl

/-- Readers that agree but for what one of them has more in its state agree in whole runs. -/
theorem run_map {read' : Reader τ β} {f : σ → τ} {I : σ → Prop} (hread : read.Proper)
    (hread' : read'.Proper) (hkeep : ∀ {s l x}, I s → read s l = some x → I x.1)
    (hmap : ∀ {s}, I s → ∀ l, read' (f s) l = (read s l).map (Prod.map f id)) (hI : I s) :
    run read' (f s) l = (run read s l).map f := by
  induction hn : l.length using Nat.strongRecOn generalizing s l with
  | ind n ih =>
    subst hn
    by_cases hl : l = []
    · rw [hl]
      rfl
    · rw [run_of_ne_nil hread hl, run_of_ne_nil hread' hl, hmap hI, Option.bind_map,
        Option.map_bind]
      exact Option.bind_congr fun x hx =>
        ih _ (hread.length_lt hx) (hkeep hI hx) rfl

end

end AppXd.Records
