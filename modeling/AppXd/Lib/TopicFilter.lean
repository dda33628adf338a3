import Mathlib.Tactic.Common

/-!
# Topic filters

A filter is a list of levels, and a topic is another. Two levels of a filter are wildcards: `plus`
stands for one level of the topic, and `hash`, at the end, for all levels that are left. What the
wildcards take is a parameter: by the standard they take anything.
-/

namespace TopicFilter

variable {α : Type*} (plus hash : α)

/-- A filter whose levels are a wildcard or have none in them. The one for all levels that are left
is the last. -/
def WellFormed : List (List α) → Prop
  | [] => True
  | l :: fs => (l = [plus] ∨ l = [hash] ∧ fs = [] ∨ plus ∉ l ∧ hash ∉ l) ∧ WellFormed fs

/-- A topic fits a filter where `plus` takes the levels in `one` and `hash` what is in `many`. -/
inductive Fits (one : List α → Prop) (many : List (List α) → Prop) :
    List (List α) → List (List α) → Prop
  | nil : Fits one many [] []
  | text {l : List α} {fs ns : List (List α)} (hplus : plus ∉ l) (hhash : hash ∉ l)
      (h : Fits one many fs ns) : Fits one many (l :: fs) (l :: ns)
  | plus {n : List α} {fs ns : List (List α)} (hn : one n) (h : Fits one many fs ns) :
      Fits one many ([plus] :: fs) (n :: ns)
  | hash {ns : List (List α)} (hns : many ns) : Fits one many [[hash]] ns

/-- The wildcards take anything. -/
def Standard : List (List α) → List (List α) → Prop :=
  Fits plus hash (fun _ => True) fun _ => True

/-- The wildcards take no empty level, and `hash` takes at least one. -/
def Strict : List (List α) → List (List α) → Prop :=
  Fits plus hash (· ≠ []) fun ns => ∃ n, ns.head? = some n ∧ n ≠ []

variable {plus hash} {one one' : List α → Prop} {many many' : List (List α) → Prop}
  {fs ns : List (List α)} {l n : List α}

theorem Fits.mono (hone : ∀ n, one n → one' n) (hmany : ∀ ns, many ns → many' ns)
    (h : Fits plus hash one many fs ns) : Fits plus hash one' many' fs ns := by
  induction h with
  | nil => exact .nil
  | text hplus hhash _ ih => exact .text hplus hhash ih
  | plus hn _ ih => exact .plus (hone _ hn) ih
  | hash hns => exact .hash (hmany _ hns)

theorem Strict.standard (h : Strict plus hash fs ns) : Standard plus hash fs ns :=
  h.mono (fun _ _ => trivial) fun _ _ => trivial

/-! ## One level -/

theorem fits_text (hplus : plus ∉ l) (hhash : hash ∉ l) :
    Fits plus hash one many (l :: fs) (n :: ns) ↔ l = n ∧ Fits plus hash one many fs ns := by
  constructor
  · rintro (_ | ⟨-, -, h⟩ | h | h)
    · exact ⟨rfl, h⟩
    · exact absurd List.mem_cons_self hplus
    · exact absurd List.mem_cons_self hhash
  · rintro ⟨rfl, h⟩
    exact .text hplus hhash h

theorem fits_plus (hne : hash ≠ plus) :
    Fits plus hash one many ([plus] :: fs) (n :: ns) ↔ one n ∧ Fits plus hash one many fs ns := by
  constructor
  · intro h
    cases h with
    | text hplus => exact absurd List.mem_cons_self hplus
    | plus hn h => exact ⟨hn, h⟩
    | hash => exact absurd rfl hne
  · rintro ⟨hn, h⟩
    exact .plus hn h

theorem fits_hash (hne : hash ≠ plus) :
    Fits plus hash one many [[hash]] (n :: ns) ↔ many (n :: ns) := by
  constructor
  · intro h
    cases h with
    | text _ hhash => exact absurd List.mem_cons_self hhash
    | plus => exact absurd rfl hne
    | hash hns => exact hns
  · exact .hash

/-! ## The standard -/

/-- In the strict reading every level of the filter takes something. -/
theorem Strict.ne_nil (h : Strict plus hash (l :: fs) ns) : ns ≠ [] := by
  rintro rfl
  cases h with
  | hash hns =>
    obtain ⟨n, hn, -⟩ := hns
    cases hn

theorem Strict.not_parent (hne : hash ≠ plus) (hfs : WellFormed plus hash (fs ++ [[hash]]))
    (h : Strict plus hash (fs ++ [[hash]]) ns) : ¬ Standard plus hash fs ns := by
  induction fs generalizing ns with
  | nil =>
    rintro ⟨⟩
    exact h.ne_nil rfl
  | cons l fs ih =>
    intro h'
    cases ns with
    | nil => exact h.ne_nil rfl
    | cons n ns =>
      obtain ⟨rfl | ⟨-, hlast⟩ | ⟨hplus, hhash⟩, hfs⟩ := hfs
      · exact ih hfs ((fits_plus hne).1 h).2 ((fits_plus hne).1 h').2
      · exact absurd hlast (List.append_ne_nil_of_right_ne_nil fs (List.cons_ne_nil _ _))
      · exact ih hfs ((fits_text hplus hhash).1 h).2 ((fits_text hplus hhash).1 h').2

/-- Where no level of the topic is empty, the two readings differ only where `hash` takes nothing:
the levels in front of it are the whole topic. -/
theorem strict_iff_standard (hne : hash ≠ plus) (hfs : WellFormed plus hash fs)
    (hns : ∀ n ∈ ns, n ≠ []) : Strict plus hash fs ns ↔
      Standard plus hash fs ns ∧ ¬ ∃ fs', fs = fs' ++ [[hash]] ∧ Standard plus hash fs' ns := by
  constructor
  · intro h
    refine ⟨h.standard, ?_⟩
    rintro ⟨fs', rfl, h'⟩
    exact h.not_parent hne hfs h'
  · rintro ⟨h, hnot⟩
    unfold Standard at h
    clear hfs
    induction h with
    | nil => exact .nil
    | text hplus hhash h ih =>
      refine .text hplus hhash (ih (fun n hn => hns n (List.mem_cons_of_mem _ hn)) ?_)
      rintro ⟨fs', rfl, h'⟩
      exact hnot ⟨_ :: fs', rfl, .text hplus hhash h'⟩
    | plus hn h ih =>
      refine .plus (hns _ List.mem_cons_self)
        (ih (fun n hn => hns n (List.mem_cons_of_mem _ hn)) ?_)
      rintro ⟨fs', rfl, h'⟩
      exact hnot ⟨_ :: fs', rfl, .plus trivial h'⟩
    | @hash ns _ =>
      cases ns with
      | nil => exact absurd ⟨[], rfl, .nil⟩ hnot
      | cons n ns => exact .hash ⟨n, rfl, hns n List.mem_cons_self⟩

end TopicFilter
