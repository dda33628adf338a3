import AppXd.Lib.CString
import Mathlib.Data.List.DropRight

/-!
# Strings held in a memory, and what is trimmed of them

`Holds data ram p s` says that the string `s` with its terminator stands from the cell `p` on. What
`strstr` finds and how far it reads is then a matter of `s` alone.

`trim p l` is `l` without the bytes at both ends that satisfy `p`.
-/

namespace CStr

/-- The string `s` and a NUL behind it stand in the readable cells from `p` on. -/
structure Holds (data : Nat → UInt8) (ram p : Nat) (s : List UInt8) : Prop where
  noNul : 0 ∉ s
  cell : ∀ i (h : i < s.length), data (p + i) = s[i]
  stop : data (p + s.length) = 0
  lt : p + s.length < ram

section
variable {data : Nat → UInt8} {ram p : Nat} {s : List UInt8}

theorem Holds.drop (h : Holds data ram p s) {k : Nat} (hk : k ≤ s.length) :
    Holds data ram (p + k) (s.drop k) := by
  have hend : p + k + (s.drop k).length = p + s.length := by
    rw [List.length_drop]
    omega
  refine ⟨fun h0 => h.noNul (List.mem_of_mem_drop h0), fun i hi => ?_, ?_, ?_⟩
  · rw [List.length_drop] at hi
    rw [List.getElem_drop, Nat.add_assoc]
    exact h.cell (k + i) (by omega)
  · rw [hend]
    exact h.stop
  · rw [hend]
    exact h.lt

/-- A string that is written with its terminator, and with `t` behind it. -/
theorem Holds.blit_cons (data : Nat → UInt8) (p : Nat) (h0 : 0 ∉ s) (t : List UInt8) :
    Holds (Ring.blit data p (s ++ 0 :: t)) (p + s.length + 1) p s := by
  refine ⟨h0, fun i hi => ?_, ?_, Nat.lt_succ_self _⟩
  · have hcell : some (Ring.blit data p (s ++ 0 :: t) (p + i)) = (s ++ 0 :: t)[i]? :=
      Ring.blit_add (by simp; omega)
    rw [List.getElem?_append_left hi, List.getElem?_eq_getElem hi] at hcell
    exact Option.some.inj hcell
  · have hcell : some (Ring.blit data p (s ++ 0 :: t) (p + s.length)) = (s ++ 0 :: t)[s.length]? :=
      Ring.blit_add (by simp)
    rw [List.getElem?_append_right (Nat.le_refl _), Nat.sub_self] at hcell
    exact Option.some.inj hcell

/-- A string that is written with its terminator. -/
theorem Holds.blit (data : Nat → UInt8) (p : Nat) (h0 : 0 ∉ s) :
    Holds (Ring.blit data p (s ++ [0])) (p + s.length + 1) p s := .blit_cons data p h0 []

theorem Holds.length_le {ram' : Nat} {s' : List UInt8} (h : Holds data ram p s)
    (h' : Holds data ram' p s') : s.length ≤ s'.length := by
  by_contra hlt
  rw [Nat.not_le] at hlt
  have hcell := h.cell _ hlt
  rw [h'.stop] at hcell
  exact h.noNul (hcell ▸ List.getElem_mem hlt)

/-- A memory holds one string from a cell on. -/
theorem Holds.unique {ram' : Nat} {s' : List UInt8} (h : Holds data ram p s)
    (h' : Holds data ram' p s') : s = s' :=
  List.ext_getElem (Nat.le_antisymm (h.length_le h') (h'.length_le h)) fun i hi hi' => by
    rw [← h.cell i hi, h'.cell i hi']

theorem Holds.ne_zero {b : UInt8} (h : Holds data ram p (b :: s)) : data p ≠ 0 := by
  have hcell : data p = b := h.cell 0 (Nat.zero_lt_succ _)
  rw [hcell]
  rintro rfl
  exact h.noNul List.mem_cons_self

theorem Holds.cells (h : Holds data ram p s) {n : Nat} (hn : n ≤ s.length) :
    Ring.cells data p (p + n) = s.take n := by
  refine List.ext_getElem (by simp [hn]) fun i hi hi' => ?_
  rw [Ring.length_cells, Nat.add_sub_cancel_left] at hi
  have hcell := Ring.getElem?_cells data (a := p) (b := p + n) (k := i) (by omega)
  rw [List.getElem_take, ← h.cell i (by omega)]
  exact (List.getElem?_eq_some_iff.1 hcell).2

theorem Holds.text (h : Holds data ram p s) : text data ram p = s := by
  have hlt := h.lt
  have hstop : Ring.cells data (p + s.length) ram = 0 :: Ring.cells data (p + s.length + 1) ram := by
    rw [← Ring.cells_append data (b := p + s.length + 1) (by omega) (by omega)]
    simp [Ring.cells, h.stop]
  unfold CStr.text
  rw [← Ring.cells_append data (b := p + s.length) (by omega) hlt.le, hstop, h.cells (Nat.le_refl _),
    List.take_length]
  refine takeWhile_append_stop (fun b hb => decide_eq_true ?_) (by simp)
  rintro rfl
  exact h.noNul hb

theorem Holds.strstr (h : Holds data ram p s) (key : List UInt8) :
    strstr data ram p key = (Seq.firstAt key s).map (p + ·) := by
  unfold CStr.strstr
  rw [h.text]

/-- `strstr` reads no further than the terminator. -/
theorem Holds.strstrEnd_le (h : Holds data ram p s) (key : List UInt8) :
    strstrEnd data ram p key ≤ p + s.length + 1 := by
  unfold CStr.strstrEnd
  rw [h.strstr]
  cases hk : Seq.firstAt key s with
  | none =>
    simp only [Option.map_none, textEnd, h.text]
    exact Nat.le_refl _
  | some k =>
    obtain ⟨ho, hle, -⟩ := Seq.firstAt_eq_some_iff.1 hk
    have hlen := List.IsPrefix.length_le ho
    rw [List.length_drop] at hlen
    simp only [Option.map_some]
    omega

end

end CStr

/-! ## Trimming -/

namespace Seq

variable {α : Type*} (p : α → Bool)

/-- How many elements at the front satisfy `p`. -/
def lead (l : List α) : Nat := (l.takeWhile p).length

/-- How many elements at the end satisfy `p`. -/
def trail (l : List α) : Nat := (l.rtakeWhile p).length

def trim (l : List α) : List α := (l.dropWhile p).rdropWhile p

variable {p} {l : List α}

theorem lead_le (l : List α) : lead p l ≤ l.length := (List.takeWhile_sublist p).length_le

theorem trail_le (l : List α) : trail p l ≤ l.length := (List.rtakeWhile_suffix p l).length_le

theorem dropWhile_eq_drop (l : List α) : l.dropWhile p = l.drop (lead p l) := by
  have h := congrArg (List.drop (lead p l)) (List.takeWhile_append_dropWhile (p := p) (l := l))
  rwa [lead, List.drop_left, ← lead] at h

theorem rdropWhile_eq_take (l : List α) : l.rdropWhile p = l.take (l.length - trail p l) := by
  have h := List.rdropWhile_append_rtakeWhile (p := p) (l := l)
  have hlen := congrArg List.length h
  rw [List.length_append] at hlen
  have hpre : l.length - trail p l = (l.rdropWhile p).length := by
    unfold trail
    omega
  rw [hpre]
  exact (List.prefix_iff_eq_take.1 (List.rdropWhile_prefix p l))

theorem lead_eq_length_iff : lead p l = l.length ↔ ∀ x ∈ l, p x = true := by
  rw [← List.takeWhile_eq_self_iff]
  exact ⟨fun h => (List.takeWhile_sublist p).eq_of_length h, fun h => congrArg List.length h⟩

theorem trail_eq_length_iff : trail p l = l.length ↔ ∀ x ∈ l, p x = true := by
  rw [← List.rtakeWhile_eq_self_iff]
  exact ⟨fun h => (List.rtakeWhile_suffix p l).eq_of_length h, fun h => congrArg List.length h⟩

theorem trail_append_singleton (l : List α) (x : α) :
    trail p (l ++ [x]) = if p x = true then trail p l + 1 else 0 := by
  unfold trail
  split
  · rename_i h
    rw [List.rtakeWhile_concat_pos _ _ _ h, List.length_append, List.length_singleton]
  · rename_i h
    rw [List.rtakeWhile_concat_neg _ _ _ h, List.length_nil]

/-- Counting stops at an element that does not satisfy `p`. -/
theorem trail_append_cons_le (l : List α) {x : α} (t : List α) (hx : ¬ p x = true) :
    trail p (l ++ x :: t) ≤ t.length := by
  induction t using List.reverseRecOn with
  | nil =>
    rw [trail_append_singleton, if_neg hx]
    exact Nat.le_refl _
  | append_singleton t y ih =>
    rw [← List.cons_append, ← List.append_assoc, trail_append_singleton, List.length_append,
      List.length_singleton]
    split
    · exact Nat.succ_le_succ ih
    · exact Nat.zero_le _

theorem lead_append {s : List α} (t : List α) (h : lead p s = s.length) :
    lead p (s ++ t) = s.length + lead p t := by
  unfold lead
  rw [List.takeWhile_append_of_pos (lead_eq_length_iff.1 h), List.length_append]

theorem lead_take (l : List α) (n : Nat) : lead p (l.take n) = min n (lead p l) := by
  induction l generalizing n with
  | nil => simp [lead]
  | cons x l ih =>
    cases n with
    | zero => simp [lead]
    | succ n =>
      unfold lead at ih ⊢
      rw [List.take_succ_cons, List.takeWhile_cons, List.takeWhile_cons]
      split
      · rw [List.length_cons, List.length_cons, ih, Nat.add_min_add_right]
      · rw [List.length_nil, Nat.min_zero]

theorem lead_append_of_lt {s : List α} (t : List α) (h : lead p s < s.length) :
    lead p (s ++ t) = lead p s := by
  have htake := lead_take (p := p) (s ++ t) s.length
  rw [List.take_left] at htake
  omega

theorem lead_eq_zero (h : ∀ x ∈ l.head?, p x = false) : lead p l = 0 := by
  cases l with
  | nil => rfl
  | cons x l =>
    unfold lead
    rw [List.takeWhile_cons_of_neg (by rw [h x rfl]; decide)]
    rfl

/-- The first element that is not counted does not satisfy `p`. -/
theorem getElem_lead (h : lead p l < l.length) : p l[lead p l] = false := by
  have hne : l.dropWhile p ≠ [] := by
    rw [dropWhile_eq_drop]
    intro hnil
    have := congrArg List.length hnil
    rw [List.length_drop, List.length_nil] at this
    omega
  have hhead := List.head_dropWhile_not p hne
  have hget : (l.dropWhile p).head hne = l[lead p l] := by
    rw [List.head_eq_getElem]
    simp only [dropWhile_eq_drop, List.getElem_drop, Nat.add_zero]
  rwa [hget] at hhead

theorem getElem_lt_lead {i : Nat} (h : i < lead p l) (hi : i < l.length) : p l[i] = true := by
  have hget := (List.takeWhile_prefix p).getElem h
  rw [← hget]
  exact List.mem_takeWhile_imp (List.getElem_mem h)

theorem trim_eq_take (l : List α) :
    trim p l = (l.drop (lead p l)).take (l.length - lead p l - trail p (l.drop (lead p l))) := by
  rw [trim, dropWhile_eq_drop, rdropWhile_eq_take, List.length_drop]

theorem trim_eq_nil_iff : trim p l = [] ↔ ∀ x ∈ l, p x = true := by
  constructor
  · intro h
    rw [← lead_eq_length_iff]
    by_contra hne
    have hlt := Nat.lt_of_le_of_ne (lead_le l) hne
    have hall := List.rdropWhile_eq_nil_iff.1 h
    have hmem : l[lead p l] ∈ l.dropWhile p := by
      rw [dropWhile_eq_drop, List.mem_iff_getElem]
      exact ⟨0, by rw [List.length_drop]; omega, by rw [List.getElem_drop]; rfl⟩
    have := hall _ hmem
    rw [getElem_lead hlt] at this
    cases this
  · intro h
    have hnil : l.dropWhile p = [] := List.dropWhile_eq_nil_iff.2 h
    rw [trim, hnil, List.rdropWhile_nil]

/-- Nothing is trimmed of a list whose ends do not satisfy `p`. -/
theorem trim_eq_self_iff (l : List α) :
    trim p l = l ↔ (∀ x ∈ l.head?, p x = false) ∧ ∀ x ∈ l.getLast?, p x = false := by
  have hhead : l.dropWhile p = l ↔ ∀ x ∈ l.head?, p x = false := by
    cases l with
    | nil => exact iff_of_true rfl fun x hx => by cases hx
    | cons x l =>
      rw [List.dropWhile_eq_self_iff]
      constructor
      · rintro h y ⟨⟩
        exact Bool.not_eq_true _ ▸ h (Nat.succ_pos _)
      · intro h _
        rw [Bool.not_eq_true]
        exact h x rfl
  have hlast : l.rdropWhile p = l ↔ ∀ x ∈ l.getLast?, p x = false := by
    rw [List.rdropWhile_eq_self_iff]
    constructor
    · intro h x hx
      obtain ⟨hne, rfl⟩ := List.mem_getLast?_eq_getLast hx
      exact Bool.not_eq_true _ ▸ h hne
    · intro h hne
      rw [Bool.not_eq_true]
      exact h _ (List.getLast?_eq_some_getLast hne)
  rw [← hhead, ← hlast]
  constructor
  · intro h
    have hdrop : l.dropWhile p = l := by
      refine (List.dropWhile_suffix p).eq_of_length_le ?_
      have hle := (List.rdropWhile_prefix p (l.dropWhile p)).length_le
      have hlen := congrArg List.length h
      unfold trim at hlen
      omega
    unfold trim at h
    rw [hdrop] at h
    exact ⟨hdrop, h⟩
  · rintro ⟨h1, h2⟩
    rw [trim, h1, h2]

/-- What is trimmed at both ends of a list that keeps its own ends. -/
theorem trim_append {s l t : List α} (hs : ∀ x ∈ s, p x = true) (ht : ∀ x ∈ t, p x = true)
    (hne : l ≠ []) (hl : trim p l = l) : trim p (s ++ (l ++ t)) = l := by
  obtain ⟨hhead, hlast⟩ := (trim_eq_self_iff l).1 hl
  have hdrop : (l ++ t).dropWhile p = l ++ t := by
    cases l with
    | nil => exact absurd rfl hne
    | cons x l => exact List.dropWhile_cons_of_neg (by rw [hhead x rfl]; decide)
  have hrdrop : (l ++ t).rdropWhile p = l.rdropWhile p := by
    unfold List.rdropWhile
    rw [List.reverse_append, List.dropWhile_append_of_pos fun x hx => ht x (List.mem_reverse.1 hx)]
  have hkeep : l.rdropWhile p = l := by
    refine List.rdropWhile_eq_self_iff.2 fun hne => ?_
    rw [Bool.not_eq_true]
    exact hlast _ (List.getLast?_eq_some_getLast hne)
  rw [trim, List.dropWhile_append_of_pos hs, hdrop, hrdrop, hkeep]

end Seq
