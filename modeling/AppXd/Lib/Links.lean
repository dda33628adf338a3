import Mathlib.Data.List.Chain
import Mathlib.Data.List.Nodup
import Mathlib.Logic.Function.Basic
import Mathlib.Tactic.Common

/-!
# Circular doubly linked lists

The links lie in the nodes themselves. The head of a list is a node as well, and a node in no list
points at itself. `Circular l hd ns` says that `ns` are the nodes of the list with the head `hd`, in
their order.
-/

/-- The two links of every node. -/
structure Links (ν : Type*) where
  next : ν → ν
  prev : ν → ν

namespace Links

variable {ν : Type*}

/-- All nodes point at themselves. -/
def init : Links ν := ⟨id, id⟩

section
variable [DecidableEq ν]

def setNext (l : Links ν) (a b : ν) : Links ν := { l with next := Function.update l.next a b }

def setPrev (l : Links ν) (a b : ν) : Links ν := { l with prev := Function.update l.prev a b }

/-- `node` goes between two nodes that follow each other. -/
def add (l : Links ν) (node prev next : ν) : Links ν :=
  (((l.setPrev next node).setNext node next).setPrev node prev).setNext prev node

def addTail (l : Links ν) (node head : ν) : Links ν := l.add node (l.prev head) head

/-- Two nodes point at each other. -/
def join (l : Links ν) (prev next : ν) : Links ν := (l.setPrev next prev).setNext prev next

def delInit (l : Links ν) (entry : ν) : Links ν :=
  ((l.join (l.prev entry) (l.next entry)).setNext entry entry).setPrev entry entry

def isEmpty (l : Links ν) (head : ν) : Bool := l.next head = head

@[simp] theorem isEmpty_iff {l : Links ν} {a : ν} : l.isEmpty a = true ↔ l.next a = a :=
  decide_eq_true_iff

end

/-! ## Lists -/

/-- `b` comes right behind `a`. -/
def Adj (l : Links ν) (a b : ν) : Prop := l.next a = b ∧ l.prev b = a

/-- From `a` the links lead through `ns` to `b`, and back. -/
def Seg (l : Links ν) (a : ν) (ns : List ν) (b : ν) : Prop := List.IsChain l.Adj (a :: (ns ++ [b]))

structure Circular (l : Links ν) (head : ν) (ns : List ν) : Prop where
  nodup : (head :: ns).Nodup
  seg : l.Seg head ns head

section
variable {l l' : Links ν} {a b c : ν} {ns ms : List ν}

@[simp] theorem seg_nil : l.Seg a [] b ↔ l.Adj a b := by simp [Seg]

@[simp] theorem seg_cons : l.Seg a (c :: ns) b ↔ l.Adj a c ∧ l.Seg c ns b := by simp [Seg]

theorem seg_append_cons : l.Seg a (ns ++ c :: ms) b ↔ l.Seg a ns c ∧ l.Seg c ms b := by
  unfold Seg
  rw [List.append_assoc, List.cons_append, ← List.cons_append, List.isChain_split,
    List.cons_append]

/-- A stretch is made of the forward links of all its nodes but the last and of the backward links
of all but the first. -/
theorem Seg.congr (h : l.Seg a ns b) (hnext : ∀ x ∈ a :: ns, l'.next x = l.next x)
    (hprev : ∀ x ∈ ns ++ [b], l'.prev x = l.prev x) : l'.Seg a ns b := by
  induction ns generalizing a with
  | nil =>
    rw [seg_nil] at h ⊢
    exact ⟨(hnext a List.mem_cons_self).trans h.1, (hprev b (by simp)).trans h.2⟩
  | cons c ns ih =>
    rw [seg_cons] at h ⊢
    refine ⟨⟨(hnext a List.mem_cons_self).trans h.1.1, (hprev c (by simp)).trans h.1.2⟩, ?_⟩
    apply ih h.2
    · intro x hx
      exact hnext x (List.mem_cons_of_mem a hx)
    · intro x hx
      exact hprev x (List.mem_cons_of_mem c hx)

/-- The links of a stretch fix its nodes. -/
theorem Seg.unique (h : l.Seg a ns b) (h' : l.Seg a ms b) (hns : b ∉ ns) (hms : b ∉ ms) :
    ns = ms := by
  induction ns generalizing a ms with
  | nil =>
    cases ms with
    | nil => rfl
    | cons d ms =>
      rw [seg_nil] at h
      rw [seg_cons] at h'
      have hd : d = b := h'.1.1.symm.trans h.1
      exact absurd (hd ▸ List.mem_cons_self) hms
  | cons c ns ih =>
    rw [seg_cons] at h
    cases ms with
    | nil =>
      rw [seg_nil] at h'
      have hc : c = b := h.1.1.symm.trans h'.1
      exact absurd (hc ▸ List.mem_cons_self) hns
    | cons d ms =>
      rw [seg_cons] at h'
      have hcd : c = d := h.1.1.symm.trans h'.1.1
      subst hcd
      rw [ih h.2 h'.2 (fun hb => hns (List.mem_cons_of_mem c hb))
        (fun hb => hms (List.mem_cons_of_mem c hb))]

theorem Circular.unique (h : l.Circular a ns) (h' : l.Circular a ms) : ns = ms :=
  h.seg.unique h'.seg (List.nodup_cons.1 h.nodup).1 (List.nodup_cons.1 h'.nodup).1

theorem circular_nil_iff : l.Circular a [] ↔ l.Adj a a :=
  ⟨fun h => seg_nil.1 h.seg, fun h => ⟨List.nodup_singleton a, seg_nil.2 h⟩⟩

theorem circular_init : (init : Links ν).Circular a [] := circular_nil_iff.2 ⟨rfl, rfl⟩

theorem Circular.next_head (h : l.Circular a (c :: ns)) : l.next a = c := (seg_cons.1 h.seg).1.1

/-- A node of a list does not point at itself. -/
theorem Circular.next_ne (h : l.Circular a ns) (hc : c ∈ ns) : l.next c ≠ c := by
  obtain ⟨as, bs, rfl⟩ := List.append_of_mem hc
  have hnodup := h.nodup
  have hseg := (seg_append_cons.1 h.seg).2
  cases bs with
  | nil =>
    rw [(seg_nil.1 hseg).1]
    rintro rfl
    simp at hnodup
  | cons d bs =>
    rw [(seg_cons.1 hseg).1.1]
    rintro rfl
    simp [List.nodup_append] at hnodup

/-- `a` is in the list with the head `head`, and in one place only. -/
def OnceIn [DecidableEq ν] (l : Links ν) (head a : ν) : Prop :=
  ∃ ns, l.Circular head ns ∧ ns.count a = 1

theorem Circular.onceIn_iff [DecidableEq ν] (h : l.Circular a ns) :
    l.OnceIn a c ↔ c ∈ ns := by
  constructor
  · rintro ⟨ms, hms, hcount⟩
    rw [h.unique hms]
    exact List.count_pos_iff.1 (hcount ▸ Nat.one_pos)
  · intro hc
    exact ⟨ns, h, List.count_eq_one_of_mem (List.nodup_cons.1 h.nodup).2 hc⟩

/-- A list is empty where its head points at itself. -/
theorem Circular.next_head_eq_iff (h : l.Circular a ns) : l.next a = a ↔ ns = [] := by
  cases ns with
  | nil => exact iff_of_true (circular_nil_iff.1 h).1 rfl
  | cons c ns =>
    rw [h.next_head]
    refine iff_of_false (fun hca => ?_) (List.cons_ne_nil c ns)
    exact (List.nodup_cons.1 h.nodup).1 (hca ▸ List.mem_cons_self)

/-- The last node of a list, or its head. -/
theorem Circular.prev_head_mem (h : l.Circular a ns) : l.prev a ∈ a :: ns := by
  rcases ns.eq_nil_or_concat' with rfl | ⟨as, z, rfl⟩
  · rw [(circular_nil_iff.1 h).2]
    exact List.mem_cons_self
  · rw [(seg_nil.1 (seg_append_cons.1 h.seg).2).2]
    simp

theorem Circular.prev_mem (h : l.Circular a ns) (hc : c ∈ ns) : l.prev c ∈ a :: ns := by
  obtain ⟨as, bs, rfl⟩ := List.append_of_mem hc
  have hpre := (seg_append_cons.1 h.seg).1
  rcases as.eq_nil_or_concat' with rfl | ⟨as, p, rfl⟩
  · rw [(seg_nil.1 hpre).2]
    exact List.mem_cons_self
  · rw [(seg_nil.1 (seg_append_cons.1 hpre).2).2]
    simp

end

/-! ## Insertion and deletion -/

section
variable [DecidableEq ν] {l : Links ν} {hd x y : ν} {ns : List ν}

theorem Circular.addTail (h : l.Circular hd ns) (hx : x ∉ hd :: ns) :
    (l.addTail x hd).Circular hd (ns ++ [x]) := by
  obtain ⟨hnodup, hseg⟩ := h
  refine ⟨by grind, ?_⟩
  rcases ns.eq_nil_or_concat' with rfl | ⟨as, z, rfl⟩
  · rw [seg_nil] at hseg
    simp only [List.nil_append, seg_cons, seg_nil, Adj, Links.addTail, add, setNext, setPrev,
      hseg.2]
    grind
  · obtain ⟨hpre, hz⟩ := seg_append_cons.1 hseg
    rw [seg_nil] at hz
    rw [List.append_assoc, List.singleton_append, seg_append_cons]
    constructor
    · -- in front of the last node nothing changes
      apply hpre.congr <;> simp only [Links.addTail, add, setNext, setPrev, hz.2] <;> grind
    · simp only [seg_cons, seg_nil, Adj, Links.addTail, add, setNext, setPrev, hz.2]
      grind

theorem Circular.delInit (h : l.Circular hd ns) (hx : x ∈ ns) :
    (l.delInit x).Circular hd (ns.filter (· ≠ x)) := by
  obtain ⟨as, bs, rfl⟩ := List.append_of_mem hx
  obtain ⟨hnodup, hseg⟩ := h
  rw [List.filter_append, List.filter_cons_of_neg (by simp), List.filter_eq_self.2 (by grind),
    List.filter_eq_self.2 (by grind)]
  refine ⟨by grind, ?_⟩
  obtain ⟨hpre, hpost⟩ := seg_append_cons.1 hseg
  simp only [List.nodup_cons, List.nodup_append, List.mem_append, List.mem_cons] at hnodup
  -- the two neighbours may be nodes of the list or its head
  rcases as.eq_nil_or_concat' with rfl | ⟨as, p, rfl⟩
  · rw [seg_nil] at hpre
    cases bs with
    | nil =>
      rw [seg_nil] at hpost
      simp only [List.append_nil, seg_nil, Adj, Links.delInit, join, setNext, setPrev, hpre.2,
        hpost.1]
      grind
    | cons n bs =>
      rw [seg_cons] at hpost
      rw [List.nil_append, seg_cons]
      constructor
      · simp only [Adj, Links.delInit, join, setNext, setPrev, hpre.2, hpost.1.1]
        grind
      · apply hpost.2.congr <;>
          simp only [Links.delInit, join, setNext, setPrev, hpre.2, hpost.1.1] <;> grind
  · obtain ⟨hpre, hp⟩ := seg_append_cons.1 hpre
    rw [seg_nil] at hp
    rw [List.append_assoc, List.singleton_append, seg_append_cons]
    cases bs with
    | nil =>
      rw [seg_nil] at hpost
      constructor
      · apply hpre.congr <;>
          simp only [Links.delInit, join, setNext, setPrev, hp.2, hpost.1] <;> grind
      · simp only [seg_nil, Adj, Links.delInit, join, setNext, setPrev, hp.2, hpost.1]
        grind
    | cons n bs =>
      rw [seg_cons] at hpost
      rw [seg_cons]
      refine ⟨?_, ?_, ?_⟩
      · apply hpre.congr <;>
          simp only [Links.delInit, join, setNext, setPrev, hp.2, hpost.1.1] <;> grind
      · simp only [Adj, Links.delInit, join, setNext, setPrev, hp.2, hpost.1.1]
        grind
      · apply hpost.2.congr <;>
          simp only [Links.delInit, join, setNext, setPrev, hp.2, hpost.1.1] <;> grind

/-- An insertion leaves the forward links of the nodes outside of the list. -/
theorem Circular.next_addTail (h : l.Circular hd ns) (hy : y ∉ hd :: ns) (hyx : y ≠ x) :
    (l.addTail x hd).next y = l.next y := by
  have hprev : y ≠ l.prev hd := fun heq => hy (heq ▸ h.prev_head_mem)
  simp [Links.addTail, add, setNext, setPrev, hprev, hyx]

theorem Circular.next_delInit (h : l.Circular hd ns) (hx : x ∈ ns) (hy : y ∉ hd :: ns) :
    (l.delInit x).next y = l.next y := by
  have hprev : y ≠ l.prev x := fun heq => hy (heq ▸ h.prev_mem hx)
  have hyx : y ≠ x := fun heq => hy (heq ▸ List.mem_cons_of_mem hd hx)
  simp [Links.delInit, join, setNext, setPrev, hprev, hyx]

@[simp] theorem next_delInit_self : (l.delInit x).next x = x := by
  simp [Links.delInit, setNext, setPrev]

end

end Links
