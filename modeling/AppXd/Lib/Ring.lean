import Mathlib.Data.List.Infix
import Mathlib.Tactic.Common

/-!
# Ring buffers over a flat memory

A memory is a function from cell numbers to values; a ring of `n` cells occupies the cells
`0, …, n - 1` of it. `window data n head tail` lists the cells from `head` up to, not including,
`tail`, going round the end of the ring when `tail` lies before `head`. The head may stand on the
cell number `n` itself, one past the ring, which reads the same as the cell `0`.

`blit` writes a list into consecutive cells. The two facts the users of a ring need are
`window_drop` (advancing the head drops from the front) and `window_blit_flat` with
`window_blit_wrap` (a write at the tail appends).
-/

namespace Ring

variable {α : Type*}

/-- The cells from `a` up to, not including, `b`. -/
def cells (data : Nat → α) (a b : Nat) : List α := (List.range' a (b - a)).map data

@[simp] theorem length_cells (data : Nat → α) (a b : Nat) : (cells data a b).length = b - a := by
  simp [cells]

theorem getElem?_cells (data : Nat → α) {a b k : Nat} (h : a + k < b) :
    (cells data a b)[k]? = some (data (a + k)) := by
  simp [cells, show k < b - a by omega]

@[simp] theorem cells_self (data : Nat → α) (a : Nat) : cells data a a = [] := by simp [cells]

theorem cells_append (data : Nat → α) {a b c : Nat} (hab : a ≤ b) (hbc : b ≤ c) :
    cells data a b ++ cells data b c = cells data a c := by
  have h := List.range'_append_1 (s := a) (m := b - a) (n := c - b)
  rw [show a + (b - a) = b by omega, show b - a + (c - b) = c - a by omega] at h
  simp only [cells, ← List.map_append, h]

theorem cells_succ (data : Nat → α) (n : Nat) : cells data 0 (n + 1) = cells data 0 n ++ [data n] := by
  rw [← cells_append data (Nat.zero_le n) (Nat.le_succ n)]
  unfold cells
  rw [Nat.succ_sub (Nat.le_refl n), Nat.sub_self]
  rfl

theorem cells_congr {data data' : Nat → α} {a b : Nat}
    (h : ∀ i, a ≤ i → i < b → data' i = data i) : cells data' a b = cells data a b := by
  refine List.map_congr_left fun i hi => ?_
  rw [List.mem_range'_1] at hi
  exact h i hi.1 (by omega)

theorem mem_cells {data : Nat → α} {a b : Nat} {x : α} :
    x ∈ cells data a b ↔ ∃ i, a ≤ i ∧ i < b ∧ data i = x := by
  simp only [cells, List.mem_map, List.mem_range'_1]
  constructor
  · rintro ⟨i, ⟨h1, h2⟩, rfl⟩; exact ⟨i, h1, by omega, rfl⟩
  · rintro ⟨i, h1, h2, rfl⟩; exact ⟨i, ⟨h1, by omega⟩, rfl⟩

/-! ## The window -/

/-- The cell with number `i` when counting goes on past the end of the ring. -/
def wrap (n i : Nat) : Nat := if i < n then i else i - n

/-- Number of cells in the window. -/
def unread (n head tail : Nat) : Nat := if head ≤ tail then tail - head else n - head + tail

/-- The cells from `head` to `tail` along the ring. -/
def window (data : Nat → α) (n head tail : Nat) : List α :=
  if head ≤ tail then cells data head tail else cells data head n ++ cells data 0 tail

theorem unread_of_le {n head tail : Nat} (h : head ≤ tail) : unread n head tail = tail - head :=
  if_pos h

theorem unread_of_lt {n head tail : Nat} (h : tail < head) :
    unread n head tail = n - head + tail := if_neg (Nat.not_le.2 h)

theorem unread_cases (n head tail : Nat) :
    head ≤ tail ∧ unread n head tail = tail - head ∨
      tail < head ∧ unread n head tail = n - head + tail := by
  rcases Nat.lt_or_ge tail head with h | h
  · exact .inr ⟨h, unread_of_lt h⟩
  · exact .inl ⟨h, unread_of_le h⟩

theorem wrap_cases (n i : Nat) : i < n ∧ wrap n i = i ∨ n ≤ i ∧ wrap n i = i - n := by
  rcases Nat.lt_or_ge i n with h | h
  · exact .inl ⟨h, if_pos h⟩
  · exact .inr ⟨h, if_neg (Nat.not_lt.2 h)⟩

/-- The number of a cell of the window. -/
theorem unread_wrap {n head tail k : Nat} (hh : head ≤ n) (ht : tail < n)
    (hk : k < unread n head tail) : unread n head (wrap n (head + k)) = k := by
  have hun := unread_cases n head tail
  have hwrap := wrap_cases n (head + k)
  have hun' := unread_cases n head (wrap n (head + k))
  omega

@[simp] theorem length_window (data : Nat → α) (n head tail : Nat) :
    (window data n head tail).length = unread n head tail := by
  unfold window unread; split <;> simp

@[simp] theorem window_self (data : Nat → α) (n a : Nat) : window data n a a = [] := by
  simp [window]

theorem window_of_le {data : Nat → α} {n head tail : Nat} (h : head ≤ tail) :
    window data n head tail = cells data head tail := if_pos h

theorem window_of_lt {data : Nat → α} {n head tail : Nat} (h : tail < head) :
    window data n head tail = cells data head n ++ cells data 0 tail :=
  if_neg (Nat.not_le.2 h)

theorem getElem?_window {data : Nat → α} {n head tail k : Nat} (hh : head ≤ n) (ht : tail < n)
    (hk : k < unread n head tail) :
    (window data n head tail)[k]? = some (data (wrap n (head + k))) := by
  unfold wrap
  rcases Nat.lt_or_ge tail head with hlt | hle
  · rw [unread_of_lt hlt] at hk
    rw [window_of_lt hlt]
    by_cases hu : head + k < n
    · rw [List.getElem?_append_left (by simp; omega), getElem?_cells _ hu, if_pos hu]
    · rw [List.getElem?_append_right (by simp; omega), length_cells, if_neg hu,
        getElem?_cells _ (by omega)]
      congr 2; omega
  · rw [unread_of_le hle] at hk
    rw [window_of_le hle, getElem?_cells _ (by omega), if_pos (by omega)]

/-- A list is the window as soon as it has its length and its cells. -/
theorem eq_window {data : Nat → α} {n head tail : Nat} {l : List α} (hh : head ≤ n) (ht : tail < n)
    (hl : l.length = unread n head tail)
    (hc : ∀ k < l.length, l[k]? = some (data (wrap n (head + k)))) :
    window data n head tail = l := by
  refine List.ext_getElem? fun k => ?_
  by_cases hk : k < l.length
  · rw [getElem?_window hh ht (by omega), hc k hk]
  · rw [List.getElem?_eq_none (by simp; omega), List.getElem?_eq_none (by omega)]

/-- A window ends where another one begins. -/
theorem window_append {data : Nat → α} {n head tail p mid : Nat} (hh : head ≤ n)
    (hp : p ≤ unread n head tail) (hm : mid ≤ n)
    (hmid : mid = head + p ∨ mid + n = head + p ∧ tail < head) :
    window data n head mid ++ window data n mid tail = window data n head tail := by
  rcases unread_cases n head tail with ⟨hle, hun⟩ | ⟨hlt, hun⟩
  · rw [window_of_le hle, window_of_le (by omega), window_of_le (by omega)]
    exact cells_append data (by omega) (by omega)
  rw [window_of_lt hlt]
  rcases hmid with rfl | ⟨hmid, -⟩
  · rw [window_of_le (Nat.le_add_right ..), window_of_lt (by omega), ← List.append_assoc,
      cells_append data (Nat.le_add_right ..) hm]
  · rw [window_of_lt (by omega), window_of_le (by omega), List.append_assoc,
      cells_append data (Nat.zero_le _) (by omega)]

/-- The first `p` cells of a window. -/
theorem window_take {data : Nat → α} {n head tail p mid : Nat} (hh : head ≤ n)
    (hp : p ≤ unread n head tail) (hm : mid ≤ n)
    (hmid : mid = head + p ∨ mid + n = head + p ∧ tail < head) :
    window data n head mid = (window data n head tail).take p := by
  have hlen : (window data n head mid).length = p := by
    have hun := unread_cases n head tail
    have hun' := unread_cases n head mid
    rw [length_window]
    omega
  rw [← window_append hh hp hm hmid, List.take_left' hlen]

/-- Advancing the head by `p` drops `p` cells. The new head is given by either of the two numbers
of its cell. -/
theorem window_drop {data : Nat → α} {n head tail p head' : Nat} (hh : head ≤ n) (ht : tail < n)
    (hp : p ≤ unread n head tail) (hh' : head' ≤ n)
    (h : head' = head + p ∨ head' + n = head + p ∧ tail < head) :
    window data n head' tail = (window data n head tail).drop p := by
  have hlen : unread n head' tail = unread n head tail - p ∧
      ∀ k < unread n head tail - p, wrap n (head' + k) = wrap n (head + (p + k)) := by
    unfold wrap
    rcases Nat.lt_or_ge tail head with hlt | hle
    · rw [unread_of_lt hlt] at hp ⊢
      rcases Nat.lt_or_ge tail head' with hlt' | hle'
      · rw [unread_of_lt hlt']
        exact ⟨by omega, fun k hk => by split <;> split <;> omega⟩
      · rw [unread_of_le hle']
        exact ⟨by omega, fun k hk => by split <;> split <;> omega⟩
    · rw [unread_of_le hle] at hp ⊢
      rw [unread_of_le (by omega)]
      exact ⟨by omega, fun k hk => by split <;> split <;> omega⟩
  refine eq_window hh' ht (by simpa using hlen.1.symm) fun k hk => ?_
  rw [List.length_drop, length_window] at hk
  rw [List.getElem?_drop, getElem?_window hh ht (by omega), hlen.2 k hk]

/-! ## Writing -/

/-- Write `bs` into the cells from `at_` on. -/
def blit (data : Nat → α) (at_ : Nat) (bs : List α) : Nat → α :=
  fun i => if i < at_ then data i else (bs[i - at_]?).getD (data i)

theorem blit_of_lt {data : Nat → α} {a i : Nat} {bs : List α} (h : i < a) :
    blit data a bs i = data i := if_pos h

theorem blit_of_ge {data : Nat → α} {a i : Nat} {bs : List α} (h : a + bs.length ≤ i) :
    blit data a bs i = data i := by
  unfold blit; split
  · rfl
  · rw [List.getElem?_eq_none (by omega)]; rfl

theorem blit_add {data : Nat → α} {a k : Nat} {bs : List α} (h : k < bs.length) :
    some (blit data a bs (a + k)) = bs[k]? := by
  unfold blit
  rw [if_neg (by omega), Nat.add_sub_cancel_left, List.getElem?_eq_getElem h]; rfl

/-- Write one cell. -/
def poke (data : Nat → α) (a : Nat) (x : α) : Nat → α := fun i => if i = a then x else data i

@[simp] theorem poke_self (data : Nat → α) (a : Nat) (x : α) : poke data a x a = x := if_pos rfl

theorem poke_of_ne {data : Nat → α} {a i : Nat} {x : α} (h : i ≠ a) : poke data a x i = data i :=
  if_neg h

theorem blit_nil (data : Nat → α) (a : Nat) : blit data a [] = data := by
  funext i
  exact ite_self _

/-- Writing a list is writing its head and then the rest behind it. -/
theorem blit_cons (data : Nat → α) (a : Nat) (x : α) (bs : List α) :
    blit data a (x :: bs) = blit (poke data a x) (a + 1) bs := by
  funext i
  obtain hi | rfl | hi := Nat.lt_trichotomy i a
  · rw [blit_of_lt hi, blit_of_lt (Nat.lt_succ_of_lt hi), poke_of_ne (Nat.ne_of_lt hi)]
  · rw [blit_of_lt (Nat.lt_succ_self i), poke_self]
    exact Option.some.inj (blit_add (k := 0) (Nat.zero_lt_succ _))
  · obtain ⟨k, rfl⟩ := Nat.exists_eq_add_of_lt hi
    unfold blit
    rw [if_neg (by omega), if_neg (by omega), poke_of_ne (by omega),
      show a + k + 1 - a = k + 1 by omega, show a + k + 1 - (a + 1) = k by omega,
      List.getElem?_cons_succ]

/-- Writing two lists, one behind the other. -/
theorem blit_append (data : Nat → α) (a : Nat) (bs cs : List α) :
    blit data a (bs ++ cs) = blit (blit data a bs) (a + bs.length) cs := by
  induction bs generalizing data a with
  | nil => rw [blit_nil, List.nil_append, List.length_nil, Nat.add_zero]
  | cons b bs ih =>
    rw [List.cons_append, blit_cons, blit_cons, ih, List.length_cons, Nat.add_right_comm,
      Nat.add_assoc]

/-- The cells that have been written. -/
theorem cells_blit (data : Nat → α) (a : Nat) (bs : List α) :
    cells (blit data a bs) a (a + bs.length) = bs := by
  refine List.ext_getElem? fun i => ?_
  rcases Nat.lt_or_ge i bs.length with hi | hi
  · rw [getElem?_cells _ (by omega), blit_add hi]
  · rw [List.getElem?_eq_none hi, List.getElem?_eq_none (by rw [length_cells]; omega)]

/-- Together with the ones in front of them. -/
theorem cells_zero_blit (data : Nat → α) (a : Nat) (bs : List α) :
    cells (blit data a bs) 0 (a + bs.length) = cells data 0 a ++ bs := by
  rw [← cells_append _ (Nat.zero_le a) (Nat.le_add_right ..), cells_blit,
    cells_congr fun i _ hi => blit_of_lt hi]

/-- A write at the tail that stays before the end of the ring appends; the cell behind it may be
overwritten. -/
theorem window_blit_flat {data : Nat → α} {n head tail : Nat} {bs : List α} (x : α)
    (hh : head ≤ n) (hroom : unread n head tail + bs.length < n) (hb : tail + bs.length < n) :
    window (poke (blit data tail bs) (tail + bs.length) x) n head (tail + bs.length) =
      window data n head tail ++ bs := by
  -- where a cell of the new window lies: one of the old window, or one of the written cells
  have hpos : unread n head (tail + bs.length) = unread n head tail + bs.length ∧
      (∀ k < unread n head tail, wrap n (head + k) < tail ∨
        tail + bs.length < wrap n (head + k)) ∧
      ∀ k, unread n head tail ≤ k → k < unread n head tail + bs.length →
        wrap n (head + k) = tail + (k - unread n head tail) := by
    unfold wrap
    rcases Nat.lt_or_ge tail head with hlt | hle
    · rw [unread_of_lt hlt] at hroom ⊢
      rw [unread_of_lt (by omega)]
      exact ⟨by omega, fun k hk => by split <;> omega, fun k hk hk' => by split <;> omega⟩
    · rw [unread_of_le hle] at hroom ⊢
      rw [unread_of_le (by omega)]
      exact ⟨by omega, fun k hk => by split <;> omega, fun k hk hk' => by split <;> omega⟩
  obtain ⟨hlen, hold, hnew⟩ := hpos
  refine eq_window hh hb (by simp [hlen]) fun k hk => ?_
  rw [List.length_append, length_window] at hk
  rcases Nat.lt_or_ge k (unread n head tail) with hk' | hk'
  · rw [List.getElem?_append_left (by simpa using hk'), getElem?_window hh (by omega) hk']
    rcases hold k hk' with h | h
    · rw [poke_of_ne (by omega), blit_of_lt h]
    · rw [poke_of_ne (by omega), blit_of_ge (by omega)]
  · rw [List.getElem?_append_right (by simpa using hk'), length_window, hnew k hk' hk,
      poke_of_ne (by omega), ← blit_add (by omega)]

/-- A write at the tail that reaches the end of the ring: the part that fits before it, then the
rest from the cell `0` on. -/
theorem window_blit_wrap {data : Nat → α} {n head tail : Nat} {bs : List α} (x : α)
    (hh : head ≤ n) (ht : tail < n) (hroom : unread n head tail + bs.length < n)
    (hb : n ≤ tail + bs.length) :
    window (poke (blit (blit data tail (bs.take (n - tail))) 0 (bs.drop (n - tail)))
        (bs.length - (n - tail)) x) n head (bs.length - (n - tail)) =
      window data n head tail ++ bs := by
  have hle : head ≤ tail := by
    by_contra hlt
    rw [unread_of_lt (by omega)] at hroom
    omega
  have hun : unread n head tail = tail - head := unread_of_le hle
  have hlen : unread n head (bs.length - (n - tail)) = unread n head tail + bs.length := by
    rw [hun, unread_of_lt (by omega)]; omega
  refine eq_window hh (by omega) (by simp [hlen]) fun k hk => ?_
  rw [List.length_append, length_window, hun] at hk
  rcases Nat.lt_or_ge k (tail - head) with hold | hnew
  · rw [List.getElem?_append_left (by simpa [hun] using hold), getElem?_window hh ht (by omega)]
    unfold wrap
    rw [if_pos (by omega), poke_of_ne (by omega), blit_of_ge (by simp; omega),
      blit_of_lt (by omega)]
  · rw [List.getElem?_append_right (by simpa [hun] using hnew), length_window, hun]
    by_cases hup : head + k < n
    · have hw : wrap n (head + k) = tail + (k - (tail - head)) := by
        unfold wrap; rw [if_pos hup]; omega
      rw [hw, poke_of_ne (by omega), blit_of_ge (by simp; omega), blit_add (by simp; omega),
        List.getElem?_take_of_lt (by omega)]
    · have hw : wrap n (head + k) = 0 + (head + k - n) := by
        unfold wrap; rw [if_neg hup]; omega
      rw [hw, poke_of_ne (by omega), blit_add (by simp; omega), List.getElem?_drop]
      congr 1; omega

/-! ## The ring as a queue

A queue stores one value in each cell. Both ends advance by one cell modulo `n`, and equal ends
mean that it is empty: `n - 1` values fit, and one more makes the queue look empty. -/

theorem unread_lt {n head tail : Nat} (hh : head < n) (ht : tail < n) : unread n head tail < n := by
  unfold unread; split <;> omega

theorem window_eq_nil_iff {data : Nat → α} {n head tail : Nat} (hh : head < n) :
    window data n head tail = [] ↔ head = tail := by
  rw [← List.length_eq_zero_iff, length_window]
  unfold unread; split <;> omega

theorem succ_mod {n i : Nat} (h : i < n) : (i + 1) % n = if i + 1 < n then i + 1 else 0 := by
  split
  · exact Nat.mod_eq_of_lt ‹_›
  · rw [show i + 1 = n by omega, Nat.mod_self]

theorem window_push {data : Nat → α} {n head tail : Nat} (x : α) (hh : head < n) (ht : tail < n)
    (hroom : unread n head tail + 1 < n) :
    window (poke data tail x) n head ((tail + 1) % n) = window data n head tail ++ [x] := by
  have hlen : unread n head ((tail + 1) % n) = unread n head tail + 1 := by
    rw [succ_mod ht]; unfold unread at hroom ⊢
    split at hroom <;> split <;> split <;> omega
  refine eq_window hh.le (Nat.mod_lt _ (by omega)) (by simp [hlen]) fun k hk => ?_
  rw [List.length_append, length_window, List.length_singleton] at hk
  rcases Nat.lt_or_ge k (unread n head tail) with hold | hnew
  · rw [List.getElem?_append_left (by simpa using hold), getElem?_window hh.le ht hold]
    have hne : wrap n (head + k) ≠ tail := by
      unfold wrap; unfold unread at hold
      split at hold <;> split <;> omega
    rw [poke_of_ne hne]
  · have hk' : k = unread n head tail := by omega
    subst hk'
    have hw : wrap n (head + unread n head tail) = tail := by
      unfold wrap unread
      split <;> split <;> omega
    rw [List.getElem?_append_right (by simp), hw]
    simp

/-- Pushing onto a queue that holds `n - 1` values makes it look empty. -/
theorem window_push_full {data : Nat → α} {n head tail : Nat} (x : α) (hh : head < n)
    (ht : tail < n) (hfull : unread n head tail + 1 = n) :
    window (poke data tail x) n head ((tail + 1) % n) = [] := by
  rw [window_eq_nil_iff hh, succ_mod ht]
  unfold unread at hfull
  split at hfull <;> split <;> omega

theorem window_pop {data : Nat → α} {n head tail : Nat} (hh : head < n) (ht : tail < n)
    (hne : head ≠ tail) :
    window data n head tail = data head :: window data n ((head + 1) % n) tail := by
  have hpos : 0 < unread n head tail := by unfold unread; split <;> omega
  have hlen : unread n ((head + 1) % n) tail = unread n head tail - 1 := by
    rw [succ_mod hh]; unfold unread
    split <;> split <;> split <;> omega
  refine eq_window hh.le ht (by simp [hlen]; omega) fun k hk => ?_
  rw [List.length_cons, length_window, hlen] at hk
  cases k with
  | zero => simp [wrap, hh]
  | succ k =>
    rw [List.getElem?_cons_succ, getElem?_window (Nat.mod_lt _ (by omega)).le ht (by omega)]
    congr 2
    rw [succ_mod hh]; unfold wrap; unfold unread at hk
    split at hk <;> split <;> split <;> split <;> omega

/-- Once its cell is popped, what is written there does not matter. -/
theorem window_pop_poke {data : Nat → α} {n head tail : Nat} (x : α) (hh : head < n)
    (ht : tail < n) :
    window (poke data head x) n ((head + 1) % n) tail = window data n ((head + 1) % n) tail := by
  have hmod : (head + 1) % n < n := Nat.mod_lt _ (by omega)
  refine eq_window hmod.le ht (by simp) fun k hk => ?_
  rw [length_window] at hk
  have hcell : wrap n ((head + 1) % n + k) ≠ head := by
    have hun := unread_cases n ((head + 1) % n) tail
    have hw := wrap_cases n ((head + 1) % n + k)
    have hs : (head + 1) % n = head + 1 ∨ (head + 1) % n = 0 ∧ head + 1 = n := by
      rw [succ_mod hh]
      split <;> omega
    omega
  rw [getElem?_window hmod.le ht hk, poke_of_ne hcell]

end Ring
