import AppXd.Net4g.RingSearch

/-!
# Comparisons that add up

The count of equal bytes is not set back between two comparisons that agree. As long as a comparison
covers the whole key this does no harm, for the first one that agrees ends the search. The
comparisons that the end of the ring cuts are shorter, and so are those behind it if the last one
has left its length in `keyWordLen`: there the search adds up the lengths of comparisons in a row
(`addUp`), until they come to the key's length. `rowsCell` is what this leads to, for any keyword;
the search is right exactly where that is the first occurrence.
-/

namespace AppXd.Net4g

/-! ## Rows -/

/-- Comparisons that agree, one after the other: what their lengths add up to modulo 256, and the
cell at which the count begins. `len` is the length of the last comparison. -/
structure Row where
  count : Nat
  start : Nat
  len : Nat

section
variable (data : Nat → UInt8) (key : List UInt8)

instance (i n : Nat) : Decidable (Agrees data key i n) :=
  inferInstanceAs (Decidable (∀ j < n, _))

instance (j n : Nat) : Decidable (RestFollows data key j n) :=
  inferInstanceAs (Decidable (∃ ii, ii < n ∧ _))

/-- A comparison of `n` bytes at the cell `q`. The count begins anew in it if it passes 256. -/
def Row.next (r : Row) (q n : Nat) : Row :=
  if Agrees data key q n then
    ⟨(r.count + n) % 256, if r.count = 0 ∨ 256 < r.count + n then q else r.start, n⟩
  else ⟨0, r.start, n⟩

/-- Comparisons of `len q` bytes at the cells `q`, up to that at which they come to the length of
the key. -/
def addUp (len : Nat → Nat) : List Nat → Row → Option Nat × Row
  | [], r => (none, r)
  | q :: qs, r =>
    let r := r.next data key q (len q)
    if r.count = key.length then (some q, r) else addUp len qs r

/-- The cells from `i` on that hold the first byte of the key. -/
def firstCells (i n : Nat) : List Nat :=
  (List.range' i n).filter fun q => data q = keyByte key 0

end

section
variable (c : Config) (data : Nat → UInt8) (head tail : Nat) (key : List UInt8)

/-- The comparisons that the end of the ring cuts. -/
def cutRow : Option Nat × Row :=
  addUp data key (c.uartRecvFifoSize - ·)
    (firstCells data key (cutFrom c head key) (c.uartRecvFifoSize - cutFrom c head key))
    ⟨0, 0, key.length⟩

/-- The cell that the comparisons lead to. If those that are cut come to the key's length, it is the
first cell of the row. If the last of them agrees alone and the rest of the key follows behind the
end of the ring, it is its cell, and if others agree in front of it there is none. Otherwise
comparisons of its length go on behind the end of the ring. -/
def rowsCell : Option Nat :=
  match cutRow c data head key with
  | (some _, r) => some r.start
  | (none, r) =>
    if 0 < r.count then
      if r.count = r.len ∧ RestFollows data key r.len tail then some r.start else none
    else (addUp data key (fun _ => r.len) (firstCells data key 0 tail) ⟨0, 0, r.len⟩).1

/-- The cell of the first occurrence in the window. -/
def firstCell : Option Nat :=
  (Seq.firstAt key (Ring.window data c.uartRecvFifoSize head tail)).map fun p =>
    Ring.wrap c.uartRecvFifoSize (head + p)

end

/-! ## The loops -/

section
variable {data : Nat → UInt8} {key : List UInt8} {clip : Nat → Nat → Nat} {i n : Nat}

theorem firstCells_of_eq (h : data i = keyByte key 0) :
    firstCells data key i (n + 1) = i :: firstCells data key (i + 1) n :=
  List.filter_cons_of_pos (decide_eq_true h)

theorem firstCells_of_ne (h : data i ≠ keyByte key 0) :
    firstCells data key i (n + 1) = firstCells data key (i + 1) n :=
  List.filter_cons_of_neg fun h' => h (of_decide_eq_true h')

theorem mem_firstCells {q : Nat} (h : q ∈ firstCells data key i n) :
    i ≤ q ∧ q < i + n ∧ data q = keyByte key 0 := by
  obtain ⟨hq, hcell⟩ := List.mem_filter.1 h
  obtain ⟨h1, h2⟩ := List.mem_range'_1.1 hq
  exact ⟨h1, h2, of_decide_eq_true hcell⟩

/-- The locals of the search hold the row. -/
structure KeySearch.Holds (s : KeySearch) (r : Row) : Prop where
  count : s.sameKeyCount = r.count
  lt : r.count < 256
  index : 0 < r.count → s.sameKeyIndex = r.start
  len : s.keyWordLen = r.len
  j : 0 < r.count → s.j = r.len

/-- A comparison that agrees counts on. -/
theorem compareKey_count {s : KeySearch} (h : Agrees data key i (s.j + n))
    (hc : s.sameKeyCount < 256) (hn : n < 256) :
    let s' := compareKey data key i n s
    s'.j = s.j + n ∧ s'.sameKeyCount = (s.sameKeyCount + n) % 256 ∧
      s'.keyWordLen = s.keyWordLen ∧ s'.sameKeyIndex =
        if 0 < n ∧ (s.sameKeyCount = 0 ∨ 256 < s.sameKeyCount + n) then i
        else s.sameKeyIndex := by
  induction n generalizing s with
  | zero => exact ⟨rfl, (Nat.mod_eq_of_lt hc).symm, rfl, (if_neg fun h => Nat.lt_irrefl 0 h.1).symm⟩
  | succ n ih =>
    have hcell : data (i + s.j) = keyByte key s.j := h s.j (by omega)
    simp only [compareKey, KeySearch.read, hcell, if_true]
    obtain ⟨h1, h2, h3, h4⟩ := ih (s := { s with
        sameKeyIndex := if s.sameKeyCount = 0 then i else s.sameKeyIndex
        sameKeyCount := (s.sameKeyCount + 1) % 256
        j := s.j + 1
        hi := max s.hi (i + s.j + 1) })
      (by rwa [show s.j + (n + 1) = s.j + 1 + n by omega] at h) (Nat.mod_lt _ (by decide))
      (by omega)
    refine ⟨h1.trans (Nat.succ_add_eq_add_succ s.j n), h2.trans ?_, h3, h4.trans ?_⟩
    · show ((s.sameKeyCount + 1) % 256 + n) % 256 = _
      omega
    · show (if 0 < n ∧ ((s.sameKeyCount + 1) % 256 = 0 ∨
          256 < (s.sameKeyCount + 1) % 256 + n) then i
        else if s.sameKeyCount = 0 then i else s.sameKeyIndex) = _
      split_ifs <;> first | rfl | omega

/-- A comparison is the next one of the row. -/
theorem tryKey_holds {s : KeySearch} {r : Row} (h : s.Holds r) (hpos : 0 < n) (hn : n < 256) :
    (tryKey data key i n s).Holds (r.next data key i n) := by
  unfold Row.next
  split
  · rename_i hag
    obtain ⟨h1, h2, h3, h4⟩ := compareKey_count (s := { s.read i with keyWordLen := n, j := 0 })
      (by rwa [Nat.zero_add]) (show s.sameKeyCount < 256 from h.count ▸ h.lt) hn
    have hcount : (tryKey data key i n s).sameKeyCount = (s.sameKeyCount + n) % 256 := h2
    have hindex : (tryKey data key i n s).sameKeyIndex =
        if 0 < n ∧ (s.sameKeyCount = 0 ∨ 256 < s.sameKeyCount + n) then i
        else s.sameKeyIndex := h4
    rw [h.count] at hcount hindex
    refine ⟨hcount, Nat.mod_lt _ (by decide), fun _ => ?_, h3, fun _ => h1.trans (Nat.zero_add n)⟩
    rw [hindex]
    simp only [hpos, true_and]
    split
    · rfl
    · exact h.index (by omega)
  · rename_i hag
    obtain ⟨hcount, hlen⟩ := tryKey_differs (s := s) hag
    exact ⟨hcount, Nat.succ_pos 255, fun h => absurd h (Nat.lt_irrefl 0), hlen,
      fun h => absurd h (Nat.lt_irrefl 0)⟩

/-- A loop over `i` makes the comparisons of the row. -/
theorem scanKey_addUp {len : Nat → Nat} {s : KeySearch} {r : Row} (h : s.Holds r)
    (hlen : ∀ q, i ≤ q → q < i + n → 0 < len q ∧ len q < 256)
    (hclip : ∀ q, i ≤ q → q < i + n → clip q r.len = len q)
    (hnext : ∀ q q', i ≤ q → q < q' → q' < i + n → clip q' (len q) = len q') :
    (scanKey data key clip n i s).1 = (addUp data key len (firstCells data key i n) r).1 ∧
      (scanKey data key clip n i s).2.Holds (addUp data key len (firstCells data key i n) r).2 := by
  induction n generalizing i s r with
  | zero => exact ⟨rfl, h⟩
  | succ n ih =>
    rw [scanKey]
    by_cases hcell : data i = keyByte key 0
    · have hlen' := hlen i (Nat.le_refl i) (by omega)
      have htry : (tryKey data key i (len i) s).Holds (r.next data key i (len i)) :=
        tryKey_holds h hlen'.1 hlen'.2
      rw [if_pos hcell, firstCells_of_eq hcell, h.len, hclip i (Nat.le_refl i) (by omega), addUp]
      simp only [htry.count]
      split
      · exact ⟨rfl, htry⟩
      · refine ih htry (fun q h1 h2 => hlen q (by omega) (by omega)) (fun q h1 h2 => ?_)
          fun q q' h1 h2 h3 => hnext q q' (by omega) h2 (by omega)
        have hl : (r.next data key i (len i)).len = len i := by
          unfold Row.next
          split <;> rfl
        rw [hl]
        exact hnext i q (Nat.le_refl i) (by omega) (by omega)
    · rw [if_neg hcell, firstCells_of_ne hcell]
      exact ih (s := s.read i) ⟨h.count, h.lt, h.index, h.len, h.j⟩
        (fun q h1 h2 => hlen q (by omega) (by omega)) (fun q h1 h2 => hclip q (by omega) (by omega))
        fun q q' h1 h2 h3 => hnext q q' (by omega) h2 (by omega)

/-- The length that is left is that of the last comparison, or nothing has been compared. -/
theorem addUp_len (len : Nat → Nat) (cells : List Nat) (r : Row) :
    addUp data key len cells r = (none, r) ∨
      ∃ q ∈ cells, (addUp data key len cells r).2.len = len q := by
  induction cells generalizing r with
  | nil => exact .inl rfl
  | cons q qs ih =>
    right
    have hl : (r.next data key q (len q)).len = len q := by
      unfold Row.next
      split <;> rfl
    rw [addUp]
    split
    · exact ⟨q, List.mem_cons_self, hl⟩
    · obtain heq | ⟨q', hq', heq⟩ := ih (r.next data key q (len q))
      · exact ⟨q, List.mem_cons_self, by rw [heq]; exact hl⟩
      · exact ⟨q', List.mem_cons_of_mem _ hq', heq⟩

/-- A row that comes to the key's length has a count. -/
theorem addUp_some {len : Nat → Nat} {cells : List Nat} {r : Row} {q : Nat}
    (h : (addUp data key len cells r).1 = some q) :
    (addUp data key len cells r).2.count = key.length := by
  induction cells generalizing r with
  | nil => cases h
  | cons q' qs ih =>
    rw [addUp] at h ⊢
    split at h
    · rename_i hcount
      rw [if_pos hcount]
      exact hcount
    · rename_i hcount
      rw [if_neg hcount]
      exact ih h

end

/-! ## The search -/

section
variable {c : Config} {data : Nat → UInt8} {key : List UInt8} {head tail : Nat}

theorem firstFound_iff_firstCell {r : KeyIndex} : FirstFound c data head tail key r ↔
    firstCell c data head tail key = if r.found then some r.index else none := by
  unfold FirstFound firstCell
  cases Seq.firstAt key (Ring.window data c.uartRecvFifoSize head tail) with
  | none => cases r.found <;> simp
  | some p => cases r.found <;> simp [eq_comm]

/-- The loop behind the end of the ring goes on with the last comparison if that is alone. -/
theorem scanRest_row (data : Nat → UInt8) {t : KeySearch} {r : Row} (hshort : key.length < 256)
    (h : t.Holds r) (hcount : 0 < r.count) (hpos : 0 < r.len) (hlen : r.len < key.length) :
    let x := scanRest data key tail 0 { t with k := 0, keyWordLen := key.length }
    (if x.1 then some x.2.sameKeyIndex else none) =
      if r.count = r.len ∧ RestFollows data key r.len tail then some r.start else none := by
  have hj : t.j = r.len := h.j hcount
  generalize hs : ({ t with k := 0, keyWordLen := key.length } : KeySearch) = s
  obtain ⟨hsk, hsl, hsj, hsc, hsi⟩ : s.k = 0 ∧ s.keyWordLen = key.length ∧ s.j = r.len ∧
      s.sameKeyCount = r.count ∧ s.sameKeyIndex = r.start := by
    subst hs
    exact ⟨rfl, rfl, hj, h.count, h.index hcount⟩
  by_cases hrest : r.count = r.len ∧ RestFollows data key r.len tail
  · obtain ⟨htrue, hindex⟩ := scanRest_follows data (n := tail) hshort hsk hsl
      ((hsc.trans hrest.1).trans hsj.symm) (by omega) (hsj ▸ hrest.2)
    simp only [htrue, if_pos hrest, if_true, hindex, hsi]
  · have hfalse : (scanRest data key tail 0 s).1 = false := by
      by_cases hne : r.count = r.len
      · exact scanRest_false data hsk hsl (by omega) (by omega)
          (hsj ▸ fun hfollows => hrest ⟨hne, hfollows⟩)
      · have hlt := h.lt
        exact scanRest_ne hsl (by omega) (by omega) (by omega) (by omega)
    simp only [hfalse, if_neg hrest, Bool.false_eq_true, if_false]

/-- The search in a window that passes the end of the ring, when no occurrence ends before that. -/
theorem getKeyDataIndex_rows (hpos : key ≠ []) (hshort : key.length < 256)
    (hh : head < c.uartRecvFifoSize) (hlt : tail < head)
    (hup : ∀ q, head ≤ q → q + key.length ≤ c.uartRecvFifoSize → ¬ Agrees data key q key.length)
    (idx : Nat) :
    (if (getKeyDataIndex c data head tail key idx).found then
      some (getKeyDataIndex c data head tail key idx).index else none) =
        rowsCell c data head tail key := by
  have hlen := List.length_pos_of_ne_nil hpos
  have hfrom : cutFrom c head key = max head (c.uartRecvFifoSize + 1 - key.length) := rfl
  have hkl : key.length % 256 = key.length := Nat.mod_eq_of_lt hshort
  obtain ⟨s, hs, hc, hl⟩ := scanKey_cutFrom data hpos hshort hh hup idx
  have hstart : s.Holds ⟨0, 0, key.length⟩ :=
    ⟨hc, Nat.succ_pos 255, fun h => absurd h (Nat.lt_irrefl 0), hl,
      fun h => absurd h (Nat.lt_irrefl 0)⟩
  obtain ⟨hup1, hup2⟩ := @scanKey_addUp data key (clipEnd c.uartRecvFifoSize) (cutFrom c head key)
    (c.uartRecvFifoSize - cutFrom c head key) (c.uartRecvFifoSize - ·) s ⟨0, 0, key.length⟩ hstart
    (fun q h1 h2 => by omega) (fun q h1 h2 => if_pos (by dsimp only; omega))
    (fun q q' h1 h2 h3 => if_pos (by omega))
  have hlast := @addUp_len data key (c.uartRecvFifoSize - ·)
    (firstCells data key (cutFrom c head key) (c.uartRecvFifoSize - cutFrom c head key))
    ⟨0, 0, key.length⟩
  have hsome : ∀ q, (cutRow c data head key).1 = some q → 0 < (cutRow c data head key).2.count :=
    fun q h => (addUp_some h).symm ▸ hlen
  unfold getKeyDataIndex
  simp only [if_neg (Nat.lt_asymm hlt), if_pos hlt, hs]
  change _ = (cutRow c data head key).1 at hup1
  change KeySearch.Holds _ (cutRow c data head key).2 at hup2
  change cutRow c data head key = _ ∨ ∃ q ∈ _, (cutRow c data head key).2.len = _ at hlast
  unfold rowsCell
  generalize cutRow c data head key = x at hup1 hup2 hlast hsome
  generalize scanKey data key (clipEnd c.uartRecvFifoSize)
    (c.uartRecvFifoSize - cutFrom c head key) (cutFrom c head key) s = y at hup1 hup2
  obtain ⟨xo, r⟩ := x
  obtain ⟨yo, t⟩ := y
  obtain rfl : yo = xo := hup1
  have hup : t.Holds r := hup2
  cases yo with
  | some q => exact congrArg some (hup.index (hsome q rfl))
  | none =>
    have hrlen : 0 < r.len ∧ r.len < 256 ∧ (0 < r.count → r.len < key.length) := by
      obtain heq | ⟨q, hq, heq⟩ := hlast
      · cases heq
        exact ⟨hlen, hshort, fun h => absurd h (Nat.lt_irrefl 0)⟩
      · obtain ⟨hq1, hq2, -⟩ := mem_firstCells hq
        have hr : r.len = c.uartRecvFifoSize - q := heq
        omega
    by_cases hcount : 0 < r.count
    · -- the last comparison that is cut agrees
      simp only [if_pos (show 0 < t.sameKeyCount from hup.count ▸ hcount), if_pos hcount, hkl]
      exact scanRest_row data hshort hup hcount hrlen.1 (hrlen.2.2 hcount)
    · -- it does not: its length is kept
      obtain ⟨hlow, -⟩ := @scanKey_addUp data key (fun _ len => len) 0 tail (fun _ => r.len) t
        ⟨0, 0, r.len⟩
        ⟨hup.count.trans (Nat.eq_zero_of_not_pos hcount), Nat.succ_pos 255,
          fun h => absurd h (Nat.lt_irrefl 0), hup.len, fun h => absurd h (Nat.lt_irrefl 0)⟩
        (fun _ _ _ => ⟨hrlen.1, hrlen.2.1⟩) (fun _ _ _ => rfl) (fun _ _ _ _ _ => rfl)
      simp only [if_neg (show ¬ 0 < t.sameKeyCount from hup.count ▸ hcount), if_neg hcount]
      rw [← hlow]
      generalize scanKey data key (fun _ len => len) tail 0 t = z
      obtain ⟨_ | p, u⟩ := z <;> rfl

/-- Where no occurrence ends before the end of the ring, the search finds the first one exactly
where the comparisons that add up lead to it. -/
theorem firstFound_iff_rows {c : Config} {data : Nat → UInt8} {head tail : Nat} {key : List UInt8}
    (hh : head < c.uartRecvFifoSize) (ht : tail < c.uartRecvFifoSize) (hpos : 1 ≤ key.length)
    (hlen : key.length < 256) (hlt : tail < head)
    (hocc : ¬ ∃ p, Seq.OccursAt key (Ring.window data c.uartRecvFifoSize head tail) p ∧
      head + p + key.length ≤ c.uartRecvFifoSize) (idx : Nat) :
    FirstFound c data head tail key (getKeyDataIndex c data head tail key idx) ↔
      rowsCell c data head tail key = firstCell c data head tail key := by
  have hne : key ≠ [] := List.ne_nil_of_length_pos hpos
  have hun := Ring.unread_of_lt (n := c.uartRecvFifoSize) hlt
  have hup : ∀ q, head ≤ q → q + key.length ≤ c.uartRecvFifoSize →
      ¬ Agrees data key q key.length := by
    intro q h1 h2 hag
    have hcell : head + (q - head) = q := Nat.add_sub_cancel' h1
    refine hocc ⟨q - head, (occursAt_window_upper hne hh.le ht (by omega) (by omega)).2 ?_,
      by omega⟩
    rwa [hcell]
  rw [firstFound_iff_firstCell, getKeyDataIndex_rows hne hlen hh hlt hup idx]
  exact eq_comm

end

end AppXd.Net4g
