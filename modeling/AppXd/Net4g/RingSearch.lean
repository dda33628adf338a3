import Mathlib.Data.Nat.Find
import AppXd.Net4g.KeyReads
import AppXd.Net4g.Link

/-!
# The ring search for any keyword

Where the key's first byte may come back inside the key, a comparison that agrees up to the end of
the ring leaves its count, its `j` and its shortened `keyWordLen` to the comparisons after it. The
search finds the first occurrence when the window does not pass the end of the ring, when an
occurrence ends before that, and also when exactly one comparison is cut and what it leaves does no
harm (`LoneCut`).
-/

namespace AppXd.Net4g

section
variable {data : Nat → UInt8} {key : List UInt8} {clip : Nat → Nat → Nat}

/-- Two loops over `i` one after the other. -/
theorem scanKey_append (data : Nat → UInt8) (key : List UInt8) (clip : Nat → Nat → Nat)
    (n m i : Nat) (s : KeySearch) :
    scanKey data key clip (n + m) i s =
      match scanKey data key clip n i s with
      | (some p, s) => (some p, s)
      | (none, s) => scanKey data key clip m (i + n) s := by
  induction n generalizing i s with
  | zero => rw [Nat.zero_add]; rfl
  | succ n ih =>
    have hround : n + 1 + m = n + m + 1 := Nat.succ_add n m
    have hcell : i + (n + 1) = i + 1 + n := Nat.succ_add_eq_add_succ i n |>.symm
    rw [hround, hcell, scanKey, scanKey]
    split
    · simp only
      split
      · rfl
      · exact ih (i + 1) _
    · exact ih (i + 1) _

/-- A loop that compares `l` bytes at each cell, none of which agrees. -/
theorem scanKey_none (data : Nat → UInt8) (clip : Nat → Nat → Nat) {n i l : Nat} {s : KeySearch}
    (hpos : key ≠ []) (hc : s.sameKeyCount = 0) (hl : s.keyWordLen = l)
    (hclip : ∀ q, i ≤ q → q < i + n → data q = keyByte key 0 → clip q l = l)
    (h : ∀ q, i ≤ q → q < i + n → ¬ Agrees data key q l) :
    ∃ s', scanKey data key clip n i s = (none, s') ∧ s'.sameKeyCount = 0 ∧ s'.keyWordLen = l := by
  have hlen := List.length_pos_of_ne_nil hpos
  induction n generalizing i s with
  | zero => exact ⟨s, rfl, hc, hl⟩
  | succ n ih =>
    have hclip' : ∀ q, i + 1 ≤ q → q < i + 1 + n → data q = keyByte key 0 → clip q l = l :=
      fun q h1 h2 => hclip q (by omega) (by omega)
    have hlater : ∀ q, i + 1 ≤ q → q < i + 1 + n → ¬ Agrees data key q l :=
      fun q h1 h2 => h q (by omega) (by omega)
    rw [scanKey]
    by_cases hcell : data i = keyByte key 0
    · obtain ⟨hcnt, hkl⟩ := tryKey_differs (s := s) (h i (Nat.le_refl i) (by omega))
      rw [if_pos hcell, hl, hclip i (Nat.le_refl i) (by omega) hcell]
      simp only [hcnt, if_neg (Nat.ne_of_lt hlen)]
      exact ih hcnt hkl hclip' hlater
    · rw [if_neg hcell]
      exact ih (s := s.read i) hc hl hclip' hlater

/-- A loop that compares the whole key at each cell returns at the first occurrence. -/
theorem scanKey_some (data : Nat → UInt8) (clip : Nat → Nat → Nat) {n i p : Nat} {s : KeySearch}
    (hpos : key ≠ []) (hshort : key.length < 256)
    (hc : s.sameKeyCount = 0) (hl : s.keyWordLen = key.length) (hp : i ≤ p) (hp' : p < i + n)
    (hclip : ∀ q, i ≤ q → q ≤ p → data q = keyByte key 0 → clip q key.length = key.length)
    (h : ∀ q, i ≤ q → q < p → ¬ Agrees data key q key.length)
    (hag : Agrees data key p key.length) :
    ∃ s', scanKey data key clip n i s = (some p, s') ∧ s'.sameKeyIndex = p := by
  have hlen := List.length_pos_of_ne_nil hpos
  obtain ⟨t, ht, htc, htl⟩ := scanKey_none data clip (n := p - i) (i := i) hpos hc hl
    (fun q h1 h2 => hclip q h1 (by omega)) (fun q h1 h2 => h q h1 (by omega))
  obtain ⟨-, hcnt, hidx, -⟩ := tryKey_agrees (s := t) hag htc hlen hshort
  have hrounds : n = (p - i) + (n - (p - i) - 1 + 1) := by omega
  have hcell : i + (p - i) = p := Nat.add_sub_cancel' hp
  have hfirst : data p = keyByte key 0 := hag 0 hlen
  refine ⟨tryKey data key p key.length t, ?_, hidx⟩
  rw [hrounds, scanKey_append, ht]
  simp only [hcell]
  rw [scanKey, if_pos hfirst, htl, hclip p hp (Nat.le_refl p) hfirst]
  simp only [hcnt, if_true]

/-- The second half of a split comparison never completes a count that is not that of what has been
compared of the key. -/
theorem compareRest_ne (data : Nat → UInt8) (ii : Nat) {n : Nat} {s : KeySearch} (hpos : 0 < s.j)
    (hn : s.j + n ≤ key.length) (hc : s.sameKeyCount < 256) (h : s.sameKeyCount ≠ s.j) :
    let s' := compareRest data key ii n s
    0 < s'.j ∧ s'.j ≤ key.length ∧ s'.sameKeyCount < 256 ∧ s'.sameKeyCount ≠ s'.j ∧
      s'.keyWordLen = s.keyWordLen ∧ (s'.sameKeyCount = 0 ∨ s'.j = s.j + n) := by
  induction n generalizing s with
  | zero => exact ⟨hpos, hn, hc, h, rfl, .inr rfl⟩
  | succ n ih =>
    by_cases hcell : data (ii + s.k) = keyByte key s.j
    · simp only [compareRest, KeySearch.read, hcell, if_true]
      obtain ⟨h1, h2, h3, h4, h5, h6⟩ := ih (s := { s with
          sameKeyCount := (s.sameKeyCount + 1) % 256
          j := s.j + 1
          k := s.k + 1
          hi := max s.hi (ii + s.k + 1) }) (Nat.succ_pos s.j) (show s.j + 1 + n ≤ _ by omega)
        (Nat.mod_lt _ (by decide)) (show (s.sameKeyCount + 1) % 256 ≠ s.j + 1 by omega)
      exact ⟨h1, h2, h3, h4, h5, h6.imp_right fun h => h.trans (Nat.succ_add_eq_add_succ s.j n)⟩
    · simp only [compareRest, KeySearch.read, hcell, if_false]
      exact ⟨hpos, by omega, by decide, by omega, trivial, .inl trivial⟩

/-- Once the count is not that of what has been compared, the loop behind the end of the ring finds
nothing. -/
theorem scanRest_ne {n ii : Nat} {s : KeySearch} (hl : s.keyWordLen = key.length)
    (hpos : 0 < s.j) (hj : s.j ≤ key.length) (hc : s.sameKeyCount < 256) (h : s.sameKeyCount ≠ s.j) :
    (scanRest data key n ii s).1 = false := by
  induction n generalizing ii s with
  | zero => rfl
  | succ n ih =>
    rw [scanRest]
    simp only
    split
    · have hbound : (s.read ii).j + ((s.read ii).keyWordLen - (s.read ii).j) = key.length := by
        show s.j + (s.keyWordLen - s.j) = key.length
        omega
      obtain ⟨h1, h2, h3, h4, h5, h6⟩ := compareRest_ne data ii (s := s.read ii) hpos hbound.le
        hc h
      rw [if_neg (by omega)]
      exact ih (h5.trans hl) h1 h2 h3 h4
    · exact ih (s := s.read ii) hl hpos hj hc h

/-- The second half of a split comparison that differs somewhere. -/
theorem compareRest_differs {ii n : Nat} {s : KeySearch} (hpos : 0 < s.j)
    (h : ¬ ∀ t < n, data (ii + (s.k + t)) = keyByte key (s.j + t)) :
    (compareRest data key ii n s).sameKeyCount = 0 ∧ 0 < (compareRest data key ii n s).j ∧
      (compareRest data key ii n s).j ≤ s.j + n ∧
      (compareRest data key ii n s).keyWordLen = s.keyWordLen := by
  induction n generalizing s with
  | zero => exact absurd (fun t ht => absurd ht (Nat.not_lt_zero t)) h
  | succ n ih =>
    by_cases hcell : data (ii + s.k) = keyByte key s.j
    · simp only [compareRest, KeySearch.read, hcell, if_true]
      obtain ⟨h1, h2, h3, h4⟩ := ih (s := { s with
          sameKeyCount := (s.sameKeyCount + 1) % 256
          j := s.j + 1
          k := s.k + 1
          hi := max s.hi (ii + s.k + 1) }) (Nat.succ_pos s.j) fun hall => h fun t ht => by
        rcases Nat.eq_zero_or_pos t with rfl | ht0
        · exact hcell
        · have := hall (t - 1) (by omega)
          rwa [show s.k + 1 + (t - 1) = s.k + t by omega,
            show s.j + 1 + (t - 1) = s.j + t by omega] at this
      exact ⟨h1, h2, h3.trans (by show s.j + 1 + n ≤ s.j + (n + 1); omega), h4⟩
    · simp only [compareRest, KeySearch.read, hcell, if_false]
      exact ⟨trivial, hpos, by omega, trivial⟩

/-- The rest of the key from byte `j` on stands in the cells from the first one that holds that
byte on. -/
def RestFollows (data : Nat → UInt8) (key : List UInt8) (j n : Nat) : Prop :=
  ∃ ii < n, (∀ t < ii, data t ≠ keyByte key j) ∧
    ∀ t < key.length - j, data (ii + t) = keyByte key (j + t)

/-- Cells without the next byte of the key are passed over. -/
theorem scanRest_skip (data : Nat → UInt8) (key : List UInt8) {m i : Nat} (n : Nat) {s : KeySearch}
    (h : ∀ t < m, data (i + t) ≠ keyByte key s.j) :
    ∃ b, scanRest data key (m + n) i s = scanRest data key n (i + m) { s with hi := b } := by
  induction m generalizing i s with
  | zero => exact ⟨s.hi, by rw [Nat.zero_add]; rfl⟩
  | succ m ih =>
    rw [Nat.succ_add, scanRest]
    simp only
    rw [if_neg (show data i ≠ keyByte key (s.read i).j from h 0 (Nat.succ_pos m)),
      ← Nat.succ_add_eq_add_succ i m]
    refine ih (s := s.read i) fun t ht => ?_
    rw [Nat.succ_add_eq_add_succ]
    exact h (t + 1) (Nat.succ_lt_succ ht)

/-- Where it does, the loop behind the end of the ring completes a lone comparison. -/
theorem scanRest_follows (data : Nat → UInt8) {n : Nat} {s : KeySearch} (hshort : key.length < 256)
    (hk : s.k = 0) (hl : s.keyWordLen = key.length) (hc : s.sameKeyCount = s.j)
    (hj : s.j < key.length) (h : RestFollows data key s.j n) :
    (scanRest data key n 0 s).1 = true ∧
      (scanRest data key n 0 s).2.sameKeyIndex = s.sameKeyIndex := by
  obtain ⟨ii, hii, hbefore, hrest⟩ := h
  obtain ⟨b, hb⟩ := scanRest_skip data key (m := ii) (i := 0) (n - ii - 1 + 1) (s := s)
    fun t ht => by rw [Nat.zero_add]; exact hbefore t ht
  have hcell : data ii = keyByte key s.j := hrest 0 (by omega)
  rw [show n = ii + (n - ii - 1 + 1) by omega, hb, Nat.zero_add, scanRest]
  obtain ⟨hcnt, hidx⟩ := compareRest_agrees (i := ii) (n := key.length - s.j)
    (s := ({ s with hi := b } : KeySearch).read ii)
    (fun t ht => by
      show data (ii + (s.k + t)) = keyByte key (s.j + t)
      rw [hk, Nat.zero_add]
      exact hrest t ht) hc (show s.j + (key.length - s.j) < 256 by omega)
  have hlen : (({ s with hi := b } : KeySearch).read ii).keyWordLen -
      (({ s with hi := b } : KeySearch).read ii).j = key.length - s.j := congrArg (· - s.j) hl
  have hfull : (compareRest data key ii (key.length - s.j)
      (({ s with hi := b } : KeySearch).read ii)).sameKeyCount = key.length :=
    hcnt.trans (Nat.add_sub_cancel' hj.le)
  simp only
  rw [if_pos (show data ii = keyByte key (({ s with hi := b } : KeySearch).read ii).j from hcell),
    hlen, if_pos hfull]
  exact ⟨rfl, hidx⟩

/-- Where it does not, the loop behind the end of the ring finds nothing. -/
theorem scanRest_false (data : Nat → UInt8) {n : Nat} {s : KeySearch}
    (hk : s.k = 0) (hl : s.keyWordLen = key.length) (hpos : 0 < s.j) (hj : s.j < key.length)
    (hrest : ¬ RestFollows data key s.j n) : (scanRest data key n 0 s).1 = false := by
  by_cases hfirst : ∃ ii, ii < n ∧ data ii = keyByte key s.j
  · obtain ⟨hii, hcell⟩ := Nat.find_spec hfirst
    have hbefore : ∀ t < Nat.find hfirst, data t ≠ keyByte key s.j :=
      fun t ht h => Nat.find_min hfirst ht ⟨ht.trans hii, h⟩
    generalize Nat.find hfirst = ii at hii hcell hbefore
    obtain ⟨b, hb⟩ := scanRest_skip data key (m := ii) (i := 0) (n - ii - 1 + 1) (s := s)
      fun t ht => by rw [Nat.zero_add]; exact hbefore t ht
    rw [show n = ii + (n - ii - 1 + 1) by omega, hb, Nat.zero_add, scanRest]
    simp only
    generalize hu : ({ s with hi := b } : KeySearch).read ii = u
    obtain ⟨huk, hul, huj⟩ : u.k = 0 ∧ u.keyWordLen = key.length ∧ u.j = s.j := by
      subst hu
      exact ⟨hk, hl, rfl⟩
    have hdiff : ¬ ∀ t < key.length - s.j, data (ii + (u.k + t)) = keyByte key (u.j + t) := by
      rw [huk, huj]
      intro hall
      refine hrest ⟨ii, hii, hbefore, fun t ht => ?_⟩
      have := hall t ht
      rwa [Nat.zero_add] at this
    obtain ⟨h1, h2, h3, h4⟩ := compareRest_differs (s := u) (by omega) hdiff
    rw [if_pos (huj ▸ hcell), hul, huj, if_neg (by omega)]
    exact scanRest_ne (h4.trans hul) h2 (by omega) (by omega) (by omega)
  · obtain ⟨b, hb⟩ := scanRest_skip data key (m := n) (i := 0) 0 (s := s)
      fun t ht h => hfirst ⟨t, ht, by rwa [Nat.zero_add] at h⟩
    rw [Nat.add_zero] at hb
    rw [hb]
    rfl

/-- A part that agrees ends before the NUL, as the key holds none. -/
theorem Agrees.le_of_nul {i n z : Nat} (h : Agrees data key i n) (h0 : 0 ∉ key) (hz : data z = 0)
    (hiz : i ≤ z) (hn : n ≤ key.length) : i + n ≤ z := by
  by_contra hlt
  have hcell := h (z - i) (by omega)
  rw [Nat.add_sub_cancel' hiz, hz, keyByte, List.getD_eq_getElem _ _ (by omega)] at hcell
  exact h0 (hcell ▸ List.getElem_mem _)

end

/-! ## The search -/

section
variable {c : Config} {data : Nat → UInt8} {key : List UInt8} {head tail : Nat}

/-- Exactly one comparison is cut by the end of the ring, that at the cell `q`. If the key's
beginning stands there, the key goes on behind the end, or it stands nowhere and the cells behind
the end do not look like its rest. Otherwise no cell behind the end agrees with the shortened
key. -/
structure LoneCut (c : Config) (data : Nat → UInt8) (head tail : Nat) (key : List UInt8)
    (q : Nat) : Prop where
  ge : head ≤ q
  lt : q < c.uartRecvFifoSize
  cut : c.uartRecvFifoSize < q + key.length
  first : data q = keyByte key 0
  only : ∀ t, head ≤ t → t < c.uartRecvFifoSize → c.uartRecvFifoSize < t + key.length →
    data t = keyByte key 0 → t = q
  rest : (Agrees data key q (c.uartRecvFifoSize - q) ∧
      (Seq.OccursAt key (Ring.window data c.uartRecvFifoSize head tail) (q - head) ∨
        (∀ p, ¬ Seq.OccursAt key (Ring.window data c.uartRecvFifoSize head tail) p) ∧
          ¬ RestFollows data key (c.uartRecvFifoSize - q) tail)) ∨
    (¬ Agrees data key q (c.uartRecvFifoSize - q) ∧
      ∀ p < tail, ¬ Agrees data key p (c.uartRecvFifoSize - q))

/-- The search in a window that does not pass the end of the ring. -/
theorem firstFound_flat (hpos : key ≠ []) (h0 : 0 ∉ key) (hshort : key.length < 256)
    (hle : head ≤ tail) (ht : tail < c.uartRecvFifoSize) (hz : data tail = 0) (idx : Nat) :
    FirstFound c data head tail key (getKeyDataIndex c data head tail key idx) := by
  have hlen := List.length_pos_of_ne_nil hpos
  have hun := Ring.unread_of_le (n := c.uartRecvFifoSize) hle
  have hcell : ∀ q, head ≤ q → q + key.length ≤ tail →
      (Seq.OccursAt key (Ring.window data c.uartRecvFifoSize head tail) (q - head) ↔
        Agrees data key q key.length) := fun q h1 h2 => by
    rw [occursAt_window_upper hpos (by omega) ht (by omega) (by omega), Nat.add_sub_cancel' h1]
  rcases Nat.eq_or_lt_of_le hle with rfl | hlt
  · refine .none (fun q hq => ?_) (by simp [getKeyDataIndex])
    have := hq.le_length hpos
    simp only [Ring.window_self, List.length_nil] at this
    omega
  unfold getKeyDataIndex
  simp only [if_pos hlt]
  have hkl : key.length % 256 = key.length := Nat.mod_eq_of_lt hshort
  have hnone : ∀ p, (∀ q < p, ¬ Seq.OccursAt key
      (Ring.window data c.uartRecvFifoSize head tail) q) →
      ∀ q, head ≤ q → q < head + p → q < tail → ¬ Agrees data key q key.length := by
    intro p hp q h1 h2 h3 hag
    have hend := hag.le_of_nul h0 hz h3.le (Nat.le_refl _)
    exact hp (q - head) (by omega) ((hcell q h1 hend).2 hag)
  cases hw : Seq.firstAt key (Ring.window data c.uartRecvFifoSize head tail) with
  | none =>
    have hno := Seq.not_occursAt_of_firstAt_none hpos hw
    obtain ⟨s', hs', -⟩ := scanKey_none data (fun _ len => len) (n := tail - head)
      (i := head) (s := ⟨0, 0, 0, key.length % 256, idx, 0⟩) hpos rfl hkl (fun _ _ _ _ => rfl)
      (fun q h1 h2 => hnone (tail - head) (fun q _ => hno q) q h1 h2 (by omega))
    rw [hs']
    exact .none hno rfl
  | some p =>
    have hocc := Seq.firstAt_occursAt hw
    have hfirst : ∀ q < p, ¬ _ := fun q => Seq.not_occursAt_of_lt_firstAt hw
    have hend := Seq.firstAt_le_length hw hpos
    rw [Ring.length_window] at hend
    have hag := (hcell (head + p) (by omega) (by omega)).1 (by rwa [Nat.add_sub_cancel_left])
    obtain ⟨s', hs', hidx⟩ := scanKey_some data (fun _ len => len)
      (n := tail - head) (i := head) (p := head + p)
      (s := ⟨0, 0, 0, key.length % 256, idx, 0⟩) hpos hshort rfl hkl (by omega) (by omega)
      (fun _ _ _ _ => rfl) (fun q h1 h2 => hnone p hfirst q h1 h2 (by omega)) hag
    rw [hs']
    refine .some hpos hocc hfirst rfl ?_
    rw [Ring.wrap, if_pos (by omega)]
    exact hidx

/-- Before the last `|key| - 1` cells of the ring nothing is cut. -/
theorem clipEnd_of_le {n q l : Nat} (h : q + l ≤ n) : clipEnd n q l = l :=
  if_neg (Nat.not_lt.2 h)

/-- An occurrence that ends before the end of the ring. -/
theorem firstFound_upper (hpos : key ≠ []) (hshort : key.length < 256)
    (hh : head < c.uartRecvFifoSize) (ht : tail < c.uartRecvFifoSize) (hlt : tail < head) {p : Nat}
    (ho : Seq.OccursAt key (Ring.window data c.uartRecvFifoSize head tail) p)
    (hp : head + p + key.length ≤ c.uartRecvFifoSize) (idx : Nat) :
    FirstFound c data head tail key (getKeyDataIndex c data head tail key idx) := by
  have hun := Ring.unread_of_lt (n := c.uartRecvFifoSize) hlt
  have hlen := List.length_pos_of_ne_nil hpos
  obtain ⟨p', hw⟩ : ∃ p', Seq.firstAt key
      (Ring.window data c.uartRecvFifoSize head tail) = some p' := by
    cases hw : Seq.firstAt key (Ring.window data c.uartRecvFifoSize head tail) with
    | none => exact absurd ho (Seq.not_occursAt_of_firstAt_none hpos hw p)
    | some p' => exact ⟨p', rfl⟩
  have hocc := Seq.firstAt_occursAt hw
  have hfirst : ∀ q < p', ¬ Seq.OccursAt key
      (Ring.window data c.uartRecvFifoSize head tail) q :=
    fun q => Seq.not_occursAt_of_lt_firstAt hw
  have hple : p' ≤ p := by
    by_contra h
    exact hfirst p (by omega) ho
  have hcell : ∀ q, head ≤ q → q ≤ head + p' →
      (Seq.OccursAt key (Ring.window data c.uartRecvFifoSize head tail) (q - head) ↔
        Agrees data key q key.length) := fun q h1 h2 => by
    rw [occursAt_window_upper hpos hh.le ht (by omega) (by omega), Nat.add_sub_cancel' h1]
  have hag := (hcell (head + p') (by omega) (Nat.le_refl _)).1 (by rwa [Nat.add_sub_cancel_left])
  obtain ⟨s', hs', hidx⟩ := scanKey_some data (clipEnd c.uartRecvFifoSize)
    (n := c.uartRecvFifoSize - head) (i := head) (p := head + p')
    (s := ⟨0, 0, 0, key.length % 256, idx, 0⟩) hpos hshort rfl (Nat.mod_eq_of_lt hshort) (by omega)
    (by omega) (fun q _ h2 _ => clipEnd_of_le (by omega))
    (fun q h1 h2 hag => hfirst (q - head) (by omega) ((hcell q h1 h2.le).2 hag)) hag
  unfold getKeyDataIndex
  simp only [if_neg (Nat.lt_asymm hlt), if_pos hlt, hs']
  refine .some hpos hocc hfirst rfl ?_
  rw [Ring.wrap, if_pos (by omega)]
  exact hidx

/-- The first cell from which a comparison of the whole key is cut. -/
def cutFrom (c : Config) (head : Nat) (key : List UInt8) : Nat :=
  max head (c.uartRecvFifoSize + 1 - key.length)

/-- Where no occurrence ends before the end of the ring, the loop reaches the last cells with
nothing counted and the whole key to compare. -/
theorem scanKey_cutFrom (data : Nat → UInt8) (hpos : key ≠ []) (hshort : key.length < 256)
    (hh : head < c.uartRecvFifoSize)
    (hup : ∀ q, head ≤ q → q + key.length ≤ c.uartRecvFifoSize → ¬ Agrees data key q key.length)
    (idx : Nat) :
    ∃ s, scanKey data key (clipEnd c.uartRecvFifoSize) (c.uartRecvFifoSize - head) head
        ⟨0, 0, 0, key.length % 256, idx, 0⟩ =
        scanKey data key (clipEnd c.uartRecvFifoSize)
          (c.uartRecvFifoSize - cutFrom c head key) (cutFrom c head key) s ∧
      s.sameKeyCount = 0 ∧ s.keyWordLen = key.length := by
  have hlen := List.length_pos_of_ne_nil hpos
  have hcut : cutFrom c head key = max head (c.uartRecvFifoSize + 1 - key.length) := rfl
  obtain ⟨s, hs, hc, hl⟩ := scanKey_none data (clipEnd c.uartRecvFifoSize)
    (n := cutFrom c head key - head) (i := head) (s := ⟨0, 0, 0, key.length % 256, idx, 0⟩) hpos rfl
    (Nat.mod_eq_of_lt hshort) (fun q _ h2 _ => clipEnd_of_le (by omega))
    (fun q h1 h2 => hup q h1 (by omega))
  have hrounds : c.uartRecvFifoSize - head =
      (cutFrom c head key - head) + (c.uartRecvFifoSize - cutFrom c head key) := by omega
  refine ⟨s, ?_, hc, hl⟩
  rw [hrounds, scanKey_append, hs]
  simp only [Nat.add_sub_cancel' (show head ≤ cutFrom c head key from Nat.le_max_left ..)]

/-- An occurrence that begins before the end of the ring, when none ends before it, has a cut
comparison at its first cell. -/
theorem straddle_of_occursAt (hpos : key ≠ []) (hh : head < c.uartRecvFifoSize)
    (ht : tail < c.uartRecvFifoSize) (hlt : tail < head)
    (hup : ∀ q, head ≤ q → q + key.length ≤ c.uartRecvFifoSize → ¬ Agrees data key q key.length)
    {q : Nat} (ho : Seq.OccursAt key (Ring.window data c.uartRecvFifoSize head tail) q)
    (hq : head + q < c.uartRecvFifoSize) :
    c.uartRecvFifoSize < head + q + key.length ∧ data (head + q) = keyByte key 0 ∧
      Agrees data key (head + q) (c.uartRecvFifoSize - (head + q)) := by
  have hun := Ring.unread_of_lt (n := c.uartRecvFifoSize) hlt
  have hcut : c.uartRecvFifoSize < head + q + key.length := by
    by_contra h
    have hle := ho.le_length hpos
    rw [Ring.length_window] at hle
    exact hup (head + q) (by omega) (by omega)
      ((occursAt_window_upper hpos hh.le ht hle (by omega)).1 ho)
  have hag := (occursAt_window_straddle hpos hh.le ht hq hcut ho).1
  exact ⟨hcut, hag 0 (by omega), hag⟩

/-- The loop up to the end of the ring when one comparison is cut. -/
theorem LoneCut.scanKey {q : Nat} (hx : LoneCut c data head tail key q) (hpos : key ≠ [])
    (hshort : key.length < 256) (hh : head < c.uartRecvFifoSize)
    (hup : ∀ q, head ≤ q → q + key.length ≤ c.uartRecvFifoSize → ¬ Agrees data key q key.length)
    (idx : Nat) :
    ∃ s b, AppXd.Net4g.scanKey data key (clipEnd c.uartRecvFifoSize) (c.uartRecvFifoSize - head)
        head ⟨0, 0, 0, key.length % 256, idx, 0⟩ =
          (none, { tryKey data key q (c.uartRecvFifoSize - q) s with hi := b }) ∧
      s.sameKeyCount = 0 := by
  obtain ⟨s, hs, hc, hl⟩ := scanKey_cutFrom data hpos hshort hh hup idx
  have hge := hx.ge
  have hlt := hx.lt
  have hcut := hx.cut
  have hlen := List.length_pos_of_ne_nil hpos
  have hfrom : cutFrom c head key = max head (c.uartRecvFifoSize + 1 - key.length) := rfl
  generalize cutFrom c head key = e at hs hfrom
  obtain ⟨u, hu, huc, hul⟩ : ∃ u, AppXd.Net4g.scanKey data key (clipEnd c.uartRecvFifoSize) (q - e) e
      s = (none, u) ∧ u.sameKeyCount = 0 ∧ u.keyWordLen = key.length := by
    obtain ⟨b, hb⟩ := scanKey_of_ne data key
      (clipEnd c.uartRecvFifoSize) (n := q - e) (i := e) (s := s) fun t h1 h2 h => by
        have := hx.only t (by omega) (by omega) (by omega) h
        omega
    exact ⟨_, hb, hc, hl⟩
  have hrounds : c.uartRecvFifoSize - e = (q - e) + (c.uartRecvFifoSize - q - 1 + 1) := by omega
  have hcell : e + (q - e) = q := by omega
  have hclip : clipEnd c.uartRecvFifoSize q key.length = c.uartRecvFifoSize - q :=
    if_pos (by omega)
  obtain ⟨b, hb⟩ := scanKey_of_ne data key (clipEnd c.uartRecvFifoSize)
    (n := c.uartRecvFifoSize - q - 1) (i := q + 1)
    (s := tryKey data key q (c.uartRecvFifoSize - q) u) fun t h1 h2 h => by
      have := hx.only t (by omega) (by omega) (by omega) h
      omega
  have hcount : (tryKey data key q (c.uartRecvFifoSize - q) u).sameKeyCount ≠ key.length := by
    by_cases hag : Agrees data key q (c.uartRecvFifoSize - q)
    · obtain ⟨-, hcnt, -⟩ := tryKey_agrees (s := u) hag huc (by omega) (by omega)
      omega
    · obtain ⟨hcnt, -⟩ := tryKey_differs (s := u) hag
      omega
  refine ⟨u, b, ?_, huc⟩
  rw [hs, hrounds, scanKey_append, hu]
  simp only [hcell]
  rw [AppXd.Net4g.scanKey, if_pos hx.first, hul, hclip]
  simp only [if_neg hcount]
  exact hb

/-- The only cut comparison does no harm. -/
theorem LoneCut.firstFound {q : Nat} (hx : LoneCut c data head tail key q) (hpos : key ≠ [])
    (hshort : key.length < 256) (hh : head < c.uartRecvFifoSize)
    (ht : tail < c.uartRecvFifoSize) (hlt : tail < head)
    (hup : ∀ q, head ≤ q → q + key.length ≤ c.uartRecvFifoSize → ¬ Agrees data key q key.length)
    (idx : Nat) :
    FirstFound c data head tail key (getKeyDataIndex c data head tail key idx) := by
  obtain ⟨s, b, hs, hc⟩ := hx.scanKey hpos hshort hh hup idx
  have hge := hx.ge
  have hqlt := hx.lt
  have hcut := hx.cut
  have hun := Ring.unread_of_lt (n := c.uartRecvFifoSize) hlt
  have hkl : key.length % 256 = key.length := Nat.mod_eq_of_lt hshort
  have hbegin : ∀ t, Seq.OccursAt key (Ring.window data c.uartRecvFifoSize head tail) t →
      head + t < c.uartRecvFifoSize → head + t = q := fun t hot h => by
    obtain ⟨h1, h2, -⟩ := straddle_of_occursAt hpos hh ht hlt hup hot h
    exact hx.only (head + t) (Nat.le_add_right ..) h h1 h2
  unfold getKeyDataIndex
  simp only [if_neg (Nat.lt_asymm hlt), if_pos hlt, hs]
  rcases hx.rest with ⟨hag, hrest⟩ | ⟨hag, hrest⟩
  · -- the key's beginning stands right before the end
    obtain ⟨hj, hcnt, hidx, -⟩ := tryKey_agrees (s := s) hag hc (by omega) (by omega)
    generalize tryKey data key q (c.uartRecvFifoSize - q) s = t at hj hcnt hidx
    have hcount : 0 < t.sameKeyCount := by omega
    simp only [if_pos hcount]
    rcases hrest with hocc | ⟨hno, hrest⟩
    · obtain ⟨-, htail⟩ := occursAt_window_straddle hpos hh.le ht
        (by omega) (by omega) hocc
      rw [Nat.add_sub_cancel' hge] at htail
      have hle := hocc.le_length hpos
      rw [Ring.length_window] at hle
      obtain ⟨s', hs', hidx', -⟩ := scanRest_agrees data (n := tail)
        (s := { t with hi := b, k := 0, keyWordLen := key.length % 256 }) (by omega) rfl
        (show t.j < key.length by omega) hkl (hcnt.trans hj.symm) hshort
        (show ∀ i < key.length - t.j, data i = keyByte key (t.j + i) by rwa [hj])
      rw [hs']
      refine .some hpos hocc (fun i hi hoi => ?_) rfl ?_
      · have := hbegin i hoi (by omega)
        omega
      · rw [Nat.add_sub_cancel' hge, Ring.wrap, if_pos hqlt]
        exact hidx'.trans hidx
    · have hfalse := scanRest_false data (n := tail)
        (s := { t with hi := b, k := 0, keyWordLen := key.length % 256 }) rfl hkl
        (show 0 < t.j by omega) (show t.j < key.length by omega)
        (show ¬ RestFollows data key t.j tail by rwa [hj])
      exact .none hno hfalse
  · -- it does not: the shortened key stands nowhere behind the end either
    obtain ⟨hcnt, hlen⟩ := tryKey_differs (s := s) hag
    generalize tryKey data key q (c.uartRecvFifoSize - q) s = t at hcnt hlen
    have hcount : ¬ 0 < t.sameKeyCount := by omega
    simp only [if_neg hcount]
    obtain ⟨s', hs', -⟩ := scanKey_none data (fun _ len => len) (n := tail)
      (i := 0) (s := { t with hi := b }) hpos hcnt hlen (fun _ _ _ _ => rfl)
      fun p _ hp => hrest p (by omega)
    rw [hs']
    refine .none (fun p ho => ?_) rfl
    rcases Nat.lt_or_ge (head + p) c.uartRecvFifoSize with hp | hp
    · obtain ⟨-, -, hagp⟩ := straddle_of_occursAt hpos hh ht hlt hup ho hp
      rw [hbegin p ho hp] at hagp
      exact hag hagp
    · have hle := ho.le_length hpos
      rw [Ring.length_window] at hle
      have hfull := (occursAt_window_lower hpos hh.le ht hle hp).1 ho
      exact hrest (head + p - c.uartRecvFifoSize) (by omega) (hfull.mono (by omega))

end

end AppXd.Net4g
