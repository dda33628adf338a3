import AppXd.Net4g.KeySearch

/-!
# Which cells the ring search touches

The search reads below the end of the ring, with one exception: the second half of a split
comparison may run up to `|key| - 2` cells past the tail when the window is not `Crossing`.
`*sameKey_index` is only ever set to a cell of the scanned range.
-/

namespace AppXd.Net4g

section
variable {data : Nat → UInt8} {key : List UInt8} {clip : Nat → Nat → Nat}

theorem compareKey_keyWordLen (data : Nat → UInt8) (key : List UInt8) (i n : Nat)
    (s : KeySearch) : (compareKey data key i n s).keyWordLen = s.keyWordLen := by
  induction n generalizing s with
  | zero => rfl
  | succ n ih =>
    rw [compareKey]
    split
    · exact ih _
    · rfl

theorem compareKey_index {i n b : Nat} {s : KeySearch} (hi : i < b) (hs : s.sameKeyIndex < b) :
    (compareKey data key i n s).sameKeyIndex < b := by
  induction n generalizing s with
  | zero => exact hs
  | succ n ih =>
    rw [compareKey]
    split
    · refine ih (?_ : ite _ _ _ < b)
      split
      · exact hi
      · exact hs
    · exact hs

/-- A loop over `i` reads below `b` if every comparison in it does. -/
theorem scanKey_hi {n i b : Nat} {s : KeySearch} (hb : s.hi ≤ b) (hn : i + n ≤ b)
    (hl : s.keyWordLen ≤ key.length) (hclip : ∀ q l, clip q l ≤ l)
    (h : ∀ q l m, i ≤ q → q < i + n → l ≤ key.length → m < clip q l → Agrees data key q m →
      q + m < b) : (scanKey data key clip n i s).2.hi ≤ b := by
  induction n generalizing i s with
  | zero => exact hb
  | succ n ih =>
    have h' : ∀ q l m, i + 1 ≤ q → q < i + 1 + n → l ≤ key.length → m < clip q l →
        Agrees data key q m → q + m < b := fun q l m h1 h2 => h q l m (by omega) (by omega)
    have hread : max s.hi (i + 1) ≤ b := by omega
    rw [scanKey]
    split
    · have htry : (tryKey data key i (clip i s.keyWordLen) s).hi ≤ b :=
        tryKey_hi hb (by omega) fun m hm => h i s.keyWordLen m (Nat.le_refl i) (by omega) hl hm
      simp only
      split
      · exact htry
      · refine ih htry (by omega) ?_ h'
        rw [tryKey, compareKey_keyWordLen]
        exact (hclip _ _).trans hl
    · exact ih (s := s.read i) hread (by omega) hl h'

theorem scanKey_keyWordLen {n i b : Nat} {s : KeySearch} (hclip : ∀ q l, clip q l ≤ l)
    (hs : s.keyWordLen ≤ b) : (scanKey data key clip n i s).2.keyWordLen ≤ b := by
  induction n generalizing i s with
  | zero => exact hs
  | succ n ih =>
    have htry : (tryKey data key i (clip i s.keyWordLen) s).keyWordLen ≤ b := by
      rw [tryKey, compareKey_keyWordLen]
      exact (hclip _ _).trans hs
    rw [scanKey]
    split
    · simp only
      split
      · exact htry
      · exact ih htry
    · exact ih (s := s.read i) hs

theorem scanKey_index {n i b : Nat} {s : KeySearch} (hn : i + n ≤ b) (hs : s.sameKeyIndex < b) :
    (scanKey data key clip n i s).2.sameKeyIndex < b ∧
      ∀ p, (scanKey data key clip n i s).1 = some p → p < b := by
  induction n generalizing i s with
  | zero => exact ⟨hs, fun p hp => by cases hp⟩
  | succ n ih =>
    rw [scanKey]
    split
    · have htry : (tryKey data key i (clip i s.keyWordLen) s).sameKeyIndex < b :=
        compareKey_index (by omega) hs
      simp only
      split
      · refine ⟨htry, fun p hp => ?_⟩
        cases hp
        omega
      · exact ih (by omega) htry
    · exact ih (s := s.read i) (by omega) hs

/-- The cell at which the loop returns. -/
theorem scanKey_lt {n i p : Nat} {s : KeySearch} (h : (scanKey data key clip n i s).1 = some p) :
    p < i + n := by
  induction n generalizing i s with
  | zero => cases h
  | succ n ih =>
    rw [scanKey] at h
    split at h
    · simp only at h
      split at h
      · cases h
        omega
      · have := ih h
        omega
    · have := ih h
      omega

/-- The loop behind the end of the ring keeps `*sameKey_index`. Its comparisons read at most as
many cells past the tail as bytes of the key are left. -/
theorem scanRest_frame {n i b : Nat} {s : KeySearch} (hb : s.hi ≤ b) (hn : i + n ≤ b)
    (hk : ∀ m < n, i + m + s.k + (s.keyWordLen - s.j) ≤ b) :
    (scanRest data key n i s).2.hi ≤ b ∧
      (scanRest data key n i s).2.sameKeyIndex = s.sameKeyIndex := by
  induction n generalizing i s with
  | zero => exact ⟨hb, rfl⟩
  | succ n ih =>
    have hread : max s.hi (i + 1) ≤ b := by omega
    rw [scanRest]
    simp only
    split
    · obtain ⟨h1, h2, h3, d, hd, h4, h5⟩ := compareRest_frame (s := s.read i)
        (n := (s.read i).keyWordLen - (s.read i).j) (i := i) hread (hk 0 (Nat.succ_pos n))
      split
      · exact ⟨h1, h3⟩
      · have hk' : ∀ m < n, i + 1 + m + (compareRest data key i
            ((s.read i).keyWordLen - (s.read i).j) (s.read i)).k + (s.keyWordLen - (s.j + d)) ≤ b := by
          intro m hm
          have := hk (m + 1) (by omega)
          have hd' : d ≤ s.keyWordLen - s.j := hd
          rw [h4]
          show i + 1 + m + (s.k + d) + _ ≤ b
          omega
        obtain ⟨h6, h7⟩ := ih (i := i + 1) h1 (by omega) (by
          rw [h2, h5]
          exact hk')
        exact ⟨h6, h7.trans h3⟩
    · exact ih (s := s.read i) hread (by omega) fun m hm => by
        have := hk (m + 1) (by omega)
        show i + 1 + m + s.k + (s.keyWordLen - s.j) ≤ b
        omega

end

section
variable {c : Config} {data : Nat → UInt8} {key : List UInt8} {head tail : Nat}

/-- A comparison before a NUL reads no further than the NUL. -/
theorem Agrees.lt_of_nul (hk : Keyword key) {q m z b : Nat} (hz : data z = 0) (hqz : q ≤ z)
    (hzb : z < b) (hm : m ≤ key.length) (h : Agrees data key q m) : q + m < b := by
  have := h.le_nul hk hz hqz hm
  omega

/-- The loops that end at the tail read up to the tail. -/
theorem scanKey_hi_nul (hk : Keyword key) {i n b : Nat} {s : KeySearch} (hb : s.hi ≤ b)
    (hz : data (i + n) = 0) (hn : i + n < b) (hl : s.keyWordLen ≤ key.length) :
    (scanKey data key (fun _ len => len) n i s).2.hi ≤ b :=
  scanKey_hi hb (by omega) hl (fun _ _ => Nat.le_refl _) fun q l m h1 h2 h3 h4 h5 =>
    h5.lt_of_nul hk hz (by omega) hn (by omega)

/-- Every cell read by the search lies in the array. -/
theorem getKeyDataIndex_hi (hk : Keyword key) (hh : head ≤ c.uartRecvFifoSize)
    (ht : tail < c.uartRecvFifoSize) (hz : data tail = 0)
    (hx : Crossing c data head tail key ∨ tail + key.length ≤ c.uartRecvFifoSize + 2) (idx : Nat) :
    (getKeyDataIndex c data head tail key idx).hi ≤ c.uartRecvFifoSize := by
  have hlen : key.length % 256 = key.length := Nat.mod_eq_of_lt hk.short
  unfold getKeyDataIndex
  simp only
  split
  · exact scanKey_hi_nul hk (Nat.zero_le _) (by rwa [Nat.add_sub_cancel' (by omega)]) (by omega)
      hlen.le
  split
  swap
  · exact Nat.zero_le _
  rename_i hlt
  have hup := scanKey_end data hk hh (s := ⟨0, 0, 0, key.length % 256, idx, 0⟩) rfl hlen
  have hclip : ∀ q l, clipEnd c.uartRecvFifoSize q l ≤ l := fun q l => by
    unfold clipEnd
    split <;> omega
  have hhi : (scanKey data key (clipEnd c.uartRecvFifoSize) (c.uartRecvFifoSize - head) head
      ⟨0, 0, 0, key.length % 256, idx, 0⟩).2.hi ≤ c.uartRecvFifoSize :=
    scanKey_hi (Nat.zero_le _) (by omega) hlen.le hclip fun q l m h1 h2 h3 h4 _ => by
      unfold clipEnd at h4
      split at h4 <;> omega
  have hkl : (scanKey data key (clipEnd c.uartRecvFifoSize) (c.uartRecvFifoSize - head) head
      ⟨0, 0, 0, key.length % 256, idx, 0⟩).2.keyWordLen ≤ key.length :=
    scanKey_keyWordLen hclip hlen.le
  generalize scanKey data key (clipEnd c.uartRecvFifoSize) (c.uartRecvFifoSize - head) head
    ⟨0, 0, 0, key.length % 256, idx, 0⟩ = r at hup hhi hkl ⊢
  obtain ⟨_ | p, s⟩ := r
  swap
  · exact hhi
  simp only at hhi hkl ⊢
  split
  · rename_i hpos
    rcases hup.rest with ⟨hc, -⟩ | ⟨p, hp1, hp2, hcut, hag, hc, hj, hidx⟩
    · omega
    rcases hx with (hle | ⟨q, ho, hq⟩ | h) | hroom
    · omega
    · have := (scanRest_firstFound hk hh ht hlt hup (by omega) hcut hag hc hj hidx ho hq).2
      exact this.trans (Nat.max_le.2 ⟨hhi, Nat.le_refl _⟩)
    · exact absurd (hag 0 (by omega)) (h p hp1 (by omega) hcut)
    · exact (scanRest_frame (s := { s with k := 0, keyWordLen := key.length % 256 }) hhi (by omega)
        fun m hm => by simp only [hj]; omega).1
  · have hlow : (scanKey data key (fun _ len => len) tail 0 s).2.hi ≤ c.uartRecvFifoSize :=
      scanKey_hi_nul hk hhi (by rwa [Nat.zero_add]) (by omega) hkl
    generalize scanKey data key (fun _ len => len) tail 0 s = r at hlow ⊢
    obtain ⟨_ | p, s'⟩ := r
    · exact hlow
    · exact hlow

/-- The search leaves `*sameKey_index` inside the array. -/
theorem getKeyDataIndex_index (hh : head ≤ c.uartRecvFifoSize)
    (ht : tail < c.uartRecvFifoSize) {idx : Nat} (hi : idx < c.uartRecvFifoSize) :
    (getKeyDataIndex c data head tail key idx).index < c.uartRecvFifoSize := by
  have hscan : ∀ (clip : Nat → Nat → Nat) (n i : Nat) (s : KeySearch),
      i + n ≤ c.uartRecvFifoSize → s.sameKeyIndex < c.uartRecvFifoSize →
      (scanKey data key clip n i s).2.sameKeyIndex < c.uartRecvFifoSize ∧
        ∀ p, (scanKey data key clip n i s).1 = some p → p < c.uartRecvFifoSize :=
    fun _ _ _ _ => scanKey_index
  unfold getKeyDataIndex
  simp only
  split
  · exact (hscan _ _ _ ⟨0, 0, 0, key.length % 256, idx, 0⟩ (by omega) hi).1
  split
  swap
  · exact hi
  have hup := (hscan (clipEnd c.uartRecvFifoSize) (c.uartRecvFifoSize - head) head
    ⟨0, 0, 0, key.length % 256, idx, 0⟩ (by omega) hi).1
  generalize scanKey data key (clipEnd c.uartRecvFifoSize) (c.uartRecvFifoSize - head) head
    ⟨0, 0, 0, key.length % 256, idx, 0⟩ = r at hup ⊢
  obtain ⟨_ | p, s⟩ := r
  swap
  · exact hup
  simp only at hup ⊢
  split
  · obtain ⟨-, h⟩ : _ ∧ (scanRest data key tail 0
        { s with k := 0, keyWordLen := key.length % 256 }).2.sameKeyIndex = s.sameKeyIndex :=
      scanRest_frame (b := s.hi + tail + key.length % 256) (show s.hi ≤ _ by omega) (by omega)
        fun m hm => by simp only; omega
    rw [h]
    exact hup
  · have hlow := hscan (fun _ len => len) tail 0 s (by omega) hup
    generalize scanKey data key (fun _ len => len) tail 0 s = r at hlow ⊢
    obtain ⟨_ | p, s'⟩ := r
    · exact hlow.1
    · exact hlow.2 p rfl

/-- Nothing is found in an empty window. -/
theorem getKeyDataIndex_empty (h : Ring.unread c.uartRecvFifoSize head tail = 0) (idx : Nat) :
    (getKeyDataIndex c data head tail key idx).found = false := by
  have hun := Ring.unread_cases c.uartRecvFifoSize head tail
  unfold getKeyDataIndex
  simp only
  rw [if_neg (by omega)]
  split
  · have hsize : c.uartRecvFifoSize - head = 0 := by omega
    have htail : tail = 0 := by omega
    rw [hsize, htail]
    rfl
  · rfl

/-- Where the keyword is found, `*sameKey_index` is a cell of the window. -/
theorem getKeyDataIndex_inside (hk : Keyword key) (hh : head ≤ c.uartRecvFifoSize)
    (ht : tail < c.uartRecvFifoSize) (hz : data tail = 0) (idx : Nat)
    (hf : (getKeyDataIndex c data head tail key idx).found = true) :
    ∃ k < Ring.unread c.uartRecvFifoSize head tail,
      (getKeyDataIndex c data head tail key idx).index =
        Ring.wrap c.uartRecvFifoSize (head + k) := by
  have hfirst : FirstFound c data head tail key (getKeyDataIndex c data head tail key idx) →
      ∃ k < Ring.unread c.uartRecvFifoSize head tail,
        (getKeyDataIndex c data head tail key idx).index =
          Ring.wrap c.uartRecvFifoSize (head + k) := fun h => by
    cases hw : Seq.firstAt key (Ring.window data c.uartRecvFifoSize head tail) with
    | none => exact absurd (hf.symm.trans (h.of_none hw)) nofun
    | some p =>
      have hle := Seq.firstAt_le_length hw hk.ne_nil
      have hpos := hk.length_pos
      rw [Ring.length_window] at hle
      exact ⟨p, by omega, (h.of_some hw).2⟩
  rcases Nat.lt_or_ge tail head with hlt | hle
  swap
  · exact hfirst (getKeyDataIndex_flat hk hle ht hz idx)
  clear hfirst
  have hun := Ring.unread_of_lt (n := c.uartRecvFifoSize) hlt
  have hup := scanKey_end data hk hh (s := ⟨0, 0, 0, key.length % 256, idx, 0⟩) rfl
    (Nat.mod_eq_of_lt hk.short)
  have hend : ∀ p, head ≤ p → p < c.uartRecvFifoSize →
      ∃ k < Ring.unread c.uartRecvFifoSize head tail, p = Ring.wrap c.uartRecvFifoSize (head + k) :=
    fun p hp hpn => ⟨p - head, by omega, by rw [Nat.add_sub_cancel' hp, Ring.wrap, if_pos hpn]⟩
  unfold getKeyDataIndex at hf ⊢
  simp only [if_neg (Nat.lt_asymm hlt), if_pos hlt] at hf ⊢
  generalize scanKey data key (clipEnd c.uartRecvFifoSize) (c.uartRecvFifoSize - head) head
    ⟨0, 0, 0, key.length % 256, idx, 0⟩ = r at hup hf ⊢
  obtain ⟨_ | p, s⟩ := r
  swap
  · have hhit : Hit data key _ _ _ p s := hup
    have hlt := hhit.lt
    have hge := hhit.ge
    show ∃ k < _, s.sameKeyIndex = _
    rw [hhit.index]
    exact hend p hge (by omega)
  rcases hup.rest with ⟨hc, -⟩ | ⟨p, hp1, hp2, hcut, -, hc, hj, hidx⟩
  · -- the loop behind the end of the ring
    simp only [hc, Nat.lt_irrefl, if_false] at hf ⊢
    have hlow : ∀ p, (scanKey data key (fun _ len => len) tail 0 s).1 = some p → p < 0 + tail :=
      fun p => scanKey_lt
    generalize scanKey data key (fun _ len => len) tail 0 s = r at hlow hf ⊢
    obtain ⟨_ | p, s'⟩ := r
    · cases hf
    · have hp := hlow p rfl
      refine ⟨c.uartRecvFifoSize - head + p, by omega, ?_⟩
      rw [Ring.wrap, if_neg (by omega)]
      show p = _
      omega
  · simp only [if_pos (show 0 < s.sameKeyCount by omega)]
    obtain ⟨-, hkeep⟩ : _ ∧ (scanRest data key tail 0
        { s with k := 0, keyWordLen := key.length % 256 }).2.sameKeyIndex = s.sameKeyIndex :=
      scanRest_frame (b := s.hi + tail + key.length % 256) (show s.hi ≤ _ by omega) (by omega)
        fun m hm => by simp only; omega
    simp only [hkeep]
    rw [hidx]
    exact hend p hp1 (by omega)

/-- Cells that differ from the key's next byte are passed over. -/
theorem scanRest_of_ne {n i : Nat} {s : KeySearch}
    (h : ∀ q, i ≤ q → q < i + n → data q ≠ keyByte key s.j) :
    (scanRest data key n i s).1 = false := by
  induction n generalizing i s with
  | zero => rfl
  | succ n ih =>
    rw [scanRest]
    simp only
    rw [if_neg]
    · exact ih (s := s.read i) fun q h1 h2 => h q (by omega) (by omega)
    · exact h i (Nat.le_refl i) (by omega)

/-- Where the search of a command's end goes wrong, a `\r` ends the ring. The search takes any
`\n` behind it for the rest of the tail. -/
theorem getKeyDataIndex_cut (hh : head ≤ c.uartRecvFifoSize) (ht : tail < c.uartRecvFifoSize)
    (hx : ¬ Crossing c data head tail netMqttCtrlCmdTail) (idx : Nat) :
    ((getKeyDataIndex c data head tail netMqttCtrlCmdTail idx).found = true →
      ∃ q < tail, data q = 10) ∧
    (getKeyDataIndex c data head tail netMqttCtrlCmdTail idx).index = c.uartRecvFifoSize - 1 := by
  have hk := keyword_ctrlCmdTail
  have hl : netMqttCtrlCmdTail.length = 2 := rfl
  unfold Crossing at hx
  push Not at hx
  obtain ⟨hlt, hnone, q, hq1, hq2, hq3, hq4⟩ := hx
  rw [hl] at hq3
  have hup := scanKey_end data hk hh (s := ⟨0, 0, 0, netMqttCtrlCmdTail.length % 256, idx, 0⟩) rfl
    (Nat.mod_eq_of_lt hk.short)
  unfold getKeyDataIndex
  simp only
  rw [if_neg (by omega), if_pos hlt]
  generalize scanKey data netMqttCtrlCmdTail (clipEnd c.uartRecvFifoSize)
    (c.uartRecvFifoSize - head) head ⟨0, 0, 0, netMqttCtrlCmdTail.length % 256, idx, 0⟩ = r
    at hup ⊢
  obtain ⟨_ | p, s⟩ := r
  · -- the comparison at the last cell was cut after one byte
    simp only
    rcases hup.rest with ⟨-, hcut, -⟩ | ⟨p, hp1, hp2, hp3, -, hc, hj, hidx⟩
    · refine absurd (fun j hj => ?_) (hcut q hq1 (by omega) (by omega))
      rw [show j = 0 by omega]
      exact hq4
    · rw [if_pos (by omega)]
      constructor
      · intro hf
        by_contra hno
        push Not at hno
        rw [scanRest_of_ne] at hf
        · cases hf
        · intro k _ hk
          show data k ≠ keyByte netMqttCtrlCmdTail s.j
          rw [hj, show c.uartRecvFifoSize - p = 1 by omega]
          exact hno k (by omega)
      · obtain ⟨-, hkeep⟩ : _ ∧ (scanRest data netMqttCtrlCmdTail tail 0
            { s with k := 0, keyWordLen := netMqttCtrlCmdTail.length % 256 }).2.sameKeyIndex =
              s.sameKeyIndex :=
          scanRest_frame (b := s.hi + tail + netMqttCtrlCmdTail.length) (show s.hi ≤ _ by omega)
            (by omega) fun m hm => by simp only [hl]; omega
        simp only [hkeep]
        omega
  · -- the loop returns only at an occurrence
    have hhit : Hit data _ _ head _ p s := hup
    have hge := hhit.ge
    have hsize := hhit.le_size
    have hun := Ring.unread_of_lt (n := c.uartRecvFifoSize) hlt
    have hocc := (occursAt_window_upper (p := p - head) hk.ne_nil hh ht (by omega) (by omega)).2
      (by rw [Nat.add_sub_cancel' hge]; exact hhit.agrees)
    rw [hl] at hsize
    have hle := hnone _ hocc
    omega

end

end AppXd.Net4g
