import AppXd.Lib.Search
import AppXd.Net4g.Fifo

/-!
# Searching a keyword in the ring

`getKeyDataIndex` follows `get_key_data_index` loop by loop. The record `KeySearch` holds the
locals that live across the loops, `*sameKey_index`, and `hi`, the number one past the highest cell
read so far.

On a window that does not pass the end of the ring the search finds the first occurrence. On one
that does, it finds it if an occurrence begins before the end of the ring, or if the last
`|key| - 1` cells before that end do not hold the key's first byte (`Crossing`). Otherwise the
shortened `keyWordLen`, or the byte-skipping second half of a split comparison, goes wrong.
-/

namespace AppXd.Net4g

/-- `keyWord[j]`; the key's terminator reads as NUL. -/
def keyByte (key : List UInt8) (j : Nat) : UInt8 := key.getD j 0

/-- The locals of the search. -/
structure KeySearch where
  j : Nat
  k : Nat
  sameKeyCount : Nat
  keyWordLen : Nat
  sameKeyIndex : Nat
  hi : Nat

section
variable (data : Nat → UInt8) (key : List UInt8)

def KeySearch.read (s : KeySearch) (i : Nat) : KeySearch := { s with hi := max s.hi (i + 1) }

/-- The loop `for(j=0; j < keyWordLen; j++)` at the cell `i`, with `n` rounds to go. -/
def compareKey (i : Nat) : Nat → KeySearch → KeySearch
  | 0, s => s
  | n + 1, s =>
    let s := s.read (i + s.j)
    if data (i + s.j) = keyByte key s.j then
      compareKey i n { s with
        sameKeyIndex := if s.sameKeyCount = 0 then i else s.sameKeyIndex
        sameKeyCount := (s.sameKeyCount + 1) % 256
        j := s.j + 1 }
    else { s with sameKeyCount := 0 }

/-- The comparison of the first `len` bytes of the key at the cell `i`. -/
def tryKey (i len : Nat) (s : KeySearch) : KeySearch :=
  compareKey data key i len { s.read i with keyWordLen := len, j := 0 }

/-- The loops over `i`, from the cell `i` on for `n` rounds. The comparison begins with
`keyWordLen` set to `clip i keyWordLen`. Returns the cell at which the loop returned. -/
def scanKey (clip : Nat → Nat → Nat) : Nat → Nat → KeySearch → Option Nat × KeySearch
  | 0, _, s => (none, s)
  | n + 1, i, s =>
    if data i = keyByte key 0 then
      let s := tryKey data key i (clip i s.keyWordLen) s
      if s.sameKeyCount = key.length then (some i, s) else scanKey clip n (i + 1) s
    else scanKey clip n (i + 1) (s.read i)

/-- The loop `for(; j < keyWordLen; j++)` at the cell `ii`, with `n` rounds to go. -/
def compareRest (ii : Nat) : Nat → KeySearch → KeySearch
  | 0, s => s
  | n + 1, s =>
    let s := s.read (ii + s.k)
    if data (ii + s.k) = keyByte key s.j then
      compareRest ii n { s with
        sameKeyCount := (s.sameKeyCount + 1) % 256
        j := s.j + 1
        k := s.k + 1 }
    else { s with sameKeyCount := 0 }

/-- The loop over `ii` that goes on with a comparison cut by the end of the ring. -/
def scanRest : Nat → Nat → KeySearch → Bool × KeySearch
  | 0, _, s => (false, s)
  | n + 1, ii, s =>
    let s := s.read ii
    if data ii = keyByte key s.j then
      let s := compareRest data key ii (s.keyWordLen - s.j) s
      if s.sameKeyCount = key.length then (true, s) else scanRest n (ii + 1) s
    else scanRest n (ii + 1) s

end

/-- Result of the search: the return value, `*sameKey_index`, and one past the last cell read. -/
structure KeyIndex where
  found : Bool
  index : Nat
  hi : Nat

/-- The clipping of `keyWordLen` in the loop up to the end of the ring. -/
def clipEnd (size i len : Nat) : Nat := if size < i + len then size - i else len

def getKeyDataIndex (c : Config) (data : Nat → UInt8) (head tail : Nat) (key : List UInt8)
    (sameKeyIndex : Nat) : KeyIndex :=
  let size := c.uartRecvFifoSize
  let s : KeySearch := ⟨0, 0, 0, key.length % 256, sameKeyIndex, 0⟩
  if head < tail then
    let (r, s) := scanKey data key (fun _ len => len) (tail - head) head s
    ⟨r.isSome, s.sameKeyIndex, s.hi⟩
  else if tail < head then
    match scanKey data key (clipEnd size) (size - head) head s with
    | (some _, s) => ⟨true, s.sameKeyIndex, s.hi⟩
    | (none, s) =>
      if 0 < s.sameKeyCount then
        let (r, s) := scanRest data key tail 0 { s with k := 0, keyWordLen := key.length % 256 }
        ⟨r, s.sameKeyIndex, s.hi⟩
      else
        match scanKey data key (fun _ len => len) tail 0 s with
        | (some i, s) => ⟨true, i, s.hi⟩
        | (none, s) => ⟨false, s.sameKeyIndex, s.hi⟩
  else ⟨false, sameKeyIndex, 0⟩

/-! ## One comparison -/

/-- The first `n` bytes of the key stand in the cells from `i` on. -/
def Agrees (data : Nat → UInt8) (key : List UInt8) (i n : Nat) : Prop :=
  ∀ j < n, data (i + j) = keyByte key j

section
variable {data : Nat → UInt8} {key : List UInt8} {i n : Nat}

theorem Agrees.mono {m : Nat} (h : Agrees data key i n) (hm : m ≤ n) : Agrees data key i m :=
  fun j hj => h j (Nat.lt_of_lt_of_le hj hm)

theorem agrees_succ : Agrees data key i (n + 1) ↔
    Agrees data key i n ∧ data (i + n) = keyByte key n := by
  constructor
  · exact fun h => ⟨h.mono (Nat.le_succ n), h n (Nat.lt_succ_self n)⟩
  · rintro ⟨h, hn⟩ j hj
    rcases Nat.lt_succ_iff_lt_or_eq.1 hj with hlt | rfl
    · exact h j hlt
    · exact hn

/-- A comparison that succeeds, begun after `j` equal bytes. -/
theorem compareKey_agrees {s : KeySearch} (h : Agrees data key i (s.j + n))
    (hc : s.sameKeyCount = s.j) (hi : 0 < s.j → s.sameKeyIndex = i) (hn : s.j + n < 256) :
    let s' := compareKey data key i n s
    s'.j = s.j + n ∧ s'.sameKeyCount = s.j + n ∧ (0 < s.j + n → s'.sameKeyIndex = i) ∧
      s'.keyWordLen = s.keyWordLen := by
  induction n generalizing s with
  | zero => exact ⟨rfl, hc, hi, rfl⟩
  | succ n ih =>
    have hcell : data (i + s.j) = keyByte key s.j := h s.j (by omega)
    have hidx : (if s.sameKeyCount = 0 then i else s.sameKeyIndex) = i := by
      split
      · rfl
      · exact hi (by omega)
    simp only [compareKey, KeySearch.read, hcell, if_true]
    rw [show s.j + (n + 1) = s.j + 1 + n by omega] at h hn ⊢
    exact ih h (by simp only; omega) (fun _ => hidx) hn

/-- A comparison that fails resets the count. -/
theorem compareKey_differs {s : KeySearch} (h : ¬ Agrees data key i (s.j + n))
    (hpre : Agrees data key i s.j) :
    (compareKey data key i n s).sameKeyCount = 0 ∧
      (compareKey data key i n s).keyWordLen = s.keyWordLen := by
  induction n generalizing s with
  | zero => exact absurd hpre h
  | succ n ih =>
    by_cases hcell : data (i + s.j) = keyByte key s.j
    · simp only [compareKey, KeySearch.read, hcell, if_true]
      refine ih ?_ (agrees_succ.2 ⟨hpre, hcell⟩)
      rwa [show s.j + (n + 1) = s.j + 1 + n by omega] at h
    · simp only [compareKey, KeySearch.read, hcell, if_false, and_self]

/-- A cell is read only when all the bytes before it agree. -/
theorem compareKey_hi {s : KeySearch} {b : Nat} (hb : s.hi ≤ b) (hpre : Agrees data key i s.j)
    (h : ∀ m < n, Agrees data key i (s.j + m) → i + (s.j + m) < b) :
    (compareKey data key i n s).hi ≤ b := by
  induction n generalizing s with
  | zero => exact hb
  | succ n ih =>
    have hread : max s.hi (i + s.j + 1) ≤ b := Nat.max_le.2 ⟨hb, h 0 (Nat.succ_pos n) hpre⟩
    by_cases hcell : data (i + s.j) = keyByte key s.j
    · simp only [compareKey, KeySearch.read, hcell, if_true]
      refine ih hread (agrees_succ.2 ⟨hpre, hcell⟩) fun m hm hag => ?_
      have := h (m + 1) (by omega)
      rw [show s.j + (m + 1) = s.j + 1 + m by omega] at this
      exact this hag
    · simpa only [compareKey, KeySearch.read, hcell, if_false] using hread

theorem tryKey_agrees {s : KeySearch} (h : Agrees data key i n) (hc : s.sameKeyCount = 0)
    (h0 : 0 < n) (hn : n < 256) :
    let s' := tryKey data key i n s
    s'.j = n ∧ s'.sameKeyCount = n ∧ s'.sameKeyIndex = i ∧ s'.keyWordLen = n := by
  obtain ⟨hj, hcnt, hidx, hlen⟩ := compareKey_agrees
    (s := { s.read i with keyWordLen := n, j := 0 }) (by simpa using h) hc
    (fun h => absurd h (Nat.lt_irrefl 0)) (by simpa using hn)
  simp only [Nat.zero_add] at hj hcnt hidx hlen
  exact ⟨hj, hcnt, hidx h0, hlen⟩

theorem tryKey_differs {s : KeySearch} (h : ¬ Agrees data key i n) :
    (tryKey data key i n s).sameKeyCount = 0 ∧ (tryKey data key i n s).keyWordLen = n :=
  compareKey_differs (s := { s.read i with keyWordLen := n, j := 0 }) (by simpa using h)
    fun j hj => absurd hj (Nat.not_lt_zero j)

theorem tryKey_hi {s : KeySearch} {b : Nat} (hb : s.hi ≤ b) (hi : i < b)
    (h : ∀ m < n, Agrees data key i m → i + m < b) : (tryKey data key i n s).hi ≤ b :=
  compareKey_hi (s := { s.read i with keyWordLen := n, j := 0 }) (Nat.max_le.2 ⟨hb, hi⟩)
    (fun j hj => absurd hj (Nat.not_lt_zero j)) (by simpa using h)

end

/-! ## The loops -/

section
variable {data : Nat → UInt8} {key : List UInt8} {clip : Nat → Nat → Nat}

theorem keyByte_ne_zero (hk : Keyword key) {j : Nat} (hj : j < key.length) : keyByte key j ≠ 0 :=
  hk.getD_ne_zero hj

/-- The first byte does not come back inside a part that agrees. -/
theorem Agrees.ne_first (hk : Keyword key) {i n q : Nat} (h : Agrees data key i n) (hi : i < q)
    (hq : q < i + n) (hn : n ≤ key.length) : data q ≠ keyByte key 0 := by
  have hcell := h (q - i) (by omega)
  rw [show i + (q - i) = q by omega] at hcell
  rw [hcell]
  exact hk.getD_ne_first (by omega) (by omega)

/-- A part that agrees ends before the NUL. -/
theorem Agrees.le_nul (hk : Keyword key) {i n z : Nat} (h : Agrees data key i n) (hz : data z = 0)
    (hiz : i ≤ z) (hn : n ≤ key.length) : i + n ≤ z := by
  by_contra hlt
  have hcell := h (z - i) (by omega)
  rw [show i + (z - i) = z by omega, hz] at hcell
  exact keyByte_ne_zero hk (by omega) hcell.symm

/-- Cells without the first byte are passed over. -/
theorem scanKey_of_ne (data : Nat → UInt8) (key : List UInt8) (clip : Nat → Nat → Nat)
    {n i : Nat} {s : KeySearch}
    (h : ∀ q, i ≤ q → q < i + n → data q ≠ keyByte key 0) :
    ∃ b, scanKey data key clip n i s = (none, { s with hi := b }) := by
  induction n generalizing i s with
  | zero => exact ⟨s.hi, rfl⟩
  | succ n ih =>
    rw [scanKey, if_neg (h i (Nat.le_refl i) (by omega))]
    exact ih (s := s.read i) fun q h1 h2 => h q (by omega) (by omega)

/-- The loop returned at the first full occurrence. -/
structure Hit (data : Nat → UInt8) (key : List UInt8) (size i n p : Nat) (s' : KeySearch) :
    Prop where
  ge : i ≤ p
  lt : p < i + n
  le_size : p + key.length ≤ size
  agrees : Agrees data key p key.length
  first : ∀ q, i ≤ q → q < p → ¬ Agrees data key q key.length
  index : s'.sameKeyIndex = p

/-- The loop ended: no full occurrence begins in the part passed. `size` is the end that the
comparisons are clipped to; if the key's beginning stands right before it, the locals point to
that place. -/
structure Missed (data : Nat → UInt8) (key : List UInt8) (size i n : Nat) (s s' : KeySearch) :
    Prop where
  none_full : ∀ q, i ≤ q → q < i + n → q + key.length ≤ size → ¬ Agrees data key q key.length
  rest : (s'.sameKeyCount = 0 ∧
      (∀ q, i ≤ q → q < i + n → size < q + key.length → ¬ Agrees data key q (size - q)) ∧
      (s'.keyWordLen = s.keyWordLen ∨
        ∃ q, i ≤ q ∧ q < i + n ∧ size < q + key.length ∧ data q = keyByte key 0)) ∨
    ∃ p, i ≤ p ∧ p < i + n ∧ size < p + key.length ∧ Agrees data key p (size - p) ∧
      s'.sameKeyCount = size - p ∧ s'.j = size - p ∧ s'.sameKeyIndex = p

/-- The two outcomes of a loop over `i`. -/
def Scanned (data : Nat → UInt8) (key : List UInt8) (size i n : Nat) (s : KeySearch) :
    Option Nat × KeySearch → Prop
  | (some p, s') => Hit data key size i n p s'
  | (none, s') => Missed data key size i n s s'

/-- A round that compares in vain adds its cell to what the later rounds say. `t` is the state it
leaves. -/
theorem Scanned.cons {size i n : Nat} {s t : KeySearch} {r : Option Nat × KeySearch}
    (hne : ¬ Agrees data key i (min key.length (size - i)))
    (hlen : t.keyWordLen = s.keyWordLen ∨ size < i + key.length ∧ data i = keyByte key 0)
    (h : Scanned data key size (i + 1) n t r) : Scanned data key size i (n + 1) s r := by
  have hfull : ¬ Agrees data key i key.length := fun h => hne (h.mono (Nat.min_le_left _ _))
  obtain ⟨_ | p, s'⟩ := r
  · refine ⟨fun q hq hq' hle => ?_, ?_⟩
    · rcases Nat.eq_or_lt_of_le hq with rfl | hlt
      · exact hfull
      · exact h.none_full q hlt (by omega) hle
    · rcases h.rest with ⟨hc, hpart, hl⟩ | ⟨p, h2, h3, h4⟩
      · refine .inl ⟨hc, fun q hq hq' hcut => ?_, ?_⟩
        · rcases Nat.eq_or_lt_of_le hq with rfl | hlt
          · rwa [Nat.min_eq_right (by omega)] at hne
          · exact hpart q hlt (by omega) hcut
        · rcases hl with hl | ⟨q, h2, h3, h4⟩
          · exact hlen.imp hl.trans fun ⟨h5, h6⟩ => ⟨i, Nat.le_refl i, by omega, h5, h6⟩
          · exact .inr ⟨q, by omega, by omega, h4⟩
      · exact .inr ⟨p, by omega, by omega, h4⟩
  · refine ⟨Nat.le_of_succ_le h.ge, ?_, h.le_size, h.agrees, fun q hq hqp => ?_, h.index⟩
    · have := h.lt
      omega
    · rcases Nat.eq_or_lt_of_le hq with rfl | hlt
      · exact hfull
      · exact h.first q hlt hqp

/-- A loop over `i` returns at the first full occurrence. -/
theorem scanKey_spec (hk : Keyword key) {size n i : Nat} {s : KeySearch} (hn : i + n ≤ size)
    (hclip : ∀ q l, i ≤ q → q < i + n → min key.length (size - q) ≤ l → l ≤ key.length →
      clip q l = min key.length (size - q))
    (hc : s.sameKeyCount = 0) (hlo : min key.length (size - i) ≤ s.keyWordLen)
    (hhi : s.keyWordLen ≤ key.length) :
    Scanned data key size i n s (scanKey data key clip n i s) := by
  induction n generalizing i s with
  | zero => exact ⟨fun q h1 h2 => by omega, .inl ⟨hc, fun q h1 h2 => by omega, .inl rfl⟩⟩
  | succ n ih =>
    have hpos := hk.length_pos
    have hshort := hk.short
    have hclip' : ∀ q l, i + 1 ≤ q → q < i + 1 + n → min key.length (size - q) ≤ l →
        l ≤ key.length → clip q l = min key.length (size - q) :=
      fun q l h1 h2 => hclip q l (by omega) (by omega)
    rw [scanKey]
    by_cases hcell : data i = keyByte key 0
    · rw [if_pos hcell, hclip i s.keyWordLen (Nat.le_refl i) (by omega) hlo hhi]
      by_cases hag : Agrees data key i (min key.length (size - i))
      · obtain ⟨hj, hcnt, hidx, -⟩ := tryKey_agrees hag hc (by omega) (by omega)
        rcases Nat.lt_or_ge size (i + key.length) with hcut | hfull
        · -- the key's beginning stands right before the end: nothing later can begin with it
          rw [Nat.min_eq_right (by omega)] at *
          have hrest : ∀ q, i + 1 ≤ q → q < i + 1 + n → data q ≠ keyByte key 0 :=
            fun q h1 h2 => hag.ne_first hk h1 (by omega) (by omega)
          obtain ⟨b, hb⟩ : ∃ b, scanKey data key clip n (i + 1) (tryKey data key i (size - i) s) =
            (none, { tryKey data key i (size - i) s with hi := b }) :=
            scanKey_of_ne data key clip hrest
          simp only [hcnt, if_neg (show size - i ≠ key.length by omega), hb]
          exact ⟨fun q h1 h2 h3 => by omega,
            .inr ⟨i, Nat.le_refl i, by omega, hcut, hag, rfl, hj, hidx⟩⟩
        · rw [Nat.min_eq_left (by omega)] at *
          simp only [hcnt, if_true]
          exact ⟨Nat.le_refl i, by omega, hfull, hag, fun q h1 h2 => by omega, hidx⟩
      · obtain ⟨hcnt, hkl⟩ := tryKey_differs (s := s) hag
        simp only [hcnt, if_neg (Nat.ne_of_lt hpos)]
        refine Scanned.cons hag ?_ (ih (by omega) hclip' hcnt (by rw [hkl]; omega)
          (by rw [hkl]; omega))
        rcases Nat.lt_or_ge size (i + key.length) with hcut | hfull
        · exact .inr ⟨hcut, hcell⟩
        · exact .inl (by rw [hkl]; omega)
    · rw [if_neg hcell]
      refine Scanned.cons (t := s.read i) (fun h => hcell ?_) (.inl rfl) (ih (s := s.read i) (by omega) hclip' hc
        (show _ ≤ s.keyWordLen by omega) hhi)
      exact h 0 (by omega)

/-- The second half of a split comparison, when the bytes go on. -/
theorem compareRest_agrees {i n : Nat} {s : KeySearch}
    (h : ∀ t < n, data (i + (s.k + t)) = keyByte key (s.j + t)) (hc : s.sameKeyCount = s.j)
    (hn : s.j + n < 256) :
    let s' := compareRest data key i n s
    s'.sameKeyCount = s.j + n ∧ s'.sameKeyIndex = s.sameKeyIndex := by
  induction n generalizing s with
  | zero => exact ⟨hc, rfl⟩
  | succ n ih =>
    have hcell : data (i + s.k) = keyByte key s.j := h 0 (Nat.succ_pos n)
    simp only [compareRest, KeySearch.read, hcell, if_true]
    rw [show s.j + (n + 1) = s.j + 1 + n by omega] at hn ⊢
    refine ih (fun t ht => ?_) (by simp only; omega) hn
    have := h (t + 1) (by omega)
    rwa [show s.k + (t + 1) = s.k + 1 + t by omega, show s.j + (t + 1) = s.j + 1 + t by omega]
      at this

/-- What the second half reads, and how its counters move. -/
theorem compareRest_frame {i n b : Nat} {s : KeySearch} (hb : s.hi ≤ b)
    (hn : i + s.k + n ≤ b) :
    let s' := compareRest data key i n s
    s'.hi ≤ b ∧ s'.keyWordLen = s.keyWordLen ∧ s'.sameKeyIndex = s.sameKeyIndex ∧
      ∃ d ≤ n, s'.k = s.k + d ∧ s'.j = s.j + d := by
  induction n generalizing s with
  | zero => exact ⟨hb, rfl, rfl, 0, Nat.le_refl 0, rfl, rfl⟩
  | succ n ih =>
    have hread : max s.hi (i + s.k + 1) ≤ b := by omega
    by_cases hcell : data (i + s.k) = keyByte key s.j
    · simp only [compareRest, KeySearch.read, hcell, if_true]
      obtain ⟨h1, h2, h3, d, hd, h4, h5⟩ := ih (s := { s with
          sameKeyCount := (s.sameKeyCount + 1) % 256
          j := s.j + 1
          k := s.k + 1
          hi := max s.hi (i + s.k + 1) }) hread (show i + (s.k + 1) + n ≤ b by omega)
      exact ⟨h1, h2, h3, d + 1, Nat.succ_le_succ hd, h4.trans (Nat.succ_add_eq_add_succ _ _),
        h5.trans (Nat.succ_add_eq_add_succ _ _)⟩
    · simp only [compareRest, KeySearch.read, hcell, if_false]
      exact ⟨hread, trivial, trivial, 0, Nat.zero_le _, rfl, rfl⟩

theorem scanRest_agrees (data : Nat → UInt8) {n : Nat} {s : KeySearch} (hn : 0 < n)
    (hk : s.k = 0) (hj : s.j < key.length) (hl : s.keyWordLen = key.length) (hc : s.sameKeyCount = s.j)
    (hlen : key.length < 256) (h : ∀ t < key.length - s.j, data t = keyByte key (s.j + t)) :
    ∃ s', scanRest data key n 0 s = (true, s') ∧ s'.sameKeyIndex = s.sameKeyIndex ∧
      s'.hi ≤ max s.hi (key.length - s.j) := by
  cases n with
  | zero => exact absurd hn (Nat.lt_irrefl 0)
  | succ n =>
    have hcell : data 0 = keyByte key s.j := h 0 (by omega)
    have hcells : ∀ t < key.length - s.j, data (0 + ((s.read 0).k + t)) = keyByte key (s.j + t) :=
      fun t ht => by simpa [KeySearch.read, hk] using h t ht
    obtain ⟨hcnt, hidx⟩ := compareRest_agrees (s := s.read 0) hcells hc (show s.j + _ < 256 by omega)
    obtain ⟨hhi, -⟩ := compareRest_frame (s := s.read 0) (b := max s.hi (key.length - s.j))
      (show max s.hi (0 + 1) ≤ _ by omega)
      (show 0 + s.k + (key.length - s.j) ≤ max s.hi (key.length - s.j) by omega)
    simp only [scanRest]
    rw [if_pos (show data 0 = keyByte key (s.read 0).j from hcell)]
    rw [show (s.read 0).keyWordLen - (s.read 0).j = key.length - s.j by
      simp only [KeySearch.read, hl]]
    rw [if_pos (by rw [hcnt]; simp only [KeySearch.read]; omega)]
    exact ⟨_, rfl, hidx, hhi⟩

end

/-! ## The search -/

section
variable {c : Config} {data : Nat → UInt8} {key : List UInt8} {head tail : Nat}

/-- An occurrence in the window, cell by cell. -/
theorem occursAt_window {n p : Nat} (hk : key ≠ []) (hh : head ≤ n) (ht : tail < n) :
    Seq.OccursAt key (Ring.window data n head tail) p ↔
      p + key.length ≤ Ring.unread n head tail ∧
        ∀ j < key.length, data (Ring.wrap n (head + p + j)) = keyByte key j := by
  have hbyte : ∀ j (h : j < key.length), keyByte key j = key[j] := fun j h =>
    List.getD_eq_getElem _ _ h
  constructor
  · intro h
    have hle := h.le_length hk
    rw [Ring.length_window] at hle
    refine ⟨hle, fun j hj => ?_⟩
    have hcell := h.getElem? hj
    rw [Ring.getElem?_window hh ht (by omega), Option.some.injEq, ← Nat.add_assoc] at hcell
    rw [hcell, hbyte j hj]
  · rintro ⟨hle, h⟩
    refine Seq.occursAt_iff.2 fun j hj => ?_
    rw [Ring.getElem?_window hh ht (by omega), ← Nat.add_assoc, h j hj, hbyte j hj]

theorem occursAt_window_upper {n p : Nat} (hk : key ≠ []) (hh : head ≤ n) (ht : tail < n)
    (hle : p + key.length ≤ Ring.unread n head tail) (hp : head + p + key.length ≤ n) :
    Seq.OccursAt key (Ring.window data n head tail) p ↔ Agrees data key (head + p) key.length := by
  rw [occursAt_window hk hh ht]
  refine (and_iff_right hle).trans (forall₂_congr fun j hj => ?_)
  rw [Ring.wrap, if_pos (by omega)]

theorem occursAt_window_lower {n p : Nat} (hk : key ≠ []) (hh : head ≤ n) (ht : tail < n)
    (hle : p + key.length ≤ Ring.unread n head tail) (hp : n ≤ head + p) :
    Seq.OccursAt key (Ring.window data n head tail) p ↔
      Agrees data key (head + p - n) key.length := by
  rw [occursAt_window hk hh ht]
  refine (and_iff_right hle).trans (forall₂_congr fun j hj => ?_)
  rw [Ring.wrap, if_neg (by omega), Nat.sub_add_comm hp]

/-- An occurrence that straddles the end of the ring. -/
theorem occursAt_window_straddle {n p : Nat} (hk : key ≠ []) (hh : head ≤ n) (ht : tail < n)
    (h1 : head + p < n) (h2 : n < head + p + key.length)
    (h : Seq.OccursAt key (Ring.window data n head tail) p) :
    Agrees data key (head + p) (n - (head + p)) ∧
      ∀ t < key.length - (n - (head + p)), data t = keyByte key (n - (head + p) + t) := by
  obtain ⟨-, hcell⟩ := (occursAt_window hk hh ht).1 h
  constructor
  · intro j hj
    have := hcell j (by omega)
    rwa [Ring.wrap, if_pos (by omega)] at this
  · intro t ht
    have := hcell (n - (head + p) + t) (by omega)
    rwa [Ring.wrap, if_neg (by omega), show head + p + (n - (head + p) + t) - n = t by omega]
      at this

/-- Two places right before the end of the ring at which the key begins are the same. -/
theorem Agrees.end_unique (hk : Keyword key) {n p q : Nat} (hp : Agrees data key p (n - p))
    (hq : Agrees data key q (n - q)) (hpn : p < n) (hqn : q < n) (hp' : n ≤ p + key.length)
    (hq' : n ≤ q + key.length) : p = q := by
  rcases Nat.lt_trichotomy p q with hlt | rfl | hlt
  · exact absurd (hq 0 (by omega)) (hp.ne_first hk hlt (by omega) (by omega))
  · rfl
  · exact absurd (hp 0 (by omega)) (hq.ne_first hk hlt (by omega) (by omega))

/-- The windows in which the search is right: those that do not pass the end of the ring, those
with an occurrence that begins before that end, and those where the key's first byte does not
stand among the last cells before it. -/
def Crossing (c : Config) (data : Nat → UInt8) (head tail : Nat) (key : List UInt8) : Prop :=
  head ≤ tail ∨
    (∃ p, Seq.OccursAt key (Ring.window data c.uartRecvFifoSize head tail) p ∧
      head + p < c.uartRecvFifoSize) ∨
    ∀ q, head ≤ q → q < c.uartRecvFifoSize → c.uartRecvFifoSize < q + key.length →
      data q ≠ keyByte key 0

instance : Decidable (Crossing c data head tail key) :=
  decidable_of_iff (head ≤ tail ∨
      (∃ p < c.uartRecvFifoSize, Seq.OccursAt key
        (Ring.window data c.uartRecvFifoSize head tail) p ∧ head + p < c.uartRecvFifoSize) ∨
      ∀ q < c.uartRecvFifoSize, head ≤ q → c.uartRecvFifoSize < q + key.length →
        data q ≠ keyByte key 0) <| by
    refine or_congr_right (or_congr ⟨?_, ?_⟩ ⟨?_, ?_⟩)
    · rintro ⟨p, -, h⟩
      exact ⟨p, h⟩
    · rintro ⟨p, ho, hp⟩
      exact ⟨p, Nat.lt_of_le_of_lt (Nat.le_add_left ..) hp, ho, hp⟩
    · exact fun h q h1 h2 => h q h2 h1
    · exact fun h q h1 h2 => h q h2 h1

/-- What a right search returns: the cell of the first occurrence, if there is one. -/
def FirstFound (c : Config) (data : Nat → UInt8) (head tail : Nat) (key : List UInt8)
    (r : KeyIndex) : Prop :=
  match Seq.firstAt key (Ring.window data c.uartRecvFifoSize head tail) with
  | some p => r.found = true ∧ r.index = Ring.wrap c.uartRecvFifoSize (head + p)
  | none => r.found = false

theorem FirstFound.of_some {r : KeyIndex} {p : Nat} (h : FirstFound c data head tail key r)
    (hp : Seq.firstAt key (Ring.window data c.uartRecvFifoSize head tail) = some p) :
    r.found = true ∧ r.index = Ring.wrap c.uartRecvFifoSize (head + p) := by
  rwa [FirstFound, hp] at h

theorem FirstFound.of_none {r : KeyIndex} (h : FirstFound c data head tail key r)
    (hn : Seq.firstAt key (Ring.window data c.uartRecvFifoSize head tail) = none) :
    r.found = false := by
  rwa [FirstFound, hn] at h

/-- The loop over a part that does not pass the end of the ring. -/
theorem scanKey_flat (data : Nat → UInt8) (hk : Keyword key) (i n : Nat) {s : KeySearch}
    (hc : s.sameKeyCount = 0) (hl : s.keyWordLen = key.length) :
    Scanned data key (i + n + key.length) i n s
      (scanKey data key (fun _ len => len) n i s) := by
  refine scanKey_spec hk (by omega) (fun q l h1 h2 h3 h4 => ?_) hc ?_ hl.le
  · rw [Nat.min_eq_left (by omega)] at h3 ⊢
    exact Nat.le_antisymm h4 h3
  · rw [hl]
    exact Nat.min_le_left _ _

/-- The loop up to the end of the ring. -/
theorem scanKey_end (data : Nat → UInt8) (hk : Keyword key) {n i : Nat} {s : KeySearch} (hi : i ≤ n)
    (hc : s.sameKeyCount = 0) (hl : s.keyWordLen = key.length) :
    Scanned data key n i (n - i) s (scanKey data key (clipEnd n) (n - i) i s) := by
  refine scanKey_spec hk (by omega) (fun q l h1 h2 h3 h4 => ?_) hc ?_ hl.le
  · unfold clipEnd
    split <;> omega
  · rw [hl]
    exact Nat.min_le_left _ _

theorem FirstFound.some {r : KeyIndex} {p : Nat} (hne : key ≠ [])
    (ho : Seq.OccursAt key (Ring.window data c.uartRecvFifoSize head tail) p)
    (hfirst : ∀ q < p, ¬ Seq.OccursAt key (Ring.window data c.uartRecvFifoSize head tail) q)
    (hr : r.found = true) (hi : r.index = Ring.wrap c.uartRecvFifoSize (head + p)) :
    FirstFound c data head tail key r := by
  unfold FirstFound
  rw [Seq.firstAt_eq_some hne ho hfirst]
  exact ⟨hr, hi⟩

theorem FirstFound.none {r : KeyIndex}
    (h : ∀ q, ¬ Seq.OccursAt key (Ring.window data c.uartRecvFifoSize head tail) q)
    (hr : r.found = false) : FirstFound c data head tail key r := by
  unfold FirstFound
  rw [Seq.firstAt_eq_none h]
  exact hr

/-- The loop over a part that does not pass the end of the ring returns the occurrence that is
first in the window, if no earlier one begins before the part. -/
theorem Scanned.firstFound (hk : Keyword key) {i n d : Nat} {s : KeySearch}
    {r : Option Nat × KeySearch}
    (hs : Scanned data key (i + n + key.length) i n s r) (hend : data (i + n) = 0)
    (hun : Ring.unread c.uartRecvFifoSize head tail = d + n)
    (hbefore : ∀ q < d, ¬ Seq.OccursAt key (Ring.window data c.uartRecvFifoSize head tail) q)
    (hcell : ∀ q, q + key.length ≤ n →
      (Seq.OccursAt key (Ring.window data c.uartRecvFifoSize head tail) (d + q) ↔
        Agrees data key (i + q) key.length) ∧
      Ring.wrap c.uartRecvFifoSize (head + (d + q)) = i + q)
    (res : KeyIndex) (hfound : res.found = r.1.isSome)
    (hindex : ∀ p, r.1 = some p → res.index = p) : FirstFound c data head tail key res := by
  have hne := hk.ne_nil
  have hpos := hk.length_pos
  have hlater : ∀ q, Seq.OccursAt key (Ring.window data c.uartRecvFifoSize head tail) q →
      d ≤ q ∧ q - d + key.length ≤ n ∧ Agrees data key (i + (q - d)) key.length := fun q hq => by
    have hle := hq.le_length hne
    rw [Ring.length_window, hun] at hle
    have hd : d ≤ q := by
      by_contra h
      exact hbefore q (by omega) hq
    refine ⟨hd, by omega, (hcell (q - d) (by omega)).1.1 ?_⟩
    rwa [show d + (q - d) = q by omega]
  obtain ⟨_ | p, s'⟩ := r
  · refine .none (fun q hq => ?_) hfound
    obtain ⟨h1, h2, h3⟩ := hlater q hq
    exact hs.none_full (i + (q - d)) (by omega) (by omega) (by omega) h3
  · have hge := hs.ge
    have hlt := hs.lt
    have hin := hs.agrees.le_nul hk hend (by omega) (Nat.le_refl _)
    obtain ⟨hocc, hwrap⟩ := hcell (p - i) (by omega)
    rw [show i + (p - i) = p by omega] at hocc hwrap
    refine .some hne (hocc.2 hs.agrees) (fun q hq ho => ?_) hfound ?_
    · obtain ⟨h1, h2, h3⟩ := hlater q ho
      exact hs.first (i + (q - d)) (by omega) (by omega) h3
    · rw [hwrap]
      exact hindex p rfl

/-- The search in a window that does not pass the end of the ring. -/
theorem getKeyDataIndex_flat (hk : Keyword key) (hle : head ≤ tail)
    (ht : tail < c.uartRecvFifoSize) (hz : data tail = 0) (idx : Nat) :
    FirstFound c data head tail key (getKeyDataIndex c data head tail key idx) := by
  have hne := hk.ne_nil
  rcases Nat.eq_or_lt_of_le hle with rfl | hlt
  · refine .none (fun q hq => ?_) (by simp [getKeyDataIndex])
    have hle := hq.le_length hne
    have hpos := hk.length_pos
    simp only [Ring.window_self, List.length_nil] at hle
    omega
  · have hun := Ring.unread_of_le (n := c.uartRecvFifoSize) hle
    have hs := scanKey_flat data hk head (tail - head)
      (s := ⟨0, 0, 0, key.length % 256, idx, 0⟩) rfl (Nat.mod_eq_of_lt hk.short)
    unfold getKeyDataIndex
    simp only [if_pos hlt]
    refine hs.firstFound hk (d := 0) (by rwa [show head + (tail - head) = tail by omega])
      (by omega) (fun q hq => absurd hq (Nat.not_lt_zero q)) (fun q hq => ⟨?_, ?_⟩) _ rfl ?_
    · rw [Nat.zero_add]
      exact occursAt_window_upper hne (by omega) ht (by omega) (by omega)
    · rw [Ring.wrap, if_pos (by omega), Nat.zero_add]
    · intro p hp
      generalize scanKey data key (fun _ len => len) (tail - head) head
        ⟨0, 0, 0, key.length % 256, idx, 0⟩ = r at hs hp ⊢
      obtain ⟨_ | p', s'⟩ := r
      · cases hp
      · cases hp
        exact hs.index

/-! ### A window that passes the end of the ring -/

/-- The first occurrence ends before the end of the ring. -/
theorem Hit.firstFound (hk : Keyword key) (hh : head ≤ c.uartRecvFifoSize)
    (ht : tail < c.uartRecvFifoSize) (hlt : tail < head) {p : Nat} {s' : KeySearch}
    (hs : Hit data key c.uartRecvFifoSize head (c.uartRecvFifoSize - head) p s') :
    FirstFound c data head tail key ⟨true, s'.sameKeyIndex, s'.hi⟩ := by
  have hne := hk.ne_nil
  have hge := hs.ge
  have hsize := hs.le_size
  have hpos := hk.length_pos
  have hun := Ring.unread_of_lt (n := c.uartRecvFifoSize) hlt
  refine .some hne (p := p - head) ?_ (fun q hq ho => ?_) rfl ?_
  · refine (occursAt_window_upper hne hh ht (by omega) (by omega)).2 ?_
    rw [show head + (p - head) = p by omega]
    exact hs.agrees
  · have hle := ho.le_length hne
    rw [Ring.length_window] at hle
    exact hs.first (head + q) (by omega) (by omega)
      ((occursAt_window_upper hne hh ht hle (by omega)).1 ho)
  · rw [Ring.wrap, if_pos (by omega)]
    exact hs.index.trans (by omega)

/-- When no occurrence ends before the end of the ring, one that begins before it straddles it. -/
theorem Missed.straddles (hk : Keyword key) (hh : head ≤ c.uartRecvFifoSize)
    (ht : tail < c.uartRecvFifoSize) {s s' : KeySearch}
    (hs : Missed data key c.uartRecvFifoSize head (c.uartRecvFifoSize - head) s s') {q : Nat}
    (ho : Seq.OccursAt key (Ring.window data c.uartRecvFifoSize head tail) q)
    (hq : head + q < c.uartRecvFifoSize) :
    c.uartRecvFifoSize < head + q + key.length ∧
      Agrees data key (head + q) (c.uartRecvFifoSize - (head + q)) ∧
      ∀ t < key.length - (c.uartRecvFifoSize - (head + q)),
        data t = keyByte key (c.uartRecvFifoSize - (head + q) + t) := by
  have hne := hk.ne_nil
  have hcut : c.uartRecvFifoSize < head + q + key.length := by
    have hle := ho.le_length hne
    rw [Ring.length_window] at hle
    by_contra h
    exact hs.none_full (head + q) (by omega) (by omega) (by omega)
      ((occursAt_window_upper hne hh ht hle (by omega)).1 ho)
  exact ⟨hcut, occursAt_window_straddle hne hh ht hq hcut ho⟩

/-- The loop over the part behind the end of the ring. -/
theorem scanKey_firstFound (hk : Keyword key) (hh : head ≤ c.uartRecvFifoSize)
    (ht : tail < c.uartRecvFifoSize) (hlt : tail < head) (hz : data tail = 0) {s : KeySearch}
    (hc : s.sameKeyCount = 0) (hl : s.keyWordLen = key.length)
    (hnone : ∀ q, head + q < c.uartRecvFifoSize →
      ¬ Seq.OccursAt key (Ring.window data c.uartRecvFifoSize head tail) q) :
    FirstFound c data head tail key
      (match scanKey data key (fun _ len => len) tail 0 s with
      | (some i, s) => ⟨true, i, s.hi⟩
      | (none, s) => ⟨false, s.sameKeyIndex, s.hi⟩) := by
  have hun := Ring.unread_of_lt (n := c.uartRecvFifoSize) hlt
  have hcell : ∀ q, q + key.length ≤ tail →
      (Seq.OccursAt key (Ring.window data c.uartRecvFifoSize head tail)
        (c.uartRecvFifoSize - head + q) ↔ Agrees data key (0 + q) key.length) ∧
      Ring.wrap c.uartRecvFifoSize (head + (c.uartRecvFifoSize - head + q)) = 0 + q :=
    fun q hq => by
      have hpos : head + (c.uartRecvFifoSize - head + q) = c.uartRecvFifoSize + q := by omega
      rw [occursAt_window_lower hk.ne_nil hh ht (by omega) (by omega), hpos,
        Nat.add_sub_cancel_left, Nat.zero_add, Ring.wrap, if_neg (by omega), Nat.add_sub_cancel_left]
      exact ⟨Iff.rfl, rfl⟩
  have hff := (scanKey_flat data hk 0 tail hc hl).firstFound hk (by rwa [Nat.zero_add]) hun
    (fun q hq => hnone q (by omega)) hcell
  generalize scanKey data key (fun _ len => len) tail 0 s = r at hff ⊢
  obtain ⟨_ | p, s'⟩ := r
  · exact hff _ rfl fun p hp => by cases hp
  · exact hff _ rfl fun p' hp => Option.some.inj hp

/-- An occurrence that begins before the end of the ring is the one whose beginning stands right
before it. -/
theorem Missed.eq_of_agrees (hk : Keyword key) (hh : head ≤ c.uartRecvFifoSize)
    (ht : tail < c.uartRecvFifoSize) {s s' : KeySearch} {p q : Nat}
    (hs : Missed data key c.uartRecvFifoSize head (c.uartRecvFifoSize - head) s s')
    (hp : p < c.uartRecvFifoSize) (hcut : c.uartRecvFifoSize < p + key.length)
    (hag : Agrees data key p (c.uartRecvFifoSize - p))
    (ho : Seq.OccursAt key (Ring.window data c.uartRecvFifoSize head tail) q)
    (hq : head + q < c.uartRecvFifoSize) : head + q = p := by
  obtain ⟨h1, h2, -⟩ := hs.straddles hk hh ht ho hq
  exact Agrees.end_unique hk h2 hag hq hp (by omega) (by omega)

/-- The key begins right before the end of the ring and goes on behind it. -/
theorem scanRest_firstFound (hk : Keyword key) (hh : head ≤ c.uartRecvFifoSize)
    (ht : tail < c.uartRecvFifoSize) (hlt : tail < head) {s₀ s : KeySearch} {p q : Nat}
    (hs : Missed data key c.uartRecvFifoSize head (c.uartRecvFifoSize - head) s₀ s)
    (hp : p < c.uartRecvFifoSize) (hcut : c.uartRecvFifoSize < p + key.length)
    (hag : Agrees data key p (c.uartRecvFifoSize - p))
    (hc : s.sameKeyCount = c.uartRecvFifoSize - p) (hj : s.j = c.uartRecvFifoSize - p)
    (hidx : s.sameKeyIndex = p)
    (ho : Seq.OccursAt key (Ring.window data c.uartRecvFifoSize head tail) q)
    (hq : head + q < c.uartRecvFifoSize) :
    let r := scanRest data key tail 0 { s with k := 0, keyWordLen := key.length % 256 }
    FirstFound c data head tail key ⟨r.1, r.2.sameKeyIndex, r.2.hi⟩ ∧
      r.2.hi ≤ max s.hi c.uartRecvFifoSize := by
  have hne := hk.ne_nil
  have hqp := hs.eq_of_agrees hk hh ht hp hcut hag ho hq
  have hrest : ∀ t < key.length - s.j, data t = keyByte key (s.j + t) := by
    obtain ⟨-, -, hrest⟩ := hs.straddles hk hh ht ho hq
    rwa [hj, ← hqp]
  have hle := ho.le_length hne
  rw [Ring.length_window, Ring.unread_of_lt hlt] at hle
  obtain ⟨s', hs', hs'', hhi⟩ := scanRest_agrees data (n := tail)
    (s := { s with k := 0, keyWordLen := key.length % 256 }) (by omega) rfl
    (show s.j < _ by omega) (Nat.mod_eq_of_lt hk.short) (hc.trans hj.symm) hk.short hrest
  simp only [hs']
  refine ⟨.some hne ho (fun t ht' hot => ?_) rfl ?_, hhi.trans ?_⟩
  · have := hs.eq_of_agrees hk hh ht hp hcut hag hot (by omega)
    omega
  · rw [Ring.wrap, if_pos hq]
    exact (hs''.trans hidx).trans hqp.symm
  · show max s.hi (key.length - s.j) ≤ _
    omega

/-- The ring search is right wherever `Crossing` holds. -/
theorem getKeyDataIndex_spec (hk : Keyword key) (hh : head ≤ c.uartRecvFifoSize)
    (ht : tail < c.uartRecvFifoSize) (hz : data tail = 0) (hx : Crossing c data head tail key)
    (idx : Nat) : FirstFound c data head tail key (getKeyDataIndex c data head tail key idx) := by
  rcases Nat.lt_or_ge tail head with hlt | hle
  swap
  · exact getKeyDataIndex_flat hk hle ht hz idx
  have hne := hk.ne_nil
  have hun := Ring.unread_of_lt (n := c.uartRecvFifoSize) hlt
  have hup := scanKey_end data hk hh (s := ⟨0, 0, 0, key.length % 256, idx, 0⟩) rfl
    (Nat.mod_eq_of_lt hk.short)
  unfold getKeyDataIndex
  simp only [if_neg (Nat.lt_asymm hlt), if_pos hlt]
  generalize scanKey data key (clipEnd c.uartRecvFifoSize) (c.uartRecvFifoSize - head) head
    ⟨0, 0, 0, key.length % 256, idx, 0⟩ = r at hup ⊢
  obtain ⟨_ | p, s⟩ := r
  swap
  · exact Hit.firstFound hk hh ht hlt hup
  rcases hup.rest with ⟨hc, hpart, hkl⟩ | ⟨p, hp1, hp2, hcut, hag, hc, hj, hidx⟩
  · -- no occurrence begins before the end of the ring, and the length was never clipped
    have hnone : ∀ q, head + q < c.uartRecvFifoSize →
        ¬ Seq.OccursAt key (Ring.window data c.uartRecvFifoSize head tail) q := fun q hq ho => by
      obtain ⟨h1, h2, -⟩ := hup.straddles hk hh ht ho hq
      exact hpart (head + q) (Nat.le_add_right ..) (by omega) h1 h2
    have hkl' : s.keyWordLen = key.length := by
      rcases hkl with hkl | ⟨q, h1, h2, h3, h4⟩
      · exact hkl.trans (Nat.mod_eq_of_lt hk.short)
      · rcases hx with hle | ⟨p, ho, hp⟩ | hx
        · exact absurd hle (Nat.not_le.2 hlt)
        · exact absurd ho (hnone p hp)
        · exact absurd h4 (hx q h1 (by omega) h3)
    simp only [hc, Nat.lt_irrefl, if_false]
    exact scanKey_firstFound hk hh ht hlt hz hc hkl' hnone
  · obtain ⟨q, ho, hq⟩ : ∃ p, Seq.OccursAt key
        (Ring.window data c.uartRecvFifoSize head tail) p ∧ head + p < c.uartRecvFifoSize := by
      rcases hx with hle | h | h
      · exact absurd hle (Nat.not_le.2 hlt)
      · exact h
      · exact absurd (hag 0 (by omega)) (h p hp1 (by omega) hcut)
    simp only [if_pos (show 0 < s.sameKeyCount by omega)]
    exact (scanRest_firstFound hk hh ht hlt hup (by omega) hcut hag hc hj hidx ho hq).1

end

/-! ## The index passed in -/

/-- The same locals, with another `*sameKey_index`. -/
def KeySearch.reindex (s : KeySearch) (x : Nat) : KeySearch := { s with sameKeyIndex := x }

section
variable (data : Nat → UInt8) (key : List UInt8)

theorem compareKey_reindex (i n x : Nat) (s : KeySearch) :
    ∃ y, compareKey data key i n (s.reindex x) = (compareKey data key i n s).reindex y := by
  induction n generalizing s x with
  | zero => exact ⟨x, rfl⟩
  | succ n ih =>
    by_cases h : data (i + s.j) = keyByte key s.j
    · obtain ⟨y, hy⟩ := ih (if s.sameKeyCount = 0 then i else x)
        { s.read (i + s.j) with
          sameKeyIndex := if s.sameKeyCount = 0 then i else s.sameKeyIndex
          sameKeyCount := (s.sameKeyCount + 1) % 256
          j := s.j + 1 }
      refine ⟨y, ?_⟩
      have hl : compareKey data key i (n + 1) (s.reindex x) = _ := if_pos h
      have hr : compareKey data key i (n + 1) s = _ := if_pos h
      rw [hl, hr]
      exact hy
    · have hl : compareKey data key i (n + 1) (s.reindex x) = _ := if_neg h
      have hr : compareKey data key i (n + 1) s = _ := if_neg h
      exact ⟨x, by rw [hl, hr]; rfl⟩

theorem scanKey_reindex (clip : Nat → Nat → Nat) (n i x : Nat) (s : KeySearch) :
    ∃ y, scanKey data key clip n i (s.reindex x) =
      ((scanKey data key clip n i s).1, (scanKey data key clip n i s).2.reindex y) := by
  induction n generalizing i s x with
  | zero => exact ⟨x, rfl⟩
  | succ n ih =>
    by_cases h : data i = keyByte key 0
    · obtain ⟨y, hy⟩ := compareKey_reindex data key i (clip i s.keyWordLen) x
        { s.read i with keyWordLen := clip i s.keyWordLen, j := 0 }
      have htry : tryKey data key i (clip i s.keyWordLen) (s.reindex x) =
          (tryKey data key i (clip i s.keyWordLen) s).reindex y := hy
      have hl : scanKey data key clip (n + 1) i (s.reindex x) = _ := if_pos h
      have hr : scanKey data key clip (n + 1) i s = _ := if_pos h
      rw [hl, hr]
      simp only [show (s.reindex x).keyWordLen = s.keyWordLen from rfl, htry]
      generalize tryKey data key i (clip i s.keyWordLen) s = t
      by_cases hc : t.sameKeyCount = key.length
      · have hc' : (t.reindex y).sameKeyCount = key.length := hc
        rw [if_pos hc, if_pos hc']
        exact ⟨y, rfl⟩
      · have hc' : (t.reindex y).sameKeyCount ≠ key.length := hc
        rw [if_neg hc, if_neg hc']
        exact ih (i + 1) y t
    · have hl : scanKey data key clip (n + 1) i (s.reindex x) = _ := if_neg h
      have hr : scanKey data key clip (n + 1) i s = _ := if_neg h
      rw [hl, hr]
      exact ih (i + 1) x (s.read i)

theorem compareRest_reindex (ii n x : Nat) (s : KeySearch) :
    compareRest data key ii n (s.reindex x) = (compareRest data key ii n s).reindex x := by
  induction n generalizing s with
  | zero => rfl
  | succ n ih =>
    by_cases h : data (ii + s.k) = keyByte key s.j
    · have hl : compareRest data key ii (n + 1) (s.reindex x) = _ := if_pos h
      have hr : compareRest data key ii (n + 1) s = _ := if_pos h
      rw [hl, hr]
      exact ih { s.read (ii + s.k) with
        sameKeyCount := (s.sameKeyCount + 1) % 256, j := s.j + 1, k := s.k + 1 }
    · have hl : compareRest data key ii (n + 1) (s.reindex x) = _ := if_neg h
      have hr : compareRest data key ii (n + 1) s = _ := if_neg h
      rw [hl, hr]
      rfl

theorem scanRest_reindex (n ii x : Nat) (s : KeySearch) :
    scanRest data key n ii (s.reindex x) =
      ((scanRest data key n ii s).1, (scanRest data key n ii s).2.reindex x) := by
  induction n generalizing ii s with
  | zero => rfl
  | succ n ih =>
    by_cases h : data ii = keyByte key s.j
    · have hrest := compareRest_reindex data key ii (s.keyWordLen - s.j) x
        (s.read ii)
      have hl : scanRest data key (n + 1) ii (s.reindex x) = _ := if_pos h
      have hr : scanRest data key (n + 1) ii s = _ := if_pos h
      rw [hl, hr]
      have hread : (s.reindex x).read ii = (s.read ii).reindex x := rfl
      have hlen : ((s.read ii).reindex x).keyWordLen - ((s.read ii).reindex x).j =
        s.keyWordLen - s.j := rfl
      have hlen' : (s.read ii).keyWordLen - (s.read ii).j = s.keyWordLen - s.j := rfl
      simp only [hread, hlen, hlen', hrest]
      generalize compareRest data key ii (s.keyWordLen - s.j) (s.read ii) = t
      by_cases hc : t.sameKeyCount = key.length
      · have hc' : (t.reindex x).sameKeyCount = key.length := hc
        rw [if_pos hc, if_pos hc']
      · have hc' : (t.reindex x).sameKeyCount ≠ key.length := hc
        rw [if_neg hc, if_neg hc']
        exact ih (ii + 1) t
    · have hl : scanRest data key (n + 1) ii (s.reindex x) = _ := if_neg h
      have hr : scanRest data key (n + 1) ii s = _ := if_neg h
      rw [hl, hr]
      exact ih (ii + 1) (s.read ii)

/-- Whether the keyword is found does not depend on the index passed in. -/
theorem getKeyDataIndex_found (c : Config) (head tail : Nat) (x y : Nat) :
    (getKeyDataIndex c data head tail key x).found =
      (getKeyDataIndex c data head tail key y).found := by
  have hstart : (⟨0, 0, 0, key.length % 256, x, 0⟩ : KeySearch) =
    KeySearch.reindex ⟨0, 0, 0, key.length % 256, y, 0⟩ x := rfl
  unfold getKeyDataIndex
  simp only [hstart]
  generalize (⟨0, 0, 0, key.length % 256, y, 0⟩ : KeySearch) = s
  split
  · obtain ⟨z, hz⟩ := scanKey_reindex data key (fun _ len => len) (tail - head)
      head x s
    rw [hz]
  split
  · obtain ⟨z, hz⟩ := scanKey_reindex data key (clipEnd c.uartRecvFifoSize)
      (c.uartRecvFifoSize - head) head x s
    rw [hz]
    generalize scanKey data key (clipEnd c.uartRecvFifoSize) (c.uartRecvFifoSize - head) head s = r
    obtain ⟨_ | p, t⟩ := r
    · have hcount : (t.reindex z).sameKeyCount = t.sameKeyCount := rfl
      simp only [hcount]
      split
      · have hrest := scanRest_reindex data key tail 0 z
          { t with k := 0, keyWordLen := key.length % 256 }
        have hfst := congrArg Prod.fst hrest
        exact hfst
      · obtain ⟨z', hz'⟩ := scanKey_reindex data key (fun _ len => len) tail 0 z
          t
        rw [hz']
        generalize scanKey data key (fun _ len => len) tail 0 t = r
        obtain ⟨_ | p, t⟩ := r <;> rfl
    · rfl
  · rfl

end

end AppXd.Net4g
