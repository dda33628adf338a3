import AppXd.Lib.Base128

/-!
# Varints

A number goes as its digits to the base 128, in ten bytes at most. The writer works on two words of 32
bits. There is a reader for 64 bits and one for 32, and the one for 32 takes what the other takes.
-/

namespace AppXd.Nanopb

/-! ## Writing -/

/-- The loop over the low word: the bytes that are in the buffer, the byte that is not, and the low
word that is left. -/
def lowLoop : Nat → UInt8 → Nat → Nat → List UInt8 × UInt8
  | 0, byte, _, _ => ([], byte)
  | i + 1, byte, low, high =>
    if low ≠ 0 ∨ high ≠ 0 then
      let r := lowLoop i (low % 128).toUInt8 (low / 128) high
      ((byte ||| 0x80) :: r.1, r.2)
    else ([], byte)

/-- The loop over the high word. A word of 29 bits takes five rounds at most. -/
def highLoop : Nat → UInt8 → Nat → List UInt8 × UInt8
  | 0, byte, _ => ([], byte)
  | i + 1, byte, high =>
    if high ≠ 0 then
      let r := highLoop i (high % 128).toUInt8 (high / 128)
      ((byte ||| 0x80) :: r.1, r.2)
    else ([], byte)

/-- The bytes that `pb_encode_varint_32` writes. -/
def pbEncodeVarint32 (low high : Nat) : List UInt8 :=
  let r := lowLoop 4 (low % 128).toUInt8 (low / 128) high
  if high ≠ 0 then
    let h := highLoop 5 (r.2 ||| ((high % 8).toUInt8 <<< 4)) (high / 8)
    r.1 ++ (h.1 ++ [h.2])
  else r.1 ++ [r.2]

def pbEncodeVarint (value : Nat) : List UInt8 :=
  if value ≤ 0x7F then [value.toUInt8] else pbEncodeVarint32 (value % 2 ^ 32) (value / 2 ^ 32)

/-! ## Reading -/

/-- The loop of `pb_decode_varint`. -/
def varintLoop : List UInt8 → Nat → Nat → Option (Nat × List UInt8)
  | [], _, _ => none
  | byte :: l, bitpos, result =>
    if 63 ≤ bitpos ∧ byte &&& 0xFE ≠ 0 then none
    else
      let result := result ||| (byte &&& 0x7F).toNat <<< bitpos
      if byte &&& 0x80 ≠ 0 then varintLoop l (bitpos + 7) result else some (result, l)

/-- The number, and what stands behind it. -/
def pbDecodeVarint (l : List UInt8) : Option (Nat × List UInt8) := varintLoop l 0 0

/-- What a byte of `pb_decode_varint32_eof` makes of the result. -/
def varint32Byte (byte : UInt8) (bitpos result : Nat) : Option Nat :=
  if 32 ≤ bitpos then
    let signExtension : UInt8 := if bitpos < 63 then 0xFF else 0x01
    let validExtension := byte &&& 0x7F = 0 ∨ result / 2 ^ 31 ≠ 0 ∧ byte = signExtension
    if 64 ≤ bitpos ∨ ¬ validExtension then none else some result
  else if bitpos = 28 then
    if byte &&& 0x70 ≠ 0 ∧ byte &&& 0x78 ≠ 0x78 then none
    else some (result ||| (byte &&& 0x0F).toNat <<< bitpos)
  else some (result ||| (byte &&& 0x7F).toNat <<< bitpos)

/-- Its loop. -/
def varint32Loop : List UInt8 → Nat → Nat → Option (Nat × List UInt8)
  | [], _, _ => none
  | byte :: l, bitpos, result => do
    let result ← varint32Byte byte bitpos result
    if byte &&& 0x80 ≠ 0 then varint32Loop l (bitpos + 7) result else some (result, l)

def pbDecodeVarint32 : List UInt8 → Option (Nat × List UInt8)
  | [] => none
  | byte :: l =>
    if byte &&& 0x80 = 0 then some (byte.toNat, l) else varint32Loop l 7 (byte &&& 0x7F).toNat

/-- `pb_skip_varint` -/
def pbSkipVarint : List UInt8 → Option (List UInt8)
  | [] => none
  | byte :: l => if byte &&& 0x80 ≠ 0 then pbSkipVarint l else some l

/-! ## What is written -/

section
variable {byte : UInt8} {low high n i k : Nat} {l r : List UInt8}

theorem toUInt8_eq_of_toNat (h : byte.toNat = n % 128) : byte = (n % 128).toUInt8 := by
  refine UInt8.toNat_inj.1 (h.trans (Eq.symm ?_))
  exact Nat.mod_eq_of_lt (Nat.lt_trans (Nat.mod_lt n (by decide)) (by decide))

theorem toNat_mod_toUInt8 (n : Nat) : (n % 128).toUInt8.toNat = n % 128 :=
  Nat.mod_eq_of_lt (Nat.lt_trans (Nat.mod_lt n (by decide)) (by decide))

/-- One round of either loop. -/
theorem digits_of_rest_pos (hbyte : byte.toNat < 128) (hn : n ≠ 0) :
    Base128.digits (byte.toNat + 128 * n) = (byte ||| 0x80) :: Base128.digits n := by
  have hmod : (byte.toNat + 128 * n) % 128 = byte.toNat := by omega
  have hdiv : (byte.toNat + 128 * n) / 128 = n := by omega
  have hbyte' : byte = ((byte.toNat + 128 * n) % 128).toUInt8 := toUInt8_eq_of_toNat hmod.symm
  rw [Base128.digits_of_le (by omega), hdiv, ← hbyte']

theorem digits_of_byte (hbyte : byte.toNat < 128) : Base128.digits byte.toNat = [byte] := by
  rw [Base128.digits_of_lt hbyte]
  exact congrArg (fun b => [b]) (UInt8.ofNat_toNat)

theorem highLoop_eq (hbyte : byte.toNat < 128) (hhigh : high < 128 ^ i) :
    (highLoop i byte high).1 ++ [(highLoop i byte high).2] =
      Base128.digits (byte.toNat + 128 * high) := by
  induction i generalizing byte high with
  | zero =>
    obtain rfl : high = 0 := Nat.lt_one_iff.1 hhigh
    exact (digits_of_byte hbyte).symm
  | succ i ih =>
    unfold highLoop
    split
    · rename_i hne
      have hdiv : high / 128 < 128 ^ i := by
        rwa [Nat.div_lt_iff_lt_mul (by decide), ← Nat.pow_succ]
      have hmod : (high % 128).toUInt8.toNat < 128 := by
        rw [toNat_mod_toUInt8]
        exact Nat.mod_lt _ (by decide)
      have hih := ih hmod hdiv
      rw [toNat_mod_toUInt8, Nat.mod_add_div] at hih
      rw [List.cons_append, hih, digits_of_rest_pos hbyte hne]
    · rename_i hzero
      obtain rfl : high = 0 := not_not.1 hzero
      exact (digits_of_byte hbyte).symm

/-- The number that is left to be written in the loop over the low word, with `i` rounds to go. -/
def lowRest : Nat → Nat → Nat → Nat → Nat
  | 0, byte, _, high => byte + 16 * high
  | i + 1, byte, low, high => byte + 128 * (low + 2 ^ (7 * i + 4) * high)

theorem lowRest_succ (hlow : i = 0 → low < 16) :
    low + 2 ^ (7 * i + 4) * high = lowRest i (low % 128) (low / 128) high := by
  cases i with
  | zero =>
    have h := hlow rfl
    have hpow : (2 : Nat) ^ (7 * 0 + 4) = 16 := by decide
    rw [lowRest, Nat.mod_eq_of_lt (Nat.lt_trans h (by decide)), hpow]
  | succ i =>
    have hpow : 2 ^ (7 * (i + 1) + 4) * high = 128 * (2 ^ (7 * i + 4) * high) := by
      rw [← Nat.mul_assoc]
      congr 1
      rw [Nat.mul_add, Nat.add_right_comm, Nat.pow_add, Nat.mul_comm]
    rw [lowRest, hpow]
    omega

theorem lowLoop_eq (high : Nat) (hbyte : byte.toNat < 128) (hlast : i = 0 → byte.toNat < 16)
    (hlow : low < 2 ^ (7 * i - 3)) :
    (lowLoop i byte low high).1 ++ Base128.digits ((lowLoop i byte low high).2.toNat + 16 * high) =
        Base128.digits (lowRest i byte.toNat low high) ∧
      (lowLoop i byte low high).2.toNat < 128 ∧
      (high ≠ 0 → (lowLoop i byte low high).2.toNat < 16) := by
  induction i generalizing byte low with
  | zero => exact ⟨rfl, hbyte, fun _ => hlast rfl⟩
  | succ i ih =>
    unfold lowLoop
    split
    · rename_i hne
      have hlow' : i = 0 → low < 16 := by
        rintro rfl
        exact hlow
      have hmod : (low % 128).toUInt8.toNat < 128 := by
        rw [toNat_mod_toUInt8]
        exact Nat.mod_lt _ (by decide)
      have hlast' : i = 0 → (low % 128).toUInt8.toNat < 16 := by
        intro h
        rw [toNat_mod_toUInt8]
        exact Nat.lt_of_le_of_lt (Nat.mod_le _ _) (hlow' h)
      have hdiv : low / 128 < 2 ^ (7 * i - 3) := by
        cases i with
        | zero =>
          rw [Nat.div_eq_of_lt (Nat.lt_trans (hlow' rfl) (by decide))]
          decide
        | succ i =>
          have hexp : 7 * (i + 1 + 1) - 3 = 7 * (i + 1) - 3 + 7 := by omega
          rw [hexp, Nat.pow_add] at hlow
          rwa [Nat.div_lt_iff_lt_mul (by decide)]
      obtain ⟨hdigits, hlt, hlt'⟩ := ih hmod hlast' hdiv
      have hrest : low + 2 ^ (7 * i + 4) * high ≠ 0 := by
        have hpow : 0 < 2 ^ (7 * i + 4) := Nat.two_pow_pos _
        rcases hne with h | h
        · omega
        · exact Nat.ne_of_gt (Nat.add_pos_right _ (Nat.mul_pos hpow (Nat.pos_of_ne_zero h)))
      refine ⟨?_, hlt, hlt'⟩
      rw [toNat_mod_toUInt8, ← lowRest_succ hlow'] at hdigits
      rw [List.cons_append, hdigits, lowRest, digits_of_rest_pos hbyte hrest]
    · rename_i hzero
      have hlow0 : low = 0 := not_not.1 fun h => hzero (.inl h)
      have hhigh0 : high = 0 := not_not.1 fun h => hzero (.inr h)
      refine ⟨?_, hbyte, fun h => absurd hhigh0 h⟩
      rw [hlow0, hhigh0, lowRest]
      rfl

theorem or_shift_toNat {b : UInt8} (hb : b.toNat < 16) (hn : n < 8) :
    (b ||| n.toUInt8 <<< 4).toNat = b.toNat + 16 * n := by
  have hall : ∀ c : Nat, c < 16 → ∀ n : Nat, n < 8 →
      (c.toUInt8 ||| n.toUInt8 <<< 4 : UInt8).toNat = c + 16 * n := by decide
  have hbyte : b.toNat.toUInt8 = b := UInt8.ofNat_toNat
  rw [← hall b.toNat hb n hn, hbyte]

/-- Both words together go as the digits of the number. -/
theorem pbEncodeVarint32_eq (hlow : low < 2 ^ 32) (hhigh : high < 2 ^ 32) :
    pbEncodeVarint32 low high = Base128.digits (low + 2 ^ 32 * high) := by
  have hmod : (low % 128).toUInt8.toNat < 128 := by
    rw [toNat_mod_toUInt8]
    exact Nat.mod_lt _ (by decide)
  have hfour : (4 : Nat) = 0 → (low % 128).toUInt8.toNat < 16 := fun h => absurd h (by decide)
  have hdiv : low / 128 < 2 ^ (7 * 4 - 3) := by omega
  obtain ⟨hdigits, hlt, hlt'⟩ := lowLoop_eq high hmod hfour hdiv
  have hrest : lowRest 4 (low % 128).toUInt8.toNat (low / 128) high = low + 2 ^ 32 * high := by
    rw [toNat_mod_toUInt8, lowRest]
    omega
  rw [hrest] at hdigits
  unfold pbEncodeVarint32
  simp only
  split
  · rename_i hne
    have hor := or_shift_toNat (hlt' hne) (Nat.mod_lt high (show 0 < 8 by decide))
    have hbyte : ((lowLoop 4 (low % 128).toUInt8 (low / 128) high).2 |||
        (high % 8).toUInt8 <<< 4).toNat < 128 := by
      rw [hor]
      have hlt16 := hlt' hne
      omega
    have hloop := highLoop_eq hbyte (show high / 8 < 128 ^ 5 by omega)
    rw [hor] at hloop
    have hsum : ∀ b : Nat, b + 16 * (high % 8) + 128 * (high / 8) = b + 16 * high := by
      intro b
      omega
    rw [hsum] at hloop
    rw [hloop, hdigits]
  · rename_i hzero
    obtain rfl : high = 0 := not_not.1 hzero
    rw [← hdigits, Nat.mul_zero, Nat.add_zero, digits_of_byte hlt]

/-- What the writer writes, in one word or in two. -/
theorem pbEncodeVarint_eq (h : n < 2 ^ 64) : pbEncodeVarint n = Base128.digits n := by
  unfold pbEncodeVarint
  split
  · exact (Base128.digits_of_lt (by omega)).symm
  · rw [pbEncodeVarint32_eq (Nat.mod_lt _ (by decide)) (by omega), Nat.mod_add_div]

end

/-! ## What is read -/

section
variable {byte : UInt8} {n m bitpos result i : Nat} {l r : List UInt8}

theorem shiftLeft_or (h : result < 2 ^ bitpos) :
    result ||| n <<< bitpos = result + 2 ^ bitpos * n := by
  rw [Nat.shiftLeft_eq, Nat.mul_comm, Nat.or_comm, ← Nat.two_pow_add_eq_or_of_lt h, Nat.add_comm]

theorem and_fe_eq_zero (byte : UInt8) :
    byte &&& 0xFE = 0 ↔ byte &&& 0x80 = 0 ∧ (byte &&& 0x7F).toNat < 2 := by
  have hall : ∀ b : BitVec 8, UInt8.ofBitVec b &&& 0xFE = 0 ↔
      UInt8.ofBitVec b &&& 0x80 = 0 ∧ (UInt8.ofBitVec b &&& 0x7F).toNat < 2 := by decide +kernel
  exact hall byte.toBitVec

/-- The lower bits are below a bit that the higher ones are multiples of. -/
theorem shift_lt_iff (hbit : bitpos ≤ 56) (hn : n < 128) :
    2 ^ bitpos * (n + 128 * m) < 2 ^ 64 ↔ 2 ^ (bitpos + 7) * m < 2 ^ 64 := by
  have hexp : 2 ^ (bitpos + 7) = 2 ^ bitpos * 128 := Nat.pow_add ..
  have hval : 2 ^ bitpos * n < 2 ^ (bitpos + 7) := by
    rw [hexp]
    exact Nat.mul_lt_mul_of_pos_left hn (Nat.two_pow_pos _)
  rw [Nat.mul_add, ← Nat.mul_assoc, ← hexp]
  refine ⟨fun h => Nat.lt_of_le_of_lt (Nat.le_add_left _ _) h, fun h => ?_⟩
  have hdvd : 2 ^ 64 = 2 ^ (bitpos + 7) * 2 ^ (57 - bitpos) := by
    rw [← Nat.pow_add]
    congr 1
    omega
  have hlt : m < 2 ^ (57 - bitpos) := by
    rw [hdvd] at h
    exact Nat.lt_of_mul_lt_mul_left h
  have hle : 2 ^ (bitpos + 7) * (m + 1) ≤ 2 ^ 64 := by
    rw [hdvd]
    exact Nat.mul_le_mul_left _ hlt
  rw [Nat.mul_add] at hle
  omega

theorem varintLoop_eq (hi : i ≤ 9) (hbit : bitpos = 7 * i) (h : result < 2 ^ bitpos) :
    varintLoop l bitpos result =
      ((Base128.read (10 - i) l).filter fun r => 2 ^ bitpos * r.1 < 2 ^ 64).map fun r =>
        (result + 2 ^ bitpos * r.1, r.2) := by
  induction l generalizing i bitpos result with
  | nil =>
    have hten : 10 - i = 9 - i + 1 := by omega
    rw [hten]
    rfl
  | cons byte l ih =>
    have hten : 10 - i = 9 - i + 1 := by omega
    have hlow := Base128.and_low_lt byte
    rw [hten, varintLoop, Base128.read]
    rcases Nat.lt_or_ge i 9 with hlt | hge
    · -- All seven bits fit.
      have hpow : 2 ^ (bitpos + 7) ≤ 2 ^ 63 := Nat.pow_le_pow_right (by decide) (by omega)
      have hexp : 2 ^ (bitpos + 7) = 2 ^ bitpos * 128 := Nat.pow_add ..
      have hval : 2 ^ bitpos * (byte &&& 0x7F).toNat ≤ 2 ^ bitpos * 127 :=
        Nat.mul_le_mul_left _ (Nat.le_of_lt_succ hlow)
      have hfits : 2 ^ bitpos * (byte &&& 0x7F).toNat < 2 ^ 64 := by omega
      have hshort : ¬ (63 ≤ bitpos ∧ byte &&& 0xFE ≠ 0) := fun h => absurd h.1 (by omega)
      rw [if_neg hshort]
      simp only
      rw [shiftLeft_or h]
      by_cases hmore : byte &&& 0x80 = 0
      · rw [if_neg (not_not_intro hmore), if_pos hmore, Option.filter_some,
          if_pos (decide_eq_true hfits)]
        rfl
      · have hnext : result + 2 ^ bitpos * (byte &&& 0x7F).toNat < 2 ^ (bitpos + 7) := by omega
        have hnine : 9 - i = 10 - (i + 1) := by omega
        rw [if_pos hmore, if_neg hmore, ih (i := i + 1) (by omega) (by omega) hnext, hnine]
        cases Base128.read (10 - (i + 1)) l with
        | none => rfl
        | some r =>
          have hsum : 2 ^ bitpos * ((byte &&& 0x7F).toNat + 128 * r.1) =
              2 ^ bitpos * (byte &&& 0x7F).toNat + 2 ^ (bitpos + 7) * r.1 := by
            rw [Nat.mul_add, ← Nat.mul_assoc, ← hexp]
          have hiff := shift_lt_iff (m := r.1) (show bitpos ≤ 56 by omega) hlow
          rw [Option.map_some, Option.filter_some, Option.filter_some]
          simp only [hiff]
          split
          · rw [Option.map_some, Option.map_some, hsum, Nat.add_assoc]
          · rfl
    · -- The tenth byte has one bit left.
      obtain rfl : i = 9 := Nat.le_antisymm hi hge
      subst hbit
      have hone : 2 ^ (7 * 9) * (byte &&& 0x7F).toNat < 2 ^ 64 ↔ (byte &&& 0x7F).toNat < 2 := by
        omega
      by_cases hfe : byte &&& 0xFE = 0
      · obtain ⟨hlast, hlt⟩ := (and_fe_eq_zero byte).1 hfe
        rw [if_neg (fun h => h.2 hfe), if_pos hlast, Option.filter_some,
          if_pos (decide_eq_true (hone.2 hlt))]
        simp only
        rw [shiftLeft_or h, if_neg (not_not_intro hlast)]
        rfl
      · rw [if_pos ⟨by decide, hfe⟩]
        by_cases hlast : byte &&& 0x80 = 0
        · have hge2 : ¬ (byte &&& 0x7F).toNat < 2 := fun h => hfe ((and_fe_eq_zero byte).2 ⟨hlast, h⟩)
          rw [if_pos hlast, Option.filter_some, if_neg]
          · rfl
          · exact fun h => hge2 (hone.1 (of_decide_eq_true h))
        · rw [if_neg hlast]
          rfl

/-- The reader for 64 bits takes a number of at most ten bytes, if it fits. -/
theorem pbDecodeVarint_eq (l : List UInt8) :
    pbDecodeVarint l = (Base128.read 10 l).filter fun r => r.1 < 2 ^ 64 := by
  have hloop : varintLoop l 0 0 = ((Base128.read (10 - 0) l).filter fun r =>
      2 ^ 0 * r.1 < 2 ^ 64).map fun r => (0 + 2 ^ 0 * r.1, r.2) :=
    varintLoop_eq (Nat.zero_le 9) rfl (by decide)
  simp only [Nat.pow_zero, Nat.one_mul, Nat.zero_add, Nat.sub_zero] at hloop
  rw [pbDecodeVarint, hloop]
  exact Option.map_id'

/-- A number is read back, whatever stands behind it. -/
theorem pbDecodeVarint_encode (h : n < 2 ^ 64) (l : List UInt8) :
    pbDecodeVarint (pbEncodeVarint n ++ l) = some (n, l) := by
  have hten : (Base128.digits n).length ≤ 9 + 1 :=
    Base128.length_digits_le_iff.2 (Nat.lt_trans h (by decide))
  rw [pbDecodeVarint_eq, pbEncodeVarint_eq h, Base128.read_digits hten, Option.filter_some,
    if_pos (decide_eq_true h)]

/-! ## The reader for 32 bits -/

/-- What the reader for 32 bits makes of a number: its low word, if that is the whole number or has
its highest bit set. -/
def LowWord (n v : Nat) : Prop := v = n % 2 ^ 32 ∧ (n < 2 ^ 32 ∨ 2 ^ 31 ≤ v)

theorem LowWord.refl (h : n < 2 ^ 32) : LowWord n n := ⟨(Nat.mod_eq_of_lt h).symm, .inl h⟩

theorem varint32Loop_stop (h : 64 ≤ bitpos) (l : List UInt8) (result : Nat) :
    varint32Loop l bitpos result = none := by
  cases l with
  | nil => rfl
  | cons byte l =>
    rw [varint32Loop, varint32Byte, if_pos (by omega)]
    simp only
    rw [if_pos (.inl h)]
    rfl

theorem and_0f_toNat (byte : UInt8) :
    (byte &&& 0x7F).toNat = (byte &&& 0x0F).toNat + 16 * ((byte &&& 0x7F).toNat / 16) ∧
      (byte &&& 0x0F).toNat < 16 ∧
      (byte &&& 0x70 = 0 ↔ (byte &&& 0x7F).toNat < 16) ∧
      (byte &&& 0x78 = 0x78 → 8 ≤ (byte &&& 0x0F).toNat) := by
  have hall : ∀ b : BitVec 8, (UInt8.ofBitVec b &&& 0x7F).toNat =
        (UInt8.ofBitVec b &&& 0x0F).toNat + 16 * ((UInt8.ofBitVec b &&& 0x7F).toNat / 16) ∧
      (UInt8.ofBitVec b &&& 0x0F).toNat < 16 ∧
      (UInt8.ofBitVec b &&& 0x70 = 0 ↔ (UInt8.ofBitVec b &&& 0x7F).toNat < 16) ∧
      (UInt8.ofBitVec b &&& 0x78 = 0x78 → 8 ≤ (UInt8.ofBitVec b &&& 0x0F).toNat) := by
    decide +kernel
  exact hall byte.toBitVec

theorem toNat_eq_zero_iff : (byte &&& 0x7F).toNat = 0 ↔ byte &&& 0x7F = 0 :=
  UInt8.toNat_inj (b := 0)

/-- What a byte does that is taken: the bits behind it give the low word of all. -/
theorem varint32Byte_eq_some {result' : Nat} (hi : i ≤ 9) (hbit : bitpos = 7 * i)
    (h : result < 2 ^ bitpos) (h32 : result < 2 ^ 32)
    (hbyte : varint32Byte byte bitpos result = some result') :
    result' < 2 ^ 32 ∧ result' < 2 ^ (bitpos + 7) ∧
      (i = 9 → byte &&& 0x80 = 0 → (byte &&& 0x7F).toNat < 2) ∧
      ∀ m v, LowWord (result' + 2 ^ (bitpos + 7) * m) v →
        LowWord (result + 2 ^ bitpos * ((byte &&& 0x7F).toNat + 128 * m)) v := by
  have hlow := Base128.and_low_lt byte
  have hexp : 2 ^ (bitpos + 7) = 2 ^ bitpos * 128 := Nat.pow_add ..
  have hsum : ∀ m, 2 ^ bitpos * ((byte &&& 0x7F).toNat + 128 * m) =
      2 ^ bitpos * (byte &&& 0x7F).toNat + 2 ^ (bitpos + 7) * m := by
    intro m
    rw [Nat.mul_add, ← Nat.mul_assoc, ← hexp]
  unfold varint32Byte at hbyte
  simp only at hbyte
  rcases Nat.lt_or_ge bitpos 32 with hlow32 | hhigh
  · rw [if_neg (Nat.not_le.2 hlow32)] at hbyte
    by_cases h28 : bitpos = 28
    · -- The low four bits of this byte fit, and three that do not.
      rw [if_pos h28] at hbyte
      obtain ⟨hbits, hfour, hzero, hones⟩ := and_0f_toNat byte
      by_cases hbad : byte &&& 0x70 ≠ 0 ∧ byte &&& 0x78 ≠ 0x78
      · rw [if_pos hbad] at hbyte
        cases hbyte
      · rw [if_neg hbad, shiftLeft_or h] at hbyte
        cases hbyte
        subst h28
        refine ⟨by omega, by omega, fun hnine => by omega, fun m v hv => ?_⟩
        obtain ⟨hv, hword⟩ := hv
        rw [hsum]
        have hsplit : byte &&& 0x70 = 0 ∨ byte &&& 0x78 = 0x78 := by
          by_cases hz : byte &&& 0x70 = 0
          · exact .inl hz
          · exact .inr (not_not.1 fun hone => hbad ⟨hz, hone⟩)
        refine ⟨by omega, ?_⟩
        rcases hsplit with hz | hone
        · have hlt := hzero.1 hz
          rcases hword with hword | hword
          · exact .inl (by omega)
          · exact .inr hword
        · have hge := hones hone
          exact .inr (by omega)
    · rw [if_neg h28, shiftLeft_or h] at hbyte
      cases hbyte
      have hnext : result + 2 ^ bitpos * (byte &&& 0x7F).toNat < 2 ^ (bitpos + 7) := by
        have hval : 2 ^ bitpos * (byte &&& 0x7F).toNat ≤ 2 ^ bitpos * 127 :=
          Nat.mul_le_mul_left _ (Nat.le_of_lt_succ hlow)
        omega
      have hpow : 2 ^ (bitpos + 7) ≤ 2 ^ 28 := Nat.pow_le_pow_right (by decide) (by omega)
      refine ⟨by omega, hnext, fun hnine => by omega, fun m v hv => ?_⟩
      rwa [hsum, ← Nat.add_assoc]
  · rw [if_pos hhigh] at hbyte
    by_cases hbad : 64 ≤ bitpos ∨ ¬ (byte &&& 0x7F = 0 ∨
        result / 2 ^ 31 ≠ 0 ∧ byte = if bitpos < 63 then (0xFF : UInt8) else 0x01)
    · rw [if_pos hbad] at hbyte
      cases hbyte
    · rw [if_neg hbad] at hbyte
      cases hbyte
      have hvalid := not_not.1 fun hno => hbad (.inr hno)
      obtain ⟨k, rfl⟩ := Nat.exists_eq_add_of_le hhigh
      -- Nothing of this byte goes into the low word.
      have hmul : ∀ x, 2 ^ (32 + k) * x = 2 ^ 32 * (2 ^ k * x) := by
        intro x
        rw [Nat.pow_add, Nat.mul_assoc]
      have hmul' : ∀ x, 2 ^ (32 + k + 7) * x = 2 ^ 32 * (2 ^ (k + 7) * x) := by
        intro x
        rw [Nat.add_assoc, Nat.pow_add, Nat.mul_assoc]
      refine ⟨h32, Nat.lt_of_lt_of_le h (Nat.pow_le_pow_right (by decide) (by omega)), ?_, ?_⟩
      · rintro rfl -
        rcases hvalid with hz | ⟨-, hone⟩
        · rw [toNat_eq_zero_iff.2 hz]
          decide
        · rw [if_neg (by omega)] at hone
          rw [hone]
          decide
      · intro m v hv
        obtain ⟨hv, hword⟩ := hv
        rw [hmul'] at hv hword
        rw [hsum, hmul', hmul]
        refine ⟨by omega, ?_⟩
        rcases hvalid with hz | ⟨hsign, -⟩
        · rw [toNat_eq_zero_iff.2 hz, Nat.mul_zero, Nat.mul_zero, Nat.zero_add]
          exact hword
        · exact .inr (by omega)

/-- What the reader for 32 bits takes is a number of at most ten bytes of which it gives the low
word. -/
theorem read_of_varint32Loop {v : Nat} (hi : i ≤ 9) (hbit : bitpos = 7 * i)
    (h : result < 2 ^ bitpos) (h32 : result < 2 ^ 32)
    (hloop : varint32Loop l bitpos result = some (v, r)) :
    ∃ n, Base128.read (10 - i) l = some (n, r) ∧ 2 ^ bitpos * n < 2 ^ 64 ∧
      LowWord (result + 2 ^ bitpos * n) v := by
  induction l generalizing i bitpos result with
  | nil => cases hloop
  | cons byte l ih =>
    have hten : 10 - i = 9 - i + 1 := by omega
    have hlow := Base128.and_low_lt byte
    rw [varint32Loop] at hloop
    obtain ⟨result', hbyte, hloop⟩ := Option.bind_eq_some_iff.1 hloop
    obtain ⟨h32', hnext, hlast, hword⟩ := varint32Byte_eq_some hi hbit h h32 hbyte
    rw [hten, Base128.read]
    by_cases hmore : byte &&& 0x80 = 0
    · rw [if_neg (not_not_intro hmore)] at hloop
      cases hloop
      have hrefl := hword 0 v (LowWord.refl h32')
      rw [Nat.mul_zero, Nat.add_zero] at hrefl
      refine ⟨_, if_pos hmore, ?_, hrefl⟩
      subst hbit
      rcases Nat.lt_or_ge i 9 with hlt | hge
      · have hshift := shift_lt_iff (m := 0) (show 7 * i ≤ 56 by omega) hlow
        exact hshift.2 (by rw [Nat.mul_zero]; decide)
      · obtain rfl : i = 9 := Nat.le_antisymm hi hge
        have hlt := hlast rfl hmore
        omega
    · rw [if_pos hmore] at hloop
      rcases Nat.lt_or_ge i 9 with hlt | hge
      · obtain ⟨n, hread, hfits, hn⟩ := ih (i := i + 1) hlt (by omega) hnext h32' hloop
        have hnine : 9 - i = 10 - (i + 1) := by omega
        refine ⟨(byte &&& 0x7F).toNat + 128 * n, ?_, (shift_lt_iff (by omega) hlow).2 hfits,
          hword n v hn⟩
        rw [if_neg hmore, hnine, hread]
        rfl
      · rw [varint32Loop_stop (by omega)] at hloop
        cases hloop

/-- A byte of a number that fits into 32 bits is taken. -/
theorem varint32Byte_of_lt (hi : i ≤ 9) (hbit : bitpos = 7 * i) (h : result < 2 ^ bitpos)
    (hfits : result + 2 ^ bitpos * (byte &&& 0x7F).toNat < 2 ^ 32) :
    varint32Byte byte bitpos result = some (result + 2 ^ bitpos * (byte &&& 0x7F).toNat) := by
  unfold varint32Byte
  rcases Nat.lt_or_ge bitpos 32 with hlow32 | hhigh
  · rw [if_neg (Nat.not_le.2 hlow32)]
    split
    · rename_i h28
      subst h28
      obtain ⟨hbits, -, hzero, -⟩ := and_0f_toNat byte
      have hlt : (byte &&& 0x7F).toNat < 16 := by omega
      rw [if_neg (fun hbad => hbad.1 (hzero.2 hlt)), shiftLeft_or h]
      exact congrArg some (by omega)
    · rw [shiftLeft_or h]
  · have hpow : 2 ^ 32 ≤ 2 ^ bitpos := Nat.pow_le_pow_right (by decide) hhigh
    have hz : (byte &&& 0x7F).toNat = 0 := by
      rcases Nat.eq_zero_or_pos (byte &&& 0x7F).toNat with hz | hpos
      · exact hz
      · have hmul := Nat.mul_le_mul_left (2 ^ bitpos) hpos
        omega
    have hgood : ¬ (64 ≤ bitpos ∨ ¬ (byte &&& 0x7F = 0 ∨
        result / 2 ^ 31 ≠ 0 ∧ byte = if bitpos < 63 then (0xFF : UInt8) else 0x01)) := by
      rintro (hbad | hbad)
      · omega
      · exact hbad (.inl (toNat_eq_zero_iff.1 hz))
    rw [if_pos hhigh]
    simp only
    rw [if_neg hgood, hz, Nat.mul_zero, Nat.add_zero]

theorem varint32Loop_of_read (hi : i ≤ 10) (hbit : bitpos = 7 * i) (h : result < 2 ^ bitpos)
    (hread : Base128.read (10 - i) l = some (n, r)) (hfits : result + 2 ^ bitpos * n < 2 ^ 32) :
    varint32Loop l bitpos result = some (result + 2 ^ bitpos * n, r) := by
  induction l generalizing i bitpos result n with
  | nil =>
    cases hk : 10 - i with
    | zero =>
      rw [hk] at hread
      cases hread
    | succ k =>
      rw [hk] at hread
      cases hread
  | cons byte l ih =>
    rcases Nat.lt_or_ge i 10 with hlt | hge
    · have hten : 10 - i = 10 - (i + 1) + 1 := by omega
      have hlow := Base128.and_low_lt byte
      have hexp : 2 ^ (bitpos + 7) = 2 ^ bitpos * 128 := Nat.pow_add ..
      rw [hten, Base128.read] at hread
      rw [varint32Loop]
      split at hread
      · rename_i hmore
        cases hread
        rw [varint32Byte_of_lt (by omega) hbit h hfits]
        exact if_neg (not_not_intro hmore)
      · rename_i hmore
        obtain ⟨⟨m, r'⟩, hm, hr⟩ := Option.map_eq_some_iff.1 hread
        obtain ⟨rfl, rfl⟩ := Prod.mk.inj hr
        have hsum : 2 ^ bitpos * ((byte &&& 0x7F).toNat + 128 * m) =
            2 ^ bitpos * (byte &&& 0x7F).toNat + 2 ^ (bitpos + 7) * m := by
          rw [Nat.mul_add, ← Nat.mul_assoc, ← hexp]
        have hval : 2 ^ bitpos * (byte &&& 0x7F).toNat ≤ 2 ^ bitpos * 127 :=
          Nat.mul_le_mul_left _ (Nat.le_of_lt_succ hlow)
        simp only at hfits ⊢
        rw [hsum, ← Nat.add_assoc] at hfits ⊢
        rw [varint32Byte_of_lt (by omega) hbit h (by omega)]
        simp only [Option.bind_eq_bind, Option.bind_some]
        rw [if_pos hmore]
        exact ih (i := i + 1) (by omega) (by omega) (by omega) hm hfits
    · have hzero : 10 - i = 0 := by omega
      rw [hzero] at hread
      cases hread

theorem toNat_and_low (h : byte &&& 0x80 = 0) : byte.toNat = (byte &&& 0x7F).toNat := by
  have hall : ∀ b : BitVec 8, UInt8.ofBitVec b &&& 0x80 = 0 →
      (UInt8.ofBitVec b).toNat = (UInt8.ofBitVec b &&& 0x7F).toNat := by decide +kernel
  exact hall byte.toBitVec h

/-- The reader for 32 bits agrees with the one for 64: what it takes the other takes too, up to the
same byte, and it gives the low word of it, which is the whole number unless its highest bit is set.
A number of 32 bits it takes whenever the other does. -/
theorem pbDecodeVarint32_agrees (l r : List UInt8) :
    (∀ v, pbDecodeVarint32 l = some (v, r) → ∃ n, pbDecodeVarint l = some (n, r) ∧ LowWord n v) ∧
      ∀ n, n < 2 ^ 32 → pbDecodeVarint l = some (n, r) → pbDecodeVarint32 l = some (n, r) := by
  cases l with
  | nil =>
    refine ⟨fun v h => ?_, fun n _ h => ?_⟩
    · cases h
    · cases h
  | cons byte l =>
    have hlow := Base128.and_low_lt byte
    rw [pbDecodeVarint_eq, pbDecodeVarint32, Base128.read]
    by_cases hmore : byte &&& 0x80 = 0
    · rw [if_pos hmore, if_pos hmore, toNat_and_low hmore, Option.filter_some,
        if_pos (decide_eq_true (by omega))]
      refine ⟨fun v h => ?_, fun n _ h => h⟩
      cases h
      exact ⟨_, rfl, LowWord.refl (by omega)⟩
    · rw [if_neg hmore, if_neg hmore]
      refine ⟨fun v h => ?_, fun n hn h => ?_⟩
      · obtain ⟨n, hread, hfits, hword⟩ :=
          read_of_varint32Loop (i := 1) (by decide) rfl hlow (by omega) h
        refine ⟨_, ?_, hword⟩
        have hshift : 2 ^ 0 * ((byte &&& 0x7F).toNat + 128 * n) < 2 ^ 64 :=
          (shift_lt_iff (Nat.zero_le 56) hlow).2 hfits
        have hlt : (byte &&& 0x7F).toNat + 128 * n < 2 ^ 64 := by
          rwa [Nat.pow_zero, Nat.one_mul] at hshift
        have hpow : (2 : Nat) ^ (7 * 1) = 128 := by decide
        rw [hread, Option.map_some, Option.filter_some, if_pos (decide_eq_true hlt), hpow]
      · rw [Option.filter_eq_some_iff] at h
        obtain ⟨⟨m, r'⟩, hm, hr⟩ := Option.map_eq_some_iff.1 h.1
        obtain ⟨rfl, rfl⟩ := Prod.mk.inj hr
        exact varint32Loop_of_read (i := 1) (by decide) rfl hlow hm hn

/-- A number of 32 bits is read back by either reader. -/
theorem pbDecodeVarint32_encode (h : n < 2 ^ 32) (l : List UInt8) :
    pbDecodeVarint32 (pbEncodeVarint n ++ l) = some (n, l) :=
  (pbDecodeVarint32_agrees _ l).2 n h (pbDecodeVarint_encode (Nat.lt_trans h (by decide)) l)

end

end AppXd.Nanopb
