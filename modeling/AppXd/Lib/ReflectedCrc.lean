import Mathlib.Logic.Function.Iterate
import Mathlib.Tactic.Common

/-!
# Reflected cyclic redundancy checks

The register of a check of `w` bits takes in one bit after the other, the lowest bit of a byte
first. A shift of the register is linear in exclusive or, so the bits of a whole word can be put
into the register at once, and a register whose polynomial has its highest bit set forgets nothing:
two streams that differ only within `w` bits in a row leave it in different states.
-/

namespace Crc

variable {w : Nat} {poly : BitVec w}

/-- The register moves on by one bit. -/
def shift (poly r : BitVec w) : BitVec w :=
  if r.getLsbD 0 then (r >>> 1) ^^^ poly else r >>> 1

/-- The bits of a word, the lowest first. -/
def word (bs : List Bool) : BitVec w := (BitVec.ofBoolListLE bs).setWidth w

/-- The stream of a word's bits, the lowest first. -/
def bitsOf {v : Nat} (x : BitVec v) : List Bool := (List.range v).map x.getLsbD

/-- The register takes in a bit. -/
def feed (poly r : BitVec w) (b : Bool) : BitVec w := shift poly (r ^^^ word [b])

/-- The upper `k` bits of the register are clear. -/
def Room (k : Nat) (r : BitVec w) : Prop := ∀ i, w ≤ i + k → r.getLsbD i = false

/-- The register behind a stream of bits. -/
def remainder (poly r : BitVec w) (bs : List Bool) : BitVec w := bs.foldl (feed poly) r

/-- Two streams of one length differ, and only within `k` bits in a row. -/
structure Burst (k : Nat) (bs cs : List Bool) : Prop where
  length : cs.length = bs.length
  differs : cs ≠ bs
  within : ∃ s, ∀ j : Nat, cs[j]? ≠ bs[j]? → s ≤ j ∧ j < s + k

/-! ## Words -/

section
variable {b : Bool} {bs cs : List Bool} {v i : Nat}

@[simp] theorem length_bitsOf (x : BitVec v) : (bitsOf x).length = v := by
  rw [bitsOf, List.length_map, List.length_range]

theorem getLsbD_word : (word bs : BitVec w).getLsbD i = (decide (i < w) && bs.getD i false) := by
  rw [word, BitVec.getLsbD_setWidth, BitVec.getLsbD_ofBoolListLE]

@[simp] theorem word_nil : (word [] : BitVec w) = 0#w := by
  refine BitVec.eq_of_getLsbD_eq fun i _ => ?_
  rw [getLsbD_word, List.getD_nil, Bool.and_false]
  exact BitVec.getLsbD_zero.symm

/-- The rest of a word stands one place higher. -/
theorem word_cons (b : Bool) (bs : List Bool) : (word (b :: bs) : BitVec w) = word [b] ^^^ word bs <<< 1 := by
  refine BitVec.eq_of_getLsbD_eq fun i hi => ?_
  rw [BitVec.getLsbD_xor, BitVec.getLsbD_shiftLeft, getLsbD_word, getLsbD_word, getLsbD_word]
  cases i with
  | zero => simp
  | succ i => simp [hi, Nat.lt_of_succ_lt hi]

theorem word_bitsOf (x : BitVec v) : (word (bitsOf x) : BitVec w) = x.setWidth w := by
  refine BitVec.eq_of_getLsbD_eq fun i _ => ?_
  rw [getLsbD_word, BitVec.getLsbD_setWidth, bitsOf, List.getD_eq_getElem?_getD, List.getElem?_map]
  rcases Nat.lt_or_ge i v with hlt | hge
  · rw [List.getElem?_range hlt]
    rfl
  · rw [List.getElem?_eq_none (by rwa [List.length_range]), BitVec.getLsbD_of_ge x i hge]
    rfl

/-- A word that the register has room for keeps its bits. -/
theorem word_injective (hlen : bs.length = cs.length) (hw : bs.length ≤ w)
    (h : (word bs : BitVec w) = word cs) : bs = cs := by
  refine List.ext_getElem hlen fun i hi hi' => ?_
  have hbit : (word bs : BitVec w).getLsbD i = (word cs : BitVec w).getLsbD i := by rw [h]
  rw [getLsbD_word, getLsbD_word, decide_eq_true (Nat.lt_of_lt_of_le hi hw)] at hbit
  simpa [hi, hi'] using hbit

end

/-! ## The register -/

section
variable {r s : BitVec w} {bs cs us vs : List Bool}

theorem shift_xor : shift poly (r ^^^ s) = shift poly r ^^^ shift poly s := by
  unfold shift
  rw [BitVec.getLsbD_xor, BitVec.ushiftRight_xor_distrib]
  cases r.getLsbD 0 <;> cases s.getLsbD 0
  · rfl
  · exact BitVec.xor_assoc ..
  · show r >>> 1 ^^^ s >>> 1 ^^^ poly = r >>> 1 ^^^ poly ^^^ s >>> 1
    rw [BitVec.xor_assoc, BitVec.xor_comm (s >>> 1), BitVec.xor_assoc]
  · show r >>> 1 ^^^ s >>> 1 = r >>> 1 ^^^ poly ^^^ (s >>> 1 ^^^ poly)
    rw [BitVec.xor_comm (s >>> 1) poly, BitVec.xor_assoc, ← BitVec.xor_assoc poly,
      BitVec.xor_self, BitVec.zero_xor]

theorem shift_iterate_xor (k : Nat) :
    (shift poly)^[k] (r ^^^ s) = (shift poly)^[k] r ^^^ (shift poly)^[k] s := by
  induction k generalizing r s with
  | zero => rfl
  | succ k ih => rw [Function.iterate_succ_apply, shift_xor, ih]; rfl

theorem Room.shl {k l : Nat} (h : Room (k + l) r) : Room l (r <<< k) := by
  intro i hi
  rw [BitVec.getLsbD_shiftLeft]
  rcases Nat.lt_or_ge i k with hlt | hge
  · rw [decide_eq_true hlt, Bool.not_true, Bool.and_false, Bool.false_and]
  · rw [h (i - k) (by omega), Bool.and_false]

/-- A shift brings down what stands above a clear bit. -/
theorem shift_shl (h : Room 1 r) : shift poly (r <<< 1) = r := by
  have hlow : (r <<< 1).getLsbD 0 = false := by simp
  have hback : r <<< 1 >>> 1 = r := by
    refine BitVec.eq_of_getLsbD_eq fun i _ => ?_
    rw [BitVec.getLsbD_ushiftRight, BitVec.getLsbD_shiftLeft, Nat.add_sub_cancel_left]
    by_cases hi : 1 + i < w
    · simp [hi]
    · rw [h i (by omega), Bool.and_false]
  unfold shift
  rw [hlow, hback]
  rfl

theorem shift_iterate_shl {k : Nat} (h : Room k r) : (shift poly)^[k] (r <<< k) = r := by
  induction k with
  | zero => exact BitVec.shiftLeft_zero r
  | succ k ih =>
    rw [Function.iterate_succ_apply, BitVec.shiftLeft_add, shift_shl h.shl]
    exact ih fun i hi => h i (Nat.le_succ_of_le hi)

/-- The upper part of the register only moves down while the lower one is shifted out. -/
theorem shift_iterate_split (k : Nat) (r : BitVec w) :
    (shift poly)^[k] r = (shift poly)^[k] (r ^^^ r >>> k <<< k) ^^^ r >>> k := by
  have hroom : Room k (r >>> k) := by
    intro i hi
    rw [BitVec.getLsbD_ushiftRight, BitVec.getLsbD_of_ge r (k + i) (by omega)]
  rw [shift_iterate_xor, shift_iterate_shl hroom, BitVec.xor_assoc, BitVec.xor_self,
    BitVec.xor_zero]

/-- A word that the register has room for is put into it at once. -/
theorem remainder_eq (hw : bs.length ≤ w) :
    remainder poly r bs = (shift poly)^[bs.length] (r ^^^ word bs) := by
  induction bs generalizing r with
  | nil =>
    rw [word_nil, BitVec.xor_zero]
    rfl
  | cons b bs ih =>
    rw [List.length_cons] at hw
    have hroom : Room 1 (word bs : BitVec w) := by
      intro i hi
      rw [getLsbD_word, List.getD_eq_getElem?_getD, List.getElem?_eq_none (by omega),
        Option.getD_none, Bool.and_false]
    calc remainder poly r (b :: bs)
        = (shift poly)^[bs.length] (feed poly r b ^^^ word bs) :=
          ih (Nat.le_of_succ_le hw)
      _ = (shift poly)^[bs.length] (shift poly (r ^^^ word [b] ^^^ word bs <<< 1)) := by
          rw [shift_xor, shift_shl hroom, feed]
      _ = (shift poly)^[bs.length + 1] (r ^^^ word (b :: bs)) := by
          rw [word_cons b bs, ← BitVec.xor_assoc, Function.iterate_succ_apply]

theorem remainder_bitsOf {v : Nat} (hv : v ≤ w) (x : BitVec v) :
    remainder poly r (bitsOf x) = (shift poly)^[v] (r ^^^ x.setWidth w) := by
  rw [remainder_eq (by rwa [length_bitsOf]), length_bitsOf, word_bitsOf]

theorem remainder_append : remainder poly r (bs ++ cs) = remainder poly (remainder poly r bs) cs :=
  List.foldl_append

/-! ## Differences -/

/-- The lowest bit comes back as the highest one. -/
theorem getLsbD_shift_last (hpoly : poly.msb = true) :
    (shift poly r).getLsbD (w - 1) = r.getLsbD 0 := by
  rw [BitVec.msb_eq_getLsbD_last] at hpoly
  have hlast : (r >>> 1).getLsbD (w - 1) = false := by
    rw [BitVec.getLsbD_ushiftRight, BitVec.getLsbD_of_ge r _ (by omega)]
  unfold shift
  split
  · rename_i h
    rw [BitVec.getLsbD_xor, hlast, hpoly, h]
    rfl
  · rename_i h
    rw [hlast, Bool.not_eq_true _ |>.mp h]

/-- The register forgets nothing. -/
theorem shift_injective (hpoly : poly.msb = true) : Function.Injective (shift poly) := by
  intro r s h
  have hlow : r.getLsbD 0 = s.getLsbD 0 := by
    rw [← getLsbD_shift_last hpoly, ← getLsbD_shift_last hpoly, h]
  have hhigh : r >>> 1 = s >>> 1 := by
    unfold shift at h
    rw [hlow] at h
    split at h
    · exact (BitVec.xor_left_inj poly).1 h
    · exact h
  refine BitVec.eq_of_getLsbD_eq fun i _ => ?_
  cases i with
  | zero => exact hlow
  | succ i =>
    have hbit : (r >>> 1).getLsbD i = (s >>> 1).getLsbD i := by rw [hhigh]
    rwa [BitVec.getLsbD_ushiftRight, BitVec.getLsbD_ushiftRight, Nat.add_comm] at hbit

theorem remainder_injective (hpoly : poly.msb = true) (bs : List Bool) :
    Function.Injective fun r => remainder poly r bs := by
  induction bs with
  | nil => exact Function.injective_id
  | cons b bs ih =>
    intro r s h
    have hfeed : feed poly r b = feed poly s b := ih h
    exact (BitVec.xor_left_inj _).1 (shift_injective hpoly hfeed)

/-- Streams with a common part in front and one behind, and a word between them that the register
has room for, leave it in different states when these words differ. -/
theorem remainder_ne (hpoly : poly.msb = true) (hlen : us.length = vs.length) (hw : us.length ≤ w)
    (hne : us ≠ vs) : remainder poly r (bs ++ us ++ cs) ≠ remainder poly r (bs ++ vs ++ cs) := by
  intro h
  rw [remainder_append, remainder_append, remainder_append, remainder_append] at h
  have hword := remainder_injective hpoly cs h
  have hw' : vs.length ≤ w := hlen ▸ hw
  simp only [remainder_eq hw, remainder_eq hw', hlen] at hword
  exact hne (word_injective hlen hw ((BitVec.xor_right_inj _).1
    ((shift_injective hpoly).iterate _ hword)))

/-- A burst stands between two common parts. -/
theorem Burst.split {k : Nat} (h : Burst k bs cs) : ∃ us vs us' vs', bs = us ++ us' ++ vs ∧
    cs = us ++ vs' ++ vs ∧ us'.length = vs'.length ∧ us'.length ≤ k ∧ us' ≠ vs' := by
  obtain ⟨s, hs⟩ := h.within
  have hfront : cs.take s = bs.take s := by
    refine List.ext_getElem? fun j => ?_
    rw [List.getElem?_take, List.getElem?_take]
    split
    · by_contra hne
      exact absurd (hs j hne).1 (Nat.not_le.2 ‹_›)
    · rfl
  have hback : cs.drop (s + k) = bs.drop (s + k) := by
    refine List.ext_getElem? fun j => ?_
    rw [List.getElem?_drop, List.getElem?_drop]
    by_contra hne
    exact absurd (hs _ hne).2 (Nat.not_lt.2 (Nat.le_add_right _ j))
  have hsplit : ∀ l : List Bool, l = l.take s ++ (l.drop s).take k ++ l.drop (s + k) := by
    intro l
    rw [List.append_assoc, ← List.drop_drop, List.take_append_drop, List.take_append_drop]
  refine ⟨bs.take s, bs.drop (s + k), (bs.drop s).take k, (cs.drop s).take k, hsplit bs, ?_, ?_,
    ?_, fun hmid => h.differs ?_⟩
  · rw [← hfront, ← hback]
    exact hsplit cs
  · rw [List.length_take, List.length_take, List.length_drop, List.length_drop, h.length]
  · rw [List.length_take]
    exact Nat.min_le_left ..
  · rw [hsplit cs, hfront, hback, ← hmid, ← hsplit bs]

/-- A burst that is not longer than the register does not go unseen. -/
theorem Burst.remainder_ne (hpoly : poly.msb = true) (h : Burst w bs cs) :
    remainder poly r cs ≠ remainder poly r bs := by
  obtain ⟨us, vs, us', vs', rfl, rfl, hlen, hw, hne⟩ := h.split
  exact (Crc.remainder_ne hpoly hlen hw hne).symm

end

end Crc
