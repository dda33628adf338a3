import Mathlib.Data.List.Basic
import Mathlib.Tactic.Common

/-!
# Asynchronous serial frames

A byte is sent as ten levels: the start bit 0, the eight bits of the byte with the lowest first, and
the stop bit 1. The register of a receiver takes the bits one after the other.
-/

namespace Serial

/-- The bits of a byte, lowest first. -/
def bits (b : UInt8) : List Bool := (List.range 8).map b.toBitVec.getLsbD

/-- The ten levels of a byte. -/
def frame (b : UInt8) : List Bool := false :: (bits b ++ [true])

/-- The levels of a message whose frames are each followed by one idle level. -/
def wave (msg : List UInt8) : List Bool := msg.flatMap fun b => frame b ++ [true]

@[simp] theorem length_bits (b : UInt8) : (bits b).length = 8 := by
  rw [bits, List.length_map, List.length_range]

@[simp] theorem length_frame (b : UInt8) : (frame b).length = 10 := by
  rw [frame, List.length_cons, List.length_append, length_bits, List.length_singleton]

theorem wave_cons (b : UInt8) (msg : List UInt8) : wave (b :: msg) = frame b ++ [true] ++ wave msg :=
  rfl

@[simp] theorem length_wave (msg : List UInt8) : (wave msg).length = 11 * msg.length := by
  induction msg with
  | nil => rfl
  | cons b msg ih =>
    rw [wave_cons, List.length_append, List.length_append, length_frame, ih, List.length_singleton,
      List.length_cons]
    omega

/-- The levels of one frame inside a message. -/
theorem wave_getElem? {msg : List UInt8} {i p : Nat} {b : UInt8} (hb : msg[i]? = some b)
    (hp : p < 11) : (wave msg)[11 * i + p]? = (frame b ++ [true])[p]? := by
  induction msg generalizing i with
  | nil => cases hb
  | cons c msg ih =>
    have hlen : (frame c ++ [true]).length = 11 := by
      rw [List.length_append, length_frame, List.length_singleton]
    rw [wave_cons]
    cases i with
    | zero =>
      obtain rfl := Option.some.inj hb
      rw [Nat.mul_zero, Nat.zero_add, List.getElem?_append_left (by rw [hlen]; exact hp)]
    | succ i =>
      rw [List.getElem?_append_right (by rw [hlen]; omega), hlen,
        show 11 * (i + 1) + p - 11 = 11 * i + p by omega]
      exact ih hb

theorem bits_getElem? {b : UInt8} {n : Nat} (h : n < 8) : (bits b)[n]? = some (b.toBitVec.getLsbD n) := by
  rw [bits, List.getElem?_map, List.getElem?_range h]
  rfl

/-- A byte is determined by its bits. -/
theorem eq_of_bits {a b : UInt8} (h : bits a = bits b) : a = b := by
  refine UInt8.toBitVec_inj.1 (BitVec.eq_of_getLsbD_eq fun i hi => ?_)
  have hget := congrArg (·[i]?) h
  simp only [bits_getElem? hi] at hget
  exact Option.some.inj hget

/-- The level of a data bit. -/
theorem shiftRight_and_one {b : UInt8} {n : Nat} (h : n < 8) :
    decide ((b >>> n.toUInt8) &&& 1 ≠ 0) = b.toBitVec.getLsbD n := by
  have hall : ∀ n < 8, ∀ b : BitVec 8,
      decide ((UInt8.ofBitVec b >>> Nat.toUInt8 n) &&& 1 ≠ 0) = b.getLsbD n := by
    decide +kernel
  exact hall n h b.toBitVec

/-! ## The register -/

/-- `acc` with the next bit at the place `n`. -/
def shiftIn (acc : UInt8) (n : Nat) (bit : Bool) : UInt8 :=
  acc ||| (if bit then 1 else 0) <<< n.toUInt8

/-- The register holds the given bits, and zeros above them. -/
def Holds (acc : UInt8) (l : List Bool) : Prop := ∀ i < 8, acc.toBitVec.getLsbD i = l.getD i false

theorem Holds.zero : Holds 0 [] := by
  intro i hi
  show (0#8).getLsbD i = _
  simp

theorem getLsbD_shiftIn {acc : UInt8} {n : Nat} {bit : Bool} (h : n < 8) {i : Nat} (hi : i < 8) :
    (shiftIn acc n bit).toBitVec.getLsbD i = (acc.toBitVec.getLsbD i || bit && decide (i = n)) := by
  have hall : ∀ n < 8, ∀ i < 8, ∀ bit : Bool,
      ((if bit then (1 : UInt8) else 0) <<< Nat.toUInt8 n).toBitVec.getLsbD i =
        (bit && decide (i = n)) := by
    decide +kernel
  rw [shiftIn, UInt8.toBitVec_or, BitVec.getLsbD_or, hall n h i hi bit]

theorem Holds.shiftIn {acc : UInt8} {l : List Bool} (h : Holds acc l) (bit : Bool)
    (hl : l.length < 8) : Holds (shiftIn acc l.length bit) (l ++ [bit]) := by
  intro i hi
  rw [getLsbD_shiftIn hl hi, h i hi]
  obtain hlt | rfl | hgt := Nat.lt_trichotomy i l.length
  · simp [List.getD_eq_getElem?_getD, List.getElem?_append_left hlt, Nat.ne_of_lt hlt]
  · simp [List.getD_eq_getElem?_getD]
  · have hout : (l ++ [bit]).length ≤ i := by
      rw [List.length_append, List.length_singleton]
      exact hgt
    rw [List.getD_eq_getElem?_getD, List.getElem?_eq_none (Nat.le_of_lt hgt),
      List.getD_eq_getElem?_getD, List.getElem?_eq_none hout, decide_eq_false (Nat.ne_of_gt hgt),
      Bool.and_false, Bool.or_false]

/-- A register with eight bits holds the byte of these bits. -/
theorem Holds.bits_eq {acc : UInt8} {l : List Bool} (h : Holds acc l) (hl : l.length = 8) :
    bits acc = l := by
  refine List.ext_getElem? fun i => ?_
  rcases Nat.lt_or_ge i 8 with hi | hi
  · have hi' : i < l.length := hl ▸ hi
    rw [bits_getElem? hi, h i hi, List.getD_eq_getElem?_getD, List.getElem?_eq_getElem hi']
    rfl
  · rw [List.getElem?_eq_none (by rw [length_bits]; exact hi), List.getElem?_eq_none (hl ▸ hi)]

end Serial
