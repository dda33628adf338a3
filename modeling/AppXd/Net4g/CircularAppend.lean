import AppXd.Net4g.Fifo

/-!
# The receive callback as a circular append

The callback stores a delivery from the tail on and goes on at the cell 0 behind the last one. Both
parts of a delivery that wraps are counted in a `uint8_t`.
-/

namespace AppXd.Net4g

/-- `len` bytes are read and stored along the ring, a NUL stands behind them, and no other cell has
changed. -/
structure CircularAppend (size : Nat) (f : Fifo) (uart : List UInt8) (len : Nat)
    (r : Fifo × List UInt8) : Prop where
  read : r.2 = uart.drop len
  stored : ∀ i < len, some (r.1.data ((f.tail + i) % size)) = uart[i]?
  stop : r.1.data r.1.tail = 0
  frame : ∀ p, p ≠ r.1.tail → (∀ i < len, (f.tail + i) % size ≠ p) → r.1.data p = f.data p
  head : r.1.head = f.head
  tail : r.1.tail = (f.tail + len) % size

/-- Neither part of a delivery that wraps exceeds the counter. -/
def PartsFit (size tail len : Nat) : Prop :=
  size ≤ tail + len → size - tail < 256 ∧ tail + len - size < 256

section
variable {size len : Nat} {f : Fifo} {uart : List UInt8}

theorem mod_flat {i : Nat} (h : f.tail + i < size) : (f.tail + i) % size = f.tail + i :=
  Nat.mod_eq_of_lt h

theorem mod_wrapped {i : Nat} (ht : f.tail < size) (hi : i < size) (h : size ≤ f.tail + i) :
    (f.tail + i) % size = f.tail + i - size := by
  rw [Nat.mod_eq_sub_mod h]
  exact Nat.mod_eq_of_lt (by omega)

/-- A delivery in front of the end of the ring. -/
theorem circularAppend_flat (h : f.tail + len < size) (huart : len ≤ uart.length) :
    CircularAppend size f uart len (uartRecvCb size f uart len) := by
  have htake : (uart.take len).length = len := List.length_take_of_le huart
  have hcb : uartRecvCb size f uart len =
      ({ f with
          data := Ring.poke (Ring.blit f.data f.tail (uart.take len)) (f.tail + len) 0
          tail := f.tail + len }, uart.drop len) := if_neg (Nat.not_le.2 h)
  rw [hcb]
  refine ⟨rfl, fun i hi => ?_, Ring.poke_self .., fun p hp hout => ?_, rfl, (mod_flat h).symm⟩
  · show some (Ring.poke _ _ 0 _) = _
    rw [mod_flat (by omega), Ring.poke_of_ne (by omega), Ring.blit_add (by omega),
      List.getElem?_take_of_lt hi]
  · refine (Ring.poke_of_ne hp).trans ?_
    rcases Nat.lt_or_ge p f.tail with hlt | hge
    · exact Ring.blit_of_lt hlt
    · refine Ring.blit_of_ge ?_
      by_contra hin
      refine hout (p - f.tail) (by omega) ?_
      rw [mod_flat (by omega)]
      omega

/-- A delivery whose parts are counted right. -/
theorem circularAppend_wrapped (ht : f.tail < size) (hlen : len < size)
    (hwrap : size ≤ f.tail + len) (huart : len ≤ uart.length) (hfst : size - f.tail < 256)
    (hsnd : f.tail + len - size < 256) :
    CircularAppend size f uart len (uartRecvCb size f uart len) := by
  have h1 : (((size : Int) - f.tail) % 256).toNat = size - f.tail := by omega
  have h2 : (((len : Int) - ((size - f.tail : Nat) : Int)) % 256).toNat =
      f.tail + len - size := by omega
  have hcb : uartRecvCb size f uart len =
      ({ f with
          data := Ring.poke (Ring.blit (Ring.blit f.data f.tail (uart.take (size - f.tail))) 0
            ((uart.drop (size - f.tail)).take (f.tail + len - size))) (f.tail + len - size) 0
          tail := f.tail + len - size }, uart.drop len) := by
    have hleft : (uart.drop (size - f.tail)).drop (f.tail + len - size) = uart.drop len := by
      rw [List.drop_drop, show size - f.tail + (f.tail + len - size) = len by omega]
    simp only [uartRecvCb, networkUartRecv, if_pos hwrap, h1, h2, hleft]
  have hpart : (uart.take (size - f.tail)).length = size - f.tail :=
    List.length_take_of_le (by omega)
  have hrest : ((uart.drop (size - f.tail)).take (f.tail + len - size)).length =
      f.tail + len - size := List.length_take_of_le (by rw [List.length_drop]; omega)
  rw [hcb]
  refine ⟨rfl, fun i hi => ?_, Ring.poke_self .., fun p hp hout => ?_, rfl,
    (mod_wrapped ht hlen hwrap).symm⟩
  · show some (Ring.poke _ _ 0 _) = _
    rcases Nat.lt_or_ge (f.tail + i) size with hlt | hge
    · rw [mod_flat hlt, Ring.poke_of_ne (by omega), Ring.blit_of_ge (by omega),
        Ring.blit_add (by omega), List.getElem?_take_of_lt (by omega)]
    · have hcell : some (Ring.blit (Ring.blit f.data f.tail (uart.take (size - f.tail))) 0
          ((uart.drop (size - f.tail)).take (f.tail + len - size)) (0 + (f.tail + i - size))) =
            _ := Ring.blit_add (by omega)
      rw [Nat.zero_add] at hcell
      rw [mod_wrapped ht (by omega) hge, Ring.poke_of_ne (by omega), hcell,
        List.getElem?_take_of_lt (by omega), List.getElem?_drop,
        show size - f.tail + (f.tail + i - size) = i by omega]
  · refine (Ring.poke_of_ne hp).trans ?_
    -- a cell in front of the new tail, or from the old tail on, has been stored
    have hge : f.tail + len - size ≤ p := by
      by_contra hin
      refine hout (size - f.tail + p) (by omega) ?_
      rw [mod_wrapped ht (by omega) (by omega)]
      omega
    rw [Ring.blit_of_ge (by omega)]
    rcases Nat.lt_or_ge p f.tail with hlt | hge'
    · exact Ring.blit_of_lt hlt
    · refine Ring.blit_of_ge ?_
      by_contra hin
      refine hout (p - f.tail) (by omega) ?_
      rw [mod_flat (by omega)]
      omega

end

/-- The callback is a circular append exactly when the parts of the delivery fit the counter. -/
theorem circularAppend_iff_partsFit {size len : Nat} {f : Fifo} {uart : List UInt8}
    (ht : f.tail < size) (hlen : 1 ≤ len ∧ len ≤ size - 1) (huart : len ≤ uart.length) :
    CircularAppend size f uart len (uartRecvCb size f uart len) ↔ PartsFit size f.tail len := by
  rcases Nat.lt_or_ge (f.tail + len) size with hflat | hwrap
  · exact iff_of_true (circularAppend_flat hflat huart) fun h => absurd hflat (Nat.not_lt.2 h)
  constructor
  · intro h _
    have htail := h.tail
    have hread := congrArg List.length h.read
    rw [mod_wrapped ht (by omega) hwrap] at htail
    simp only [uartRecvCb, networkUartRecv, if_pos hwrap, List.length_drop] at htail hread
    omega
  · intro h
    obtain ⟨hfst, hsnd⟩ := h hwrap
    exact circularAppend_wrapped ht (by omega) hwrap huart hfst hsnd

/-- Three bytes into a ring of four cells. -/
theorem circularAppend_four : PartsFit 4 2 3 ∧
    CircularAppend 4 ⟨fun _ => 0, 2, 2⟩ [1, 2, 3] 3
      (uartRecvCb 4 ⟨fun _ => 0, 2, 2⟩ [1, 2, 3] 3) := by
  have hfit : PartsFit 4 2 3 := fun _ => by decide
  exact ⟨hfit, (circularAppend_iff_partsFit (f := ⟨fun _ => 0, 2, 2⟩) (by decide) (by decide)
    (by decide)).2 hfit⟩

/-- The part in front of the end has 256 bytes, of which none is read. -/
theorem not_circularAppend : ¬ ∀ (size len : Nat) (f : Fifo) (uart : List UInt8),
    size ≤ 65535 → f.tail < size → 1 ≤ len ∧ len ≤ size - 1 → len ≤ uart.length →
      CircularAppend size f uart len (uartRecvCb size f uart len) := by
  intro h
  have huart : (List.replicate 256 (7 : UInt8)).length = 256 := List.length_replicate
  generalize List.replicate 256 (7 : UInt8) = uart at huart
  have hlaw := h 512 256 ⟨fun _ => 0, 256, 256⟩ uart (by decide) (by decide) (by decide) huart.ge
  have hread := congrArg List.length hlaw.read
  simp [uartRecvCb, networkUartRecv, huart] at hread

end AppXd.Net4g
