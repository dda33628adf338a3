import AppXd.Lib.Ring
import AppXd.Net4g.Config

/-!
# The receive FIFO

`data` is the memory from the first byte of the array on: the cells below the FIFO's size are the
array, the later ones whatever lies behind it. `uart` holds the bytes that the driver has received
and that `network_uart_recv` has not copied yet.
-/

namespace AppXd.Net4g

/-- `gNet4g_dataStruct.recv.fifo`. -/
structure Fifo where
  data : Nat → UInt8
  head : Nat
  tail : Nat

/-- Copy the oldest `len` received bytes to the cells from `dest` on. -/
def networkUartRecv (data : Nat → UInt8) (dest len : Nat) (uart : List UInt8) :
    (Nat → UInt8) × List UInt8 :=
  (Ring.blit data dest (uart.take len), uart.drop len)

/-- The receive interrupt's callback, for a ring of any size. The local `recv_len` is a `uint8_t`, the
tail is not. -/
def uartRecvCb (size : Nat) (f : Fifo) (uart : List UInt8) (len : Nat) : Fifo × List UInt8 :=
  if size ≤ f.tail + len then
    let recvLen := (((size : Int) - f.tail) % 256).toNat
    let (data, uart) := networkUartRecv f.data f.tail recvLen uart
    let recvLen := (((len : Int) - recvLen) % 256).toNat
    let (data, uart) := networkUartRecv data 0 recvLen uart
    ({ f with data := Ring.poke data recvLen 0, tail := recvLen }, uart)
  else
    let (data, uart) := networkUartRecv f.data f.tail len uart
    ({ f with data := Ring.poke data (f.tail + len) 0, tail := f.tail + len }, uart)

/-- `net4g_uart_recv_cb` -/
def net4gUartRecvCb (c : Config) (f : Fifo) (uart : List UInt8) (len : Nat) :
    Fifo × List UInt8 :=
  uartRecvCb c.uartRecvFifoSize f uart len

namespace Fifo

/-- The unread bytes. -/
def window (c : Config) (f : Fifo) : List UInt8 :=
  Ring.window f.data c.uartRecvFifoSize f.head f.tail

/-- The FIFO as the searches expect it: the tail stands in the array and on a NUL. The head may be
one past the array. -/
structure Wf (c : Config) (f : Fifo) : Prop where
  head_le : f.head ≤ c.uartRecvFifoSize
  tail_lt : f.tail < c.uartRecvFifoSize
  data_tail : f.data f.tail = 0

theorem length_window (c : Config) (f : Fifo) :
    (f.window c).length = Ring.unread c.uartRecvFifoSize f.head f.tail :=
  Ring.length_window ..

/-- Dropping the whole window. -/
theorem window_empty (c : Config) (f : Fifo) : ({ f with head := f.tail } : Fifo).window c = [] :=
  Ring.window_self ..

end Fifo

/-- A delivery is stored whole when the free part of the ring holds it and neither part of a
wrapping one exceeds the callback's `uint8_t` counter. -/
structure Fits (c : Config) (f : Fifo) (bs : List UInt8) : Prop where
  room : Ring.unread c.uartRecvFifoSize f.head f.tail + bs.length < c.uartRecvFifoSize
  parts : c.uartRecvFifoSize ≤ f.tail + bs.length →
    c.uartRecvFifoSize - f.tail < 256 ∧ f.tail + bs.length - c.uartRecvFifoSize < 256

instance (c : Config) (f : Fifo) (bs : List UInt8) : Decidable (Fits c f bs) :=
  decidable_of_iff (_ ∧ (_ → _)) ⟨fun h => ⟨h.1, h.2⟩, fun h => ⟨h.room, h.parts⟩⟩

/-- Only the length of the delivery matters. -/
theorem Fits.congr {c : Config} {f : Fifo} {bs bs' : List UInt8} (h : Fits c f bs)
    (hlen : bs'.length = bs.length) : Fits c f bs' := by
  refine ⟨?_, ?_⟩ <;> rw [hlen]
  · exact h.room
  · exact h.parts

/-- The part of `Fits` that keeps the indices in range. -/
theorem Fits.tail_lt {c : Config} {f : Fifo} {bs : List UInt8} (h : Fits c f bs)
    (ht : f.tail < c.uartRecvFifoSize) :
    f.tail + bs.length - c.uartRecvFifoSize < c.uartRecvFifoSize := by
  have := h.room
  unfold Ring.unread at this
  split at this <;> omega

section
variable {c : Config} {f : Fifo} {bs : List UInt8}

/-- The callback appends the oldest of the received bytes to the window, and leaves the head
alone. -/
theorem net4gUartRecvCb_window {uart : List UInt8} {len : Nat} (hh : f.head ≤ c.uartRecvFifoSize)
    (ht : f.tail < c.uartRecvFifoSize) (hlen : len ≤ uart.length) (hfit : Fits c f (uart.take len)) :
    ∃ f', net4gUartRecvCb c f uart len = (f', uart.drop len) ∧ f'.Wf c ∧ f'.head = f.head ∧
      f'.tail = Ring.wrap c.uartRecvFifoSize (f.tail + len) ∧
      f'.window c = f.window c ++ uart.take len := by
  have htake : (uart.take len).length = len := List.length_take_of_le hlen
  have hroom := hfit.room
  rcases Nat.lt_or_ge (f.tail + len) c.uartRecvFifoSize with hlt | hge
  · have hcb : net4gUartRecvCb c f uart len =
        ({ f with
            data := Ring.poke (Ring.blit f.data f.tail (uart.take len)) (f.tail + len) 0
            tail := f.tail + len }, uart.drop len) := by
      simp [net4gUartRecvCb, uartRecvCb, networkUartRecv, Nat.not_le.2 hlt]
    refine ⟨_, hcb, ⟨hh, hlt, Ring.poke_self ..⟩, rfl, (if_pos hlt).symm, ?_⟩
    have hwin : Ring.window _ _ _ (f.tail + (uart.take len).length) =
      f.window c ++ uart.take len := Ring.window_blit_flat 0 hh hroom (by rwa [htake])
    rwa [htake] at hwin
  · obtain ⟨h1, h2⟩ := hfit.parts (by rwa [htake])
    rw [htake] at h2
    have hfst : (((c.uartRecvFifoSize : Int) - f.tail) % 256).toNat =
        c.uartRecvFifoSize - f.tail := by omega
    have hsnd : (((len : Int) - ((c.uartRecvFifoSize - f.tail : Nat) : Int)) % 256).toNat =
        len - (c.uartRecvFifoSize - f.tail) := by omega
    have hcb : net4gUartRecvCb c f uart len =
        ({ f with
            data := Ring.poke (Ring.blit (Ring.blit f.data f.tail
              ((uart.take len).take (c.uartRecvFifoSize - f.tail))) 0
              ((uart.take len).drop (c.uartRecvFifoSize - f.tail)))
              (len - (c.uartRecvFifoSize - f.tail)) 0
            tail := len - (c.uartRecvFifoSize - f.tail) }, uart.drop len) := by
      have hpart : (uart.take len).take (c.uartRecvFifoSize - f.tail) =
          uart.take (c.uartRecvFifoSize - f.tail) := by
        rw [List.take_take, Nat.min_eq_left (by omega)]
      have hrest : (uart.take len).drop (c.uartRecvFifoSize - f.tail) =
          (uart.drop (c.uartRecvFifoSize - f.tail)).take (len - (c.uartRecvFifoSize - f.tail)) :=
        List.drop_take ..
      have hleft : (uart.drop (c.uartRecvFifoSize - f.tail)).drop
          (len - (c.uartRecvFifoSize - f.tail)) = uart.drop len := by
        rw [List.drop_drop, Nat.add_sub_cancel' (by omega)]
      simp only [net4gUartRecvCb, uartRecvCb, networkUartRecv, if_pos hge, hfst, hsnd, hpart, hrest,
        hleft]
    refine ⟨_, hcb, ⟨hh, ?_, Ring.poke_self ..⟩, rfl, ?_, ?_⟩
    · have := hfit.tail_lt ht
      rw [htake] at this
      show len - (c.uartRecvFifoSize - f.tail) < _
      omega
    · rw [Ring.wrap, if_neg (by omega)]
      show len - (c.uartRecvFifoSize - f.tail) = _
      omega
    · have hwin : Ring.window _ _ _ ((uart.take len).length - (c.uartRecvFifoSize - f.tail)) =
        f.window c ++ uart.take len := Ring.window_blit_wrap 0 hh ht hroom (by rwa [htake])
      rwa [htake] at hwin

/-- The callback appends to the window and leaves the head alone. -/
theorem net4gUartRecvCb_spec (hf : f.Wf c) (hfit : Fits c f bs) :
    ∃ f', net4gUartRecvCb c f bs bs.length = (f', []) ∧ f'.Wf c ∧ f'.head = f.head ∧
      f'.window c = f.window c ++ bs := by
  have htake : bs.take bs.length = bs := List.take_length
  obtain ⟨f', hcb, hwf, hhead, -, hwin⟩ :=
    net4gUartRecvCb_window hf.head_le hf.tail_lt (Nat.le_refl _) (by rwa [htake])
  rw [List.drop_length] at hcb
  rw [htake] at hwin
  exact ⟨f', hcb, hwf, hhead, hwin⟩

end

end AppXd.Net4g
