import AppXd.Lib.Ring
import AppXd.Lib.Serial

/-!
# The simulated UART

Two timers drive it: at every tick of the first `tx_timer_cb` puts the next level on the line, and at
every tick of the second `rx_timer_cb` samples a level. The state is `sim_ctrl` with the receive
buffer and the level of the transmit pin.
-/

namespace AppXd.SimUart

open Ring (cells poke blit)

/-- `SIM_UART_BUFFER_SIZE`. -/
def simUartBufferSize : Nat := 200

def startBit : Nat := 1
def dataBits : Nat := 8
def stopBit : Nat := 1

/-- `sim_ctrl`, `rx_buffer` with its index, and the level of `SIM_UART_TX_PIN`. The flags that only
take the values 0 and 1 are Booleans. -/
structure SimCtrl where
  txBuf : Nat → UInt8
  txIndex : Nat
  txBitPos : Nat
  txLength : Nat
  txBusy : Bool
  txEnable : Bool
  rxEnable : UInt8
  rxBitCount : Nat
  rxByte : UInt8
  rxStart : Bool
  rxBuffer : Nat → UInt8
  rxBufferIndex : Nat
  line : Bool

inductive SimUartStatus
  | ok | busy | invalidParam | rxDisabled
  deriving DecidableEq, Repr

/-- The bytes that have been received and not yet been fetched. -/
def SimCtrl.unread (s : SimCtrl) : List UInt8 := cells s.rxBuffer 0 s.rxBufferIndex

/-! ## The callbacks of the timers -/

/-- The level that the next tick puts on the line inside a frame. -/
def SimCtrl.txLevel (s : SimCtrl) : Bool :=
  if s.txBitPos < startBit then false
  else if s.txBitPos < startBit + dataBits then
    (s.txBuf s.txIndex >>> (s.txBitPos - startBit).toUInt8) &&& 1 ≠ 0
  else true

/-- `tx_timer_cb`. -/
def txTimerCb (s : SimCtrl) : SimCtrl :=
  if s.txEnable then
    if s.txBitPos < startBit + dataBits + stopBit then
      { s with line := s.txLevel, txBitPos := s.txBitPos + 1 }
    else
      let s := { s with txBitPos := 0, txIndex := (s.txIndex + 1) % 65536 }
      if s.txLength ≤ s.txIndex then { s with txBusy := false, txEnable := false, line := true }
      else s
  else s

/-- The byte in the register goes to the buffer, if there is room. -/
def SimCtrl.storeByte (s : SimCtrl) : SimCtrl :=
  if s.rxBufferIndex < simUartBufferSize then
    { s with
      rxBuffer := poke s.rxBuffer s.rxBufferIndex s.rxByte
      rxBufferIndex := s.rxBufferIndex + 1 }
  else s

/-- `rx_timer_cb`, with the level that `ql_gpio_get_level` reads, if it can read one. -/
def rxTimerCb (level : Option Bool) (s : SimCtrl) : SimCtrl :=
  if s.rxEnable = 0 then s
  else
    match level with
    | none => s
    | some bit =>
      if s.rxStart = false then
        if bit = false then { s with rxStart := true, rxBitCount := 0, rxByte := 0 } else s
      else if s.rxBitCount < dataBits then
        { s with
          rxByte := Serial.shiftIn s.rxByte s.rxBitCount bit
          rxBitCount := s.rxBitCount + 1 }
      else if s.rxBitCount = dataBits then
        if bit = true then { s.storeByte with rxStart := false } else { s with rxStart := false }
      else s

/-! ## The functions of the interface -/

/-- `sim_uart_send`. A NULL is `none`. -/
def simUartSend (data : Option (List UInt8)) (s : SimCtrl) : SimUartStatus × SimCtrl :=
  if s.txBusy then (.busy, s)
  else
    match data with
    | none => (.invalidParam, s)
    | some data =>
      if data.length = 0 ∨ simUartBufferSize < data.length then (.invalidParam, s)
      else
        (.ok, { s with
          txBuf := blit s.txBuf 0 data
          txLength := data.length
          txIndex := 0
          txBitPos := 0
          txBusy := true
          txEnable := true })

/-- `sim_uart_receive`, with the bytes that it copies. -/
def simUartReceive (maxLength : Nat) (s : SimCtrl) : List UInt8 × SimCtrl :=
  if s.rxEnable = 0 then ([], s)
  else
    let copiedLength := if s.rxBufferIndex < maxLength then s.rxBufferIndex else maxLength
    (cells s.rxBuffer 0 copiedLength, { s with rxBufferIndex := 0 })

/-- `sim_uart_enable_rx`. -/
def simUartEnableRx (enable : UInt8) (s : SimCtrl) : SimCtrl := { s with rxEnable := enable }

/-- `sim_uart_abort_tx`. -/
def simUartAbortTx (s : SimCtrl) : SimCtrl :=
  { s with txEnable := false, txBusy := false, line := true }

/-- The state after `sim_uart_init`. -/
def SimCtrl.reset : SimCtrl where
  txBuf _ := 0
  txIndex := 0
  txBitPos := 0
  txLength := 0
  txBusy := false
  txEnable := false
  rxEnable := 1
  rxBitCount := 0
  rxByte := 0
  rxStart := false
  rxBuffer _ := 0
  rxBufferIndex := 0
  line := true

/-! ## Ticks of the transmitter -/

section
variable {s : SimCtrl}

theorem txTimerCb_disabled (h : s.txEnable = false) : txTimerCb s = s := by
  rw [txTimerCb, if_neg (by rw [h]; decide)]

/-- Inside a frame. -/
theorem txTimerCb_frame (h : s.txEnable = true) (hpos : s.txBitPos < 10) :
    txTimerCb s = { s with line := s.txLevel, txBitPos := s.txBitPos + 1 } := by
  have hpos' : s.txBitPos < startBit + dataBits + stopBit := hpos
  rw [txTimerCb, if_pos h, if_pos hpos']

/-- Behind a frame of the message that is not its last. -/
theorem txTimerCb_next (h : s.txEnable = true) (hpos : s.txBitPos = 10)
    (hmore : s.txIndex + 1 < s.txLength) (hlen : s.txLength ≤ 65536) :
    txTimerCb s = { s with txBitPos := 0, txIndex := s.txIndex + 1 } := by
  rw [txTimerCb, if_pos h, if_neg (by rw [hpos]; decide)]
  simp only
  rw [Nat.mod_eq_of_lt (by omega), if_neg (by omega)]

/-- Behind the last frame of the message. -/
theorem txTimerCb_last (h : s.txEnable = true) (hpos : s.txBitPos = 10)
    (hmore : s.txIndex + 1 = s.txLength) (hlen : s.txLength < 65536) :
    txTimerCb s = { s with
      txBitPos := 0
      txIndex := s.txIndex + 1
      txBusy := false
      txEnable := false
      line := true } := by
  rw [txTimerCb, if_pos h, if_neg (by rw [hpos]; decide)]
  simp only
  rw [Nat.mod_eq_of_lt (by omega), if_pos (by omega)]

/-- The levels of a frame are those of the byte. -/
theorem txLevel_frame {b : UInt8} (hb : s.txBuf s.txIndex = b) (hpos : s.txBitPos < 10) :
    (Serial.frame b)[s.txBitPos]? = some s.txLevel := by
  unfold SimCtrl.txLevel Serial.frame startBit dataBits
  match h : s.txBitPos with
  | 0 => rfl
  | n + 1 =>
    rw [h] at hpos
    rw [List.getElem?_cons_succ, if_neg (by omega)]
    rcases Nat.lt_or_ge n 8 with hn | hn
    · rw [if_pos (by omega), Nat.add_sub_cancel, Serial.shiftRight_and_one hn, hb,
        List.getElem?_append_left (by rw [Serial.length_bits]; exact hn), Serial.bits_getElem? hn]
    · obtain rfl : n = 8 := by omega
      rw [if_neg (by omega), List.getElem?_append_right (by rw [Serial.length_bits]),
        Serial.length_bits]
      rfl

end

/-! ## Ticks of the receiver -/

section
variable {s : SimCtrl}

/-- What a tick does with a level, where the receiver is enabled. -/
inductive RxOutcome (s : SimCtrl) : Bool → SimCtrl → Prop
  | quiet : s.rxStart = false → RxOutcome s true s
  | start : s.rxStart = false →
    RxOutcome s false { s with rxStart := true, rxBitCount := 0, rxByte := 0 }
  | bit (b : Bool) : s.rxStart = true → s.rxBitCount < 8 →
    RxOutcome s b { s with
      rxByte := Serial.shiftIn s.rxByte s.rxBitCount b
      rxBitCount := s.rxBitCount + 1 }
  | stop : s.rxStart = true → s.rxBitCount = 8 → RxOutcome s true { s.storeByte with rxStart := false }
  | broken : s.rxStart = true → s.rxBitCount = 8 → RxOutcome s false { s with rxStart := false }
  | lost (b : Bool) : s.rxStart = true → 8 < s.rxBitCount → RxOutcome s b s

theorem rxTimerCb_disabled {level : Option Bool} (h : s.rxEnable = 0) : rxTimerCb level s = s :=
  if_pos h

theorem rxTimerCb_none : rxTimerCb none s = s := ite_self _

theorem rxTimerCb_quiet (h : s.rxEnable ≠ 0) (hstart : s.rxStart = false) :
    rxTimerCb (some true) s = s := by
  rw [rxTimerCb, if_neg h]
  exact if_pos hstart

theorem rxTimerCb_start (h : s.rxEnable ≠ 0) (hstart : s.rxStart = false) :
    rxTimerCb (some false) s = { s with rxStart := true, rxBitCount := 0, rxByte := 0 } := by
  rw [rxTimerCb, if_neg h]
  exact if_pos hstart

theorem rxTimerCb_bit (bit : Bool) (h : s.rxEnable ≠ 0) (hstart : s.rxStart = true)
    (hcount : s.rxBitCount < 8) :
    rxTimerCb (some bit) s = { s with
      rxByte := Serial.shiftIn s.rxByte s.rxBitCount bit
      rxBitCount := s.rxBitCount + 1 } := by
  rw [rxTimerCb, if_neg h]
  simp only
  rw [if_neg (by rw [hstart]; decide)]
  exact if_pos hcount

/-- The bit behind the data bits. -/
theorem rxTimerCb_stop (bit : Bool) (h : s.rxEnable ≠ 0) (hstart : s.rxStart = true)
    (hcount : s.rxBitCount = 8) :
    rxTimerCb (some bit) s =
      if bit = true then { s.storeByte with rxStart := false } else { s with rxStart := false } := by
  rw [rxTimerCb, if_neg h]
  simp only
  rw [if_neg (by rw [hstart]; decide), if_neg (by rw [hcount]; decide)]
  exact if_pos hcount

theorem rxTimerCb_lost (bit : Bool) (h : s.rxEnable ≠ 0) (hstart : s.rxStart = true)
    (hcount : 8 < s.rxBitCount) :
    rxTimerCb (some bit) s = s := by
  have hlt : ¬ s.rxBitCount < dataBits := Nat.not_lt_of_gt hcount
  rw [rxTimerCb, if_neg h]
  simp only
  rw [if_neg (by rw [hstart]; decide), if_neg hlt]
  exact if_neg (Nat.ne_of_gt hcount)

theorem rxTimerCb_outcome (h : s.rxEnable ≠ 0) (bit : Bool) :
    RxOutcome s bit (rxTimerCb (some bit) s) := by
  cases hstart : s.rxStart with
  | false =>
    cases bit with
    | false => exact rxTimerCb_start h hstart ▸ .start hstart
    | true => exact (rxTimerCb_quiet h hstart).symm ▸ .quiet hstart
  | true =>
    obtain hlt | hend | hgt := Nat.lt_trichotomy s.rxBitCount 8
    · exact rxTimerCb_bit bit h hstart hlt ▸ .bit bit hstart hlt
    · rw [rxTimerCb_stop bit h hstart hend]
      cases bit with
      | false => exact .broken hstart hend
      | true => exact .stop hstart hend
    · exact (rxTimerCb_lost bit h hstart hgt).symm ▸ .lost bit hstart hgt

/-- Storing a byte reaches only the buffer and its index. -/
theorem SimCtrl.storeByte_eq (s : SimCtrl) : s.storeByte = { s with
    rxBuffer := if s.rxBufferIndex < simUartBufferSize then
      poke s.rxBuffer s.rxBufferIndex s.rxByte else s.rxBuffer
    rxBufferIndex := if s.rxBufferIndex < simUartBufferSize then
      s.rxBufferIndex + 1 else s.rxBufferIndex } := by
  unfold SimCtrl.storeByte
  split <;> rfl

/-- A stored byte comes behind the unread ones. -/
theorem SimCtrl.storeByte_unread (h : s.rxBufferIndex < simUartBufferSize) :
    s.storeByte.unread = s.unread ++ [s.rxByte] := by
  have hold : cells (poke s.rxBuffer s.rxBufferIndex s.rxByte) 0 s.rxBufferIndex = s.unread :=
    Ring.cells_congr fun i _ hi => Ring.poke_of_ne (Nat.ne_of_lt hi)
  rw [SimCtrl.storeByte, if_pos h]
  refine (Ring.cells_succ _ s.rxBufferIndex).trans ?_
  rw [hold]
  exact congrArg (s.unread ++ [·]) (Ring.poke_self ..)

/-- The transmitter is the same in both states. -/
structure SameTx (s t : SimCtrl) : Prop where
  txBuf : t.txBuf = s.txBuf
  txIndex : t.txIndex = s.txIndex
  txBitPos : t.txBitPos = s.txBitPos
  txLength : t.txLength = s.txLength
  txBusy : t.txBusy = s.txBusy
  txEnable : t.txEnable = s.txEnable
  line : t.line = s.line

theorem rxTimerCb_sameTx (s : SimCtrl) (level : Option Bool) : SameTx s (rxTimerCb level s) := by
  by_cases hen : s.rxEnable = 0
  · rw [rxTimerCb_disabled hen]
    exact ⟨rfl, rfl, rfl, rfl, rfl, rfl, rfl⟩
  cases level with
  | none =>
    rw [rxTimerCb_none]
    exact ⟨rfl, rfl, rfl, rfl, rfl, rfl, rfl⟩
  | some bit =>
    have hout := rxTimerCb_outcome hen bit
    generalize rxTimerCb (some bit) s = t at hout
    cases hout with
    | stop =>
      rw [SimCtrl.storeByte_eq]
      exact ⟨rfl, rfl, rfl, rfl, rfl, rfl, rfl⟩
    | _ => exact ⟨rfl, rfl, rfl, rfl, rfl, rfl, rfl⟩

end

end AppXd.SimUart
