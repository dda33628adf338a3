import AppXd.SimUart.Uart
import Mathlib.Logic.Function.Iterate

/-!
# Loopback

With the transmit pin connected to the receive pin, a level is sampled right after every tick of the
transmitter. A frame takes ten ticks, and the idle tick behind it leaves the line high, so that the
receiver waits for the next start bit.
-/

namespace AppXd.SimUart

open Ring (cells)
open Serial (Holds)

/-- A tick of the transmitter, and one of the receiver with the level on the line. -/
def loopTick (s : SimCtrl) : SimCtrl :=
  let s := txTimerCb s
  rxTimerCb (some s.line) s

/-- Before the first tick of the frame of `b`. The receiver waits for a start bit. -/
structure FrameStart (s : SimCtrl) (b : UInt8) : Prop where
  txEnable : s.txEnable = true
  txBitPos : s.txBitPos = 0
  txBuf : s.txBuf s.txIndex = b
  rxEnable : s.rxEnable ≠ 0
  rxStart : s.rxStart = false

/-- `k` data bits after the start bit of a frame that began in the state `s`. -/
def inFrame (s : SimCtrl) (k : Nat) (acc : UInt8) (line : Bool) : SimCtrl :=
  { s with
    txBitPos := k + 1
    rxStart := true
    rxBitCount := k
    rxByte := acc
    line := line }

/-- A frame that has been received: its byte is stored. -/
def afterFrame (s : SimCtrl) (b : UInt8) : SimCtrl :=
  { ({ s with rxByte := b }.storeByte) with
    txBitPos := 10
    rxBitCount := 8
    rxStart := false
    line := true }

section
variable {s : SimCtrl} {b : UInt8}

/-- The start bit. -/
theorem loopTick_start (h : FrameStart s b) : loopTick s = inFrame s 0 0 false := by
  have hlevel : s.txLevel = false := by
    rw [SimCtrl.txLevel, h.txBitPos]
    rfl
  have htx := txTimerCb_frame h.txEnable (by rw [h.txBitPos]; decide)
  rw [hlevel, h.txBitPos] at htx
  have hrx := rxTimerCb_start (s := { s with line := false, txBitPos := 0 + 1 }) h.rxEnable h.rxStart
  unfold loopTick
  simp only [htx, hrx]
  rfl

/-- A data bit. -/
theorem loopTick_bit (h : FrameStart s b) {k : Nat} (hk : k < 8) (acc : UInt8) (line : Bool) :
    loopTick (inFrame s k acc line) =
      inFrame s (k + 1) (Serial.shiftIn acc k (b.toBitVec.getLsbD k)) (b.toBitVec.getLsbD k) := by
  have hlevel : (inFrame s k acc line).txLevel = b.toBitVec.getLsbD k := by
    have hget := txLevel_frame (s := inFrame s k acc line) h.txBuf (show k + 1 < 10 by omega)
    have hframe : (Serial.frame b)[k + 1]? = some (b.toBitVec.getLsbD k) := by
      rw [Serial.frame, List.getElem?_cons_succ,
        List.getElem?_append_left (by rw [Serial.length_bits]; exact hk), Serial.bits_getElem? hk]
    exact Option.some.inj (hget.symm.trans hframe)
  have htx := txTimerCb_frame (s := inFrame s k acc line) h.txEnable (show k + 1 < 10 by omega)
  rw [hlevel] at htx
  have hrx := rxTimerCb_bit (b.toBitVec.getLsbD k)
    (s := { inFrame s k acc line with line := b.toBitVec.getLsbD k, txBitPos := k + 1 + 1 })
    h.rxEnable rfl hk
  unfold loopTick
  simp only [htx]
  exact hrx

/-- The stop bit. -/
theorem loopTick_stop (h : FrameStart s b) (line : Bool) :
    loopTick (inFrame s 8 b line) = afterFrame s b := by
  have hlevel : (inFrame s 8 b line).txLevel = true := rfl
  have htx := txTimerCb_frame (s := inFrame s 8 b line) h.txEnable (by decide : 8 + 1 < 10)
  rw [hlevel] at htx
  have hrx := rxTimerCb_stop true
    (s := { inFrame s 8 b line with line := true, txBitPos := 8 + 1 + 1 }) h.rxEnable rfl rfl
  unfold loopTick
  simp only [htx]
  refine hrx.trans ((if_pos rfl).trans ?_)
  rw [afterFrame, SimCtrl.storeByte_eq, SimCtrl.storeByte_eq]
  rfl

/-- The ticks of the data bits. -/
theorem loopTick_bits (h : FrameStart s b) {k : Nat} (hk : k ≤ 8) : ∃ acc line,
    loopTick^[k + 1] s = inFrame s k acc line ∧ Holds acc ((Serial.bits b).take k) := by
  induction k with
  | zero => exact ⟨0, false, loopTick_start h, .zero⟩
  | succ k ih =>
    obtain ⟨acc, line, hs, hacc⟩ := ih (by omega)
    have hlen : ((Serial.bits b).take k).length = k :=
      List.length_take_of_le (by rw [Serial.length_bits]; omega)
    have hbit := hacc.shiftIn (b.toBitVec.getLsbD k) (by rw [hlen]; omega)
    rw [hlen] at hbit
    refine ⟨Serial.shiftIn acc k (b.toBitVec.getLsbD k), b.toBitVec.getLsbD k, ?_, ?_⟩
    · rw [Function.iterate_succ_apply', hs]
      exact loopTick_bit h hk acc line
    · rw [List.take_add_one, Serial.bits_getElem? hk]
      exact hbit

/-- The ten ticks of a frame. -/
theorem loopTick_frame (h : FrameStart s b) :
    loopTick^[10] s = afterFrame s b := by
  obtain ⟨acc, line, hs, hacc⟩ := loopTick_bits h (Nat.le_refl 8)
  rw [List.take_of_length_le (by rw [Serial.length_bits])] at hacc
  obtain rfl := Serial.eq_of_bits (hacc.bits_eq (Serial.length_bits b))
  rw [Function.iterate_succ_apply', hs]
  exact loopTick_stop h line

/-! ## A message -/

theorem afterFrame_unread (hroom : s.rxBufferIndex < simUartBufferSize) :
    (afterFrame s b).unread = s.unread ++ [b] ∧
      (afterFrame s b).rxBufferIndex = s.rxBufferIndex + 1 := by
  have hunread := SimCtrl.storeByte_unread (s := { s with rxByte := b }) hroom
  refine ⟨hunread, ?_⟩
  show SimCtrl.rxBufferIndex (SimCtrl.storeByte _) = _
  rw [SimCtrl.storeByte, if_pos hroom]

/-- What a frame leaves alone. -/
theorem afterFrame_tx (s : SimCtrl) (b : UInt8) :
    (afterFrame s b).txBuf = s.txBuf ∧ (afterFrame s b).txIndex = s.txIndex ∧
      (afterFrame s b).txLength = s.txLength ∧ (afterFrame s b).txBusy = s.txBusy ∧
      (afterFrame s b).txEnable = s.txEnable ∧ (afterFrame s b).rxEnable = s.rxEnable := by
  rw [afterFrame, SimCtrl.storeByte_eq]
  exact ⟨rfl, rfl, rfl, rfl, rfl, rfl⟩

/-- The idle tick: the receiver sees the high level. -/
theorem loopTick_idle (hbusy : s.rxEnable ≠ 0) (hidle : s.rxStart = false) {t : SimCtrl}
    (ht : txTimerCb s = t) (hline : t.line = true) (hrx : t.rxEnable = s.rxEnable)
    (hstart : t.rxStart = s.rxStart) : loopTick s = t := by
  unfold loopTick
  simp only [ht, hline]
  exact rxTimerCb_quiet (hrx ▸ hbusy) (hstart.trans hidle)

/-- The bytes from `txIndex` on are sent and received. -/
theorem loopTick_message {msg : List UInt8} (hne : msg ≠ []) (hbuf : cells s.txBuf s.txIndex s.txLength = msg)
    (hlen : s.txLength < 65536) (hen : s.txEnable = true) (hbusy : s.txBusy = true)
    (hpos : s.txBitPos = 0) (hrx : s.rxEnable ≠ 0) (hidle : s.rxStart = false)
    (hroom : s.rxBufferIndex + msg.length ≤ simUartBufferSize) :
    ∃ u, loopTick^[11 * msg.length - 1] s = u ∧ u.txBusy = true ∧
      (loopTick u).txBusy = false ∧ (loopTick u).rxStart = false ∧
      (loopTick u).unread = s.unread ++ msg := by
  induction msg generalizing s with
  | nil => exact absurd rfl hne
  | cons b msg ih =>
    have hlt : s.txIndex < s.txLength := by
      have hcells := congrArg List.length hbuf
      rw [Ring.length_cells, List.length_cons] at hcells
      omega
    have hsplit := Ring.cells_append s.txBuf (Nat.le_succ s.txIndex) hlt
    have hone : cells s.txBuf s.txIndex (s.txIndex + 1) = [s.txBuf s.txIndex] := by
      rw [cells, Nat.add_sub_cancel_left]
      rfl
    rw [hbuf, hone, List.singleton_append] at hsplit
    obtain ⟨hb, hrest⟩ := List.cons.inj hsplit
    rw [List.length_cons] at hroom ⊢
    have hframe := loopTick_frame ⟨hen, hpos, hb, hrx, hidle⟩
    obtain ⟨hunread, hindex⟩ := afterFrame_unread (b := b) (s := s) (by omega)
    obtain ⟨hbuf', hidx', hlen', hbusy', hen', hrx'⟩ := afterFrame_tx s b
    have hpos' : (afterFrame s b).txBitPos = 10 := rfl
    cases msg with
    | nil =>
      have hend : s.txLength ≤ s.txIndex + 1 := by
        have hcells := congrArg List.length hrest
        rw [Ring.length_cells, List.length_nil] at hcells
        omega
      have hidleTick := loopTick_idle (s := afterFrame s b) (by rwa [hrx']) rfl
        (txTimerCb_last (by rw [hen', hen]) hpos' (by omega) (by omega)) rfl rfl rfl
      refine ⟨_, hframe, by rw [hbusy', hbusy], ?_, ?_, ?_⟩
      · rw [hidleTick]
      · rw [hidleTick]
        rfl
      · rw [hidleTick]
        exact hunread
    | cons b' msg =>
      have hmore : s.txIndex + 1 < s.txLength := by
        have hcells := congrArg List.length hrest
        rw [Ring.length_cells, List.length_cons] at hcells
        omega
      have hidleTick := loopTick_idle (s := afterFrame s b) (by rwa [hrx']) rfl
        (txTimerCb_next (by rw [hen', hen]) hpos' (by omega) (by omega)) rfl rfl rfl
      have hnext : loopTick^[11] s = { afterFrame s b with
          txBitPos := 0
          txIndex := (afterFrame s b).txIndex + 1 } := by
        rw [Function.iterate_succ_apply', hframe, hidleTick]
      obtain ⟨u, hu, hbusyU, hend, hstart, hall⟩ := ih (s := { afterFrame s b with
          txBitPos := 0
          txIndex := (afterFrame s b).txIndex + 1 }) (List.cons_ne_nil b' msg)
        (by rw [hbuf', hidx', hlen']; exact hrest) (by rw [hlen']; exact hlen)
        (hen'.trans hen) (hbusy'.trans hbusy) rfl (by rwa [hrx']) rfl
        (by rw [hindex]; omega)
      refine ⟨u, ?_, hbusyU, hend, hstart, ?_⟩
      · rw [show 11 * ((b' :: msg).length + 1) - 1 = 11 * (b' :: msg).length - 1 + 11 by
          rw [List.length_cons]; omega, Function.iterate_add_apply, hnext]
        exact hu
      · have hbytes : (afterFrame s b).unread ++ b' :: msg = s.unread ++ [b] ++ b' :: msg :=
          congrArg (· ++ b' :: msg) hunread
        rw [List.append_assoc] at hbytes
        exact hall.trans hbytes

/-- The transmitter is enabled while it is busy, and once it is not it stays so. -/
theorem loopTick_busy (h : s.txBusy = s.txEnable) :
    (loopTick s).txBusy = (loopTick s).txEnable ∧ (s.txBusy = false → (loopTick s).txBusy = false) := by
  have hrx := rxTimerCb_sameTx (txTimerCb s) (some (txTimerCb s).line)
  unfold loopTick
  simp only
  rw [hrx.txBusy, hrx.txEnable]
  unfold txTimerCb
  split
  · rename_i hen
    refine ⟨?_, fun hbusy => absurd (hen.symm.trans (h.symm.trans hbusy)) (by decide)⟩
    split
    · exact h
    · simp only
      split
      · rfl
      · exact h
  · exact ⟨h, id⟩

theorem loopTick_busy_of_le {m n : Nat} (h : s.txBusy = s.txEnable) (hmn : m ≤ n)
    (hn : (loopTick^[n] s).txBusy = true) : (loopTick^[m] s).txBusy = true := by
  have hstep : ∀ k, (loopTick^[k] s).txBusy = (loopTick^[k] s).txEnable := fun k => by
    induction k with
    | zero => exact h
    | succ k ih =>
      rw [Function.iterate_succ_apply']
      exact (loopTick_busy ih).1
  induction n, hmn using Nat.le_induction with
  | base => exact hn
  | succ k _ ih =>
    refine ih (Bool.of_not_eq_false fun hk => ?_)
    rw [Function.iterate_succ_apply', (loopTick_busy (hstep k)).2 hk] at hn
    cases hn

end

/-- What an accepted send puts on the line is received: at the tick at which `tx_busy` returns to 0
the receiver waits for the next start bit, and the bytes stand in the buffer. -/
theorem loopback {s s₁ : SimCtrl} {data : List UInt8}
    (hsend : simUartSend (some data) s = (.ok, s₁)) (hrx : s.rxEnable ≠ 0) (hidle : s.rxStart = false)
    (hroom : s.rxBufferIndex + data.length ≤ simUartBufferSize) :
    ∃ n, (∀ k < n, (loopTick^[k] s₁).txBusy = true) ∧ (loopTick^[n] s₁).txBusy = false ∧
      (loopTick^[n] s₁).rxStart = false ∧ (loopTick^[n] s₁).unread = s.unread ++ data := by
  unfold simUartSend at hsend
  split at hsend
  · cases hsend
  simp only at hsend
  split at hsend
  · cases hsend
  rename_i hlen
  obtain ⟨hpos, hmax⟩ := not_or.1 hlen
  have hne : data ≠ [] := fun h => hpos (List.length_eq_zero_iff.2 h)
  obtain ⟨-, rfl⟩ := Prod.mk.inj hsend
  have hbuf : cells (Ring.blit s.txBuf 0 data) 0 data.length = data := by
    have hcells := Ring.cells_blit s.txBuf 0 data
    rwa [Nat.zero_add] at hcells
  have hmax' : data.length < 65536 := by
    unfold simUartBufferSize at hmax
    omega
  obtain ⟨u, hu, hbusy, hend, hstart, hall⟩ := loopTick_message (s := { s with
      txBuf := Ring.blit s.txBuf 0 data
      txLength := data.length
      txIndex := 0
      txBitPos := 0
      txBusy := true
      txEnable := true }) hne hbuf hmax' rfl rfl rfl hrx hidle hroom
  have hlast : 11 * data.length = 11 * data.length - 1 + 1 := by omega
  refine ⟨11 * data.length, fun k hk => ?_, ?_, ?_, ?_⟩
  · exact loopTick_busy_of_le (n := 11 * data.length - 1) rfl (by omega) (by rw [hu]; exact hbusy)
  · rw [hlast, Function.iterate_succ_apply', hu]
    exact hend
  · rw [hlast, Function.iterate_succ_apply', hu]
    exact hstart
  · rw [hlast, Function.iterate_succ_apply', hu]
    exact hall

/-- Two bytes after a reset. -/
theorem loopback_reset : ∃ n,
    (∀ k < n, (loopTick^[k] (simUartSend (some [65, 66]) .reset).2).txBusy = true) ∧
      (loopTick^[n] (simUartSend (some [65, 66]) .reset).2).txBusy = false ∧
      (loopTick^[n] (simUartSend (some [65, 66]) .reset).2).rxStart = false ∧
      (loopTick^[n] (simUartSend (some [65, 66]) .reset).2).unread = SimCtrl.reset.unread ++ [65, 66] :=
  loopback rfl (by decide) rfl (by decide)

end AppXd.SimUart
