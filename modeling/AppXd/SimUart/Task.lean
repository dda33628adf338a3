import AppXd.Lib.Trace
import AppXd.SimUart.Uart

/-!
# Calls that are interrupted

A timer may fire between any two statements of a call. `Pc` says before which statement of which call
the task stands; `exec` executes that statement. Run without ticks, the statements of a call compute
the function.
-/

namespace AppXd.SimUart

open Ring (cells poke blit)

inductive Call
  | send (data : Option (List UInt8))
  | receive (maxLength : Nat)
  | enableRx (enable : UInt8)
  | abortTx

/-- What a call returns. -/
inductive CallRet
  | sent (status : SimUartStatus)
  | received (buffer : List UInt8)
  | done
  deriving DecidableEq

/-- The next statement, with the local variables that are still needed. -/
inductive Pc
  | idle
  | sendTestBusy (data : Option (List UInt8))
  | sendTestParam (data : Option (List UInt8))
  | sendCopy (data : List UInt8) (i : Nat)
  | sendLength (data : List UInt8)
  | sendIndex (data : List UInt8)
  | sendBitPos (data : List UInt8)
  | sendBusy (data : List UInt8)
  | sendEnable (data : List UInt8)
  | sendReturn
  | recvTest (maxLength : Nat)
  | recvLength (maxLength : Nat)
  | recvCopy (copiedLength : Nat) (buffer : List UInt8)
  | recvReset (buffer : List UInt8)
  | recvReturn (buffer : List UInt8)
  | enableRx (enable : UInt8)
  | abortEnable
  | abortBusy
  | abortLevel
  deriving DecidableEq

/-- The first statement of a call. -/
def Call.entry : Call → Pc
  | send data => .sendTestBusy data
  | receive maxLength => .recvTest maxLength
  | enableRx enable => .enableRx enable
  | abortTx => .abortEnable

/-- The simulated UART and the task that calls its functions. -/
structure Task where
  uart : SimCtrl
  pc : Pc

/-- The next statement of the call, and what the call returns if that ends it. -/
def Task.exec (t : Task) : Task × Option CallRet :=
  let s := t.uart
  match t.pc with
  | .idle => (t, none)
  | .sendTestBusy data =>
    if s.txBusy then (⟨s, .idle⟩, some (.sent .busy)) else (⟨s, .sendTestParam data⟩, none)
  | .sendTestParam none => (⟨s, .idle⟩, some (.sent .invalidParam))
  | .sendTestParam (some data) =>
    if data.length = 0 ∨ simUartBufferSize < data.length then
      (⟨s, .idle⟩, some (.sent .invalidParam))
    else (⟨s, .sendCopy data 0⟩, none)
  | .sendCopy data i =>
    match data[i]? with
    | some b => (⟨{ s with txBuf := poke s.txBuf i b }, .sendCopy data (i + 1)⟩, none)
    | none => (⟨s, .sendLength data⟩, none)
  | .sendLength data => (⟨{ s with txLength := data.length }, .sendIndex data⟩, none)
  | .sendIndex data => (⟨{ s with txIndex := 0 }, .sendBitPos data⟩, none)
  | .sendBitPos data => (⟨{ s with txBitPos := 0 }, .sendBusy data⟩, none)
  | .sendBusy data => (⟨{ s with txBusy := true }, .sendEnable data⟩, none)
  | .sendEnable _ => (⟨{ s with txEnable := true }, .sendReturn⟩, none)
  | .sendReturn => (⟨s, .idle⟩, some (.sent .ok))
  | .recvTest maxLength =>
    if s.rxEnable = 0 then (⟨s, .idle⟩, some (.received [])) else (⟨s, .recvLength maxLength⟩, none)
  | .recvLength maxLength =>
    let copiedLength := if s.rxBufferIndex < maxLength then s.rxBufferIndex else maxLength
    (⟨s, .recvCopy copiedLength []⟩, none)
  | .recvCopy copiedLength buffer =>
    if buffer.length < copiedLength then
      (⟨s, .recvCopy copiedLength (buffer ++ [s.rxBuffer buffer.length])⟩, none)
    else (⟨s, .recvReset buffer⟩, none)
  | .recvReset buffer => (⟨{ s with rxBufferIndex := 0 }, .recvReturn buffer⟩, none)
  | .recvReturn buffer => (⟨s, .idle⟩, some (.received buffer))
  | .enableRx enable => (⟨{ s with rxEnable := enable }, .idle⟩, some .done)
  | .abortEnable => (⟨{ s with txEnable := false }, .abortBusy⟩, none)
  | .abortBusy => (⟨{ s with txBusy := false }, .abortLevel⟩, none)
  | .abortLevel => (⟨{ s with line := true }, .idle⟩, some .done)

/-- What happens in a run. A tick of the receiver has the level of the pin, if it can be read. -/
inductive Event
  | call (c : Call)
  | exec
  | txTick
  | rxTick (level : Option Bool)

def Task.step (t : Task) : Event → Option (Task × Option CallRet)
  | .call c => if t.pc = .idle then some (⟨t.uart, c.entry⟩, none) else none
  | .exec => if t.pc = .idle then none else some t.exec
  | .txTick => some (⟨txTimerCb t.uart, t.pc⟩, none)
  | .rxTick level => some (⟨rxTimerCb level t.uart, t.pc⟩, none)

/-- The task after `sim_uart_init`. -/
def Task.reset : Task := ⟨.reset, .idle⟩

/-! ## Without ticks -/

/-- Executed one after the other, the statements from here on return `ret` and leave `s`. -/
inductive Completes : Task → CallRet → SimCtrl → Prop
  | ret {t : Task} {s : SimCtrl} {ret : CallRet} : t.exec = (⟨s, .idle⟩, some ret) →
    Completes t ret s
  | next {t t' : Task} {s : SimCtrl} {ret : CallRet} : t.exec = (t', none) → Completes t' ret s →
    Completes t ret s

section
variable {s : SimCtrl}

/-- The loop of a send fills the buffer. -/
theorem completes_sendCopy {data : List UInt8} {i : Nat} {ret : CallRet} {t : SimCtrl}
    (hi : i ≤ data.length)
    (h : Completes ⟨{ s with txBuf := blit s.txBuf i (data.drop i) }, .sendLength data⟩ ret t) :
    Completes ⟨s, .sendCopy data i⟩ ret t := by
  induction hn : data.length - i generalizing s i with
  | zero =>
    have hend : data.length ≤ i := by omega
    have hexec : (Task.exec ⟨s, .sendCopy data i⟩) = (⟨s, .sendLength data⟩, none) := by
      unfold Task.exec
      simp only [List.getElem?_eq_none hend]
    rw [List.drop_of_length_le hend, Ring.blit_nil] at h
    exact .next hexec h
  | succ n ih =>
    have hlt : i < data.length := by omega
    have hexec : (Task.exec ⟨s, .sendCopy data i⟩) =
        (⟨{ s with txBuf := poke s.txBuf i data[i] }, .sendCopy data (i + 1)⟩, none) := by
      unfold Task.exec
      simp only [List.getElem?_eq_getElem hlt]
    rw [List.drop_eq_getElem_cons hlt, Ring.blit_cons] at h
    exact .next hexec (ih (s := { s with txBuf := poke s.txBuf i data[i] }) hlt h (by omega))

/-- `sim_uart_send`. -/
theorem completes_send (s : SimCtrl) (data : Option (List UInt8)) :
    Completes ⟨s, Call.entry (.send data)⟩ (.sent (simUartSend data s).1) (simUartSend data s).2 := by
  unfold simUartSend
  by_cases hbusy : s.txBusy = true
  · rw [if_pos hbusy]
    exact .ret (if_pos hbusy)
  rw [if_neg hbusy]
  refine .next (if_neg hbusy) ?_
  cases data with
  | none => exact .ret rfl
  | some data =>
    simp only
    by_cases hlen : data.length = 0 ∨ simUartBufferSize < data.length
    · rw [if_pos hlen]
      exact .ret (if_pos hlen)
    · rw [if_neg hlen]
      refine .next (if_neg hlen) (completes_sendCopy (Nat.zero_le _) ?_)
      exact .next rfl (.next rfl (.next rfl (.next rfl (.next rfl (.ret rfl)))))

/-- The loop of a receive fills the caller's buffer. -/
theorem completes_recvCopy {n : Nat} {buffer : List UInt8} {ret : CallRet} {t : SimCtrl}
    (hbuf : buffer = cells s.rxBuffer 0 buffer.length) (hn : buffer.length ≤ n)
    (h : Completes ⟨s, .recvReset (cells s.rxBuffer 0 n)⟩ ret t) :
    Completes ⟨s, .recvCopy n buffer⟩ ret t := by
  induction hk : n - buffer.length generalizing buffer with
  | zero =>
    obtain rfl : n = buffer.length := by omega
    rw [← hbuf] at h
    exact .next (if_neg (Nat.lt_irrefl _)) h
  | succ k ih =>
    have hlt : buffer.length < n := by omega
    have hlen : (buffer ++ [s.rxBuffer buffer.length]).length = buffer.length + 1 :=
      List.length_append
    have hexec : (Task.exec ⟨s, .recvCopy n buffer⟩) =
        (⟨s, .recvCopy n (buffer ++ [s.rxBuffer buffer.length])⟩, none) := if_pos hlt
    refine .next hexec (ih ?_ (by omega) (by omega))
    rw [hlen, Ring.cells_succ, ← hbuf]

/-- `sim_uart_receive`. -/
theorem completes_receive (s : SimCtrl) (maxLength : Nat) :
    Completes ⟨s, Call.entry (.receive maxLength)⟩ (.received (simUartReceive maxLength s).1)
      (simUartReceive maxLength s).2 := by
  unfold simUartReceive
  by_cases hen : s.rxEnable = 0
  · rw [if_pos hen]
    exact .ret (if_pos hen)
  · rw [if_neg hen]
    refine .next (if_neg hen) (.next rfl (completes_recvCopy (Ring.cells_self ..).symm
      (Nat.zero_le _) ?_))
    exact .next rfl (.ret rfl)

/-- `sim_uart_enable_rx`. -/
theorem completes_enableRx (s : SimCtrl) (enable : UInt8) :
    Completes ⟨s, Call.entry (.enableRx enable)⟩ .done (simUartEnableRx enable s) := .ret rfl

/-- `sim_uart_abort_tx`. -/
theorem completes_abortTx (s : SimCtrl) :
    Completes ⟨s, Call.entry .abortTx⟩ .done (simUartAbortTx s) :=
  .next rfl (.next rfl (.ret rfl))

end

end AppXd.SimUart
