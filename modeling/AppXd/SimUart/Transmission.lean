import AppXd.SimUart.Task

/-!
# Transmission

The log keeps the message of the last accepted send until an abort, and the level of the line after
each tick since then. `Pc.Sound` says what the transmitter looks like before each statement of a
call; a tick that falls between two statements keeps it, because the transmitter is off until the
last statement of a send and behind the first one of an abort.
-/

namespace AppXd.SimUart

open Serial (wave frame)
open Trace (Run PFun)

structure TxLog where
  task : Task
  sent : Option (List UInt8)
  levels : List Bool

namespace TxLog

def next (s : TxLog) (e : Event) (t : Task) : TxLog :=
  match e with
  | .txTick => ⟨t, s.sent, s.levels ++ [t.uart.line]⟩
  | .exec =>
    match s.task.pc with
    | .sendEnable data => ⟨t, some data, []⟩
    | .abortEnable => ⟨t, none, []⟩
    | _ => ⟨t, s.sent, s.levels⟩
  | _ => ⟨t, s.sent, s.levels⟩

def step (s : TxLog) (e : Event) : Option TxLog := (s.task.step e).map fun (t, _) => s.next e t

/-- Before anything has happened. -/
def start (t : Task) : TxLog := ⟨t, none, []⟩

end TxLog

def TxStep : TxLog → Event → TxLog → Prop := PFun TxLog.step

/-- What the interface promises of the transmitter. -/
structure TxLaw (s : TxLog) : Prop where
  /-- A data bit is one of the message. -/
  inside : s.task.uart.txEnable = true → 1 ≤ s.task.uart.txBitPos → s.task.uart.txBitPos < 9 →
    s.task.uart.txIndex < s.task.uart.txLength
  /-- The first statement of a send that returns `SIM_UART_BUSY` is its last, and it writes nothing. -/
  busy : ∀ e t, s.task.step e = some (t, some (.sent .busy)) →
    e = .exec ∧ (∃ data, s.task.pc = Call.entry (.send data)) ∧ t.uart = s.task.uart
  /-- The levels are the frames of the message, each with an idle tick, and then the idle level. -/
  wave : ∀ data, s.sent = some data → ∃ k, s.levels <+: wave data ++ List.replicate k true
  idle : s.task.pc = .idle → s.task.uart.txEnable = false →
    s.task.uart.txBusy = false ∧ s.task.uart.line = true

/-! ## The transmitter between two statements -/

/-- The transmitter is off. -/
structure Off (s : SimCtrl) : Prop where
  txEnable : s.txEnable = false
  txBusy : s.txBusy = false
  line : s.line = true

/-- The message is in the buffer. -/
structure Loaded (s : SimCtrl) (data : List UInt8) : Prop where
  size : 0 < data.length ∧ data.length ≤ simUartBufferSize
  txBuf : ∀ i b, data[i]? = some b → s.txBuf i = b

/-- The transmitter before a statement. -/
def Pc.Sound (s : SimCtrl) : Pc → Prop
  | sendTestParam _ => Off s
  | sendCopy data i => Off s ∧ (0 < data.length ∧ data.length ≤ simUartBufferSize) ∧
    ∀ j < i, ∀ b, data[j]? = some b → s.txBuf j = b
  | sendLength data => Off s ∧ Loaded s data
  | sendIndex data => Off s ∧ Loaded s data ∧ s.txLength = data.length
  | sendBitPos data => Off s ∧ Loaded s data ∧ s.txLength = data.length ∧ s.txIndex = 0
  | sendBusy data => Off s ∧ Loaded s data ∧ s.txLength = data.length ∧ s.txIndex = 0 ∧ s.txBitPos = 0
  | sendEnable data => s.txEnable = false ∧ s.txBusy = true ∧ Loaded s data ∧
    s.txLength = data.length ∧ s.txIndex = 0 ∧ s.txBitPos = 0
  | abortBusy => s.txEnable = false
  | abortLevel => s.txEnable = false ∧ s.txBusy = false
  | _ => s.txEnable = false → Off s

/-- A message is being sent. -/
structure Sending (s : SimCtrl) (data : List UInt8) (levels : List Bool) : Prop where
  txEnable : s.txEnable = true
  loaded : Loaded s data
  txLength : s.txLength = data.length
  txIndex : s.txIndex < data.length
  txBitPos : s.txBitPos ≤ 10
  line : s.txBitPos = 10 → s.line = true
  levels : levels = (wave data).take (11 * s.txIndex + s.txBitPos)

/-- A message has been sent. -/
structure Sent (s : SimCtrl) (data : List UInt8) (levels : List Bool) : Prop where
  txEnable : s.txEnable = false
  line : s.line = true
  levels : ∃ k, levels = wave data ++ List.replicate k true

/-- The message of the log against the transmitter. -/
def Phase (s : SimCtrl) (levels : List Bool) : Option (List UInt8) → Prop
  | none => s.txEnable = false
  | some data => Sending s data levels ∨ Sent s data levels

/-- The invariant of a run. -/
structure TxInv (s : TxLog) : Prop where
  busy : s.task.uart.txEnable = true → s.task.uart.txBusy = true
  sound : s.task.pc.Sound s.task.uart
  phase : Phase s.task.uart s.levels s.sent

/-! ## Ticks -/

section
variable {s : SimCtrl} {data : List UInt8} {levels : List Bool}

/-- Inside a frame. -/
theorem Sending.tick_frame (h : Sending s data levels) (hpos : s.txBitPos < 10) :
    Sending (txTimerCb s) data (levels ++ [(txTimerCb s).line]) := by
  have hindex := h.txIndex
  have hbyte : data[s.txIndex]? = some data[s.txIndex] := List.getElem?_eq_getElem hindex
  have hlevel := txLevel_frame (h.loaded.txBuf _ _ hbyte) hpos
  rw [txTimerCb_frame h.txEnable hpos]
  refine ⟨h.txEnable, ⟨h.loaded.size, h.loaded.txBuf⟩, h.txLength, h.txIndex, hpos, ?_, ?_⟩
  · intro hend
    have hpos9 : s.txBitPos = 9 := Nat.succ.inj hend
    show s.txLevel = true
    rw [SimCtrl.txLevel, hpos9]
    rfl
  · show levels ++ [s.txLevel] = (wave data).take (11 * s.txIndex + (s.txBitPos + 1))
    rw [← Nat.add_assoc, List.take_add_one, Serial.wave_getElem? hbyte (by omega),
      List.getElem?_append_left (by rw [Serial.length_frame]; exact hpos), hlevel, ← h.levels]
    rfl

/-- The levels with the idle one behind a frame. -/
theorem Sending.levels_idle (h : Sending s data levels) (hpos : s.txBitPos = 10) :
    levels ++ [s.line] = (wave data).take (11 * (s.txIndex + 1)) := by
  have hindex := h.txIndex
  have hbyte : data[s.txIndex]? = some data[s.txIndex] := List.getElem?_eq_getElem hindex
  rw [show 11 * (s.txIndex + 1) = 11 * s.txIndex + 10 + 1 by omega, List.take_add_one,
    Serial.wave_getElem? hbyte (by omega),
    List.getElem?_append_right (by rw [Serial.length_frame]), Serial.length_frame, h.line hpos,
    h.levels, hpos]
  rfl

/-- A tick while a message is being sent. -/
theorem Sending.tick (h : Sending s data levels) :
    Sending (txTimerCb s) data (levels ++ [(txTimerCb s).line]) ∧ (txTimerCb s).txBusy = s.txBusy ∨
      Sent (txTimerCb s) data (levels ++ [(txTimerCb s).line]) ∧ Off (txTimerCb s) := by
  have hsize : data.length ≤ 200 := h.loaded.size.2
  have hlen := h.txLength
  have hindex := h.txIndex
  rcases Nat.lt_or_ge s.txBitPos 10 with hpos | hpos
  · have hbusy : (txTimerCb s).txBusy = s.txBusy := by rw [txTimerCb_frame h.txEnable hpos]
    exact .inl ⟨h.tick_frame hpos, hbusy⟩
  have hpos : s.txBitPos = 10 := Nat.le_antisymm h.txBitPos hpos
  have hlevels := h.levels_idle hpos
  by_cases hmore : s.txIndex + 1 < data.length
  · left
    rw [txTimerCb_next h.txEnable hpos (by omega) (by omega)]
    exact ⟨⟨h.txEnable, ⟨h.loaded.size, h.loaded.txBuf⟩, hlen, hmore, Nat.zero_le _, nofun, hlevels⟩,
      rfl⟩
  · right
    rw [txTimerCb_last h.txEnable hpos (by omega) (by omega)]
    have hall : levels ++ [true] = wave data := by
      rw [← h.line hpos, hlevels, List.take_of_length_le]
      rw [Serial.length_wave]
      omega
    exact ⟨⟨rfl, rfl, 0, hall.trans (List.append_nil _).symm⟩, rfl, rfl, rfl⟩

/-- A tick behind the message. -/
theorem Sent.tick (h : Sent s data levels) :
    Sent (txTimerCb s) data (levels ++ [(txTimerCb s).line]) := by
  obtain ⟨k, hk⟩ := h.levels
  rw [txTimerCb_disabled h.txEnable]
  refine ⟨h.txEnable, h.line, k + 1, ?_⟩
  rw [hk, h.line, List.append_assoc, List.replicate_succ']

end

/-! ## Steps -/

section
variable {s t : SimCtrl} {pc : Pc} {sent : Option (List UInt8)} {levels : List Bool}

/-- A statement that leaves the transmitter off and the line high. -/
theorem Phase.off (h : Phase s levels sent) (hs : s.txEnable = false) (ht : t.txEnable = false)
    (hline : s.line = true → t.line = true) : Phase t levels sent := by
  cases sent with
  | none => exact ht
  | some data =>
    obtain h | h := h
    · exact absurd (hs.symm.trans h.txEnable) (by decide)
    · exact .inr ⟨ht, hline h.line, h.levels⟩

theorem Off.congr (h : Off s) (hsame : SameTx s t) : Off t :=
  ⟨hsame.txEnable.trans h.txEnable, hsame.txBusy.trans h.txBusy, hsame.line.trans h.line⟩

theorem Loaded.congr {data : List UInt8} (h : Loaded s data) (hsame : SameTx s t) : Loaded t data :=
  ⟨h.size, by rw [hsame.txBuf]; exact h.txBuf⟩

theorem Phase.congr (h : Phase s levels sent) (hsame : SameTx s t) : Phase t levels sent := by
  cases sent with
  | none => exact hsame.txEnable.trans h
  | some data =>
    obtain h | h := h
    · refine .inl ⟨hsame.txEnable.trans h.txEnable, h.loaded.congr hsame,
        hsame.txLength.trans h.txLength, ?_, ?_, ?_, ?_⟩
      · exact hsame.txIndex.trans_lt h.txIndex
      · exact hsame.txBitPos.trans_le h.txBitPos
      · rw [hsame.txBitPos, hsame.line]
        exact h.line
      · rw [hsame.txBitPos, hsame.txIndex]
        exact h.levels
    · exact .inr ⟨hsame.txEnable.trans h.txEnable, hsame.line.trans h.line, h.levels⟩

theorem Pc.Sound.congr (h : pc.Sound s) (hsame : SameTx s t) : pc.Sound t := by
  have hrest : (s.txEnable = false → Off s) → t.txEnable = false → Off t :=
    fun h ht => (h (hsame.txEnable.symm.trans ht)).congr hsame
  cases pc with
  | sendTestParam => exact Off.congr h hsame
  | sendCopy data i =>
    refine ⟨h.1.congr hsame, h.2.1, ?_⟩
    rw [hsame.txBuf]
    exact h.2.2
  | sendLength => exact ⟨h.1.congr hsame, h.2.congr hsame⟩
  | sendIndex => exact ⟨h.1.congr hsame, h.2.1.congr hsame, hsame.txLength.trans h.2.2⟩
  | sendBitPos =>
    obtain ⟨hoff, hloaded, hlen, hindex⟩ := h
    exact ⟨hoff.congr hsame, hloaded.congr hsame, hsame.txLength.trans hlen,
      hsame.txIndex.trans hindex⟩
  | sendBusy =>
    obtain ⟨hoff, hloaded, hlen, hindex, hpos⟩ := h
    exact ⟨hoff.congr hsame, hloaded.congr hsame, hsame.txLength.trans hlen,
      hsame.txIndex.trans hindex, hsame.txBitPos.trans hpos⟩
  | sendEnable =>
    obtain ⟨henable, hbusy, hloaded, hlen, hindex, hpos⟩ := h
    exact ⟨hsame.txEnable.trans henable, hsame.txBusy.trans hbusy, hloaded.congr hsame,
      hsame.txLength.trans hlen, hsame.txIndex.trans hindex, hsame.txBitPos.trans hpos⟩
  | abortBusy => exact hsame.txEnable.trans h
  | abortLevel => exact ⟨hsame.txEnable.trans h.1, hsame.txBusy.trans h.2⟩
  | _ => exact hrest h

/-- Before a statement where the transmitter may be on. -/
theorem Pc.Sound.of_enabled (h : pc.Sound s) (hs : s.txEnable = true)
    (ht : t.txEnable = false → Off t) : pc.Sound t := by
  have hne : s.txEnable ≠ false := by rw [hs]; decide
  cases pc with
  | sendTestParam => exact absurd (Off.txEnable h) hne
  | sendCopy | sendLength | sendIndex | sendBitPos | sendBusy => exact absurd h.1.txEnable hne
  | sendEnable | abortLevel => exact absurd h.1 hne
  | abortBusy => exact absurd h hne
  | _ => exact ht

/-- A tick. -/
theorem TxInv.txTick {s : TxLog} (h : TxInv s) :
    TxInv (s.next .txTick ⟨txTimerCb s.task.uart, s.task.pc⟩) := by
  obtain ⟨⟨s, pc⟩, sent, levels⟩ := s
  obtain ⟨hbusy, hsound, hphase⟩ := h
  cases hen : s.txEnable with
  | false =>
    have hsame : txTimerCb s = s := txTimerCb_disabled hen
    refine ⟨?_, ?_, ?_⟩
    · show (txTimerCb s).txEnable = true → (txTimerCb s).txBusy = true
      rw [hsame]
      exact hbusy
    · show pc.Sound (txTimerCb s)
      rw [hsame]
      exact hsound
    · cases sent with
      | none =>
        show (txTimerCb s).txEnable = false
        rw [hsame]
        exact hen
      | some data =>
        obtain h | h := hphase
        · exact absurd (hen.symm.trans h.txEnable) (by decide)
        · exact .inr h.tick
  | true =>
    cases sent with
    | none => exact absurd (hen.symm.trans hphase) (by decide)
    | some data =>
      obtain h | h := hphase
      · obtain ⟨hnext, hkeep⟩ | ⟨hover, hoff⟩ := h.tick
        · refine ⟨fun _ => hkeep.trans (hbusy hen), ?_, .inl hnext⟩
          refine Pc.Sound.of_enabled hsound hen fun hoff => ?_
          exact absurd (hoff.symm.trans hnext.txEnable) (by decide)
        · refine ⟨fun henabled => ?_, Pc.Sound.of_enabled hsound hen fun _ => hoff, .inr hover⟩
          exact absurd (hoff.txEnable.symm.trans henabled) (by decide)
      · exact absurd (hen.symm.trans h.txEnable) (by decide)

/-- The statements of a send. -/
theorem TxInv.exec_send (h : TxInv ⟨⟨s, pc⟩, sent, levels⟩) {data : List UInt8}
    (hpc : pc = .sendLength data ∨ pc = .sendIndex data ∨ pc = .sendBitPos data ∨
      pc = .sendBusy data ∨ pc = .sendEnable data ∨ ∃ i, pc = .sendCopy data i) :
    TxInv ((⟨⟨s, pc⟩, sent, levels⟩ : TxLog).next .exec (Task.exec ⟨s, pc⟩).1) := by
  obtain ⟨-, hsound, hphase⟩ := h
  have hkeep : ∀ t : SimCtrl, Off s → t.txEnable = s.txEnable → t.line = s.line →
      Phase t levels sent := fun t hoff hen hline =>
    hphase.off hoff.txEnable (hen.trans hoff.txEnable) fun _ => hline.trans hoff.line
  have hnot : ∀ t : SimCtrl, Off s → t.txEnable = s.txEnable → t.txEnable = true →
      t.txBusy = true := fun t hoff heq hen =>
    absurd ((heq.trans hoff.txEnable).symm.trans hen) (by decide)
  obtain rfl | rfl | rfl | rfl | rfl | ⟨i, rfl⟩ := hpc
  · obtain ⟨hoff, hloaded⟩ := hsound
    exact ⟨hnot _ hoff rfl, ⟨⟨hoff.1, hoff.2, hoff.3⟩, ⟨hloaded.1, hloaded.2⟩, rfl⟩,
      hkeep _ hoff rfl rfl⟩
  · obtain ⟨hoff, hloaded, hlen⟩ := hsound
    exact ⟨hnot _ hoff rfl, ⟨⟨hoff.1, hoff.2, hoff.3⟩, ⟨hloaded.1, hloaded.2⟩, hlen, rfl⟩,
      hkeep _ hoff rfl rfl⟩
  · obtain ⟨hoff, hloaded, hlen, hindex⟩ := hsound
    exact ⟨hnot _ hoff rfl, ⟨⟨hoff.1, hoff.2, hoff.3⟩, ⟨hloaded.1, hloaded.2⟩, hlen, hindex, rfl⟩,
      hkeep _ hoff rfl rfl⟩
  · obtain ⟨hoff, hloaded, hlen, hindex, hpos⟩ := hsound
    exact ⟨fun _ => rfl, ⟨hoff.txEnable, rfl, ⟨hloaded.1, hloaded.2⟩, hlen, hindex, hpos⟩,
      hkeep _ hoff rfl rfl⟩
  · obtain ⟨henable, hbusy, hloaded, hlen, hindex, hpos⟩ := hsound
    refine ⟨fun _ => hbusy, fun hen : true = false => absurd hen (by decide), .inl ?_⟩
    refine ⟨rfl, ⟨hloaded.1, hloaded.2⟩, hlen, ?_, ?_, ?_, ?_⟩
    · exact hindex.trans_lt hloaded.size.1
    · exact hpos.trans_le (Nat.zero_le _)
    · exact fun h => absurd (hpos.symm.trans h) (by decide)
    · show [] = (wave data).take (11 * s.txIndex + s.txBitPos)
      rw [hindex, hpos]
      rfl
  · obtain ⟨hoff, hsize, hbuf⟩ := hsound
    have hnext : ∀ t : Task, Task.exec ⟨s, .sendCopy data i⟩ = (t, none) → t.pc.Sound t.uart →
        Off t.uart → TxInv ((⟨⟨s, .sendCopy data i⟩, sent, levels⟩ : TxLog).next .exec
          (Task.exec ⟨s, .sendCopy data i⟩).1) := by
      intro t hexec hsound' hoff'
      rw [hexec]
      exact ⟨fun hen => absurd (hoff'.txEnable.symm.trans hen) (by decide), hsound',
        hphase.off hoff.txEnable hoff'.txEnable fun _ => hoff'.line⟩
    cases hget : data[i]? with
    | none =>
      have hend : data.length ≤ i := List.getElem?_eq_none_iff.1 hget
      refine hnext ⟨s, .sendLength data⟩ ?_ ⟨hoff, hsize, fun j b hb => ?_⟩ hoff
      · unfold Task.exec
        simp only [hget]
      · have hj := (List.getElem?_eq_some_iff.1 hb).1
        exact hbuf j (by omega) b hb
    | some b =>
      refine hnext ⟨{ s with txBuf := Ring.poke s.txBuf i b }, .sendCopy data (i + 1)⟩ ?_
        ⟨⟨hoff.txEnable, hoff.txBusy, hoff.line⟩, hsize, fun j hj c hc => ?_⟩
        ⟨hoff.txEnable, hoff.txBusy, hoff.line⟩
      · unfold Task.exec
        simp only [hget]
      · show Ring.poke s.txBuf i b j = c
        by_cases heq : j = i
        · rw [heq] at hc ⊢
          rw [Ring.poke_self]
          exact Option.some.inj (hget.symm.trans hc)
        · rw [Ring.poke_of_ne heq]
          exact hbuf j (by omega) c hc

/-- The statements that do not reach the transmitter. -/
theorem TxInv.same {s s' : TxLog} (h : TxInv s) (hsame : SameTx s.task.uart s'.task.uart)
    (hsent : s'.sent = s.sent) (hlevels : s'.levels = s.levels)
    (hpc : s.task.pc.Sound s.task.uart → s'.task.pc.Sound s.task.uart) : TxInv s' := by
  refine ⟨fun hen => ?_, (hpc h.sound).congr hsame, ?_⟩
  · exact hsame.txBusy.trans (h.busy (hsame.txEnable.symm.trans hen))
  · rw [hsent, hlevels]
    exact h.phase.congr hsame

/-- A statement. -/
theorem TxInv.exec (h : TxInv ⟨⟨s, pc⟩, sent, levels⟩) (hidle : pc ≠ .idle) :
    TxInv ((⟨⟨s, pc⟩, sent, levels⟩ : TxLog).next .exec (Task.exec ⟨s, pc⟩).1) := by
  have hrefl : SameTx s s := ⟨rfl, rfl, rfl, rfl, rfl, rfl, rfl⟩
  cases pc with
  | idle => exact absurd rfl hidle
  | sendTestBusy data =>
    unfold Task.exec
    simp only
    split
    · exact h.same hrefl rfl rfl id
    · rename_i hfree
      refine h.same hrefl rfl rfl fun hrest => hrest ?_
      cases hen : s.txEnable with
      | false => rfl
      | true => exact absurd (h.busy hen) hfree
  | sendTestParam data =>
    cases data with
    | none => exact h.same hrefl rfl rfl fun hoff _ => hoff
    | some data =>
      unfold Task.exec
      simp only
      split
      · exact h.same hrefl rfl rfl fun hoff _ => hoff
      · exact h.same hrefl rfl rfl fun hoff => ⟨hoff, by omega, fun _ hj => absurd hj (by omega)⟩
  | sendCopy data i => exact h.exec_send (.inr (.inr (.inr (.inr (.inr ⟨i, rfl⟩)))))
  | sendLength data => exact h.exec_send (.inl rfl)
  | sendIndex data => exact h.exec_send (.inr (.inl rfl))
  | sendBitPos data => exact h.exec_send (.inr (.inr (.inl rfl)))
  | sendBusy data => exact h.exec_send (.inr (.inr (.inr (.inl rfl))))
  | sendEnable data => exact h.exec_send (.inr (.inr (.inr (.inr (.inl rfl)))))
  | recvTest maxLength =>
    unfold Task.exec
    simp only
    split <;> exact h.same hrefl rfl rfl id
  | recvCopy n buffer =>
    unfold Task.exec
    simp only
    split <;> exact h.same hrefl rfl rfl id
  | abortEnable => exact ⟨fun hen : false = true => absurd hen (by decide), rfl, rfl⟩
  | abortBusy =>
    have hoff : s.txEnable = false := h.sound
    exact ⟨fun hen => absurd (hoff.symm.trans hen) (by decide), ⟨hoff, rfl⟩, h.phase.off hoff hoff id⟩
  | abortLevel =>
    obtain ⟨hoff, hbusy⟩ := h.sound
    exact ⟨fun hen => absurd (hoff.symm.trans hen) (by decide), fun _ => ⟨hoff, hbusy, rfl⟩,
      h.phase.off hoff hoff fun _ => rfl⟩
  | _ => exact h.same ⟨rfl, rfl, rfl, rfl, rfl, rfl, rfl⟩ rfl rfl id

end

theorem TxStep.inv {s s' : TxLog} {e : Event} (hs : TxInv s) (h : TxStep s e s') : TxInv s' := by
  obtain ⟨⟨t, ret⟩, hstep, rfl⟩ := Option.map_eq_some_iff.1 h
  obtain ⟨⟨u, pc⟩, sent, levels⟩ := s
  cases e with
  | call c =>
    unfold Task.step at hstep
    simp only at hstep
    split at hstep
    · rename_i hidle
      cases hstep
      refine hs.same ⟨rfl, rfl, rfl, rfl, rfl, rfl, rfl⟩ rfl rfl fun hsound => ?_
      rw [hidle] at hsound
      cases c <;> exact hsound
    · cases hstep
  | exec =>
    unfold Task.step at hstep
    simp only at hstep
    split at hstep
    · cases hstep
    · rename_i hidle
      have hexec := hs.exec hidle
      rw [Option.some.inj hstep] at hexec
      exact hexec
  | txTick =>
    cases hstep
    exact hs.txTick
  | rxTick level =>
    cases hstep
    exact hs.same (rxTimerCb_sameTx u level) rfl rfl id

/-! ## The law -/

/-- A send returns `SIM_UART_BUSY` at its first statement. -/
theorem Task.step_busy {t t' : Task} {e : Event} (h : t.step e = some (t', some (.sent .busy))) :
    e = .exec ∧ (∃ data, t.pc = Call.entry (.send data)) ∧ t'.uart = t.uart := by
  obtain ⟨s, pc⟩ := t
  cases e with
  | call c =>
    unfold Task.step at h
    simp only at h
    split at h <;> cases h
  | txTick | rxTick => cases h
  | exec =>
    unfold Task.step at h
    simp only at h
    split at h
    · cases h
    have h := Option.some.inj h
    unfold Task.exec at h
    refine ⟨rfl, ?_⟩
    cases pc with
    | sendTestBusy data =>
      simp only at h
      split at h
      · cases h
        exact ⟨⟨data, rfl⟩, rfl⟩
      · cases h
    | sendTestParam data =>
      cases data with
      | none => cases h
      | some data =>
        simp only at h
        split at h <;> cases h
    | sendCopy | recvTest | recvCopy =>
      simp only at h
      split at h <;> cases h
    | _ => cases h

theorem TxInv.law {s : TxLog} (h : TxInv s) : TxLaw s := by
  refine ⟨fun hen _ _ => ?_, fun _ _ => Task.step_busy, fun data hdata => ?_, fun hpc hoff => ?_⟩
  · have hphase := h.phase
    cases hsent : s.sent with
    | none =>
      rw [hsent] at hphase
      exact absurd (hen.symm.trans hphase) (by decide)
    | some data =>
      rw [hsent] at hphase
      obtain hsending | hover := hphase
      · exact hsending.txIndex.trans_eq hsending.txLength.symm
      · exact absurd (hen.symm.trans hover.txEnable) (by decide)
  · have hphase := h.phase
    rw [hdata] at hphase
    obtain hsending | hover := hphase
    · exact ⟨0, by rw [hsending.levels, List.replicate_zero, List.append_nil]; exact List.take_prefix ..⟩
    · obtain ⟨k, hk⟩ := hover.levels
      exact ⟨k, hk ▸ List.prefix_rfl⟩
  · have hsound := h.sound
    rw [hpc] at hsound
    have hidle : Off s.task.uart := hsound hoff
    exact ⟨hidle.txBusy, hidle.line⟩

end AppXd.SimUart
