import AppXd.SimUart.Task

/-!
# Reception

The log keeps the level of every tick that sampled one, and marks the ticks that sampled none and where
reception was switched off. A byte that is stored should be the last ten samples, with no mark between
them. `rx_start` outlives a pause of the reception and a read of the pin that fails, so that this needs
that no read fails inside a frame, and that no pause begins there and ends before another sample has
ended it. `sim_uart_receive` sets the index back whatever has been stored behind
the bytes that it has copied.
-/

namespace AppXd.SimUart

open Ring (cells)
open Serial (Holds frame)
open Trace (Run Guarded PFun)

/-- The samples, the bytes stored with the number of samples up to the one of their stop bit, and
the bytes that the calls have returned. -/
structure RxLog where
  task : Task
  samples : List (Option Bool)
  stored : List (UInt8 × Nat)
  returned : List UInt8

namespace RxLog

/-- What an event adds to the samples. -/
def sampled (s : RxLog) : Event → List (Option Bool)
  | .rxTick level => [if s.task.uart.rxEnable = 0 then none else level]
  | .exec => if s.task.pc = .enableRx 0 then [none] else []
  | _ => []

/-- The bytes that stand behind those of `s` in the buffer of `t`. -/
def added (s t : SimCtrl) : List UInt8 := cells t.rxBuffer s.rxBufferIndex t.rxBufferIndex

/-- What an event adds to the bytes stored. -/
def newlyStored (s : RxLog) (t : Task) : Event → List (UInt8 × Nat)
  | .rxTick level =>
    (added s.task.uart t.uart).map (·, (s.samples ++ s.sampled (.rxTick level)).length)
  | _ => []

/-- The bytes that a call returns. -/
def received : Option CallRet → List UInt8
  | some (.received buffer) => buffer
  | _ => []

def next (s : RxLog) (e : Event) (t : Task) (ret : Option CallRet) : RxLog where
  task := t
  samples := s.samples ++ s.sampled e
  stored := s.stored ++ s.newlyStored t e
  returned := s.returned ++ received ret

def step (s : RxLog) (e : Event) : Option RxLog :=
  (s.task.step e).map fun (t, ret) => s.next e t ret

/-- Before anything has happened. -/
def start (t : Task) : RxLog := ⟨t, [], [], []⟩

end RxLog

def RxStep : RxLog → Event → RxLog → Prop := PFun RxLog.step

/-- Every byte stored is a frame of ten consecutive samples. -/
def NoPhantom (s : RxLog) : Prop :=
  ∀ b n, (b, n) ∈ s.stored → (frame b).map some <:+ s.samples.take n

/-- The bytes that a call has taken from the buffer and not returned yet. -/
def Pc.fetched : Pc → List UInt8
  | recvReturn buffer => buffer
  | _ => []

/-- What the calls have returned and what is still in the buffer are the bytes stored, in order. -/
def Lossless (u₀ : List UInt8) (s : RxLog) : Prop :=
  s.returned ++ (s.task.pc.fetched ++ s.task.uart.unread) = u₀ ++ s.stored.map Prod.fst

/-! ## The conditions -/

/-- Reception that has been switched off is about to be switched on. -/
def Task.Resumes (t : Task) : Prop :=
  match t.pc with
  | .enableRx enable => enable ≠ 0 ∧ t.uart.rxEnable = 0
  | _ => False

/-- Inside a frame reception is not resumed, and no read of the pin fails. -/
def ResumeCond (s : RxLog) : Event → Prop
  | .exec => s.task.Resumes → s.task.uart.rxStart = false
  | .rxTick none => s.task.uart.rxEnable ≠ 0 → s.task.uart.rxStart = false
  | _ => True

/-- The index is set back when the caller has got all bytes. -/
def ResetCond (s : RxLog) : Event → Prop
  | .exec =>
    match s.task.pc with
    | .recvReset buffer => s.task.uart.rxBufferIndex = buffer.length
    | _ => True
  | _ => True

instance (t : Task) : Decidable t.Resumes := by
  unfold Task.Resumes
  split <;> infer_instance

instance (s : RxLog) (e : Event) : Decidable (ResumeCond s e) := by
  unfold ResumeCond
  split <;> infer_instance

instance (s : RxLog) (e : Event) : Decidable (ResetCond s e) := by
  unfold ResetCond
  split
  · split <;> infer_instance
  · infer_instance

/-! ## Steps -/

/-- The receiver is the same in both states. -/
structure SameRx (s t : SimCtrl) : Prop where
  rxEnable : t.rxEnable = s.rxEnable
  rxBitCount : t.rxBitCount = s.rxBitCount
  rxByte : t.rxByte = s.rxByte
  rxStart : t.rxStart = s.rxStart
  rxBuffer : t.rxBuffer = s.rxBuffer
  rxBufferIndex : t.rxBufferIndex = s.rxBufferIndex

theorem SameRx.refl (s : SimCtrl) : SameRx s s := ⟨rfl, rfl, rfl, rfl, rfl, rfl⟩

theorem txTimerCb_sameRx (s : SimCtrl) : SameRx s (txTimerCb s) := by
  unfold txTimerCb
  split
  · split
    · exact ⟨rfl, rfl, rfl, rfl, rfl, rfl⟩
    · simp only
      split <;> exact ⟨rfl, rfl, rfl, rfl, rfl, rfl⟩
  · exact .refl s

/-- What a step does to the receiver, where it stands before the step, and what it returns. -/
inductive RxStepOutcome (t : Task) : Event → Task → Option CallRet → Prop
  | tick (level : Option Bool) :
    RxStepOutcome t (.rxTick level) ⟨rxTimerCb level t.uart, t.pc⟩ none
  | enable (enable : UInt8) : t.pc = .enableRx enable →
    RxStepOutcome t .exec ⟨{ t.uart with rxEnable := enable }, .idle⟩ (some .done)
  | reset (buffer : List UInt8) : t.pc = .recvReset buffer →
    RxStepOutcome t .exec ⟨{ t.uart with rxBufferIndex := 0 }, .recvReturn buffer⟩ none
  | length (maxLength : Nat) : t.pc = .recvLength maxLength →
    RxStepOutcome t .exec ⟨t.uart, .recvCopy (if t.uart.rxBufferIndex < maxLength then
      t.uart.rxBufferIndex else maxLength) []⟩ none
  | copy (n : Nat) (buffer : List UInt8) : t.pc = .recvCopy n buffer → buffer.length < n →
    RxStepOutcome t .exec
      ⟨t.uart, .recvCopy n (buffer ++ [t.uart.rxBuffer buffer.length])⟩ none
  | copied (n : Nat) (buffer : List UInt8) : t.pc = .recvCopy n buffer → ¬ buffer.length < n →
    RxStepOutcome t .exec ⟨t.uart, .recvReset buffer⟩ none
  | ret (buffer : List UInt8) : t.pc = .recvReturn buffer →
    RxStepOutcome t .exec ⟨t.uart, .idle⟩ (some (.received buffer))
  | other (e : Event) (s : SimCtrl) (pc : Pc) (ret : Option CallRet) : SameRx t.uart s →
    (∀ level, e ≠ .rxTick level) → (e = .exec → ∀ enable, t.pc ≠ .enableRx enable) →
    (e = .exec → ∀ buffer, t.pc ≠ .recvReset buffer) →
    (pc = t.pc ∨ t.pc.fetched = [] ∧ pc.fetched = [] ∧ (∀ n buffer, pc ≠ .recvCopy n buffer) ∧
      ∀ buffer, pc ≠ .recvReset buffer) → RxLog.received ret = [] →
    RxStepOutcome t e ⟨s, pc⟩ ret

theorem Task.step_rx {t t' : Task} {e : Event} {ret : Option CallRet}
    (h : t.step e = some (t', ret)) : RxStepOutcome t e t' ret := by
  obtain ⟨s, pc⟩ := t
  cases e with
  | call c =>
    unfold Task.step at h
    simp only at h
    split at h
    · rename_i hidle
      cases h
      subst hidle
      refine .other _ _ _ _ (.refl s) nofun nofun nofun (.inr ⟨rfl, ?_, ?_, ?_⟩) rfl <;>
        cases c <;> first | rfl | exact nofun
    · cases h
  | txTick =>
    cases h
    exact .other _ _ _ _ (txTimerCb_sameRx s) nofun nofun nofun (.inl rfl) rfl
  | rxTick level =>
    cases h
    exact .tick level
  | exec =>
    have hother : ∀ (s' : SimCtrl) (pc' : Pc) (ret' : Option CallRet),
        (⟨s', pc'⟩, ret') = (t', ret) → SameRx s s' → (∀ enable, pc ≠ .enableRx enable) →
        (∀ buffer, pc ≠ .recvReset buffer) → pc.fetched = [] → pc'.fetched = [] →
        (∀ n buffer, pc' ≠ .recvCopy n buffer) → (∀ buffer, pc' ≠ .recvReset buffer) →
        RxLog.received ret' = [] → RxStepOutcome ⟨s, pc⟩ .exec t' ret := by
      intro s' pc' ret' heq hsame h1 h2 h3 h4 h5 h6 h7
      cases heq
      exact .other _ _ _ _ hsame nofun (fun _ => h1) (fun _ => h2) (.inr ⟨h3, h4, h5, h6⟩) h7
    have hsame : SameRx s s := .refl s
    unfold Task.step at h
    simp only at h
    split at h
    · cases h
    rename_i hidle
    have h := Option.some.inj h
    unfold Task.exec at h
    cases pc with
    | idle => exact absurd rfl hidle
    | enableRx enable =>
      cases h
      exact .enable enable rfl
    | recvReset buffer =>
      cases h
      exact .reset buffer rfl
    | recvLength maxLength =>
      cases h
      exact .length maxLength rfl
    | recvCopy n buffer =>
      simp only at h
      split at h
      · cases h
        exact .copy n buffer rfl ‹_›
      · cases h
        exact .copied n buffer rfl ‹_›
    | recvReturn buffer =>
      cases h
      exact .ret buffer rfl
    | sendTestBusy data =>
      simp only at h
      split at h <;> exact hother _ _ _ h hsame nofun nofun rfl rfl nofun nofun rfl
    | sendTestParam data =>
      cases data with
      | none => exact hother _ _ _ h hsame nofun nofun rfl rfl nofun nofun rfl
      | some data =>
        simp only at h
        split at h <;> exact hother _ _ _ h hsame nofun nofun rfl rfl nofun nofun rfl
    | sendCopy data i =>
      simp only at h
      split at h
      · exact hother _ _ _ h ⟨rfl, rfl, rfl, rfl, rfl, rfl⟩ nofun nofun rfl rfl nofun nofun rfl
      · exact hother _ _ _ h hsame nofun nofun rfl rfl nofun nofun rfl
    | recvTest maxLength =>
      simp only at h
      split at h <;> exact hother _ _ _ h hsame nofun nofun rfl rfl nofun nofun rfl
    | _ => exact hother _ _ _ h ⟨rfl, rfl, rfl, rfl, rfl, rfl⟩ nofun nofun rfl rfl nofun nofun rfl

/-- What a tick does to the buffer. -/
theorem rxTimerCb_unread (s : SimCtrl) (level : Option Bool) :
    (rxTimerCb level s).unread = s.unread ++ RxLog.added s (rxTimerCb level s) ∧
      s.rxBufferIndex ≤ (rxTimerCb level s).rxBufferIndex ∧
      ∀ n ≤ s.rxBufferIndex, cells (rxTimerCb level s).rxBuffer 0 n = cells s.rxBuffer 0 n := by
  have hsame : ∀ t : SimCtrl, t.rxBuffer = s.rxBuffer → t.rxBufferIndex = s.rxBufferIndex →
      t.unread = s.unread ++ RxLog.added s t ∧ s.rxBufferIndex ≤ t.rxBufferIndex ∧
        ∀ n ≤ s.rxBufferIndex, cells t.rxBuffer 0 n = cells s.rxBuffer 0 n := by
    intro t hbuf hidx
    have hunread : t.unread = s.unread := by rw [SimCtrl.unread, hbuf, hidx]; rfl
    have hadded : RxLog.added s t = [] := by rw [RxLog.added, hidx, Ring.cells_self]
    exact ⟨by rw [hunread, hadded, List.append_nil], hidx.ge, fun n _ => by rw [hbuf]⟩
  by_cases hen : s.rxEnable = 0
  · rw [rxTimerCb_disabled hen]
    exact hsame s rfl rfl
  cases level with
  | none =>
    rw [rxTimerCb_none]
    exact hsame s rfl rfl
  | some bit =>
    have hout := rxTimerCb_outcome hen bit
    generalize rxTimerCb (some bit) s = t at hout
    cases hout with
    | stop =>
      by_cases hroom : s.rxBufferIndex < simUartBufferSize
      · have hbuf : s.storeByte = _ := if_pos hroom
        rw [hbuf]
        refine ⟨?_, Nat.le_succ _, fun n hn => Ring.cells_congr fun i _ hi =>
          Ring.poke_of_ne (by omega)⟩
        have hold : cells (Ring.poke s.rxBuffer s.rxBufferIndex s.rxByte) 0 s.rxBufferIndex = s.unread :=
          Ring.cells_congr fun i _ hi => Ring.poke_of_ne (Nat.ne_of_lt hi)
        refine Eq.trans (Ring.cells_append _ (Nat.zero_le _) (Nat.le_succ s.rxBufferIndex)).symm ?_
        rw [hold]
        rfl
      · have hbuf : s.storeByte = s := if_neg hroom
        rw [hbuf]
        exact hsame _ rfl rfl
    | _ => exact hsame _ rfl rfl

/-! ## Phantom bytes -/

/-- While a frame is received its bits so far are the last samples. -/
def InFrame (s : RxLog) : Prop :=
  s.task.uart.rxEnable ≠ 0 → s.task.uart.rxStart = true → ∃ l : List Bool,
    s.task.uart.rxBitCount = l.length ∧ l.length ≤ 8 ∧ Holds s.task.uart.rxByte l ∧
      (false :: l).map some <:+ s.samples

/-- The invariant of a run. -/
structure FrameInv (s : RxLog) : Prop where
  inFrame : InFrame s
  noPhantom : NoPhantom s
  inside : ∀ b n, (b, n) ∈ s.stored → n ≤ s.samples.length

section
variable {s s' : RxLog} {e : Event}

/-- A step that stores nothing. -/
theorem FrameInv.keep {t : Task} {ret : Option CallRet} (hs : FrameInv s)
    (hstored : s.newlyStored t e = []) (hframe : InFrame (s.next e t ret)) :
    FrameInv (s.next e t ret) := by
  have hstored' : (s.next e t ret).stored = s.stored := by
    rw [RxLog.next, hstored, List.append_nil]
  refine ⟨hframe, fun b n hb => ?_, fun b n hb => ?_⟩
  · rw [hstored'] at hb
    have htake : (s.next e t ret).samples.take n = s.samples.take n :=
      List.take_append_of_le_length (hs.inside b n hb)
    rw [htake]
    exact hs.noPhantom b n hb
  · rw [hstored'] at hb
    refine (hs.inside b n hb).trans ?_
    rw [RxLog.next, List.length_append]
    exact Nat.le_add_right ..

/-- A tick without a sample. -/
theorem FrameInv.missed (hs : FrameInv s) {level : Option Bool}
    (hsame : rxTimerCb level s.task.uart = s.task.uart)
    (hidle : s.task.uart.rxEnable ≠ 0 → s.task.uart.rxStart = false) :
    FrameInv (s.next (.rxTick level) ⟨rxTimerCb level s.task.uart, s.task.pc⟩ none) := by
  rw [hsame]
  refine hs.keep (congrArg (List.map _) (Ring.cells_self ..)) fun hen hstart => ?_
  exact absurd ((hidle hen).symm.trans hstart) (by decide)

/-- A tick with a sample. -/
theorem FrameInv.tick (hs : FrameInv s) (hen : s.task.uart.rxEnable ≠ 0) (level : Bool) :
    FrameInv (s.next (.rxTick (some level))
      ⟨rxTimerCb (some level) s.task.uart, s.task.pc⟩ none) := by
  have hsampled : s.sampled (.rxTick (some level)) = [some level] := congrArg (· :: []) (if_neg hen)
  have hsamples : ∀ t, (s.next (.rxTick (some level)) t none).samples = s.samples ++ [some level] :=
    fun t => congrArg (s.samples ++ ·) hsampled
  have hout := rxTimerCb_outcome hen level
  generalize hu : rxTimerCb (some level) s.task.uart = u at hout
  have hnone : ∀ t : Task, t.uart.rxBufferIndex = s.task.uart.rxBufferIndex →
      s.newlyStored t (.rxTick (some level)) = [] := by
    intro t hidx
    unfold RxLog.newlyStored RxLog.added
    simp only [hidx, Ring.cells_self, List.map_nil]
  cases hout with
  | quiet hstart =>
    exact hs.keep (hnone _ rfl) fun _ h => absurd (hstart.symm.trans h) (by decide)
  | start hstart =>
    refine hs.keep (hnone _ rfl) fun _ _ => ⟨[], rfl, Nat.zero_le _, .zero, ?_⟩
    rw [hsamples]
    exact ⟨s.samples, rfl⟩
  | bit _ hstart hcount =>
    refine hs.keep (hnone _ rfl) fun _ _ => ?_
    obtain ⟨l, hlen, hle, hholds, pre, hpre⟩ := hs.inFrame hen hstart
    have hlen' : (l ++ [level]).length = l.length + 1 := List.length_append
    refine ⟨l ++ [level], ?_, by omega, ?_, pre, ?_⟩
    · rw [hlen']
      exact congrArg (· + 1) hlen
    · have hshift := hholds.shiftIn level (by omega)
      rwa [← hlen] at hshift
    · rw [hsamples, ← hpre]
      simp
  | stop hstart hcount =>
    obtain ⟨l, hlen, hle, hholds, hsuffix⟩ := hs.inFrame hen hstart
    have hbits := hholds.bits_eq (by omega)
    have hmark : (frame s.task.uart.rxByte).map some <:+ s.samples ++ [some true] := by
      obtain ⟨pre, hpre⟩ := hsuffix
      refine ⟨pre, ?_⟩
      rw [← hpre, frame, hbits]
      simp
    refine ⟨fun _ => by rintro ⟨⟩, fun b n hb => ?_, fun b n hb => ?_⟩
    all_goals
      obtain hb | hb := List.mem_append.1 hb
    · rw [hsamples, List.take_append_of_le_length (hs.inside b n hb)]
      exact hs.noPhantom b n hb
    · obtain ⟨b', hb', heq⟩ := List.mem_map.1 hb
      obtain ⟨rfl, rfl⟩ := Prod.mk.inj heq
      have hbyte : b' = s.task.uart.rxByte := by
        unfold RxLog.added at hb'
        simp only [SimCtrl.storeByte_eq] at hb'
        obtain ⟨i, h1, h2, rfl⟩ := Ring.mem_cells.1 hb'
        by_cases hroom : s.task.uart.rxBufferIndex < simUartBufferSize
        · rw [if_pos hroom] at h2
          obtain rfl : i = s.task.uart.rxBufferIndex := by omega
          rw [if_pos hroom, Ring.poke_self]
        · rw [if_neg hroom] at h2
          omega
      rw [hsampled, hsamples, List.take_of_length_le (Nat.le_refl _), hbyte]
      exact hmark
    · rw [hsamples, List.length_append]
      exact (hs.inside b n hb).trans (Nat.le_add_right ..)
    · obtain ⟨b', hb', heq⟩ := List.mem_map.1 hb
      obtain ⟨rfl, rfl⟩ := Prod.mk.inj heq
      rw [hsampled, hsamples]
  | broken => exact hs.keep (hnone _ rfl) fun _ => by rintro ⟨⟩
  | lost _ hstart hcount =>
    obtain ⟨l, hlen, hle, -⟩ := hs.inFrame hen hstart
    omega

theorem RxStep.frameInv (hs : FrameInv s) (hc : ResumeCond s e) (h : RxStep s e s') :
    FrameInv s' := by
  obtain ⟨⟨t, ret⟩, hstep, rfl⟩ := Option.map_eq_some_iff.1 h
  have hsame : ∀ (t : Task) (ret : Option CallRet), SameRx s.task.uart t.uart →
      (∀ level, e ≠ .rxTick level) → s.sampled e = [] → FrameInv (s.next e t ret) := by
    intro t ret hrx htick hsampled
    refine hs.keep ?_ fun hen hstart => ?_
    · cases e with
      | rxTick level => exact absurd rfl (htick level)
      | call | exec | txTick => rfl
    · have hen' : t.uart.rxEnable ≠ 0 := hen
      have hstart' : t.uart.rxStart = true := hstart
      rw [hrx.rxEnable] at hen'
      rw [hrx.rxStart] at hstart'
      obtain ⟨l, hlen, hle, hholds, hsuffix⟩ := hs.inFrame hen' hstart'
      refine ⟨l, hrx.rxBitCount.trans hlen, hle, ?_, ?_⟩
      · show Holds t.uart.rxByte l
        rw [hrx.rxByte]
        exact hholds
      · show _ <:+ s.samples ++ s.sampled e
        rw [hsampled, List.append_nil]
        exact hsuffix
  have hexec : (∀ enable, s.task.pc ≠ .enableRx enable) → s.sampled .exec = [] := fun h =>
    if_neg (h 0)
  cases Task.step_rx hstep with
  | tick level =>
    by_cases hen : s.task.uart.rxEnable = 0
    · exact hs.missed (rxTimerCb_disabled hen) fun hne => absurd hen hne
    cases level with
    | none => exact hs.missed rxTimerCb_none hc
    | some bit => exact hs.tick hen bit
  | enable enable hpc =>
    by_cases h0 : enable = 0
    · exact hs.keep rfl fun hen => absurd h0 hen
    by_cases hen : s.task.uart.rxEnable = 0
    · have hresumes : s.task.Resumes := by
        unfold Task.Resumes
        rw [hpc]
        exact ⟨h0, hen⟩
      exact hs.keep rfl fun _ hstart => absurd ((hc hresumes).symm.trans hstart) (by decide)
    · refine hs.keep rfl fun _ hstart => ?_
      have hsampled : s.sampled .exec = [] := if_neg (by rw [hpc]; simp [h0])
      obtain ⟨l, hlen, hle, hholds, hsuffix⟩ := hs.inFrame hen hstart
      refine ⟨l, hlen, hle, hholds, ?_⟩
      show _ <:+ s.samples ++ s.sampled .exec
      rw [hsampled, List.append_nil]
      exact hsuffix
  | reset buffer hpc =>
    have hsampled : s.sampled .exec = [] := hexec fun _ h => by rw [hpc] at h; cases h
    refine hs.keep rfl fun hen hstart => ?_
    obtain ⟨l, hlen, hle, hholds, hsuffix⟩ := hs.inFrame hen hstart
    refine ⟨l, hlen, hle, hholds, ?_⟩
    show _ <:+ s.samples ++ s.sampled .exec
    rw [hsampled, List.append_nil]
    exact hsuffix
  | length maxLength hpc =>
    exact hsame _ _ (.refl _) nofun (hexec fun _ h => by rw [hpc] at h; cases h)
  | copy n buffer hpc | copied n buffer hpc =>
    exact hsame _ _ (.refl _) nofun (hexec fun _ h => by rw [hpc] at h; cases h)
  | ret buffer hpc => exact hsame _ _ (.refl _) nofun (hexec fun _ h => by rw [hpc] at h; cases h)
  | other _ s' pc ret hrx htick henable =>
    refine hsame _ _ hrx htick ?_
    cases e with
    | rxTick level => exact absurd rfl (htick level)
    | exec => exact hexec (henable rfl)
    | call | txTick => rfl

end

/-- In a run in which reception is not resumed inside a frame every byte stored is a frame of ten
consecutive samples. -/
theorem noPhantom_of_resumeCond {t₀ : Task} (h₀ : t₀.uart.rxStart = false) {es : List Event}
    {s : RxLog} (h : Run (Guarded ResumeCond RxStep) (.start t₀) es s) : NoPhantom s := by
  have hstep : ∀ s e s', FrameInv s → Guarded ResumeCond RxStep s e s' → FrameInv s' :=
    fun _ _ _ hs hg => RxStep.frameInv hs hg.1 hg.2
  have hstart : FrameInv (.start t₀) :=
    ⟨fun _ h => absurd (h₀.symm.trans h) (by decide), nofun, nofun⟩
  exact (h.inv hstep hstart).noPhantom

/-- The ticks of these levels. -/
def rxTicks (levels : List Bool) : List Event := levels.map fun level => .rxTick (some level)

/-- Reception is switched off between two of the levels for one tick. -/
def pausedTicks (before after : List Bool) : List Event :=
  rxTicks before ++ .call (.enableRx 0) :: .exec :: .rxTick (some false) :: .call (.enableRx 1) :: .exec ::
    rxTicks after

/-- A frame, a pause between two frames, and another frame. -/
theorem noPhantom_small : ∃ s : RxLog, s.stored = [(65, 10), (66, 22)] ∧ NoPhantom s := by
  have heval : ((pausedTicks (frame 65) (frame 66)).foldlM (Trace.guard ResumeCond RxLog.step)
      (.start .reset)).map RxLog.stored = some [(65, 10), (66, 22)] := by
    decide +kernel
  obtain ⟨s, hs, heq⟩ := Option.map_eq_some_iff.1 heval
  exact ⟨s, heq, noPhantom_of_resumeCond rfl (Trace.run_guarded_of_foldlM hs)⟩

/-- A pause inside a frame: the bits before it and those behind it are taken for one byte. -/
theorem noPhantom_fails : ¬ ∀ (es : List Event) (s : RxLog),
    Run RxStep (.start .reset) es s → NoPhantom s := by
  intro h
  have heval : ((pausedTicks [false, true, true] (List.replicate 7 true)).foldlM RxLog.step
      (.start .reset)).map (fun s => (s.stored, s.samples.take 12)) =
        some ([(255, 12)], [some false, some true, some true, none, none] ++
          List.replicate 7 (some true)) := by
    decide +kernel
  obtain ⟨s, hs, heq⟩ := Option.map_eq_some_iff.1 heval
  obtain ⟨hstored, hsamples⟩ := Prod.mk.inj heq
  have hframe := h _ s (Trace.run_pfun_iff.2 hs) 255 12 (by rw [hstored]; exact .head _)
  rw [hsamples] at hframe
  exact absurd hframe (by decide)

/-! ## Lost bytes -/

/-- What a call has copied are the first bytes of the buffer. -/
def Task.Copied (t : Task) : Prop :=
  match t.pc with
  | .recvCopy n buffer =>
    buffer = cells t.uart.rxBuffer 0 buffer.length ∧ buffer.length ≤ n ∧ n ≤ t.uart.rxBufferIndex
  | .recvReset buffer =>
    buffer = cells t.uart.rxBuffer 0 buffer.length ∧ buffer.length ≤ t.uart.rxBufferIndex
  | _ => True

section
variable {t t' : Task} {e : Event} {ret : Option CallRet} {buffer : List UInt8} {n : Nat}

theorem Task.Copied.of_copy (h : t.Copied) (hpc : t.pc = .recvCopy n buffer) :
    buffer = cells t.uart.rxBuffer 0 buffer.length ∧ buffer.length ≤ n ∧
      n ≤ t.uart.rxBufferIndex := by
  unfold Copied at h
  rwa [hpc] at h

theorem Task.Copied.of_reset (h : t.Copied) (hpc : t.pc = .recvReset buffer) :
    buffer = cells t.uart.rxBuffer 0 buffer.length ∧ buffer.length ≤ t.uart.rxBufferIndex := by
  unfold Copied at h
  rwa [hpc] at h

/-- The buffer may only grow behind what has been copied. -/
theorem Task.Copied.grow {s : SimCtrl} (h : t.Copied)
    (hidx : t.uart.rxBufferIndex ≤ s.rxBufferIndex)
    (hcells : ∀ n ≤ t.uart.rxBufferIndex, cells s.rxBuffer 0 n = cells t.uart.rxBuffer 0 n) :
    Task.Copied ⟨s, t.pc⟩ := by
  unfold Task.Copied at h ⊢
  split at h
  · rename_i n buffer hpc
    rw [hpc]
    exact ⟨h.1.trans (hcells _ (h.2.1.trans h.2.2)).symm, h.2.1, h.2.2.trans hidx⟩
  · rename_i buffer hpc
    rw [hpc]
    exact ⟨h.1.trans (hcells _ h.2).symm, h.2.trans hidx⟩
  · trivial

theorem Task.step_copied (ht : t.Copied) (h : t.step e = some (t', ret)) : t'.Copied := by
  cases Task.step_rx h with
  | tick level => exact ht.grow (rxTimerCb_unread t.uart level).2.1 (rxTimerCb_unread t.uart level).2.2
  | enable | reset | ret => trivial
  | length maxLength =>
    refine ⟨(Ring.cells_self ..).symm, Nat.zero_le _, ?_⟩
    show _ ≤ t.uart.rxBufferIndex
    split
    · exact Nat.le_refl _
    · omega
  | copy n buffer hpc hlt =>
    obtain ⟨hbuf, -, hn⟩ := ht.of_copy hpc
    have hlen : (buffer ++ [t.uart.rxBuffer buffer.length]).length = buffer.length + 1 :=
      List.length_append
    refine ⟨?_, hlen.trans_le hlt, hn⟩
    rw [hlen, Ring.cells_succ, ← hbuf]
  | copied n buffer hpc =>
    obtain ⟨hbuf, hle, hn⟩ := ht.of_copy hpc
    exact ⟨hbuf, hle.trans hn⟩
  | other _ s pc ret hrx _ _ _ hpc =>
    obtain rfl | ⟨-, -, hcopy, hreset⟩ := hpc
    · exact ht.grow hrx.rxBufferIndex.ge fun n _ => by rw [hrx.rxBuffer]
    · unfold Task.Copied
      split
      · exact absurd ‹_› (hcopy _ _)
      · exact absurd ‹_› (hreset _)
      · trivial

end

section
variable {u₀ : List UInt8} {s s' : RxLog} {e : Event}

/-- A step keeps all bytes, unless it sets the index back over bytes that have not been copied. -/
theorem RxStep.lossless_iff (hs : s.task.Copied) (hl : Lossless u₀ s) (h : RxStep s e s') :
    Lossless u₀ s' ↔ ResetCond s e := by
  obtain ⟨⟨t, ret⟩, hstep, rfl⟩ := Option.map_eq_some_iff.1 h
  have hkeep : ResetCond s e → Lossless u₀ (s.next e t ret) →
      (Lossless u₀ (s.next e t ret) ↔ ResetCond s e) := fun hc hl' => ⟨fun _ => hc, fun _ => hl'⟩
  have hquiet : ∀ t : Task, (∀ level, e ≠ .rxTick level) → s.newlyStored t e = [] := by
    intro t htick
    cases e with
    | rxTick level => exact absurd rfl (htick level)
    | call | exec | txTick => rfl
  have hcond : (e = .exec → ∀ buffer, s.task.pc ≠ .recvReset buffer) → ResetCond s e := by
    intro hreset
    unfold ResetCond
    split
    · split
      · exact absurd ‹_› (hreset rfl _)
      · trivial
    · trivial
  -- a step that neither stores nor returns anything and leaves what is kept
  have hsame : ∀ (t : Task) (ret : Option CallRet), s.newlyStored t e = [] →
      RxLog.received ret ++ (t.pc.fetched ++ t.uart.unread) =
        s.task.pc.fetched ++ s.task.uart.unread → Lossless u₀ (s.next e t ret) := by
    intro t ret hstored heq
    unfold Lossless RxLog.next
    rw [hstored, List.append_nil, List.append_assoc, heq]
    exact hl
  cases Task.step_rx hstep with
  | tick level =>
    refine hkeep trivial ?_
    have hunread := (rxTimerCb_unread s.task.uart level).1
    unfold Lossless RxLog.next RxLog.newlyStored
    simp only [hunread, List.map_append, List.map_map]
    rw [← List.append_assoc u₀, ← hl]
    simp [RxLog.received, Function.comp_def]
  | enable enable hpc =>
    refine hkeep (hcond fun _ buffer h => by rw [hpc] at h; cases h) (hsame _ _ rfl ?_)
    rw [hpc]
    rfl
  | reset buffer hpc =>
    obtain ⟨hbuf, -⟩ := hs.of_reset hpc
    have hfetched : s.task.pc.fetched = [] := by rw [hpc]; rfl
    have hiff : ResetCond s .exec ↔ s.task.uart.rxBufferIndex = buffer.length := by
      unfold ResetCond
      simp only [hpc]
    rw [hiff]
    unfold Lossless at hl
    rw [hfetched, List.nil_append] at hl
    show s.returned ++ [] ++ (buffer ++ []) = u₀ ++ (s.stored ++ []).map Prod.fst ↔ _
    rw [List.append_nil, List.append_nil, List.append_nil, ← hl, List.append_right_inj]
    constructor
    · intro heq
      have hlen := congrArg List.length heq
      rw [SimCtrl.unread, Ring.length_cells, Nat.sub_zero] at hlen
      exact hlen.symm
    · intro heq
      rw [SimCtrl.unread, heq]
      exact hbuf
  | length maxLength hpc =>
    refine hkeep (hcond fun _ buffer h => by rw [hpc] at h; cases h) (hsame _ _ rfl ?_)
    rw [hpc]
    rfl
  | copy n buffer hpc | copied n buffer hpc =>
    refine hkeep (hcond fun _ buffer h => by rw [hpc] at h; cases h) (hsame _ _ rfl ?_)
    rw [hpc]
    rfl
  | ret buffer hpc =>
    refine hkeep (hcond fun _ buffer h => by rw [hpc] at h; cases h) (hsame _ _ rfl ?_)
    rw [hpc]
    rfl
  | other _ s' pc ret hrx htick _ hreset hpc hret =>
    refine hkeep (hcond hreset) (hsame _ _ (hquiet _ htick) ?_)
    have hunread : s'.unread = s.task.uart.unread := by
      rw [SimCtrl.unread, hrx.rxBuffer, hrx.rxBufferIndex]
      rfl
    have hfetched : pc.fetched = s.task.pc.fetched := by
      obtain rfl | ⟨h1, h2, -⟩ := hpc
      · rfl
      · rw [h1, h2]
    rw [hret, List.nil_append, hunread, hfetched]

end

/-- The calls of a run return all bytes exactly when none of them sets the index back over bytes
that it has not copied. -/
theorem lossless_iff_resetCond {t₀ : Task} (h₀ : t₀.pc = .idle) {es : List Event} {s : RxLog}
    (h : Run RxStep (.start t₀) es s) :
    (∀ es₁ s₁, es₁ <+: es → Run RxStep (.start t₀) es₁ s₁ → Lossless t₀.uart.unread s₁) ↔
      Run (Guarded ResetCond RxStep) (.start t₀) es s := by
  have hcopied : t₀.Copied := by
    unfold Task.Copied
    rw [h₀]
    trivial
  have hlossless : Lossless t₀.uart.unread (.start t₀) := by
    unfold Lossless RxLog.start
    rw [h₀]
    exact (List.append_nil _).symm
  have hstep : ∀ s e s', s.task.Copied → RxStep s e s' → s'.task.Copied := by
    intro s e s' hs hr
    obtain ⟨⟨t, ret⟩, hstep, rfl⟩ := Option.map_eq_some_iff.1 hr
    exact Task.step_copied hs hstep
  have hdet : ∀ s e s₁ s₂, RxStep s e s₁ → RxStep s e s₂ → s₁ = s₂ := fun _ _ _ _ => Trace.PFun.det
  exact h.passes_iff (J := fun s => s.task.Copied) (P := Lossless t₀.uart.unread) hdet hstep
    (fun _ _ _ => RxStep.lossless_iff) hcopied hlossless

/-- The frames of these bytes, and then a receive, which executes `n` statements. -/
def receiveRun (bytes : List UInt8) (maxLength n : Nat) : List Event :=
  rxTicks (bytes.flatMap frame) ++ .call (.receive maxLength) :: List.replicate n .exec

/-- Two bytes that a receive returns. -/
theorem lossless_small : ∃ s : RxLog, s.returned = [65, 66] ∧
    ∀ es₁ s₁, es₁ <+: receiveRun [65, 66] 2 7 → Run RxStep (.start .reset) es₁ s₁ →
      Lossless [] s₁ := by
  have heval : ((receiveRun [65, 66] 2 7).foldlM (Trace.guard ResetCond RxLog.step)
      (.start .reset)).map RxLog.returned = some [65, 66] := by
    decide +kernel
  obtain ⟨s, hs, heq⟩ := Option.map_eq_some_iff.1 heval
  have hrun := Trace.run_guarded_of_foldlM hs
  have hidle : Task.reset.pc = .idle := rfl
  exact ⟨s, heq, (lossless_iff_resetCond hidle (hrun.mono fun _ _ _ h => h.2)).2 hrun⟩

/-- A receive that has room for one of two bytes: the other one is lost. -/
theorem reception_fails : ¬ ∀ (es : List Event) (s : RxLog),
    Run RxStep (.start .reset) es s → Lossless [] s := by
  intro h
  have heval : ((receiveRun [65, 66] 1 6).foldlM RxLog.step (.start .reset)).map
      (fun s => (s.returned ++ (s.task.pc.fetched ++ s.task.uart.unread), s.stored)) =
        some ([65], [(65, 10), (66, 20)]) := by
    decide +kernel
  obtain ⟨s, hs, heq⟩ := Option.map_eq_some_iff.1 heval
  obtain ⟨hkept, hstored⟩ := Prod.mk.inj heq
  have hlossless := h _ s (Trace.run_pfun_iff.2 hs)
  unfold Lossless at hlossless
  rw [hkept, hstored] at hlossless
  exact absurd hlossless (by decide)

end AppXd.SimUart
