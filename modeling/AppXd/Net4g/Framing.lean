import AppXd.Net4g.RecvSpec

/-!
# Framing does not depend on the cuts

The commands that the receive path enqueues are the frames of the modem's stream, however the
stream is cut into deliveries and however many calls run between them, with the exceptions that
`FramingOk` names: a window is dropped while a head is still arriving, a keyword is searched across
the end of the ring in a window that is not `Crossing`, the tail keyword straddles that end, or a
wrapping delivery overflows the callback's counter.
-/

namespace AppXd.Net4g

open Seq (firstAt OccursAt)
open Trace (Run Guarded)

/-- The commands of a stream. -/
def cmdsOf (c : Config) (stream : List UInt8) : List (List UInt8) :=
  Seq.frames (ctrlHead c) netMqttCtrlCmdTail stream

/-- A delivery of at least one byte that leaves no more unread bytes than the ring holds. -/
def Delivers (c : Config) (s : Link) : LinkEvent → Prop
  | .uart len => 1 ≤ len ∧ len ≤ s.modem.length ∧
      Ring.unread c.uartRecvFifoSize s.recv.fifo.head s.recv.fifo.tail + len < c.uartRecvFifoSize
  | .call => True

/-- No head of the stream begins in the window and ends behind it. -/
def NoCutHead (c : Config) (s : Link) : Prop :=
  ∀ p < (s.recv.window c).length, (s.recv.window c).length < p + (ctrlHead c).length →
    ¬ OccursAt (ctrlHead c) (s.recv.window c ++ s.modem) p

/-- The queue holds the frames of the stream, each in an entry of its own. -/
def QueueIsFrames (c : Config) (stream : List UInt8) (r : Recv) : Prop :=
  r.queue c = (cmdsOf c stream).map (cmdEntry c)

/-- The frames fit the buffers. -/
structure FramesFit (c : Config) (stream : List UInt8) : Prop where
  size : ∀ f ∈ cmdsOf c stream, f.length ≤ c.uartRecvCmdSize
  count : (cmdsOf c stream).length < c.uartRecvQueuSize

/-- Framing without exceptions: whatever the cut and the schedule, enough calls after the last
delivery have enqueued the frames of a stream that holds neither notice. -/
def ChunkIndependent (c : Config) : Prop :=
  ∀ (s₀ s₁ s : Link) (es : List LinkEvent) (n : Nat), s₀.Idle c →
    firstAt (netMqttDisconnectCmdHead c.moduleType) s₀.modem = none →
    firstAt (CStr.ascii "boot.rom") s₀.modem = none → FramesFit c s₀.modem →
    Run (Guarded (Delivers c) (Trace.Fun (Link.step c))) s₀ es s₁ → s₁.modem = [] →
    Run (Guarded (Delivers c) (Trace.Fun (Link.step c))) s₁ (List.replicate n .call) s →
    4 * c.uartRecvFifoSize ≤ n → QueueIsFrames c s₀.modem s.recv

/-- The steps on which framing is right. -/
def FramingOk (c : Config) (s : Link) : LinkEvent → Prop
  | .uart len => 1 ≤ len ∧ len ≤ s.modem.length ∧ Fits c s.recv.fifo (s.modem.take len)
  | .call => SearchOk c s.recv ∧ (Discards c s.recv → NoCutHead c s)

instance (c : Config) (s : Link) : Decidable (NoCutHead c s) := by
  unfold NoCutHead
  infer_instance

instance (c : Config) (s : Link) (e : LinkEvent) : Decidable (FramingOk c s e) :=
  match e with
  | .uart _ => inferInstanceAs (Decidable (_ ∧ _ ∧ _))
  | .call => inferInstanceAs (Decidable (_ ∧ (_ → _)))

/-- What is enqueued, followed by the commands that the unread bytes and the rest of the stream
still hold, is `cmds`. -/
structure Framed (c : Config) (cmds : List (List UInt8)) (s : Link) : Prop where
  phase : Phase c s.recv
  middle : s.recv.checkPubMiddleFlag = false
  ack : s.recv.checkPubAckFlag = false
  uart_nil : s.uart = []
  qHead_lt : s.recv.qHead < c.uartRecvQueuSize
  qTail_lt : s.recv.qTail < c.uartRecvQueuSize
  cmds : s.recv.queue c ++ (cmdsOf c (s.recv.window c ++ s.modem)).map (cmdEntry c) =
    cmds.map (cmdEntry c)

section
variable {c : Config}

theorem ctrlHead_ne_nil : ctrlHead c ≠ [] := (keyword_ctrlCmdHead c.moduleType).ne_nil

theorem ctrlTail_ne_nil : netMqttCtrlCmdTail ≠ [] := keyword_ctrlCmdTail.ne_nil

theorem Link.Idle.framed {s : Link} (h : s.Idle c) : Framed c (cmdsOf c s.modem) s := by
  have hw : s.recv.window c = [] := by
    rw [Recv.window, Fifo.window, h.head_eq]
    exact Ring.window_self ..
  obtain ⟨hq, hqt⟩ := h.queue
  refine ⟨.early ⟨h.head_eq ▸ h.tail_lt.le, h.tail_lt, h.data_tail⟩ (by rw [h.step_eq]; decide),
    h.middle, h.ack, h.uart_nil, hq ▸ hqt, hqt, ?_⟩
  rw [hw, List.nil_append, Recv.queue, hq, Ring.window_self, List.nil_append]

/-- A delivery moves bytes from the stream to the window. -/
theorem Framed.uart {cmds : List (List UInt8)} {s : Link} (h : Framed c cmds s) {len : Nat}
    (hok : FramingOk c s (.uart len)) : Framed c cmds (s.step c (.uart len)) := by
  obtain ⟨-, hlen, hfit⟩ := hok
  have htake : (s.modem.take len).length = len := by rw [List.length_take, Nat.min_eq_left hlen]
  obtain ⟨f, hf, hwf, hh, hw⟩ := net4gUartRecvCb_spec h.phase.wf hfit
  have hstep : s.step c (.uart len) =
      { s with recv := { s.recv with fifo := f }, uart := [], modem := s.modem.drop len } := by
    rw [htake] at hf
    simp only [Link.step, Link.deliver, h.uart_nil, List.nil_append, hf]
  rw [hstep]
  refine ⟨h.phase.deliver hwf hh hw, h.middle, h.ack, rfl, h.qHead_lt, h.qTail_lt, ?_⟩
  have hcmds := h.cmds
  rw [← List.take_append_drop len s.modem, ← List.append_assoc] at hcmds
  simp only [Recv.window, hw]
  exact hcmds

/-- Dropping a window in which no head begins. -/
theorem cmdsOf_drop {w rest : List UInt8} {p : Nat} (hp : p ≤ w.length)
    (h : ∀ q < p, ¬ OccursAt (ctrlHead c) (w ++ rest) q) :
    cmdsOf c (w.drop p ++ rest) = cmdsOf c (w ++ rest) := by
  have hdrop : w.drop p ++ rest = (w ++ rest).drop p := by
    rw [List.drop_append_of_le_length hp]
  rw [hdrop]
  exact Seq.frames_drop ctrlHead_ne_nil ctrlTail_ne_nil h

/-- What one call does to the queue and to the commands still to come. The third part is a step
towards the end of the window, which every call makes that has a command left to find. -/
theorem RecvOutcome.framed {s : Link} {info : SignalInfo} {g : GetRecvRet}
    (hp : Phase c s.recv) (hcut : Discards c s.recv → NoCutHead c s)
    (h : RecvOutcome c s.recv info g) :
    g.recv.checkPubMiddleFlag = s.recv.checkPubMiddleFlag ∧
      g.recv.checkPubAckFlag = s.recv.checkPubAckFlag ∧
      g.recv.qHead = s.recv.qHead ∧
      ((g.recv.qTail = s.recv.qTail ∧ g.recv.cmdQ = s.recv.cmdQ ∧
          cmdsOf c (g.recv.window c ++ s.modem) = cmdsOf c (s.recv.window c ++ s.modem)) ∨
        ∃ bs, g.recv.qTail = (s.recv.qTail + 1) % c.uartRecvQueuSize ∧
          g.recv.cmdQ = Ring.poke s.recv.cmdQ s.recv.qTail (cmdEntry c bs) ∧
          cmdsOf c (s.recv.window c ++ s.modem) =
            bs :: cmdsOf c (g.recv.window c ++ s.modem)) ∧
      (cmdsOf c (s.recv.window c) ≠ [] →
        4 * (g.recv.window c).length + (3 - g.recv.cmdGetStep) <
          4 * (s.recv.window c).length + (3 - s.recv.cmdGetStep)) := by
  cases h with
  | idle _ h0 hw =>
    refine ⟨rfl, rfl, rfl, .inl ⟨rfl, rfl, rfl⟩, fun hne => absurd ?_ hne⟩
    rw [hw]
    exact Seq.frames_nil ctrlHead_ne_nil
  | start _ h0 =>
    refine ⟨rfl, rfl, rfl, .inl ⟨rfl, rfl, rfl⟩, fun _ => ?_⟩
    rw [h0]
    exact Nat.add_lt_add_left (show 3 - 1 < 3 - 0 by decide) _
  | noHead i hi hd =>
    obtain ⟨f, -, hr⟩ := headFail_recv (c := c) { s.recv with cmdHeadIndex := i, cmdGetStep := 0 }
      info hi
    have hnone := hd.none
    rw [hr]
    have hw : Recv.window c { s.recv with
        cmdHeadIndex := i, cmdGetStep := 0, fifo := { f with head := f.tail } } = [] :=
      Fifo.window_empty c f
    refine ⟨rfl, rfl, rfl, .inl ⟨rfl, rfl, ?_⟩, fun hne => absurd ?_ hne⟩
    · rw [hw]
      have hdrop : cmdsOf c ((s.recv.window c).drop _ ++ s.modem) = _ :=
        cmdsOf_drop (Nat.le_refl (s.recv.window c).length) fun q hq ho => by
          rcases Nat.lt_or_ge (s.recv.window c).length (q + (ctrlHead c).length) with hlt | hge
          · exact hcut hd q hq hlt ho
          · exact Seq.not_occursAt_of_firstAt_none ctrlHead_ne_nil hnone q
              ((Seq.occursAt_append hge).1 ho)
      rwa [List.drop_length] at hdrop
    · exact Seq.frames_of_none hnone
  | head p _ h1 hfirst =>
    obtain ⟨-, -, hw⟩ := Recv.window_head hp.wf (keyword_ctrlCmdHead c.moduleType) hfirst
    have hlen := Seq.firstAt_le_length hfirst ctrlHead_ne_nil
    refine ⟨rfl, rfl, rfl, .inl ⟨rfl, rfl, ?_⟩, fun _ => ?_⟩
    · simp only [Recv.window, hw]
      refine cmdsOf_drop (by exact Nat.le_trans (Nat.le_add_right ..) hlen) fun q hq ho => ?_
      refine Seq.not_occursAt_of_lt_firstAt hfirst hq ((Seq.occursAt_append ?_).1 ho)
      omega
    · simp only [Recv.window, hw, h1, List.length_drop]
      omega
  | noTail i _ h2 hnone =>
    obtain ⟨-, ho⟩ := hp.two h2
    refine ⟨rfl, rfl, rfl, .inl ⟨rfl, rfl, rfl⟩, fun hne => absurd ?_ hne⟩
    have hfirst : firstAt (ctrlHead c) (s.recv.window c) = some 0 :=
      Seq.firstAt_eq_some ctrlHead_ne_nil ho fun q hq => absurd hq (Nat.not_lt_zero q)
    exact Seq.frames_of_tail_none hfirst (by rwa [List.drop_zero])
  | tail q _ h2 =>
    refine ⟨rfl, rfl, rfl, .inl ⟨rfl, rfl, rfl⟩, fun _ => ?_⟩
    simp only [h2]
    exact Nat.add_lt_add_left (by decide) _
  | cmd q _ h3 hq =>
    obtain ⟨-, ho, -⟩ := hp.three h3
    have hw := hp.window_drop h3 hq
    have hlen := Seq.firstAt_le_length hq ctrlTail_ne_nil
    rw [length_ctrlCmdTail] at hlen
    refine ⟨rfl, rfl, rfl, .inr ⟨(s.recv.window c).take (q + 2), rfl, ?_, ?_⟩, fun _ => ?_⟩
    · simp only [enqueueCmd, CStr.take_copyInto, cmdEntry]
    · have hhead : firstAt (ctrlHead c) (s.recv.window c ++ s.modem) = some 0 :=
        Seq.firstAt_eq_some ctrlHead_ne_nil (ho.append _) fun q hq => absurd hq (Nat.not_lt_zero q)
      have htail : firstAt netMqttCtrlCmdTail ((s.recv.window c ++ s.modem).drop 0) = some q := by
        rw [List.drop_zero]
        exact Seq.firstAt_append ctrlTail_ne_nil hq _
      rw [cmdsOf, Seq.frames_cons ctrlHead_ne_nil ctrlTail_ne_nil hhead htail, List.drop_zero,
        Nat.zero_add, length_ctrlCmdTail, List.take_append_of_le_length hlen,
        List.drop_append_of_le_length hlen]
      simp only [enqueueCmd, Recv.window, hw]
      rfl
    · simp only [enqueueCmd, Recv.window, hw, h3, List.length_drop]
      have := hlen
      simp only [Recv.window] at this
      omega

theorem length_queue (r : Recv) :
    (r.queue c).length = Ring.unread c.uartRecvQueuSize r.qHead r.qTail := Ring.length_window ..

/-- A call keeps `Framed`. -/
theorem Framed.call {cmds : List (List UInt8)} {s : Link} (h : Framed c cmds s)
    (hcmds : cmds.length < c.uartRecvQueuSize) (hok : FramingOk c s .call) :
    Framed c cmds (s.step c .call) := by
  obtain ⟨hs, hcut⟩ := hok
  have hout : RecvOutcome c s.recv s.info (s.received c) := by
    rw [Link.received, getNet4GRecvCmd_idle h.middle h.ack]
    exact recvPath_cases h.phase hs
  obtain ⟨hm, ha, hqh, hq, -⟩ := hout.framed h.phase hcut
  have hphase := hout.phase h.phase hs
  have hall := h.cmds
  rcases hq with ⟨hqt, hcq, hrest⟩ | ⟨bs, hqt, hcq, hrest⟩
  · refine ⟨hphase, hm.trans h.middle, ha.trans h.ack, h.uart_nil, hqh ▸ h.qHead_lt,
      hqt ▸ h.qTail_lt, ?_⟩
    show Recv.queue c (s.received c).recv ++ _ = _
    rw [Recv.queue, hqt, hcq, hqh]
    show _ ++ (cmdsOf c ((s.received c).recv.window c ++ s.modem)).map _ = _
    rw [hrest]
    exact hall
  · have hroom : (s.recv.queue c).length + 1 < c.uartRecvQueuSize := by
      have hlen := congrArg List.length hall
      rw [hrest] at hlen
      simp only [List.length_append, List.length_map, List.length_cons] at hlen
      omega
    refine ⟨hphase, hm.trans h.middle, ha.trans h.ack, h.uart_nil, hqh ▸ h.qHead_lt,
      hqt ▸ Nat.mod_lt _ (Nat.zero_lt_of_lt h.qTail_lt), ?_⟩
    rw [length_queue] at hroom
    have hpush : Ring.window (Ring.poke s.recv.cmdQ s.recv.qTail (cmdEntry c bs)) _ _ _ = _ :=
      Ring.window_push (cmdEntry c bs) h.qHead_lt h.qTail_lt hroom
    show Recv.queue c (s.received c).recv ++ _ = _
    rw [Recv.queue, hqt, hcq, hqh, hpush, List.append_assoc, List.singleton_append]
    rw [hrest, List.map_cons] at hall
    exact hall

/-- Distance to the next state in which no command is left. -/
def Link.measure (c : Config) (s : Link) : Nat :=
  4 * (s.recv.window c).length + (3 - s.recv.cmdGetStep)

theorem Framed.measure_lt {cmds : List (List UInt8)} {s : Link} (h : Framed c cmds s) :
    s.measure c < 4 * c.uartRecvFifoSize := by
  have hhead := h.phase.wf.head_le
  have htail := h.phase.wf.tail_lt
  have hun := Ring.unread_cases c.uartRecvFifoSize s.recv.fifo.head s.recv.fifo.tail
  rw [Link.measure, Recv.window, Fifo.length_window]
  omega

/-- With the whole stream delivered, a call either shortens the distance or has nothing to find. -/
theorem Framed.call_measure {cmds : List (List UInt8)} {s : Link} (h : Framed c cmds s)
    (hs : s.modem = []) (hok : FramingOk c s .call) :
    (cmdsOf c (s.recv.window c) = [] →
      cmdsOf c ((s.step c .call).recv.window c) = []) ∧
    (cmdsOf c (s.recv.window c) ≠ [] → (s.step c .call).measure c < s.measure c) := by
  obtain ⟨hsearch, hcut⟩ := hok
  have hout : RecvOutcome c s.recv s.info (s.received c) := by
    rw [Link.received, getNet4GRecvCmd_idle h.middle h.ack]
    exact recvPath_cases h.phase hsearch
  obtain ⟨-, -, -, hq, hlt⟩ := hout.framed h.phase hcut
  rw [hs, List.append_nil, List.append_nil] at hq
  refine ⟨fun hnil => ?_, hlt⟩
  rcases hq with ⟨-, -, hrest⟩ | ⟨bs, -, -, hrest⟩
  · exact hrest.trans hnil
  · rw [hnil] at hrest
    cases hrest

/-- Enough calls after the last delivery find every command. -/
theorem Framed.settles {cmds : List (List UInt8)} (hcmds : cmds.length < c.uartRecvQueuSize)
    {n : Nat} {s s' : Link} (h : Framed c cmds s) (hs : s.modem = [])
    (hrun : Run (Guarded (FramingOk c) (Trace.Fun (Link.step c))) s (List.replicate n .call) s') :
    Framed c cmds s' ∧ s'.modem = [] ∧
      (s.measure c < n ∨ cmdsOf c (s.recv.window c) = [] →
        cmdsOf c (s'.recv.window c) = []) := by
  induction n generalizing s with
  | zero =>
    cases hrun
    exact ⟨h, hs, fun hn => hn.resolve_left (Nat.not_lt_zero _)⟩
  | succ n ih =>
    rcases hrun with _ | ⟨⟨hok, rfl⟩, hrest⟩
    obtain ⟨hstay, hlt⟩ := h.call_measure hs hok
    obtain ⟨hf, hm, himp⟩ := ih (h.call hcmds hok) hs hrest
    refine ⟨hf, hm, fun hn => himp ?_⟩
    by_cases hnil : cmdsOf c (s.recv.window c) = []
    · exact .inr (hstay hnil)
    · have := hn.resolve_right hnil
      have := hlt hnil
      exact .inl (by omega)

/-- The frames of the stream stay accounted for along every run. -/
theorem Framed.run {cmds : List (List UInt8)} (hcmds : cmds.length < c.uartRecvQueuSize)
    {es : List LinkEvent} {s s' : Link} (h : Framed c cmds s)
    (hrun : Run (Guarded (FramingOk c) (Trace.Fun (Link.step c))) s es s') : Framed c cmds s' :=
  hrun.inv (I := Framed c cmds) (fun t e t' ht hstep => by
    obtain ⟨hok, rfl⟩ := hstep
    cases e with
    | uart len => exact ht.uart hok
    | call => exact ht.call hcmds hok) h

/-- Every cut of the stream and every schedule of calls enqueues the frames of the stream, in
order and each once, as long as the steps meet `FramingOk`: after the last delivery either
enough calls were made, or so many that another one changes nothing. -/
theorem framing_of_framingOk {s₀ s₁ s : Link} {es : List LinkEvent} {n : Nat} (h₀ : s₀.Idle c)
    (hfit : FramesFit c s₀.modem)
    (hrun : Run (Guarded (FramingOk c) (Trace.Fun (Link.step c))) s₀ es s₁)
    (hdone : s₁.modem = [])
    (hcalls : Run (Guarded (FramingOk c) (Trace.Fun (Link.step c))) s₁
      (List.replicate n .call) s)
    (hn : 4 * c.uartRecvFifoSize ≤ n ∨ FramingOk c s .call ∧ s.step c .call = s) :
    QueueIsFrames c s₀.modem s.recv ∧
      ∀ e ∈ s.recv.queue c, e.qData.length = c.uartRecvCmdSize := by
  have h₁ := h₀.framed.run hfit.count hrun
  obtain ⟨hf, hm, himp⟩ := h₁.settles hfit.count hdone hcalls
  have hnil : cmdsOf c (s.recv.window c) = [] := by
    rcases hn with hn | ⟨hok, hfix⟩
    · have := h₁.measure_lt
      exact himp (.inl (by omega))
    · by_contra hne
      have hlt := (hf.call_measure hm hok).2 hne
      rw [hfix] at hlt
      exact Nat.lt_irrefl _ hlt
  have hcmds := hf.cmds
  rw [hm, List.append_nil, hnil, List.map_nil, List.append_nil] at hcmds
  refine ⟨hcmds, fun e he => ?_⟩
  rw [hcmds, List.mem_map] at he
  obtain ⟨f, hmem, rfl⟩ := he
  exact CStr.length_copyInto (hfit.size f hmem)

end

/-! ## On a small ring -/

/-- A message of the second family. -/
def smallMessage : List UInt8 := CStr.ascii "+QMTRECV:0\r\n"

/-- The message cut behind its head. -/
def smallEvents : List LinkEvent := [.uart 9, .call, .uart 3]

theorem framing_of_framingOk_small :
    QueueIsFrames smallConfig smallMessage
      ((List.replicate 64 .call).foldl (Link.step smallConfig)
        (smallEvents.foldl (Link.step smallConfig) (.reset smallMessage))).recv :=
  (framing_of_framingOk (Link.reset_idle smallConfig smallMessage)
    ⟨by decide +kernel, by decide +kernel⟩ (Trace.run_of_checks (by decide +kernel))
    (by decide +kernel) (Trace.run_of_checks (by decide +kernel)) (.inl (by decide))).1

instance (c : Config) (s : Link) (e : LinkEvent) : Decidable (Delivers c s e) :=
  match e with
  | .uart _ => inferInstanceAs (Decidable (_ ∧ _ ∧ _))
  | .call => inferInstanceAs (Decidable True)

/-- The first five bytes arrive, the receive path looks at them, the rest arrives: the message is
lost, because its beginning was dropped as a window without a head. -/
theorem chunkIndependent_fails : ¬ ChunkIndependent smallConfig := by
  intro h
  have hruns := h (.reset smallMessage) _ _ [.uart 5, .call, .uart 7] 64 (Link.reset_idle ..)
    (by decide) (by decide) ⟨by decide +kernel, by decide +kernel⟩
    (Trace.run_of_checks (by decide +kernel)) (by decide +kernel)
    (Trace.run_of_checks (by decide +kernel)) (by decide)
  revert hruns
  unfold QueueIsFrames
  decide +kernel

end AppXd.Net4g
