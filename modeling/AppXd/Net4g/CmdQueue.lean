import AppXd.Net4g.Communication
import AppXd.Net4g.RecvSpec

/-!
# The queue of received commands

`get_net4G_recv_cmd` appends a command without asking whether the ring has room, and
`module_4g_communication_process` takes one only in its step 1. In a run nothing is lost exactly
when every enqueue finds a free entry besides the one that keeps the ends apart, and a command that
its entry can hold.
-/

namespace AppXd.Net4g

open Trace (Run Guarded PFun)

/-- The command queue is the same in both states. -/
structure SameQueue (r r' : Recv) : Prop where
  cmdQ : r'.cmdQ = r.cmdQ
  qHead : r'.qHead = r.qHead
  qTail : r'.qTail = r.qTail

/-- The bytes that an entry's array holds of its command, and the command's length. -/
def CmdQ.content (size : Nat) (e : CmdQ) : List UInt8 × Nat := ((e.qData.take size).take e.qLen, e.qLen)

namespace Recv

variable (c : Config) (r : Recv)

/-- The command that the next call of `get_net4G_recv_cmd` enqueues. -/
def enqueued : Option (List UInt8) :=
  if r.Unchecked ∧ r.cmdGetStep = 3 then some (cmdBytes c r) else none

/-- The contents of the unread entries, oldest first. -/
def pending : List (List UInt8 × Nat) := (r.queue c).map (CmdQ.content c.uartRecvCmdSize)

/-- Both ends of the command queue stand in the ring. -/
structure QueueWf : Prop where
  head : r.qHead < c.uartRecvQueuSize
  tail : r.qTail < c.uartRecvQueuSize

end Recv

section
variable {c : Config} {r r' : Recv} {info : SignalInfo}

theorem SameQueue.refl (r : Recv) : SameQueue r r := ⟨rfl, rfl, rfl⟩

theorem SameQueue.pending (h : SameQueue r r') : r'.pending c = r.pending c := by
  unfold Recv.pending Recv.queue
  rw [h.cmdQ, h.qHead, h.qTail]

theorem SameQueue.wf (h : SameQueue r r') (hr : r.QueueWf c) : r'.QueueWf c :=
  ⟨h.qHead ▸ hr.head, h.qTail ▸ hr.tail⟩

theorem Recv.length_pending :
    (r.pending c).length = Ring.unread c.uartRecvQueuSize r.qHead r.qTail := by
  rw [Recv.pending, List.length_map, Recv.queue, Ring.length_window]

/-! ## One enqueue -/

/-- No step but the last one returns 1, and none of them touches the queue. -/
theorem recvCmdFromFifo_sameQueue :
    SameQueue r (recvCmdFromFifo c (ctrlHead c) netMqttCtrlCmdTail r).recv ∧
      ((recvCmdFromFifo c (ctrlHead c) netMqttCtrlCmdTail r).ret = 1 → r.cmdGetStep = 3) := by
  obtain h | h | h | h | ⟨n, h⟩ := cmdGetStep_cases r.cmdGetStep
  · rw [recvCmdFromFifo_zero h]
    split
    · exact ⟨.refl r, by rintro ⟨⟩⟩
    split
    · exact ⟨⟨rfl, rfl, rfl⟩, by rintro ⟨⟩⟩
    · exact ⟨.refl r, by rintro ⟨⟩⟩
  · rw [recvCmdFromFifo, h]
    simp only
    split <;> exact ⟨⟨rfl, rfl, rfl⟩, by rintro ⟨⟩⟩
  · rw [recvCmdFromFifo, h]
    simp only
    split <;> exact ⟨⟨rfl, rfl, rfl⟩, by rintro ⟨⟩⟩
  · rw [recvCmdFromFifo, h]
    exact ⟨⟨rfl, rfl, rfl⟩, fun _ => rfl⟩
  · rw [recvCmdFromFifo, h]
    exact ⟨⟨rfl, rfl, rfl⟩, by rintro ⟨⟩⟩

theorem recvPath_sameQueue (h : r.cmdGetStep ≠ 3) : SameQueue r (recvPath c r info).recv := by
  obtain ⟨hsame, hone⟩ := recvCmdFromFifo_sameQueue (c := c) (r := r)
  unfold recvPath
  simp only
  split
  · exact absurd (hone ‹_›) h
  · obtain ⟨g, -, hrecv⟩ := headFail_recv (c := c)
      (recvCmdFromFifo c (ctrlHead c) netMqttCtrlCmdTail r).recv info
      (recvCmdFromFifo c (ctrlHead c) netMqttCtrlCmdTail r).hi
    rw [hrecv]
    exact ⟨hsame.cmdQ, hsame.qHead, hsame.qTail⟩
  · exact hsame

/-- Step 3 puts the command behind the queue's tail. -/
theorem recvPath_enqueues (h : r.cmdGetStep = 3) :
    SameQueue { r with
        cmdQ := Ring.poke r.cmdQ r.qTail (cmdEntry c (cmdBytes c r))
        qTail := (r.qTail + 1) % c.uartRecvQueuSize } (recvPath c r info).recv := by
  unfold recvPath recvCmdFromFifo
  rw [h]
  refine ⟨?_, rfl, rfl⟩
  simp only [enqueueCmd, cmdEntry, CStr.take_copyInto]

theorem getNet4GRecvCmd_of_none (h : r.enqueued c = none) :
    SameQueue r (getNet4GRecvCmd c r info).recv := by
  unfold getNet4GRecvCmd
  split
  · simp only
    split <;> exact ⟨rfl, rfl, rfl⟩
  split
  · simp only
    split <;> exact ⟨rfl, rfl, rfl⟩
  · refine recvPath_sameQueue fun h3 => ?_
    have hun : r.Unchecked := ⟨Bool.eq_false_iff.2 ‹_›, Bool.eq_false_iff.2 ‹_›⟩
    rw [Recv.enqueued, if_pos ⟨hun, h3⟩] at h
    cases h

theorem getNet4GRecvCmd_of_some {bs : List UInt8} (h : r.enqueued c = some bs) :
    SameQueue { r with
        cmdQ := Ring.poke r.cmdQ r.qTail (cmdEntry c bs)
        qTail := (r.qTail + 1) % c.uartRecvQueuSize } (getNet4GRecvCmd c r info).recv := by
  unfold Recv.enqueued at h
  split at h
  · rename_i hc
    cases h
    rw [getNet4GRecvCmd_idle hc.1.1 hc.1.2]
    exact recvPath_enqueues hc.2
  · cases h

/-- An entry holds a command of its size, and no longer one. -/
theorem cmdEntry_content (bs : List UInt8) :
    (cmdEntry c bs).content c.uartRecvCmdSize = (bs, bs.length) ↔ bs.length ≤ c.uartRecvCmdSize := by
  unfold CmdQ.content cmdEntry
  constructor
  · intro h
    have hlen := congrArg (fun p => p.1.length) h
    simp only [List.length_take] at hlen
    omega
  · intro h
    have hsize : (CStr.copyInto c.uartRecvCmdSize bs).length = c.uartRecvCmdSize := by
      unfold CStr.copyInto
      rw [List.length_append, List.length_replicate]
      omega
    rw [List.take_of_length_le hsize.le, CStr.take_copyInto]

/-- With room for it, the call appends the entry to the pending ones. -/
theorem Recv.pending_enqueue (info : SignalInfo) (hr : r.QueueWf c) {bs : List UInt8} (h : r.enqueued c = some bs)
    (hroom : (r.pending c).length + 1 < c.uartRecvQueuSize) :
    (getNet4GRecvCmd c r info).recv.pending c =
      r.pending c ++ [(cmdEntry c bs).content c.uartRecvCmdSize] := by
  rw [Recv.length_pending] at hroom
  rw [(getNet4GRecvCmd_of_some h).pending]
  unfold Recv.pending Recv.queue
  simp only
  rw [Ring.window_push _ hr.head hr.tail hroom, List.map_append, List.map_singleton]

/-- Without room the queue looks empty. -/
theorem Recv.pending_enqueue_full (info : SignalInfo) (hr : r.QueueWf c) {bs : List UInt8}
    (h : r.enqueued c = some bs) (hroom : ¬ (r.pending c).length + 1 < c.uartRecvQueuSize) :
    (getNet4GRecvCmd c r info).recv.pending c = [] := by
  rw [Recv.length_pending] at hroom
  have hlt := Ring.unread_lt hr.head hr.tail
  rw [(getNet4GRecvCmd_of_some h).pending]
  unfold Recv.pending Recv.queue
  simp only
  rw [Ring.window_push_full _ hr.head hr.tail (by omega), List.map_nil]

theorem Recv.QueueWf.received (hr : r.QueueWf c) : (getNet4GRecvCmd c r info).recv.QueueWf c := by
  cases h : r.enqueued c with
  | none => exact (getNet4GRecvCmd_of_none h).wf hr
  | some bs =>
    refine (getNet4GRecvCmd_of_some h).wf ⟨hr.head, ?_⟩
    exact Nat.mod_lt _ (Nat.zero_lt_of_lt hr.tail)

end

/-! ## One call -/

/-- The entry that the call takes from the queue. -/
def Comm.dequeued (E : CommEnv) (s : Comm) : Option CmdQ :=
  let r := (s.received E).recv
  if (s.received E).ret ≠ 10 ∧ s.communicateStep = 1 ∧ r.qHead ≠ r.qTail then some (r.cmdQ r.qHead)
  else none

section
variable {E : CommEnv} {s t : Comm} {x : CallInput E.config} {ret : CommRet}

theorem Comm.takeCmd_pending (hr : s.recv.QueueWf E.config) (hne : s.recv.qHead ≠ s.recv.qTail)
    (buf : List UInt8) :
    s.recv.pending E.config = s.headCmd.content E.config.uartRecvCmdSize ::
        (s.takeCmd E buf).recv.pending E.config ∧
      (s.takeCmd E buf).recv.QueueWf E.config := by
  refine ⟨?_, Nat.mod_lt _ (Nat.zero_lt_of_lt hr.head), hr.tail⟩
  unfold Recv.pending Recv.queue takeCmd
  simp only
  rw [Ring.window_pop_poke _ hr.head hr.tail, Ring.window_pop hr.head hr.tail hne, List.map_cons]
  rfl

theorem Comm.afterSend_sameQueue : SameQueue s.recv (s.afterSend E).recv := by
  obtain ⟨_, _, _, _, h⟩ := (s.sendData_outcome E).recv_eq
  unfold afterSend
  rw [h]
  exact ⟨rfl, rfl, rfl⟩

/-- A call takes the oldest of the entries that are pending after its reception, or none. -/
theorem call_pending (hr : s.recv.QueueWf E.config)
    (h : module4gCommunicationProcess E x s = some (ret, t)) :
    (s.received E).recv.pending E.config =
        (s.dequeued E).toList.map (CmdQ.content E.config.uartRecvCmdSize) ++
          t.recv.pending E.config ∧
      t.recv.QueueWf E.config := by
  have hwf : (s.received E).recv.QueueWf E.config := hr.received
  have hcall := Comm.call_outcome h
  -- a call in step 1 that finds the queue empty takes nothing, like those in the other steps
  have hnone : s.communicateStep ≠ 1 ∨ (s.received E).recv.qHead = (s.received E).recv.qTail →
      s.dequeued E = none := fun h => if_neg fun ⟨_, h1, hne⟩ => h.elim (· h1) hne
  have hkeep : s.dequeued E = none → SameQueue (s.received E).recv t.recv →
      (s.received E).recv.pending E.config =
          (s.dequeued E).toList.map (CmdQ.content E.config.uartRecvCmdSize) ++
            t.recv.pending E.config ∧ t.recv.QueueWf E.config := by
    intro hd hsame
    rw [hd, hsame.pending]
    exact ⟨rfl, hsame.wf hwf⟩
  have htake : ∀ (u : Comm) buf, u.recv = (s.received E).recv → (s.received E).ret ≠ 10 →
      s.communicateStep = 1 → (s.received E).recv.qHead ≠ (s.received E).recv.qTail →
      t.recv = (u.takeCmd E buf).recv →
      (s.received E).recv.pending E.config =
          (s.dequeued E).toList.map (CmdQ.content E.config.uartRecvCmdSize) ++
            t.recv.pending E.config ∧ t.recv.QueueWf E.config := by
    intro u buf hu h10 h1 hne ht
    have hd : s.dequeued E = some u.headCmd := by
      rw [Comm.headCmd, hu]
      exact if_pos ⟨h10, h1, hne⟩
    rw [← hu] at hne hwf ⊢
    obtain ⟨hpop, hwf'⟩ := Comm.takeCmd_pending hwf hne buf
    rw [hd, ht, hpop]
    exact ⟨rfl, hwf'⟩
  have hsent : s.communicateStep = 2 → t.recv = ((s.entered E x).afterSend E).recv →
      (s.received E).recv.pending E.config =
          (s.dequeued E).toList.map (CmdQ.content E.config.uartRecvCmdSize) ++
            t.recv.pending E.config ∧ t.recv.QueueWf E.config := by
    intro h2 ht
    have hsame := Comm.afterSend_sameQueue (E := E) (s := s.entered E x)
    rw [Comm.entered_recv] at hsame
    exact hkeep (hnone (.inl (by rw [h2]; decide))) (ht ▸ hsame)
  have heq : ∀ u : Comm, u.recv = (s.received E).recv → SameQueue (s.received E).recv u.recv :=
    fun u hu => hu ▸ .refl _
  cases hcall with
  | notice h10 => exact hkeep (if_neg fun h => h.1 h10) (.refl _)
  | register _ h0 => exact hkeep (hnone (.inl (by rw [h0]; decide))) (heq _ Comm.entered_recv)
  | command k buf n u h10 h1 hne _ _ hana =>
    rw [Comm.entered_recv] at hne
    obtain ⟨d, ms, rfl⟩ := Comm.analyze_eq hana
    exact htake _ buf Comm.entered_recv h10 h1 hne rfl
  | unknown k buf h10 h1 hne =>
    rw [Comm.entered_recv] at hne
    exact htake _ buf Comm.entered_recv h10 h1 hne rfl
  | disconnect k buf h10 h1 hne =>
    rw [Comm.entered_recv] at hne
    exact htake _ buf Comm.entered_recv h10 h1 hne rfl
  | publish _ _ hempty =>
    rw [Comm.entered_recv] at hempty
    exact hkeep (hnone (.inr hempty)) (heq _ Comm.entered_recv)
  | cellInfo _ _ hempty =>
    rw [Comm.entered_recv] at hempty
    obtain ⟨ws, i, flag, hcell, -⟩ :=
      Comm.getCellInfoProcess_eq (s.entered E x) E.config.moduleType
    have hrecv := congrArg Comm.recv hcell
    exact hkeep (hnone (.inr hempty)) (heq _ (hrecv.trans Comm.entered_recv))
  | idle _ hidle =>
    rw [Comm.entered_recv] at hidle
    refine hkeep (hnone ?_) (heq _ Comm.entered_recv)
    by_cases h1 : s.communicateStep = 1
    · exact .inr (hidle h1).1
    · exact .inl h1
  | published _ h2 => exact hsent h2 rfl
  | failed _ h2 => exact hsent h2 rfl
  | publishing _ h2 => exact hsent h2 rfl

end

/-! ## Runs -/

/-- What happens in a run. Between two calls the rest of `net4G_work_process` may go through a
reconnection, which uses the array for the answers to AT commands. -/
inductive CommEvent (c : Config)
  | uart (bs : List UInt8)
  | save (m : PubMsg c)
  | others (d : Device) (getCellInfoFlag : Bool)
  | rest (data : Nat → UInt8) (uart : List UInt8) (netWork : NetworkWorkStep) (registered : Bool)
  | call (x : CallInput c)

/-- The state, with the commands that were enqueued and the entries that were taken, as contents,
and whether each enqueue has put its command behind the entries that were pending. -/
structure CmdLog where
  comm : Comm
  enqueued : List (List UInt8 × Nat)
  taken : List (List UInt8 × Nat)
  appended : Prop

/-- The log of a call. -/
def CmdLog.call (E : CommEnv) (s : CmdLog) (t : Comm) : CmdLog :=
  let cmd := s.comm.recv.enqueued E.config
  { comm := t
    enqueued := s.enqueued ++ cmd.toList.map fun bs => (bs, bs.length)
    taken := s.taken ++ (s.comm.dequeued E).toList.map (CmdQ.content E.config.uartRecvCmdSize)
    appended := s.appended ∧ ∀ bs ∈ cmd, (s.comm.received E).recv.pending E.config =
      s.comm.recv.pending E.config ++ [(bs, bs.length)] }

def CmdLog.step (E : CommEnv) (s : CmdLog) : CommEvent E.config → Option CmdLog
  | .uart bs => some { s with comm := s.comm.deliver E.config bs }
  | .save m => some { s with comm := s.comm.save E.config [m] }
  | .others d flag => some { s with comm := { s.comm with device := d, getCellInfoFlag := flag } }
  | .rest data uart netWork registered =>
    some { s with comm := { s.comm with
      recv := { s.comm.recv with fifo := { s.comm.recv.fifo with data := data } }
      uart := uart
      netWork := netWork
      registered := registered } }
  | .call x => (module4gCommunicationProcess E x s.comm).map fun (_, t) => s.call E t

def CmdStep (E : CommEnv) : CmdLog → CommEvent E.config → CmdLog → Prop := PFun (CmdLog.step E)

/-- The entries taken and the entries pending are, in order, those that were pending at first and
the commands enqueued since, each with its bytes and its length; and no enqueue has hidden or
overwritten an entry. -/
structure QueueLossless (c : Config) (r₀ : Recv) (s : CmdLog) : Prop where
  order : s.taken ++ s.comm.recv.pending c = r₀.pending c ++ s.enqueued
  appended : s.appended

/-- A command that is enqueued finds a free entry besides the one that keeps the ends apart, and is
not longer than an entry. -/
def EnqueueRoom (E : CommEnv) (s : CmdLog) : CommEvent E.config → Prop
  | .call _ => ∀ bs ∈ s.comm.recv.enqueued E.config,
    (s.comm.recv.pending E.config).length + 1 < E.config.uartRecvQueuSize ∧
      bs.length ≤ E.config.uartRecvCmdSize
  | _ => True

section
variable {E : CommEnv} {r₀ : Recv} {s s' : CmdLog} {e : CommEvent E.config}

/-- A delivery reaches only the FIFO. -/
theorem deliver_sameQueue (c : Config) (s : Comm) (bs : List UInt8) :
    SameQueue s.recv (s.deliver c bs).recv := by
  obtain ⟨f, u, h⟩ := Comm.deliver_eq c s bs
  rw [h]
  exact ⟨rfl, rfl, rfl⟩

/-- A step that is no call leaves the queue alone, and a call is one that returns. -/
theorem CmdStep.cases (h : CmdStep E s e s') :
    (∃ comm, s' = { s with comm := comm } ∧ SameQueue s.comm.recv comm.recv ∧
        ∀ x, e ≠ .call x) ∨
      ∃ x ret t, e = .call x ∧ module4gCommunicationProcess E x s.comm = some (ret, t) ∧
        s' = s.call E t := by
  cases e with
  | uart bs =>
    cases h
    exact .inl ⟨_, rfl, deliver_sameQueue _ _ bs, nofun⟩
  | save | others | rest =>
    cases h
    exact .inl ⟨_, rfl, ⟨rfl, rfl, rfl⟩, nofun⟩
  | call x =>
    obtain ⟨⟨ret, t⟩, hcall, rfl⟩ := Option.map_eq_some_iff.1 h
    exact .inr ⟨x, ret, t, rfl, hcall, rfl⟩

theorem CmdStep.wf (hs : s.comm.recv.QueueWf E.config) (h : CmdStep E s e s') :
    s'.comm.recv.QueueWf E.config := by
  obtain ⟨comm, rfl, hsame, -⟩ | ⟨x, ret, t, rfl, hcall, rfl⟩ := h.cases
  · exact hsame.wf hs
  · exact (call_pending hs hcall).2

/-- What is pending after the reception of a call, and after the call, in terms of the log. -/
theorem CmdLog.call_order (hs : s.comm.recv.QueueWf E.config) {x : CallInput E.config} {ret : CommRet}
    {t : Comm} (h : module4gCommunicationProcess E x s.comm = some (ret, t)) :
    (s.call E t).taken ++ t.recv.pending E.config =
      s.taken ++ (s.comm.received E).recv.pending E.config := by
  rw [(call_pending hs h).1, ← List.append_assoc]
  rfl

/-- A step keeps the queue lossless exactly when its command, if any, finds room. -/
theorem CmdStep.lossless_iff (hs : s.comm.recv.QueueWf E.config)
    (hl : QueueLossless E.config r₀ s) (h : CmdStep E s e s') :
    QueueLossless E.config r₀ s' ↔ EnqueueRoom E s e := by
  obtain ⟨comm, rfl, hsame, hne⟩ | ⟨x, ret, t, rfl, hcall, rfl⟩ := h.cases
  · have hroom : EnqueueRoom E s e := by
      cases e with
      | call x => exact absurd rfl (hne x)
      | uart | save | others | rest => trivial
    refine ⟨fun _ => hroom, fun _ => ⟨?_, hl.appended⟩⟩
    rw [← hl.order, ← hsame.pending]
  · have horder := CmdLog.call_order hs hcall
    cases hcmd : s.comm.recv.enqueued E.config with
    | none =>
      have hsame : SameQueue s.comm.recv (s.comm.received E).recv := getNet4GRecvCmd_of_none hcmd
      refine ⟨fun _ bs hbs => ?_, fun _ => ⟨?_, hl.appended, fun bs hbs => ?_⟩⟩
      · rw [hcmd] at hbs
        cases hbs
      · refine horder.trans ?_
        rw [hsame.pending, hl.order, CmdLog.call, hcmd]
        exact congrArg _ (List.append_nil _).symm
      · rw [hcmd] at hbs
        cases hbs
    | some bs =>
      constructor
      · rintro ⟨-, -, hall⟩ bs' hbs'
        have happ := hall bs' hbs'
        by_cases hroom : (s.comm.recv.pending E.config).length + 1 < E.config.uartRecvQueuSize
        · have hpush := Recv.pending_enqueue s.comm.info hs hbs' hroom
          refine ⟨hroom, (cmdEntry_content bs').1 ?_⟩
          have heq := List.append_cancel_left (hpush.symm.trans happ)
          exact List.singleton_inj.1 heq
        · have hfull := Recv.pending_enqueue_full s.comm.info hs hbs' hroom
          have hnil := hfull.symm.trans happ
          exact absurd hnil.symm (List.append_ne_nil_of_right_ne_nil _ (List.cons_ne_nil _ _))
      · intro hroom
        have hall : ∀ bs ∈ s.comm.recv.enqueued E.config,
            (s.comm.received E).recv.pending E.config =
              s.comm.recv.pending E.config ++ [(bs, bs.length)] := by
          intro bs hbs
          obtain ⟨hfree, hsize⟩ := hroom bs hbs
          rw [← (cmdEntry_content (c := E.config) bs).2 hsize]
          exact Recv.pending_enqueue _ hs hbs hfree
        refine ⟨horder.trans ?_, hl.appended, hall⟩
        rw [hall bs hcmd, ← List.append_assoc, hl.order, List.append_assoc, CmdLog.call, hcmd]
        rfl

end

/-- No command is lost in a run exactly when every command that is enqueued finds room. -/
theorem queueLossless_iff_enqueueRoom {E : CommEnv} {s₀ : Comm} (h₀ : s₀.recv.QueueWf E.config)
    {es : List (CommEvent E.config)} {s : CmdLog}
    (h : Run (CmdStep E) ⟨s₀, [], [], True⟩ es s) :
    (∀ es₁ s₁, es₁ <+: es → Run (CmdStep E) ⟨s₀, [], [], True⟩ es₁ s₁ →
        QueueLossless E.config s₀.recv s₁) ↔
      Run (Guarded (EnqueueRoom E) (CmdStep E)) ⟨s₀, [], [], True⟩ es s := by
  have hdet : ∀ s e s₁ s₂, CmdStep E s e s₁ → CmdStep E s e s₂ → s₁ = s₂ :=
    fun _ _ _ _ => Trace.PFun.det
  have hwf : ∀ (s : CmdLog) e s', s.comm.recv.QueueWf E.config → CmdStep E s e s' →
      s'.comm.recv.QueueWf E.config := fun _ _ _ => CmdStep.wf
  have hstep : ∀ (s : CmdLog) e s', s.comm.recv.QueueWf E.config →
      QueueLossless E.config s₀.recv s → CmdStep E s e s' →
      (QueueLossless E.config s₀.recv s' ↔ EnqueueRoom E s e) := fun _ _ _ => CmdStep.lossless_iff
  exact h.passes_iff hdet hwf hstep h₀ ⟨(List.append_nil _).symm, trivial⟩

/-! ## A small program -/

/-- A message of one byte. -/
def oneMsg : PubMsg queueConfig := ⟨[], [1], (byteMsg 1).noNul, (byteMsg 1).fits⟩

/-- A message is published; its acknowledgement has come, and then three commands, before the
publish looks for it. -/
def commandsWhilePublishing : List (CommEvent queueConfig) :=
  [.save oneMsg] ++ List.replicate 3 (.call (.quiet _)) ++ [.uart (CStr.ascii "\r\n> ")] ++
    List.replicate 2 (.call (.quiet _)) ++ [.uart (CStr.ascii "+QMTPUBEX:"), .call (.quiet _),
      .uart (CStr.ascii "+QMTRECV:\r\n+QMTRECV:\r\n+QMTRECV:\r\n")] ++
    List.replicate 12 (.call (.quiet _))

/-- The events can be run, and the final lengths of the log and the queue are as given. -/
theorem exists_run {c : Config} {es : List (CommEvent c)} {a b n : Nat}
    (h : (es.foldlM (CmdLog.step (.small c)) ⟨.reset, [], [], True⟩).map (fun s =>
      (s.taken.length, (s.comm.recv.pending c).length, s.enqueued.length)) = some (a, b, n)) :
    ∃ s, Run (CmdStep (.small c)) ⟨.reset, [], [], True⟩ es s ∧ s.taken.length = a ∧
      (s.comm.recv.pending c).length = b ∧ s.enqueued.length = n := by
  obtain ⟨s, hs, heq⟩ := Option.map_eq_some_iff.1 h
  cases heq
  exact ⟨s, Trace.run_pfun_iff.2 hs, rfl, rfl, rfl⟩

theorem Comm.reset_queueWf (c : Config) : Comm.reset.recv.QueueWf c :=
  ⟨Nat.zero_lt_of_lt c.recvQueu_two, Nat.zero_lt_of_lt c.recvQueu_two⟩

/-- One command, which is enqueued and taken. -/
def oneCommand : List (CommEvent queueConfig) :=
  [.call (.quiet _), .uart (CStr.ascii "+QMTRECV:\r\n")] ++ List.replicate 4 (.call (.quiet _))

theorem queueLossless_iff_enqueueRoom_small : ∃ s : CmdLog,
    (s.taken.length = 1 ∧ s.enqueued.length = 1) ∧
      ((∀ es₁ s₁, es₁ <+: oneCommand →
          Run (CmdStep (.small queueConfig)) ⟨.reset, [], [], True⟩ es₁ s₁ →
          QueueLossless queueConfig Comm.reset.recv s₁) ↔
        Run (Guarded (EnqueueRoom (.small queueConfig)) (CmdStep (.small queueConfig)))
          ⟨.reset, [], [], True⟩ oneCommand s) := by
  have heval : (oneCommand.foldlM (CmdLog.step (.small queueConfig)) ⟨.reset, [], [], True⟩).map
      (fun s => (s.taken.length, (s.comm.recv.pending queueConfig).length, s.enqueued.length)) =
        some (1, 0, 1) := by decide +kernel
  obtain ⟨s, hrun, htaken, -, henq⟩ := exists_run heval
  exact ⟨s, ⟨htaken, henq⟩, queueLossless_iff_enqueueRoom (Comm.reset_queueWf _) hrun⟩

/-- Three commands that come while a message is published are lost in a queue of three entries. -/
theorem queueLossless_fails : ¬ ∀ (E : CommEnv) (s₀ : Comm) (es : List (CommEvent E.config))
    (s : CmdLog), s₀.recv.QueueWf E.config → Run (CmdStep E) ⟨s₀, [], [], True⟩ es s →
      QueueLossless E.config s₀.recv s := by
  intro h
  have heval : (commandsWhilePublishing.foldlM (CmdLog.step (.small queueConfig))
      ⟨.reset, [], [], True⟩).map (fun s =>
        (s.taken.length, (s.comm.recv.pending queueConfig).length, s.enqueued.length)) =
        some (0, 0, 3) := by decide +kernel
  obtain ⟨s, hrun, htaken, hpending, henq⟩ := exists_run heval
  have hl := congrArg List.length (h (.small queueConfig) _ _ _ (Comm.reset_queueWf _) hrun).order
  rw [List.length_append, List.length_append, htaken, henq] at hl
  have hlen : (s.comm.recv.pending (CommEnv.small queueConfig).config).length = 0 := hpending
  omega

end AppXd.Net4g
