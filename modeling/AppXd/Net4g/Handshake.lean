import AppXd.Net4g.CmdQueue
import AppXd.Net4g.Notice
import AppXd.Net4g.WorkProcess

/-!
# The order of a publish

The payload of an entry of the publish queue is to be written right after its publish command, on
the same connection. A disconnect notice that is found between the two, or while the
acknowledgement is waited for, leaves the publish in its middle, where it goes on after the
reconnection; and a save into the full queue changes the entry between its command and its payload.
`HandshakeCond` excludes both.
-/

namespace AppXd.Net4g

open Trace (Run Guarded PFun)

/-! ## The law -/

/-- A write of `net4g_send_data_process`. -/
def Write.bySend (w : Write) : Bool := w.kind ≠ .other

/-- What `net4g_send_data_process` has written since the first `k` writes. -/
def Comm.sentSince (s : Comm) (k : Nat) : List Write := (s.writes.drop k).filter Write.bySend

/-- Right before each payload stands the publish command of the same entry. -/
def Announced (ws : List Write) : Prop := ∀ pre slot e bs post,
  ws = pre ++ ⟨.payload slot e, bs⟩ :: post → ∃ pre' bs', pre = pre' ++ [⟨.pubCmd slot e, bs'⟩]

/-- No publish is under way. -/
structure Comm.PubIdle (s : Comm) : Prop where
  step : s.proc.processWorkStep = 0
  unchecked : s.recv.Unchecked

/-- The state, the number of writes made before the last connection, and what the last step's call
of `module_4g_communication_process` has returned. -/
structure HandshakeLog where
  work : Work
  connected : Nat
  ret : Option CommRet

def HandshakeLog.step (E : CommEnv) (s : HandshakeLog) (e : WorkEvent E.config) :
    Option HandshakeLog :=
  (s.work.step E e).map fun (ret, w) =>
    { work := w
      connected := if s.work.comm.netWork = .login ∧ w.comm.netWork = .normal then
        w.comm.writes.length else s.connected
      ret := ret }

/-- Payloads are announced, and a lost connection finds no publish under way. -/
structure Handshake (s : HandshakeLog) : Prop where
  announced : Announced (s.work.comm.sentSince s.connected)
  idle : s.ret = some .netDisconnect → s.work.comm.PubIdle

/-! ## The condition -/

section
variable {c : Config}

/-- None of the messages is saved into the slot at the head of the queue. -/
def Spare (c : Config) : Send → List (PubMsg c) → Prop
  | _, [] => True
  | q, m :: ms => q.qTail ≠ q.qHead ∧
    Spare c (savePubMsgToQueue c q m.topic m.payload m.payload.length) ms

instance : ∀ (q : Send) (ms : List (PubMsg c)), Decidable (Spare c q ms)
  | _, [] => .isTrue trivial
  | q, m :: ms =>
    have := instDecidableSpare (savePubMsgToQueue c q m.topic m.payload m.payload.length) ms
    inferInstanceAs (Decidable (_ ∧ _))

end

/-- The publish command of an entry may have been written and its payload not yet. -/
def SendProcess.Begun (p : SendProcess) : Prop := p.processWorkStep = 1 ∨ p.processWorkStep = 2

instance (p : SendProcess) : Decidable p.Begun := inferInstanceAs (Decidable (_ ∨ _))

/-- The reports that a call saves before it comes to the switch. -/
def Comm.reports (E : CommEnv) (s : Comm) (x : CallInput E.config) : List (PubMsg E.config) :=
  (List.replicate (s.received E).gsmPubs (Publication.gsmData 0 0)).flatMap x.reports ++
    (s.afterReceive E x).otaReports E x

/-- While a publish is under way and its answer is not looked for, the connection is not given up;
and between a publish command and its payload nothing is saved into the entry. -/
def HandshakeCond (E : CommEnv) (s : HandshakeLog) : WorkEvent E.config → Prop
  | .save m => s.work.comm.proc.Begun → Spare E.config s.work.comm.send [m]
  | .work x => s.work.comm.netWork = .normal →
    (s.work.comm.proc.processWorkStep ≠ 0 → s.work.comm.recv.Unchecked →
      ¬ Disconnects E.config s.work.comm.recv) ∧
    (s.work.comm.proc.Begun → Spare E.config s.work.comm.send (s.work.comm.reports E x.call))
  | _ => True

instance (E : CommEnv) : ∀ s e, Decidable (HandshakeCond E s e)
  | s, .save m => inferInstanceAs (Decidable (_ → Spare E.config s.work.comm.send [m]))
  | _, .work _ => inferInstanceAs (Decidable (_ → _ ∧ _))
  | _, .uart _ => .isTrue trivial
  | _, .others _ _ => .isTrue trivial

/-! ## Writes -/

theorem announced_nil : Announced [] := fun pre _ _ _ _ h =>
  absurd h.symm (List.append_ne_nil_of_right_ne_nil pre (List.cons_ne_nil _ _))

/-- A new write is announced when it is no payload, or when it follows its publish command. -/
theorem Announced.concat {ws : List Write} (h : Announced ws) {w : Write}
    (hw : ∀ slot e, w.kind = .payload slot e → ∃ ws' bs', ws = ws' ++ [⟨.pubCmd slot e, bs'⟩]) :
    Announced (ws ++ [w]) := by
  intro pre slot e bs post heq
  obtain rfl | ⟨post', w', rfl⟩ := List.eq_nil_or_concat post
  · obtain ⟨rfl, hlast⟩ := List.append_inj' heq rfl
    cases hlast
    exact hw slot e rfl
  · rw [List.concat_eq_append, ← List.cons_append, ← List.append_assoc] at heq
    obtain ⟨hinit, -⟩ := List.append_inj' heq rfl
    exact h pre slot e bs post' hinit

section
variable {s t : Comm} {k : Nat}

/-- Writes behind the last connection. -/
theorem Comm.sentSince_append {ws : List Write} (hk : k ≤ s.writes.length)
    (h : t.writes = s.writes ++ ws) : t.sentSince k = s.sentSince k ++ ws.filter Write.bySend := by
  unfold Comm.sentSince
  rw [h, List.drop_append_of_le_length hk, List.filter_append]

theorem Comm.sentSince_eq (h : t.writes = s.writes) : t.sentSince k = s.sentSince k := by
  unfold Comm.sentSince
  rw [h]

/-- A write that is none of `net4g_send_data_process`. -/
theorem Comm.sentSince_other (hk : k ≤ s.writes.length)
    (h : t.writes = s.writes ∨ ∃ bs, t.writes = s.writes ++ [⟨.other, bs⟩]) :
    t.sentSince k = s.sentSince k ∧ k ≤ t.writes.length := by
  obtain h | ⟨bs, h⟩ := h
  · exact ⟨Comm.sentSince_eq h, h ▸ hk⟩
  · refine ⟨(Comm.sentSince_append hk h).trans (List.append_nil _), ?_⟩
    rw [h, List.length_append]
    omega

end

/-! ## Saves -/

/-- Messages that spare the entry at the head of the queue leave it there. -/
theorem Spare.keeps {c : Config} {ms : List (PubMsg c)} {q : Send} (h : Spare c q ms) :
    let q' := ms.foldl (fun q m => savePubMsgToQueue c q m.topic m.payload m.payload.length) q
    q'.qHead = q.qHead ∧ q'.queue q.qHead = q.queue q.qHead := by
  induction ms generalizing q with
  | nil => exact ⟨rfl, rfl⟩
  | cons m ms ih =>
    obtain ⟨hne, hrest⟩ := h
    obtain ⟨hhead, hqueue⟩ := ih hrest
    exact ⟨hhead, hqueue.trans (Ring.poke_of_ne (Ne.symm hne))⟩

/-! ## The flags -/

section
variable {c : Config} {r : Recv} {info : SignalInfo}

/-- The receive path proper leaves the flags of a publish alone. -/
theorem recvPath_flags (c : Config) (r : Recv) (info : SignalInfo) :
    (recvPath c r info).recv.checkPubMiddleFlag = r.checkPubMiddleFlag ∧
      (recvPath c r info).recv.pubMiddleFlag = r.pubMiddleFlag ∧
      (recvPath c r info).recv.checkPubAckFlag = r.checkPubAckFlag ∧
      (recvPath c r info).recv.pubAckFlag = r.pubAckFlag := by
  have hcut : ∃ f cmd len i j step,
      (recvCmdFromFifo c (ctrlHead c) netMqttCtrlCmdTail r).recv = { r with
        fifo := f, recvCmd := cmd, recvCmdLen := len, cmdHeadIndex := i, cmdTailIndex := j,
        cmdGetStep := step } := by
    obtain h | h | h | h | ⟨n, h⟩ := cmdGetStep_cases r.cmdGetStep
    · rw [recvCmdFromFifo_zero h]
      split
      · exact ⟨_, _, _, _, _, _, rfl⟩
      split <;> exact ⟨_, _, _, _, _, _, rfl⟩
    · rw [recvCmdFromFifo, h]
      simp only
      split <;> exact ⟨_, _, _, _, _, _, rfl⟩
    · rw [recvCmdFromFifo, h]
      simp only
      split <;> exact ⟨_, _, _, _, _, _, rfl⟩
    · rw [recvCmdFromFifo, h]
      exact ⟨_, _, _, _, _, _, rfl⟩
    · rw [recvCmdFromFifo, h]
      exact ⟨_, _, _, _, _, _, rfl⟩
  obtain ⟨f, cmd, len, i, j, step, hcut⟩ := hcut
  unfold recvPath
  simp only
  split
  · rw [hcut]
    exact ⟨rfl, rfl, rfl, rfl⟩
  · obtain ⟨g, -, hrecv⟩ := headFail_recv (c := c)
      (recvCmdFromFifo c (ctrlHead c) netMqttCtrlCmdTail r).recv info
      (recvCmdFromFifo c (ctrlHead c) netMqttCtrlCmdTail r).hi
    rw [hrecv, hcut]
    exact ⟨rfl, rfl, rfl, rfl⟩
  · rw [hcut]
    exact ⟨rfl, rfl, rfl, rfl⟩

/-- A call of `get_net4G_recv_cmd` sets neither check flag. -/
theorem getNet4GRecvCmd_checks (c : Config) (r : Recv) (info : SignalInfo) :
    ((getNet4GRecvCmd c r info).recv.checkPubMiddleFlag = true → r.checkPubMiddleFlag = true) ∧
      ((getNet4GRecvCmd c r info).recv.checkPubAckFlag = true → r.checkPubAckFlag = true) := by
  unfold getNet4GRecvCmd
  split
  · simp only
    split
    · exact ⟨nofun, id⟩
    · exact ⟨id, id⟩
  split
  · simp only
    split
    · exact ⟨id, nofun⟩
    · exact ⟨id, id⟩
  · obtain ⟨h1, -, h3, -⟩ := recvPath_flags c r info
    rw [h1, h3]
    exact ⟨id, id⟩

end

/-! ## One call -/

/-- The check flags belong to the steps that wait, and a publish under way to the step that
publishes. -/
structure PubShape (s : Comm) : Prop extends Waits s.proc s.recv where
  le : s.proc.processWorkStep ≤ 3
  publishing : s.proc.processWorkStep ≠ 0 → s.communicateStep = 2

/-- What holds of the writes behind the last connection: payloads are announced, and a publish that
has begun has ended them with the command of the entry at the head of the queue. -/
structure Sent (k : Nat) (s : Comm) : Prop where
  le : k ≤ s.writes.length
  announced : Announced (s.sentSince k)
  begun : s.proc.Begun → ∃ ws bs,
    s.sentSince k = ws ++ [⟨.pubCmd s.send.qHead (s.send.queue s.send.qHead), bs⟩]

section
variable {E : CommEnv} {s t : Comm} {x : CallInput E.config} {ret : CommRet} {k : Nat}

theorem Comm.entered_send : (s.entered E x).send = (s.save E.config (s.reports E x)).send := by
  rw [entered_waited.send]
  unfold Comm.save Comm.reports
  simp only [List.foldl_append]
  rfl

theorem Comm.entered_proc : (s.entered E x).proc = s.proc := entered_waited.proc

theorem Comm.entered_communicateStep : (s.entered E x).communicateStep = s.communicateStep :=
  entered_waited.communicateStep

theorem Comm.entered_writes : (s.entered E x).writes = s.writes ∨
    ∃ bs, (s.entered E x).writes = s.writes ++ [⟨.other, bs⟩] :=
  (entered_waited (E := E) (s := s) (x := x)).writes.imp id fun h => ⟨_, h⟩

theorem Waits.entered (hs : Waits s.proc s.recv) :
    Waits (s.entered E x).proc (s.entered E x).recv := by
  obtain ⟨hm, ha⟩ := getNet4GRecvCmd_checks E.config s.recv s.info
  rw [Comm.entered_proc, Comm.entered_recv]
  exact ⟨fun h => hs.middle (hm h), fun h => hs.ack (ha h)⟩

theorem PubShape.entered (hs : PubShape s) : PubShape (s.entered E x) := by
  refine ⟨hs.toWaits.entered, ?_, ?_⟩ <;> rw [Comm.entered_proc]
  · exact hs.le
  · rw [Comm.entered_communicateStep]
    exact hs.publishing

theorem Sent.entered (hs : Sent k s) (hspare : s.proc.Begun → Spare E.config s.send (s.reports E x)) :
    Sent k (s.entered E x) := by
  obtain ⟨hsent, hle⟩ := Comm.sentSince_other hs.le (Comm.entered_writes (E := E) (x := x))
  refine ⟨hle, hsent ▸ hs.announced, ?_⟩
  rw [Comm.entered_proc, Comm.entered_send, hsent]
  intro hbegun
  obtain ⟨hhead, hqueue⟩ := (hspare hbegun).keeps
  have hhead : (s.save E.config (s.reports E x)).send.qHead = s.send.qHead := hhead
  have hqueue : (s.save E.config (s.reports E x)).send.queue s.send.qHead =
    s.send.queue s.send.qHead := hqueue
  rw [hhead, hqueue]
  exact hs.begun hbegun

/-- In its first step, and after a publish, the process has begun nothing. -/
theorem not_begun {p : SendProcess} (h : p.processWorkStep = 0 ∨ p.processWorkStep = 3) :
    ¬ p.Begun := by
  unfold SendProcess.Begun
  omega

/-- Nothing has been written, and nothing begun. -/
theorem Sent.same (hk : Sent k s) (hw : t.writes = s.writes) (hq : t.send = s.send)
    (hb : t.proc.Begun → s.proc.Begun) : Sent k t := by
  have hsent : t.sentSince k = s.sentSince k := Comm.sentSince_eq hw
  refine ⟨hw ▸ hk.le, hsent ▸ hk.announced, fun h => ?_⟩
  rw [hsent, hq]
  exact hk.begun (hb h)

/-- One write of `net4g_send_data_process`. -/
theorem Sent.write (hk : Sent k s) {w : Write} (hw : t.writes = s.writes ++ [w])
    (hsend : w.bySend = true)
    (hann : ∀ slot e, w.kind = .payload slot e → ∃ ws bs, s.sentSince k = ws ++ [⟨.pubCmd slot e, bs⟩])
    (hb : t.proc.Begun → ∃ bs, w = ⟨.pubCmd t.send.qHead (t.send.queue t.send.qHead), bs⟩) :
    Sent k t := by
  have hsent : t.sentSince k = s.sentSince k ++ [w] := by
    rw [Comm.sentSince_append hk.le hw, List.filter_singleton, hsend]
    rfl
  have hle := hk.le
  refine ⟨?_, hsent ▸ hk.announced.concat hann, fun h => ?_⟩
  · rw [hw, List.length_append]
    omega
  · obtain ⟨bs, rfl⟩ := hb h
    exact ⟨_, bs, hsent⟩

/-- The call of `net4g_send_data_process`. What has been written and what is waited for fit
together behind it again. -/
theorem afterSend_inv (hs : PubShape s) (hk : Sent k s) (h2 : s.communicateStep = 2) :
    PubShape (s.afterSend E) ∧ Sent k (s.afterSend E) ∧
      ((s.sendData E).ret ≠ 0 → (s.afterSend E).proc.processWorkStep = 0) := by
  have hwaits := (s.sendData_outcome E).waits hs.toWaits
  unfold Comm.afterSend
  have hout := s.sendData_outcome E
  generalize s.sendData E = res at hout hwaits
  cases hout with
  | pubCmd =>
    exact ⟨⟨hwaits, (by decide : 1 ≤ 3), fun _ => h2⟩, hk.write rfl rfl nofun fun _ => ⟨_, rfl⟩,
      fun h => absurd rfl h⟩
  | prompted h1 =>
    exact ⟨⟨hwaits, (by decide : 2 ≤ 3), fun _ => h2⟩,
      hk.same (List.append_nil _) rfl fun _ => .inl h1, fun h => absurd rfl h⟩
  | waiting =>
    exact ⟨⟨hwaits, hs.le, fun _ => h2⟩, hk.same (List.append_nil _) rfl id,
      fun h => absurd rfl h⟩
  | unprompted =>
    exact ⟨⟨hwaits, Nat.zero_le 3, fun h => absurd rfl h⟩,
      hk.same (List.append_nil _) rfl fun h => absurd h (not_begun (.inl rfl)), fun _ => rfl⟩
  | payload hstep =>
    refine ⟨⟨hwaits, Nat.le_refl 3, fun _ => h2⟩,
      hk.write rfl rfl (fun slot e hkind => ?_) fun h => absurd h (not_begun (.inr rfl)),
      fun h => absurd rfl h⟩
    cases hkind
    exact hk.begun (.inr hstep)
  | done =>
    exact ⟨⟨hwaits, Nat.zero_le 3, fun h => absurd rfl h⟩,
      hk.same (List.append_nil _) rfl fun h => absurd h (not_begun (.inl rfl)), fun _ => rfl⟩
  | unacked =>
    exact ⟨⟨hwaits, hs.le, fun _ => h2⟩, hk.same (List.append_nil _) rfl id,
      fun h => absurd rfl h⟩
  | still h4 =>
    have := hs.le
    omega

/-- While no publish is under way, a step that sets no check flag and makes no write of
`net4g_send_data_process` keeps the invariants. -/
theorem quiet_inv (hs : PubShape s) (hk : Sent k s) (h0 : s.proc.processWorkStep = 0)
    (hp : t.proc = s.proc)
    (hm : t.recv.checkPubMiddleFlag = true → s.recv.checkPubMiddleFlag = true)
    (ha : t.recv.checkPubAckFlag = true → s.recv.checkPubAckFlag = true)
    (hw : t.writes = s.writes ∨ ∃ bs, t.writes = s.writes ++ [⟨.other, bs⟩]) :
    PubShape t ∧ Sent k t ∧ t.proc.processWorkStep = 0 := by
  have h0' : t.proc.processWorkStep = 0 := by rw [hp, h0]
  obtain ⟨hsent, hle⟩ := Comm.sentSince_other hk.le hw
  refine ⟨⟨⟨fun h => ?_, fun h => ?_⟩, h0' ▸ Nat.zero_le 3, fun h => absurd h0' h⟩,
    ⟨hle, hsent ▸ hk.announced, fun h => absurd h (not_begun (.inl h0'))⟩, h0'⟩
  · rw [hp]
    exact hs.middle (hm h)
  · rw [hp]
    exact hs.ack (ha h)

/-- A call leaves the check flags to the steps that wait. -/
theorem Comm.CallOutcome.waits (h : CallOutcome E s x ret t) (hs : Waits s.proc s.recv) :
    Waits t.proc t.recv := by
  have hu : Waits (s.entered E x).proc (s.entered E x).recv := hs.entered
  have hsent : Waits ((s.entered E x).afterSend E).proc ((s.entered E x).afterSend E).recv :=
    ((s.entered E x).sendData_outcome E).waits hu
  cases h with
  | notice =>
    obtain ⟨hm, ha⟩ := getNet4GRecvCmd_checks E.config s.recv s.info
    exact ⟨fun h => hs.middle (hm h), fun h => hs.ack (ha h)⟩
  | command k buf n t _ _ _ _ _ hana =>
    obtain ⟨d, ms, rfl⟩ := Comm.analyze_eq hana
    exact ⟨hu.middle, hu.ack⟩
  | cellInfo =>
    obtain ⟨ws, i, flag, heq, -⟩ :=
      Comm.getCellInfoProcess_eq (s.entered E x) E.config.moduleType
    rw [heq]
    exact hu
  | published | failed | publishing => exact hsent
  | _ => exact ⟨hu.middle, hu.ack⟩

/-- A call keeps the invariants, and loses the connection only where no publish is under way. -/
theorem call_handshake (hs : PubShape s) (hk : Sent k s)
    (hup : s.proc.processWorkStep ≠ 0 → s.recv.Unchecked → ¬ Disconnects E.config s.recv)
    (hspare : s.proc.Begun → Spare E.config s.send (s.reports E x))
    (h : module4gCommunicationProcess E x s = some (ret, t)) :
    PubShape t ∧ Sent k t ∧ (ret = .netDisconnect → t.proc.processWorkStep = 0) := by
  have hu : PubShape (s.entered E x) := hs.entered
  have hku : Sent k (s.entered E x) := hk.entered hspare
  -- outside step 2 no publish is under way
  have hidle : s.communicateStep ≠ 2 → (s.entered E x).proc.processWorkStep = 0 := by
    intro h2
    rw [Comm.entered_proc]
    exact Decidable.byContradiction fun h0 => h2 (hs.publishing h0)
  have hquiet : ∀ t : Comm, s.communicateStep ≠ 2 → t.proc = (s.entered E x).proc →
      t.recv.checkPubMiddleFlag = (s.entered E x).recv.checkPubMiddleFlag →
      t.recv.checkPubAckFlag = (s.entered E x).recv.checkPubAckFlag →
      (t.writes = (s.entered E x).writes ∨
        ∃ bs, t.writes = (s.entered E x).writes ++ [⟨.other, bs⟩]) →
      PubShape t ∧ Sent k t ∧ t.proc.processWorkStep = 0 := fun t h2 hp hm ha hw =>
    quiet_inv hu hku (hidle h2) hp (fun h => hm ▸ h) (fun h => ha ▸ h) hw
  have hsent : s.communicateStep = 2 → _ := fun h2 =>
    afterSend_inv (E := E) hu hku (Comm.entered_communicateStep.trans h2)
  cases Comm.call_outcome h with
  | notice h10 =>
    obtain ⟨hun, hdis⟩ := getNet4GRecvCmd_ten_iff.1 h10
    have h0 : s.proc.processWorkStep = 0 := Decidable.byContradiction fun h0 => hup h0 hun hdis
    obtain ⟨hm, ha⟩ := getNet4GRecvCmd_checks E.config s.recv s.info
    obtain ⟨h1, h2, h3⟩ := quiet_inv (t := { s.afterReceive E x with communicateStep := 0 }) hs hk h0
      rfl hm ha (.inl rfl)
    exact ⟨h1, h2, fun _ => h3⟩
  | register _ h0 =>
    obtain ⟨h1, h2, -⟩ := hquiet { s.entered E x with registered := true, communicateStep := 1 }
      (by rw [h0]; decide) rfl rfl rfl (.inl rfl)
    exact ⟨h1, h2, nofun⟩
  | command k buf n u _ hone _ _ _ hana =>
    obtain ⟨d, ms, rfl⟩ := Comm.analyze_eq hana
    obtain ⟨h1, h2, h3⟩ := hquiet
      (({ s.entered E x with device := d }.save E.config ms).takeCmd E buf) (by rw [hone]; decide)
      rfl rfl rfl (.inl rfl)
    exact ⟨h1, h2, fun _ => h3⟩
  | unknown k buf _ hone =>
    obtain ⟨h1, h2, -⟩ := hquiet ((s.entered E x).takeCmd E buf) (by rw [hone]; decide) rfl rfl rfl
      (.inl rfl)
    exact ⟨h1, h2, nofun⟩
  | disconnect k buf _ hone =>
    obtain ⟨h1, h2, h3⟩ := hquiet { (s.entered E x).takeCmd E buf with communicateStep := 0 }
      (by rw [hone]; decide) rfl rfl rfl (.inl rfl)
    exact ⟨h1, h2, fun _ => h3⟩
  | publish _ hone =>
    obtain ⟨h1, h2, -⟩ := hquiet { s.entered E x with communicateStep := 2 } (by rw [hone]; decide)
      rfl rfl rfl (.inl rfl)
    exact ⟨h1, h2, nofun⟩
  | cellInfo _ hone =>
    obtain ⟨ws, i, flag, heq, hws⟩ :=
      Comm.getCellInfoProcess_eq (s.entered E x) E.config.moduleType
    obtain ⟨h1, h2, -⟩ := hquiet
      { s.entered E x with writes := ws, getCellInfoStep := i, getCellInfoFlag := flag }
      (by rw [hone]; decide) rfl rfl rfl hws
    rw [heq]
    exact ⟨h1, h2, nofun⟩
  | idle => exact ⟨hu, hku, nofun⟩
  | published _ htwo hret =>
    obtain ⟨h1, h2, h3⟩ := hsent htwo
    have h0 := h3 (by rw [hret]; decide)
    exact ⟨⟨h1.toWaits, h1.le, fun h => absurd h0 h⟩,
      ⟨h2.le, h2.announced, fun h => absurd h (not_begun (.inl h0))⟩, nofun⟩
  | failed _ htwo hret =>
    obtain ⟨h1, h2, h3⟩ := hsent htwo
    have h0 := h3 (by rw [hret]; decide)
    exact ⟨⟨h1.toWaits, h1.le, fun h => absurd h0 h⟩,
      ⟨h2.le, h2.announced, fun h => absurd h (not_begun (.inl h0))⟩, fun _ => h0⟩
  | publishing _ htwo =>
    obtain ⟨h1, h2, -⟩ := hsent htwo
    exact ⟨h1, h2, nofun⟩

end

/-! ## Runs -/

def HandshakeStep (E : CommEnv) : HandshakeLog → WorkEvent E.config → HandshakeLog → Prop :=
  PFun (HandshakeLog.step E)

/-- The invariant of a run: outside `NORMAL` and a download no publish is under way. -/
structure HandshakeInv (s : HandshakeLog) : Prop where
  shape : PubShape s.work.comm
  sent : Sent s.connected s.work.comm
  online : s.work.comm.netWork ≠ .normal → s.work.comm.netWork ≠ .ota →
    s.work.comm.proc.processWorkStep = 0
  idle : s.ret = some .netDisconnect → s.work.comm.proc.processWorkStep = 0

section
variable {E : CommEnv} {s s' : HandshakeLog} {e : WorkEvent E.config}

theorem HandshakeInv.handshake (h : HandshakeInv s) : Handshake s := by
  refine ⟨h.sent.announced, fun hret => ?_⟩
  have h0 := h.idle hret
  refine ⟨h0, Bool.eq_false_iff.2 fun hm => ?_, Bool.eq_false_iff.2 fun ha => ?_⟩
  · exact absurd (h0.symm.trans (h.shape.middle hm)) (by decide)
  · exact absurd (h0.symm.trans (h.shape.ack ha)) (by decide)

/-- A new connection begins with no writes. -/
theorem Sent.connect {s : Comm} {k : Nat} {p : Prop} [Decidable p] (hk : Sent k s)
    (h : p → s.proc.processWorkStep = 0) : Sent (if p then s.writes.length else k) s := by
  by_cases hp : p
  · rw [if_pos hp]
    refine ⟨Nat.le_refl _, ?_, fun hb => absurd hb (not_begun (.inl (h hp)))⟩
    unfold Comm.sentSince
    rw [List.drop_length]
    exact announced_nil
  · rw [if_neg hp]
    exact hk

theorem HandshakeStep.inv (hs : HandshakeInv s) (hc : HandshakeCond E s e)
    (h : HandshakeStep E s e s') : HandshakeInv s' := by
  obtain ⟨⟨ret, w⟩, hstep, rfl⟩ := Option.map_eq_some_iff.1 h
  -- it is enough to see to the old connection
  suffices hw : PubShape w.comm ∧ Sent s.connected w.comm ∧
      (w.comm.netWork ≠ .normal → w.comm.netWork ≠ .ota → w.comm.proc.processWorkStep = 0) ∧
      (s.work.comm.netWork = .login → w.comm.proc.processWorkStep = 0) ∧
      (ret = some .netDisconnect → w.comm.proc.processWorkStep = 0) from
    ⟨hw.1, hw.2.1.connect fun hp => hw.2.2.2.1 hp.1, hw.2.2.1, hw.2.2.2.2⟩
  have hlogin : s.work.comm.netWork = .login → s.work.comm.proc.processWorkStep = 0 := fun h =>
    hs.online (by rw [h]; decide) (by rw [h]; decide)
  cases Work.step_outcome hstep with
  | uart bs =>
    obtain ⟨f, u, hd⟩ := Comm.deliver_eq E.config s.work.comm bs
    rw [hd]
    exact ⟨⟨⟨hs.shape.middle, hs.shape.ack⟩, hs.shape.le, hs.shape.publishing⟩,
      hs.sent.same rfl rfl id, hs.online, hlogin, nofun⟩
  | save m =>
    refine ⟨⟨⟨hs.shape.middle, hs.shape.ack⟩, hs.shape.le, hs.shape.publishing⟩,
      ⟨hs.sent.le, hs.sent.announced, fun hb => ?_⟩, hs.online, hlogin, nofun⟩
    obtain ⟨hhead, hqueue⟩ := (hc hb).keeps
    have hhead : (s.work.comm.save E.config [m]).send.qHead = s.work.comm.send.qHead := hhead
    have hqueue : (s.work.comm.save E.config [m]).send.queue s.work.comm.send.qHead =
      s.work.comm.send.queue s.work.comm.send.qHead := hqueue
    rw [hhead, hqueue]
    exact hs.sent.begun hb
  | others d flag =>
    exact ⟨⟨⟨hs.shape.middle, hs.shape.ack⟩, hs.shape.le, hs.shape.publishing⟩,
      hs.sent.same rfl rfl id, hs.online, hlogin, nofun⟩
  | phase x next hn ho =>
    obtain ⟨n, hphase, -⟩ := s.work.phase_eq x next
    have h0 := hs.online hn ho
    rw [hphase]
    exact ⟨⟨⟨hs.shape.middle, hs.shape.ack⟩, hs.shape.le, hs.shape.publishing⟩,
      hs.sent.same rfl rfl id, fun _ _ => h0, fun _ => h0, nofun⟩
  | error x w hn hw =>
    have h0 := hs.online (by rw [hn]; decide) (by rw [hn]; decide)
    obtain rfl | rfl := hw
    · exact ⟨hs.shape, hs.sent, fun _ _ => h0, fun _ => h0, nofun⟩
    · exact ⟨⟨⟨hs.shape.middle, hs.shape.ack⟩, hs.shape.le, hs.shape.publishing⟩,
        hs.sent.same rfl rfl id, fun _ _ => h0, fun _ => h0, nofun⟩
  | call x ret t hn hcall =>
    obtain ⟨hup, hspare⟩ := hc hn
    obtain ⟨hshape, hsent, hidle⟩ := call_handshake hs.shape hs.sent hup hspare hcall
    have hb := s.work.normal_afterCall E.config.moduleType ret t
    obtain ⟨hsince, hle⟩ := Comm.sentSince_other hsent.le hb.writes
    refine ⟨?_, ⟨hle, hsince ▸ hsent.announced, ?_⟩, fun hnn hno => ?_, fun hl => ?_, fun hret => ?_⟩
    · refine ⟨?_, ?_, ?_⟩ <;> rw [hb.proc]
      · rw [hb.recv]
        exact hshape.toWaits
      · exact hshape.le
      · rw [hb.communicateStep]
        exact hshape.publishing
    · rw [hb.proc, hb.send, hsince]
      exact hsent.begun
    · rw [hb.proc]
      by_cases hd : ret = .netDisconnect
      · exact hidle hd
      · have hkept := (hb.kept hd).2
        obtain hnet | hnet := (Comm.call_outcome hcall).netWork
        · exact absurd ((hkept.trans hnet).trans hn) hnn
        · exact absurd (hkept.trans hnet) hno
    · exact absurd (hn.symm.trans hl) (by decide)
    · cases hret
      rw [hb.proc]
      exact hidle rfl

end

/-- In a run whose steps meet the condition every payload follows its publish command on the same
connection, and a lost connection finds no publish under way. -/
theorem handshake_of_handshakeCond {E : CommEnv} {w₀ : Work} (h₀ : w₀.comm.PubIdle)
    {es : List (WorkEvent E.config)} {s : HandshakeLog}
    (h : Run (Guarded (HandshakeCond E) (HandshakeStep E)) ⟨w₀, w₀.comm.writes.length, none⟩ es s) :
    Handshake s := by
  have hstep : ∀ s e s', HandshakeInv s → Guarded (HandshakeCond E) (HandshakeStep E) s e s' →
      HandshakeInv s' := fun _ _ _ hs hg => HandshakeStep.inv hs hg.1 hg.2
  have hstart : HandshakeInv ⟨w₀, w₀.comm.writes.length, none⟩ := by
    have hsent : w₀.comm.sentSince w₀.comm.writes.length = [] := by
      unfold Comm.sentSince
      rw [List.drop_length]
      rfl
    refine ⟨⟨⟨fun hm => ?_, fun ha => ?_⟩, h₀.step ▸ Nat.zero_le 3, fun hp => absurd h₀.step hp⟩,
      ⟨Nat.le_refl _, hsent ▸ announced_nil, fun hb => absurd hb (not_begun (.inl h₀.step))⟩,
      fun _ _ => h₀.step, nofun⟩
    · exact absurd (h₀.unchecked.1.symm.trans hm) (by decide)
    · exact absurd (h₀.unchecked.2.symm.trans ha) (by decide)
  exact (h.inv hstep hstart).handshake

/-! ## A small program -/

/-- A call of `net4G_work_process`. On the way to `NORMAL` its phase succeeds. -/
def workCall : WorkEvent queueConfig := .work ⟨.quiet _, .done, [], []⟩

/-- Some answers come, a message is published, and its prompt comes. -/
def publishStart : List (WorkEvent queueConfig) :=
  .save oneMsg :: List.replicate 3 workCall ++ [.uart (CStr.ascii "\r\nOK\r\n\r\nOK\r\n"), workCall,
    .uart (CStr.ascii "\r\n> "), workCall]

theorem handshake_of_handshakeCond_small : ∃ s : HandshakeLog, s.work.comm.writes.length = 2 ∧
    Handshake s := by
  have heval : ((publishStart ++ [workCall]).foldlM
      (Trace.guard (HandshakeCond (.small queueConfig)) (HandshakeLog.step (.small queueConfig)))
      ⟨.reset, 0, none⟩).map (fun s => s.work.comm.writes.length) = some 2 := by decide +kernel
  obtain ⟨s, hs, hlen⟩ := Option.map_eq_some_iff.1 heval
  have hrun := Trace.run_guarded_of_foldlM hs
  exact ⟨s, hlen, handshake_of_handshakeCond ⟨rfl, rfl, rfl⟩ hrun⟩

/-- The prompt has come, and before the payload is written the notice of a lost connection. After
the reconnection the payload is written without a publish command. -/
def lostInPublish : List (WorkEvent queueConfig) :=
  publishStart ++ [.uart (CStr.ascii "+QMTSTAT: 0,1\r\n")] ++ List.replicate 7 workCall

theorem handshake_fails : ¬ ∀ (E : CommEnv) (w₀ : Work) (es : List (WorkEvent E.config))
    (s : HandshakeLog), w₀.comm.PubIdle →
      Run (HandshakeStep E) ⟨w₀, w₀.comm.writes.length, none⟩ es s → Handshake s := by
  intro h
  have heval : (lostInPublish.foldlM (HandshakeLog.step (.small queueConfig)) ⟨.reset, 0, none⟩).map
      (fun s => s.work.comm.sentSince s.connected) =
        some [⟨.payload 0 ⟨[], 1 :: List.replicate 15 0, 1⟩, [1]⟩] := by decide +kernel
  obtain ⟨s, hs, hsent⟩ := Option.map_eq_some_iff.1 heval
  have hlaw := h (.small queueConfig) .reset _ s ⟨rfl, rfl, rfl⟩ (Trace.run_pfun_iff.2 hs)
  obtain ⟨pre, bs, hpre⟩ := hlaw.announced [] _ _ _ [] hsent
  cases pre <;> cases hpre

end AppXd.Net4g
