import AppXd.Net4g.Unread
import AppXd.Net4g.WorkProcess

/-!
# The FIFO across a reconnection

`at_cmd_send_check` uses the array of the FIFO for the answers to AT commands and leaves both
indices alone, so that the window has to be empty when the connection is lost. A notice that
`get_net4G_recv_cmd` finds empties it. A notice that is dequeued as a command does not, and neither
does the fourth publish that gets no prompt: `LinkCond` excludes unread bytes in these two cases, and
what breaks the ring itself.
-/

namespace AppXd.Net4g

/-! ## The condition -/

/-- The fourth publish in a row whose prompt does not come, outside the work step `INIT`. -/
def PublishFails (p : SendProcess) (r : Recv) : Prop :=
  p.processWorkStep = 1 ∧ r.pubMiddleFlag = false ∧ 100 ≤ (p.waitTimeCount + 1) % 65536 ∧
    4 ≤ (p.dataSendWaitRsp1FailTimes + 1) % 256

instance (p : SendProcess) (r : Recv) : Decidable (PublishFails p r) :=
  inferInstanceAs (Decidable (_ ∧ _))

/-- The command at the head of the queue is a disconnect notice. -/
def NoticeQueued (E : CommEnv) (s : Comm) : Prop :=
  s.recv.qHead ≠ s.recv.qTail ∧ ∃ f ∈ Comm.headFields E s,
    f.1.ret = false ∧ Comm.ToldDisconnect E.config.moduleType f.2

instance (E : CommEnv) (s : Comm) : Decidable (NoticeQueued E s) := by
  unfold NoticeQueued Comm.ToldDisconnect
  infer_instance

/-- Where the switch loses the connection, nothing is unread. -/
def Drained (E : CommEnv) (s : Comm) : Prop :=
  s.communicateStep = 1 ∧ NoticeQueued E s ∨ s.communicateStep = 2 ∧ PublishFails s.proc s.recv →
    s.recv.window E.config = []

instance (E : CommEnv) (s : Comm) : Decidable (Drained E s) :=
  inferInstanceAs (Decidable (_ ∨ _ → _))

/-- Deliveries fit, the end of a command is found right, and the connection is lost with nothing
unread. -/
def LinkCond (E : CommEnv) (s : Work) : WorkEvent E.config → Prop
  | .uart bs => s.comm.registered = true → Fits E.config s.comm.recv.fifo bs
  | .work x => s.comm.netWork = .normal → TailCond E.config s.comm.recv ∧
      Drained E (s.comm.entered E x.call)
  | _ => True

instance (E : CommEnv) (s : Work) : ∀ e, Decidable (LinkCond E s e)
  | .uart bs => inferInstanceAs (Decidable (_ → Fits E.config s.comm.recv.fifo bs))
  | .work _ => inferInstanceAs (Decidable (_ → _ ∧ _))
  | .save _ => .isTrue trivial
  | .others _ _ => .isTrue trivial

/-! ## The invariant -/

/-- Off the network no callback is registered, and without a callback nothing is unread. -/
structure Online (c : Config) (s : Comm) : Prop where
  ringed : Ringed c s.recv
  empty : s.registered = false → s.recv.window c = []
  unregistered : s.communicateStep = 0 → s.registered = false
  offline : s.netWork ≠ .normal → s.netWork ≠ .ota → s.registered = false

/-- No callback is registered and nothing is unread. -/
structure Disconnected (c : Config) (s : Comm) : Prop where
  head_le : s.recv.fifo.head ≤ c.uartRecvFifoSize
  tail_lt : s.recv.fifo.tail < c.uartRecvFifoSize
  empty : s.recv.window c = []
  step : s.recv.cmdGetStep = 0
  unregistered : s.registered = false

theorem Disconnected.online {c : Config} {s : Comm} (h : Disconnected c s) : Online c s :=
  ⟨.of_empty h.head_le h.tail_lt h.empty h.step, fun _ => h.empty, fun _ => h.unregistered,
    fun _ _ => h.unregistered⟩

/-- The part of the reception that the window depends on. -/
structure SameRing (r r' : Recv) : Prop where
  fifo : r'.fifo = r.fifo
  cmdGetStep : r'.cmdGetStep = r.cmdGetStep
  cmdTailIndex : r'.cmdTailIndex = r.cmdTailIndex

section
variable {c : Config} {r r' : Recv}

theorem SameRing.refl (r : Recv) : SameRing r r := ⟨rfl, rfl, rfl⟩

theorem SameRing.ringed (h : SameRing r r') (hr : Ringed c r) : Ringed c r' :=
  hr.congr h.fifo h.cmdGetStep h.cmdTailIndex

theorem SameRing.window (h : SameRing r r') : r'.window c = r.window c :=
  congrArg (Fifo.window c) h.fifo

/-- When the publishing gives the connection up. -/
theorem sendData_two {text : SendEntry → List UInt8} {q : Send} {p : SendProcess}
    (h : (net4gSendDataProcess text false q p r).ret = 2) : PublishFails p r := by
  unfold net4gSendDataProcess at h
  unfold PublishFails
  split at h
  · cases h
  · split at h
    · cases h
    simp only [Bool.false_eq_true, if_false] at h
    split at h
    · cases h
    split at h
    · exact ⟨‹_›, Bool.eq_false_iff.2 ‹_›, Nat.le_of_not_lt ‹_›, ‹_›⟩
    · cases h
  · cases h
  · simp only at h
    split at h
    · split at h
      · cases h
      split at h <;> cases h
    · cases h
  · cases h

end

section
variable {E : CommEnv} {s t : Comm} {x : CallInput E.config} {ret : CommRet}

/-- Behind the reception a call leaves the ring alone. -/
theorem Comm.CallOutcome.sameRing (h : CallOutcome E s x ret t) :
    SameRing (s.received E).recv t.recv := by
  have hu : ∀ u : Comm, u.recv = (s.entered E x).recv → SameRing (s.received E).recv u.recv := by
    intro u hu
    rw [hu, Comm.entered_recv]
    exact .refl _
  have htake : ∀ (u : Comm) buf, u.recv = (s.entered E x).recv →
      SameRing (s.received E).recv (u.takeCmd E buf).recv := fun u buf hu' =>
    have hsame := hu u hu'
    ⟨hsame.fifo, hsame.cmdGetStep, hsame.cmdTailIndex⟩
  have hsent : SameRing (s.received E).recv ((s.entered E x).afterSend E).recv := by
    obtain ⟨_, _, _, _, h⟩ := ((s.entered E x).sendData_outcome E).recv_eq
    rw [Comm.entered_recv] at h
    have hf := congrArg Recv.fifo h
    have hs := congrArg Recv.cmdGetStep h
    have hi := congrArg Recv.cmdTailIndex h
    exact ⟨hf, hs, hi⟩
  cases h with
  | notice => exact .refl _
  | register | publish | idle => exact hu _ rfl
  | command k buf n t _ _ _ _ _ hana =>
    obtain ⟨d, ms, rfl⟩ := Comm.analyze_eq hana
    exact htake _ buf rfl
  | unknown | disconnect => exact htake _ _ rfl
  | cellInfo =>
    obtain ⟨ws, i, flag, heq, -⟩ :=
      Comm.getCellInfoProcess_eq (s.entered E x) E.config.moduleType
    rw [heq]
    exact hu _ rfl
  | published | failed | publishing => exact hsent

/-- A call that loses the connection leaves nothing unread. -/
theorem call_drained (hn : s.netWork = .normal) (hd : Drained E (s.entered E x))
    (h : module4gCommunicationProcess E x s = some (ret, t)) (hret : ret = .netDisconnect) :
    t.recv.window E.config = [] := by
  have hout := Comm.call_outcome h
  rw [hout.sameRing.window]
  have hentered : (s.entered E x).recv.window E.config = [] →
      (s.received E).recv.window E.config = [] := by
    rw [Comm.entered_recv]
    exact id
  have hstep : (s.entered E x).communicateStep = s.communicateStep :=
    Comm.entered_waited.communicateStep
  cases hout with
  | notice h10 => exact getNet4GRecvCmd_ten_window _ h10
  | command k buf n t =>
    unfold Comm.commandRet at hret
    split at hret <;> cases hret
  | disconnect k buf _ h1 hne hfields hk htold =>
    exact hentered (hd (.inl ⟨hstep.trans h1, hne, (k, buf), hfields, hk, htold⟩))
  | failed _ h2 htwo =>
    refine hentered (hd (.inr ⟨hstep.trans h2, ?_⟩))
    have hinit : (s.entered E x).netWork ≠ .init := by
      obtain hnet | hnet : (s.entered E x).netWork = s.netWork ∨ (s.entered E x).netWork = .ota :=
        Comm.entered_waited.netWork
      · rw [hnet, hn]
        decide
      · rw [hnet]
        decide
    unfold Comm.sendData at htwo
    rw [decide_eq_false hinit] at htwo
    exact sendData_two htwo
  | _ => cases hret

/-- The answers to AT commands leave the indices alone. -/
theorem Fifo.answers_index {c : Config} (f : Fifo) (rsps : List (List UInt8)) :
    (rsps.foldl (Fifo.answer c) f).head = f.head ∧ (rsps.foldl (Fifo.answer c) f).tail = f.tail := by
  induction rsps generalizing f with
  | nil => exact ⟨rfl, rfl⟩
  | cons rsp rsps ih => exact ih (f.answer c rsp)

/-- The length of the window is a matter of the indices. -/
theorem Fifo.window_eq_nil {c : Config} {f g : Fifo} (hh : g.head = f.head) (ht : g.tail = f.tail)
    (h : f.window c = []) : g.window c = [] := by
  rw [← List.length_eq_zero_iff, Fifo.length_window] at h ⊢
  rwa [hh, ht]

/-- A delivery with a registered callback. -/
theorem Comm.deliver_window {c : Config} {bs : List UInt8} (hr : Ringed c s.recv)
    (hreg : s.registered = true) (hfit : Fits c s.recv.fifo bs) :
    Ringed c (s.deliver c bs).recv ∧
      (s.deliver c bs).recv.window c ++ (s.deliver c bs).uart =
        s.recv.window c ++ s.uart ++ bs := by
  have hlen : bs.length ≤ (s.uart ++ bs).length := by
    rw [List.length_append]
    omega
  have htake : ((s.uart ++ bs).take bs.length).length = bs.length := List.length_take_of_le hlen
  obtain ⟨f, hcb, -⟩ := net4gUartRecvCb_window hr.head_le hr.tail_lt hlen (hfit.congr htake)
  obtain ⟨hring, hwin⟩ := hr.deliver hlen (hfit.congr htake)
  unfold Comm.deliver
  rw [if_pos hreg]
  rw [hcb] at hring hwin ⊢
  refine ⟨hring, ?_⟩
  have hwin' : Fifo.window c f = _ := hwin
  show Fifo.window c f ++ _ = _
  rw [hwin', List.append_assoc, List.take_append_drop, List.append_assoc]

end

section
variable {E : CommEnv} {s w : Work} {e : WorkEvent E.config} {ret : Option CommRet}

theorem Online.step (hs : Online E.config s.comm) (hc : LinkCond E s e)
    (h : s.step E e = some (ret, w)) : Online E.config w.comm := by
  cases Work.step_outcome h with
  | uart bs =>
    by_cases hreg : s.comm.registered = true
    · have hring := (Comm.deliver_window hs.ringed hreg (hc hreg)).1
      obtain ⟨f, u, hd⟩ := Comm.deliver_eq E.config s.comm bs
      rw [hd] at hring ⊢
      exact ⟨hring, fun hreg' => absurd (hreg.symm.trans hreg') (by decide), hs.unregistered,
        hs.offline⟩
    · have hd : s.comm.deliver E.config bs = { s.comm with uart := s.comm.uart ++ bs } := if_neg hreg
      rw [hd]
      exact ⟨hs.ringed, hs.empty, hs.unregistered, hs.offline⟩
  | save m => exact ⟨hs.ringed, hs.empty, hs.unregistered, hs.offline⟩
  | others d flag => exact ⟨hs.ringed, hs.empty, hs.unregistered, hs.offline⟩
  | phase x next hn ho =>
    have hreg := hs.offline hn ho
    have hempty := hs.empty hreg
    obtain ⟨n, hphase, -⟩ := s.phase_eq x next
    obtain ⟨hh, ht⟩ := s.comm.recv.fifo.answers_index (c := E.config) x.rsps
    have hwin : Fifo.window E.config (x.rsps.foldl (Fifo.answer E.config) s.comm.recv.fifo) = [] :=
      Fifo.window_eq_nil hh ht hempty
    rw [hphase]
    refine ⟨.of_empty ?_ ?_ hwin (hs.ringed.idle hempty), fun _ => hwin, hs.unregistered,
      fun _ _ => hreg⟩
    · show Fifo.head _ ≤ _
      rw [hh]
      exact hs.ringed.head_le
    · show Fifo.tail _ < _
      rw [ht]
      exact hs.ringed.tail_lt
  | error x w hn hw =>
    have hreg := hs.offline (by rw [hn]; decide) (by rw [hn]; decide)
    obtain rfl | rfl := hw
    · exact hs
    · exact ⟨hs.ringed, hs.empty, hs.unregistered, fun _ _ => hreg⟩
  | call x ret t hn hcall =>
    obtain ⟨htail, hdrained⟩ := hc hn
    have hout := Comm.call_outcome hcall
    obtain ⟨hring, hkept⟩ := getNet4GRecvCmd_ringed s.comm.info hs.ringed htail
    have hb := s.normal_afterCall E.config.moduleType ret t
    have hwin : (s.normal E.config.moduleType ret t).comm.recv.window E.config =
        t.recv.window E.config := by rw [hb.recv]
    refine ⟨hb.recv ▸ hout.sameRing.ringed hring, fun hreg => ?_, fun h0 => ?_, fun hnn hno => ?_⟩
    · rw [hwin]
      by_cases hret : ret = .netDisconnect
      · exact call_drained hn hdrained hcall hret
      · rw [hout.sameRing.window]
        rw [(hb.kept hret).1] at hreg
        exact hkept.window_nil hs.ringed.head_le hs.ringed.tail_lt
          (hs.empty ((hout.kept hret).2 hreg))
    · by_cases hret : ret = .netDisconnect
      · exact (hb.lost hret).1
      · rw [hb.communicateStep] at h0
        exact absurd h0 (hout.kept hret).1
    · by_cases hret : ret = .netDisconnect
      · exact (hb.lost hret).1
      · obtain hnet | hnet := hout.netWork
        · exact absurd (((hb.kept hret).2.trans hnet).trans hn) hnn
        · exact absurd ((hb.kept hret).2.trans hnet) hno

end

theorem Work.reset_disconnected (c : Config) : Disconnected c Work.reset.comm :=
  have hempty : Ring.window (fun _ => (0 : UInt8)) c.uartRecvFifoSize 0 0 = [] := Ring.window_self ..
  ⟨Nat.zero_le _, c.fifo_pos, hempty, rfl, rfl⟩

end AppXd.Net4g
