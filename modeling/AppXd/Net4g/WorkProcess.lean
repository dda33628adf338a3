import AppXd.Net4g.Communication

/-!
# Connections and reconnections

`net4GWorkProcess` calls the function of the current work step. In `NORMAL` that is
`module4gCommunicationProcess`; a lost connection leads through the configuration, the activation
and the login back to it. Of these three only what they leave for the communication is kept: a
result, the answers to AT commands in the array of the FIFO, and the bytes that the driver still
holds. A run ends with a reboot of the device and with the begin of a download.
-/

namespace AppXd.Net4g

open Trace (PFun)

/-- The state of `net4G_work_process`: the communication, the number of retries, and the delay with
which a change of the network is carried out. -/
structure Work where
  comm : Comm
  processRetryTimes : Nat
  waitReportRet : CommRet
  waitReportDelay : Nat
  rebooted : Bool

/-- What a call of `net4G_work_process` meets. -/
structure WorkInput (c : Config) where
  call : CallInput c
  ret : ProcessRet
  rsps : List (List UInt8)
  uart : List UInt8

/-- The array as `at_cmd_send_check` fills it. Neither index moves. -/
def Fifo.answer (c : Config) (f : Fifo) (rsp : List UInt8) : Fifo :=
  let cleared i := if i < c.uartRecvFifoSize then 0 else f.data i
  { f with data := Ring.blit cleared 0 (rsp.take c.uartRecvFifoSize) }

namespace Work

variable {c : Config} (s : Work)

def goto (netWork : NetworkWorkStep) : Work := { s with comm := { s.comm with netWork := netWork } }

/-- One of the three functions on the way to `NORMAL`. -/
def phase (x : WorkInput c) (next : NetworkWorkStep) : Work :=
  let s := { s with comm := { s.comm with
    recv := { s.comm.recv with fifo := x.rsps.foldl (Fifo.answer c) s.comm.recv.fifo }
    uart := x.uart } }
  match x.ret with
  | .done => s.goto next
  | .wait => s
  | .error => s.goto .error

/-- The connection is lost. The second time the device reboots. -/
def disconnect : Work :=
  let s := { s with
    comm := { s.comm with registered := false, netWork := .netConfig }
    processRetryTimes := s.processRetryTimes + 1 }
  if 2 ≤ s.processRetryTimes then { s.goto .init with processRetryTimes := 0, rebooted := true }
  else s

/-- The delay before the network is changed, at the end of which the device reboots. -/
def waitReport (m : ModuleType) : Work :=
  if 0 < s.waitReportDelay then
    let s := { s with waitReportDelay := s.waitReportDelay + 1 }
    if 9 ≤ s.waitReportDelay then
      let s := { s with waitReportDelay := 0 }
      if s.waitReportRet = .netTypeWifi then
        { s with
          comm := s.comm.write ⟨.other, Comm.netCmdMqttDisconnect m⟩
          waitReportRet := .wait
          rebooted := true }
      else s
    else s
  else s

/-- The case `NORMAL`, behind the call of `module_4g_communication_process`. -/
def normal (m : ModuleType) (ret : CommRet) (t : Comm) : Work :=
  let s := { s with comm := t }
  let s := match ret with
    | .netTypeWifi => { s with waitReportRet := .netTypeWifi, waitReportDelay := 1 }
    | .netDisconnect => s.disconnect
    | .wait => s
  s.waitReport m

end Work

/-- `net4G_work_process`, with what `module_4g_communication_process` has returned to it. -/
def net4GWorkProcess (E : CommEnv) (x : WorkInput E.config) (s : Work) :
    Option (Option CommRet × Work) :=
  match s.comm.netWork with
  | .netConfig => some (none, s.phase x .activeRoute)
  | .activeRoute => some (none, s.phase x .login)
  | .login => some (none, s.phase x .normal)
  | .normal => (module4gCommunicationProcess E x.call s.comm).map fun (ret, t) =>
      (some ret, s.normal E.config.moduleType ret t)
  | .error => some (none, if x.ret = .wait then s else { s.goto .init with rebooted := true })
  | .init | .ota => none

/-- What happens in a run. -/
inductive WorkEvent (c : Config)
  | uart (bs : List UInt8)
  | save (m : PubMsg c)
  | others (d : Device) (getCellInfoFlag : Bool)
  | work (x : WorkInput c)

def Work.step (E : CommEnv) (s : Work) (e : WorkEvent E.config) : Option (Option CommRet × Work) :=
  if s.rebooted then none
  else
    match e with
    | .uart bs => some (none, { s with comm := s.comm.deliver E.config bs })
    | .save m => some (none, { s with comm := s.comm.save E.config [m] })
    | .others d flag =>
      some (none, { s with comm := { s.comm with device := d, getCellInfoFlag := flag } })
    | .work x => net4GWorkProcess E x s

/-! ## The outcomes of a step -/

/-- The steps that leave the communication's call alone, a phase of the reconnection, or a call. -/
inductive WorkOutcome (E : CommEnv) (s : Work) :
    WorkEvent E.config → Option CommRet → Work → Prop
  | uart (bs : List UInt8) :
    WorkOutcome E s (.uart bs) none { s with comm := s.comm.deliver E.config bs }
  | save (m : PubMsg E.config) :
    WorkOutcome E s (.save m) none { s with comm := s.comm.save E.config [m] }
  | others (d : Device) (flag : Bool) : WorkOutcome E s (.others d flag) none
      { s with comm := { s.comm with device := d, getCellInfoFlag := flag } }
  | phase (x : WorkInput E.config) (next : NetworkWorkStep) :
    s.comm.netWork ≠ .normal → s.comm.netWork ≠ .ota → s.comm.netWork ≠ .error → next ≠ .ota →
    (next = .normal → s.comm.netWork = .login) →
    WorkOutcome E s (.work x) none (s.phase x next)
  | error (x : WorkInput E.config) (w : Work) : s.comm.netWork = .error →
    (w = s ∨ w = { s.goto .init with rebooted := true }) → WorkOutcome E s (.work x) none w
  | call (x : WorkInput E.config) (ret : CommRet) (t : Comm) : s.comm.netWork = .normal →
    module4gCommunicationProcess E x.call s.comm = some (ret, t) →
    WorkOutcome E s (.work x) (some ret) (s.normal E.config.moduleType ret t)

theorem Work.step_outcome {E : CommEnv} {s w : Work} {e : WorkEvent E.config}
    {ret : Option CommRet} (h : s.step E e = some (ret, w)) : WorkOutcome E s e ret w := by
  unfold Work.step at h
  split at h
  · cases h
  cases e with
  | uart bs =>
    cases h
    exact .uart bs
  | save m =>
    cases h
    exact .save m
  | others d flag =>
    cases h
    exact .others d flag
  | work x =>
    simp only at h
    unfold net4GWorkProcess at h
    cases hn : s.comm.netWork <;> simp only [hn] at h
    case netConfig =>
      cases h
      exact .phase x _ (by rw [hn]; decide) (by rw [hn]; decide) (by rw [hn]; decide) (by decide) nofun
    case activeRoute =>
      cases h
      exact .phase x _ (by rw [hn]; decide) (by rw [hn]; decide) (by rw [hn]; decide) (by decide) nofun
    case login =>
      cases h
      exact .phase x _ (by rw [hn]; decide) (by rw [hn]; decide) (by rw [hn]; decide) (by decide) fun _ => hn
    case normal =>
      obtain ⟨⟨r, t⟩, hcall, heq⟩ := Option.map_eq_some_iff.1 h
      cases heq
      exact .call x r t hn hcall
    case error =>
      cases h
      refine .error x _ hn ?_
      split
      · exact .inl rfl
      · exact .inr rfl
    case init => cases h
    case ota => cases h

/-! ## What the surroundings of a call leave alone -/

/-- A phase of the reconnection changes the array, the driver's bytes and the work step. -/
theorem Work.phase_eq {c : Config} (s : Work) (x : WorkInput c) (next : NetworkWorkStep) :
    ∃ n, s.phase x next = { s with comm := { s.comm with
        recv := { s.comm.recv with fifo := x.rsps.foldl (Fifo.answer c) s.comm.recv.fifo }
        uart := x.uart
        netWork := n } } ∧ (n = next ∨ n = s.comm.netWork ∨ n = .error) := by
  unfold Work.phase
  cases x.ret with
  | done => exact ⟨next, rfl, .inl rfl⟩
  | wait => exact ⟨s.comm.netWork, rfl, .inr (.inl rfl)⟩
  | error => exact ⟨.error, rfl, .inr (.inr rfl)⟩

/-- AfterCall a call only the registration, the work step and the writes may change, the first two
where the connection is lost. -/
structure AfterCall (ret : CommRet) (t : Comm) (w : Work) : Prop where
  recv : w.comm.recv = t.recv
  send : w.comm.send = t.send
  proc : w.comm.proc = t.proc
  communicateStep : w.comm.communicateStep = t.communicateStep
  uart : w.comm.uart = t.uart
  writes : w.comm.writes = t.writes ∨ ∃ bs, w.comm.writes = t.writes ++ [⟨.other, bs⟩]
  lost : ret = .netDisconnect → w.comm.registered = false ∧
    (w.comm.netWork = .netConfig ∨ w.comm.netWork = .init)
  kept : ret ≠ .netDisconnect → w.comm.registered = t.registered ∧ w.comm.netWork = t.netWork

theorem Work.normal_afterCall (s : Work) (m : ModuleType) (ret : CommRet) (t : Comm) :
    AfterCall ret t (s.normal m ret t) := by
  have hreport : ∀ w : Work, AfterCall ret t w →
      w.comm.writes = t.writes → AfterCall ret t (w.waitReport m) := by
    intro w hw hwrites
    unfold waitReport
    split
    · simp only
      split
      · split
        · exact ⟨hw.recv, hw.send, hw.proc, hw.communicateStep, hw.uart,
            .inr ⟨_, congrArg (· ++ _) hwrites⟩, hw.lost, hw.kept⟩
        · exact ⟨hw.recv, hw.send, hw.proc, hw.communicateStep, hw.uart, hw.writes, hw.lost, hw.kept⟩
      · exact ⟨hw.recv, hw.send, hw.proc, hw.communicateStep, hw.uart, hw.writes, hw.lost, hw.kept⟩
    · exact hw
  unfold normal
  cases ret with
  | wait => exact hreport _ ⟨rfl, rfl, rfl, rfl, rfl, .inl rfl, nofun, fun _ => ⟨rfl, rfl⟩⟩ rfl
  | netTypeWifi => exact hreport _ ⟨rfl, rfl, rfl, rfl, rfl, .inl rfl, nofun, fun _ => ⟨rfl, rfl⟩⟩ rfl
  | netDisconnect =>
    simp only
    unfold disconnect
    simp only
    split
    · exact hreport _ ⟨rfl, rfl, rfl, rfl, rfl, .inl rfl, fun _ => ⟨rfl, .inr rfl⟩, nofun⟩ rfl
    · exact hreport _ ⟨rfl, rfl, rfl, rfl, rfl, .inl rfl, fun _ => ⟨rfl, .inl rfl⟩, nofun⟩ rfl

/-- The small program before its first connection. -/
def Work.reset : Work := ⟨{ Comm.reset with netWork := .login }, 0, .wait, 0, false⟩

end AppXd.Net4g
