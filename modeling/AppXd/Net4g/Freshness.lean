import AppXd.Net4g.Reconnect

/-!
# Old bytes in the FIFO

Every cell carries a mark: 1 if the callback has written it since it was last registered and nothing
else has since. While the device is online, `get_net4G_recv_cmd` is to look at marked cells only. The
answers to AT commands that stand in the array after a reconnection bear no mark.
-/

namespace AppXd.Net4g

open Trace (Run Guarded PFun)

structure FreshLog where
  work : Work
  marks : Nat → UInt8

/-- The array is cleared for the reboot banner. -/
def Clears (c : Config) (r : Recv) : Prop :=
  r.Unchecked ∧ GivesUp c r ∧ ¬ NoticeFound c r.fifo ∧ rebootBanner c r.fifo = true

instance (c : Config) (r : Recv) : Decidable (Clears c r) := inferInstanceAs (Decidable (_ ∧ _))

/-- The call registers the callback. -/
def Registers (E : CommEnv) (s : Comm) : Prop := (s.received E).ret ≠ 10 ∧ s.communicateStep = 0

instance (E : CommEnv) (s : Comm) : Decidable (Registers E s) :=
  inferInstanceAs (Decidable (_ ∧ _))

/-- The cells that the callback writes are those that it writes ones to when it is run on the
marks. -/
def markDelivery (c : Config) (f : Fifo) (marks : Nat → UInt8) (len : Nat) : Fifo :=
  (net4gUartRecvCb c { f with data := marks } (List.replicate len 1) len).1

def FreshLog.nextMarks (E : CommEnv) (s : FreshLog) : WorkEvent E.config → Nat → UInt8
  | .uart bs =>
    if s.work.comm.registered then
      (markDelivery E.config s.work.comm.recv.fifo s.marks bs.length).data
    else s.marks
  | .work x =>
    if s.work.comm.netWork = .normal then
      if Registers E s.work.comm ∨ Clears E.config s.work.comm.recv then fun _ => 0 else s.marks
    else if x.rsps = [] then s.marks
    else fun _ => 0
  | _ => s.marks

def FreshLog.step (E : CommEnv) (s : FreshLog) (e : WorkEvent E.config) : Option FreshLog :=
  (s.work.step E e).map fun (_, w) => ⟨w, s.nextMarks E e⟩

def FreshStep (E : CommEnv) : FreshLog → WorkEvent E.config → FreshLog → Prop :=
  PFun (FreshLog.step E)

/-- The marks of the unread cells. -/
def FreshLog.unread (c : Config) (s : FreshLog) : List UInt8 :=
  Ring.window s.marks c.uartRecvFifoSize s.work.comm.recv.fifo.head s.work.comm.recv.fifo.tail

/-- Online, every unread byte is one that the callback has delivered since its registration. -/
def Fresh (c : Config) (s : FreshLog) : Prop :=
  s.work.comm.netWork = .normal → ∀ m ∈ s.unread c, m = 1

/-! ## Steps -/

/-- The invariant of a run. -/
structure FreshInv (c : Config) (s : FreshLog) : Prop where
  online : Online c s.work.comm
  fresh : ∀ m ∈ s.unread c, m = 1

section
variable {c : Config}

/-- Where nothing is unread every unread byte is fresh. -/
theorem FreshLog.unread_nil {s : FreshLog} (h : s.work.comm.recv.window c = []) :
    ∀ m ∈ s.unread c, m = 1 := by
  have hnil : s.unread c = [] := by
    rw [Recv.window, ← List.length_eq_zero_iff, Fifo.length_window] at h
    rwa [FreshLog.unread, ← List.length_eq_zero_iff, Ring.length_window]
  rw [hnil]
  intro m hm
  exact absurd hm List.not_mem_nil

/-- A delivery marks the cells of the bytes that it adds. -/
theorem markDelivery_window (marks : Nat → UInt8) {f : Fifo} {uart : List UInt8} {len : Nat}
    (hh : f.head ≤ c.uartRecvFifoSize) (ht : f.tail < c.uartRecvFifoSize) (hlen : len ≤ uart.length)
    (hfit : Fits c f (uart.take len)) :
    let f' := (net4gUartRecvCb c f uart len).1
    Ring.window (markDelivery c f marks len).data c.uartRecvFifoSize f'.head f'.tail =
      Ring.window marks c.uartRecvFifoSize f.head f.tail ++ List.replicate len 1 := by
  have hones : (List.replicate len (1 : UInt8)).take len = List.replicate len 1 := by
    rw [List.take_replicate, Nat.min_self]
  have hfit' : Fits c { f with data := marks } ((List.replicate len 1).take len) := by
    have hlen' : ((List.replicate len (1 : UInt8)).take len).length = (uart.take len).length := by
      rw [hones, List.length_replicate, List.length_take_of_le hlen]
    have h := hfit.congr hlen'
    exact ⟨h.room, h.parts⟩
  obtain ⟨f', hcb, -, hhead, htail, -⟩ := net4gUartRecvCb_window hh ht hlen hfit
  obtain ⟨g, hcb', -, hhead', htail', hwin⟩ :=
    net4gUartRecvCb_window (f := { f with data := marks }) hh ht (by rw [List.length_replicate])
      hfit'
  unfold markDelivery
  rw [hcb, hcb']
  have hwin : Ring.window g.data c.uartRecvFifoSize g.head g.tail =
    Ring.window marks c.uartRecvFifoSize f.head f.tail ++ _ := hwin
  rw [hhead', htail', hones] at hwin
  show Ring.window g.data c.uartRecvFifoSize f'.head f'.tail = _
  rw [hhead, htail]
  exact hwin

end

section
variable {E : CommEnv} {s s' : FreshLog} {e : WorkEvent E.config}

theorem FreshStep.inv (hs : FreshInv E.config s) (hc : LinkCond E s.work e)
    (h : FreshStep E s e s') : FreshInv E.config s' := by
  obtain ⟨⟨ret, w⟩, hstep, rfl⟩ := Option.map_eq_some_iff.1 h
  have honline := hs.online.step hc hstep
  refine ⟨honline, ?_⟩
  have hring := hs.online.ringed
  cases Work.step_outcome hstep with
  | uart bs =>
    unfold FreshLog.unread FreshLog.nextMarks Comm.deliver
    simp only
    by_cases hreg : s.work.comm.registered = true
    · rw [if_pos hreg, if_pos hreg]
      have hlen : bs.length ≤ (s.work.comm.uart ++ bs).length := by
        rw [List.length_append]
        omega
      have hfit : Fits E.config s.work.comm.recv.fifo
        ((s.work.comm.uart ++ bs).take bs.length) := (hc hreg).congr (List.length_take_of_le hlen)
      have hwin := markDelivery_window s.marks hring.head_le hring.tail_lt hlen hfit
      intro m hm
      have hm' := hwin ▸ hm
      obtain hold | hnew := List.mem_append.1 hm'
      · exact hs.fresh m hold
      · exact List.eq_of_mem_replicate hnew
    · rw [if_neg hreg, if_neg hreg]
      exact hs.fresh
  | save m => exact hs.fresh
  | others d flag => exact hs.fresh
  | phase x next hn ho =>
    refine FreshLog.unread_nil ?_
    obtain ⟨n, hphase, -⟩ := s.work.phase_eq x next
    obtain ⟨hh, ht⟩ := s.work.comm.recv.fifo.answers_index (c := E.config) x.rsps
    rw [hphase]
    exact Fifo.window_eq_nil hh ht (hs.online.empty (hs.online.offline hn ho))
  | error x w hn hw =>
    refine FreshLog.unread_nil ?_
    have hempty := hs.online.empty
      (hs.online.offline (by rw [hn]; decide) (by rw [hn]; decide))
    obtain rfl | rfl := hw <;> exact hempty
  | call x ret t hn hcall =>
    obtain ⟨htail, -⟩ := hc hn
    have hout := Comm.call_outcome hcall
    obtain ⟨-, hkept⟩ := getNet4GRecvCmd_ringed s.work.comm.info hring htail
    have hfifo : (s.work.normal E.config.moduleType ret t).comm.recv.fifo =
        (s.work.comm.received E).recv.fifo := by
      rw [(s.work.normal_afterCall E.config.moduleType ret t).recv]
      exact hout.sameRing.fifo
    have hnil : (s.work.comm.received E).recv.window E.config = [] →
        ∀ m ∈ FreshLog.unread E.config
          ⟨s.work.normal E.config.moduleType ret t, s.nextMarks E (.work x)⟩, m = 1 :=
      fun h => FreshLog.unread_nil ((congrArg (Fifo.window E.config) hfifo).trans h)
    by_cases hregs : Registers E s.work.comm
    · exact hnil (hkept.window_nil hring.head_le hring.tail_lt
        (hs.online.empty (hs.online.unregistered hregs.2)))
    by_cases hclears : Clears E.config s.work.comm.recv
    · obtain ⟨hun, hgives, hnotice, hbanner⟩ := hclears
      exact hnil (getNet4GRecvCmd_ten_window _
        (getNet4GRecvCmd_ten_iff.2 ⟨hun, hgives, .inr ⟨hnotice, hbanner⟩⟩))
    have hmarks : s.nextMarks E (.work x) = s.marks := by
      unfold FreshLog.nextMarks
      simp only
      rw [if_pos hn, if_neg (not_or.2 ⟨hregs, hclears⟩)]
    generalize hf : (s.work.comm.received E).recv.fifo = f at hkept hfifo
    have hf' : (getNet4GRecvCmd E.config s.work.comm.recv s.work.comm.info).recv.fifo = f := hf
    rw [hf'] at hkept
    cases hkept with
    | moved k _ _ hmoved =>
      unfold FreshLog.unread
      simp only [hmarks, hfifo]
      rw [hmoved.window hring.head_le hring.tail_lt]
      exact fun m hm => hs.fresh m (List.mem_of_mem_drop hm)
    | cleared =>
      refine hnil ?_
      unfold Recv.window
      rw [hf]
      exact Fifo.window_empty _ (clearFifo _ _)

end

/-- In a run whose steps meet the condition, `get_net4G_recv_cmd` examines only bytes that the
callback has delivered since its registration. -/
theorem fresh_of_linkCond {E : CommEnv} {w₀ : Work} (h₀ : Disconnected E.config w₀.comm)
    {es : List (WorkEvent E.config)} {s : FreshLog}
    (h : Run (Guarded (fun s => LinkCond E s.work) (FreshStep E)) ⟨w₀, fun _ => 0⟩ es s) :
    Fresh E.config s := by
  have hstep : ∀ s e s', FreshInv E.config s →
      Guarded (fun s => LinkCond E s.work) (FreshStep E) s e s' → FreshInv E.config s' :=
    fun _ _ _ hs hg => FreshStep.inv hs hg.1 hg.2
  have hstart : FreshInv E.config ⟨w₀, fun _ => 0⟩ :=
    ⟨h₀.online, FreshLog.unread_nil h₀.empty⟩
  exact fun _ => (h.inv hstep hstart).fresh

/-! ## A small program -/

/-- The small configuration for the first family. -/
def lmqttConfig : Config where
  moduleType := .nt26e
  uartRecvFifoSize := 64
  uartRecvCmdSize := 32
  uartRecvQueuSize := 3
  uartSendQueuSize := 3
  uartSendQueuDataSize := 16
  ram := 64
  fifo_keyword := disconnectCmdHead_lt_64 .nt26e
  fifo_u16 := fifo64_u16
  fifo_ram := fifo64_ram
  recvQueu_two := smallConfig.recvQueu_two
  sendQueu_two := smallConfig.sendQueu_two

/-- A call of `net4G_work_process`. On the way to `NORMAL` an AT command is answered. -/
def answeredCall : WorkEvent lmqttConfig := .work ⟨.quiet _, .done, [CStr.ascii "OK"], []⟩

/-- The notice is dequeued as a command, and the connection comes up again. -/
def lostBy (bs : List UInt8) : List (WorkEvent lmqttConfig) :=
  List.replicate 2 answeredCall ++ [.uart bs] ++ List.replicate 7 answeredCall

theorem fresh_of_linkCond_small : ∃ s : FreshLog,
    s.work.comm.netWork = .normal ∧ s.work.processRetryTimes = 1 ∧ Fresh lmqttConfig s := by
  have heval : ((lostBy (CStr.ascii "+LMQTTURC: STATS,1\r\n")).foldlM
      (Trace.guard (fun s => LinkCond (.small lmqttConfig) s.work)
        (FreshLog.step (.small lmqttConfig))) ⟨.reset, fun _ => 0⟩).map
      (fun s => (s.work.comm.netWork, s.work.processRetryTimes)) = some (.normal, 1) := by
    decide +kernel
  obtain ⟨s, hs, heq⟩ := Option.map_eq_some_iff.1 heval
  obtain ⟨hn, htimes⟩ := Prod.mk.inj heq
  have hrun := Trace.run_guarded_of_foldlM hs
  exact ⟨s, hn, htimes, fresh_of_linkCond (Work.reset_disconnected _) hrun⟩

/-- Bytes that follow the notice are still unread when the connection is lost, and their place in
the array is overwritten before it is up again. -/
theorem fresh_fails : ¬ ∀ (E : CommEnv) (w₀ : Work) (es : List (WorkEvent E.config))
    (s : FreshLog), Disconnected E.config w₀.comm →
      Run (FreshStep E) ⟨w₀, fun _ => 0⟩ es s → Fresh E.config s := by
  intro h
  have heval : ((lostBy (CStr.ascii "+LMQTTURC: STATS,1\r\n+LMQTTURC: 1")).foldlM
      (FreshLog.step (.small lmqttConfig)) ⟨.reset, fun _ => 0⟩).map
      (fun s => (s.work.comm.netWork, (s.unread lmqttConfig).head?)) = some (.normal, some 0) := by
    decide +kernel
  obtain ⟨s, hs, heq⟩ := Option.map_eq_some_iff.1 heval
  obtain ⟨hn, hhead⟩ := Prod.mk.inj heq
  have hfresh := h (.small lmqttConfig) .reset _ s (Work.reset_disconnected _)
    (Trace.run_pfun_iff.2 hs)
  exact absurd (hfresh hn 0 (List.mem_of_mem_head? hhead)) (by decide)

end AppXd.Net4g
