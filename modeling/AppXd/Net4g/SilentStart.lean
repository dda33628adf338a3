import AppXd.Net4g.System

/-!
# A start without an answer

Of the start over a kept connection the module may hear nothing: the device has then lost the
connection, or the module its power. The procedure waits for the prompt of the ping and no longer.
-/

namespace AppXd.Net4g

open Trace (Run)

/-- All memory of the start is as the compiler leaves it. -/
structure System.Booted (s : System) : Prop extends s.Started where
  pingSendFlag : s.pingSendFlag = true
  communicateStep : s.work.comm.communicateStep = 0
  silent : s.work.comm.recv.Silent
  send : s.work.comm.send.qHead = 0 ∧ s.work.comm.send.qTail = 0
  proc : s.work.comm.proc = ⟨0, 0, 0, 0⟩
  waitReportDelay : s.work.waitReportDelay = 0

/-- The module sends nothing. -/
def SystemEvent.Quiet {c : Config} : SystemEvent c → Prop
  | .uart _ => False
  | _ => True

/-- The messages that the rest of the program has saved. -/
def savedBy {c : Config} (es : List (SystemEvent c × Option Did)) : Nat :=
  (es.filter fun e => e.1 matches .save _).length

/-- The start behind `n` calls in front of a silent module. -/
structure System.Waiting (P : SystemEnv) (n l : Nat) (s : System) : Prop where
  pinging : s.work.comm.Pinging P.comm n (if n = 0 then l else l + P.ping.length)
  pingSendFlag : s.pingSendFlag = decide (n = 0)
  waitReportDelay : s.work.waitReportDelay = 0

section
variable {P : SystemEnv} {s : System} {n l : Nat}

theorem System.Booted.waiting (h : s.Booted) : s.Waiting P 0 0 := by
  obtain ⟨hhead, htail⟩ := h.send
  refine ⟨⟨h.silent, h.netWork, h.communicateStep, ⟨?_, ?_⟩, ?_, ?_, ?_, by omega⟩, h.pingSendFlag,
    h.waitReportDelay⟩
  · rw [hhead]
    exact Nat.zero_lt_of_lt P.comm.config.sendQueu_two
  · rw [htail]
    exact Nat.zero_lt_of_lt P.comm.config.sendQueu_two
  · rw [Send.length_pending, hhead, htail]
    rfl
  · rw [h.proc]
    rfl
  · rw [h.proc]

/-- A call of the start that goes on. -/
theorem System.initCall_of_wait {x : SystemInput P.comm.config} {flag : Bool} {t : Comm}
    (hpower : P.route.noPowerOff = true) (hdelay : s.work.waitReportDelay = 0)
    (h : deviceRebootModule4gCommunicationProcess P.comm P.ping x.call s.pingSendFlag s.work.comm =
      some (.wait, flag, t)) : ∃ did, s.initCall P x = some (did,
        { s with
          work := { s.work with comm := t, processRetryTimes := 0 }
          pingSendFlag := flag }) := by
  have hreport : Work.waitReport { s.work with comm := t } P.comm.config.moduleType =
      { s.work with comm := t } := if_neg (by simp only [hdelay]; decide)
  unfold System.initCall System.initWork
  rw [if_pos hpower, h]
  simp only [Option.map_some, hreport]
  exact ⟨_, rfl⟩

/-- What a call of the start comes to. -/
theorem System.Waiting.reboot (h : s.Waiting P n l) (x : CallInput P.comm.config) (hpos : P.ping ≠ [])
    (hroom : l + P.ping.length < P.comm.config.uartSendQueuSize) (hn : n < 12) :
    ∃ t, deviceRebootModule4gCommunicationProcess P.comm P.ping x s.pingSendFlag s.work.comm =
      some (.wait, false, t) ∧ t.Pinging P.comm (n + 1) (l + P.ping.length) := by
  have hlen := List.length_pos_of_ne_nil hpos
  obtain ⟨hpinging, hflag, -⟩ := h
  rw [Comm.reboot_silent hpinging.silent, hflag]
  by_cases h0 : n = 0
  · subst h0
    obtain ⟨t, hswitch, ht⟩ := (hpinging.save P.ping hroom).call hn nofun x
    exact ⟨t, by rw [decide_eq_true rfl, if_pos rfl, hswitch]; rfl, ht⟩
  · rw [if_neg h0] at hpinging
    obtain ⟨t, hswitch, ht⟩ := hpinging.call hn (fun _ => by omega) x
    exact ⟨t, by rw [decide_eq_false h0, if_neg Bool.false_ne_true, hswitch]; rfl, ht⟩

end

/-- What the module's silence comes to. -/
def GivingUp (P : SystemEnv) (es : List (SystemEvent P.comm.config × Option Did)) (s : System) :
    Prop :=
  ((didLog es).length < 13 → s.Waiting P (didLog es).length (savedBy es)) ∧
    ((didLog es).length = 13 → s.work.comm.netWork = .netConfig)

section
variable {P : SystemEnv} {s s' : System} {es : List (SystemEvent P.comm.config × Option Did)}

theorem savedBy_concat (es : List (SystemEvent P.comm.config × Option Did))
    (e : SystemEvent P.comm.config × Option Did) :
    savedBy (es ++ [e]) = savedBy es + if e.1 matches .save _ then 1 else 0 := by
  unfold savedBy
  rw [List.filter_append, List.length_append]
  cases he : e.1 <;> simp [he]

section
variable {t t' : System} {did : Option Did}

theorem GivingUp.others {d : Device} {flag : Bool} (h : GivingUp P es t)
    (hstep : SystemStep P t (.others d flag, did) t') :
    GivingUp P (es ++ [(.others d flag, did)]) t' := by
  unfold SystemStep System.step at hstep
  obtain ⟨⟨ret, w⟩, hw, heq⟩ := Option.map_eq_some_iff.1 hstep
  cases heq
  unfold Work.step at hw
  split at hw
  · cases hw
  cases hw
  unfold GivingUp
  rw [didLog_concat, savedBy_concat]
  simp only [Option.toList_none, List.append_nil]
  refine ⟨fun hn => ?_, h.2⟩
  obtain ⟨hpinging, hflag, hdelay⟩ := h.1 hn
  exact ⟨⟨hpinging.silent, hpinging.netWork, hpinging.communicateStep, hpinging.send,
    hpinging.pending, hpinging.processWorkStep, hpinging.failTimes, hpinging.waits⟩, hflag, hdelay⟩

theorem GivingUp.save {m : PubMsg P.comm.config} (h : GivingUp P es t)
    (hroom : P.ping.length + savedBy (es ++ [(.save m, did)]) < P.comm.config.uartSendQueuSize)
    (hstep : SystemStep P t (.save m, did) t') : GivingUp P (es ++ [(.save m, did)]) t' := by
  unfold SystemStep System.step at hstep
  obtain ⟨⟨ret, w⟩, hw, heq⟩ := Option.map_eq_some_iff.1 hstep
  cases heq
  unfold Work.step at hw
  split at hw
  · cases hw
  cases hw
  have hsaved : savedBy (es ++ [(.save m, none)]) = savedBy es + 1 := savedBy_concat es _
  unfold GivingUp
  rw [hsaved] at hroom ⊢
  rw [didLog_concat]
  simp only [Option.toList_none, List.append_nil]
  refine ⟨fun hn => ?_, h.2⟩
  obtain ⟨hpinging, hflag, hdelay⟩ := h.1 hn
  have hnext := hpinging.save [m] (by rw [List.length_singleton]; split <;> omega)
  refine ⟨?_, hflag, hdelay⟩
  rw [List.length_singleton] at hnext
  split at hnext
  · rename_i h0
    rw [if_pos h0]
    exact hnext
  · rename_i h0
    rw [if_neg h0, Nat.add_right_comm]
    exact hnext

theorem GivingUp.call {x : SystemInput P.comm.config} (h : GivingUp P es t)
    (hpower : P.route.noPowerOff = true) (hpos : P.ping ≠ [])
    (hroom : P.ping.length + savedBy es < P.comm.config.uartSendQueuSize)
    (hstep : SystemStep P t (.call x, did) t') : GivingUp P (es ++ [(.call x, did)]) t' := by
  have hsaved : savedBy (es ++ [(.call x, did)]) = savedBy es := savedBy_concat es _
  unfold SystemStep System.step at hstep
  simp only at hstep
  split at hstep
  · cases hstep
  obtain ⟨⟨did', u⟩, hcall, heq⟩ := Option.map_eq_some_iff.1 hstep
  cases heq
  unfold GivingUp
  rw [hsaved, didLog_concat]
  simp only [Option.toList_some, List.length_append, List.length_singleton]
  have hwaiting : (didLog es).length < 13 → t.Waiting P (didLog es).length (savedBy es) ∧
      t.initCall P x = some (did', u) := by
    intro hn
    have hwaiting := h.1 hn
    rw [System.call_of_init hwaiting.pinging.netWork] at hcall
    exact ⟨hwaiting, hcall⟩
  constructor
  · intro hn
    obtain ⟨hwait, hinit⟩ := hwaiting (by omega)
    obtain ⟨v, hreboot, hv⟩ := hwait.reboot x.call hpos (by omega) (by omega)
    obtain ⟨did'', hinit'⟩ := System.initCall_of_wait hpower hwait.waitReportDelay hreboot
    rw [hinit'] at hinit
    cases hinit
    refine ⟨?_, rfl, hwait.waitReportDelay⟩
    rw [if_neg (Nat.succ_ne_zero _)]
    exact hv
  · intro hn
    obtain ⟨hwait, hinit⟩ := hwaiting (by omega)
    have h12 : (didLog es).length = 12 := by omega
    rw [h12] at hwait
    obtain ⟨v, hswitch⟩ := hwait.pinging.last x.call
    unfold System.initCall at hinit
    rw [if_pos hpower, Comm.reboot_silent hwait.pinging.silent, hwait.pingSendFlag,
      decide_eq_false (by decide), if_neg Bool.false_ne_true, hswitch] at hinit
    cases hinit
    obtain ⟨ws, r, n, b, hw, -⟩ := Work.waitReport_eq { t.work with
      comm := { v with registered := false, netWork := .netConfig } } P.comm.config.moduleType
    unfold System.initWork
    simp only
    rw [hw]

end

/-- A board that keeps the connection over a reboot, but whose module does not answer, goes on with
the ping for twelve calls and gives the connection up in the next, whatever the rest of the program
changes and publishes meanwhile. -/
theorem givesUp_of_silent (h : Run (SystemStep P) s es s') (hs : s.Booted)
    (hpower : P.route.noPowerOff = true) (hpos : P.ping ≠ []) (hquiet : ∀ e ∈ es, e.1.Quiet)
    (hroom : P.ping.length + savedBy es < P.comm.config.uartSendQueuSize) :
    ((didLog es).length < 13 → s'.work.comm.netWork = .init) ∧
      ((didLog es).length = 13 → s'.work.comm.netWork = .netConfig) := by
  have hinv : (∀ e ∈ es, e.1.Quiet) → P.ping.length + savedBy es < P.comm.config.uartSendQueuSize →
      GivingUp P es s' := by
    refine h.inv_trace (I := fun es s => (∀ e ∈ es, e.1.Quiet) →
      P.ping.length + savedBy es < P.comm.config.uartSendQueuSize → GivingUp P es s) ?_
        fun _ _ => ⟨fun _ => hs.waiting, nofun⟩
    rintro es t ⟨e, did⟩ t' ih hstep hquiet hroom
    obtain ⟨hquiet, he⟩ := List.forall_mem_append.1 hquiet
    have hless : savedBy es ≤ savedBy (es ++ [(e, did)]) := by
      rw [savedBy_concat]
      exact Nat.le_add_right _ _
    have hgiving := ih hquiet (by omega)
    cases e with
    | uart bs => exact (he _ (List.mem_singleton_self _)).elim
    | save m => exact hgiving.save hroom hstep
    | others d flag => exact hgiving.others hstep
    | call x => exact hgiving.call hpower hpos (by omega) hstep
  obtain ⟨hwaiting, hgone⟩ := hinv hquiet hroom
  exact ⟨fun hn => (hwaiting hn).pinging.netWork, hgone⟩

/-- The small system, whose module does not answer. -/
theorem givesUp_of_silent_small : ∃ es s', Run (SystemStep keptEnv) keptSystem es s' ∧
    (didLog es).length = 13 ∧ s'.work.comm.netWork = .netConfig := by
  have h : (keptSystem.exec keptEnv (List.replicate 13 (answered keptConfig []))).map
      (fun x => ((didLog x.1).length, savedBy x.1, x.1.all fun e => e.1 matches .call _)) =
        some (13, 0, true) := by
    decide +kernel
  obtain ⟨⟨es, s'⟩, hx, heq⟩ := Option.map_eq_some_iff.1 h
  obtain ⟨hlen, hsaved, hcalls⟩ : (didLog es).length = 13 ∧ savedBy es = 0 ∧
      (es.all fun e => e.1 matches .call _) = true := by simpa using heq
  have hrun := System.run_of_exec hx
  have hbooted : keptSystem.Booted := ⟨⟨rfl, rfl, rfl, rfl, rfl, rfl, rfl⟩, rfl, rfl, ⟨rfl, rfl, rfl⟩,
    ⟨rfl, rfl⟩, rfl, rfl⟩
  have hquiet : ∀ e ∈ es, e.1.Quiet := by
    intro e he
    have hcall := List.all_eq_true.1 hcalls e he
    unfold SystemEvent.Quiet
    split
    · rename_i hu
      rw [hu] at hcall
      cases hcall
    · trivial
  have hroom : keptEnv.ping.length + savedBy es < keptEnv.comm.config.uartSendQueuSize := by
    rw [hsaved]
    decide
  exact ⟨es, s', hrun, hlen,
    (givesUp_of_silent hrun hbooted rfl (List.cons_ne_nil _ _) hquiet hroom).2 hlen⟩

end

end AppXd.Net4g
