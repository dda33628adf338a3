import AppXd.Net4g.RecvSpec
import AppXd.Net4g.WifiSwitch

/-!
# The start over the kept connection

On a board that does not cut its power the module keeps the connection while the device reboots.
`deviceRebootModule4gCommunicationProcess` publishes one report, the ping, and gives the connection
up unless the first message that it handles is the server's answer. The procedure shares the
reception and the publishing with the communication.
-/

namespace AppXd.Net4g

open CStr (strcmp textAt)

/-- The values that `device_reboot_module_4g_communication_process` returns; `fin` is
`PROCESS_END`. -/
inductive RebootRet
  | wait | fin | netDisconnect
  deriving DecidableEq, Repr

namespace Comm

variable (E : CommEnv) (s : Comm)

/-- The command at the head of the queue. It is carried out in any case. -/
def handlePong (x : CallInput E.config) : Option (RebootRet × Comm) :=
  let m := E.config.moduleType
  match getAtRspKeywordsPb s.headCmd.qData (netMqttCtrlCmdHead m) (topicKeyNum m) with
  | none => none
  | some (k, buf) =>
    if k.ret then
      match s.analyze E x k.decryptInput with
      | none => none
      | some (pbParseRet, s) =>
        let s := s.takeCmd E buf
        if pbParseRet = 14 then some (.fin, s)
        else some (.netDisconnect, { s with communicateStep := 0 })
    else
      let s := s.takeCmd E buf
      if strcmp (textAt buf 0) (netMqttDisconnectCmdHead m) = 0 then
        some (.netDisconnect, { s with communicateStep := 0 })
      else some (.wait, s)

def rebootRecvStep (x : CallInput E.config) : Option (RebootRet × Comm) :=
  if s.recv.qHead ≠ s.recv.qTail then s.handlePong E x
  else if getPubMsgFlag s.send then some (.wait, { s with communicateStep := 2 })
  else if s.getCellInfoFlag then some (.wait, s.getCellInfoProcess E.config.moduleType)
  else some (.wait, s)

/-- Other than in the communication, a message that gets no prompt is dropped as well. -/
def rebootPubStep : RebootRet × Comm :=
  let s' := s.afterSend E
  if (s.sendData E).ret = 1 then
    (.wait, { s' with send := resetPubMsgQueue E.config s'.send, communicateStep := 1 })
  else if (s.sendData E).ret = 2 then
    (.netDisconnect, { s' with send := resetPubMsgQueue E.config s'.send, communicateStep := 0 })
  else (.wait, s')

/-- The switch on `communicateStep`. -/
def rebootSwitch (x : CallInput E.config) : Option (RebootRet × Comm) :=
  match s.communicateStep with
  | 0 => some (.wait, { s with registered := true, communicateStep := 1 })
  | 1 => s.rebootRecvStep E x
  | 2 => some (s.rebootPubStep E)
  | _ => some (.wait, s)

/-- The state in which a call enters the switch. The first call saves the ping. -/
def pinged (x : CallInput E.config) (ping : List (PubMsg E.config)) (pingSendFlag : Bool) : Comm :=
  if pingSendFlag then (s.afterReceive E x).save E.config ping else s.afterReceive E x

end Comm

/-- `device_reboot_module_4g_communication_process`, with its return value and the new value of the
`static` variable `ping_send_flag`. `ping` is what `InfoDeviceDataPingPubTopic` saves. -/
def deviceRebootModule4gCommunicationProcess (E : CommEnv) (ping : List (PubMsg E.config))
    (x : CallInput E.config) (pingSendFlag : Bool) (s : Comm) : Option (RebootRet × Bool × Comm) :=
  if (s.received E).ret = 10 then
    some (.netDisconnect, pingSendFlag, { s.afterReceive E x with communicateStep := 0 })
  else
    ((s.pinged E x ping pingSendFlag).rebootSwitch E x).map fun (ret, t) => (ret, false, t)

/-! ## The answer -/

section
variable {b : Board} {d : Device}

theorem configClear_ret_le (m : DeviceConfig b) (d : Device) : (configClear m d).2 ≤ 13 := by
  have hssid : (clearSsid m (d.setFlag 1 1) 0).2 ≤ 11 := by
    unfold clearSsid
    split
    · exact Nat.le_refl 11
    · exact Nat.zero_le 11
  unfold configClear
  simp only
  unfold clearPassword
  split
  · simp only
    split
    · exact Nat.le_refl 13
    · exact Nat.le_succ 12
  · exact hssid.trans (by decide)

theorem configSet_ret_le {m : DeviceConfig b} {x : Device × Nat} (h : configSet m d = some x) :
    x.2 ≤ 10 := by
  unfold configSet at h
  obtain ⟨d₁, -, rfl⟩ := Option.map_eq_some_iff.1 h
  have hwifi : (configSetFirst m d).2 ≤ 2 := by
    refine (setWifiEnable_ret m _ 0).trans_le ?_
    split
    · decide
    split <;> decide
  have hssid : (setSsid m (setCubbyDisable m d₁) (configSetFirst m d).2).2 ≤ 7 := by
    rw [setSsid_ret]
    split
    · split
      · decide
      split <;> decide
    · exact hwifi.trans (by decide)
  unfold configSetRest
  simp only
  rw [setPassword_ret]
  split
  · split
    · decide
    split
    · decide
    split
    · decide
    split <;> decide
  · exact hssid.trans (by decide)

theorem configCommand_ret_le {m : ConfigCommand b} {r : RspRet} (h : configCommand d m = some r) :
    r.ret ≤ 13 := by
  unfold configCommand at h
  split at h
  · cases h
    exact Nat.zero_le 13
  unfold configRun at h
  simp only at h
  split at h
  · cases h
    exact Nat.zero_le 13
  · split at h <;> cases h <;> exact Nat.zero_le 13
  · split at h
    · obtain ⟨x, hx, rfl⟩ := Option.map_eq_some_iff.1 h
      exact (configSet_ret_le hx).trans (by decide)
    · cases h
      exact Nat.zero_le 13
  · split at h
    · cases h
      exact configClear_ret_le _ _
    · cases h
      exact Nat.zero_le 13
  · cases h
    exact Nat.zero_le 13

/-- Of the device commands only the answer to a ping has this number, and only outside `NORMAL`. -/
theorem deviceCommand_ret {netWork : NetworkWorkStep} {m : DeviceCommand} :
    (deviceCommand netWork d m).ret = 14 ↔ m.command = 15 ∧ netWork ≠ .normal := by
  unfold deviceCommand
  simp only
  split
  case h_7 hnat =>
    have hcommand : m.command = 15 := UInt32.toNat_inj.1 hnat
    split
    · rename_i hn
      exact iff_of_false nofun fun h => h.2 hn
    · rename_i hn
      exact iff_of_true rfl ⟨hcommand, hn⟩
  case h_14 _ _ _ _ _ _ h15 _ _ _ _ _ _ =>
    exact iff_of_false nofun fun h => h15 (by rw [h.1]; rfl)
  all_goals
    rename_i hnat
    refine iff_of_false nofun fun h => ?_
    rw [h.1] at hnat
    revert hnat
    decide

theorem rspOperation_ret {netWork : NetworkWorkStep} {dec : Decoder b} {op : Operation}
    {pbdata : List UInt8} {r : RspRet} (h : rspOperation netWork d dec op pbdata = some r)
    (hret : r.ret = 14) : op = .device ∧ netWork ≠ .normal ∧
      ∃ m, dec.device pbdata = some m ∧ m.command = 15 := by
  unfold rspOperation at h
  split at h
  · cases h
    cases hret
  rename_i msg hmsg
  cases op with
  | device =>
    obtain ⟨m, hm, rfl⟩ := Option.map_eq_some_iff.1 hmsg
    cases h
    obtain ⟨hcommand, hn⟩ := deviceCommand_ret.1 hret
    exact ⟨rfl, hn, m, hm, hcommand⟩
  | config =>
    obtain ⟨m, -, rfl⟩ := Option.map_eq_some_iff.1 hmsg
    have hle := configCommand_ret_le h
    omega
  | slot =>
    obtain ⟨m, -, rfl⟩ := Option.map_eq_some_iff.1 hmsg
    cases h
    unfold slotCommand at hret
    simp only at hret
    split at hret <;> cases hret
  | cubby =>
    obtain ⟨m, -, rfl⟩ := Option.map_eq_some_iff.1 hmsg
    cases h
    unfold cubbyCommand at hret
    split at hret
    · cases hret
    simp only at hret
    split at hret <;> cases hret
  | ota =>
    obtain ⟨m, -, rfl⟩ := Option.map_eq_some_iff.1 hmsg
    cases h
    have hzero : ∀ d' : Device, (if d'.globalInfo.deviceNoPowerMode ≠ 1 then
        (d'.emit (.publish (.deviceVersion m.header.traceId m.command))).rspRet 0
        else (d'.emit (.publish (.lowPowerData 0 0))).rspRet 0).ret = 0 := by
      intro d'
      split <;> rfl
    exact absurd ((hzero _).symm.trans hret) (by decide)
  | lowpower =>
    obtain ⟨m, -, rfl⟩ := Option.map_eq_some_iff.1 hmsg
    cases h
    cases hret

theorem rspAnalyze_ret {netWork : NetworkWorkStep} {dec : Decoder b} {topic pbdata : List UInt8}
    {r : RspRet} (h0 : 0 ∉ topic) (h : rspAnalyze netWork d dec topic pbdata = some (some r))
    (hret : r.ret = 14) : OwnTopic b d .device topic ∧ netWork ≠ .normal ∧
      ∃ m, dec.device pbdata = some m ∧ m.command = 15 := by
  rw [rspAnalyze_eq] at h
  split at h
  · cases h
  split at h
  · cases h
    cases hret
  split at h
  · cases h
  · cases h
  · rename_i op hlevels
    obtain ⟨r', hop, heq⟩ := Option.map_eq_some_iff.1 h
    cases heq
    obtain ⟨rfl, hm⟩ := rspOperation_ret hop hret
    exact ⟨(rspLevels_eq_some_iff h0).1 hlevels, hm⟩

/-- Without a return value `RspAnalyze` ends on foreign topics only. -/
theorem rspAnalyze_noValue {netWork : NetworkWorkStep} {dec : Decoder b} {topic pbdata : List UInt8}
    (h0 : 0 ∉ topic) (h : rspAnalyze netWork d dec topic pbdata = some none) (op : Operation) :
    ¬ OwnTopic b d op topic := by
  intro hown
  rw [rspAnalyze_eq, (rspLevels_eq_some_iff h0).2 hown] at h
  split at h
  · cases h
  split at h
  · cases h
  · obtain ⟨r, -, heq⟩ := Option.map_eq_some_iff.1 h
    cases heq

end

namespace Comm

/-- The message is the server's answer to a ping: addressed to this device and encrypted for it. -/
def Pong (E : CommEnv) (t : Comm) (i : DecryptInput) : Prop :=
  OwnTopic E.board t.device .device i.topic ∧
    ∃ pbdata m, t.clearText E i = some pbdata ∧ E.decoder.device pbdata = some m ∧ m.command = 15

/-- The command at the head of the queue holds such an answer. On a foreign topic `RspAnalyze` may
end without a return value, and what is found in its place may pass for one. -/
def Answered (E : CommEnv) (t : Comm) : Prop :=
  ∃ k buf, headFields E t = some (k, buf) ∧ k.ret = true ∧ (Pong E t k.decryptInput ∨
    ∀ op, ¬ OwnTopic E.board t.device op k.decryptInput.topic)

section
variable {E : CommEnv} {s t : Comm} {x : CallInput E.config}

theorem analyze_cases {i : DecryptInput} {n : Nat} (h : s.analyze E x i = some (n, t)) : n = 0 ∨
    ∃ pbdata, s.clearText E i = some pbdata ∧ s.dispatch E x i.topic pbdata = some (n, t) := by
  have hlen : i.len ≠ 0 := by
    intro hzero
    unfold analyze at h
    rw [if_pos hzero] at h
    cases h
  cases hclear : s.clearText E i with
  | some pbdata =>
    rw [analyze_of_clearText hlen hclear] at h
    exact .inr ⟨pbdata, rfl, h⟩
  | none =>
    unfold clearText at hclear
    simp only at hclear
    split at hclear
    · cases hclear
    · rename_i hle
      unfold analyze at h
      rw [if_neg hlen] at h
      simp only [if_neg hle] at h
      cases h
      exact .inl rfl

theorem answered_of_analyze {k : PbKeywords} {buf : List UInt8}
    (hfields : headFields E s = some (k, buf)) (hk : k.ret = true) (h : s.analyze E x k.decryptInput = some (14, t)) : s.Answered E := by
  refine ⟨k, buf, hfields, hk, ?_⟩
  have h0 : 0 ∉ k.decryptInput.topic := CStr.zero_notMem_textAt _ _
  obtain hzero | ⟨pbdata, hclear, hdispatch⟩ := analyze_cases h
  · cases hzero
  unfold dispatch at hdispatch
  split at hdispatch
  · cases hdispatch
  · exact .inr (rspAnalyze_noValue h0 ‹_›)
  · rename_i r hr
    have hret : r.ret = 14 := (Prod.mk.inj (Option.some.inj hdispatch)).1
    obtain ⟨hown, -, m, hm, hcommand⟩ := rspAnalyze_ret h0 hr hret
    exact .inl ⟨hown, pbdata, m, hclear, hm, hcommand⟩

end

/-! ## The outcomes of a call -/

section
variable {E : CommEnv} {s s' : Comm} {x : CallInput E.config} {ping : List (PubMsg E.config)}
variable {flag flag' : Bool} {ret : RebootRet}

/-- The ping goes to the publish queue and leaves the rest alone. -/
theorem pinged_eq (E : CommEnv) (s : Comm) (x : CallInput E.config) (ping : List (PubMsg E.config))
    (flag : Bool) : ∃ q, s.pinged E x ping flag =
      { s with recv := (s.received E).recv, info := (s.received E).info, send := q } := by
  unfold pinged afterReceive
  split <;> exact ⟨_, rfl⟩

/-- The outcomes of a call that meets the queue in the state `t`. -/
inductive RebootOutcome (E : CommEnv) (t : Comm) : RebootRet → Comm → Prop
  | register : t.communicateStep = 0 →
    RebootOutcome E t .wait { t with registered := true, communicateStep := 1 }
  | pong (u : Comm) : t.communicateStep = 1 → t.recv.qHead ≠ t.recv.qTail → t.Answered E →
    u.netWork = t.netWork → RebootOutcome E t .fin u
  | unwanted (u : Comm) : t.communicateStep = 1 → t.recv.qHead ≠ t.recv.qTail →
    RebootOutcome E t .netDisconnect u
  | unknown (u : Comm) : t.communicateStep = 1 → t.recv.qHead ≠ t.recv.qTail →
    u.netWork = t.netWork → RebootOutcome E t .wait u
  | publish : t.communicateStep = 1 → t.recv.qHead = t.recv.qTail → getPubMsgFlag t.send = true →
    RebootOutcome E t .wait { t with communicateStep := 2 }
  | quiet (ws : List Write) (i : Nat) (f : Bool) : t.communicateStep = 1 →
    t.recv.qHead = t.recv.qTail → getPubMsgFlag t.send = false →
    RebootOutcome E t .wait { t with writes := ws, getCellInfoStep := i, getCellInfoFlag := f }
  | send : t.communicateStep = 2 → RebootOutcome E t (t.rebootPubStep E).1 (t.rebootPubStep E).2
  | idle : 3 ≤ t.communicateStep → RebootOutcome E t .wait t

theorem handlePong_outcome (h1 : s.communicateStep = 1) (hne : s.recv.qHead ≠ s.recv.qTail)
    (h : s.handlePong E x = some (ret, s')) : RebootOutcome E s ret s' := by
  unfold handlePong at h
  simp only at h
  split at h
  · cases h
  rename_i k buf hfields
  cases hk : k.ret with
  | true =>
    rw [hk, if_pos rfl] at h
    split at h
    · cases h
    rename_i n t hana
    split at h
    · rename_i hn
      subst hn
      cases h
      obtain ⟨d, ms, rfl⟩ := analyze_eq hana
      exact .pong _ h1 hne (answered_of_analyze hfields hk hana) rfl
    · cases h
      exact .unwanted _ h1 hne
  | false =>
    rw [hk, if_neg Bool.false_ne_true] at h
    split at h
    · cases h
      exact .unwanted _ h1 hne
    · cases h
      exact .unknown _ h1 hne rfl

theorem rebootSwitch_outcome (h : s.rebootSwitch E x = some (ret, s')) : RebootOutcome E s ret s' := by
  unfold rebootSwitch at h
  split at h
  · cases h
    exact .register ‹_›
  · rename_i h1
    unfold rebootRecvStep at h
    split at h
    · exact handlePong_outcome h1 ‹_› h
    rename_i heq
    have heq := Decidable.not_not.1 heq
    split at h
    · cases h
      exact .publish h1 heq ‹_›
    rename_i hflag
    have hflag := Bool.eq_false_iff.2 hflag
    split at h
    · cases h
      obtain ⟨ws, i, f, hinfo, -⟩ := getCellInfoProcess_eq s E.config.moduleType
      rw [hinfo]
      exact .quiet ws i f h1 heq hflag
    · cases h
      exact .quiet s.writes s.getCellInfoStep s.getCellInfoFlag h1 heq hflag
  · rename_i h2
    have hpub := Option.some.inj h
    rw [← show (s.rebootPubStep E).1 = ret from congrArg Prod.fst hpub,
      ← show (s.rebootPubStep E).2 = s' from congrArg Prod.snd hpub]
    exact .send h2
  · rename_i h0 h1 h2
    cases h
    have hne : s.communicateStep ≠ 0 ∧ s.communicateStep ≠ 1 ∧ s.communicateStep ≠ 2 := ⟨h0, h1, h2⟩
    exact .idle (by omega)

theorem rebootPubStep_ret (s : Comm) : (s.rebootPubStep E).1 ≠ .fin ∧
    (s.rebootPubStep E).2.netWork = s.netWork := by
  unfold rebootPubStep
  simp only
  split
  · exact ⟨nofun, rfl⟩
  split <;> exact ⟨nofun, rfl⟩

/-- Only the server's answer ends the start, and as long as it goes on the work step stays. -/
theorem RebootOutcome.ends (h : RebootOutcome E s ret s') :
    (ret = .fin → s.Answered E) ∧ (ret ≠ .netDisconnect → s'.netWork = s.netWork) := by
  cases h with
  | pong u _ _ hanswered hn => exact ⟨fun _ => hanswered, fun _ => hn⟩
  | unwanted => exact ⟨nofun, fun hne => absurd rfl hne⟩
  | unknown u _ _ hn => exact ⟨nofun, fun _ => hn⟩
  | send => exact ⟨fun h => absurd h (rebootPubStep_ret s).1, fun _ => (rebootPubStep_ret s).2⟩
  | register | publish | quiet | idle => exact ⟨nofun, fun _ => rfl⟩

end

end Comm

section
variable {E : CommEnv} {s s' : Comm} {x : CallInput E.config} {ping : List (PubMsg E.config)}
variable {flag flag' : Bool} {ret : RebootRet}

theorem reboot_ends
    (h : deviceRebootModule4gCommunicationProcess E ping x flag s = some (ret, flag', s')) :
    (ret = .fin → (s.pinged E x ping flag).Answered E) ∧
      (ret ≠ .netDisconnect → s'.netWork = s.netWork) := by
  unfold deviceRebootModule4gCommunicationProcess at h
  split at h
  · cases h
    exact ⟨nofun, fun hne => absurd rfl hne⟩
  · obtain ⟨⟨ret', t⟩, hswitch, heq⟩ := Option.map_eq_some_iff.1 h
    cases heq
    obtain ⟨hfin, hn⟩ := (Comm.rebootSwitch_outcome hswitch).ends
    obtain ⟨q, hq⟩ := Comm.pinged_eq E s x ping flag
    refine ⟨hfin, fun hne => (hn hne).trans ?_⟩
    rw [hq]

end

/-! ## A silent module -/

/-- Nothing that the module has sent is unread or waits in the queue. -/
structure Recv.Silent (r : Recv) : Prop where
  unread : r.fifo.head = r.fifo.tail
  cmdGetStep : r.cmdGetStep = 0
  queue : r.qHead = r.qTail

theorem Recv.Silent.recvCmd {c : Config} {r : Recv} (h : r.Silent) (info : SignalInfo) :
    ∃ hi, getNet4GRecvCmd c r info = ⟨0, r, info, 0, hi⟩ := by
  have hsearch : ∀ key, (searchWindow c r.fifo key 0).found = false := by
    intro key
    unfold searchWindow getKeyDataIndex
    rw [h.unread, if_neg (Nat.lt_irrefl _), if_neg (Nat.lt_irrefl _)]
  have hnil : r.window c = [] := by
    rw [Recv.window, Fifo.window, h.unread]
    exact Ring.window_self ..
  unfold getNet4GRecvCmd
  simp only [hsearch, Bool.false_eq_true, if_false]
  split
  · exact ⟨_, rfl⟩
  split
  · exact ⟨_, rfl⟩
  · unfold recvPath
    rw [recvCmdFromFifo_zero h.cmdGetStep, if_pos hnil]
    exact ⟨_, rfl⟩

namespace Comm

/-- The start in front of a silent module, behind `n` calls and with `l` messages to be published.
The first call registers, the second looks at the queue, the third asks for the prompt, and the
others wait for it. -/
structure Pinging (E : CommEnv) (n l : Nat) (s : Comm) : Prop where
  silent : s.recv.Silent
  netWork : s.netWork = .init
  communicateStep : s.communicateStep = min n 2
  send : s.send.Wf E.config
  pending : (s.send.pending E.config).length = l
  processWorkStep : s.proc.processWorkStep = if n ≤ 2 then 0 else 1
  failTimes : s.proc.dataSendWaitRsp1FailTimes = 0
  waits : 3 ≤ n → s.recv.pubMiddleFlag = false ∧ s.proc.waitTimeCount + 3 = n

section
variable {E : CommEnv} {s : Comm} {x : CallInput E.config} {ping : List (PubMsg E.config)} {n l : Nat}

theorem reboot_silent (h : s.recv.Silent) (x : CallInput E.config) (ping : List (PubMsg E.config))
    (flag : Bool) : deviceRebootModule4gCommunicationProcess E ping x flag s =
      ((if flag then s.save E.config ping else s).rebootSwitch E x).map
        fun (ret, t) => (ret, false, t) := by
  obtain ⟨hi, hrecv⟩ := h.recvCmd (c := E.config) s.info
  have hreceived : s.received E = ⟨0, s.recv, s.info, 0, hi⟩ := hrecv
  have hafter : s.afterReceive E x = s := by
    unfold afterReceive
    rw [hreceived]
    rfl
  unfold deviceRebootModule4gCommunicationProcess pinged
  rw [hreceived, hafter]
  rfl

theorem length_pending_save (hs : s.send.Wf E.config) (ms : List (PubMsg E.config))
    (hroom : (s.send.pending E.config).length + ms.length < E.config.uartSendQueuSize) :
    (s.save E.config ms).send.Wf E.config ∧
      ((s.save E.config ms).send.pending E.config).length =
        (s.send.pending E.config).length + ms.length := by
  induction ms generalizing s with
  | nil => exact ⟨hs, rfl⟩
  | cons m ms ih =>
    rw [List.length_cons] at hroom
    have hone := Send.pending_save m hs (by omega)
    have hlen := congrArg List.length hone
    rw [List.length_append, List.length_singleton] at hlen
    obtain ⟨hwf, hpending⟩ := ih (s := s.save E.config [m]) (hs.save m)
      (lt_of_eq_of_lt (congrArg (· + ms.length) hlen) (by omega))
    refine ⟨hwf, hpending.trans ((congrArg (· + ms.length) hlen).trans ?_)⟩
    rw [List.length_cons]
    omega

theorem Pinging.save (h : s.Pinging E n l) (ms : List (PubMsg E.config))
    (hroom : l + ms.length < E.config.uartSendQueuSize) :
    (s.save E.config ms).Pinging E n (l + ms.length) := by
  obtain ⟨hwf, hpending⟩ := length_pending_save h.send ms (by rw [h.pending]; exact hroom)
  exact ⟨h.silent, h.netWork, h.communicateStep, hwf, hpending.trans (by rw [h.pending]),
    h.processWorkStep, h.failTimes, h.waits⟩

/-- While the start waits for the prompt, a call counts up to ten. -/
theorem Pinging.sendData (h : s.Pinging E n l) (hn : 3 ≤ n) (hle : n ≤ 12) :
    s.sendData E = if n < 12 then ⟨0, { s.proc with waitTimeCount := n - 2 }, s.recv, none⟩
      else ⟨2, { s.proc with waitTimeCount := n - 2, processWorkStep := 0 }, s.recv.clearMiddle,
        none⟩ := by
  obtain ⟨hmiddle, hcount⟩ := h.waits hn
  have hstep : s.proc.processWorkStep = 1 := by
    rw [h.processWorkStep, if_neg (by omega)]
  have hnext : (s.proc.waitTimeCount + 1) % 65536 = n - 2 := by omega
  unfold Comm.sendData net4gSendDataProcess
  rw [hstep, h.netWork]
  simp only [hmiddle, hnext, h.failTimes, decide_true, if_true, Bool.false_eq_true, if_false]
  by_cases hlt : n < 12
  · rw [if_pos (show n - 2 < 10 by omega), if_pos hlt, ← hstep]
  · rw [if_neg (show ¬ n - 2 < 10 by omega), if_neg hlt]
    rfl

theorem Pinging.call (h : s.Pinging E n l) (hn : n < 12) (hpos : n = 1 → 0 < l)
    (x : CallInput E.config) : ∃ t, s.rebootSwitch E x = some (.wait, t) ∧ t.Pinging E (n + 1) l := by
  unfold rebootSwitch
  rw [h.communicateStep]
  obtain rfl | rfl | rfl | ⟨k, rfl⟩ : n = 0 ∨ n = 1 ∨ n = 2 ∨ ∃ k, n = k + 3 := by
    obtain hlt | hge := Nat.lt_or_ge n 3
    · omega
    · exact .inr (.inr (.inr ⟨n - 3, by omega⟩))
  · exact ⟨_, rfl, h.silent, h.netWork, rfl, h.send, h.pending, h.processWorkStep, h.failTimes,
      by omega⟩
  · have hflag : getPubMsgFlag s.send = true := by
      refine decide_eq_true fun heq => ?_
      have hlen := h.pending
      rw [Send.length_pending, heq, Ring.unread_of_le (Nat.le_refl _), Nat.sub_self] at hlen
      exact absurd (hpos rfl) (by omega)
    refine ⟨{ s with communicateStep := 2 }, ?_, h.silent, h.netWork, rfl, h.send, h.pending,
      h.processWorkStep, h.failTimes, by omega⟩
    show s.rebootRecvStep E x = _
    unfold rebootRecvStep
    rw [if_neg (not_not.2 h.silent.queue), if_pos hflag]
  · have hstep : s.proc.processWorkStep = 0 := h.processWorkStep
    obtain ⟨write, hsend⟩ : ∃ write, s.sendData E =
        ⟨0, { s.proc with processWorkStep := 1, waitTimeCount := 0 },
          { s.recv with checkPubMiddleFlag := true, pubMiddleFlag := false }, write⟩ := by
      unfold Comm.sendData net4gSendDataProcess
      rw [hstep]
      exact ⟨_, rfl⟩
    refine ⟨s.afterSend E, ?_, ?_⟩
    · show some (s.rebootPubStep E) = _
      unfold rebootPubStep
      rw [hsend]
      rfl
    · unfold afterSend
      rw [hsend]
      exact ⟨⟨h.silent.unread, h.silent.cmdGetStep, h.silent.queue⟩, h.netWork, h.communicateStep,
        h.send, h.pending, rfl, h.failTimes, fun _ => ⟨rfl, rfl⟩⟩
  · have hsend := h.sendData (Nat.le_add_left 3 k) (Nat.le_of_lt hn)
    rw [if_pos hn] at hsend
    refine ⟨s.afterSend E, ?_, ?_⟩
    · rw [show min (k + 3) 2 = 2 by omega]
      show some (s.rebootPubStep E) = _
      unfold rebootPubStep
      rw [hsend]
      rfl
    · unfold afterSend
      rw [hsend]
      refine ⟨h.silent, h.netWork, h.communicateStep.trans (by omega), h.send, h.pending, ?_,
        h.failTimes, fun _ => ⟨(h.waits (Nat.le_add_left 3 k)).1, by simp only; omega⟩⟩
      rw [if_neg (by omega)]
      exact h.processWorkStep.trans (if_neg (by omega))

/-- The thirteenth call gives the connection up. -/
theorem Pinging.last (h : s.Pinging E 12 l) (x : CallInput E.config) :
    ∃ t, s.rebootSwitch E x = some (.netDisconnect, t) := by
  have hsend := h.sendData (by decide) (Nat.le_refl 12)
  refine ⟨(s.rebootPubStep E).2, ?_⟩
  unfold rebootSwitch
  rw [h.communicateStep]
  show some (s.rebootPubStep E) = _
  unfold rebootPubStep
  rw [hsend]
  rfl

end

end Comm

end AppXd.Net4g
