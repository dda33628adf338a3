import AppXd.Net4g.WifiSwitch
import AppXd.Net4g.WorkProcess

/-!
# The delayed switch to the WiFi network

`net4GWorkProcess` switches some calls after the decision, and nothing takes the decision back. The
settings then still ask for the WiFi network as long as no command that comes in between disables
the WiFi or clears its name or its password.
-/

namespace AppXd.Net4g

open CStr (ascii textAt)
open Trace (Run Guarded PFun)

/-! ## What the messages do to the settings -/

section
variable {b : Board} (m : DeviceConfig b) (d : Device)

theorem setBleEnable_wifi : (setBleEnable m d).sysInfo.wifi = d.sysInfo.wifi := by
  unfold setBleEnable
  split
  · rfl
  split <;> rfl

theorem setGsmActiveSubId_wifi : (setGsmActiveSubId m d).sysInfo.wifi = d.sysInfo.wifi := by
  unfold setGsmActiveSubId
  split <;> rfl

theorem setCubbyInterval_wifi : (setCubbyInterval m d).sysInfo.wifi = d.sysInfo.wifi := by
  unfold setCubbyInterval
  split <;> rfl

theorem setCubbyHeaderInterval_wifi :
    (setCubbyHeaderInterval m d).sysInfo.wifi = d.sysInfo.wifi := by
  unfold setCubbyHeaderInterval
  split <;> rfl

theorem setBleSpeakerVolume_wifi : (setBleSpeakerVolume m d).sysInfo.wifi = d.sysInfo.wifi := by
  unfold setBleSpeakerVolume
  split
  · dsimp only
    split <;> rfl
  · rfl

theorem setBleSpeakerName_wifi : (setBleSpeakerName m d).sysInfo.wifi = d.sysInfo.wifi := by
  unfold setBleSpeakerName
  split <;> rfl

theorem setClientIdList_wifi {m : DeviceConfig b} {d d' : Device}
    (h : setClientIdList m d = some d') : d'.sysInfo.wifi = d.sysInfo.wifi := by
  unfold setClientIdList at h
  split at h
  · obtain ⟨ids, -, rfl⟩ := Option.map_eq_some_iff.1 h
    rfl
  · cases h
    rfl

theorem setCubbyDisable_wifi : (setCubbyDisable m d).sysInfo.wifi = d.sysInfo.wifi := by
  unfold setCubbyDisable
  split <;> rfl

theorem setWifiEnable_ready (ret : Nat) (hoff : m.wifiEnable ≠ 2) (h : d.sysInfo.wifi.Ready) :
    (setWifiEnable m d ret).1.sysInfo.wifi.Ready := by
  unfold setWifiEnable
  split
  · exact ⟨h.1, rfl, h.2.2⟩
  · exact h

/-- A name that is taken is not empty. -/
theorem ne_nil_of_given {s : List UInt8} (h : given s = true) : s ≠ [] := (isSet_of_given h).1

theorem setSsid_ready (ret : Nat) (h : d.sysInfo.wifi.Ready) :
    (setSsid m d ret).1.sysInfo.wifi.Ready := by
  unfold setSsid
  split
  · rename_i hgiven
    have hname : textAt (CStr.store (CStr.clear d.sysInfo.wifi.ssid) m.ssid.chars) 0 ≠ [] := by
      rw [CStr.textAt_store_clear _ m.ssid.noNul]
      exact ne_nil_of_given hgiven
    dsimp only
    split
    · exact ⟨rfl, h.2.1, hname⟩
    split
    · exact ⟨rfl, h.2.1, hname⟩
    · exact ⟨rfl, h.2.1, hname⟩
  · exact h

theorem setPassword_ready (ret : Nat) (h : d.sysInfo.wifi.Ready) :
    (setPassword m d ret).1.sysInfo.wifi.Ready := by
  have hset : (setPassword m d ret).1.sysInfo.wifi.wifiEnableFlag = d.sysInfo.wifi.wifiEnableFlag ∧
      (setPassword m d ret).1.sysInfo.wifi.ssid = d.sysInfo.wifi.ssid ∧
      ((setPassword m d ret).1.sysInfo.wifi.wifiConfigFlag = 0xAA ∨
        (setPassword m d ret).1.sysInfo.wifi = d.sysInfo.wifi) := by
    unfold setPassword
    split
    · dsimp only
      split
      · exact ⟨rfl, rfl, .inl rfl⟩
      split
      · exact ⟨rfl, rfl, .inl rfl⟩
      split
      · exact ⟨rfl, rfl, .inl rfl⟩
      split
      · exact ⟨rfl, rfl, .inl rfl⟩
      · exact ⟨rfl, rfl, .inl rfl⟩
    · exact ⟨rfl, rfl, .inr rfl⟩
  obtain ⟨henable, hssid, hconfig | hsame⟩ := hset
  · exact ⟨hconfig, henable.trans h.2.1, hssid ▸ h.2.2⟩
  · rw [hsame]
    exact h

theorem setRemember_ready (h : d.sysInfo.wifi.Ready) : (setRemember m d).sysInfo.wifi.Ready := by
  unfold setRemember
  split
  · exact h
  split <;> exact h

end

section
variable {b : Board} {m : DeviceConfig b} {d : Device} {x : Device × Nat}

/-- A set command that does not disable the WiFi leaves settings that ask for it. -/
theorem configSet_ready (hoff : m.wifiEnable ≠ 2) (h : d.sysInfo.wifi.Ready)
    (hset : configSet m d = some x) : x.1.sysInfo.wifi.Ready := by
  unfold configSet at hset
  obtain ⟨d₁, hd₁, rfl⟩ := Option.map_eq_some_iff.1 hset
  have hfirst : (configSetFirst m d).1.sysInfo.wifi.Ready := by
    unfold configSetFirst
    simp only [setBleSpeakerPairCode_sysInfo, setBleSpeakerName_wifi, setBleSpeakerVolume_wifi,
      setBleSpeakerBroadEnable_sysInfo, setCubbyHeaderInterval_wifi, setCubbyInterval_wifi,
      setGsmActiveSubId_wifi]
    apply setWifiEnable_ready _ _ _ hoff
    rw [setBleEnable_wifi]
    exact h
  have hids : (setCubbyDisable m d₁).sysInfo.wifi.Ready := by
    rw [setCubbyDisable_wifi, setClientIdList_wifi hd₁]
    exact hfirst
  simp only [writeIfFlagged_sysInfo]
  exact setRemember_ready _ _ (setPassword_ready _ _ _ (setSsid_ready _ _ _ hids))

/-- A clear command that names neither of the two texts leaves the settings of the WiFi. -/
theorem configClear_wifi (hssid : marked characteristic27 m.ssid.chars = false)
    (hpassword : marked characteristic27 m.password.chars = false) :
    (configClear m d).1.sysInfo.wifi = d.sysInfo.wifi := by
  rw [configClear_sysInfo]
  unfold SysInfo.cleared
  simp only [hssid, hpassword]
  rfl

end

/-- An accepted config message disables the WiFi, or clears its name or its password. -/
def ConfigCommand.DisablesWifi {b : Board} (m : ConfigCommand b) : Prop :=
  m.hasDeviceConfig = true ∧ (m.command = 26 ∧ m.deviceConfig.wifiEnable = 2 ∨
    m.command = 27 ∧ (marked characteristic27 m.deviceConfig.ssid.chars = true ∨
      marked characteristic27 m.deviceConfig.password.chars = true))

instance {b : Board} (m : ConfigCommand b) : Decidable m.DisablesWifi :=
  inferInstanceAs (Decidable (_ ∧ _))

section
variable {b : Board} {d : Device} {m : ConfigCommand b} {r : RspRet}

theorem configCommand_ready (hoff : Accepts d m.header.opCode → ¬ m.DisablesWifi)
    (h : d.sysInfo.wifi.Ready) (hr : configCommand d m = some r) : r.device.sysInfo.wifi.Ready := by
  by_cases ha : Accepts d m.header.opCode
  · have hoff := hoff ha
    unfold configCommand configRun at hr
    simp only [acceptOpCode_of_accepts ha] at hr
    split at hr
    · cases hr
      exact h
    · split at hr
      · have hsys : (configQuery m.deviceConfig (d.configBegin m)).sysInfo = d.sysInfo :=
          configQuery_sysInfo m.deviceConfig (d.configBegin m)
        cases hr
        rw [← hsys] at h
        exact h
      · cases hr
        exact h
    · rename_i hnat
      have hc : m.command = 26 := UInt32.toNat_inj.1 hnat
      split at hr
      · rename_i hhas
        obtain ⟨x, hx, rfl⟩ := Option.map_eq_some_iff.1 hr
        have hready : x.1.sysInfo.wifi.Ready :=
          configSet_ready (d := d.configBegin m) (fun h2 => hoff ⟨hhas, .inl ⟨hc, h2⟩⟩) h hx
        exact hready
      · cases hr
        exact h
    · rename_i hnat
      have hc : m.command = 27 := UInt32.toNat_inj.1 hnat
      split at hr
      · rename_i hhas
        have hssid := Bool.eq_false_iff.2 fun h' => hoff ⟨hhas, .inr ⟨hc, .inl h'⟩⟩
        have hpassword := Bool.eq_false_iff.2 fun h' => hoff ⟨hhas, .inr ⟨hc, .inr h'⟩⟩
        have hwifi : (configClear m.deviceConfig (d.configBegin m)).1.sysInfo.wifi =
            d.sysInfo.wifi := configClear_wifi hssid hpassword
        cases hr
        rw [← hwifi] at h
        exact h
      · cases hr
        exact h
    · cases hr
      exact h
  · unfold configCommand at hr
    rw [acceptOpCode_of_not_accepts ha] at hr
    cases hr
    exact h

end

/-! ### The other messages -/

section
variable {b : Board} (d : Device)

theorem acceptOpCode_sysInfo {d d' : Device} {opCode : UInt32}
    (h : d.acceptOpCode opCode = some d') : d'.sysInfo = d.sysInfo := by
  obtain ⟨code, -, rfl⟩ := Option.map_eq_some_iff.1 h
  rfl

theorem noteOpCode_sysInfo (opCode : UInt32) : (d.noteOpCode opCode).sysInfo = d.sysInfo := by
  unfold Device.noteOpCode
  cases h : d.acceptOpCode opCode with
  | none => rfl
  | some d' => exact acceptOpCode_sysInfo h

theorem slotCmdRun_sysInfo (i : UInt32) (c : Option SlotCmd) :
    (slotCmdRun b d i c).1.sysInfo = d.sysInfo := by
  unfold slotCmdRun
  split <;> rfl

theorem slotCommand_sysInfo (m : SlotCommand) :
    (slotCommand b d m).device.sysInfo = d.sysInfo := by
  unfold slotCommand
  simp only
  split
  · rfl
  · rename_i d' hd'
    have hsys : d'.sysInfo = d.sysInfo := acceptOpCode_sysInfo (d := m.clearRows d) hd'
    exact (slotCmdRun_sysInfo _ _ _).trans hsys

theorem cubbyCommand_sysInfo (m : CubbyCommand) :
    (cubbyCommand b d m).device.sysInfo = d.sysInfo := by
  unfold cubbyCommand
  split
  · rfl
  · rename_i d' hd'
    have hsys := acceptOpCode_sysInfo hd'
    simp only
    split <;> exact hsys

theorem deviceCommand_sysInfo (netWork : NetworkWorkStep) (m : DeviceCommand) :
    (deviceCommand netWork d m).device.sysInfo = d.sysInfo := by
  have hsys := noteOpCode_sysInfo d m.header.opCode
  unfold deviceCommand
  simp only
  split <;> first | exact hsys | (split <;> exact hsys)

theorem otaCommand_sysInfo (m : Ota b) : (otaCommand m d).device.sysInfo = d.sysInfo := by
  have hsys := noteOpCode_sysInfo d m.header.opCode
  unfold otaCommand
  simp only
  split <;> split <;> exact hsys

theorem lowpowerCommand_sysInfo (m : LowpowerCommand) :
    (lowpowerCommand d m).device.sysInfo = d.sysInfo := by
  have hsys := noteOpCode_sysInfo d m.header.opCode
  unfold lowpowerCommand
  simp only
  split
  · split
    · exact hsys
    split <;> exact hsys
  · exact hsys

/-- No message but a config message touches the settings. -/
theorem rspHandle_ready {netWork : NetworkWorkStep} {d : Device} {msg : RspMsg b} {r : RspRet}
    (hoff : ∀ m, msg = .config m → Accepts d m.header.opCode → ¬ m.DisablesWifi)
    (h : d.sysInfo.wifi.Ready) (hr : rspHandle netWork d msg = some r) :
    r.device.sysInfo.wifi.Ready := by
  cases msg with
  | config m => exact configCommand_ready (hoff m rfl) h hr
  | slot m =>
    cases hr
    rw [slotCommand_sysInfo]
    exact h
  | cubby m =>
    cases hr
    rw [cubbyCommand_sysInfo]
    exact h
  | device m =>
    cases hr
    rw [deviceCommand_sysInfo]
    exact h
  | ota m =>
    cases hr
    rw [otaCommand_sysInfo]
    exact h
  | lowpower m =>
    cases hr
    rw [lowpowerCommand_sysInfo]
    exact h

end

section
variable {b : Board} {netWork : NetworkWorkStep} {d : Device} {dec : Decoder b}
  {topic pbdata : List UInt8} {r : RspRet}

theorem rspAnalyze_ready (h0 : 0 ∉ topic)
    (hoff : ∀ m, pbdata.length < 200 → OwnTopic b d .config topic → dec.config pbdata = some m →
      Accepts d m.header.opCode → ¬ m.DisablesWifi)
    (h : d.sysInfo.wifi.Ready) (hr : rspAnalyze netWork d dec topic pbdata = some (some r)) :
    r.device.sysInfo.wifi.Ready := by
  rw [rspAnalyze_eq] at hr
  by_cases h256 : 256 ≤ pbdata.length
  · rw [if_pos h256] at hr
    cases hr
  by_cases h200 : 200 ≤ pbdata.length
  · rw [if_neg h256, if_pos h200] at hr
    cases hr
    exact h
  rw [if_neg h256, if_neg h200] at hr
  split at hr
  · cases hr
  · cases hr
  rename_i op hlevels
  obtain ⟨r', hr', heq⟩ := Option.map_eq_some_iff.1 hr
  cases heq
  unfold rspOperation at hr'
  split at hr'
  · cases hr'
    exact h
  rename_i msg hmsg
  refine rspHandle_ready (fun m hm ha => ?_) h hr'
  have hop : op = .config ∧ dec.config pbdata = some m := by
    subst hm
    cases op <;> simp [Decoder.decode] at hmsg ⊢
    exact hmsg
  exact hoff m (Nat.lt_of_not_le h200) (hop.1 ▸ (rspLevels_eq_some_iff h0).1 hlevels) hop.2 ha

end

/-! ## The call -/

namespace Comm

variable {E : CommEnv} {s t : Comm} {x : CallInput E.config}

theorem entered_sysInfo : (s.entered E x).device.sysInfo = s.device.sysInfo := by
  unfold entered otaWait
  split
  · split
    · split <;> rfl
    · simp only
      split
      · rfl
      split
      · rfl
      split <;> rfl
  · rfl

theorem analyze_ready {i : DecryptInput} {n : Nat} (h0 : 0 ∉ i.topic)
    (hoff : ∀ pbdata m, i.len ≠ 0 → s.clearText E i = some pbdata → pbdata.length < 200 →
      OwnTopic E.board s.device .config i.topic → E.decoder.config pbdata = some m →
      Accepts s.device m.header.opCode → ¬ m.DisablesWifi)
    (h : s.device.sysInfo.wifi.Ready) (hana : s.analyze E x i = some (n, t)) :
    t.device.sysInfo.wifi.Ready := by
  by_cases hlen : i.len = 0
  · unfold analyze at hana
    rw [if_pos hlen] at hana
    cases hana
  cases hclear : s.clearText E i with
  | none =>
    unfold analyze at hana
    unfold clearText at hclear
    simp only at hana hclear
    rw [if_neg hlen] at hana
    split at hclear
    · cases hclear
    · rename_i hle
      rw [if_neg hle] at hana
      cases hana
      exact h
  | some pbdata =>
    rw [analyze_of_clearText hlen hclear, dispatch] at hana
    split at hana
    · cases hana
    · cases hana
      exact h
    · rename_i r hr
      cases hana
      exact rspAnalyze_ready h0 (fun m => hoff pbdata m hlen hclear) h hr

/-- A call keeps settings that ask for the WiFi network, unless it takes a message that disables
it. -/
theorem CallOutcome.ready {ret : CommRet} (hc : CallOutcome E s x ret t)
    (hoff : ∀ m, s.TakesConfig E x m → Accepts (s.entered E x).device m.header.opCode →
      ¬ m.DisablesWifi)
    (h : s.device.sysInfo.wifi.Ready) : t.device.sysInfo.wifi.Ready := by
  have hu : (s.entered E x).device.sysInfo.wifi.Ready := by
    rw [entered_sysInfo]
    exact h
  cases hc with
  | notice => exact h
  | command k buf n t hnotice hstep hqueued hfields hk hana =>
    have htaken : t.device.sysInfo.wifi.Ready :=
      analyze_ready (CStr.zero_notMem_textAt _ _)
        (fun pbdata m hlen hclear hshort hown hdec => hoff m ⟨hnotice, hstep, hqueued, k, buf, pbdata,
          hfields, hk, hlen, hclear, hshort, hown, hdec⟩) hu hana
    exact htaken
  | cellInfo =>
    obtain ⟨ws, i, flag, heq, -⟩ := getCellInfoProcess_eq (s.entered E x) E.config.moduleType
    rw [heq]
    exact hu
  | _ => exact hu

/-- Behind the decision the settings ask for the WiFi network. -/
theorem CallOutcome.ready_of_netTypeWifi {ret : CommRet} (hc : CallOutcome E s x ret t)
    (hret : ret = .netTypeWifi) : t.device.sysInfo.wifi.Ready := by
  cases hc with
  | command k buf n t => exact (commandRet_eq_wifi_iff.1 hret).2
  | _ => cases hret

end Comm

/-! ## The delay -/

namespace Work

section
variable (s : Work)

/-- The switch is decided on and still to be made. -/
def Pending : Prop := 0 < s.waitReportDelay ∧ s.waitReportRet = .netTypeWifi

instance : Decidable s.Pending := inferInstanceAs (Decidable (_ ∧ _))

/-- This is the last call of the delay. -/
def Due : Prop := s.Pending ∧ 9 ≤ s.waitReportDelay + 1

instance : Decidable s.Due := inferInstanceAs (Decidable (_ ∧ _))

/-- The state between the call of `module_4g_communication_process` and the delay. -/
def decided (ret : CommRet) (t : Comm) : Work :=
  let s := { s with comm := t }
  match ret with
  | .netTypeWifi => { s with waitReportRet := .netTypeWifi, waitReportDelay := 1 }
  | .netDisconnect => s.disconnect
  | .wait => s

/-- The value that `net4G_work_process` returns. -/
def stepRet (E : CommEnv) (s : Work) : WorkEvent E.config → CommRet
  | .work x =>
    match s.comm.netWork, module4gCommunicationProcess E x.call s.comm with
    | .normal, some (ret, t) => if (s.decided ret t).Due then .netTypeWifi else .wait
    | _, _ => .wait
  | _ => .wait

end

variable {s : Work} {m : ModuleType}

/-- Only `NORMAL` switches. -/
theorem stepRet_eq_wait {E : CommEnv} {x : WorkInput E.config} (h : s.comm.netWork ≠ .normal) :
    s.stepRet E (.work x) = .wait := by
  unfold stepRet
  simp only
  split
  · exact absurd ‹_› h
  · rfl

theorem normal_eq (s : Work) (m : ModuleType) (ret : CommRet) (t : Comm) :
    s.normal m ret t = (s.decided ret t).waitReport m := by
  cases ret <;> rfl

/-- The module is told to disconnect and the device reboots. -/
theorem waitReport_due (h : s.Due) : s.waitReport m =
    { s with
      comm := s.comm.write ⟨.other, Comm.netCmdMqttDisconnect m⟩
      waitReportRet := .wait
      waitReportDelay := 0
      rebooted := true } := by
  obtain ⟨⟨hdelay, hret⟩, hlast⟩ := h
  unfold waitReport
  rw [if_pos hdelay]
  simp only
  rw [if_pos hlast, if_pos hret]

/-- Otherwise the delay only goes on. -/
theorem waitReport_of_not_due (h : ¬ s.Due) :
    ∃ n, s.waitReport m = { s with waitReportDelay := n } ∧ (0 < n → 0 < s.waitReportDelay) := by
  unfold waitReport
  by_cases hdelay : 0 < s.waitReportDelay
  · rw [if_pos hdelay]
    simp only
    split
    · rename_i hlast
      rw [if_neg fun hret => h ⟨⟨hdelay, hret⟩, hlast⟩]
      exact ⟨0, rfl, fun _ => hdelay⟩
    · exact ⟨_, rfl, fun _ => hdelay⟩
  · rw [if_neg hdelay]
    exact ⟨s.waitReportDelay, rfl, id⟩

/-- The delay leaves the device as it is. -/
theorem waitReport_device : (s.waitReport m).comm.device = s.comm.device := by
  by_cases h : s.Due
  · rw [waitReport_due h]
    rfl
  · obtain ⟨n, heq, -⟩ := waitReport_of_not_due (m := m) h
    rw [heq]

theorem Pending.of_waitReport (h : (s.waitReport m).Pending) : s.Pending := by
  by_cases hdue : s.Due
  · exact hdue.1
  · obtain ⟨n, heq, hpos⟩ := waitReport_of_not_due (m := m) hdue
    rw [heq] at h
    exact ⟨hpos h.1, h.2⟩

end Work

/-! ## The run -/

/-- A run with the settings of the WiFi at each switch. -/
structure SwitchLog where
  work : Work
  switched : List WifiInfo

def SwitchLog.step (E : CommEnv) (s : SwitchLog) (e : WorkEvent E.config) : Option SwitchLog :=
  (s.work.step E e).map fun (_, w) =>
    ⟨w, if s.work.stepRet E e = .netTypeWifi then s.switched ++ [w.comm.device.sysInfo.wifi]
      else s.switched⟩

/-- Each switch was made with settings that ask for it. -/
def SwitchValid (s : SwitchLog) : Prop := ∀ w ∈ s.switched, w.Ready

/-- Between the decision and the switch nothing disables the WiFi. -/
def SwitchCond (E : CommEnv) (s : Work) (e : WorkEvent E.config) : Prop :=
  s.Pending → match e with
    | .work x => s.comm.netWork = .normal → ∀ m, s.comm.TakesConfig E x.call m →
      Accepts (s.comm.entered E x.call).device m.header.opCode → ¬ m.DisablesWifi
    | .others d _ => d.sysInfo.wifi.Ready
    | .uart _ | .save _ => True

/-- While the switch is still to be made, the settings ask for it. -/
def Work.PendingReady (s : Work) : Prop := s.Pending → s.comm.device.sysInfo.wifi.Ready

section
variable {E : CommEnv} {s w : Work} {e : WorkEvent E.config}

theorem Work.PendingReady.decided {x : CallInput E.config} {ret : CommRet} {t : Comm}
    (h : s.PendingReady) (hc : Comm.CallOutcome E s.comm x ret t)
    (hoff : s.Pending → ∀ m, s.comm.TakesConfig E x m →
      Accepts (s.comm.entered E x).device m.header.opCode → ¬ m.DisablesWifi) :
    (s.decided ret t).PendingReady := by
  cases ret with
  | netTypeWifi => exact fun _ => hc.ready_of_netTypeWifi rfl
  | wait => exact fun hp => hc.ready (hoff hp) (h hp)
  | netDisconnect =>
    intro hp
    unfold Work.decided Work.disconnect at hp ⊢
    simp only at hp ⊢
    split at hp
    · rename_i htimes
      rw [if_pos htimes]
      exact hc.ready (hoff hp) (h hp)
    · rename_i htimes
      rw [if_neg htimes]
      exact hc.ready (hoff hp) (h hp)

/-- One step keeps the settings of a pending switch, and a switch is made with them. -/
theorem Work.PendingReady.step {r : Option CommRet} (h : s.PendingReady) (hcond : SwitchCond E s e)
    (hstep : s.step E e = some (r, w)) : w.PendingReady ∧
      (s.stepRet E e = .netTypeWifi → w.comm.device.sysInfo.wifi.Ready) := by
  cases Work.step_outcome hstep with
  | uart bs =>
    obtain ⟨f, u, heq⟩ := Comm.deliver_eq E.config s.comm bs
    refine ⟨fun hp => ?_, nofun⟩
    rw [heq]
    exact h hp
  | save m => exact ⟨h, nofun⟩
  | others d flag => exact ⟨hcond, nofun⟩
  | phase x next hn =>
    obtain ⟨n, heq, -⟩ := s.phase_eq x next
    refine ⟨fun hp => ?_, fun hret => ?_⟩
    · rw [heq] at hp ⊢
      exact h hp
    · rw [Work.stepRet_eq_wait hn] at hret
      cases hret
  | error x w hn hw =>
    refine ⟨?_, fun hret => ?_⟩
    · obtain rfl | rfl := hw
      · exact h
      · exact h
    · rw [Work.stepRet_eq_wait (by rw [hn]; decide)] at hret
      cases hret
  | call x ret t hn hcall =>
    have hdec : (s.decided ret t).PendingReady :=
      h.decided (Comm.call_outcome hcall) fun hp => hcond hp hn
    rw [Work.normal_eq]
    refine ⟨fun hp => ?_, fun hret => ?_⟩
    · rw [Work.waitReport_device]
      exact hdec hp.of_waitReport
    · unfold Work.stepRet at hret
      simp only [hn, hcall] at hret
      split at hret
      · rename_i hdue
        rw [Work.waitReport_device]
        exact hdec hdue.1
      · cases hret

end

/-- From a state without a pending switch, every switch is made with settings that ask for it, as
long as nothing disables the WiFi between the decision and the switch. -/
theorem switchValid_of_switchCond {E : CommEnv} {s s' : SwitchLog} {es : List (WorkEvent E.config)}
    (hidle : s.work.waitReportDelay = 0) (hlog : s.switched = [])
    (h : Run (Guarded (fun s => SwitchCond E s.work) (PFun (SwitchLog.step E))) s es s') :
    SwitchValid s' := by
  refine (h.inv (I := fun s => s.work.PendingReady ∧ SwitchValid s) ?_ ⟨?_, ?_⟩).2
  · rintro s e s' ⟨hready, hvalid⟩ ⟨hcond, hstep⟩
    obtain ⟨⟨r, w⟩, hw, rfl⟩ := Option.map_eq_some_iff.1 hstep
    obtain ⟨hready', hswitch⟩ := hready.step hcond hw
    refine ⟨hready', ?_⟩
    unfold SwitchValid
    simp only
    split
    · rename_i hret
      intro v hv
      obtain hv | hv := List.mem_append.1 hv
      · exact hvalid v hv
      · rw [List.mem_singleton.1 hv]
        exact hswitch hret
    · exact hvalid
  · intro hp
    exact absurd hp.1 (by omega)
  · intro w hw
    rw [hlog] at hw
    exact absurd hw List.not_mem_nil

/-! ## A small program -/

/-- A command that disables the WiFi. -/
def wifiOffMsg : ConfigCommand .small :=
  { ssidMsg 26 emptySsid with
    header := ⟨5, 0⟩
    deviceConfig := { (ssidMsg 26 emptySsid).deviceConfig with wifiEnable := 2 } }

/-- The notification of an encrypted message of two bytes, up to its end. -/
def wifiOffNotification : List UInt8 :=
  ascii "+QMTRECV:0,0,\"device/pk/k/command/config\",2,\"" ++ [7, 1, 34]

/-- A program that decodes the empty message to a command that enables the WiFi, and every other to
one that disables it. -/
def switchProgram : CommEnv :=
  { CommEnv.small { queueConfig with uartRecvCmdSize := 64 } with
    decoder := { noDecoder with
      config := fun bs => some (if bs = [] then wifiMsg false else wifiOffMsg) } }

/-- The device `k` with these commands in its queue. -/
def switchStart (cmds : List (List UInt8)) : SwitchLog :=
  ⟨{ Work.reset with comm := { configQueued with recv := { Recv.reset with
      cmdQ := fun i => ⟨cmds.getD i [], (cmds.getD i []).length⟩
      qTail := cmds.length } } }, []⟩

def eightCalls : List (WorkEvent switchProgram.config) :=
  List.replicate 8 (.work ⟨.quiet _, .done, [], []⟩)

/-- A call that finds no command where a switch is pending. -/
def SwitchLog.waits (s : SwitchLog) : WorkEvent switchProgram.config → Bool
  | .work _ => ¬ s.work.Pending ∨ (s.work.comm.received switchProgram).recv.qHead =
    (s.work.comm.received switchProgram).recv.qTail
  | _ => false

theorem SwitchLog.waits_cond {s : SwitchLog} {e : WorkEvent switchProgram.config}
    (h : s.waits e = true) : SwitchCond switchProgram s.work e := by
  intro hp
  cases e with
  | work x =>
    obtain hn | hempty := of_decide_eq_true h
    · exact absurd hp hn
    · intro _ m htakes
      have hqueued := htakes.queued
      rw [Comm.entered_recv] at hqueued
      exact absurd hempty hqueued
  | others d flag => cases h
  | uart bs => trivial
  | save m => trivial

/-- In the eighth call from the command that enables the WiFi the network is switched. -/
theorem switchValid_of_switchCond_small : ∃ s : SwitchLog, s.switched.length = 1 ∧
    SwitchValid s := by
  have heval : ((eightCalls.foldlM
      (Trace.guard (fun s e => s.waits e = true) (SwitchLog.step switchProgram))
        (switchStart [configNotification])).map fun s => s.switched.length) = some 1 := by
    decide +kernel
  obtain ⟨s, hs, hlen⟩ := Option.map_eq_some_iff.1 heval
  have hrun : Run (Guarded (fun s => SwitchCond switchProgram s.work)
      (PFun (SwitchLog.step switchProgram))) (switchStart [configNotification]) eightCalls s :=
    (Trace.run_guarded_of_foldlM hs).mono fun _ _ _ h => ⟨SwitchLog.waits_cond h.1, h.2⟩
  exact ⟨s, hlen, switchValid_of_switchCond rfl rfl hrun⟩

/-- The second command disables the WiFi, and the network is switched all the same. -/
theorem not_switchValid_disabled : ¬ ∀ (E : CommEnv) (s s' : SwitchLog)
    (es : List (WorkEvent E.config)), s.work.waitReportDelay = 0 → s.switched = [] →
      Run (PFun (SwitchLog.step E)) s es s' → SwitchValid s' := by
  intro h
  have heval : ((eightCalls.foldlM (SwitchLog.step switchProgram)
      (switchStart [configNotification, wifiOffNotification])).map
        fun s => s.switched.map fun w => decide w.Ready) = some [false] := by
    decide +kernel
  obtain ⟨s, hs, hswitched⟩ := Option.map_eq_some_iff.1 heval
  have hvalid := h switchProgram _ s eightCalls rfl rfl (Trace.run_pfun_iff.2 hs)
  obtain ⟨w, hw, hready⟩ := List.mem_map.1 (hswitched ▸ List.mem_singleton_self false)
  exact of_decide_eq_false hready (hvalid w hw)

end AppXd.Net4g
