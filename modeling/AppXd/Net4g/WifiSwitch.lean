import AppXd.Net4g.ConfigSet
import AppXd.Net4g.Payload
import AppXd.Net4g.Topic

/-!
# The switch to the WiFi network

`RspAnalyze` says by a number which of the WiFi fields a set command has named and whether the WiFi
is enabled behind it. `commandRet` reads the numbers: where the WiFi is enabled, those that it takes
are the ones of the commands that enable the WiFi or name a network or a password.
-/

namespace AppXd.Net4g

open CStr (ascii textAt)
open Comm (commandRet)

/-- The settings ask for the WiFi network. -/
def WifiInfo.Ready (w : WifiInfo) : Prop :=
  w.wifiConfigFlag = 0xAA ∧ w.wifiEnableFlag = 1 ∧ textAt w.ssid 0 ≠ []

instance (w : WifiInfo) : Decidable w.Ready := inferInstanceAs (Decidable (_ ∧ _))

/-- A set command enables the WiFi, or applies a network name or a password. -/
def DeviceConfig.NamesWifi {b : Board} (m : DeviceConfig b) : Prop :=
  m.wifiEnable = 1 ∨ given m.ssid.chars = true ∨ given m.password.chars = true

instance {b : Board} (m : DeviceConfig b) : Decidable m.NamesWifi :=
  inferInstanceAs (Decidable (_ ∨ _))

/-- The numbers after which the settings are looked at. -/
def wifiRets : List Nat := [1, 3, 4, 7, 8, 9]

theorem zero_notMem_wifiRets : 0 ∉ wifiRets := by
  decide

theorem commandRet_eq_wifi_iff {n : Nat} {w : WifiInfo} :
    commandRet n w = .netTypeWifi ↔ n ∈ wifiRets ∧ w.Ready := by
  unfold commandRet
  split
  · rename_i h
    exact ⟨fun _ => h, fun _ => rfl⟩
  · rename_i h
    exact ⟨nofun, fun h' => absurd h' h⟩

/-! ## The fields of a set command -/

/-- What the number depends on: the flags of the two fields and the enable flag. -/
structure WifiView where
  enableNamed : UInt32
  ssidNamed : UInt32
  enabled : UInt8

def Device.wifiView (d : Device) : WifiView :=
  ⟨d.configCommandFlag 3, d.configCommandFlag 4, d.sysInfo.wifi.wifiEnableFlag⟩

section
variable {b : Board} (m : DeviceConfig b) (d : Device)

theorem setBleEnable_wifiView : (setBleEnable m d).wifiView = d.wifiView := by
  unfold setBleEnable
  split
  · rfl
  split <;> rfl

theorem setGsmActiveSubId_wifiView : (setGsmActiveSubId m d).wifiView = d.wifiView := by
  unfold setGsmActiveSubId
  split <;> rfl

theorem setCubbyInterval_wifiView : (setCubbyInterval m d).wifiView = d.wifiView := by
  unfold setCubbyInterval
  split <;> rfl

theorem setCubbyHeaderInterval_wifiView : (setCubbyHeaderInterval m d).wifiView = d.wifiView := by
  unfold setCubbyHeaderInterval
  split <;> rfl

theorem setBleSpeakerBroadEnable_wifiView :
    (setBleSpeakerBroadEnable m d).wifiView = d.wifiView := by
  unfold setBleSpeakerBroadEnable
  split
  · rfl
  split <;> rfl

theorem setBleSpeakerVolume_wifiView : (setBleSpeakerVolume m d).wifiView = d.wifiView := by
  unfold setBleSpeakerVolume
  split
  · dsimp only
    split <;> rfl
  · rfl

theorem setBleSpeakerName_wifiView : (setBleSpeakerName m d).wifiView = d.wifiView := by
  unfold setBleSpeakerName
  split <;> rfl

theorem setBleSpeakerPairCode_wifiView : (setBleSpeakerPairCode m d).wifiView = d.wifiView := by
  unfold setBleSpeakerPairCode
  split
  · dsimp only
    split <;> rfl
  · rfl

theorem setCubbyDisable_wifiView : (setCubbyDisable m d).wifiView = d.wifiView := by
  unfold setCubbyDisable
  split <;> rfl

theorem setRemember_wifiView : (setRemember m d).wifiView = d.wifiView := by
  unfold setRemember
  split
  · rfl
  split <;> rfl

theorem writeIfFlagged_wifiView (ks : List Nat) : (d.writeIfFlagged ks).wifiView = d.wifiView := by
  unfold Device.writeIfFlagged
  split <;> rfl

theorem setClientIdList_wifiView {m : DeviceConfig b} {d d' : Device}
    (h : setClientIdList m d = some d') : d'.wifiView = d.wifiView := by
  unfold setClientIdList at h
  split at h
  · obtain ⟨ids, -, rfl⟩ := Option.map_eq_some_iff.1 h
    rfl
  · cases h
    rfl

theorem setWifiEnable_wifiView (ret : Nat) : (setWifiEnable m d ret).1.wifiView =
    if m.wifiEnable = 1 then { d.wifiView with enableNamed := 1, enabled := 1 }
    else if m.wifiEnable = 2 then { d.wifiView with enableNamed := 1, enabled := 0 }
    else d.wifiView := by
  unfold setWifiEnable
  split
  · rfl
  split <;> rfl

theorem setWifiEnable_ret (ret : Nat) : (setWifiEnable m d ret).2 =
    if m.wifiEnable = 1 then 1 else if m.wifiEnable = 2 then 2 else ret := by
  unfold setWifiEnable
  split
  · rfl
  split <;> rfl

theorem setSsid_wifiView (ret : Nat) : (setSsid m d ret).1.wifiView =
    if given m.ssid.chars then { d.wifiView with ssidNamed := 1 } else d.wifiView := by
  unfold setSsid
  split
  · dsimp only
    split
    · rfl
    split <;> rfl
  · rfl

theorem setSsid_ret (ret : Nat) : (setSsid m d ret).2 =
    if given m.ssid.chars then
      if d.wifiView.enableNamed = 1 ∧ d.wifiView.enabled = 1 then 7
      else if d.wifiView.enableNamed = 1 ∧ d.wifiView.enabled = 0 then 5
      else 3
    else ret := by
  unfold setSsid
  split
  · dsimp only
    split
    · rename_i h
      exact (if_pos h).symm
    rename_i h7
    refine Eq.trans ?_ (if_neg h7).symm
    split
    · rename_i h
      exact (if_pos h).symm
    · rename_i h
      exact (if_neg h).symm
  · rfl

theorem setPassword_wifiView (ret : Nat) : (setPassword m d ret).1.wifiView = d.wifiView := by
  unfold setPassword
  split
  · dsimp only
    split
    · rfl
    split
    · rfl
    split
    · rfl
    split <;> rfl
  · rfl

theorem setPassword_ret (ret : Nat) : (setPassword m d ret).2 =
    if given m.password.chars then
      if d.wifiView.enableNamed = 1 ∧ d.wifiView.ssidNamed = 1 ∧ d.wifiView.enabled = 1 then 9
      else if d.wifiView.enableNamed = 1 ∧ d.wifiView.ssidNamed = 1 ∧ d.wifiView.enabled = 0 then 10
      else if d.wifiView.enableNamed = 1 ∧ d.wifiView.enabled = 1 then 8
      else if d.wifiView.enableNamed = 1 ∧ d.wifiView.enabled = 0 then 6
      else 4
    else ret := by
  unfold setPassword
  split
  · dsimp only
    split
    · rename_i h
      exact (if_pos h).symm
    rename_i h9
    refine Eq.trans ?_ (if_neg h9).symm
    split
    · rename_i h
      exact (if_pos h).symm
    rename_i h10
    refine Eq.trans ?_ (if_neg h10).symm
    split
    · rename_i h
      exact (if_pos h).symm
    rename_i h8
    refine Eq.trans ?_ (if_neg h8).symm
    split
    · rename_i h
      exact (if_pos h).symm
    · rename_i h
      exact (if_neg h).symm
  · rfl

/-- Before the list of client ids only the switch of the WiFi counts. -/
theorem configSetFirst_wifiView : (configSetFirst m d).1.wifiView =
    (setWifiEnable m (setBleEnable m (d.setFlag 1 1)) 0).1.wifiView := by
  unfold configSetFirst
  simp only [setBleSpeakerPairCode_wifiView, setBleSpeakerName_wifiView,
    setBleSpeakerVolume_wifiView, setBleSpeakerBroadEnable_wifiView,
    setCubbyHeaderInterval_wifiView, setCubbyInterval_wifiView, setGsmActiveSubId_wifiView]

theorem configSetRest_wifiView (ret : Nat) : (configSetRest m d ret).1.wifiView =
    if given m.ssid.chars then { d.wifiView with ssidNamed := 1 } else d.wifiView := by
  unfold configSetRest
  simp only [setRemember_wifiView, setPassword_wifiView, setSsid_wifiView, setCubbyDisable_wifiView]

/-- Where the WiFi is enabled behind the command, its number is one of those after which the
settings are looked at exactly when it names the WiFi. -/
theorem configSetRest_ret_iff {ret : Nat} (hon : d.wifiView.enabled = 1)
    (hret : ret ∈ wifiRets ↔ m.wifiEnable = 1) :
    (configSetRest m d ret).2 ∈ wifiRets ↔ m.NamesWifi := by
  have hoff : d.wifiView.enabled ≠ 0 := by rw [hon]; decide
  have hssid : (setSsid m (setCubbyDisable m d) ret).2 ∈ wifiRets ↔
      m.wifiEnable = 1 ∨ given m.ssid.chars = true := by
    rw [setSsid_ret, setCubbyDisable_wifiView]
    split
    · rename_i hgiven
      refine ⟨fun _ => .inr hgiven, fun _ => ?_⟩
      split
      · decide
      · rw [if_neg fun h => hoff h.2]
        decide
    · rename_i hgiven
      exact ⟨fun h => .inl (hret.1 h), fun h => hret.2 (h.resolve_right hgiven)⟩
  unfold configSetRest DeviceConfig.NamesWifi
  simp only
  rw [setPassword_ret, setSsid_wifiView, setCubbyDisable_wifiView, ← or_assoc, ← hssid]
  obtain ⟨v, hv, hvoff⟩ : ∃ v : WifiView, (if given m.ssid.chars then
      { d.wifiView with ssidNamed := 1 } else d.wifiView) = v ∧ v.enabled ≠ 0 := by
    refine ⟨_, rfl, ?_⟩
    split <;> exact hoff
  rw [hv]
  split
  · rename_i hgiven
    refine ⟨fun _ => .inr hgiven, fun _ => ?_⟩
    split
    · decide
    rw [if_neg fun h => hvoff h.2.2]
    split
    · decide
    rw [if_neg fun h => hvoff h.2]
    decide
  · rename_i hgiven
    exact ⟨.inl, fun h => h.resolve_right hgiven⟩

end

section
variable {b : Board} {m : DeviceConfig b} {d : Device} {x : Device × Nat}

/-- The number of a set command that begins with cleared flags. -/
theorem configSet_ret_iff (hflag : ∀ k, 1 < k → d.configCommandFlag k = 0)
    (h : configSet m d = some x) (hon : x.1.sysInfo.wifi.wifiEnableFlag = 1) :
    x.2 ∈ wifiRets ↔ m.NamesWifi := by
  unfold configSet at h
  obtain ⟨d₁, hd₁, rfl⟩ := Option.map_eq_some_iff.1 h
  have hbegin : (setBleEnable m (d.setFlag 1 1)).wifiView =
      ⟨0, 0, d.sysInfo.wifi.wifiEnableFlag⟩ := by
    rw [setBleEnable_wifiView]
    show WifiView.mk (d.configCommandFlag 3) (d.configCommandFlag 4) _ = _
    rw [hflag 3 (by decide), hflag 4 (by decide)]
    rfl
  have hview : d₁.wifiView = (setWifiEnable m (setBleEnable m (d.setFlag 1 1)) 0).1.wifiView :=
    (setClientIdList_wifiView hd₁).trans (configSetFirst_wifiView m d)
  rw [setWifiEnable_wifiView, hbegin] at hview
  have hend : (((configSetRest m d₁ (configSetFirst m d).2).1.writeIfFlagged
      setSavedFlags).wifiView).enabled = 1 := hon
  have hon₁ : d₁.wifiView.enabled = 1 := by
    rw [writeIfFlagged_wifiView, configSetRest_wifiView] at hend
    split at hend <;> exact hend
  have hret : (configSetFirst m d).2 ∈ wifiRets ↔ m.wifiEnable = 1 := by
    have hfirst : (configSetFirst m d).2 =
        if m.wifiEnable = 1 then 1 else if m.wifiEnable = 2 then 2 else 0 := setWifiEnable_ret m _ 0
    rw [hfirst]
    split
    · rename_i h1
      exact ⟨fun _ => h1, fun _ => by decide⟩
    · rename_i h1
      refine ⟨fun hmem => absurd hmem ?_, fun h => absurd h h1⟩
      split <;> decide
  exact configSetRest_ret_iff m d₁ hon₁ hret

/-- A clear command has other numbers. -/
theorem configClear_ret (m : DeviceConfig b) (d : Device) : (configClear m d).2 ∉ wifiRets := by
  have h11 : 11 ∉ wifiRets := by decide
  have h12 : 12 ∉ wifiRets := by decide
  have h13 : 13 ∉ wifiRets := by decide
  have hssid : (clearSsid m (d.setFlag 1 1) 0).2 ∉ wifiRets := by
    unfold clearSsid
    split
    · exact h11
    · exact zero_notMem_wifiRets
  unfold configClear
  simp only
  unfold clearPassword
  split
  · simp only
    split
    · exact h13
    · exact h12
  · exact hssid

end

/-! ## Messages -/

/-- A config message asks for the WiFi network. -/
def ConfigCommand.AsksWifi {b : Board} (m : ConfigCommand b) : Prop :=
  m.command = 26 ∧ m.hasDeviceConfig = true ∧ m.deviceConfig.NamesWifi

instance {b : Board} (m : ConfigCommand b) : Decidable m.AsksWifi :=
  inferInstanceAs (Decidable (_ ∧ _))

section
variable {b : Board} {d : Device} {m : ConfigCommand b} {r : RspRet}

theorem configCommand_ret_of_ne (ha : Accepts d m.header.opCode) (hc : m.command ≠ 26)
    (h : configCommand d m = some r) : r.ret ∉ wifiRets := by
  unfold configCommand configRun at h
  simp only [acceptOpCode_of_accepts ha] at h
  split at h
  · cases h
    exact zero_notMem_wifiRets
  · split at h <;> cases h <;> exact zero_notMem_wifiRets
  · rename_i hnat
    exact absurd (UInt32.toNat_inj.1 hnat) hc
  · split at h
    · cases h
      exact configClear_ret _ _
    · cases h
      exact zero_notMem_wifiRets
  · cases h
    exact zero_notMem_wifiRets

/-- The switch after an accepted message. -/
theorem commandRet_configCommand (ha : Accepts d m.header.opCode) (h : configCommand d m = some r) :
    commandRet r.ret r.device.sysInfo.wifi = .netTypeWifi ↔
      m.AsksWifi ∧ r.device.sysInfo.wifi.Ready := by
  rw [commandRet_eq_wifi_iff]
  by_cases hc : m.command = 26
  · cases hhas : m.hasDeviceConfig with
    | false =>
      have hnat : m.command.toNat = 26 := congrArg UInt32.toNat hc
      unfold configCommand configRun at h
      simp only [acceptOpCode_of_accepts ha, hnat, hhas] at h
      cases h
      exact ⟨fun h => absurd h.1 zero_notMem_wifiRets, fun h => absurd (hhas.symm.trans h.1.2.1) (by decide)⟩
    | true =>
      rw [configCommand_set ha hc hhas] at h
      obtain ⟨x, hx, rfl⟩ := Option.map_eq_some_iff.1 h
      have hflag : ∀ k, 1 < k → (d.configBegin m).configCommandFlag k = 0 := fun k hk =>
        Function.update_of_ne (Nat.ne_of_gt (Nat.lt_of_succ_lt hk)) _ _
      constructor
      · rintro ⟨hret, hready⟩
        exact ⟨⟨hc, hhas, (configSet_ret_iff hflag hx hready.2.1).1 hret⟩, hready⟩
      · rintro ⟨⟨-, -, hnames⟩, hready⟩
        exact ⟨(configSet_ret_iff hflag hx hready.2.1).2 hnames, hready⟩
  · exact ⟨fun h' => absurd h'.1 (configCommand_ret_of_ne ha hc h), fun h' => absurd h'.1.1 hc⟩

/-- An accepted message is handled unless its list of client ids is too short. -/
theorem configCommand_isSome_iff (ha : Accepts d m.header.opCode) :
    (∃ r, configCommand d m = some r) ↔
      (m.command = 26 → m.hasDeviceConfig = true → m.deviceConfig.TenIds) := by
  constructor
  · rintro ⟨r, hr⟩ hc hhas
    by_contra hids
    rw [configCommand_set ha hc hhas] at hr
    unfold configSet at hr
    simp only [setClientIdList_eq_none hids] at hr
    cases hr
  · intro hids
    obtain ⟨r, hr, -⟩ := persisted_of_tenIds (d := d) hids
    exact ⟨r, hr⟩

end

/-! ## The call -/

namespace Comm

variable {E : CommEnv} {s : Comm} {x : CallInput E.config}

/-- The call takes a message for this device's config topic from the queue and decodes it. -/
structure TakesConfig (E : CommEnv) (s : Comm) (x : CallInput E.config)
    (m : ConfigCommand E.board) : Prop where
  notice : (s.received E).ret ≠ 10
  step : s.communicateStep = 1
  queued : (s.entered E x).recv.qHead ≠ (s.entered E x).recv.qTail
  message : ∃ k buf pbdata, headFields E (s.entered E x) = some (k, buf) ∧ k.ret = true ∧
    k.decryptInput.len ≠ 0 ∧ (s.entered E x).clearText E k.decryptInput = some pbdata ∧
    pbdata.length < 200 ∧ OwnTopic E.board (s.entered E x).device .config k.decryptInput.topic ∧
    E.decoder.config pbdata = some m

/-- The call handles the message and decides on the switch. -/
theorem TakesConfig.process {m : ConfigCommand E.board} (h : s.TakesConfig E x m) :
    ∃ next : RspRet → Comm, (∀ r, (next r).device = r.device) ∧
      module4gCommunicationProcess E x s = (configCommand (s.entered E x).device m).map fun r =>
        (commandRet r.ret r.device.sysInfo.wifi, next r) := by
  obtain ⟨k, buf, pbdata, hfields, hk, hlen, hclear, hshort, hown, hdec⟩ := h.message
  have hstep : (s.entered E x).communicateStep = 1 := entered_waited.communicateStep.trans h.step
  have hnul : 0 ∉ k.decryptInput.topic := CStr.zero_notMem_textAt _ _
  have hrsp : rspAnalyze (s.entered E x).netWork (s.entered E x).device E.decoder
      k.decryptInput.topic pbdata =
        (configCommand (s.entered E x).device m).map some := by
    rw [rspAnalyze_eq, if_neg (by omega), if_neg (by omega), (rspLevels_eq_some_iff hnul).2 hown]
    simp only [rspOperation, Decoder.decode, hdec, Option.map_some, rspHandle]
  refine ⟨fun r => ({ s.entered E x with device := r.device }.save E.config
      ((published (s.entered E x).device r.device).flatMap x.reports)).takeCmd E buf,
    fun _ => rfl, ?_⟩
  unfold module4gCommunicationProcess switch
  rw [if_neg h.notice, hstep]
  simp only
  unfold recvStep
  rw [if_pos h.queued]
  unfold headFields at hfields
  unfold handleCmd
  simp only [hfields, hk, if_true]
  rw [analyze_of_clearText hlen hclear, dispatch, hrsp]
  cases configCommand (s.entered E x).device m <;> rfl

end Comm

/-- The call returns, and asks for the switch exactly after a command that asks for it and where the
settings do. -/
def WifiSwitchLaw {b : Board} (m : ConfigCommand b) (ret : Option (CommRet × Comm)) : Prop :=
  ∃ c t, ret = some (c, t) ∧ (c = .netTypeWifi ↔ m.AsksWifi ∧ t.device.sysInfo.wifi.Ready)

/-- The decision after an accepted config message is right as long as its list of client ids can be
read. -/
theorem wifiSwitchLaw_iff_tenIds {E : CommEnv} {s : Comm} {x : CallInput E.config}
    {m : ConfigCommand E.board} (h : s.TakesConfig E x m)
    (ha : Accepts (s.entered E x).device m.header.opCode) :
    WifiSwitchLaw m (module4gCommunicationProcess E x s) ↔
      (m.command = 26 → m.hasDeviceConfig = true → m.deviceConfig.TenIds) := by
  obtain ⟨next, hnext, hprocess⟩ := h.process
  rw [← configCommand_isSome_iff ha, hprocess]
  constructor
  · rintro ⟨c, t, hret, -⟩
    obtain ⟨r, hr, -⟩ := Option.map_eq_some_iff.1 hret
    exact ⟨r, hr⟩
  · rintro ⟨r, hr⟩
    refine ⟨_, _, by rw [hr]; rfl, ?_⟩
    rw [hnext]
    exact commandRet_configCommand ha hr

/-! ## A small program -/

/-- A command that enables the WiFi and names a network, with a list of two client ids or none. -/
def wifiMsg (twoIds : Bool) : ConfigCommand .small :=
  { ssidMsg 26 ⟨ascii "home", by decide, by decide⟩ with
    deviceConfig := { (ssidMsg 26 ⟨ascii "home", by decide, by decide⟩).deviceConfig with
      wifiEnable := 1
      clientIdList := if twoIds then ⟨ascii "1,2", by decide, by decide⟩
        else (ssidMsg 26 emptySsid).deviceConfig.clientIdList } }

/-- The notification of an encrypted message of one byte, up to its end. -/
def configNotification : List UInt8 :=
  ascii "+QMTRECV:0,0,\"device/pk/k/command/config\",1,\"" ++ [1, 34]

/-- A program whose config messages are all the same. -/
def configProgram (twoIds : Bool) : CommEnv :=
  { CommEnv.small { queueConfig with uartRecvCmdSize := 64 } with
    decoder := { noDecoder with config := fun _ => some (wifiMsg twoIds) } }

/-- The notification waits in the queue of the device `k`. -/
def configQueued : Comm :=
  { Comm.reset with
    communicateStep := 1
    recv := { Recv.reset with
      cmdQ := fun _ => ⟨configNotification, configNotification.length⟩
      qTail := 1 }
    device := { Device.reset 3 with
      loginInfo := { SysLoginInfo.reset with deviceKey := 107 :: List.replicate 7 0 } } }

theorem configQueued_takes (twoIds : Bool) :
    configQueued.TakesConfig (configProgram twoIds) (.quiet _) (wifiMsg twoIds) := by
  have hfields : ∀ twoIds, (Comm.headFields (configProgram twoIds)
      (configQueued.entered (configProgram twoIds) (.quiet _))).map
        (fun k => (k.1.ret, k.1.decryptInput)) =
      some (true, ⟨ascii "device/pk/k/command/config", 1, [1]⟩) := by
    decide +kernel
  have hstart : ∀ twoIds, (configQueued.received (configProgram twoIds)).ret ≠ 10 ∧
      (configQueued.entered (configProgram twoIds) (.quiet _)).recv.qHead ≠
        (configQueued.entered (configProgram twoIds) (.quiet _)).recv.qTail := by
    decide +kernel
  have hclear : ∀ twoIds, (configQueued.entered (configProgram twoIds) (.quiet _)).clearText
      (configProgram twoIds) ⟨ascii "device/pk/k/command/config", 1, [1]⟩ = some [] := by
    decide +kernel
  have hown : ∀ twoIds, OwnTopic .small
      (configQueued.entered (configProgram twoIds) (.quiet _)).device .config
        (ascii "device/pk/k/command/config") := by
    decide +kernel
  obtain ⟨⟨k, buf⟩, hk, hpair⟩ := Option.map_eq_some_iff.1 (hfields twoIds)
  obtain ⟨hret, hinput⟩ := Prod.mk.inj hpair
  refine ⟨(hstart twoIds).1, rfl, (hstart twoIds).2, k, buf, [], hk, hret, ?_⟩
  rw [hinput]
  exact ⟨Nat.one_ne_zero, hclear twoIds, by decide, hown twoIds, rfl⟩

/-- Without a list of client ids the command is decided on. -/
theorem wifiSwitchLaw_small : WifiSwitchLaw (wifiMsg false)
    (module4gCommunicationProcess (configProgram false) (.quiet _) configQueued) := by
  refine (wifiSwitchLaw_iff_tenIds (configQueued_takes false) (by decide)).2 fun _ _ h => ?_
  exact absurd h (by decide)

/-- Behind the last of two client ids a third is read. -/
theorem not_wifiSwitchLaw_twoIds : ¬ ∀ (E : CommEnv) (s : Comm) (x : CallInput E.config)
    (m : ConfigCommand E.board), s.TakesConfig E x m →
      Accepts (s.entered E x).device m.header.opCode →
        WifiSwitchLaw m (module4gCommunicationProcess E x s) := by
  intro h
  obtain ⟨c, t, hret, -⟩ := h (configProgram true) configQueued (.quiet _) (wifiMsg true)
    (configQueued_takes true) (by decide)
  obtain ⟨next, -, hprocess⟩ := (configQueued_takes true).process
  rw [hprocess] at hret
  obtain ⟨r, hr, -⟩ := Option.map_eq_some_iff.1 hret
  have hids := (configCommand_isSome_iff (by decide)).1 ⟨r, hr⟩ rfl rfl (by decide)
  revert hids
  decide +kernel

end AppXd.Net4g
