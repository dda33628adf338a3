import AppXd.Lib.Tokens
import AppXd.Net4g.ConfigMarkers

/-!
# Settings that a command brings

`gSysInfo_struct` is written to the flash once at the end of a set or clear command, when one of the
flags of its fields is set. The four texts of a set command are stored when the test `given` takes
them.
-/

namespace AppXd.Net4g

open CStr (tokens store clear textAt)

/-! ## The list of client ids -/

/-- The numbers stand in the list from the index `k` on. -/
def setFrom (k : Nat) : List Int → List Int → List Int
  | [], ids => ids
  | v :: vs, ids => setFrom (k + 1) vs (ids.set k v)

theorem clientIdLoop_eq {a s : List UInt8} (h0 : 0 ∉ s) (n k : Nat) (ids : List Int) :
    clientIdLoop n (a ++ s) a.length k ids =
      if n ≤ (tokens 44 s).length then
        some (setFrom k (((tokens 44 s).take n).map CStr.atoi) ids)
      else none := by
  induction n generalizing a s k ids with
  | zero => simp [clientIdLoop, setFrom]
  | succ n ih =>
    have hcall := CStr.strtok_tokens (d := 44) (a := a) (by decide) h0
    cases htok : tokens 44 s with
    | nil =>
      rw [htok] at hcall
      obtain ⟨q, hq⟩ : ∃ q, CStr.strtok 44 (a ++ s) a.length = (none, q) := ⟨_, Prod.ext hcall rfl⟩
      simp [clientIdLoop, hq]
    | cons t ts =>
      rw [htok] at hcall
      obtain ⟨p, a', s', hstrtok, htext, h0', rfl⟩ := hcall
      unfold clientIdLoop
      rw [hstrtok]
      simp only [htext, ih h0']
      simp [setFrom]

/-- The list sets the first ten numbers, if there are as many. -/
theorem getClientIdListKeywordsPb_eq {s : List UInt8} (h0 : 0 ∉ s) (ids : List Int) :
    getClientIdListKeywordsPb s 10 ids =
      if 10 ≤ (tokens 44 s).length then
        some (setFrom 0 (((tokens 44 s).take 10).map CStr.atoi) ids)
      else none :=
  clientIdLoop_eq (a := []) h0 10 0 ids

section
variable {b : Board}

/-- The list of a set command can be read: it is not given, or it has ten numbers. -/
def DeviceConfig.TenIds (m : DeviceConfig b) : Prop :=
  given m.clientIdList.chars = true → 10 ≤ (tokens 44 m.clientIdList.chars).length

theorem setClientIdList_eq {m : DeviceConfig b} (hids : m.TenIds) (d : Device) :
    setClientIdList m d = some (if given m.clientIdList.chars then
      ((d.setFlag 13 1).mapSysInfo fun s =>
        { s with
          clientIdListBuf := setFrom 0 (((tokens 44 m.clientIdList.chars).take 10).map CStr.atoi)
            s.clientIdListBuf }).wtNodeEvent 0xFF .clientIdListSet
      else d) := by
  unfold setClientIdList
  by_cases h : given m.clientIdList.chars = true
  · rw [if_pos h, if_pos h]
    simp only [getClientIdListKeywordsPb_eq m.clientIdList.noNul, if_pos (hids h)]
    rfl
  · rw [if_neg h, if_neg h]

theorem setClientIdList_eq_none {m : DeviceConfig b} (hids : ¬ m.TenIds) (d : Device) :
    setClientIdList m d = none := by
  unfold DeviceConfig.TenIds at hids
  rw [Classical.not_imp] at hids
  unfold setClientIdList
  rw [if_pos hids.1]
  simp only [getClientIdListKeywordsPb_eq m.clientIdList.noNul, if_neg hids.2]
  rfl

end

/-! ## The flash -/

/-- The settings are as before, or a flag among `ks` is set. -/
structure Saved (ks : List Nat) (d d' : Device) : Prop where
  stays : ∀ j, d.configCommandFlag j = 1 → d'.configCommandFlag j = 1
  sysInfo : d'.sysInfo = d.sysInfo ∨ ∃ k ∈ ks, d'.configCommandFlag k = 1
  sysFlash : d'.sysFlash = d.sysFlash

section
variable {ks ls : List Nat} {d d' d'' : Device}

theorem FieldStep.saved (h : FieldStep ks d d') (hsub : ks ⊆ ls) : Saved ls d d' where
  stays := h.stays
  sysInfo := (h.mono hsub).sysInfo
  sysFlash := h.sysFlash

/-- A field outside `gSysInfo_struct`. -/
theorem FieldStep.saved_of_sysInfo (h : FieldStep ks d d') (hsys : d'.sysInfo = d.sysInfo) :
    Saved ls d d' where
  stays := h.stays
  sysInfo := .inl hsys
  sysFlash := h.sysFlash

theorem Saved.trans (h : Saved ks d d') (h' : Saved ks d' d'') : Saved ks d d'' where
  stays j hj := h'.stays j (h.stays j hj)
  sysInfo := by
    obtain heq' | hflag := h'.sysInfo
    · obtain heq | ⟨k, hk, hflag⟩ := h.sysInfo
      · exact .inl (heq'.trans heq)
      · exact .inr ⟨k, hk, h'.stays k hflag⟩
    · exact .inr hflag
  sysFlash := h'.sysFlash.trans h.sysFlash

/-- What is set has been written. -/
structure Persisted (d d' : Device) : Prop where
  flash : d.sysFlash = d.sysInfo → d'.sysFlash = d'.sysInfo
  written : d'.sysInfo ≠ d.sysInfo → d'.sysFlash = d'.sysInfo

theorem Persisted.of_eq (hsys : d'.sysInfo = d.sysInfo) (hflash : d'.sysFlash = d.sysFlash) :
    Persisted d d' where
  flash h := by rw [hsys, hflash, h]
  written h := absurd hsys h

/-- The one write behind the fields is enough. -/
theorem Saved.persisted (h : Saved ks d d') : Persisted d (d'.writeIfFlagged ks) := by
  unfold Device.writeIfFlagged
  split
  · exact ⟨fun _ => rfl, fun _ => rfl⟩
  · rename_i hany
    obtain heq | ⟨k, hk, hflag⟩ := h.sysInfo
    · exact .of_eq heq h.sysFlash
    · exact absurd (List.any_eq_true.2 ⟨k, hk, decide_eq_true hflag⟩) hany

end

section
variable {b : Board} (m : DeviceConfig b) (d : Device)

theorem setBleSpeakerBroadEnable_sysInfo :
    (setBleSpeakerBroadEnable m d).sysInfo = d.sysInfo := by
  unfold setBleSpeakerBroadEnable
  split
  · rfl
  split <;> rfl

theorem setBleSpeakerPairCode_sysInfo : (setBleSpeakerPairCode m d).sysInfo = d.sysInfo := by
  unfold setBleSpeakerPairCode
  split
  · dsimp only
    split <;> rfl
  · rfl

theorem configSetFirst_saved : Saved setSavedFlags (d.setFlag 1 1) (configSetFirst m d).1 := by
  have h : Saved setSavedFlags (d.setFlag 1 1) _ :=
    (((((((((setBleEnable_fieldStep m (d.setFlag 1 1)).saved (by decide)).trans
    ((setWifiEnable_fieldStep m _ 0).saved (by decide))).trans
    ((setGsmActiveSubId_fieldStep m _).saved (by decide))).trans
    ((setCubbyInterval_fieldStep m _).saved (by decide))).trans
    ((setCubbyHeaderInterval_fieldStep m _).saved (by decide))).trans
    ((setBleSpeakerBroadEnable_fieldStep m _).saved_of_sysInfo
      (setBleSpeakerBroadEnable_sysInfo m _))).trans
    ((setBleSpeakerVolume_fieldStep m _).saved (by decide))).trans
    ((setBleSpeakerName_fieldStep m _).saved (by decide))).trans
    ((setBleSpeakerPairCode_fieldStep m _).saved_of_sysInfo (setBleSpeakerPairCode_sysInfo m _))
  exact h

theorem configClear_saved : ∃ d', Saved clearSavedFlags (d.setFlag 1 1) d' ∧
    (configClear m d).1 = d'.writeIfFlagged clearSavedFlags := by
  have h : Saved clearSavedFlags (d.setFlag 1 1) _ :=
    ((((((clearSsid_fieldStep m (d.setFlag 1 1) 0).saved (by decide)).trans
    ((clearPassword_fieldStep m _ (clearSsid m (d.setFlag 1 1) 0).2).saved (by decide))).trans
    ((clearBleSpeakerPairCode_fieldStep m _).saved_of_sysInfo
      (clearBleSpeakerPairCode_sysInfo m _))).trans
    ((clearClientIdList_fieldStep m _).saved (by decide))).trans
    ((clearBleSpeakerName_fieldStep m _).saved (by decide))).trans
    ((clearCubbyDisable_fieldStep m _).saved (by decide))
  exact ⟨_, h, rfl⟩

theorem configSet_persisted {m : DeviceConfig b} {d : Device} (hids : m.TenIds) :
    ∃ x, configSet m d = some x ∧ Persisted d x.1 := by
  obtain ⟨d₁, hd₁⟩ : ∃ d₁, setClientIdList m (configSetFirst m d).1 = some d₁ :=
    ⟨_, setClientIdList_eq hids _⟩
  refine ⟨_, by rw [configSet, hd₁]; rfl, ?_⟩
  have hsaved := ((configSetFirst_saved m d).trans
    ((setClientIdList_fieldStep m _ hd₁).saved (by decide))).trans
    ((configSetRest_fieldStep m d₁ (configSetFirst m d).2).saved (by decide))
  exact ⟨hsaved.persisted.flash, hsaved.persisted.written⟩

end

/-- A config message leaves the flash as the settings are. The list of client ids has ten numbers
when it is applied. -/
theorem persisted_of_tenIds {b : Board} {d : Device} {m : ConfigCommand b}
    (hids : m.command = 26 → m.hasDeviceConfig = true → m.deviceConfig.TenIds) :
    ∃ r, configCommand d m = some r ∧ Persisted d r.device := by
  by_cases ha : Accepts d m.header.opCode
  · unfold configCommand configRun
    simp only [acceptOpCode_of_accepts ha]
    split
    · exact ⟨_, rfl, .of_eq rfl rfl⟩
    · split
      · exact ⟨_, rfl, .of_eq (configQuery_sysInfo m.deviceConfig (d.configBegin m))
          (configQuery_fieldStep m.deviceConfig (d.configBegin m)).sysFlash⟩
      · exact ⟨_, rfl, .of_eq rfl rfl⟩
    · rename_i hnat
      have hc : m.command = 26 := UInt32.toNat_inj.1 hnat
      split
      · rename_i hhas
        obtain ⟨x, hx, hpers⟩ := configSet_persisted (d := d.configBegin m) (hids hc hhas)
        refine ⟨_, congrArg (Option.map _) hx, hpers.flash, hpers.written⟩
      · exact ⟨_, rfl, .of_eq rfl rfl⟩
    · split
      · obtain ⟨d', hsaved, heq⟩ := configClear_saved m.deviceConfig (d.configBegin m)
        have hpers := heq ▸ hsaved.persisted
        exact ⟨_, rfl, hpers.flash, hpers.written⟩
      · exact ⟨_, rfl, .of_eq rfl rfl⟩
    · exact ⟨_, rfl, .of_eq rfl rfl⟩
  · refine ⟨d.rspRet 0, ?_, .of_eq rfl rfl⟩
    unfold configCommand
    rw [acceptOpCode_of_not_accepts ha]

/-- A network name is set: no list of client ids is given. -/
theorem persisted_ssidMsg : ∃ r, configCommand (.reset 3)
    (ssidMsg 26 ⟨CStr.ascii "home", by decide, by decide⟩) = some r ∧
      Persisted (.reset 3) r.device :=
  persisted_of_tenIds fun _ _ h => absurd h (by decide)

/-! ## The texts -/

/-- The four texts of the settings that a set command brings as texts, with their flags. -/
structure TextView where
  btName : List UInt8
  ssid : List UInt8
  password : List UInt8
  ids : List Int
  btNameFlag : UInt32
  ssidFlag : UInt32
  passwordFlag : UInt32
  idsFlag : UInt32

def Device.textView (d : Device) : TextView where
  btName := d.sysInfo.btInfo.btName
  ssid := d.sysInfo.wifi.ssid
  password := d.sysInfo.wifi.password
  ids := d.sysInfo.clientIdListBuf
  btNameFlag := d.configCommandFlag 14
  ssidFlag := d.configCommandFlag 4
  passwordFlag := d.configCommandFlag 5
  idsFlag := d.configCommandFlag 13

section
variable {b : Board} (m : DeviceConfig b) (d : Device)

/-! ### The other fields -/

theorem setBleEnable_textView : (setBleEnable m d).textView = d.textView := by
  unfold setBleEnable
  split
  · rfl
  split <;> rfl

theorem setWifiEnable_textView (ret : Nat) :
    (setWifiEnable m d ret).1.textView = d.textView := by
  unfold setWifiEnable
  split
  · rfl
  split <;> rfl

theorem setGsmActiveSubId_textView : (setGsmActiveSubId m d).textView = d.textView := by
  unfold setGsmActiveSubId
  split <;> rfl

theorem setCubbyInterval_textView : (setCubbyInterval m d).textView = d.textView := by
  unfold setCubbyInterval
  split <;> rfl

theorem setCubbyHeaderInterval_textView : (setCubbyHeaderInterval m d).textView = d.textView := by
  unfold setCubbyHeaderInterval
  split <;> rfl

theorem setBleSpeakerBroadEnable_textView :
    (setBleSpeakerBroadEnable m d).textView = d.textView := by
  unfold setBleSpeakerBroadEnable
  split
  · rfl
  split <;> rfl

theorem setBleSpeakerVolume_textView : (setBleSpeakerVolume m d).textView = d.textView := by
  unfold setBleSpeakerVolume
  split
  · dsimp only
    split <;> rfl
  · rfl

theorem setBleSpeakerPairCode_textView : (setBleSpeakerPairCode m d).textView = d.textView := by
  unfold setBleSpeakerPairCode
  split
  · dsimp only
    split <;> rfl
  · rfl

theorem setCubbyDisable_textView : (setCubbyDisable m d).textView = d.textView := by
  unfold setCubbyDisable
  split <;> rfl

theorem setRemember_textView : (setRemember m d).textView = d.textView := by
  unfold setRemember
  split
  · rfl
  split <;> rfl

theorem writeIfFlagged_textView (ks : List Nat) : (d.writeIfFlagged ks).textView = d.textView := by
  unfold Device.writeIfFlagged
  split <;> rfl

/-! ### The four texts -/

theorem setBleSpeakerName_textView : (setBleSpeakerName m d).textView =
    if given m.bleSpeakerName.chars then
      { d.textView with
        btName := store (clear d.textView.btName) m.bleSpeakerName.chars
        btNameFlag := 1 }
    else d.textView := by
  unfold setBleSpeakerName
  split <;> rfl

theorem setSsid_textView (ret : Nat) : (setSsid m d ret).1.textView =
    if given m.ssid.chars then
      { d.textView with
        password := clear d.textView.password
        ssid := store (clear d.textView.ssid) m.ssid.chars
        ssidFlag := 1 }
    else d.textView := by
  unfold setSsid
  split
  · dsimp only
    split
    · rfl
    split <;> rfl
  · rfl

theorem setPassword_textView (ret : Nat) : (setPassword m d ret).1.textView =
    if given m.password.chars then
      { d.textView with
        password := store (clear d.textView.password) m.password.chars
        passwordFlag := 1 }
    else d.textView := by
  unfold setPassword
  split
  · dsimp only
    split
    · rfl
    split
    · rfl
    split
    · rfl
    split <;> rfl
  · rfl

theorem setClientIdList_textView {m : DeviceConfig b} {d d' : Device}
    (h : setClientIdList m d = some d') : d'.textView =
      if given m.clientIdList.chars then
        { d.textView with
          ids := setFrom 0 (((tokens 44 m.clientIdList.chars).take 10).map CStr.atoi) d.textView.ids
          idsFlag := 1 }
      else d.textView := by
  by_cases hids : m.TenIds
  · rw [setClientIdList_eq hids] at h
    obtain rfl := Option.some.inj h
    split <;> rfl
  · rw [setClientIdList_eq_none hids] at h
    cases h

/-- What a set command does to the texts. -/
def setTexts (v : TextView) : TextView where
  btName := if given m.bleSpeakerName.chars then store (clear v.btName) m.bleSpeakerName.chars
    else v.btName
  ssid := if given m.ssid.chars then store (clear v.ssid) m.ssid.chars else v.ssid
  password := if given m.password.chars then store (clear v.password) m.password.chars
    else if given m.ssid.chars then clear v.password else v.password
  ids := if given m.clientIdList.chars then
    setFrom 0 (((tokens 44 m.clientIdList.chars).take 10).map CStr.atoi) v.ids else v.ids
  btNameFlag := if given m.bleSpeakerName.chars then 1 else v.btNameFlag
  ssidFlag := if given m.ssid.chars then 1 else v.ssidFlag
  passwordFlag := if given m.password.chars then 1 else v.passwordFlag
  idsFlag := if given m.clientIdList.chars then 1 else v.idsFlag

theorem configSet_textView {m : DeviceConfig b} {d : Device} {x : Device × Nat}
    (h : configSet m d = some x) : x.1.textView = setTexts m d.textView := by
  unfold configSet at h
  rw [Option.map_eq_some_iff] at h
  obtain ⟨d₁, hd₁, rfl⟩ := h
  have hids := setClientIdList_textView hd₁
  have hfirst : (configSetFirst m d).1.textView =
      if given m.bleSpeakerName.chars then
        { d.textView with
          btName := store (clear d.textView.btName) m.bleSpeakerName.chars
          btNameFlag := 1 }
      else d.textView := by
    unfold configSetFirst
    simp only [setBleSpeakerPairCode_textView, setBleSpeakerName_textView,
      setBleSpeakerVolume_textView, setBleSpeakerBroadEnable_textView,
      setCubbyHeaderInterval_textView, setCubbyInterval_textView, setGsmActiveSubId_textView,
      setWifiEnable_textView, setBleEnable_textView]
    rfl
  simp only [writeIfFlagged_textView]
  unfold configSetRest
  simp only [setRemember_textView, setPassword_textView, setSsid_textView,
    setCubbyDisable_textView, hids, hfirst]
  unfold setTexts
  cases given m.bleSpeakerName.chars <;> cases given m.clientIdList.chars <;>
    cases given m.ssid.chars <;> cases given m.password.chars <;>
    simp [CStr.clear_clear]

end

/-- The text is to be set: neither empty nor the marker of a text that is not set. -/
def IsSet (s : List UInt8) : Prop := s ≠ [] ∧ s ≠ [0x0E]

/-- The text has the shape in which the code tells whether it is to be set. -/
def Readable (s : List UInt8) : Prop :=
  s = [] ∨ s = [0x0E] ∨ 2 ≤ s.length ∧ s.head? ≠ some 0x0E

instance (s : List UInt8) : Decidable (Readable s) := inferInstanceAs (Decidable (_ ∨ _ ∨ _))

/-- What is taken is to be set; all that is to be set is taken when it is readable. -/
theorem isSet_of_given {s : List UInt8} (h : given s = true) : IsSet s := by
  unfold given at h
  constructor <;> rintro rfl <;> simp at h

theorem readable_iff {s : List UInt8} (h0 : 0 ∉ s) : Readable s ↔ (IsSet s → given s = true) := by
  unfold Readable IsSet given
  cases s with
  | nil => simp
  | cons a s =>
    cases s with
    | nil => simp
    | cons c s =>
      have hc : c ≠ 0 := fun h => h0 (h ▸ List.mem_cons_of_mem a List.mem_cons_self)
      simp [hc]

section
variable {b : Board}

namespace DeviceConfig

/-- The texts of a set command. -/
def brought (m : DeviceConfig b) : List (List UInt8) :=
  [m.bleSpeakerName.chars, m.clientIdList.chars, m.ssid.chars, m.password.chars]

end DeviceConfig

/-- Every text that is to be set is stored and flagged, and no other changes. -/
structure SetStored (m : DeviceConfig b) (v v' : TextView) : Prop where
  name : IsSet m.bleSpeakerName.chars →
    textAt v'.btName 0 = m.bleSpeakerName.chars ∧ v'.btNameFlag = 1
  nameKept : ¬ IsSet m.bleSpeakerName.chars → v'.btName = v.btName
  ids : IsSet m.clientIdList.chars → v'.ids =
    setFrom 0 (((tokens 44 m.clientIdList.chars).take 10).map CStr.atoi) v.ids ∧ v'.idsFlag = 1
  idsKept : ¬ IsSet m.clientIdList.chars → v'.ids = v.ids
  ssid : IsSet m.ssid.chars → textAt v'.ssid 0 = m.ssid.chars ∧ v'.ssidFlag = 1
  ssidKept : ¬ IsSet m.ssid.chars → v'.ssid = v.ssid
  password : IsSet m.password.chars →
    textAt v'.password 0 = m.password.chars ∧ v'.passwordFlag = 1
  passwordKept : ¬ IsSet m.password.chars →
    v'.password = v.password ∨ IsSet m.ssid.chars ∧ v'.password = clear v.password

/-- The flags are those of the fields that are taken. -/
theorem setStored_iff (m : DeviceConfig b) {v : TextView} (hname : v.btNameFlag ≠ 1)
    (hids : v.idsFlag ≠ 1) (hssid : v.ssidFlag ≠ 1) (hpassword : v.passwordFlag ≠ 1) :
    SetStored m v (setTexts m v) ↔ ∀ s ∈ m.brought, Readable s := by
  have hread : (∀ s ∈ m.brought, Readable s) ↔
      (IsSet m.bleSpeakerName.chars → given m.bleSpeakerName.chars = true) ∧
      (IsSet m.clientIdList.chars → given m.clientIdList.chars = true) ∧
      (IsSet m.ssid.chars → given m.ssid.chars = true) ∧
      (IsSet m.password.chars → given m.password.chars = true) := by
    simp only [DeviceConfig.brought, List.forall_mem_cons, readable_iff m.bleSpeakerName.noNul,
      readable_iff m.clientIdList.noNul, readable_iff m.ssid.noNul, readable_iff m.password.noNul,
      List.not_mem_nil, false_imp_iff, implies_true, and_true]
  have hflag : ∀ {p : Bool} {f : UInt32}, f ≠ 1 → (if p then 1 else f) = 1 → p = true := by
    intro p f hf h
    cases p with
    | true => rfl
    | false => exact absurd h hf
  rw [hread]
  constructor
  · intro h
    exact ⟨fun hset => hflag hname (h.name hset).2, fun hset => hflag hids (h.ids hset).2,
      fun hset => hflag hssid (h.ssid hset).2, fun hset => hflag hpassword (h.password hset).2⟩
  · rintro ⟨htname, htids, htssid, htpassword⟩
    unfold setTexts
    constructor
    · intro hset
      rw [htname hset]
      exact ⟨CStr.textAt_store_clear _ m.bleSpeakerName.noNul, rfl⟩
    · intro hset
      exact if_neg fun h => hset (isSet_of_given h)
    · intro hset
      rw [htids hset]
      exact ⟨rfl, rfl⟩
    · intro hset
      exact if_neg fun h => hset (isSet_of_given h)
    · intro hset
      rw [htssid hset]
      exact ⟨CStr.textAt_store_clear _ m.ssid.noNul, rfl⟩
    · intro hset
      exact if_neg fun h => hset (isSet_of_given h)
    · intro hset
      rw [htpassword hset]
      exact ⟨CStr.textAt_store_clear _ m.password.noNul, rfl⟩
    · intro hset
      have hno : ¬ given m.password.chars = true := fun h => hset (isSet_of_given h)
      by_cases h : given m.ssid.chars = true
      · right
        simp only [hno, h, if_true]
        exact ⟨isSet_of_given h, rfl⟩
      · left
        simp only [hno, h]
        rfl

end

section
variable {b : Board} {d : Device} {m : ConfigCommand b}

/-- What an accepted set command leaves. -/
theorem configCommand_set (ha : Accepts d m.header.opCode) (hc : m.command = 26)
    (hhas : m.hasDeviceConfig = true) : configCommand d m =
      (configSet m.deviceConfig (d.configBegin m)).map fun x =>
        (x.1.emit (.publish (.deviceConfigData m.header.reportTraceId m.command))).rspRet x.2 := by
  have hnat : m.command.toNat = 26 := by
    rw [hc]
    rfl
  unfold configCommand configRun
  simp only [acceptOpCode_of_accepts ha, hnat, hhas, if_true]
  rfl

/-- The flags of the state before do not matter. -/
theorem setStored_configBegin {v' : TextView} :
    SetStored m.deviceConfig (d.configBegin m).textView v' ↔
      SetStored m.deviceConfig d.textView v' := by
  constructor <;> intro h <;>
    exact ⟨h.name, h.nameKept, h.ids, h.idsKept, h.ssid, h.ssidKept, h.password, h.passwordKept⟩

end

/-- An accepted set command stores exactly what it brings when its four texts are readable and a
list of client ids has ten numbers. -/
theorem setStored_iff_readable {b : Board} {d : Device} {m : ConfigCommand b}
    (ha : Accepts d m.header.opCode) (hhas : m.hasDeviceConfig = true) (hc : m.command = 26) :
    (∃ r, configCommand d m = some r ∧ SetStored m.deviceConfig d.textView r.device.textView) ↔
      (∀ s ∈ m.deviceConfig.brought, Readable s) ∧ m.deviceConfig.TenIds := by
  have hzero : ∀ k, 1 < k → (d.configBegin m).configCommandFlag k ≠ 1 := by
    intro k hk h
    exact configBegin_flag hk ((Function.update_of_ne (Nat.ne_of_gt hk) _ _).trans h)
  have hiff := setStored_iff m.deviceConfig (v := (d.configBegin m).textView)
    (hzero 14 (by decide)) (hzero 13 (by decide)) (hzero 4 (by decide)) (hzero 5 (by decide))
  rw [configCommand_set ha hc hhas, ← hiff, setStored_configBegin]
  constructor
  · rintro ⟨r, hr, hstored⟩
    rw [Option.map_eq_some_iff] at hr
    obtain ⟨x, hx, rfl⟩ := hr
    have hview := configSet_textView hx
    refine ⟨hview ▸ hstored, ?_⟩
    by_contra hids
    simp only [configSet, setClientIdList_eq_none hids] at hx
    cases hx
  · rintro ⟨hstored, hids⟩
    obtain ⟨x, hx, -⟩ := configSet_persisted (d := d.configBegin m) hids
    have hview := configSet_textView hx
    exact ⟨_, congrArg (Option.map _) hx, hview ▸ hstored⟩

/-- A network name of four letters is stored. -/
theorem setStored_ssidMsg : ∃ r, configCommand (.reset 3)
    (ssidMsg 26 ⟨CStr.ascii "home", by decide, by decide⟩) = some r ∧
      SetStored (ssidMsg 26 ⟨CStr.ascii "home", by decide, by decide⟩).deviceConfig
        (Device.reset 3).textView r.device.textView := by
  refine (setStored_iff_readable (by decide) rfl rfl).2 ⟨by decide, fun h => ?_⟩
  exact absurd h (by decide)

/-- A network name of one letter is not stored. -/
theorem not_setStored_short : ¬ ∀ (b : Board) (d : Device) (m : ConfigCommand b),
    Accepts d m.header.opCode → m.hasDeviceConfig = true → m.command = 26 →
      ∃ r, configCommand d m = some r ∧
        SetStored m.deviceConfig d.textView r.device.textView := by
  intro h
  obtain ⟨r, hr, hstored⟩ := h .small (.reset 3)
    (ssidMsg 26 ⟨CStr.ascii "h", by decide, by decide⟩) (by decide) rfl rfl
  obtain rfl := Option.some.inj hr
  have hssid := (hstored.ssid ⟨by decide, by decide⟩).2
  revert hssid
  decide

end AppXd.Net4g
