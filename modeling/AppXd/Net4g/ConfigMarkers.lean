import AppXd.Net4g.Replay

/-!
# The markers of query and clear commands

A text of a query or clear command names its field when it is the marker of the command. The code
compares by order and so also takes texts that stand above the marker.
-/

namespace AppXd.Net4g

open CStr (strcmp store clear)

/-! ## Flags -/

/-- The flags after fields have been looked at: each has a number and is named or not. -/
def flagged (flags : Nat → UInt32) (fields : List (Nat × Bool)) : Nat → UInt32 :=
  fields.foldl (fun flags x => if x.2 then Function.update flags x.1 1 else flags) flags

section
variable {flags : Nat → UInt32} {fields : List (Nat × Bool)} {k : Nat} {p : Bool}

theorem flagged_of_notMem (h : k ∉ fields.map Prod.fst) : flagged flags fields k = flags k := by
  induction fields generalizing flags with
  | nil => rfl
  | cons x fields ih =>
    rw [List.map_cons, List.mem_cons, not_or] at h
    refine (ih h.2).trans ?_
    dsimp only
    split
    · exact Function.update_of_ne h.1 _ _
    · rfl

/-- A flag is set when its field is named. -/
theorem flagged_eq_one_iff (hnodup : (fields.map Prod.fst).Nodup) (hmem : (k, p) ∈ fields)
    (hflag : flags k ≠ 1) : flagged flags fields k = 1 ↔ p = true := by
  induction fields generalizing flags with
  | nil => cases hmem
  | cons x fields ih =>
    rw [List.map_cons, List.nodup_cons] at hnodup
    obtain rfl | hmem := List.mem_cons.1 hmem
    · have hrest : flagged (if p then Function.update flags k 1 else flags) fields k = _ :=
        flagged_of_notMem hnodup.1
      refine Eq.congr_left hrest |>.trans ?_
      cases p with
      | true => simp
      | false => simpa using hflag
    · have hne : k ≠ x.1 := fun h => hnodup.1 (h ▸ List.mem_map_of_mem hmem)
      refine ih hnodup.2 hmem ?_
      dsimp only
      split
      · rwa [Function.update_of_ne hne]
      · exact hflag

variable (flags) in
/-- The flags say of every field whether it is named when they come from the same fields. -/
theorem flagged_iff_eq {fields' : List (Nat × Bool)}
    (hkeys : fields.map Prod.fst = fields'.map Prod.fst) (hnodup : (fields.map Prod.fst).Nodup)
    (hflag : ∀ k ∈ fields.map Prod.fst, flags k ≠ 1) :
    (∀ x ∈ fields', flagged flags fields x.1 = 1 ↔ x.2 = true) ↔ fields = fields' := by
  constructor
  · intro h
    have hlength : fields.length = fields'.length := by simpa using congrArg List.length hkeys
    refine List.ext_getElem hlength fun i hi hi' => ?_
    have hkey : fields[i].1 = fields'[i].1 := by
      simpa [hi, hi'] using congrArg (fun l => l[i]?) hkeys
    have hcode : flagged flags fields fields[i].1 = 1 ↔ fields[i].2 = true :=
      flagged_eq_one_iff hnodup (List.getElem_mem hi)
        (hflag _ (List.mem_map_of_mem (List.getElem_mem hi)))
    have hspec := h _ (List.getElem_mem hi')
    rw [← hkey, hcode] at hspec
    exact Prod.ext hkey (Bool.eq_iff_iff.2 hspec)
  · rintro rfl x hx
    exact flagged_eq_one_iff hnodup hx (hflag _ (List.mem_map_of_mem hx))

end

/-! ## Named fields -/

section
variable {b : Board} (m : DeviceConfig b) (p : List UInt8 → Bool)

/-- The first column of the list is named when it has an address and a text that names it. -/
def entryNamed : Option (CubbyDisable b) → Bool
  | none => false
  | some e => 1 ≤ e.addr ∧ p e.slotDisable.chars

namespace DeviceConfig

/-- The texts that are compared with a marker, next to the one of the first column. -/
def texts : List (List UInt8) :=
  [m.ssid.chars, m.password.chars, m.bleSpeakerPairCode.chars, m.clientIdList.chars,
    m.bleSpeakerName.chars]

/-- The fields of a query command. -/
def queryFields (entry : Option (CubbyDisable b)) : List (Nat × Bool) :=
  [(2, m.bleEnable = 9), (3, m.wifiEnable = 9), (4, p m.ssid.chars), (5, p m.password.chars),
    (6, m.remember = 9), (7, m.gsmActiveSubId = 9), (8, m.cubbyInterval = 9),
    (9, m.cubbyHeaderInterval = 9), (10, m.bleSpeakerVolume = 9),
    (11, p m.bleSpeakerPairCode.chars), (12, m.bleSpeakerBroadEnable = 9),
    (13, p m.clientIdList.chars), (14, p m.bleSpeakerName.chars), (15, entryNamed p entry)]

/-- The fields of a clear command. -/
def clearFields (entry : Option (CubbyDisable b)) : List (Nat × Bool) :=
  [(4, p m.ssid.chars), (5, p m.password.chars), (11, p m.bleSpeakerPairCode.chars),
    (13, p m.clientIdList.chars), (14, p m.bleSpeakerName.chars), (15, entryNamed p entry)]

end DeviceConfig

/-- The settings with the named fields cleared. -/
def SysInfo.cleared (s : SysInfo) (entry : Option (CubbyDisable b)) : SysInfo where
  btInfo := { s.btInfo with
    btName := if p m.bleSpeakerName.chars then clear s.btInfo.btName else s.btInfo.btName }
  wifi := { s.wifi with
    ssid := if p m.ssid.chars then clear s.wifi.ssid else s.wifi.ssid
    password := if p m.password.chars then clear s.wifi.password else s.wifi.password
    wifiConfigFlag :=
      if p m.ssid.chars || p m.password.chars then 0 else s.wifi.wifiConfigFlag }
  slot := if entryNamed p entry then ⟨0, 0⟩ else s.slot
  net4G := s.net4G
  clientIdListBuf := if p m.clientIdList.chars then
    (List.range 10).foldl (fun ids k => ids.set k 99) s.clientIdListBuf else s.clientIdListBuf
  cubbyInterval := s.cubbyInterval
  cubbyHeaderInterval := s.cubbyHeaderInterval

/-- The pair code with its field named or not. -/
def pinCleared (pin : List UInt8) : List UInt8 :=
  if p m.bleSpeakerPairCode.chars then clear (store pin [50, 50, 50, 50, 0]) else pin

end

section
variable {b : Board} (d : Device) (m : ConfigCommand b)

/-- The text is the marker. -/
def isMarker (characteristic s : List UInt8) : Bool := s = characteristic

/-- A query command flags the named fields and changes no setting. -/
structure QueryExact (d' : Device) : Prop where
  flag : ∀ x ∈ m.deviceConfig.queryFields (isMarker characteristic25)
    m.deviceConfig.cubbyDisable.head?, d'.configCommandFlag x.1 = 1 ↔ x.2 = true
  sysInfo : d'.sysInfo = d.sysInfo

/-- A clear command flags and clears the named fields, and no other. -/
structure ClearExact (d' : Device) : Prop where
  flag : ∀ x ∈ m.deviceConfig.clearFields (isMarker characteristic27)
    m.deviceConfig.cubbyDisable.head?, d'.configCommandFlag x.1 = 1 ↔ x.2 = true
  sysInfo : d'.sysInfo = d.sysInfo.cleared m.deviceConfig (isMarker characteristic27)
    m.deviceConfig.cubbyDisable.head?
  pinCode : d'.globalInfo.btPinCode =
    pinCleared m.deviceConfig (isMarker characteristic27) d.globalInfo.btPinCode

/-- The command acts exactly on the fields that its marker names. -/
def MarkersExact : Prop :=
  ∃ r, configCommand d m = some r ∧ (m.command = 25 → QueryExact d m r.device) ∧
    (m.command = 27 → ClearExact d m r.device)

/-- No text stands above the marker, and a list of more than four columns does not begin with it. -/
structure NoneAbove (characteristic : List UInt8) (m : DeviceConfig b) : Prop where
  texts : ∀ s ∈ m.texts, ¬ 0 < strcmp s characteristic
  entry : ∀ e, m.firstDisable = some e → 1 ≤ e.addr → ¬ 0 < strcmp e.slotDisable.chars characteristic
  long : 4 < m.cubbyDisable.length →
    entryNamed (isMarker characteristic) m.cubbyDisable.head? = false

end

/-! ## What the code does -/

section
variable {b : Board} (m : DeviceConfig b) (d : Device)

theorem queryNumber_configCommandFlag (k : Nat) (v : UInt32) :
    (queryNumber k v d).configCommandFlag =
      if decide (v = 9) then Function.update d.configCommandFlag k 1
      else d.configCommandFlag := by
  unfold queryNumber
  by_cases h : v = 9 <;> simp [h, Device.setFlag]

theorem queryText_configCommandFlag (k : Nat) (s : List UInt8) :
    (queryText k s d).configCommandFlag =
      if marked characteristic25 s then Function.update d.configCommandFlag k 1
      else d.configCommandFlag := by
  unfold queryText
  split <;> rfl

theorem queryCubbyDisable_configCommandFlag :
    (queryCubbyDisable m d).configCommandFlag =
      if entryNamed (marked characteristic25) m.firstDisable then
        Function.update d.configCommandFlag 15 1 else d.configCommandFlag := by
  unfold queryCubbyDisable
  cases m.firstDisable with
  | none => rfl
  | some e =>
    unfold entryNamed
    by_cases h : 1 ≤ e.addr
    · simp only [if_pos h, queryText_configCommandFlag]
      simp [h]
    · simp [h]

theorem configQuery_configCommandFlag : (configQuery m d).configCommandFlag =
    flagged (Function.update d.configCommandFlag 1 1)
      (m.queryFields (marked characteristic25) m.firstDisable) := by
  unfold configQuery
  simp only [queryNumber_configCommandFlag, queryText_configCommandFlag,
    queryCubbyDisable_configCommandFlag]
  rfl

theorem queryNumber_sysInfo (k : Nat) (v : UInt32) :
    (queryNumber k v d).sysInfo = d.sysInfo := by
  unfold queryNumber
  split <;> rfl

theorem queryText_sysInfo (k : Nat) (s : List UInt8) : (queryText k s d).sysInfo = d.sysInfo := by
  unfold queryText
  split <;> rfl

theorem queryCubbyDisable_sysInfo : (queryCubbyDisable m d).sysInfo = d.sysInfo := by
  unfold queryCubbyDisable
  split
  · rfl
  split
  · exact queryText_sysInfo _ _ _
  · rfl

theorem configQuery_sysInfo : (configQuery m d).sysInfo = d.sysInfo := by
  unfold configQuery
  simp only [queryCubbyDisable_sysInfo, queryText_sysInfo, queryNumber_sysInfo]
  rfl

theorem clearSsid_sysInfo (ret : Nat) : (clearSsid m d ret).1.sysInfo =
    { d.sysInfo with wifi := { d.sysInfo.wifi with
        ssid := if marked characteristic27 m.ssid.chars then clear d.sysInfo.wifi.ssid
          else d.sysInfo.wifi.ssid
        wifiConfigFlag := if marked characteristic27 m.ssid.chars then 0
          else d.sysInfo.wifi.wifiConfigFlag } } := by
  unfold clearSsid
  split <;> rfl

theorem clearPassword_sysInfo (ret : Nat) : (clearPassword m d ret).1.sysInfo =
    { d.sysInfo with wifi := { d.sysInfo.wifi with
        password := if marked characteristic27 m.password.chars then clear d.sysInfo.wifi.password
          else d.sysInfo.wifi.password
        wifiConfigFlag := if marked characteristic27 m.password.chars then 0
          else d.sysInfo.wifi.wifiConfigFlag } } := by
  unfold clearPassword
  split <;> rfl

theorem clearBleSpeakerPairCode_sysInfo :
    (clearBleSpeakerPairCode m d).sysInfo = d.sysInfo := by
  unfold clearBleSpeakerPairCode
  split <;> rfl

theorem clearClientIdList_sysInfo : (clearClientIdList m d).sysInfo =
    { d.sysInfo with clientIdListBuf := if marked characteristic27 m.clientIdList.chars then
        (List.range 10).foldl (fun ids k => ids.set k 99) d.sysInfo.clientIdListBuf
      else d.sysInfo.clientIdListBuf } := by
  unfold clearClientIdList
  split <;> rfl

theorem clearBleSpeakerName_sysInfo : (clearBleSpeakerName m d).sysInfo =
    { d.sysInfo with btInfo := { d.sysInfo.btInfo with
        btName := if marked characteristic27 m.bleSpeakerName.chars then
          clear d.sysInfo.btInfo.btName else d.sysInfo.btInfo.btName } } := by
  unfold clearBleSpeakerName
  split <;> rfl

theorem entryNamed_clear (e : CubbyDisable b) :
    (0 < e.addr ∧ marked characteristic27 e.slotDisable.chars = true) ↔
      entryNamed (marked characteristic27) (some e) = true := by
  have hone : 1 ≤ e.addr ↔ 0 < e.addr := by
    rw [UInt32.le_iff_toNat_le, UInt32.lt_iff_toNat_lt]
    exact Iff.rfl
  unfold entryNamed
  rw [decide_eq_true_iff, hone]

theorem clearCubbyDisable_sysInfo : (clearCubbyDisable m d).sysInfo =
    { d.sysInfo with slot := if entryNamed (marked characteristic27) m.firstDisable then ⟨0, 0⟩
        else d.sysInfo.slot } := by
  unfold clearCubbyDisable
  cases m.firstDisable with
  | none => rfl
  | some e =>
    simp only [entryNamed_clear]
    split <;> rfl

theorem writeIfFlagged_sysInfo (ks : List Nat) : (d.writeIfFlagged ks).sysInfo = d.sysInfo := by
  unfold Device.writeIfFlagged
  split <;> rfl

theorem configClear_sysInfo : (configClear m d).1.sysInfo =
    d.sysInfo.cleared m (marked characteristic27) m.firstDisable := by
  unfold configClear SysInfo.cleared
  simp only [writeIfFlagged_sysInfo, clearCubbyDisable_sysInfo, clearBleSpeakerName_sysInfo,
    clearClientIdList_sysInfo, clearBleSpeakerPairCode_sysInfo, clearPassword_sysInfo,
    clearSsid_sysInfo]
  cases marked characteristic27 m.ssid.chars <;>
    cases marked characteristic27 m.password.chars <;> rfl

/-! ### Flags and pair code of a clear command -/

theorem clearSsid_configCommandFlag (ret : Nat) : (clearSsid m d ret).1.configCommandFlag =
    if marked characteristic27 m.ssid.chars then Function.update d.configCommandFlag 4 1
    else d.configCommandFlag := by
  unfold clearSsid
  split <;> rfl

theorem clearPassword_configCommandFlag (ret : Nat) :
    (clearPassword m d ret).1.configCommandFlag =
      if marked characteristic27 m.password.chars then Function.update d.configCommandFlag 5 1
      else d.configCommandFlag := by
  unfold clearPassword
  split <;> rfl

theorem clearBleSpeakerPairCode_configCommandFlag :
    (clearBleSpeakerPairCode m d).configCommandFlag =
      if marked characteristic27 m.bleSpeakerPairCode.chars then
        Function.update d.configCommandFlag 11 1 else d.configCommandFlag := by
  unfold clearBleSpeakerPairCode
  split <;> rfl

theorem clearClientIdList_configCommandFlag : (clearClientIdList m d).configCommandFlag =
    if marked characteristic27 m.clientIdList.chars then Function.update d.configCommandFlag 13 1
    else d.configCommandFlag := by
  unfold clearClientIdList
  split <;> rfl

theorem clearBleSpeakerName_configCommandFlag : (clearBleSpeakerName m d).configCommandFlag =
    if marked characteristic27 m.bleSpeakerName.chars then
      Function.update d.configCommandFlag 14 1 else d.configCommandFlag := by
  unfold clearBleSpeakerName
  split <;> rfl

theorem clearCubbyDisable_configCommandFlag : (clearCubbyDisable m d).configCommandFlag =
    if entryNamed (marked characteristic27) m.firstDisable then
      Function.update d.configCommandFlag 15 1 else d.configCommandFlag := by
  unfold clearCubbyDisable
  cases m.firstDisable with
  | none => rfl
  | some e =>
    simp only [entryNamed_clear]
    split <;> rfl

theorem writeIfFlagged_configCommandFlag (ks : List Nat) :
    (d.writeIfFlagged ks).configCommandFlag = d.configCommandFlag := by
  unfold Device.writeIfFlagged
  split <;> rfl

theorem configClear_configCommandFlag : (configClear m d).1.configCommandFlag =
    flagged (Function.update d.configCommandFlag 1 1)
      (m.clearFields (marked characteristic27) m.firstDisable) := by
  unfold configClear
  simp only [writeIfFlagged_configCommandFlag, clearCubbyDisable_configCommandFlag,
    clearBleSpeakerName_configCommandFlag, clearClientIdList_configCommandFlag,
    clearBleSpeakerPairCode_configCommandFlag, clearPassword_configCommandFlag,
    clearSsid_configCommandFlag]
  rfl

theorem clearSsid_globalInfo (ret : Nat) :
    (clearSsid m d ret).1.globalInfo = d.globalInfo := by
  unfold clearSsid
  split <;> rfl

theorem clearPassword_globalInfo (ret : Nat) :
    (clearPassword m d ret).1.globalInfo = d.globalInfo := by
  unfold clearPassword
  split <;> rfl

theorem clearBleSpeakerPairCode_btPinCode : (clearBleSpeakerPairCode m d).globalInfo.btPinCode =
    pinCleared m (marked characteristic27) d.globalInfo.btPinCode := by
  unfold clearBleSpeakerPairCode pinCleared
  split <;> rfl

theorem clearClientIdList_globalInfo : (clearClientIdList m d).globalInfo = d.globalInfo := by
  unfold clearClientIdList
  split <;> rfl

theorem clearBleSpeakerName_globalInfo : (clearBleSpeakerName m d).globalInfo = d.globalInfo := by
  unfold clearBleSpeakerName
  split <;> rfl

theorem clearCubbyDisable_globalInfo : (clearCubbyDisable m d).globalInfo = d.globalInfo := by
  unfold clearCubbyDisable
  split
  · rfl
  split <;> rfl

theorem configClear_btPinCode : (configClear m d).1.globalInfo.btPinCode =
    pinCleared m (marked characteristic27) d.globalInfo.btPinCode := by
  unfold configClear
  simp only [writeIfFlagged_globalInfo, clearCubbyDisable_globalInfo,
    clearBleSpeakerName_globalInfo, clearClientIdList_globalInfo,
    clearBleSpeakerPairCode_btPinCode, clearPassword_globalInfo, clearSsid_globalInfo]
  rfl

end

/-! ## The order and the marker -/

section
variable {b : Board}

/-- The order takes a text for the marker when it is the marker, or stands above it. -/
theorem marked_eq_isMarker_iff {characteristic s : List UInt8} (hc : 0 ∉ characteristic)
    (hs : 0 ∉ s) :
    marked characteristic s = isMarker characteristic s ↔ ¬ 0 < strcmp s characteristic := by
  have hzero := CStr.strcmp_eq_zero hs hc
  unfold marked isMarker
  rw [decide_eq_decide, ← hzero]
  omega

theorem DeviceConfig.noNul_of_mem_texts {m : DeviceConfig b} {s : List UInt8} (h : s ∈ m.texts) :
    0 ∉ s := by
  simp only [texts, List.mem_cons, List.not_mem_nil, or_false] at h
  obtain rfl | rfl | rfl | rfl | rfl := h
  · exact m.ssid.noNul
  · exact m.password.noNul
  · exact m.bleSpeakerPairCode.noNul
  · exact m.clientIdList.noNul
  · exact m.bleSpeakerName.noNul

theorem entryNamed_eq_iff {characteristic : List UInt8} (hc : 0 ∉ characteristic)
    (m : DeviceConfig b) :
    entryNamed (marked characteristic) m.firstDisable =
        entryNamed (isMarker characteristic) m.cubbyDisable.head? ↔
      (∀ e, m.firstDisable = some e → 1 ≤ e.addr →
        ¬ 0 < strcmp e.slotDisable.chars characteristic) ∧
      (4 < m.cubbyDisable.length →
        entryNamed (isMarker characteristic) m.cubbyDisable.head? = false) := by
  unfold DeviceConfig.firstDisable
  by_cases hlen : m.cubbyDisable.length ≤ 4
  · rw [if_pos hlen]
    have hnot : ¬ 4 < m.cubbyDisable.length := Nat.not_lt.2 hlen
    cases m.cubbyDisable.head? with
    | none => simp [entryNamed, hnot]
    | some e =>
      have hmark := marked_eq_isMarker_iff hc e.slotDisable.noNul
      by_cases haddr : 1 ≤ e.addr
      · simpa [entryNamed, hnot, haddr] using hmark
      · simp [entryNamed, hnot, haddr]
  · rw [if_neg hlen]
    have hlong : 4 < m.cubbyDisable.length := Nat.lt_of_not_le hlen
    constructor
    · intro h
      exact ⟨nofun, fun _ => h.symm⟩
    · rintro ⟨-, h⟩
      exact (h hlong).symm

/-- Where nothing stands above the marker the code names the same fields. -/
theorem noneAbove_iff {characteristic : List UInt8} (hc : 0 ∉ characteristic)
    (m : DeviceConfig b) : NoneAbove characteristic m ↔
      (∀ s ∈ m.texts, marked characteristic s = isMarker characteristic s) ∧
        entryNamed (marked characteristic) m.firstDisable =
          entryNamed (isMarker characteristic) m.cubbyDisable.head? := by
  rw [entryNamed_eq_iff hc]
  constructor
  · intro h
    exact ⟨fun s hs => (marked_eq_isMarker_iff hc (m.noNul_of_mem_texts hs)).2 (h.texts s hs),
      h.entry, h.long⟩
  · rintro ⟨htexts, hentry, hlong⟩
    exact ⟨fun s hs => (marked_eq_isMarker_iff hc (m.noNul_of_mem_texts hs)).1 (htexts s hs),
      hentry, hlong⟩

end

/-! ## The commands -/

section
variable {b : Board} {d : Device} {m : ConfigCommand b}

/-- The state in which an accepted command is looked at. -/
def Device.configBegin (d : Device) (m : ConfigCommand b) : Device :=
  { d with
    globalInfo := { d.globalInfo with cloudOpCode := m.header.opCode }
    configCommandFlag := fun _ => 0 }.setFlag 0 m.command

theorem configBegin_flag {k : Nat} (hk : 1 < k) :
    Function.update (d.configBegin m).configCommandFlag 1 1 k ≠ 1 := by
  have hzero : (d.configBegin m).configCommandFlag k = 0 :=
    Function.update_of_ne (Nat.ne_of_gt (Nat.lt_of_succ_lt hk)) _ _
  rw [Function.update_of_ne (Nat.ne_of_gt hk), hzero]
  decide

theorem queryFields_map_fst (m : DeviceConfig b) (p : List UInt8 → Bool)
    (entry : Option (CubbyDisable b)) : (m.queryFields p entry).map Prod.fst =
      [2, 3, 4, 5, 6, 7, 8, 9, 10, 11, 12, 13, 14, 15] := rfl

theorem clearFields_map_fst (m : DeviceConfig b) (p : List UInt8 → Bool)
    (entry : Option (CubbyDisable b)) :
    (m.clearFields p entry).map Prod.fst = [4, 5, 11, 13, 14, 15] := rfl

/-- The same fields are named when the same texts and the same entry are. -/
theorem queryFields_eq_iff {m : DeviceConfig b} {p q : List UInt8 → Bool}
    {entry entry' : Option (CubbyDisable b)} :
    m.queryFields p entry = m.queryFields q entry' ↔
      (∀ s ∈ m.texts, p s = q s) ∧ entryNamed p entry = entryNamed q entry' := by
  simp only [DeviceConfig.queryFields, DeviceConfig.texts, List.cons.injEq, Prod.mk.injEq,
    true_and, and_true, List.forall_mem_cons, List.not_mem_nil, false_imp_iff, implies_true,
    and_assoc]

theorem clearFields_eq_iff {m : DeviceConfig b} {p q : List UInt8 → Bool}
    {entry entry' : Option (CubbyDisable b)} :
    m.clearFields p entry = m.clearFields q entry' ↔
      (∀ s ∈ m.texts, p s = q s) ∧ entryNamed p entry = entryNamed q entry' := by
  simp only [DeviceConfig.clearFields, DeviceConfig.texts, List.cons.injEq, Prod.mk.injEq,
    true_and, and_true, List.forall_mem_cons, List.not_mem_nil, false_imp_iff, implies_true,
    and_assoc]

theorem queryExact_iff (e : Effect) :
    QueryExact d m ((configQuery m.deviceConfig (d.configBegin m)).emit e) ↔
      NoneAbove characteristic25 m.deviceConfig := by
  have hexact := flagged_iff_eq (Function.update (d.configBegin m).configCommandFlag 1 1)
    ((queryFields_map_fst m.deviceConfig (marked characteristic25)
      m.deviceConfig.firstDisable).trans (queryFields_map_fst m.deviceConfig
        (isMarker characteristic25) m.deviceConfig.cubbyDisable.head?).symm)
    (by rw [queryFields_map_fst]; decide)
    (fun k hk => configBegin_flag (by rw [queryFields_map_fst] at hk; revert k; decide))
  rw [← configQuery_configCommandFlag] at hexact
  rw [noneAbove_iff (by decide), ← queryFields_eq_iff]
  constructor
  · intro h
    exact hexact.1 h.flag
  · intro heq
    exact ⟨hexact.2 heq, configQuery_sysInfo m.deviceConfig (d.configBegin m)⟩

theorem clearExact_iff (e : Effect) :
    ClearExact d m ((configClear m.deviceConfig (d.configBegin m)).1.emit e) ↔
      NoneAbove characteristic27 m.deviceConfig := by
  have hexact := flagged_iff_eq (Function.update (d.configBegin m).configCommandFlag 1 1)
    ((clearFields_map_fst m.deviceConfig (marked characteristic27)
      m.deviceConfig.firstDisable).trans (clearFields_map_fst m.deviceConfig
        (isMarker characteristic27) m.deviceConfig.cubbyDisable.head?).symm)
    (by rw [clearFields_map_fst]; decide)
    (fun k hk => configBegin_flag (by rw [clearFields_map_fst] at hk; revert k; decide))
  rw [← configClear_configCommandFlag] at hexact
  rw [noneAbove_iff (by decide)]
  constructor
  · intro h
    exact clearFields_eq_iff.1 (hexact.1 h.flag)
  · rintro ⟨htexts, hentry⟩
    refine ⟨hexact.2 (clearFields_eq_iff.2 ⟨htexts, hentry⟩), ?_, ?_⟩
    all_goals
      simp only [DeviceConfig.texts, List.forall_mem_cons] at htexts
      obtain ⟨hssid, hpassword, hpair, hids, hname, -⟩ := htexts
    · refine (configClear_sysInfo m.deviceConfig (d.configBegin m)).trans ?_
      unfold SysInfo.cleared
      rw [hssid, hpassword, hids, hname, hentry]
      rfl
    · refine (configClear_btPinCode m.deviceConfig (d.configBegin m)).trans ?_
      unfold pinCleared
      rw [hpair]
      rfl

/-- What an accepted query command leaves. -/
theorem configCommand_query (ha : Accepts d m.header.opCode) (hc : m.command = 25)
    (hhas : m.hasDeviceConfig = true) : configCommand d m =
      some (((configQuery m.deviceConfig (d.configBegin m)).emit
        (.publish (.deviceConfigData m.header.reportTraceId m.command))).rspRet 0) := by
  have hnat : m.command.toNat = 25 := by
    rw [hc]
    rfl
  unfold configCommand configRun
  simp only [acceptOpCode_of_accepts ha, hnat, hhas, if_true]
  rfl

/-- What an accepted clear command leaves. -/
theorem configCommand_clear (ha : Accepts d m.header.opCode) (hc : m.command = 27)
    (hhas : m.hasDeviceConfig = true) : configCommand d m =
      some (((configClear m.deviceConfig (d.configBegin m)).1.emit
        (.publish (.deviceConfigData m.header.reportTraceId m.command))).rspRet
          (configClear m.deviceConfig (d.configBegin m)).2) := by
  have hnat : m.command.toNat = 27 := by
    rw [hc]
    rfl
  unfold configCommand configRun
  simp only [acceptOpCode_of_accepts ha, hnat, hhas, if_true]
  rfl

end

/-- An accepted query or clear command acts exactly on the fields that its marker names, as long as
no text stands above the marker. -/
theorem markersExact_iff_noneAbove {b : Board} {d : Device} {m : ConfigCommand b}
    (ha : Accepts d m.header.opCode) (hhas : m.hasDeviceConfig = true)
    (hc : m.command = 25 ∨ m.command = 27) :
    MarkersExact d m ↔ (m.command = 25 → NoneAbove characteristic25 m.deviceConfig) ∧
      (m.command = 27 → NoneAbove characteristic27 m.deviceConfig) := by
  unfold MarkersExact
  obtain hc | hc := hc
  · have hne : m.command ≠ 27 := by
      rw [hc]
      decide
    rw [configCommand_query ha hc hhas]
    constructor
    · rintro ⟨r, hr, hexact, -⟩
      obtain rfl := Option.some.inj hr
      exact ⟨fun _ => (queryExact_iff _).1 (hexact hc), fun h => absurd h hne⟩
    · rintro ⟨h, -⟩
      exact ⟨_, rfl, fun _ => (queryExact_iff _).2 (h hc), fun h => absurd h hne⟩
  · have hne : m.command ≠ 25 := by
      rw [hc]
      decide
    rw [configCommand_clear ha hc hhas]
    constructor
    · rintro ⟨r, hr, -, hexact⟩
      obtain rfl := Option.some.inj hr
      exact ⟨fun h => absurd h hne, fun _ => (clearExact_iff _).1 (hexact hc)⟩
    · rintro ⟨-, h⟩
      exact ⟨_, rfl, fun h => absurd h hne, fun _ => (clearExact_iff _).2 (h hc)⟩

/-- A command whose only text is the network name. -/
def ssidMsg (command : UInt32) (ssid : CStr.Str 8) : ConfigCommand .small :=
  ⟨⟨4, 0⟩, command, true,
    ⟨0, 0, ssid, ⟨[], by decide, by decide⟩, 0, 0, 0, 0, 0, ⟨[], by decide, by decide⟩, 0,
      ⟨[], by decide, by decide⟩, ⟨[], by decide, by decide⟩, []⟩⟩

/-- A message that names no network. -/
def emptySsid : CStr.Str 8 := ⟨[], by decide, by decide⟩

/-- The network name is asked for. -/
theorem markersExact_ssidMsg :
    MarkersExact (.reset 3) (ssidMsg 25 ⟨characteristic25, by decide, by decide⟩) := by
  refine (markersExact_iff_noneAbove (by decide) rfl (.inl rfl)).2 ⟨fun _ => ⟨?_, ?_, ?_⟩, ?_⟩
  · decide
  · rintro e he
    cases he
  · decide
  · exact fun h => absurd h (by decide)

/-- A network name above the marker is taken for it. -/
theorem not_markersExact_above : ¬ ∀ (b : Board) (d : Device) (m : ConfigCommand b),
    Accepts d m.header.opCode → m.hasDeviceConfig = true → m.command = 25 ∨ m.command = 27 →
      MarkersExact d m := by
  intro h
  obtain ⟨r, hr, -, hclear⟩ := h .small (.reset 3) (ssidMsg 27 ⟨CStr.ascii "home", by decide, by decide⟩)
    (by decide) rfl (.inr rfl)
  obtain rfl := Option.some.inj hr
  have hflag := (hclear rfl).flag (4, false) (by decide)
  revert hflag
  decide

end AppXd.Net4g
