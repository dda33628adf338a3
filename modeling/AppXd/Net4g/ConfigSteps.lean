import AppXd.Net4g.ConfigCommand

/-!
# What one field of a configuration command does

Every field of a query, set or clear command has its flag. `FieldStep ks` says what the handling of
the fields with the flags `ks` can do: a flag that is set stays set, and `gSysInfo_struct` changes
only under a flag. It holds of each field and composes.
-/

namespace AppXd.Net4g

/-- The handling of fields whose flags are among `ks`. -/
structure FieldStep (ks : List Nat) (d d' : Device) : Prop where
  other : ∀ j, j ∉ ks → d'.configCommandFlag j = d.configCommandFlag j
  stays : ∀ j, d.configCommandFlag j = 1 → d'.configCommandFlag j = 1
  sysInfo : d'.sysInfo = d.sysInfo ∨ ∃ k ∈ ks, d'.configCommandFlag k = 1
  sysFlash : d'.sysFlash = d.sysFlash
  opCode : d'.globalInfo.cloudOpCode = d.globalInfo.cloudOpCode

namespace FieldStep

variable {ks ls : List Nat} {d d' d'' : Device}

theorem refl (ks : List Nat) (d : Device) : FieldStep ks d d :=
  ⟨fun _ _ => rfl, fun _ h => h, .inl rfl, rfl, rfl⟩

/-- A field that is named sets its flag. -/
theorem of_flag {k : Nat} (hflag : d'.configCommandFlag = Function.update d.configCommandFlag k 1)
    (hflash : d'.sysFlash = d.sysFlash)
    (hop : d'.globalInfo.cloudOpCode = d.globalInfo.cloudOpCode) : FieldStep [k] d d' where
  other j hj := by
    rw [hflag]
    exact Function.update_of_ne (fun h => hj (List.mem_singleton.2 h)) _ _
  stays j hj := by
    rw [hflag]
    by_cases h : j = k
    · rw [h, Function.update_self]
    · rw [Function.update_of_ne h, hj]
  sysInfo := .inr ⟨k, List.mem_singleton_self k, by rw [hflag, Function.update_self]⟩
  sysFlash := hflash
  opCode := hop

theorem trans (h : FieldStep ks d d') (h' : FieldStep ls d' d'') : FieldStep (ks ++ ls) d d'' where
  other j hj := by
    rw [List.mem_append, not_or] at hj
    exact (h'.other j hj.2).trans (h.other j hj.1)
  stays j hj := h'.stays j (h.stays j hj)
  sysInfo := by
    obtain heq' | ⟨k, hk, hflag⟩ := h'.sysInfo
    · obtain heq | ⟨k, hk, hflag⟩ := h.sysInfo
      · exact .inl (heq'.trans heq)
      · exact .inr ⟨k, List.mem_append_left ls hk, h'.stays k hflag⟩
    · exact .inr ⟨k, List.mem_append_right ks hk, hflag⟩
  sysFlash := h'.sysFlash.trans h.sysFlash
  opCode := h'.opCode.trans h.opCode

theorem mono (hsub : ks ⊆ ls) (h : FieldStep ks d d') : FieldStep ls d d' where
  other j hj := h.other j fun hk => hj (hsub hk)
  stays := h.stays
  sysInfo := h.sysInfo.imp_right fun ⟨k, hk, hflag⟩ => ⟨k, hsub hk, hflag⟩
  sysFlash := h.sysFlash
  opCode := h.opCode

end FieldStep

section
variable {b : Board} (m : DeviceConfig b) (d : Device)

/-! ## Query -/

theorem queryNumber_fieldStep (k : Nat) (v : UInt32) : FieldStep [k] d (queryNumber k v d) := by
  unfold queryNumber
  split
  · exact .of_flag rfl rfl rfl
  · exact .refl _ _

theorem queryText_fieldStep (k : Nat) (s : List UInt8) : FieldStep [k] d (queryText k s d) := by
  unfold queryText
  split
  · exact .of_flag rfl rfl rfl
  · exact .refl _ _

theorem queryCubbyDisable_fieldStep : FieldStep [15] d (queryCubbyDisable m d) := by
  unfold queryCubbyDisable
  split
  · exact .refl _ _
  · split
    · exact queryText_fieldStep _ _ _
    · exact .refl _ _

/-! ## Set -/

theorem setBleEnable_fieldStep : FieldStep [2] d (setBleEnable m d) := by
  unfold setBleEnable
  split
  · exact .of_flag rfl rfl rfl
  split
  · exact .of_flag rfl rfl rfl
  · exact .refl _ _

theorem setWifiEnable_fieldStep (ret : Nat) : FieldStep [3] d (setWifiEnable m d ret).1 := by
  unfold setWifiEnable
  split
  · exact .of_flag rfl rfl rfl
  split
  · exact .of_flag rfl rfl rfl
  · exact .refl _ _

theorem setGsmActiveSubId_fieldStep : FieldStep [7] d (setGsmActiveSubId m d) := by
  unfold setGsmActiveSubId
  split
  · exact .of_flag rfl rfl rfl
  · exact .refl _ _

theorem setCubbyInterval_fieldStep : FieldStep [8] d (setCubbyInterval m d) := by
  unfold setCubbyInterval
  split
  · exact .of_flag rfl rfl rfl
  · exact .refl _ _

theorem setCubbyHeaderInterval_fieldStep : FieldStep [9] d (setCubbyHeaderInterval m d) := by
  unfold setCubbyHeaderInterval
  split
  · exact .of_flag rfl rfl rfl
  · exact .refl _ _

theorem setBleSpeakerBroadEnable_fieldStep :
    FieldStep [12] d (setBleSpeakerBroadEnable m d) := by
  unfold setBleSpeakerBroadEnable
  split
  · exact .of_flag rfl rfl rfl
  split
  · exact .of_flag rfl rfl rfl
  · exact .refl _ _

theorem setBleSpeakerVolume_fieldStep : FieldStep [10] d (setBleSpeakerVolume m d) := by
  unfold setBleSpeakerVolume
  split
  · dsimp only
    split <;> exact .of_flag rfl rfl rfl
  · exact .refl _ _

theorem setBleSpeakerName_fieldStep : FieldStep [14] d (setBleSpeakerName m d) := by
  unfold setBleSpeakerName
  split
  · exact .of_flag rfl rfl rfl
  · exact .refl _ _

theorem setBleSpeakerPairCode_fieldStep : FieldStep [11] d (setBleSpeakerPairCode m d) := by
  unfold setBleSpeakerPairCode
  split
  · dsimp only
    split <;> exact .of_flag rfl rfl rfl
  · exact .refl _ _

theorem setClientIdList_fieldStep {d' : Device} (h : setClientIdList m d = some d') :
    FieldStep [13] d d' := by
  unfold setClientIdList at h
  split at h
  · rw [Option.map_eq_some_iff] at h
    obtain ⟨ids, -, rfl⟩ := h
    exact .of_flag rfl rfl rfl
  · cases h
    exact .refl _ _

theorem setCubbyDisable_fieldStep : FieldStep [15] d (setCubbyDisable m d) := by
  unfold setCubbyDisable
  split
  · exact .of_flag rfl rfl rfl
  · exact .refl _ _

theorem setSsid_fieldStep (ret : Nat) : FieldStep [4] d (setSsid m d ret).1 := by
  unfold setSsid
  split
  · dsimp only
    split
    · exact .of_flag rfl rfl rfl
    split <;> exact .of_flag rfl rfl rfl
  · exact .refl _ _

theorem setPassword_fieldStep (ret : Nat) : FieldStep [5] d (setPassword m d ret).1 := by
  unfold setPassword
  split
  · dsimp only
    split
    · exact .of_flag rfl rfl rfl
    split
    · exact .of_flag rfl rfl rfl
    split
    · exact .of_flag rfl rfl rfl
    split <;> exact .of_flag rfl rfl rfl
  · exact .refl _ _

theorem setRemember_fieldStep : FieldStep [6] d (setRemember m d) := by
  unfold setRemember
  split
  · exact .of_flag rfl rfl rfl
  split
  · exact .of_flag rfl rfl rfl
  · exact .refl _ _

/-! ## Clear -/

theorem clearSsid_fieldStep (ret : Nat) : FieldStep [4] d (clearSsid m d ret).1 := by
  unfold clearSsid
  split
  · exact .of_flag rfl rfl rfl
  · exact .refl _ _

theorem clearPassword_fieldStep (ret : Nat) : FieldStep [5] d (clearPassword m d ret).1 := by
  unfold clearPassword
  split
  · exact .of_flag rfl rfl rfl
  · exact .refl _ _

theorem clearBleSpeakerPairCode_fieldStep : FieldStep [11] d (clearBleSpeakerPairCode m d) := by
  unfold clearBleSpeakerPairCode
  split
  · exact .of_flag rfl rfl rfl
  · exact .refl _ _

theorem clearClientIdList_fieldStep : FieldStep [13] d (clearClientIdList m d) := by
  unfold clearClientIdList
  split
  · exact .of_flag rfl rfl rfl
  · exact .refl _ _

theorem clearBleSpeakerName_fieldStep : FieldStep [14] d (clearBleSpeakerName m d) := by
  unfold clearBleSpeakerName
  split
  · exact .of_flag rfl rfl rfl
  · exact .refl _ _

theorem clearCubbyDisable_fieldStep : FieldStep [15] d (clearCubbyDisable m d) := by
  unfold clearCubbyDisable
  split
  · exact .refl _ _
  split
  · exact .of_flag rfl rfl rfl
  · exact .refl _ _

/-! ## Whole commands -/

theorem configQuery_fieldStep : FieldStep [2, 3, 4, 5, 6, 7, 8, 9, 10, 11, 12, 13, 14, 15]
    (d.setFlag 1 1) (configQuery m d) := by
  have h := (((((((((((((queryNumber_fieldStep (d.setFlag 1 1) 2 m.bleEnable).trans
    (queryNumber_fieldStep _ 3 m.wifiEnable)).trans
    (queryText_fieldStep _ 4 m.ssid.chars)).trans
    (queryText_fieldStep _ 5 m.password.chars)).trans
    (queryNumber_fieldStep _ 6 m.remember)).trans
    (queryNumber_fieldStep _ 7 m.gsmActiveSubId)).trans
    (queryNumber_fieldStep _ 8 m.cubbyInterval)).trans
    (queryNumber_fieldStep _ 9 m.cubbyHeaderInterval)).trans
    (queryNumber_fieldStep _ 10 m.bleSpeakerVolume)).trans
    (queryText_fieldStep _ 11 m.bleSpeakerPairCode.chars)).trans
    (queryNumber_fieldStep _ 12 m.bleSpeakerBroadEnable)).trans
    (queryText_fieldStep _ 13 m.clientIdList.chars)).trans
    (queryText_fieldStep _ 14 m.bleSpeakerName.chars)).trans
    (queryCubbyDisable_fieldStep m _)
  exact h

theorem configSetFirst_fieldStep : FieldStep [2, 3, 7, 8, 9, 12, 10, 14, 11] (d.setFlag 1 1)
    (configSetFirst m d).1 := by
  have h := ((((((((setBleEnable_fieldStep m (d.setFlag 1 1)).trans
    (setWifiEnable_fieldStep m _ 0)).trans
    (setGsmActiveSubId_fieldStep m _)).trans
    (setCubbyInterval_fieldStep m _)).trans
    (setCubbyHeaderInterval_fieldStep m _)).trans
    (setBleSpeakerBroadEnable_fieldStep m _)).trans
    (setBleSpeakerVolume_fieldStep m _)).trans
    (setBleSpeakerName_fieldStep m _)).trans
    (setBleSpeakerPairCode_fieldStep m _)
  exact h

theorem configSetRest_fieldStep (ret : Nat) :
    FieldStep [15, 4, 5, 6] d (configSetRest m d ret).1 := by
  have h := (((setCubbyDisable_fieldStep m d).trans
    (setSsid_fieldStep m _ ret)).trans
    (setPassword_fieldStep m _ (setSsid m (setCubbyDisable m d) ret).2)).trans
    (setRemember_fieldStep m _)
  exact h

end

end AppXd.Net4g
