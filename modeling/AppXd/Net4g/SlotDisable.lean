import AppXd.Lib.LastWrite
import AppXd.Net4g.ConfigSet

/-!
# Disabled slots

A set command brings up to four entries, each with the address of a column and a text for its six
slots. The bit of a slot is found by a shift, and the address that the shift is computed from is not
checked: an entry for no column may reach bits too.
-/

namespace AppXd.Net4g

section
variable {b : Board}

/-- What a character asks for: `1` disables the slot, `2` enables it. -/
def CubbyDisable.setting (e : CubbyDisable b) (k : Nat) : Option Bool :=
  if e.slotDisable.chars.getD k 0 = 49 then some true
  else if e.slotDisable.chars.getD k 0 = 50 then some false
  else none

/-- The address is the one of a column. -/
def CubbyDisable.Addressed (e : CubbyDisable b) : Prop := 1 ≤ e.addr ∧ e.addr ≤ 4

instance (e : CubbyDisable b) : Decidable e.Addressed := inferInstanceAs (Decidable (_ ∧ _))

/-- The bit of each slot is what the last entry for its column that sets it asks for, and no other
bit has changed. -/
structure SlotsUpdated (entries : List (CubbyDisable b)) (flag flag' : UInt32) : Prop where
  slots : ∀ a k : Nat, 1 ≤ a → a ≤ 4 → k < 6 →
    flag'.toBitVec.getLsbD (k + 6 * (a - 1)) =
      (entries.reverse.findSome? fun e => if e.addr.toNat = a then e.setting k else none).getD
        (flag.toBitVec.getLsbD (k + 6 * (a - 1)))
  others : ∀ q, 24 ≤ q → flag'.toBitVec.getLsbD q = flag.toBitVec.getLsbD q

/-! ## Writes to the flag -/

/-- A write: whether its entry is for a column, the bits, and what they become. -/
structure SlotWrite where
  addressed : Bool
  mask : UInt32
  disable : Bool

/-- What the write makes of a bit. -/
def SlotWrite.onBit (q : Nat) (w : SlotWrite) : Option Bool :=
  if w.mask.toBitVec.getLsbD q then some w.disable else none

/-- The same for the entries of columns alone. -/
def SlotWrite.onSlot (q : Nat) (w : SlotWrite) : Option Bool :=
  if w.addressed then w.onBit q else none

/-- The writes of an entry. -/
def CubbyDisable.writes (e : CubbyDisable b) : List SlotWrite :=
  (List.range 6).filterMap fun k => (e.setting k).map fun disable =>
    ⟨e.Addressed, b.shl (k.toUInt32 + (e.addr - 1) * 6), disable⟩

/-- Where the last write to a bit is one of an entry for no column, it makes of the bit what the
entries for columns make of it. -/
def StraysHarmless (entries : List (CubbyDisable b)) (flag : UInt32) : Prop :=
  ∀ q < 32, ∀ w ∈ (entries.flatMap CubbyDisable.writes).reverse.find? fun w => (w.onBit q).isSome,
    w.addressed = false → w.disable = Seq.lastWrite (SlotWrite.onSlot q) (flag.toBitVec.getLsbD q)
      (entries.flatMap CubbyDisable.writes)

instance (entries : List (CubbyDisable b)) (flag : UInt32) :
    Decidable (StraysHarmless entries flag) := by
  unfold StraysHarmless
  infer_instance

section
variable {w : SlotWrite} {q : Nat}

theorem onSlot_eq (w : SlotWrite) : w.onSlot q = none ∨ w.onSlot q = w.onBit q := by
  unfold SlotWrite.onSlot
  split
  · exact .inr rfl
  · exact .inl rfl

theorem onBit_of_sets (h : (w.onBit q).isSome) : w.onBit q = some w.disable := by
  unfold SlotWrite.onBit at h ⊢
  split at h
  · rw [if_pos ‹_›]
  · cases h

theorem onSlot_eq_none_of_sets (h : (w.onBit q).isSome) :
    w.onSlot q = none ↔ w.addressed = false := by
  unfold SlotWrite.onSlot
  rw [onBit_of_sets h]
  cases w.addressed <;> simp

end

section
variable {e : CubbyDisable b} {entries : List (CubbyDisable b)} {flag : UInt32} {q k : Nat}

theorem or_bit (mask flag : UInt32) (q : Nat) : (mask ||| flag).toBitVec.getLsbD q =
    (if mask.toBitVec.getLsbD q then some true else none).getD (flag.toBitVec.getLsbD q) := by
  rw [UInt32.toBitVec_or, BitVec.getLsbD_or]
  cases mask.toBitVec.getLsbD q <;> rfl

theorem andNot_bit (mask flag : UInt32) (q : Nat) : (~~~mask &&& flag).toBitVec.getLsbD q =
    (if mask.toBitVec.getLsbD q then some false else none).getD (flag.toBitVec.getLsbD q) := by
  rw [UInt32.toBitVec_and, UInt32.toBitVec_not, BitVec.getLsbD_and, BitVec.getLsbD_not]
  rcases Nat.lt_or_ge q 32 with hlt | hge
  · rw [decide_eq_true hlt]
    cases mask.toBitVec.getLsbD q <;> rfl
  · rw [BitVec.getLsbD_of_ge flag.toBitVec q hge, BitVec.getLsbD_of_ge mask.toBitVec q hge,
      Bool.and_false]
    rfl

/-- The loop over the characters makes the writes one after the other. -/
theorem slotLoop_bit (ks : List Nat) (flag : UInt32) :
    (ks.foldl (fun flag k =>
      let bit := b.shl (k.toUInt32 + (e.addr - 1) * 6)
      if e.slotDisable.chars.getD k 0 = 49 then bit ||| flag
      else if e.slotDisable.chars.getD k 0 = 50 then ~~~bit &&& flag
      else flag) flag).toBitVec.getLsbD q =
      Seq.lastWrite (fun k => ((e.setting k).map fun disable =>
        SlotWrite.mk e.Addressed (b.shl (k.toUInt32 + (e.addr - 1) * 6)) disable).bind
          (SlotWrite.onBit q)) (flag.toBitVec.getLsbD q) ks := by
  induction ks using List.reverseRecOn with
  | nil => rfl
  | append_singleton ks k ih =>
    rw [List.foldl_append, Seq.lastWrite_concat, ← ih, List.foldl_cons, List.foldl_nil]
    generalize ks.foldl _ flag = flag'
    unfold CubbyDisable.setting
    simp only
    split
    · exact or_bit ..
    split
    · exact andNot_bit ..
    · rfl

/-- What an entry whose text is given makes of a bit. -/
theorem setSlotDisable_bit (h : given e.slotDisable.chars = true) :
    (setSlotDisable e flag).toBitVec.getLsbD q =
      Seq.lastWrite (SlotWrite.onBit q) (flag.toBitVec.getLsbD q) e.writes := by
  unfold setSlotDisable CubbyDisable.writes
  rw [if_pos h, slotLoop_bit, Seq.lastWrite_filterMap]

theorem setSlotDisable_foldl_bit (h : ∀ e ∈ entries, given e.slotDisable.chars = true) :
    (entries.foldl (fun flag e => setSlotDisable e flag) flag).toBitVec.getLsbD q =
      Seq.lastWrite (SlotWrite.onBit q) (flag.toBitVec.getLsbD q)
        (entries.flatMap CubbyDisable.writes) := by
  induction entries using List.reverseRecOn with
  | nil => rfl
  | append_singleton entries e ih =>
    rw [List.forall_mem_append] at h
    rw [List.foldl_append, List.foldl_cons, List.foldl_nil,
      setSlotDisable_bit (h.2 e (List.mem_singleton_self e)), ih h.1, List.flatMap_append,
      Seq.lastWrite_append, List.flatMap_singleton]

/-! ## The bits of the columns -/

theorem one_shl_bit {n : UInt32} (hn : n < 32) (hq : q < 32) :
    (1 <<< n).toBitVec.getLsbD q = decide (q = n.toNat) := by
  rw [UInt32.lt_iff_toNat_lt] at hn
  have hmod : (n.toBitVec % 32).toNat = n.toNat := by
    rw [BitVec.toNat_umod]
    exact Nat.mod_eq_of_lt hn
  have hone : UInt32.toBitVec 1 = 1#32 := rfl
  rw [UInt32.toBitVec_shiftLeft, BitVec.shiftLeft_eq', hmod, BitVec.getLsbD_shiftLeft, hone,
    BitVec.getLsbD_one, decide_eq_true hq]
  rcases Nat.lt_or_ge q n.toNat with hlt | hge
  · rw [decide_eq_true hlt, decide_eq_false (Nat.ne_of_lt hlt)]
    rfl
  · have hzero : q - n.toNat = 0 ↔ q = n.toNat := by omega
    simp [Nat.not_lt.2 hge, hzero]

/-- The bit of a slot of a column. -/
theorem mask_bit (ha : e.Addressed) (hk : k < 6) (hq : q < 32) :
    (b.shl (k.toUInt32 + (e.addr - 1) * 6)).toBitVec.getLsbD q =
      decide (q = k + 6 * (e.addr.toNat - 1)) := by
  obtain ⟨ha1, ha4⟩ := ha
  have haddr := UInt32.le_iff_toNat_le.1 ha1
  have haddr4 := UInt32.le_iff_toNat_le.1 ha4
  simp only [UInt32.reduceToNat] at haddr haddr4
  have hcolumn : (e.addr - 1).toNat = e.addr.toNat - 1 := UInt32.toNat_sub_of_le _ _ ha1
  -- nothing overflows, so the shift is the one of the natural numbers
  have hnat : (k.toUInt32 + (e.addr - 1) * 6).toNat = k + 6 * (e.addr.toNat - 1) := by
    rw [UInt32.toNat_add, UInt32.toNat_mul, hcolumn]
    simp only [UInt32.reduceToNat, Nat.toUInt32_eq, UInt32.toNat_ofNat']
    omega
  have hlt : k.toUInt32 + (e.addr - 1) * 6 < 32 := by
    rw [UInt32.lt_iff_toNat_lt, hnat]
    simp only [UInt32.reduceToNat]
    omega
  rw [b.shl_lt _ hlt, one_shl_bit hlt hq, hnat]

theorem write_onSlot (hk : k < 6) (hq : q < 32) :
    ((e.setting k).map fun disable => SlotWrite.mk e.Addressed
      (b.shl (k.toUInt32 + (e.addr - 1) * 6)) disable).bind (SlotWrite.onSlot q) =
      if e.Addressed ∧ q = k + 6 * (e.addr.toNat - 1) then e.setting k else none := by
  cases hset : e.setting k with
  | none => simp
  | some disable =>
    rw [Option.map_some, Option.bind_some]
    unfold SlotWrite.onSlot SlotWrite.onBit
    by_cases ha : e.Addressed
    · simp [ha, mask_bit ha hk hq]
    · simp [ha]

/-- An entry for a column makes of a slot of its column what it asks for, and leaves every other
bit. -/
theorem writes_onSlot (hq : q < 32) (v : Bool) :
    Seq.lastWrite (SlotWrite.onSlot q) v e.writes =
      (if e.Addressed ∧ q / 6 = e.addr.toNat - 1 then e.setting (q % 6) else none).getD v := by
  unfold CubbyDisable.writes
  have hwrite : ∀ k ∈ List.range 6, ((e.setting k).map fun disable => SlotWrite.mk e.Addressed
      (b.shl (k.toUInt32 + (e.addr - 1) * 6)) disable).bind (SlotWrite.onSlot q) =
        if e.Addressed ∧ q = k + 6 * (e.addr.toNat - 1) then e.setting k else none :=
    fun k hk => write_onSlot (List.mem_range.1 hk) hq
  rw [Seq.lastWrite_filterMap, Seq.lastWrite_congr hwrite,
    Seq.lastWrite_range (Nat.mod_lt q (by decide : 0 < 6))]
  · have hslot : q = q % 6 + 6 * (e.addr.toNat - 1) ↔ q / 6 = e.addr.toNat - 1 := by omega
    simp only [hslot]
  · intro k hk hne
    rw [if_neg]
    rintro ⟨-, hq'⟩
    omega

/-- The entries for columns make of a slot what the last one for its column that sets it asks
for. -/
theorem lastWrite_onSlot {a : Nat} (ha : 1 ≤ a) (ha4 : a ≤ 4) (hk : k < 6) (v : Bool) :
    Seq.lastWrite (SlotWrite.onSlot (k + 6 * (a - 1))) v (entries.flatMap CubbyDisable.writes) =
      (entries.reverse.findSome? fun e => if e.addr.toNat = a then e.setting k else none).getD
        v := by
  rw [Seq.lastWrite_flatMap fun e v => writes_onSlot (by omega) v, Seq.lastWrite_eq_findSome?]
  congr 2
  funext e
  have hcolumn : (e.Addressed ∧ (k + 6 * (a - 1)) / 6 = e.addr.toNat - 1) ↔ e.addr.toNat = a := by
    unfold CubbyDisable.Addressed
    rw [UInt32.le_iff_toNat_le, UInt32.le_iff_toNat_le]
    simp only [UInt32.reduceToNat]
    omega
  rw [if_congr hcolumn rfl rfl]
  have hindex : (k + 6 * (a - 1)) % 6 = k := by omega
  rw [hindex]

/-- They leave the bits behind the slots. -/
theorem lastWrite_onSlot_of_ge (hq : 24 ≤ q) (hlt : q < 32) (v : Bool) :
    Seq.lastWrite (SlotWrite.onSlot q) v (entries.flatMap CubbyDisable.writes) = v := by
  rw [Seq.lastWrite_flatMap fun e v => writes_onSlot hlt v, Seq.lastWrite_eq_findSome?,
    List.findSome?_eq_none_iff.2]
  · rfl
  · intro e _
    rw [if_neg]
    rintro ⟨⟨-, ha4⟩, hq'⟩
    have haddr4 := UInt32.le_iff_toNat_le.1 ha4
    simp only [UInt32.reduceToNat] at haddr4
    omega

/-- The flag is the updated one exactly when each of its bits is the one that the entries for
columns make of it. -/
theorem slotsUpdated_iff_lastWrite {flag' : UInt32} : SlotsUpdated entries flag flag' ↔
    ∀ q < 32, flag'.toBitVec.getLsbD q = Seq.lastWrite (SlotWrite.onSlot q)
      (flag.toBitVec.getLsbD q) (entries.flatMap CubbyDisable.writes) := by
  constructor
  · intro h q hq
    rcases Nat.lt_or_ge q 24 with hlt | hge
    · have hslot := h.slots (q / 6 + 1) (q % 6) (by omega) (by omega) (Nat.mod_lt q (by decide))
      rw [← lastWrite_onSlot (by omega) (by omega) (Nat.mod_lt q (by decide))] at hslot
      have hq' : q % 6 + 6 * (q / 6 + 1 - 1) = q := by omega
      rwa [hq'] at hslot
    · rw [h.others q hge, lastWrite_onSlot_of_ge hge hq]
  · intro h
    refine ⟨fun a k ha ha4 hk => ?_, fun q hq => ?_⟩
    · rw [h _ (by omega), lastWrite_onSlot ha ha4 hk]
    · rcases Nat.lt_or_ge q 32 with hlt | hge
      · rw [h q hlt, lastWrite_onSlot_of_ge hq hlt]
      · rw [BitVec.getLsbD_of_ge flag'.toBitVec q hge, BitVec.getLsbD_of_ge flag.toBitVec q hge]

end

/-- A text of two characters or more that does not start with 14 passes the test. -/
theorem given_of_length {n : Nat} {s : CStr.Str n} (hlen : 2 ≤ s.chars.length)
    (hfirst : s.chars.getD 0 0 ≠ 14) : given s.chars = true := by
  have hsecond : s.chars.getD 1 0 ≠ 0 := by
    rw [List.getD_eq_getElem _ _ hlen]
    intro h
    exact s.noNul (h ▸ List.getElem_mem hlen)
  exact decide_eq_true ⟨Nat.ne_of_gt (Nat.lt_of_lt_of_le Nat.zero_lt_two hlen), hfirst, hsecond⟩

/-- The loop over the entries updates the slots exactly when the entries for no column do no
harm. -/
theorem slotsUpdated_foldl_iff {entries : List (CubbyDisable b)} {flag : UInt32}
    (h : ∀ e ∈ entries, given e.slotDisable.chars = true) :
    SlotsUpdated entries flag (entries.foldl (fun flag e => setSlotDisable e flag) flag) ↔
      StraysHarmless entries flag := by
  rw [slotsUpdated_iff_lastWrite]
  refine forall₂_congr fun q _ => ?_
  rw [setSlotDisable_foldl_bit h, Seq.lastWrite_eq_iff onSlot_eq]
  refine forall₂_congr fun w hw => ?_
  -- the write that is found sets the bit
  have hsets := List.find?_some hw
  rw [onSlot_eq_none_of_sets hsets, onBit_of_sets hsets, Option.some.injEq]

/-! ## The set command -/

section
variable (m : DeviceConfig b) (d : Device)

theorem setBleEnable_slot : (setBleEnable m d).sysInfo.slot = d.sysInfo.slot := by
  unfold setBleEnable
  split
  · rfl
  split <;> rfl

theorem setWifiEnable_slot (ret : Nat) :
    (setWifiEnable m d ret).1.sysInfo.slot = d.sysInfo.slot := by
  unfold setWifiEnable
  split
  · rfl
  split <;> rfl

theorem setGsmActiveSubId_slot : (setGsmActiveSubId m d).sysInfo.slot = d.sysInfo.slot := by
  unfold setGsmActiveSubId
  split <;> rfl

theorem setCubbyInterval_slot : (setCubbyInterval m d).sysInfo.slot = d.sysInfo.slot := by
  unfold setCubbyInterval
  split <;> rfl

theorem setCubbyHeaderInterval_slot :
    (setCubbyHeaderInterval m d).sysInfo.slot = d.sysInfo.slot := by
  unfold setCubbyHeaderInterval
  split <;> rfl

theorem setBleSpeakerBroadEnable_slot :
    (setBleSpeakerBroadEnable m d).sysInfo.slot = d.sysInfo.slot := by
  unfold setBleSpeakerBroadEnable
  split
  · rfl
  split <;> rfl

theorem setBleSpeakerVolume_slot : (setBleSpeakerVolume m d).sysInfo.slot = d.sysInfo.slot := by
  unfold setBleSpeakerVolume
  split
  · dsimp only
    split <;> rfl
  · rfl

theorem setBleSpeakerName_slot : (setBleSpeakerName m d).sysInfo.slot = d.sysInfo.slot := by
  unfold setBleSpeakerName
  split <;> rfl

theorem setBleSpeakerPairCode_slot :
    (setBleSpeakerPairCode m d).sysInfo.slot = d.sysInfo.slot := by
  unfold setBleSpeakerPairCode
  split
  · dsimp only
    split <;> rfl
  · rfl

theorem setClientIdList_slot {m : DeviceConfig b} {d d' : Device}
    (h : setClientIdList m d = some d') : d'.sysInfo.slot = d.sysInfo.slot := by
  unfold setClientIdList at h
  split at h
  · obtain ⟨ids, -, rfl⟩ := Option.map_eq_some_iff.1 h
    rfl
  · cases h
    rfl

theorem setSsid_slot (ret : Nat) : (setSsid m d ret).1.sysInfo.slot = d.sysInfo.slot := by
  unfold setSsid
  split
  · dsimp only
    split
    · rfl
    split <;> rfl
  · rfl

theorem setPassword_slot (ret : Nat) : (setPassword m d ret).1.sysInfo.slot = d.sysInfo.slot := by
  unfold setPassword
  split
  · dsimp only
    split
    · rfl
    split
    · rfl
    split
    · rfl
    split <;> rfl
  · rfl

theorem setRemember_slot : (setRemember m d).sysInfo.slot = d.sysInfo.slot := by
  unfold setRemember
  split
  · rfl
  split <;> rfl

theorem writeIfFlagged_slot (ks : List Nat) :
    (d.writeIfFlagged ks).sysInfo.slot = d.sysInfo.slot := by
  unfold Device.writeIfFlagged
  split <;> rfl

theorem configSetFirst_slot : (configSetFirst m d).1.sysInfo.slot = d.sysInfo.slot := by
  unfold configSetFirst
  simp only [setBleSpeakerPairCode_slot, setBleSpeakerName_slot, setBleSpeakerVolume_slot,
    setBleSpeakerBroadEnable_slot, setCubbyHeaderInterval_slot, setCubbyInterval_slot,
    setGsmActiveSubId_slot, setWifiEnable_slot, setBleEnable_slot]
  rfl

end

/-- A set command with one to four entries goes through them. -/
theorem configSet_slot {m : DeviceConfig b} {d : Device} {x : Device × Nat}
    (hpos : 0 < m.cubbyDisable.length) (hle : m.cubbyDisable.length ≤ 4)
    (h : configSet m d = some x) : x.1.sysInfo.slot.slotForbiddenFlag =
      m.cubbyDisable.foldl (fun flag e => setSlotDisable e flag)
        d.sysInfo.slot.slotForbiddenFlag := by
  unfold configSet at h
  obtain ⟨d₁, hd₁, rfl⟩ := Option.map_eq_some_iff.1 h
  unfold configSetRest
  simp only [writeIfFlagged_slot, setRemember_slot, setPassword_slot, setSsid_slot]
  unfold setCubbyDisable
  rw [if_pos ⟨hpos, hle⟩]
  have hslot := (setClientIdList_slot hd₁).trans (configSetFirst_slot m d)
  simp only [Device.wtNodeEvent, Device.emit, Device.mapSysInfo, Device.setFlag, hslot]

/-- An accepted set command with one to four entries updates the slots exactly when a list of client
ids has ten numbers and the entries for no column do no harm. -/
theorem slotsUpdated_iff {d : Device} {m : ConfigCommand b} (ha : Accepts d m.header.opCode)
    (hhas : m.hasDeviceConfig = true) (hc : m.command = 26)
    (hpos : 0 < m.deviceConfig.cubbyDisable.length) (hle : m.deviceConfig.cubbyDisable.length ≤ 4)
    (htext : ∀ e ∈ m.deviceConfig.cubbyDisable,
      2 ≤ e.slotDisable.chars.length ∧ e.slotDisable.chars.getD 0 0 ≠ 14) :
    (∃ r, configCommand d m = some r ∧
      SlotsUpdated m.deviceConfig.cubbyDisable d.sysInfo.slot.slotForbiddenFlag
        r.device.sysInfo.slot.slotForbiddenFlag) ↔
      m.deviceConfig.TenIds ∧
        StraysHarmless m.deviceConfig.cubbyDisable d.sysInfo.slot.slotForbiddenFlag := by
  have hgiven : ∀ e ∈ m.deviceConfig.cubbyDisable, given e.slotDisable.chars = true :=
    fun e he => given_of_length (htext e he).1 (htext e he).2
  rw [configCommand_set ha hc hhas, ← slotsUpdated_foldl_iff hgiven]
  constructor
  · rintro ⟨r, hr, hupdated⟩
    obtain ⟨x, hx, rfl⟩ := Option.map_eq_some_iff.1 hr
    refine ⟨?_, configSet_slot hpos hle hx ▸ hupdated⟩
    by_contra hids
    simp only [configSet, setClientIdList_eq_none hids] at hx
    cases hx
  · rintro ⟨hids, hupdated⟩
    obtain ⟨x, hx, -⟩ := configSet_persisted (d := d.configBegin m) hids
    exact ⟨_, congrArg (Option.map _) hx, (configSet_slot hpos hle hx).symm ▸ hupdated⟩

/-- A set command whose only field is the list of disabled slots, with one entry. -/
def disableMsg (addr : UInt32) (slots : CStr.Str 8) : ConfigCommand .small :=
  ⟨⟨4, 0⟩, 26, true,
    { (ssidMsg 26 emptySsid).deviceConfig with cubbyDisable := [⟨addr, slots⟩] }⟩

theorem length_firstSlot : (CStr.ascii "12").length < 8 := by decide

/-- The first slot of the first column is disabled, the second enabled. -/
def firstSlot : CStr.Str 8 := ⟨CStr.ascii "12", Board.small.hardVer_noNul, length_firstSlot⟩

theorem slotsUpdated_disableMsg : ∃ r, configCommand (.reset 3) (disableMsg 1 firstSlot) = some r ∧
    SlotsUpdated (disableMsg 1 firstSlot).deviceConfig.cubbyDisable
      (Device.reset 3).sysInfo.slot.slotForbiddenFlag r.device.sysInfo.slot.slotForbiddenFlag :=
  (slotsUpdated_iff (by decide) rfl rfl (by decide) (by decide) (by decide)).2
    ⟨fun h => absurd h (by decide), by decide⟩

/-- An entry for a fifth column disables a slot of no column. -/
theorem not_slotsUpdated : ¬ ∀ (b : Board) (d : Device) (m : ConfigCommand b),
    Accepts d m.header.opCode → m.hasDeviceConfig = true → m.command = 26 →
    0 < m.deviceConfig.cubbyDisable.length → m.deviceConfig.cubbyDisable.length ≤ 4 →
    (∀ e ∈ m.deviceConfig.cubbyDisable,
      2 ≤ e.slotDisable.chars.length ∧ e.slotDisable.chars.getD 0 0 ≠ 14) →
      ∃ r, configCommand d m = some r ∧
        SlotsUpdated m.deviceConfig.cubbyDisable d.sysInfo.slot.slotForbiddenFlag
          r.device.sysInfo.slot.slotForbiddenFlag := by
  intro h
  obtain ⟨r, hr, hupdated⟩ := h .small (.reset 3) (disableMsg 5 firstSlot) (by decide) rfl rfl
    (by decide) (by decide) (by decide)
  obtain rfl := Option.some.inj hr
  have hbit := hupdated.others 24 (Nat.le_refl 24)
  revert hbit
  decide

end

end AppXd.Net4g
