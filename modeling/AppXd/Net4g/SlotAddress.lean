import AppXd.Net4g.Replay

/-!
# Addresses of slots and columns

The index of a slot is computed from two numbers of the message that nothing checks. The device has
four columns of six slots.
-/

namespace AppXd.Net4g

section
variable (b : Board) (d : Device)

/-- No send buffer, no lending flag or time has changed and nothing has left the module. -/
structure NoEffect (d d' : Device) : Prop where
  pbCmd : d'.pbCmdByteUartSendBuf = d.pbCmdByteUartSendBuf
  nfcpwd : d'.nfcpwdUartSendBuf = d.nfcpwdUartSendBuf
  checkTime : d'.globalInfo.lengCheckTime = d.globalInfo.lengCheckTime
  lending : d'.globalInfo.batLendingFlag = d.globalInfo.batLendingFlag
  log : d'.log = d.log

/-- A slot message uses indices of slots only, and has no effect when it addresses none. -/
structure SlotInRange (m : SlotCommand) : Prop where
  used : ∀ i ∈ (slotCommand b d m).slots, i < 24
  outside : 24 ≤ m.index → NoEffect d (slotCommand b d m).device

/-- A cubby message posts indices of columns only, and has no effect when it addresses none. -/
structure ColumnInRange (m : CubbyCommand) : Prop where
  used : ∀ i ∈ (cubbyCommand b d m).columns, i < 4
  outside : 4 ≤ m.column → NoEffect d (cubbyCommand b d m).device

/-- The cubby message is accepted and its command posts an event. -/
def PostsEvent (m : CubbyCommand) : Prop :=
  Accepts d m.header.opCode ∧ (b.slotCmd m.command = some .singleSlaveInfoCheckRsp ∨
    b.slotCmd m.command = some .allSlotInfoCheckRsp)

end

section
variable {b : Board} {d : Device}

/-- The addresses of the device's own slots have an index in range. -/
theorem SlotCommand.index_lt {m : SlotCommand} (ha : 1 ≤ m.addr ∧ m.addr ≤ 4)
    (hs : 1 ≤ m.slotId ∧ m.slotId ≤ 6) : m.index < 24 := by
  obtain ⟨ha1, ha4⟩ := ha
  obtain ⟨hs1, hs6⟩ := hs
  rw [UInt32.le_iff_toNat_le] at ha1 ha4 hs1 hs6
  have hcolumn : (m.addr - 1).toNat = m.addr.toNat - 1 := UInt32.toNat_sub_of_le _ _ ha1
  simp only [UInt32.reduceToNat] at ha1 ha4 hs1 hs6
  -- nothing overflows, so the index is the one of the natural numbers
  have hrow : ((m.addr - 1) * 6).toNat = (m.addr.toNat - 1) * 6 := by
    rw [UInt32.toNat_mul, hcolumn]
    exact Nat.mod_eq_of_lt (by simp only [UInt32.reduceToNat]; omega)
  have hsum : ((m.addr - 1) * 6 + m.slotId).toNat = (m.addr.toNat - 1) * 6 + m.slotId.toNat := by
    rw [UInt32.toNat_add, hrow]
    exact Nat.mod_eq_of_lt (by omega)
  have hle : 1 ≤ (m.addr - 1) * 6 + m.slotId := by
    rw [UInt32.le_iff_toNat_le, hsum]
    simp only [UInt32.reduceToNat]
    omega
  have hindex : m.index.toNat = (m.addr.toNat - 1) * 6 + m.slotId.toNat - 1 := by
    rw [← hsum]
    exact UInt32.toNat_sub_of_le _ _ hle
  rw [UInt32.lt_iff_toNat_lt, hindex]
  simp only [UInt32.reduceToNat]
  omega

theorem index_mem_slots (m : SlotCommand) : m.index ∈ (slotCommand b d m).slots := by
  unfold slotCommand
  simp only
  split <;> exact List.mem_cons_self

theorem toUInt8_of_lt {i : UInt32} (h : i < 24) : i.toUInt8.toUInt32 = i := by
  rw [UInt32.lt_iff_toNat_lt] at h
  rw [← UInt32.toNat_inj, UInt8.toNat_toUInt32, UInt32.toNat_toUInt8]
  simp only [UInt32.reduceToNat] at h
  omega

/-- The indices that a command uses are the slot's, or its low byte. -/
theorem slotCmdRun_used {i j : UInt32} {o : Option SlotCmd} (h : j ∈ (slotCmdRun b d i o).2) :
    j = i ∨ j = i.toUInt8.toUInt32 := by
  unfold slotCmdRun at h
  split at h <;>
    simp only [List.mem_cons, List.not_mem_nil, or_false, or_self] at h
  all_goals first | exact h.elim | exact .inl h | exact .inr h

theorem slots_lt {m : SlotCommand} (h : m.index < 24) :
    ∀ i ∈ (slotCommand b d m).slots, i < 24 := by
  intro i hi
  unfold slotCommand at hi
  simp only at hi
  split at hi
  · rw [List.mem_cons, List.mem_singleton, or_self] at hi
    exact hi ▸ h
  · simp only [List.mem_cons] at hi
    obtain rfl | rfl | rfl | rfl | hused := hi
    · exact h
    · exact h
    · exact h
    · exact h
    · obtain rfl | rfl := slotCmdRun_used hused
      · exact h
      · rwa [toUInt8_of_lt h]

theorem slotInRange_iff (m : SlotCommand) : SlotInRange b d m ↔ m.index < 24 := by
  refine ⟨fun h => h.used _ (index_mem_slots m), fun h => ⟨slots_lt h, fun hle => ?_⟩⟩
  exact absurd h (UInt32.not_lt.2 hle)

theorem noEffect_of_not_posts {m : CubbyCommand} (h : ¬ PostsEvent b d m) :
    (cubbyCommand b d m).columns = [] ∧ NoEffect d (cubbyCommand b d m).device := by
  unfold cubbyCommand
  by_cases ha : Accepts d m.header.opCode
  · simp only [acceptOpCode_of_accepts ha]
    split
    · rename_i hcmd
      exact absurd ⟨ha, .inl hcmd⟩ h
    · rename_i hcmd
      exact absurd ⟨ha, .inr hcmd⟩ h
    · refine ⟨rfl, ⟨rfl, rfl, ?_, ?_, rfl⟩⟩
      all_goals
        simp only [Device.rspRet, DeviceGlobalInfo.setTraceId]
        split <;> rfl
  · simp only [acceptOpCode_of_not_accepts ha]
    exact ⟨rfl, rfl, rfl, rfl, rfl, rfl⟩

theorem posts_log {m : CubbyCommand} (h : PostsEvent b d m) :
    ∃ e, (cubbyCommand b d m).device.log = d.log ++ [e] := by
  obtain ⟨ha, hcmd⟩ := h
  unfold cubbyCommand
  simp only [acceptOpCode_of_accepts ha]
  obtain hcmd | hcmd := hcmd <;> rw [hcmd] <;> exact ⟨_, rfl⟩

theorem columns_eq {m : CubbyCommand} {i : UInt32} (h : i ∈ (cubbyCommand b d m).columns) :
    i = m.column := by
  unfold cubbyCommand at h
  split at h
  · cases h
  · simp only at h
    split at h
    · exact List.mem_singleton.1 h
    · cases h
    · cases h

theorem columnInRange_iff (m : CubbyCommand) :
    ColumnInRange b d m ↔ (PostsEvent b d m → m.column < 4) := by
  constructor
  · intro h hposts
    by_contra hout
    obtain ⟨e, he⟩ := posts_log hposts
    rw [(h.outside (UInt32.not_lt.1 hout)).log, List.self_eq_append_right] at he
    cases he
  · intro h
    by_cases hposts : PostsEvent b d m
    · refine ⟨fun i hi => ?_, fun hle => absurd (h hposts) (UInt32.not_lt.2 hle)⟩
      rw [columns_eq hi]
      exact h hposts
    · obtain ⟨hnil, hno⟩ := noEffect_of_not_posts hposts
      refine ⟨fun i hi => ?_, fun _ => hno⟩
      rw [hnil] at hi
      cases hi

end

/-- A slot message stays in range exactly when its index does, whatever its command and code, and a
cubby message exactly when it addresses a column or posts nothing. -/
theorem addresses_iff (b : Board) (d : Device) :
    (∀ m : SlotCommand, SlotInRange b d m ↔ m.index < 24) ∧
      ∀ m : CubbyCommand, ColumnInRange b d m ↔ (PostsEvent b d m → m.column < 4) :=
  ⟨slotInRange_iff, columnInRange_iff⟩

/-- Slot 0 of column 0 has the index of no slot. -/
theorem not_slotInRange : ¬ ∀ (b : Board) (d : Device) (m : SlotCommand), SlotInRange b d m := by
  intro h
  have hused := (h .small (.reset 3) { slotMsg with addr := 0, slotId := 0 }).used 0xFFFFFFF9
  revert hused
  decide

end AppXd.Net4g
