import AppXd.Lib.Trace
import AppXd.Net4g.ConfigSteps
import AppXd.Net4g.RspAnalyze

/-!
# Operation codes

Every message carries an operation code. All six branches move the stored code in the same way;
slot, cubby and config messages stop there when theirs is not accepted.
-/

namespace AppXd.Net4g

open Trace (Run)

section
variable {b : Board}

def RspMsg.opCode : RspMsg b → UInt32
  | .slot m => m.header.opCode
  | .cubby m => m.header.opCode
  | .config m => m.header.opCode
  | .device m => m.header.opCode
  | .ota m => m.header.opCode
  | .lowpower m => m.header.opCode

/-- The kinds of messages that are dropped when their code is not accepted. -/
def RspMsg.Checked : RspMsg b → Prop
  | .slot _ | .cubby _ | .config _ => True
  | .device _ | .ota _ | .lowpower _ => False

/-- The code is greater than the stored one, or it begins again behind the last one. -/
def Accepts (d : Device) (opCode : UInt32) : Prop :=
  d.globalInfo.cloudOpCode < opCode ∨
    d.globalInfo.cloudOpCode = 0xFFFFFFFF ∧ opCode < d.globalInfo.cloudOpCode

instance (d : Device) (opCode : UInt32) : Decidable (Accepts d opCode) :=
  inferInstanceAs (Decidable (_ ∨ _))

/-- Something has left the module, or the settings or the flash have changed. -/
def TakesEffect (d d' : Device) : Prop :=
  d'.log ≠ d.log ∨ d'.sysInfo ≠ d.sysInfo ∨ d'.sysFlash ≠ d.sysFlash ∨
    d'.loginFlash ≠ d.loginFlash ∨ d'.loginBackFlash ≠ d.loginBackFlash

/-- What a message does to the stored code, and when it can take effect. -/
structure OpCodeLaw (d : Device) (msg : RspMsg b) (d' : Device) : Prop where
  stored : d'.globalInfo.cloudOpCode = max d.globalInfo.cloudOpCode msg.opCode ∨
    d.globalInfo.cloudOpCode = 0xFFFFFFFF ∧ d'.globalInfo.cloudOpCode = msg.opCode
  effect : msg.Checked → TakesEffect d d' → Accepts d msg.opCode

end

/-! ## The check -/

section
variable {d : Device} {opCode : UInt32}

theorem acceptOpCode_of_accepts (h : Accepts d opCode) : d.acceptOpCode opCode =
    some { d with globalInfo := { d.globalInfo with cloudOpCode := opCode } } := by
  have hcheck : checkOpCode d.globalInfo.cloudOpCode opCode = some opCode := by
    unfold checkOpCode
    by_cases hlt : d.globalInfo.cloudOpCode < opCode
    · rw [if_pos hlt]
    · obtain h | ⟨heq, h⟩ := h
      · exact absurd h hlt
      · rw [if_neg hlt, if_pos ⟨h, heq⟩]
  unfold Device.acceptOpCode
  rw [hcheck, Option.map_some]

theorem acceptOpCode_of_not_accepts (h : ¬ Accepts d opCode) : d.acceptOpCode opCode = none := by
  have hlt : ¬ d.globalInfo.cloudOpCode < opCode := fun h' => h (.inl h')
  unfold Device.acceptOpCode checkOpCode
  rw [if_neg hlt, if_neg (fun h' => h (.inr h'.symm)), Option.map_none]

/-- The stored code after the check. -/
def nextOpCode (d : Device) (opCode : UInt32) : UInt32 :=
  if Accepts d opCode then opCode else d.globalInfo.cloudOpCode

theorem noteOpCode_cloudOpCode (d : Device) (opCode : UInt32) :
    (d.noteOpCode opCode).globalInfo.cloudOpCode = nextOpCode d opCode := by
  unfold Device.noteOpCode nextOpCode
  split
  · rename_i h
    rw [acceptOpCode_of_accepts h, Option.getD_some]
  · rename_i h
    rw [acceptOpCode_of_not_accepts h, Option.getD_none]

/-- The next code is the greater one, unless the codes begin again. -/
theorem nextOpCode_eq (d : Device) (opCode : UInt32) :
    nextOpCode d opCode = max d.globalInfo.cloudOpCode opCode ∨
      d.globalInfo.cloudOpCode = 0xFFFFFFFF ∧ nextOpCode d opCode = opCode := by
  have hmax : max d.globalInfo.cloudOpCode opCode =
      if d.globalInfo.cloudOpCode ≤ opCode then opCode else d.globalInfo.cloudOpCode := rfl
  unfold nextOpCode
  by_cases h : Accepts d opCode
  · rw [if_pos h]
    obtain hlt | ⟨heq, -⟩ := h
    · left
      rw [hmax, if_pos (UInt32.le_of_lt hlt)]
    · exact .inr ⟨heq, rfl⟩
  · left
    rw [if_neg h, hmax]
    split
    · rename_i hle
      have hge : opCode ≤ d.globalInfo.cloudOpCode := UInt32.not_lt.1 fun hlt => h (.inl hlt)
      exact UInt32.le_antisymm hle hge
    · rfl

end

/-! ## The branches -/

section
variable {b : Board} {d : Device}

@[simp] theorem setTraceId_cloudOpCode (g : DeviceGlobalInfo) (traceId : UInt32) :
    (g.setTraceId traceId).cloudOpCode = g.cloudOpCode := by
  unfold DeviceGlobalInfo.setTraceId
  split <;> rfl

theorem slotCmdRun_globalInfo_cloudOpCode (i : UInt32) (o : Option SlotCmd) :
    (slotCmdRun b d i o).1.globalInfo.cloudOpCode = d.globalInfo.cloudOpCode := by
  unfold slotCmdRun
  split <;> rfl

theorem slotCommand_cloudOpCode (m : SlotCommand) :
    (slotCommand b d m).device.globalInfo.cloudOpCode = nextOpCode d m.header.opCode := by
  have haccept : Accepts (m.clearRows d) m.header.opCode ↔ Accepts d m.header.opCode := Iff.rfl
  unfold slotCommand nextOpCode
  split
  · rename_i h
    have h' := haccept.2 h
    simp only [acceptOpCode_of_accepts h']
    rw [slotCmdRun_globalInfo_cloudOpCode]
    exact setTraceId_cloudOpCode _ _
  · rename_i h
    simp only [acceptOpCode_of_not_accepts (mt haccept.1 h)]
    rfl

theorem cubbyCommand_cloudOpCode (m : CubbyCommand) :
    (cubbyCommand b d m).device.globalInfo.cloudOpCode = nextOpCode d m.header.opCode := by
  unfold cubbyCommand nextOpCode
  by_cases h : Accepts d m.header.opCode
  · rw [if_pos h]
    simp only [acceptOpCode_of_accepts h]
    split <;> exact setTraceId_cloudOpCode _ _
  · rw [if_neg h]
    simp only [acceptOpCode_of_not_accepts h]
    rfl

theorem writeIfFlagged_globalInfo (ks : List Nat) :
    (d.writeIfFlagged ks).globalInfo = d.globalInfo := by
  unfold Device.writeIfFlagged
  split <;> rfl

theorem configSet_cloudOpCode {m : DeviceConfig b} {x : Device × Nat}
    (h : configSet m d = some x) : x.1.globalInfo.cloudOpCode = d.globalInfo.cloudOpCode := by
  unfold configSet at h
  rw [Option.map_eq_some_iff] at h
  obtain ⟨d₁, hd₁, rfl⟩ := h
  have hfirst := (configSetFirst_fieldStep m d).opCode
  have hids := (setClientIdList_fieldStep m _ hd₁).opCode
  have hrest := (configSetRest_fieldStep m d₁ (configSetFirst m d).2).opCode
  rw [writeIfFlagged_globalInfo]
  exact (hrest.trans hids).trans hfirst

theorem configClear_cloudOpCode (m : DeviceConfig b) (d : Device) :
    (configClear m d).1.globalInfo.cloudOpCode = d.globalInfo.cloudOpCode := by
  have h := (((((clearSsid_fieldStep m (d.setFlag 1 1) 0).trans
    (clearPassword_fieldStep m _ (clearSsid m (d.setFlag 1 1) 0).2)).trans
    (clearBleSpeakerPairCode_fieldStep m _)).trans
    (clearClientIdList_fieldStep m _)).trans
    (clearBleSpeakerName_fieldStep m _)).trans
    (clearCubbyDisable_fieldStep m _)
  unfold configClear
  simp only
  rw [writeIfFlagged_globalInfo]
  exact h.opCode

theorem configRun_cloudOpCode {m : ConfigCommand b} {r : RspRet} (h : configRun d m = some r) :
    r.device.globalInfo.cloudOpCode = d.globalInfo.cloudOpCode := by
  unfold configRun at h
  simp only at h
  split at h
  · obtain rfl := Option.some.inj h
    rfl
  · split at h
    · obtain rfl := Option.some.inj h
      exact (configQuery_fieldStep m.deviceConfig _).opCode
    · obtain rfl := Option.some.inj h
      rfl
  · split at h
    · rw [Option.map_eq_some_iff] at h
      obtain ⟨x, hset, rfl⟩ := h
      have hcode := configSet_cloudOpCode hset
      exact hcode
    · obtain rfl := Option.some.inj h
      rfl
  · split at h
    · obtain rfl := Option.some.inj h
      have hcode := configClear_cloudOpCode m.deviceConfig
        ({ d with configCommandFlag := fun _ => 0 }.setFlag 0 m.command)
      exact hcode
    · obtain rfl := Option.some.inj h
      rfl
  · obtain rfl := Option.some.inj h
    rfl

theorem configCommand_cloudOpCode {m : ConfigCommand b} {r : RspRet}
    (h : configCommand d m = some r) :
    r.device.globalInfo.cloudOpCode = nextOpCode d m.header.opCode := by
  unfold configCommand at h
  unfold nextOpCode
  split
  · rename_i ha
    simp only [acceptOpCode_of_accepts ha] at h
    exact configRun_cloudOpCode h
  · rename_i ha
    simp only [acceptOpCode_of_not_accepts ha] at h
    cases h
    rfl

theorem deviceCommand_globalInfo (netWork : NetworkWorkStep) (m : DeviceCommand) :
    (deviceCommand netWork d m).device.globalInfo = (d.noteOpCode m.header.opCode).globalInfo := by
  unfold deviceCommand
  simp only
  split <;> try rfl
  split <;> rfl

theorem otaCommand_cloudOpCode (m : Ota b) :
    (otaCommand m d).device.globalInfo.cloudOpCode =
      (d.noteOpCode m.header.opCode).globalInfo.cloudOpCode := by
  unfold otaCommand
  simp only
  split_ifs <;> exact setTraceId_cloudOpCode _ _

theorem lowpowerCommand_cloudOpCode (m : LowpowerCommand) :
    (lowpowerCommand d m).device.globalInfo.cloudOpCode =
      (d.noteOpCode m.header.opCode).globalInfo.cloudOpCode := by
  unfold lowpowerCommand
  simp only
  split_ifs <;> exact setTraceId_cloudOpCode _ _

/-- All branches move the stored code in the same way. -/
theorem rspHandle_cloudOpCode {netWork : NetworkWorkStep} {msg : RspMsg b} {r : RspRet}
    (h : rspHandle netWork d msg = some r) :
    r.device.globalInfo.cloudOpCode = nextOpCode d msg.opCode := by
  cases msg with
  | slot m =>
    cases h
    exact slotCommand_cloudOpCode m
  | cubby m =>
    cases h
    exact cubbyCommand_cloudOpCode m
  | config m => exact configCommand_cloudOpCode h
  | device m =>
    cases h
    rw [deviceCommand_globalInfo]
    exact noteOpCode_cloudOpCode d _
  | ota m =>
    cases h
    rw [otaCommand_cloudOpCode]
    exact noteOpCode_cloudOpCode d _
  | lowpower m =>
    cases h
    rw [lowpowerCommand_cloudOpCode]
    exact noteOpCode_cloudOpCode d _

/-- A message that is not accepted: only a slot message leaves a trace, in its two rows. -/
theorem rspHandle_rejected {netWork : NetworkWorkStep} {msg : RspMsg b} (hc : msg.Checked)
    (h : ¬ Accepts d msg.opCode) :
    (∃ m, msg = .slot m ∧
      rspHandle netWork d msg = some ⟨0, m.clearRows d, [m.index, m.index], []⟩) ∨
    (∀ m, msg ≠ .slot m) ∧ rspHandle netWork d msg = some (d.rspRet 0) := by
  cases msg with
  | slot m =>
    have h' : (m.clearRows d).acceptOpCode m.header.opCode = none := acceptOpCode_of_not_accepts h
    refine .inl ⟨m, rfl, ?_⟩
    unfold rspHandle slotCommand
    simp only [h']
  | cubby m =>
    have h' : d.acceptOpCode m.header.opCode = none := acceptOpCode_of_not_accepts h
    refine .inr ⟨nofun, ?_⟩
    unfold rspHandle cubbyCommand
    simp only [h']
  | config m =>
    have h' : d.acceptOpCode m.header.opCode = none := acceptOpCode_of_not_accepts h
    refine .inr ⟨nofun, ?_⟩
    unfold rspHandle configCommand
    simp only [h']
  | device m => exact hc.elim
  | ota m => exact hc.elim
  | lowpower m => exact hc.elim

theorem opCodeLaw_of_rspHandle {netWork : NetworkWorkStep} {msg : RspMsg b} {r : RspRet}
    (h : rspHandle netWork d msg = some r) : OpCodeLaw d msg r.device where
  stored := by
    rw [rspHandle_cloudOpCode h]
    exact nextOpCode_eq d msg.opCode
  effect hc heff := by
    by_contra hno
    obtain ⟨m, -, hrej⟩ | ⟨-, hrej⟩ := @rspHandle_rejected b d netWork msg hc hno
    · rw [h] at hrej
      cases hrej
      simp [TakesEffect, SlotCommand.clearRows] at heff
    · rw [h] at hrej
      cases hrej
      simp [TakesEffect, Device.rspRet] at heff

end

/-! ## Runs -/

/-- A message, and the work step in which it arrives. -/
structure RspEvent (b : Board) where
  netWork : NetworkWorkStep
  msg : RspMsg b

/-- A message is handled to the end. -/
def RspStep (b : Board) (d : Device) (e : RspEvent b) (d' : Device) : Prop :=
  ∃ r, rspHandle e.netWork d e.msg = some r ∧ r.device = d'

section
variable {b : Board} {d d' : Device} {es : List (RspEvent b)}

theorem RspStep.law {e : RspEvent b} (h : RspStep b d e d') : OpCodeLaw d e.msg d' := by
  obtain ⟨r, hr, rfl⟩ := h
  exact opCodeLaw_of_rspHandle hr

/-- Away from the last code the stored one does not fall. -/
theorem RspStep.le {e : RspEvent b} (h : RspStep b d e d')
    (hlast : d.globalInfo.cloudOpCode ≠ 0xFFFFFFFF) :
    d.globalInfo.cloudOpCode ≤ d'.globalInfo.cloudOpCode := by
  obtain ⟨r, hr, rfl⟩ := h
  rw [rspHandle_cloudOpCode hr]
  unfold nextOpCode
  split
  · rename_i ha
    obtain hlt | ⟨heq, -⟩ := ha
    · exact UInt32.le_of_lt hlt
    · exact absurd heq hlast
  · exact UInt32.le_refl _

/-- In a run the stored code does not fall, or it has stood at the last one before a message. -/
theorem run_le_or_last (h : Run (RspStep b) d es d') :
    d.globalInfo.cloudOpCode ≤ d'.globalInfo.cloudOpCode ∨
      ∃ es₁ e es₂ s, es = es₁ ++ e :: es₂ ∧ Run (RspStep b) d es₁ s ∧
        s.globalInfo.cloudOpCode = 0xFFFFFFFF := by
  induction h with
  | nil => exact .inl (UInt32.le_refl _)
  | @cons s e s' es s'' hstep hrun ih =>
    by_cases hlast : s.globalInfo.cloudOpCode = 0xFFFFFFFF
    · exact .inr ⟨[], e, es, s, rfl, .nil, hlast⟩
    obtain hle | ⟨es₁, e', es₂, t, rfl, hrun₁, ht⟩ := ih
    · exact .inl (UInt32.le_trans (hstep.le hlast) hle)
    · exact .inr ⟨e :: es₁, e', es₂, t, rfl, .cons hstep hrun₁, ht⟩

/-- A message that takes effect leaves its own code. -/
theorem RspStep.effect_code {e : RspEvent b} (h : RspStep b d e d') (hc : e.msg.Checked)
    (heff : TakesEffect d d') : d'.globalInfo.cloudOpCode = e.msg.opCode := by
  have ha := h.law.effect hc heff
  obtain ⟨r, hr, rfl⟩ := h
  rw [rspHandle_cloudOpCode hr, nextOpCode, if_pos ha]

end

/-- The law of a sequence of messages: each obeys the law of the operation codes, and between two
slot, cubby or config messages of the same code that both take effect a message has met the last
code. -/
structure NoReplay (b : Board) (d : Device) (es : List (RspEvent b)) (d' : Device) : Prop where
  law : ∀ es₁ e es₂, es = es₁ ++ e :: es₂ → ∃ s s', Run (RspStep b) d es₁ s ∧ RspStep b s e s' ∧
    Run (RspStep b) s' es₂ d' ∧ OpCodeLaw s e.msg s'
  once : ∀ es₁ e es₂ e' es₃ s s' t t', es = es₁ ++ e :: (es₂ ++ e' :: es₃) →
    Run (RspStep b) d es₁ s → RspStep b s e s' → Run (RspStep b) s' es₂ t → RspStep b t e' t' →
    e.msg.Checked → e'.msg.Checked → TakesEffect s s' → TakesEffect t t' →
    e.msg.opCode = e'.msg.opCode →
    ∃ es₄ e'' es₅ u, es₂ ++ [e'] = es₄ ++ e'' :: es₅ ∧ Run (RspStep b) s' es₄ u ∧
      u.globalInfo.cloudOpCode = 0xFFFFFFFF

/-- No slot, cubby or config code takes effect twice between two passages through the last code. -/
theorem noReplay_of_run {b : Board} {d d' : Device} {es : List (RspEvent b)}
    (h : Run (RspStep b) d es d') : NoReplay b d es d' where
  law := by
    rintro es₁ e es₂ rfl
    obtain ⟨s, hrun, hrest⟩ := Trace.run_append_iff.1 h
    obtain _ | ⟨hstep, hrest⟩ := hrest
    exact ⟨s, _, hrun, hstep, hrest, hstep.law⟩
  once := by
    rintro es₁ e es₂ e' es₃ s s' t t' - - hstep hrun hstep' hc hc' heff heff' heq
    obtain hle | ⟨es₄, e'', es₅, u, rfl, hrun₄, hu⟩ := run_le_or_last hrun
    · -- the second message can only be accepted behind the last code
      have hcode := hstep.effect_code hc heff
      obtain hlt | ⟨hlast, -⟩ := hstep'.law.effect hc' heff'
      · rw [hcode, heq] at hle
        exact absurd (UInt32.lt_of_lt_of_le hlt hle) (UInt32.lt_irrefl _)
      · exact ⟨es₂, e', [], t, rfl, hrun, hlast⟩
    · exact ⟨es₄, e'', es₅ ++ [e'], u, by simp, hrun₄, hu⟩

/-- A command for column 1, with an operation code. -/
def columnMsg (opCode : UInt32) : CubbyCommand := ⟨⟨opCode, 0⟩, 2, 1⟩

/-- The same command twice. -/
theorem noReplay_of_run_column :
    NoReplay .small (.reset 3) [⟨.normal, .cubby (columnMsg 4)⟩, ⟨.normal, .cubby (columnMsg 4)⟩]
      (cubbyCommand .small (cubbyCommand .small (.reset 3) (columnMsg 4)).device
        (columnMsg 4)).device :=
  noReplay_of_run (.cons ⟨_, rfl, rfl⟩ (.cons ⟨_, rfl, rfl⟩ .nil))

/-! ## Rejected messages -/

section
variable {b : Board}

def Operation.Checked : Operation → Prop
  | .slot | .cubby | .config => True
  | .device | .ota | .lowpower => False

/-- The payload cannot be decoded, or its code is not accepted. -/
def Rejected (d : Device) (dec : Decoder b) (op : Operation) (pbdata : List UInt8) : Prop :=
  ∀ msg, dec.decode pbdata op = some msg → ¬ Accepts d msg.opCode

/-- The branch leaves everything as it was, and nothing has left the module. -/
def Unchanged (netWork : NetworkWorkStep) (d : Device) (dec : Decoder b) (op : Operation)
    (pbdata : List UInt8) : Prop :=
  ∃ r, rspOperation netWork d dec op pbdata = some r ∧ r.device = d

/-- A decoded slot message finds both its rows empty. -/
def RowsClear (d : Device) (dec : Decoder b) (op : Operation) (pbdata : List UInt8) : Prop :=
  op = .slot → ∀ m, dec.slot pbdata = some m →
    (d.pbCmdByteUartSendBuf m.index).take 21 = List.replicate 21 0 ∧
      (d.nfcpwdUartSendBuf m.index).take 21 = List.replicate 21 0

theorem Decoder.checked {dec : Decoder b} {op : Operation} {pbdata : List UInt8} {msg : RspMsg b}
    (hop : op.Checked) (h : dec.decode pbdata op = some msg) : msg.Checked := by
  cases op <;> first
    | exact hop.elim
    | (unfold Decoder.decode at h
       rw [Option.map_eq_some_iff] at h
       obtain ⟨m, -, rfl⟩ := h
       trivial)

/-- Only the slot operation yields slot messages. -/
theorem Decoder.decode_slot {dec : Decoder b} {op : Operation} {pbdata : List UInt8}
    {m : SlotCommand} : dec.decode pbdata op = some (.slot m) ↔
      op = .slot ∧ dec.slot pbdata = some m := by
  cases op <;> simp [Decoder.decode]

theorem clearRow_eq_self_iff {buf : UInt32 → List UInt8} {i : UInt32} :
    clearRow buf i = buf ↔ (buf i).take 21 = List.replicate 21 0 := by
  unfold clearRow
  constructor
  · intro h
    have hrow := congrFun h i
    rw [Function.update_self] at hrow
    rw [← hrow, List.take_append_of_le_length (by simp)]
    simp
  · intro h
    rw [← h, List.take_append_drop, Function.update_eq_self]

theorem clearRows_eq_self_iff {d : Device} {m : SlotCommand} : m.clearRows d = d ↔
    (d.pbCmdByteUartSendBuf m.index).take 21 = List.replicate 21 0 ∧
      (d.nfcpwdUartSendBuf m.index).take 21 = List.replicate 21 0 := by
  rw [← clearRow_eq_self_iff, ← clearRow_eq_self_iff]
  constructor
  · intro h
    exact ⟨congrArg Device.pbCmdByteUartSendBuf h, congrArg Device.nfcpwdUartSendBuf h⟩
  · rintro ⟨hcmd, hpwd⟩
    unfold SlotCommand.clearRows
    rw [hcmd, hpwd]

/-- A rejected message changes nothing exactly when it is no decoded slot message whose rows hold
data. -/
theorem unchanged_iff_rowsClear {netWork : NetworkWorkStep} {d : Device} {dec : Decoder b}
    {op : Operation} {pbdata : List UInt8} (hop : op.Checked) (hrej : Rejected d dec op pbdata) :
    Unchanged netWork d dec op pbdata ↔ RowsClear d dec op pbdata := by
  unfold Unchanged RowsClear rspOperation
  cases hdec : dec.decode pbdata op with
  | none =>
    refine ⟨fun _ hslot m hm => ?_, fun _ => ⟨_, rfl, rfl⟩⟩
    rw [Decoder.decode_slot.2 ⟨hslot, hm⟩] at hdec
    cases hdec
  | some msg =>
    have hno := hrej msg hdec
    obtain ⟨m, rfl, hr⟩ | ⟨hne, hr⟩ :=
      @rspHandle_rejected b _ netWork _ (Decoder.checked hop hdec) hno
    · obtain ⟨rfl, hm⟩ := Decoder.decode_slot.1 hdec
      simp only [hr, Option.some.injEq, exists_eq_left', hm, forall_const, forall_eq']
      exact clearRows_eq_self_iff
    · refine ⟨fun _ hslot m hm => ?_, fun _ => ⟨_, hr, rfl⟩⟩
      rw [Decoder.decode_slot.2 ⟨hslot, hm⟩] at hdec
      exact absurd (Option.some.inj hdec).symm (hne m)

end

/-- A decoder that reads every payload as the same slot message and knows no other. -/
def slotDecoder (m : SlotCommand) : Decoder .small :=
  ⟨fun _ => some m, fun _ => none, fun _ => none, fun _ => none, fun _ => none, fun _ => none⟩

/-- A command for slot 1 of column 1 with operation code 3. -/
def slotMsg : SlotCommand :=
  ⟨⟨3, 0⟩, 1, 1, 1, ⟨0, List.replicate 100 0, rfl⟩, ⟨0, List.replicate 100 0, rfl⟩⟩

theorem slotMsg_rejected (d : Device) (h : d.globalInfo.cloudOpCode = 3) :
    Rejected d (slotDecoder slotMsg) .slot [] := by
  rintro msg hmsg
  obtain rfl : RspMsg.slot slotMsg = msg := Option.some.inj hmsg
  unfold Accepts
  rw [h]
  decide

/-- A repeated slot command finds its rows empty. -/
theorem unchanged_iff_rowsClear_slot :
    Unchanged .normal (.reset 3) (slotDecoder slotMsg) .slot [] ↔
      RowsClear (.reset 3) (slotDecoder slotMsg) .slot [] :=
  unchanged_iff_rowsClear trivial (slotMsg_rejected (.reset 3) rfl)

/-- A repeated slot command empties the row that waits to be sent. -/
theorem not_unchanged_pending : ¬ ∀ (b : Board) (netWork : NetworkWorkStep) (d : Device)
    (dec : Decoder b) (op : Operation) (pbdata : List UInt8), op.Checked →
      Rejected d dec op pbdata → Unchanged netWork d dec op pbdata := by
  intro h
  have hrej := slotMsg_rejected
    { Device.reset 3 with pbCmdByteUartSendBuf := fun _ => List.replicate 21 1 } rfl
  obtain ⟨r, hr, hd⟩ := h _ .normal _ (slotDecoder slotMsg) .slot [] trivial hrej
  obtain rfl := Option.some.inj hr
  have hrow := congrFun (congrArg Device.pbCmdByteUartSendBuf hd) slotMsg.index
  revert hrow
  decide

end AppXd.Net4g
