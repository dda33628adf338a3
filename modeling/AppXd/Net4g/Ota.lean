import AppXd.Net4g.Replay

/-!
# Downloads of firmware

An ota message that starts a download records a target, the place to load from and what to expect
there in `g_ota_para_t`. The target of a message is what it names by itself; the code leaves the
target of an earlier message when it names none. The texts are copied over the earlier ones, so that
the end of a longer one stays.
-/

namespace AppXd.Net4g

open CStr (ascii strcmp store textAt)

/-- The target of a download. -/
structure OtaTarget where
  type : UpdateType
  hardVer : Int
  addr : UInt32
  deriving DecidableEq

/-- What a download loads and expects. -/
structure OtaData where
  url : List UInt8
  ver : List UInt8
  crc : UInt32
  size : UInt32
  deriving DecidableEq

/-- The recorded target. -/
def OtaPara.target (p : OtaPara) : Option OtaTarget := p.type.map fun t => ⟨t, p.hardVer, p.addr⟩

/-- The recorded data, its texts read as C strings. -/
def OtaPara.data (p : OtaPara) : OtaData := ⟨textAt p.url 0, textAt p.ver 0, p.crc, p.size⟩

section
variable {b : Board} (m : Ota b)

namespace Ota

/-- The message is for a column, or for one of the other boards and the device's own hardware. -/
def Recognised : Prop :=
  m.versionType.chars = ascii "cubby" ∨
    (m.versionType.chars = ascii "mcu" ∨ m.versionType.chars = ascii "btSpeaker" ∨
      m.versionType.chars = ascii "gsm") ∧ m.hv.chars = b.mainHardVer

instance : Decidable m.Recognised := inferInstanceAs (Decidable (_ ∨ _))

/-- The target that the message names by itself. -/
def target : Option OtaTarget :=
  if m.versionType.chars = ascii "cubby" then
    some ⟨.slaveBoardModule, CStr.atoi m.hv.chars,
      if 0 < m.addr ∧ m.addr ≤ 4 ∨ m.addr = 0x0F then m.addr else 0⟩
  else if m.hv.chars = b.mainHardVer then
    if m.versionType.chars = ascii "mcu" then
      some ⟨.masterCtrlModule, CStr.atoi m.hv.chars, 0⟩
    else if m.versionType.chars = ascii "btSpeaker" then
      some ⟨.btMusicModule, CStr.atoi m.hv.chars, 0⟩
    else if m.versionType.chars = ascii "gsm" then
      some ⟨.board4g, CStr.atoi m.hv.chars, 0⟩
    else none
  else none

/-- The data that the message names by itself. -/
def data : OtaData := ⟨m.url.chars, m.version.chars, m.crc, m.size⟩

theorem target_isSome_iff : m.target.isSome = true ↔ m.Recognised := by
  unfold target Recognised
  split_ifs <;> simp_all

end Ota

/-- The message sets the flag, whatever it was before. -/
def SetsOtaFlag (d : Device) : Prop :=
  (otaCommand m { d with otaPara := { d.otaPara with otaFlag := 0 } }).device.otaPara.otaFlag = 1

/-- A download starts for a recognised target only, and for the one that the message names. -/
structure StartsRight (d : Device) : Prop where
  only : SetsOtaFlag m d →
    m.command = 29 ∧ d.globalInfo.deviceNoPowerMode ≠ 1 ∧ m.Recognised
  target : SetsOtaFlag m d → (otaCommand m d).device.otaPara.target = m.target

end

/-! ## What an ota message records -/

section
variable {b : Board} {m : Ota b} {d : Device}

theorem noteOpCode_otaPara (opCode : UInt32) : (d.noteOpCode opCode).otaPara = d.otaPara := by
  unfold Device.noteOpCode
  by_cases h : Accepts d opCode
  · rw [acceptOpCode_of_accepts h, Option.getD_some]
  · rw [acceptOpCode_of_not_accepts h, Option.getD_none]

theorem noteOpCode_deviceNoPowerMode (opCode : UInt32) :
    (d.noteOpCode opCode).globalInfo.deviceNoPowerMode = d.globalInfo.deviceNoPowerMode := by
  unfold Device.noteOpCode
  by_cases h : Accepts d opCode
  · rw [acceptOpCode_of_accepts h, Option.getD_some]
  · rw [acceptOpCode_of_not_accepts h, Option.getD_none]

theorem setTraceId_deviceNoPowerMode (g : DeviceGlobalInfo) (traceId : UInt32) :
    (g.setTraceId traceId).deviceNoPowerMode = g.deviceNoPowerMode := by
  unfold DeviceGlobalInfo.setTraceId
  split <;> rfl

/-- The mode does not change before the message is looked at, nor afterwards. -/
theorem starts_noted : m.starts { d.noteOpCode m.header.opCode with
    globalInfo := (d.noteOpCode m.header.opCode).globalInfo.setTraceId m.header.traceId } ↔
      m.starts d := by
  unfold Ota.starts
  simp only
  rw [setTraceId_deviceNoPowerMode, noteOpCode_deviceNoPowerMode]

theorem otaCommand_otaPara :
    (otaCommand m d).device.otaPara = if m.starts d then otaStart m d.otaPara else d.otaPara := by
  unfold otaCommand
  simp only [starts_noted]
  by_cases h : m.starts d
  · simp only [if_pos h]
    split <;> exact congrArg (otaStart m) (noteOpCode_otaPara _)
  · simp only [if_neg h]
    split <;> exact noteOpCode_otaPara _

theorem otaCommand_deviceNoPowerMode :
    (otaCommand m d).device.globalInfo.deviceNoPowerMode = d.globalInfo.deviceNoPowerMode := by
  have h : ((d.noteOpCode m.header.opCode).globalInfo.setTraceId
      m.header.traceId).deviceNoPowerMode = d.globalInfo.deviceNoPowerMode := by
    rw [setTraceId_deviceNoPowerMode, noteOpCode_deviceNoPowerMode]
  unfold otaCommand
  simp only
  split_ifs <;> exact h

theorem setsOtaFlag_iff : SetsOtaFlag m d ↔ m.starts d := by
  unfold SetsOtaFlag
  rw [otaCommand_otaPara]
  by_cases h : m.starts d
  · rw [if_pos (show m.starts { d with otaPara := { d.otaPara with otaFlag := 0 } } from h)]
    exact iff_of_true rfl h
  · rw [if_neg (show ¬ m.starts { d with otaPara := { d.otaPara with otaFlag := 0 } } from h)]
    exact iff_of_false (show (0 : UInt8) ≠ 1 by decide) h

/-! ## The target -/

theorem otaTarget_eq (p : OtaPara) : otaTarget m p =
    match m.target with
    | some t => { p with type := some t.type, hardVer := t.hardVer, addr := t.addr }
    | none => p := by
  have hhv : strcmp m.hv.chars b.mainHardVer = 0 ↔ m.hv.chars = b.mainHardVer :=
    CStr.strcmp_eq_zero m.hv.noNul b.hardVer_noNul
  have htype : ∀ s, 0 ∉ s → (strcmp m.versionType.chars s = 0 ↔ m.versionType.chars = s) :=
    fun s => CStr.strcmp_eq_zero m.versionType.noNul
  unfold otaTarget Ota.target
  simp only [hhv, htype _ (by decide : 0 ∉ ascii "mcu"), htype _ (by decide : 0 ∉ ascii "cubby"),
    htype _ (by decide : 0 ∉ ascii "btSpeaker"), htype _ (by decide : 0 ∉ ascii "gsm")]
  have hmcu : ascii "mcu" ≠ ascii "cubby" := by decide
  split_ifs <;> simp_all

theorem otaStart_url (p : OtaPara) : (otaStart m p).url = store p.url m.url.chars := by
  unfold otaStart
  rw [otaTarget_eq]
  cases m.target <;> rfl

theorem otaStart_ver (p : OtaPara) : (otaStart m p).ver = store p.ver m.version.chars := by
  unfold otaStart
  rw [otaTarget_eq]
  cases m.target <;> rfl

/-- The kind of a download is the one that the message names, or the one before. -/
theorem otaStart_target (p : OtaPara) : (otaStart m p).target = m.target.or p.target := by
  have htarget : (otaStart m p).target = (otaTarget m p).target := rfl
  rw [htarget, otaTarget_eq]
  cases m.target <;> rfl

end

/-- A download starts right exactly when the message starts none or names a recognised target. -/
theorem startsRight_iff (b : Board) (d : Device) (m : Ota b) :
    StartsRight m d ↔ (m.starts d → m.Recognised) := by
  constructor
  · intro h hs
    exact (h.only (setsOtaFlag_iff.2 hs)).2.2
  · intro h
    refine ⟨fun hset => ?_, fun hset => ?_⟩
    · have hs := setsOtaFlag_iff.1 hset
      exact ⟨hs.1, hs.2, h hs⟩
    · have hs := setsOtaFlag_iff.1 hset
      obtain ⟨t, ht⟩ := Option.isSome_iff_exists.1 ((m.target_isSome_iff).2 (h hs))
      rw [otaCommand_otaPara, if_pos hs, otaStart_target, ht, Option.some_or]

/-- A download for the main board with the given hardware version and place. -/
def mcuMsg (hv url : CStr.Str 8) : Ota .small :=
  ⟨⟨4, 0⟩, 29, ⟨ascii "mcu", by decide, by decide⟩, 0, url, 1, 1, ⟨ascii "1", by decide, by decide⟩,
    hv⟩

/-- Firmware for other hardware is downloaded. -/
theorem not_startsRight_hardVer : ¬ ∀ (b : Board) (d : Device) (m : Ota b), StartsRight m d := by
  intro h
  have hlaw := h .small (.reset 3)
    (mcuMsg ⟨ascii "99", by decide, by decide⟩ ⟨[], by decide, by decide⟩)
  have hrec := (hlaw.only (setsOtaFlag_iff.2 ⟨rfl, by decide⟩)).2.2
  revert hrec
  decide

/-! ## The data -/

/-- The ota messages `ms`, one after the other. -/
def otaRun {b : Board} (ms : List (Ota b)) (d : Device) : Device :=
  ms.foldl (fun d m => (otaCommand m d).device) d

/-- The place and the version are strings. -/
def OtaPara.Ended (p : OtaPara) : Prop := 0 ∈ p.url ∧ 0 ∈ p.ver

/-- What the two devices have recorded is the same, and it is the message's. -/
structure SameData {b : Board} (m : Ota b) (p p' : OtaPara) : Prop where
  ended : p.Ended
  ended' : p'.Ended
  same : p.data = p'.data
  own : p.data = m.data

/-- The text `s` fits in the array, and nothing longer stands there: neither at first nor by one of
the texts that were copied there. -/
def NoLonger (buf : List UInt8) (earlier : List (List UInt8)) (s : List UInt8) : Prop :=
  buf[s.length]? = some 0 ∧ ∀ t ∈ earlier, t.length ≤ s.length

/-- No text of the message is shorter than what the device has in its place. -/
def CoversData {b : Board} (d : Device) (ms : List (Ota b)) (m : Ota b) : Prop :=
  NoLonger d.otaPara.url ((ms.filter fun m' => m'.starts d).map fun m' => m'.url.chars)
      m.url.chars ∧
    NoLonger d.otaPara.ver ((ms.filter fun m' => m'.starts d).map fun m' => m'.version.chars)
      m.version.chars

section
variable {b : Board} {m : Ota b} {d : Device} {ms : List (Ota b)}

theorem starts_otaCommand {m' : Ota b} : m'.starts (otaCommand m d).device ↔ m'.starts d := by
  unfold Ota.starts
  rw [otaCommand_deviceNoPowerMode]

/-- The byte behind a position is a NUL when no text copied over it reaches so far. -/
theorem noLonger_store {buf t s : List UInt8} {earlier : List (List UInt8)} (ht : 0 ∉ t) :
    NoLonger (store buf t) earlier s ↔ NoLonger buf (t :: earlier) s := by
  unfold NoLonger
  rw [List.forall_mem_cons, CStr.getElem?_store_eq_zero_iff ht]
  tauto

/-- What stands in the arrays after the messages, told from their texts. -/
theorem coversData_otaRun : CoversData (otaRun ms d) [] m ↔ CoversData d ms m := by
  induction ms generalizing d with
  | nil => exact Iff.rfl
  | cons m' ms ih =>
    refine ih.trans ?_
    unfold CoversData
    simp only [starts_otaCommand, otaCommand_otaPara]
    by_cases h : m'.starts d
    · rw [if_pos h, List.filter_cons_of_pos (by simpa using h), List.map_cons, List.map_cons,
        ← noLonger_store m'.url.noNul, ← noLonger_store m'.version.noNul, otaStart_url,
        otaStart_ver]
    · rw [if_neg h, List.filter_cons_of_neg (by simpa using h)]

/-- The message's data is recorded exactly when its texts cover what stands in the arrays. -/
theorem otaCommand_data_eq_iff (hs : m.starts d) :
    (otaCommand m d).device.otaPara.Ended ∧ (otaCommand m d).device.otaPara.data = m.data ↔
      CoversData d [] m := by
  have hread : (otaStart m d.otaPara).data =
      ⟨textAt (store d.otaPara.url m.url.chars) 0, textAt (store d.otaPara.ver m.version.chars) 0,
        m.crc, m.size⟩ := by
    rw [← otaStart_url, ← otaStart_ver]
    rfl
  have hurl := @CStr.fits_and_textAt_store_iff d.otaPara.url _ m.url.noNul
  have hver := @CStr.fits_and_textAt_store_iff d.otaPara.ver _ m.version.noNul
  rw [CStr.fits_iff m.url.noNul] at hurl
  rw [CStr.fits_iff m.version.noNul] at hver
  rw [otaCommand_otaPara, if_pos hs, hread, OtaPara.Ended, otaStart_url, otaStart_ver]
  simp only [Ota.data, CoversData, NoLonger, List.filter_nil, List.map_nil, ← hurl, ← hver,
    OtaData.mk.injEq, and_true, List.not_mem_nil, false_implies, implies_true]
  tauto

end

/-- Two devices record the same exactly when the message's texts cover those of both. -/
theorem sameData_iff_coversData {b : Board} {d d' : Device} {ms ms' : List (Ota b)} {m : Ota b}
    (hs : m.starts (otaRun ms d)) (hs' : m.starts (otaRun ms' d')) :
    SameData m (otaCommand m (otaRun ms d)).device.otaPara
        (otaCommand m (otaRun ms' d')).device.otaPara ↔
      CoversData d ms m ∧ CoversData d' ms' m := by
  rw [← coversData_otaRun, ← coversData_otaRun (d := d'), ← otaCommand_data_eq_iff hs,
    ← otaCommand_data_eq_iff hs']
  constructor
  · intro h
    exact ⟨⟨h.ended, h.own⟩, h.ended', h.same.symm.trans h.own⟩
  · rintro ⟨⟨hended, h⟩, hended', h'⟩
    exact ⟨hended, hended', h.trans h'.symm, h⟩

/-- A download for the main board from the given place. -/
def placeMsg (url : CStr.Str 8) : Ota .small :=
  mcuMsg ⟨ascii "12", Board.small.hardVer_noNul, by decide⟩ url

/-- A message at first, and after one with a place of the same length. -/
theorem sameData_placeMsg :
    SameData (placeMsg ⟨ascii "ab", by decide, by decide⟩)
      (otaCommand (placeMsg ⟨ascii "ab", by decide, by decide⟩)
        (otaRun (b := .small) [] (.reset 3))).device.otaPara
      (otaCommand (placeMsg ⟨ascii "ab", by decide, by decide⟩)
        (otaRun [placeMsg ⟨ascii "cd", by decide, by decide⟩] (.reset 3))).device.otaPara :=
  (sameData_iff_coversData ⟨rfl, by decide⟩ ⟨rfl, by decide⟩).2
    ⟨⟨⟨rfl, by decide⟩, ⟨rfl, by decide⟩⟩, ⟨⟨rfl, by decide⟩, ⟨rfl, by decide⟩⟩⟩

/-- The end of a longer place stays. -/
theorem not_sameData_longer : ¬ ∀ (b : Board) (d d' : Device) (ms ms' : List (Ota b)) (m : Ota b),
    m.starts (otaRun ms d) → m.starts (otaRun ms' d') →
      SameData m (otaCommand m (otaRun ms d)).device.otaPara
        (otaCommand m (otaRun ms' d')).device.otaPara := by
  intro h
  have hown := (h .small (.reset 3) (.reset 3) [placeMsg ⟨ascii "cde", by decide, by decide⟩] []
    (placeMsg ⟨ascii "ab", by decide, by decide⟩) ⟨rfl, by decide⟩ ⟨rfl, by decide⟩).own
  revert hown
  decide

end AppXd.Net4g
