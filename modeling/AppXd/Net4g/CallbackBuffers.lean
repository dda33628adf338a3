import AppXd.Net4g.AtCommand
import AppXd.Net4g.AtValue

/-!
# The buffers of the AT callbacks

A callback takes a value out of the module's answer into a local buffer, whose size
`get_atcmd_rsp_value` is not told. A copy behind the end of the buffer leaves the callback without a
result. `BufferSafe` is what the callbacks rely on, `BufferRoom` says for which answers it holds.
The callbacks are called with `AT_OK` only.
-/

namespace AppXd.Net4g

open CStr (ascii textAt)

/-! ## The callbacks -/

section
variable (m : ModuleType) (srcData : List UInt8)

/-- `GET_IMEI_RSP_HEAD`. -/
def getImeiRspHead : Option (List UInt8) := if m.quectel then none else some (ascii "+CGSN:")

def getSnNoRspHead : List UInt8 := if m.quectel then ascii "+EGMR:" else ascii "+CGSN:"

def isSimOkRspHeadErr : List UInt8 := ascii "+CME ERROR:"

/-- `get_atcmd_rsp_value` on an answer, up to `OK`. -/
def answerValue (srcLen : Nat) (headKey : Option (List UInt8)) : Option (List UInt8) :=
  (getAtcmdRspValueOf (fun i => srcData.getD i 0) (srcData.length + 1) 0 srcLen headKey
    netCmdRspTailOk).1

/-- The target buffer of a callback, zeroed before, when it has tried these heads in turn until one
gives a value. `none` is a copy that passes the end of the buffer. -/
def targetData (size srcLen : Nat) : List (Option (List UInt8)) → Option (List UInt8)
  | [] => some (CStr.copyInto size [])
  | headKey :: headKeys =>
    match answerValue srcData srcLen headKey with
    | some v => if v.length ≤ size then some (CStr.copyInto size v) else none
    | none => targetData size srcLen headKeys

def net4gGetModuleImeiTarget : Option (List UInt8) :=
  targetData srcData 50 srcData.length [getImeiRspHead m]

/-- The target is `sim_flag`, and the length passed is 1. -/
def net4gGetSimUsingTarget : Option (List UInt8) :=
  targetData srcData 1 1 [some (getSimUsingHead m)]

def net4gGetModuleSnTarget : Option (List UInt8) :=
  targetData srcData 50 srcData.length [some (getSnNoRspHead m)]

def net4gIsSimOkTarget : Option (List UInt8) :=
  targetData srcData 50 srcData.length [some isSimOkRspHead, some isSimOkRspHeadErr]

/-- Only for one of the two cards a number is taken. -/
def net4gGetSimNoTarget (simFlag : UInt8) : Option (List UInt8) :=
  targetData srcData 50 srcData.length
    (if simFlag = 1 ∨ simFlag = 2 then [some (getSimNoRspHead m)] else [])

def net4gGetSimStateTarget : Option (List UInt8) :=
  targetData srcData 50 srcData.length [some getSimStateRspHead]

def net4gGetNetRssiTarget : Option (List UInt8) :=
  targetData srcData 50 srcData.length [some getNetRssiRspHead]

end

/-- The callbacks. -/
inductive TargetCallback
  | getModuleImei | getSimUsing | getModuleSn | isSimOk | getSimNo | getSimState | getNetRssi
  deriving DecidableEq, Repr

namespace TargetCallback

variable (cb : TargetCallback) (m : ModuleType) (simFlag : UInt8) (srcData : List UInt8)

def target : Option (List UInt8) :=
  match cb with
  | getModuleImei => net4gGetModuleImeiTarget m srcData
  | getSimUsing => net4gGetSimUsingTarget m srcData
  | getModuleSn => net4gGetModuleSnTarget m srcData
  | isSimOk => net4gIsSimOkTarget srcData
  | getSimNo => net4gGetSimNoTarget m srcData simFlag
  | getSimState => net4gGetSimStateTarget srcData
  | getNetRssi => net4gGetNetRssiTarget srcData

/-- The copy stays in the buffer, and a buffer that is used as a string ends with a NUL. -/
def BufferSafe : Prop :=
  ∃ buf, cb.target m simFlag srcData = some buf ∧ (cb ≠ getSimUsing → 0 ∈ buf)

/-- The heads that a callback tries. -/
def heads : List (Option (List UInt8)) :=
  match cb with
  | getModuleImei => [getImeiRspHead m]
  | getSimUsing => [some (getSimUsingHead m)]
  | getModuleSn => [some (getSnNoRspHead m)]
  | isSimOk => [some isSimOkRspHead, some isSimOkRspHeadErr]
  | getSimNo => if simFlag = 1 ∨ simFlag = 2 then [some (getSimNoRspHead m)] else []
  | getSimState => [some getSimStateRspHead]
  | getNetRssi => [some getNetRssiRspHead]

/-- The bytes that the buffer takes: one is kept for the NUL. -/
def room : Nat := if cb = getSimUsing then 1 else 49

/-- The length that a callback passes on. -/
def srcLen : Nat := if cb = getSimUsing then 1 else srcData.length

end TargetCallback

/-! ## The text up to the tail -/

section
variable (srcData : List UInt8)

/-- Where the first loop begins. -/
def headEnd (headKey : Option (List UInt8)) : Option Nat :=
  match headKey with
  | none => some 0
  | some headKey => (Seq.firstAt headKey (textAt srcData 0)).map (· + headKey.length)

/-- What stands between the blanks behind the head and the next `OK`. The loop over the blanks passes
NULs and has at most as many rounds as a `uint8_t` makes of the length behind the head. -/
def textToTail (srcLen : Nat) (headKey : Option (List UInt8)) : Option (List UInt8) :=
  (headEnd srcData headKey).bind fun p =>
  let i := skipBlanks (fun i => srcData.getD i 0) p
    (subU32 srcLen (headKey.getD []).length % 256)
  let text := textAt srcData (p + i)
  (Seq.firstAt netCmdRspTailOk text).map fun c => text.take c

/-- The text takes no more than `room` bytes when it is counted modulo 256 and the blanks at its end
are dropped. -/
def TakesAtMost (room : Nat) (text : List UInt8) : Prop :=
  text.length % 256 ≤ Seq.trail lineBlank text + room

/-- The text found with the first head fits, and if nothing is left of it, the one found with the
next. -/
def TextsFit (srcLen room : Nat) : List (Option (List UInt8)) → Prop
  | [] => True
  | headKey :: headKeys =>
    (∀ text ∈ textToTail srcData srcLen headKey, TakesAtMost room text) ∧
      ((∀ text ∈ textToTail srcData srcLen headKey, TakesAtMost 0 text) →
        TextsFit srcLen room headKeys)

end

/-- The texts that a callback takes fit. -/
def TargetCallback.BufferRoom (cb : TargetCallback) (m : ModuleType) (simFlag : UInt8)
    (srcData : List UInt8) : Prop :=
  TextsFit srcData (cb.srcLen srcData) cb.room (cb.heads m simFlag)

/-! ## What is written -/

section
variable {srcData : List UInt8} {srcLen : Nat}

/-- A string in the answer. -/
theorem holds_textAt (srcData : List UInt8) {p : Nat} (hp : p ≤ srcData.length) :
    CStr.Holds (fun i => srcData.getD i 0) (srcData.length + 1) p (textAt srcData p) := by
  have hle : (textAt srcData p).length ≤ srcData.length - p := by
    rw [← List.length_drop]
    exact (List.takeWhile_sublist _).length_le
  have hcell : ∀ i (h : i < (textAt srcData p).length),
      srcData.getD (p + i) 0 = (textAt srcData p)[i] := fun i h => by
    have hbyte := (List.takeWhile_prefix _).getElem h
    rw [List.getElem_drop] at hbyte
    exact (List.getD_eq_getElem _ _ (by omega)).trans hbyte.symm
  refine ⟨CStr.zero_notMem_textAt srcData p, hcell, ?_, by omega⟩
  rcases Nat.lt_or_ge (p + (textAt srcData p).length) srcData.length with hlt | hge
  · have hlead : Seq.lead (fun b : UInt8 => decide (b ≠ 0)) (srcData.drop p) <
        (srcData.drop p).length := by
      rw [List.length_drop]
      exact Nat.lt_sub_iff_add_lt'.2 hlt
    have hstop := Seq.getElem_lead hlead
    rw [List.getElem_drop] at hstop
    rw [List.getD_eq_getElem _ _ hlt]
    exact Decidable.of_not_not (of_decide_eq_false hstop)
  · exact List.getD_eq_default _ _ hge

/-- Behind the answer there is no text. -/
theorem textAt_of_length_lt {p : Nat} (hp : srcData.length < p) : textAt srcData p = [] := by
  unfold textAt
  rw [List.drop_eq_nil_of_le hp.le]
  rfl

/-- The second half of the function. -/
theorem valueBefore_answer {tailKey : List UInt8} (htail : tailKey ≠ []) (p : Nat) :
    valueBefore (fun i => srcData.getD i 0) (srcData.length + 1) p tailKey =
      (Seq.firstAt tailKey (textAt srcData p)).bind fun c =>
        cutText ((textAt srcData p).take c) := by
  rcases Nat.lt_or_ge srcData.length p with hlt | hle
  · have hnone : CStr.strstr (fun i => srcData.getD i 0) (srcData.length + 1) p tailKey = none := by
      refine CStr.strstr_of_nul htail ?_
      exact List.getD_eq_default _ _ hlt.le
    unfold valueBefore
    rw [hnone, textAt_of_length_lt hlt, Seq.firstAt, if_neg htail]
    rfl
  · exact valueBefore_holds (holds_textAt srcData hle) tailKey

theorem answerValue_eq (headKey : Option (List UInt8)) :
    answerValue srcData srcLen headKey = (textToTail srcData srcLen headKey).bind cutText := by
  have hafter : ∀ p n hi, (valueAfter (fun i => srcData.getD i 0) (srcData.length + 1) p n hi
      netCmdRspTailOk).1 = (let i := skipBlanks (fun i => srcData.getD i 0) p n
        let text := textAt srcData (p + i)
        ((Seq.firstAt netCmdRspTailOk text).map fun c => text.take c).bind cutText) := by
    intro p n hi
    unfold valueAfter
    simp only [valueBefore_answer (show netCmdRspTailOk ≠ [] by decide), Option.bind_map]
    rfl
  unfold answerValue getAtcmdRspValueOf textToTail headEnd
  cases headKey with
  | none =>
    have hlen : subU32 srcLen 0 = srcLen := if_pos (Nat.zero_le _)
    simp only [hafter, Option.bind_some, Option.getD_none, List.length_nil, hlen]
  | some headKey =>
    have hstr := (holds_textAt srcData (Nat.zero_le _)).strstr headKey
    simp only [getAtcmdRspValue_eq, hstr]
    cases Seq.firstAt headKey (textAt srcData 0) with
    | none => rfl
    | some a =>
      simp only [Option.map_some, Option.bind_some, Option.getD_some, Nat.zero_add, hafter]

/-- How much of a text is written. -/
theorem cutText_length_iff (room : Nat) (text : List UInt8) :
    (∀ v ∈ cutText text, v.length ≤ room) ↔ TakesAtMost room text := by
  have hle := Nat.mod_le text.length 256
  have htrail := Seq.trail_le (p := lineBlank) text
  unfold TakesAtMost cutText
  simp only
  split
  · rename_i hpos
    have hlen : ∀ n ≤ text.length, (text.take n).length = n := fun n hn => List.length_take_of_le hn
    have hn := hlen _ ((Nat.mod_le (text.length - min (text.length % 256)
      (Seq.trail lineBlank text)) 256).trans (Nat.sub_le _ _))
    constructor
    · intro h
      have := h _ rfl
      omega
    · rintro h v ⟨⟩
      omega
  · rename_i hzero
    refine iff_of_true (fun v hv => by cases hv) ?_
    omega

theorem cutText_eq_none_iff_takes (text : List UInt8) : cutText text = none ↔ TakesAtMost 0 text :=
  cutText_eq_none_iff

/-- What is cut out of a text is a part of it, and shorter than 256 bytes. -/
theorem cutText_spec {text v : List UInt8} (h : cutText text = some v) :
    (∀ b ∈ v, b ∈ text) ∧ v.length ≤ 255 := by
  unfold cutText at h
  simp only at h
  split at h
  · cases h
    refine ⟨fun b hb => List.mem_of_mem_take hb, (List.length_take_le _ _).trans ?_⟩
    exact Nat.le_of_lt_succ (Nat.mod_lt _ (by decide))
  · cases h

theorem notMem_of_answerValue {headKey : Option (List UInt8)} {v : List UInt8}
    (h : answerValue srcData srcLen headKey = some v) : 0 ∉ v := by
  rw [answerValue_eq] at h
  obtain ⟨text, htext, hv⟩ := Option.bind_eq_some_iff.1 h
  obtain ⟨p, -, htext⟩ := Option.bind_eq_some_iff.1 htext
  obtain ⟨c, -, rfl⟩ := Option.map_eq_some_iff.1 htext
  intro h0
  exact CStr.zero_notMem_textAt _ _ (List.mem_of_mem_take ((cutText_spec hv).1 0 h0))

theorem answerValue_length_iff (srcData : List UInt8) (srcLen room : Nat) (headKey : Option (List UInt8)) :
    (∀ v ∈ answerValue srcData srcLen headKey, v.length ≤ room) ↔
      ∀ text ∈ textToTail srcData srcLen headKey, TakesAtMost room text := by
  rw [answerValue_eq]
  cases textToTail srcData srcLen headKey with
  | none =>
    refine iff_of_true ?_ ?_ <;>
    · intro x hx
      cases hx
  | some text =>
    rw [Option.bind_some, cutText_length_iff]
    constructor
    · rintro h _ ⟨⟩
      exact h
    · intro h
      exact h text rfl

theorem answerValue_eq_none_iff (srcData : List UInt8) (srcLen : Nat) (headKey : Option (List UInt8)) :
    answerValue srcData srcLen headKey = none ↔
      ∀ text ∈ textToTail srcData srcLen headKey, TakesAtMost 0 text := by
  rw [answerValue_eq, Option.bind_eq_none_iff]
  refine forall₂_congr fun text _ => ?_
  exact cutText_eq_none_iff_takes text

/-- A value without NUL stays in the buffer, and leaves the last byte to the terminator if it is to
have one. -/
theorem copied_iff {size room : Nat} {terminated : Prop} (hroom : terminated → size = room + 1)
    (hall : ¬ terminated → size = room) {v : List UInt8} (h0 : 0 ∉ v) :
    (∃ buf, (if v.length ≤ size then some (CStr.copyInto size v) else none) = some buf ∧
      (terminated → 0 ∈ buf)) ↔ v.length ≤ room := by
  constructor
  · rintro ⟨buf, hbuf, hnul⟩
    split at hbuf
    · rename_i hle
      cases hbuf
      by_cases ht : terminated
      · have hlt := (CStr.zero_mem_copyInto_iff h0).1 (hnul ht)
        have hsize := hroom ht
        omega
      · exact hall ht ▸ hle
    · cases hbuf
  · intro hle
    have hsize : v.length ≤ size := by
      by_cases ht : terminated
      · exact hle.trans (hroom ht ▸ Nat.le_succ room)
      · exact hall ht ▸ hle
    refine ⟨_, if_pos hsize, fun ht => (CStr.zero_mem_copyInto_iff h0).2 ?_⟩
    rw [hroom ht]
    exact Nat.lt_succ_of_le hle

/-- The heads in turn. -/
theorem targetData_iff {size room : Nat} {terminated : Prop}
    (hroom : terminated → size = room + 1) (hall : ¬ terminated → size = room)
    (headKeys : List (Option (List UInt8))) :
    (∃ buf, targetData srcData size srcLen headKeys = some buf ∧ (terminated → 0 ∈ buf)) ↔
      TextsFit srcData srcLen room headKeys := by
  induction headKeys with
  | nil =>
    refine iff_of_true ⟨_, rfl, fun ht => ?_⟩ trivial
    rw [CStr.zero_mem_copyInto_iff List.not_mem_nil, hroom ht]
    exact Nat.succ_pos _
  | cons headKey headKeys ih =>
    have hlen := answerValue_length_iff srcData srcLen room headKey
    have hnone := answerValue_eq_none_iff srcData srcLen headKey
    unfold targetData TextsFit
    rw [← hlen, ← hnone]
    cases hv : answerValue srcData srcLen headKey with
    | none =>
      simp only
      rw [ih]
      constructor
      · intro h
        refine ⟨?_, fun _ => h⟩
        rintro v ⟨⟩
      · intro h
        exact h.2 trivial
    | some v =>
      simp only
      rw [copied_iff hroom hall (notMem_of_answerValue hv)]
      constructor
      · intro h
        refine ⟨?_, ?_⟩
        · rintro _ ⟨⟩
          exact h
        · rintro ⟨⟩
      · intro h
        exact h.1 v rfl

end

namespace TargetCallback

variable (cb : TargetCallback) (m : ModuleType) (simFlag : UInt8) (srcData : List UInt8)

theorem target_eq : cb.target m simFlag srcData =
    targetData srcData (if cb = getSimUsing then 1 else 50) (cb.srcLen srcData)
      (cb.heads m simFlag) := by
  cases cb <;> rfl

/-- A callback stays in its buffer and leaves it terminated exactly when the texts that it takes
fit. -/
theorem bufferSafe_iff_bufferRoom :
    cb.BufferSafe m simFlag srcData ↔ cb.BufferRoom m simFlag srcData := by
  unfold BufferSafe BufferRoom
  rw [target_eq]
  refine targetData_iff ?_ ?_ _
  · intro hne
    rw [room, if_neg hne, if_neg hne]
  · intro heq
    rw [room, if_pos (Decidable.of_not_not heq), if_pos (Decidable.of_not_not heq)]

/-- An answer of two digits does not fit in the single byte for the card. -/
theorem not_bufferSafe_digits :
    ¬ ∀ (cb : TargetCallback) (m : ModuleType) (simFlag : UInt8) (srcData : List UInt8),
      cb.BufferSafe m simFlag srcData := by
  intro h
  obtain ⟨buf, hbuf, -⟩ := h .getSimUsing .ec800 0 (ascii "+QDSIM: 10\r\nOK")
  have hnone : getSimUsing.target .ec800 0 (ascii "+QDSIM: 10\r\nOK") = none := by decide +kernel
  rw [hnone] at hbuf
  cases hbuf

end TargetCallback

end AppXd.Net4g
