import AppXd.Lib.Tokens
import AppXd.Net4g.Replay

/-!
# The levels of a topic

A topic is this device's own when it begins with five given levels. `rspAnalyze` compares one level
after the other, but `strtok` finds only the levels that are not empty. On a foreign topic it meets
a missing level, or ends without a return value, or takes the message for one of its own, unless
the length of the payload stops it before.
-/

namespace AppXd.Net4g

open CStr (ascii strcmp tokens textAt)

/-- The levels of a topic, which may be empty. -/
def allLevels (topic : List UInt8) : List (List UInt8) := topic.splitOnP (· = 47)

/-- The levels that `strtok` finds: those that are not empty. -/
def levels (topic : List UInt8) : List (List UInt8) := tokens 47 topic

section
variable (b : Board) (d : Device)

/-- The first four levels of this device's topics. -/
def ownLevels : List (List UInt8) :=
  [ascii "device", b.pucProductkey, textAt d.loginInfo.deviceKey 0, ascii "command"]

/-- A topic of this device for the operation. -/
def DeviceTopic (op : Operation) (topic : List UInt8) : Prop :=
  ownLevels b d ++ [op.name] <+: allLevels topic

/-- A topic that is taken for one of this device: empty levels do not count. -/
def OwnTopic (op : Operation) (topic : List UInt8) : Prop :=
  ownLevels b d ++ [op.name] <+: levels topic

instance (op : Operation) (topic : List UInt8) : Decidable (DeviceTopic b d op topic) :=
  inferInstanceAs (Decidable (_ <+: _))

instance (op : Operation) (topic : List UInt8) : Decidable (OwnTopic b d op topic) :=
  inferInstanceAs (Decidable (_ <+: _))

/-- What `RspAnalyze` finds in the levels: nothing where it compares a level that is missing, and
`some none` where one is not this device's. -/
def rspLevels (topic : List UInt8) : Option (Option Operation) :=
  match matchLevels (ownLevels b d) topic 0 with
  | none => none
  | some none => some none
  | some (some (buf, pos)) =>
    match CStr.strtok 47 buf pos with
    | (none, _, _) => none
    | (some tok, buf, _) => some (operationOf (textAt buf tok))

end

/-! ## Comparing levels -/

section
variable {b : Board} {d : Device} {topic : List UInt8}

theorem rspAnalyze_eq (netWork : NetworkWorkStep) (dec : Decoder b) (topic pbdata : List UInt8) :
    rspAnalyze netWork d dec topic pbdata =
      if 256 ≤ pbdata.length then none
      else if 200 ≤ pbdata.length then some (some (d.rspRet 0))
      else
        match rspLevels b d topic with
        | none => none
        | some none => some none
        | some (some op) => (rspOperation netWork d dec op pbdata).map some := by
  unfold rspAnalyze rspLevels ownLevels
  split
  · rfl
  split
  · rfl
  rcases matchLevels [ascii "device", b.pucProductkey, textAt d.loginInfo.deviceKey 0,
    ascii "command"] topic 0 with _ | _ | ⟨buf, pos⟩
  · rfl
  · rfl
  dsimp only
  rcases CStr.strtok 47 buf pos with ⟨_ | tok, buf', pos'⟩
  · rfl
  dsimp only
  cases operationOf (textAt buf' tok) with
  | none => rfl
  | some op => rfl

/-- Where the levels of a topic are compared with `keys`. -/
theorem matchLevels_spec {keys : List (List UInt8)} (hkeys : ∀ key ∈ keys, 0 ∉ key)
    {a s : List UInt8} (h0 : 0 ∉ s) :
    (keys <+: levels s ∧ ∃ a' s', matchLevels keys (a ++ s) a.length =
        some (some (a' ++ s', a'.length)) ∧ 0 ∉ s' ∧ levels s = keys ++ levels s') ∨
      ¬ keys <+: levels s ∧ matchLevels keys (a ++ s) a.length =
        if levels s <+: keys then none else some none := by
  induction keys generalizing a s with
  | nil => exact .inl ⟨List.nil_prefix, a, s, rfl, h0, rfl⟩
  | cons key keys ih =>
    have hcall := CStr.strtok_tokens (d := 47) (a := a) (by decide) h0
    cases htok : tokens 47 s with
    | nil =>
      rw [htok] at hcall
      obtain ⟨q, hq⟩ : ∃ q, CStr.strtok 47 (a ++ s) a.length = (none, q) := ⟨_, Prod.ext hcall rfl⟩
      have hlevels : levels s = [] := htok
      right
      rw [hlevels, if_pos List.nil_prefix]
      refine ⟨fun h => absurd (List.prefix_nil.1 h) (List.cons_ne_nil _ _), ?_⟩
      unfold matchLevels
      rw [hq]
    | cons t ts =>
      rw [htok] at hcall
      obtain ⟨p, a', s', hstrtok, htext, h0', rfl⟩ := hcall
      have hlevels : levels s = t :: levels s' := htok
      have ht0 : 0 ∉ t := by
        rw [← htext]
        exact CStr.zero_notMem_textAt _ _
      have hcmp : strcmp t key = 0 ↔ t = key :=
        CStr.strcmp_eq_zero ht0 (hkeys key List.mem_cons_self)
      have hmatch : matchLevels (key :: keys) (a ++ s) a.length =
          if strcmp t key = 0 then matchLevels keys (a' ++ s') a'.length else some none := by
        rw [matchLevels, hstrtok]
        simp only [htext]
      rw [hmatch, hlevels]
      by_cases heq : t = key
      · rw [if_pos (hcmp.2 heq), heq, List.cons_prefix_cons]
        obtain ⟨hpre, a'', s'', hm, h0'', hl⟩ | ⟨hpre, hm⟩ :=
          ih (fun k hk => hkeys k (List.mem_cons_of_mem _ hk)) (a := a') h0'
        · exact .inl ⟨⟨rfl, hpre⟩, a'', s'', hm, h0'', by rw [hl, List.cons_append]⟩
        · refine .inr ⟨fun h => hpre h.2, hm.trans ?_⟩
          simp only [List.cons_prefix_cons, true_and]
      · rw [if_neg fun h => heq (hcmp.1 h), if_neg fun h => heq (List.cons_prefix_cons.1 h).1]
        exact .inr ⟨fun h => heq (List.cons_prefix_cons.1 h).1.symm, rfl⟩

theorem operationOf_eq_some {level : List UInt8} (h0 : 0 ∉ level) {op : Operation} :
    operationOf level = some op ↔ level = op.name := by
  have hname : ∀ op : Operation, 0 ∉ op.name := fun op => by cases op <;> decide
  have hcmp : ∀ op : Operation, decide (strcmp level op.name = 0) = decide (level = op.name) :=
    fun op => decide_eq_decide.2 (CStr.strcmp_eq_zero h0 (hname op))
  have hfind : operationOf level = [Operation.slot, .cubby, .config, .device, .ota, .lowpower].find?
      fun op => decide (level = op.name) := congrArg (List.find? · _) (funext hcmp)
  rw [hfind]
  constructor
  · intro h
    have hop := List.find?_some (p := fun op : Operation => decide (level = op.name)) h
    exact of_decide_eq_true hop
  · rintro rfl
    cases op <;> decide

theorem ownLevels_noNul : ∀ key ∈ ownLevels b d, 0 ∉ key := by
  intro key hkey
  simp only [ownLevels, List.mem_cons, List.not_mem_nil, or_false] at hkey
  obtain rfl | rfl | rfl | rfl := hkey
  · decide
  · exact b.productkey_noNul
  · exact CStr.zero_notMem_textAt _ _
  · decide

/-- What the levels of a topic lead to. -/
theorem rspLevels_cases (h0 : 0 ∉ topic) :
    (∃ t ts, levels topic = ownLevels b d ++ t :: ts ∧ 0 ∉ t ∧
        rspLevels b d topic = some (operationOf t)) ∨
      (levels topic = ownLevels b d ∧ rspLevels b d topic = none) ∨
      ¬ ownLevels b d <+: levels topic ∧
        rspLevels b d topic = if levels topic <+: ownLevels b d then none else some none := by
  have hspec := matchLevels_spec (ownLevels_noNul (b := b) (d := d)) (a := []) h0
  rw [List.nil_append, show ([] : List UInt8).length = 0 from rfl] at hspec
  unfold rspLevels
  rcases hspec with ⟨-, a, s, hm, h0', hl⟩ | ⟨hpre, hm⟩
  · rw [hm, hl]
    simp only
    have hcall := CStr.strtok_tokens (d := 47) (a := a) (by decide) h0'
    cases htok : tokens 47 s with
    | nil =>
      rw [htok] at hcall
      obtain ⟨q, hq⟩ : ∃ q, CStr.strtok 47 (a ++ s) a.length = (none, q) := ⟨_, Prod.ext hcall rfl⟩
      rw [hq, show levels s = [] from htok, List.append_nil]
      exact .inr (.inl ⟨rfl, rfl⟩)
    | cons t ts =>
      rw [htok] at hcall
      obtain ⟨p, a', s', hstrtok, htext, -, -⟩ := hcall
      rw [hstrtok, show levels s = t :: ts from htok]
      simp only [htext]
      refine .inl ⟨t, ts, rfl, ?_, rfl⟩
      rw [← htext]
      exact CStr.zero_notMem_textAt _ _
  · refine .inr (.inr ⟨hpre, ?_⟩)
    rw [hm]
    by_cases hshort : levels topic <+: ownLevels b d
    · rw [if_pos hshort, if_pos hshort]
    · rw [if_neg hshort, if_neg hshort]

/-- The levels are those of the operation exactly on this device's own topics. -/
theorem rspLevels_eq_some_iff (h0 : 0 ∉ topic) {op : Operation} :
    rspLevels b d topic = some (some op) ↔ OwnTopic b d op topic := by
  unfold OwnTopic
  rcases rspLevels_cases (b := b) (d := d) h0 with
    ⟨t, ts, hl, ht0, hrsp⟩ | ⟨hl, hrsp⟩ | ⟨hpre, hrsp⟩
  · rw [hrsp, hl, List.prefix_append_right_inj, List.cons_prefix_cons, Option.some.injEq,
      operationOf_eq_some ht0]
    exact ⟨fun h => ⟨h.symm, List.nil_prefix⟩, fun h => h.1.symm⟩
  · rw [hrsp, hl]
    constructor
    · intro h
      cases h
    · intro h
      have hlen := h.length_le
      rw [List.length_append, List.length_singleton] at hlen
      omega
  · refine ⟨fun h => ?_, fun h => absurd ((List.prefix_append _ _).trans h) hpre⟩
    rw [hrsp] at h
    split at h
    · cases h
    · cases h

/-- A level is missing exactly where the topic ends in front of the operation. -/
theorem rspLevels_eq_none_iff (h0 : 0 ∉ topic) :
    rspLevels b d topic = none ↔ levels topic <+: ownLevels b d := by
  rcases rspLevels_cases (b := b) (d := d) h0 with ⟨t, ts, hl, -, hrsp⟩ | ⟨hl, hrsp⟩ | ⟨-, hrsp⟩
  · rw [hrsp, hl]
    constructor
    · intro h
      cases h
    · intro h
      have hlen := h.length_le
      rw [List.length_append, List.length_cons] at hlen
      omega
  · rw [hrsp, hl]
    exact iff_of_true rfl (List.prefix_refl _)
  · rw [hrsp]
    by_cases hshort : levels topic <+: ownLevels b d
    · rw [if_pos hshort]
      exact iff_of_true rfl hshort
    · rw [if_neg hshort]
      refine iff_of_false ?_ hshort
      rintro ⟨⟩

/-! ## Messages that change nothing -/

/-- The call returns 0 and leaves the state. -/
def Ignored (d : Device) (x : Option (Option RspRet)) : Prop :=
  ∃ r, x = some (some r) ∧ r.ret = 0 ∧ r.device = d

/-- The commands of a device message that do something. -/
def deviceCommands : List Nat := [9, 10, 12, 13, 14, 15, 16, 18, 19, 20, 21, 36]

/-- The message has nothing new: its code is not accepted, the rows of a slot message are empty, and
the command of a device message is none that is carried out in any case. -/
def Repeats (d : Device) : RspMsg b → Prop
  | .slot m => ¬ Accepts d m.header.opCode ∧
      (d.pbCmdByteUartSendBuf m.index).take 21 = List.replicate 21 0 ∧
      (d.nfcpwdUartSendBuf m.index).take 21 = List.replicate 21 0
  | .cubby m => ¬ Accepts d m.header.opCode
  | .config m => ¬ Accepts d m.header.opCode
  | .device m => ¬ Accepts d m.header.opCode ∧ m.command.toNat ∉ deviceCommands
  | .ota _ | .lowpower _ => False

theorem noteOpCode_of_not_accepts {opCode : UInt32} (h : ¬ Accepts d opCode) :
    d.noteOpCode opCode = d := by
  unfold Device.noteOpCode
  rw [acceptOpCode_of_not_accepts h, Option.getD_none]

theorem noteOpCode_log (opCode : UInt32) : (d.noteOpCode opCode).log = d.log := by
  by_cases h : Accepts d opCode
  · unfold Device.noteOpCode
    rw [acceptOpCode_of_accepts h]
    rfl
  · rw [noteOpCode_of_not_accepts h]

/-- A message whose code is accepted changes the stored code. -/
theorem device_ne_of_accepts {netWork : NetworkWorkStep} {msg : RspMsg b} {r : RspRet}
    (h : rspHandle netWork d msg = some r) (hacc : Accepts d msg.opCode) : r.device ≠ d := by
  intro heq
  have hcode := rspHandle_cloudOpCode h
  rw [heq, nextOpCode, if_pos hacc] at hcode
  obtain hlt | ⟨-, hlt⟩ := hacc
  · exact UInt32.lt_irrefl _ (hcode ▸ hlt)
  · exact UInt32.lt_irrefl _ (hcode ▸ hlt)

/-- A state with a longer log is another one. -/
theorem ne_of_log_lt {d' : Device} (h : d.log.length < d'.log.length) : d' ≠ d := by
  rintro rfl
  exact Nat.lt_irrefl _ h

/-- A device message does nothing but by its command. -/
theorem deviceCommand_leaves_iff {netWork : NetworkWorkStep} {m : DeviceCommand}
    (h : ¬ Accepts d m.header.opCode) : ((deviceCommand netWork d m).ret = 0 ∧
      (deviceCommand netWork d m).device = d) ↔ m.command.toNat ∉ deviceCommands := by
  have hgrows : ∀ {d' : Device} {e : Effect}, d'.log = d.log ++ [e] → d' ≠ d := by
    intro d' e hlog
    refine ne_of_log_lt ?_
    rw [hlog, List.length_append]
    exact Nat.lt_succ_self _
  unfold deviceCommand
  rw [noteOpCode_of_not_accepts h]
  simp only
  split
  case h_3 hcommand => exact iff_of_true ⟨rfl, rfl⟩ (by rw [hcommand]; decide)
  case h_14 h9 h10 _ h12 h13 h14 h15 h16 h18 h19 h20 h21 h36 =>
    refine iff_of_true ⟨rfl, rfl⟩ ?_
    simp only [deviceCommands, List.mem_cons, List.not_mem_nil, or_false, not_or]
    exact ⟨h9, h10, h12, h13, h14, h15, h16, h18, h19, h20, h21, h36⟩
  case h_6 hcommand =>
    refine iff_of_false (fun hleft => ?_) (by rw [hcommand]; decide)
    exact absurd (congrArg (fun d : Device => d.log.length) hleft.2)
      (by simp [Device.rspRet, Device.emit, Device.writeLoginInfo])
  case h_7 hcommand =>
    refine iff_of_false ?_ (by rw [hcommand]; decide)
    split
    · exact fun hleft => hgrows rfl hleft.2
    · intro hleft
      cases hleft.1
  all_goals
    rename_i hcommand
    exact iff_of_false (fun hleft => hgrows rfl hleft.2) (by rw [hcommand]; decide)

theorem otaCommand_device_ne (m : Ota b) : (otaCommand m d).device ≠ d := by
  refine ne_of_log_lt ?_
  have hlog := congrArg List.length (noteOpCode_log (d := d) m.header.opCode)
  unfold otaCommand
  simp only
  split <;> split <;>
    simp only [Device.rspRet, Device.emit, List.length_append, List.length_singleton] <;> omega

theorem lowpowerCommand_device_ne (m : LowpowerCommand) : (lowpowerCommand d m).device ≠ d := by
  refine ne_of_log_lt ?_
  have hlog := congrArg List.length (noteOpCode_log (d := d) m.header.opCode)
  have hkept : (lowpowerCommand d m).device.log = (d.noteOpCode m.header.opCode).log ++
      [.publish (.lowPowerData m.header.traceId m.command)] := by
    unfold lowpowerCommand
    simp only
    split
    · split
      · rfl
      split
      · rfl
      · rfl
    · rfl
  rw [hkept, List.length_append, hlog]
  exact Nat.lt_succ_self _

/-- A message is handled without a trace exactly when it has nothing new. -/
theorem rspHandle_leaves_iff {netWork : NetworkWorkStep} {msg : RspMsg b} :
    (∃ r, rspHandle netWork d msg = some r ∧ r.ret = 0 ∧ r.device = d) ↔ Repeats d msg := by
  by_cases hacc : Accepts d msg.opCode
  · refine iff_of_false ?_ fun h => ?_
    · rintro ⟨r, hr, -, hdev⟩
      exact device_ne_of_accepts hr hacc hdev
    · cases msg with
      | slot m => exact h.1 hacc
      | cubby m => exact h hacc
      | config m => exact h hacc
      | device m => exact h.1 hacc
      | ota m => exact h
      | lowpower m => exact h
  cases msg with
  | slot m =>
    obtain ⟨_, ⟨⟩, hr⟩ | ⟨hne, -⟩ := @rspHandle_rejected b d netWork (.slot m) trivial hacc
    · rw [hr]
      constructor
      · rintro ⟨_, ⟨⟩, -, hdev⟩
        exact ⟨hacc, clearRows_eq_self_iff.1 hdev⟩
      · rintro ⟨-, hrows⟩
        exact ⟨_, rfl, rfl, clearRows_eq_self_iff.2 hrows⟩
    · exact absurd rfl (hne m)
  | cubby m =>
    obtain ⟨_, ⟨⟩, -⟩ | ⟨-, hr⟩ := @rspHandle_rejected b d netWork (.cubby m) trivial hacc
    exact iff_of_true ⟨_, hr, rfl, rfl⟩ hacc
  | config m =>
    obtain ⟨_, ⟨⟩, -⟩ | ⟨-, hr⟩ := @rspHandle_rejected b d netWork (.config m) trivial hacc
    exact iff_of_true ⟨_, hr, rfl, rfl⟩ hacc
  | device m =>
    refine Iff.trans ?_ ((@deviceCommand_leaves_iff _ netWork _ hacc).trans
      (iff_and_self.2 fun _ => hacc))
    exact ⟨by rintro ⟨_, ⟨⟩, h⟩; exact h, fun h => ⟨_, rfl, h⟩⟩
  | ota m =>
    refine iff_of_false ?_ id
    rintro ⟨_, ⟨⟩, -, hdev⟩
    exact otaCommand_device_ne m hdev
  | lowpower m =>
    refine iff_of_false ?_ id
    rintro ⟨_, ⟨⟩, -, hdev⟩
    exact lowpowerCommand_device_ne m hdev

/-! ## Foreign topics -/

/-- On a topic that is not this device's own a call returns 0 and leaves the state; on no topic does
it compare a level that is missing. -/
structure ForeignTopicLaw (netWork : NetworkWorkStep) (d : Device) (dec : Decoder b)
    (topic pbdata : List UInt8) : Prop where
  present : pbdata.length < 200 → rspLevels b d topic ≠ none
  ignored : (∀ op, ¬ DeviceTopic b d op topic) →
    Ignored d (rspAnalyze netWork d dec topic pbdata)

/-- The message is taken for one of this device's operations, and has nothing new for it. -/
def TakenIdly (d : Device) (dec : Decoder b) (topic pbdata : List UInt8) : Prop :=
  ∃ op, OwnTopic b d op topic ∧ ∀ msg, dec.decode pbdata op = some msg → Repeats d msg

/-- No level of an own topic is missing, also where one of the own levels is empty. -/
theorem rspLevels_ne_none (h0 : 0 ∉ topic) {op : Operation} (hown : DeviceTopic b d op topic) :
    rspLevels b d topic ≠ none := by
  rw [Ne, rspLevels_eq_none_iff h0]
  intro hshort
  have hname : op.name ≠ [] := by cases op <;> decide
  obtain ⟨ts, hts⟩ := hown
  have hlevels : levels topic = (ownLevels b d ++ [op.name] ++ ts).filter (· ≠ []) := by
    rw [hts]
    rfl
  have hsub : ((levels topic).filter (· ≠ [])).length ≤
      ((ownLevels b d).filter (· ≠ [])).length := (hshort.sublist.filter _).length_le
  rw [hlevels, List.filter_filter] at hsub
  have hfilter : [op.name].filter (· ≠ []) = [op.name] :=
    List.filter_cons_of_pos (decide_eq_true hname)
  simp only [Bool.and_self, List.filter_append, List.length_append, hfilter,
    List.length_singleton] at hsub
  omega

end

/-- A foreign topic is ignored exactly when the length of the payload stops the call, or the topic
is taken for an own one and the message has nothing new. -/
theorem foreignTopicLaw_iff {b : Board} {netWork : NetworkWorkStep} {d : Device} {dec : Decoder b}
    {topic pbdata : List UInt8} (h0 : 0 ∉ topic) :
    ForeignTopicLaw netWork d dec topic pbdata ↔
      (∃ op, DeviceTopic b d op topic) ∨ (200 ≤ pbdata.length ∧ pbdata.length < 256) ∨
        pbdata.length < 200 ∧ TakenIdly d dec topic pbdata := by
  by_cases hown : ∃ op, DeviceTopic b d op topic
  · obtain ⟨op, hop⟩ := hown
    exact iff_of_true ⟨fun _ => rspLevels_ne_none h0 hop, fun hforeign => absurd hop (hforeign op)⟩
      (.inl ⟨op, hop⟩)
  rw [or_iff_right hown]
  rcases Nat.lt_or_ge pbdata.length 200 with hlt | hge
  · have hret : rspAnalyze netWork d dec topic pbdata =
        match rspLevels b d topic with
        | none => none
        | some none => some none
        | some (some op) => (rspOperation netWork d dec op pbdata).map some := by
      rw [rspAnalyze_eq, if_neg (by omega), if_neg (by omega)]
    constructor
    · rintro ⟨-, hignored⟩
      obtain ⟨r, hr, hret0, hdev⟩ := hignored (not_exists.1 hown)
      rw [hret] at hr
      split at hr
      · cases hr
      · cases hr
      · rename_i op hlevels
        refine .inr ⟨hlt, op, (rspLevels_eq_some_iff h0).1 hlevels, fun msg hmsg => ?_⟩
        obtain ⟨_, hop, ⟨⟩⟩ := Option.map_eq_some_iff.1 hr
        unfold rspOperation at hop
        rw [hmsg] at hop
        exact rspHandle_leaves_iff.1 ⟨r, hop, hret0, hdev⟩
    · rintro (⟨hlong, -⟩ | ⟨-, op, htaken, hidle⟩)
      · exact absurd hlt (Nat.not_lt_of_le hlong)
      have hlevels := (rspLevels_eq_some_iff h0).2 htaken
      refine ⟨fun _ hnone => ?_, fun _ => ?_⟩
      · rw [hlevels] at hnone
        cases hnone
      · rw [hret, hlevels]
        simp only [rspOperation]
        cases hmsg : dec.decode pbdata op with
        | none => exact ⟨d.rspRet 0, rfl, rfl, rfl⟩
        | some msg =>
          obtain ⟨r, hr, hr0⟩ := (@rspHandle_leaves_iff _ _ netWork _).2 (hidle msg hmsg)
          refine ⟨r, ?_, hr0⟩
          simp only [hr, Option.map_some]
  · rw [or_iff_left fun h => absurd h.1 (Nat.not_lt_of_le hge)]
    constructor
    · rintro ⟨-, hignored⟩
      obtain ⟨r, hr, -⟩ := hignored (not_exists.1 hown)
      rw [rspAnalyze_eq] at hr
      split at hr
      · cases hr
      · exact ⟨hge, Nat.lt_of_not_le ‹_›⟩
    · rintro ⟨-, hshort⟩
      refine ⟨fun h => absurd h (Nat.not_lt_of_le hge), fun _ => ?_⟩
      rw [rspAnalyze_eq, if_neg (Nat.not_le_of_lt hshort), if_pos hge]
      exact ⟨_, rfl, rfl, rfl⟩

/-- A decoder that takes nothing. -/
def noDecoder : Decoder .small :=
  ⟨fun _ => none, fun _ => none, fun _ => none, fun _ => none, fun _ => none, fun _ => none⟩

/-- A device with the key `"k"`. -/
def keyedDevice : Device :=
  { Device.reset 3 with loginInfo := { (Device.reset 3).loginInfo with deviceKey := ascii "k" } }

/-- A topic of another product with a payload that is too long, and one with doubled slashes, which
is taken for an own one, with a payload that cannot be decoded. -/
theorem foreignTopicLaw_long :
    ForeignTopicLaw .normal (.reset 3) noDecoder (ascii "device/other") (List.replicate 200 0) ∧
      ForeignTopicLaw .normal keyedDevice noDecoder
        (ascii "device//" ++ Board.small.pucProductkey ++ ascii "///k/command/slot") [] :=
  ⟨(foreignTopicLaw_iff (by decide)).2 (.inr (.inl (by rw [List.length_replicate]; decide))),
    (foreignTopicLaw_iff (by decide +kernel)).2 (.inr (.inr ⟨by decide, .slot, by decide +kernel,
      fun msg hmsg => by cases hmsg⟩))⟩

/-- A topic of another kind: the function ends without a return value. -/
theorem not_foreignTopicLaw_other : ¬ ∀ (b : Board) (netWork : NetworkWorkStep) (d : Device)
    (dec : Decoder b) (topic pbdata : List UInt8), 0 ∉ topic →
      ForeignTopicLaw netWork d dec topic pbdata := by
  intro h
  have hlaw := h .small .normal (.reset 3) noDecoder (ascii "other") [] (by decide)
  have hnoReturn : rspAnalyze .normal (.reset 3) noDecoder (ascii "other") [] = some none := by
    rw [rspAnalyze_eq]
    have hlevels : rspLevels .small (.reset 3) (ascii "other") = some none := by decide +kernel
    rw [hlevels]
    rfl
  have hforeign : ∀ op, ¬ DeviceTopic .small (.reset 3) op (ascii "other") := by
    intro op
    cases op <;> decide +kernel
  obtain ⟨r, hr, -⟩ := hlaw.ignored hforeign
  rw [hnoReturn] at hr
  cases hr

end AppXd.Net4g
