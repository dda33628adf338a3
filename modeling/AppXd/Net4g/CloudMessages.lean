import AppXd.Nanopb.Compat
import AppXd.Nanopb.CText
import AppXd.Nanopb.RoutePb
import AppXd.Net4g.ActiveProcess
import AppXd.Net4g.HttpBody
import AppXd.Net4g.Route

/-!
# Responses as messages

The responses are messages, and the callbacks cut them out of the module's answer as texts. A response
that says success, and has nothing in it that is present and empty, comes through if it does not end
with a blank, in a build that has memory for its strings.
-/

namespace AppXd.Net4g

open CStr (ascii textAt)
open Nanopb (Value FieldType Heap Hold Full wire normal pbDecode wellFormed cString)

/-- What a string of a message reads as. -/
def messageText (pData : Option (List UInt8)) : Option CStr.Text :=
  pData.map fun s => ⟨textAt s 0, CStr.zero_notMem_textAt s 0⟩

/-- A string that is put into a message. -/
def messageString (s : Option CStr.Text) : Option (List UInt8) := s.map CStr.Text.chars

/-! ## The structures -/

def ActiveRsp.ofValues : List Value → Option ActiveRsp
  | [.bool _, .int _, .string _, .message _ [.string deviceKey, .string deviceSecret, .int t,
      .string sign, .string deviceNo]] =>
    some ⟨messageText deviceKey, messageText deviceSecret, t, messageText sign,
      messageText deviceNo⟩
  | _ => none

/-- A response with data. -/
def ActiveRsp.toValues (rsp : ActiveRsp) (success : Bool) (code : Int) (msg : Option CStr.Text) :
    List Value :=
  [.bool success, .int code, .string (messageString msg), .message true
    [.string (messageString rsp.deviceKey), .string (messageString rsp.deviceSecret), .int rsp.t,
      .string (messageString rsp.sign), .string (messageString rsp.deviceNo)]]

/-- `pb_decode` for the response to the activation request. -/
def decodeActiveRsp (heap : Heap) (l : List UInt8) : Option ActiveRsp :=
  (pbDecode Nanopb.activeRsp heap l).bind fun x => ActiveRsp.ofValues x.1

/-- The response to the confirm request, of which only `success` is looked at. -/
def confirmRspOfValues : List Value → Option Bool
  | [.bool success, .int _, .string _] => some success
  | _ => none

def confirmRspToValues (success : Bool) (code : Int) (msg : Option CStr.Text) : List Value :=
  [.bool success, .int code, .string (messageString msg)]

/-- `pb_decode` for the response to the confirm request. -/
def decodeActiveConfirmRsp (heap : Heap) (l : List UInt8) : Option Bool :=
  (pbDecode Nanopb.activeConfirmRsp heap l).bind fun x => confirmRspOfValues x.1

def RouteRsp.ofValues : List Value → Option RouteRsp
  | [.bool success, .int _, .string _, .message _ [.string broker, .int _, .string _, .int keepalive,
      .int reactive, .int _]] =>
    some ⟨success, messageText broker, keepalive, reactive⟩
  | _ => none

/-- A response with data, with what the callback does not look at. -/
def RouteRsp.toValues (rsp : RouteRsp) (code : Int) (msg : Option CStr.Text) (t : Int)
    (sign : Option CStr.Text) (maxReportDelay : Int) : List Value :=
  [.bool rsp.success, .int code, .string (messageString msg), .message true
    [.string (messageString rsp.broker), .int t, .string (messageString sign), .int rsp.keepalive,
      .int rsp.reactive, .int maxReportDelay]]

/-- `pb_decode` for the response to the route request. -/
def decodeRouteRsp (heap : Heap) (l : List UInt8) : Option RouteRsp :=
  (pbDecode Nanopb.routeRsp heap l).bind fun x => RouteRsp.ofValues x.1

/-! ## Bodies -/

/-- A message between blanks. All of it fits and does not have the tail key in it, and the message does
not end with a blank. -/
structure SoundBody (m : ModuleType) (pre b post : List UInt8) : Prop where
  front : ∀ x ∈ pre, lineBlank x = true
  behind : ∀ x ∈ post, lineBlank x = true
  length_le : (pre ++ (b ++ post)).length ≤ 199
  tail q : ¬ Seq.OccursAt (netRouteActiveRspTail m) (pre ++ (b ++ post)) q
  last : ∀ x ∈ b.getLast?, lineBlank x = false

theorem lineBlank_crlf : ∀ x ∈ ascii "\r\n", lineBlank x = true :=
  List.all_eq_true.1 (by decide)

section
variable {m : ModuleType} {fields : List (Nanopb.Field FieldType)} {values : List Value} {α : Type}
  {pre post : List UInt8}

theorem textAt_of_notMem {s : List UInt8} (h : 0 ∉ s) : textAt s 0 = s := by
  refine List.takeWhile_eq_self_iff.2 fun b hb => decide_eq_true ?_
  rintro rfl
  exact h hb

theorem zero_notMem_blanks {s : List UInt8} (h : ∀ x ∈ s, lineBlank x = true) : 0 ∉ s :=
  fun h0 => absurd (h 0 h0) (by decide)

/-- A message that is a text and begins with no blank is decoded as it was written. -/
theorem httpDecode_wire (hwf : wellFormed fields = true) (hold : Hold fields values)
    (hfull : Full fields values) (hbody : SoundBody m pre (wire fields values) post)
    (hhead : ∃ b l, wire fields values = b :: l ∧ lineBlank b = false)
    (ofValues : List Value → Option α) :
    httpDecode m (fun l => (pbDecode fields .roomy l).bind fun x => ofValues x.1)
      (httpAnswer m (pre ++ (wire fields values ++ post))) =
      some (ofValues (normal fields values)) := by
  have hlen := hbody.length_le
  have hlen' : (wire fields values).length ≤ 199 := by
    rw [List.length_append, List.length_append] at hlen
    omega
  have hlen32 : (wire fields values).length < 2 ^ 32 := Nat.lt_of_le_of_lt hlen' (by decide)
  have h0 := (Nanopb.zero_notMem_wire_iff hwf hold hlen32).2 hfull
  have hdecode := Nanopb.pbDecode_wire hwf hold hlen32
  obtain ⟨b, l, heq, hb⟩ := hhead
  have hself : Seq.trim lineBlank (wire fields values) = wire fields values := by
    refine (Seq.trim_eq_self_iff _).2 ⟨fun x hx => ?_, hbody.last⟩
    rw [heq] at hx
    exact Option.some.inj hx ▸ hb
  have hne : wire fields values ≠ [] := heq ▸ List.cons_ne_nil b l
  have htrim := Seq.trim_append hbody.front hbody.behind hne hself
  have h0' : 0 ∉ pre ++ (wire fields values ++ post) := by
    rw [List.mem_append, List.mem_append]
    rintro (h | h | h)
    · exact zero_notMem_blanks hbody.front h
    · exact h0 h
    · exact zero_notMem_blanks hbody.behind h
  unfold httpDecode
  rw [httpRspValue_answer h0' hlen hbody.tail, htrim, if_neg hne]
  simp only
  rw [textAt_of_notMem h0, hdecode, if_pos (Nat.lt_succ_of_le hlen')]
  rfl

theorem normal_messageString (s : Option CStr.Text) :
    FieldType.normal .string (.string (messageString s)) = .string (messageString s) := by
  cases s with
  | none => rfl
  | some s =>
    have htext : cString s.chars = s.chars := textAt_of_notMem s.noNul
    rw [messageString, Option.map_some, FieldType.normal, htext]

theorem messageText_messageString (s : Option CStr.Text) : messageText (messageString s) = s := by
  cases s with
  | none => rfl
  | some s =>
    obtain ⟨chars, noNul⟩ := s
    simp only [messageText, messageString, Option.map_some, textAt_of_notMem noNul]

theorem full_messageString {s : Option CStr.Text} (h : ∀ t ∈ s, t.chars ≠ []) :
    FieldType.Full .string (.string (messageString s)) := by
  cases s with
  | none => trivial
  | some s =>
    have htext : cString s.chars = s.chars := textAt_of_notMem s.noNul
    rw [messageString, Option.map_some, FieldType.Full, htext]
    exact h s rfl

end

/-! ## The response to the activation request -/

section
variable {m : ModuleType} {rsp : ActiveRsp} {success : Bool} {code : Int} {msg : Option CStr.Text}
  {pre post : List UInt8}

/-- The numbers are in their range, and what is present has some characters. -/
structure ActiveRsp.Sendable (rsp : ActiveRsp) (code : Int) (msg : Option CStr.Text) : Prop where
  code : code.bmod (2 ^ 16) = code
  t : rsp.t.bmod (2 ^ 64) = rsp.t
  filled : ∀ s ∈ [msg, rsp.deviceKey, rsp.deviceSecret, rsp.sign, rsp.deviceNo], ∀ t ∈ s,
    t.chars ≠ []

theorem ActiveRsp.normal_toValues :
    normal Nanopb.activeRsp (rsp.toValues success code msg) = rsp.toValues success code msg := by
  simp [Nanopb.activeRsp, Nanopb.activeRspData, toValues, normal_messageString]

theorem ActiveRsp.ofValues_toValues : ofValues (rsp.toValues success code msg) = some rsp := by
  simp only [toValues, ofValues, messageText_messageString]

theorem ActiveRsp.Sendable.hold (h : rsp.Sendable code msg) :
    Hold Nanopb.activeRsp (rsp.toValues success code msg) :=
  ⟨trivial, ⟨by decide, h.code⟩, trivial, ⟨trivial, trivial, ⟨by decide, h.t⟩, trivial, trivial,
    trivial⟩, trivial⟩

/-- A string that is present is written. -/
theorem wire_string_ne_nil (tag : Nat) (s : CStr.Text) :
    FieldType.wire .string tag (.string (messageString (some s))) ≠ [] :=
  List.append_ne_nil_of_left_ne_nil (Nanopb.pbEncodeVarint_ne_nil _) _

theorem ActiveRsp.Sendable.full (h : rsp.Sendable code msg) {deviceNo : CStr.Text}
    (hno : rsp.deviceNo = some deviceNo) :
    Full Nanopb.activeRsp (rsp.toValues success code msg) := by
  have hfilled : ∀ s ∈ [msg, rsp.deviceKey, rsp.deviceSecret, rsp.sign, rsp.deviceNo],
      FieldType.Full .string (.string (messageString s)) :=
    fun s hs => full_messageString (h.filled s hs)
  simp only [List.forall_mem_cons] at hfilled
  obtain ⟨hmsg, hkey, hsecret, hsign, hno', -⟩ := hfilled
  refine ⟨trivial, trivial, hmsg, fun _ => ⟨?_, hkey, hsecret, trivial, hsign, hno', trivial⟩,
    trivial⟩
  rw [hno]
  simp [Nanopb.activeRspData, wire, wire_string_ne_nil]

/-- The callback on a response that is written as a message. -/
theorem net4gActivePostRspCb_wire {e : ActiveEnv} {released : List UInt8 → List UInt8} {d : Device}
    {deviceNo : CStr.Text} (hdec : e.decodeActive = decodeActiveRsp .roomy)
    (hno : rsp.deviceNo = some deviceNo) (hs : rsp.Sendable code msg)
    (hbody : SoundBody m pre (wire Nanopb.activeRsp (rsp.toValues true code msg)) post) :
    net4gActivePostRspCb e m released (httpAnswer m
      (pre ++ (wire Nanopb.activeRsp (rsp.toValues true code msg) ++ post))) d =
      activeApply e released d rsp := by
  have hwf := Nanopb.routePb_wellFormed Nanopb.activeRsp (by simp)
  have hwire := httpDecode_wire hwf hs.hold (hs.full hno) hbody ⟨8, _, rfl, rfl⟩ ActiveRsp.ofValues
  rw [ActiveRsp.normal_toValues, ActiveRsp.ofValues_toValues] at hwire
  have hdecode : httpDecode m e.decodeActive (httpAnswer m
      (pre ++ (wire Nanopb.activeRsp (rsp.toValues true code msg) ++ post))) = some (some rsp) :=
    hdec ▸ hwire
  unfold net4gActivePostRspCb
  rw [hdecode]

/-- Without `PB_ENABLE_MALLOC` a response has no number for the device. -/
theorem decodeActiveRsp_deviceNo {heap : Heap} {l : List UInt8} (hmalloc : heap.enableMalloc = false)
    (h : decodeActiveRsp heap l = some rsp) : rsp.deviceNo = none := by
  obtain ⟨⟨values, heap'⟩, hdec, h⟩ := Option.bind_eq_some_iff.1 h
  have hvalues : Nanopb.AllStringless values := Nanopb.pbDecode_stringless hmalloc hdec
  unfold ActiveRsp.ofValues at h
  split at h
  · rename_i hmessage
    cases h
    subst hmessage
    obtain ⟨-, -, -, ⟨-, -, -, -, hno, -⟩, -⟩ := hvalues
    exact congrArg messageText hno
  · cases h

/-- So nothing that the module answers is accepted there. -/
theorem net4gActivePostRspCb_malloc {e : ActiveEnv} {released : List UInt8 → List UInt8}
    {d d' : Device} {heap : Heap} {srcData : List UInt8} (hdec : e.decodeActive = decodeActiveRsp heap)
    (h : net4gActivePostRspCb e m released srcData d = some (true, d')) :
    heap.enableMalloc = true := by
  by_contra hno
  have hmalloc : heap.enableMalloc = false := Bool.eq_false_iff.2 hno
  unfold net4gActivePostRspCb at h
  cases hrsp : httpDecode m e.decodeActive srcData with
  | none => rw [hrsp] at h; cases h
  | some r =>
    cases r with
    | none => rw [hrsp] at h; cases h
    | some rsp =>
      rw [hrsp] at h
      obtain ⟨-, -, deviceNo, -, -, -, hsome, -⟩ := fits_of_activeApply h
      unfold httpDecode at hrsp
      split at hrsp
      · cases hrsp
      · split at hrsp
        · rw [hdec, Option.some.injEq] at hrsp
          rw [decodeActiveRsp_deviceNo hmalloc hrsp] at hsome
          cases hsome
        · cases hrsp

/-- What the callback accepts it has written, with the flag for the confirm request. -/
theorem stored_of_activeApply {e : ActiveEnv} {released : List UInt8 → List UInt8} {d d' : Device}
    (h : activeApply e released d rsp = some (true, d')) :
    d'.Stored (textAt d'.loginInfo.deviceKey 0) (textAt d'.loginInfo.deviceSecret 0)
      (textAt d'.loginInfo.deviceNo 0) := by
  obtain ⟨deviceKey, deviceSecret, deviceNo, sign, hkey, hsecret, hno, hsign, hf⟩ :=
    fits_of_activeApply h
  rw [activeApply_of_fits hkey hsecret hno hsign hf] at h
  dsimp only at h
  split at h
  · cases h
    exact ⟨rfl, rfl, rfl, rfl, rfl, rfl⟩
  · cases h

/-! ## The response to the confirm request -/

/-- The device counts as active, in the flash too. -/
structure Device.Active (d : Device) (deviceKey deviceSecret deviceNo : List UInt8) : Prop where
  deviceKey : textAt d.loginInfo.deviceKey 0 = deviceKey
  deviceSecret : textAt d.loginInfo.deviceSecret 0 = deviceSecret
  deviceNo : textAt d.loginInfo.deviceNo 0 = deviceNo
  activeFlag : d.loginInfo.activeFlag = 0xAA
  flash : d.loginFlash = d.loginInfo
  backFlash : d.loginBackFlash = d.loginInfo
  sysActiveFlag : d.sysInfo.net4G.activeFlag = 0xAA
  sysFlash : d.sysFlash = d.sysInfo

theorem confirmRsp_hold (success : Bool) (hcode : code.bmod (2 ^ 16) = code) :
    Hold Nanopb.activeConfirmRsp (confirmRspToValues success code msg) :=
  ⟨trivial, ⟨by decide, hcode⟩, trivial, trivial⟩

theorem confirmRsp_normal (success : Bool) :
    normal Nanopb.activeConfirmRsp (confirmRspToValues success code msg) =
      confirmRspToValues success code msg := by
  simp [Nanopb.activeConfirmRsp, confirmRspToValues, normal_messageString]

/-- A response that says success makes the device active, whatever it has stored. -/
theorem net4gActiveConfirmRspCb_wire {e : ActiveEnv} (d : Device)
    (hdec : e.decodeConfirm = decodeActiveConfirmRsp .roomy) (hcode : code.bmod (2 ^ 16) = code)
    (hmsg : ∀ t ∈ msg, t.chars ≠ [])
    (hbody : SoundBody m pre
      (wire Nanopb.activeConfirmRsp (confirmRspToValues true code msg)) post) :
    ∃ d', net4gActiveConfirmRspCb e m (httpAnswer m (pre ++
        (wire Nanopb.activeConfirmRsp (confirmRspToValues true code msg) ++ post))) d =
          some (true, d') ∧
      d'.Active (textAt d.loginInfo.deviceKey 0) (textAt d.loginInfo.deviceSecret 0)
        (textAt d.loginInfo.deviceNo 0) := by
  have hwf := Nanopb.routePb_wellFormed Nanopb.activeConfirmRsp (by simp)
  have hfull : Full Nanopb.activeConfirmRsp (confirmRspToValues true code msg) :=
    ⟨trivial, trivial, full_messageString hmsg, trivial⟩
  have hwire := httpDecode_wire hwf (confirmRsp_hold true hcode) hfull hbody ⟨8, _, rfl, rfl⟩
    confirmRspOfValues
  rw [confirmRsp_normal] at hwire
  have hdecode : httpDecode m e.decodeConfirm (httpAnswer m (pre ++ (wire Nanopb.activeConfirmRsp
      (confirmRspToValues true code msg) ++ post))) = some (some true) :=
    hdec ▸ hwire
  unfold net4gActiveConfirmRspCb
  rw [hdecode]
  exact ⟨_, rfl, rfl, rfl, rfl, rfl, rfl, rfl, rfl, rfl⟩

/-! ## The activation -/

section
variable {e : ActiveEnv} {released : List UInt8 → List UInt8} {d : Device}
  {deviceKey deviceSecret deviceNo : CStr.Text} {confirmCode : Int} {confirmMsg : Option CStr.Text}
  {confirmPre confirmPost : List UInt8}

/-- The two answers of an activation, written as messages, make the device active with the credentials
that are signed in the first one, exactly when the build has `PB_ENABLE_MALLOC` and the old arrays and
the check of the signature let them. There is memory for all strings then. -/
theorem activation_wire {enableMalloc : Bool}
    (hpost : e.decodeActive = decodeActiveRsp ⟨enableMalloc, []⟩)
    (hconfirm : e.decodeConfirm = decodeActiveConfirmRsp ⟨enableMalloc, []⟩)
    (hv : rsp.Verified e deviceKey deviceSecret deviceNo) (hs : rsp.Sendable code msg)
    (hbody : SoundBody m pre (wire Nanopb.activeRsp (rsp.toValues true code msg)) post)
    (hcode : confirmCode.bmod (2 ^ 16) = confirmCode) (hmsg : ∀ t ∈ confirmMsg, t.chars ≠ [])
    (hbody' : SoundBody m confirmPre
      (wire Nanopb.activeConfirmRsp (confirmRspToValues true confirmCode confirmMsg)) confirmPost) :
    (∃ d' d'', net4gActivePostRspCb e m released (httpAnswer m
          (pre ++ (wire Nanopb.activeRsp (rsp.toValues true code msg) ++ post))) d =
            some (true, d') ∧
        net4gActiveConfirmRspCb e m (httpAnswer m (confirmPre ++
          (wire Nanopb.activeConfirmRsp (confirmRspToValues true confirmCode confirmMsg) ++
            confirmPost))) d' = some (true, d'') ∧
        d''.Active deviceKey.chars deviceSecret.chars deviceNo.chars) ↔
      enableMalloc = true ∧ PostOk e released d rsp := by
  cases enableMalloc with
  | false =>
    refine iff_of_false ?_ fun h => absurd h.1 Bool.false_ne_true
    rintro ⟨d', d'', happly, -⟩
    exact absurd (net4gActivePostRspCb_malloc hpost happly) Bool.false_ne_true
  | true =>
    rw [net4gActivePostRspCb_wire hpost hv.no hs hbody, ← activeApply_iff, eq_self_iff_true,
      true_and]
    constructor
    · rintro ⟨d', d'', happly, happly', hactive⟩
      obtain ⟨d₂, hd₂, hactive₂⟩ := net4gActiveConfirmRspCb_wire d' hconfirm hcode hmsg hbody'
      cases happly'.symm.trans hd₂
      have hstored := stored_of_activeApply happly
      -- the second callback keeps the credentials
      rw [hactive₂.deviceKey.symm.trans hactive.deviceKey,
        hactive₂.deviceSecret.symm.trans hactive.deviceSecret,
        hactive₂.deviceNo.symm.trans hactive.deviceNo] at hstored
      exact ⟨true, d', happly, (postLaw_of_verified hv).2 ⟨rfl, hstored⟩⟩
    · rintro ⟨ok, d', happly, hlaw⟩
      obtain ⟨rfl, hstored⟩ := (postLaw_of_verified hv).1 hlaw
      obtain ⟨d'', hd'', hactive⟩ := net4gActiveConfirmRspCb_wire d' hconfirm hcode hmsg hbody'
      rw [hstored.deviceKey, hstored.deviceSecret, hstored.deviceNo] at hactive
      exact ⟨d', d'', happly, hd'', hactive⟩

end

end

/-- The cloud's shared secret and MD5 sum, for the response that is signed for them. -/
def smallActiveEnv : ActiveEnv :=
  { signedEnv fun _ => ascii "8af2d1ba5f256e8c88b29a0b0e87e972" with
    decodeActive := decodeActiveRsp .roomy
    decodeConfirm := decodeActiveConfirmRsp .roomy }

/-- A device without credentials is activated. -/
theorem activation_wire_small :
    ∃ d' d'', net4gActivePostRspCb smallActiveEnv .ec800 id (httpAnswer .ec800
          (ascii "\r\n" ++ (wire Nanopb.activeRsp (signedRsp.toValues true 0 none) ++
            ascii "\r\n"))) (Device.reset 0) = some (true, d') ∧
        net4gActiveConfirmRspCb smallActiveEnv .ec800 (httpAnswer .ec800 (ascii "\r\n" ++
          (wire Nanopb.activeConfirmRsp (confirmRspToValues true 0 none) ++ ascii "\r\n"))) d' =
            some (true, d'') ∧
        d''.Active (ascii "k") (ascii "s") (ascii "n") := by
  have hv : signedRsp.Verified smallActiveEnv ⟨ascii "k", by decide⟩ ⟨ascii "s", by decide⟩
      ⟨ascii "n", by decide⟩ :=
    ⟨rfl, rfl, rfl, _, rfl, by decide⟩
  have hs : signedRsp.Sendable 0 none := ⟨by decide, by decide, by decide⟩
  have hbody : SoundBody .ec800 (ascii "\r\n")
      (wire Nanopb.activeRsp (signedRsp.toValues true 0 none)) (ascii "\r\n") :=
    ⟨lineBlank_crlf, lineBlank_crlf, by decide +kernel,
      Seq.not_occursAt_of_firstAt_none (by decide) (by decide +kernel), by decide +kernel⟩
  have hbody' : SoundBody .ec800 (ascii "\r\n")
      (wire Nanopb.activeConfirmRsp (confirmRspToValues true 0 none)) (ascii "\r\n") :=
    ⟨lineBlank_crlf, lineBlank_crlf, by decide +kernel,
      Seq.not_occursAt_of_firstAt_none (by decide) (by decide +kernel), by decide +kernel⟩
  have hok : PostOk smallActiveEnv id (Device.reset 0) signedRsp :=
    .signed hv rfl (by decide) (by decide) (by decide) (by decide)
  exact (activation_wire rfl rfl hv hs hbody (by decide)
    (fun t ht => absurd ht (Option.not_mem_none t)) hbody').2 ⟨rfl, hok⟩

/-! ## The response to the route request -/

section
variable {m : ModuleType} {rsp : RouteRsp} {code t maxReportDelay : Int} {msg sign : Option CStr.Text}
  {pre post : List UInt8}

/-- The numbers are in their range, and what is present has some characters. -/
structure RouteRsp.Sendable (rsp : RouteRsp) (code : Int) (msg : Option CStr.Text) (t : Int)
    (sign : Option CStr.Text) (maxReportDelay : Int) : Prop where
  code : code.bmod (2 ^ 16) = code
  t : t.bmod (2 ^ 64) = t
  keepalive : rsp.keepalive.bmod (2 ^ 16) = rsp.keepalive
  reactive : rsp.reactive.bmod (2 ^ 8) = rsp.reactive
  maxReportDelay : maxReportDelay.bmod (2 ^ 16) = maxReportDelay
  filled : ∀ s ∈ [msg, rsp.broker, sign], ∀ t ∈ s, t.chars ≠ []

theorem RouteRsp.normal_toValues :
    normal Nanopb.routeRsp (rsp.toValues code msg t sign maxReportDelay) =
      rsp.toValues code msg t sign maxReportDelay := by
  simp [Nanopb.routeRsp, Nanopb.routeData, toValues, normal_messageString]

theorem RouteRsp.ofValues_toValues :
    ofValues (rsp.toValues code msg t sign maxReportDelay) = some rsp := by
  simp only [toValues, ofValues, messageText_messageString]

theorem RouteRsp.Sendable.hold (h : rsp.Sendable code msg t sign maxReportDelay) :
    Hold Nanopb.routeRsp (rsp.toValues code msg t sign maxReportDelay) :=
  ⟨trivial, ⟨by decide, h.code⟩, trivial, ⟨trivial, ⟨by decide, h.t⟩, trivial,
    ⟨by decide, h.keepalive⟩, ⟨by decide, h.reactive⟩, ⟨by decide, h.maxReportDelay⟩, trivial⟩,
    trivial⟩

theorem RouteRsp.Sendable.full (h : rsp.Sendable code msg t sign maxReportDelay)
    {broker : CStr.Text} (hbroker : rsp.broker = some broker) :
    Full Nanopb.routeRsp (rsp.toValues code msg t sign maxReportDelay) := by
  have hfilled : ∀ s ∈ [msg, rsp.broker, sign],
      FieldType.Full .string (.string (messageString s)) :=
    fun s hs => full_messageString (h.filled s hs)
  simp only [List.forall_mem_cons] at hfilled
  obtain ⟨hmsg, hbroker', hsign, -⟩ := hfilled
  refine ⟨trivial, trivial, hmsg, fun _ => ⟨?_, hbroker', trivial, hsign, trivial, trivial, trivial,
    trivial⟩, trivial⟩
  rw [hbroker]
  simp [Nanopb.routeData, wire, wire_string_ne_nil]

/-- A route is stored: where the broker is, how often the connection is kept alive and how often the
device reports, with nothing left of the old credentials. -/
structure Device.TakesRoute (d d' : Device) (host digits : List UInt8) (keepalive : Int) : Prop where
  addr : textAt d'.globalInfo.mqtt.addr 0 = host
  port : d'.globalInfo.mqtt.port.toNat = CStr.digits 10 digits
  hbInterval : d'.globalInfo.mqtt.hbInterval = keepalive
  timerReportInterval :
    d'.globalInfo.mqtt.timerReportInterval = reportInterval d.sysInfo.cubbyInterval
  cubbyInterval : d'.sysInfo.cubbyInterval = reportInterval d.sysInfo.cubbyInterval
  cleared : ∀ l ∈ [d'.globalInfo.mqtt.password, d'.globalInfo.mqtt.token,
    d'.globalInfo.mqtt.secretKey], ∀ b ∈ l, b = 0

/-- The texts of a broker fit in the arrays that they go through, with a terminator where they are read
again. -/
structure Device.RouteRoom (noPowerOff : Bool) (d : Device) (host digits : List UInt8) : Prop where
  host_lt : host.length < 32
  digits_lt : digits.length < 10
  addr : host.length < d.globalInfo.mqtt.addr.length
  loginAddr : noPowerOff = true → host.length ≤ d.loginInfo.addr.length

/-- A response that can be used, written as a message, is stored exactly when there is room for it. -/
theorem deviceRouteRspCb_wire {noPowerOff : Bool} {d : Device} {host digits : List UInt8}
    (hu : rsp.Usable host digits) (hs : rsp.Sendable code msg t sign maxReportDelay)
    (hbody : SoundBody m pre
      (wire Nanopb.routeRsp (rsp.toValues code msg t sign maxReportDelay)) post) :
    (∃ d', deviceRouteRspCb noPowerOff d m (decodeRouteRsp .roomy) (httpAnswer m (pre ++
        (wire Nanopb.routeRsp (rsp.toValues code msg t sign maxReportDelay) ++ post))) =
          some (true, d') ∧ d.TakesRoute d' host digits rsp.keepalive) ↔
      d.RouteRoom noPowerOff host digits := by
  have hwf := Nanopb.routePb_wellFormed Nanopb.routeRsp (by simp)
  obtain ⟨broker, hbroker, -⟩ := hu.broker
  have hdecode : httpDecode m (decodeRouteRsp .roomy) (httpAnswer m (pre ++ (wire Nanopb.routeRsp
      (rsp.toValues code msg t sign maxReportDelay) ++ post))) = some (some rsp) := by
    have hhead : ∃ b l, wire Nanopb.routeRsp (rsp.toValues code msg t sign maxReportDelay) = b :: l ∧
        lineBlank b = false := by
      unfold RouteRsp.toValues
      rw [hu.success]
      exact ⟨8, _, rfl, rfl⟩
    have hwire := httpDecode_wire hwf hs.hold (hs.full hbroker) hbody hhead RouteRsp.ofValues
    rw [RouteRsp.normal_toValues, RouteRsp.ofValues_toValues] at hwire
    exact hwire
  have hroom : d.RouteFits noPowerOff host (digits.take 10) ↔ d.RouteRoom noPowerOff host digits :=
    hu.fits_iff.trans ⟨fun ⟨h1, h2, h3, h4⟩ => ⟨h1, h2, h3, h4⟩,
      fun h => ⟨h.host_lt, h.digits_lt, h.addr, h.loginAddr⟩⟩
  unfold deviceRouteRspCb
  rw [hdecode, ← hroom]
  simp only [routeApply_usable hu]
  split
  · rename_i hf
    obtain ⟨haddr, hport⟩ := hu.stored hf
    refine iff_of_true ⟨_, rfl, haddr, hport, rfl, rfl, rfl, ?_⟩ hf
    intro l hl b hb
    simp only [List.mem_cons, List.not_mem_nil, or_false] at hl
    rcases hl with rfl | rfl | rfl <;> exact CStr.clear_eq_self_iff.1 CStr.clear_clear b hb
  · rename_i hf
    refine iff_of_false ?_ hf
    rintro ⟨d', h, -⟩
    cases h

end

/-- A route response that names `b:1883`. -/
theorem deviceRouteRspCb_wire_small :
    ∃ d', deviceRouteRspCb false (Device.reset 0) .ec800 (decodeRouteRsp .roomy) (httpAnswer .ec800
        (ascii "\r\n" ++ (wire Nanopb.routeRsp (RouteRsp.toValues
          ⟨true, some ⟨ascii "b:1883", by decide⟩, 60, 0⟩ 0 none 5 none 30) ++ ascii "\r\n"))) =
            some (true, d') ∧
      (Device.reset 0).TakesRoute d' (ascii "b") (ascii "1883") 60 := by
  have hbroker : HostPort (ascii "b:1883") (ascii "b") (ascii "1883") :=
    ⟨⟨[], rfl, nofun⟩, by decide, by decide, by decide, by decide +kernel, by decide⟩
  have hu : RouteRsp.Usable ⟨true, some ⟨ascii "b:1883", by decide⟩, 60, 0⟩ (ascii "b")
      (ascii "1883") :=
    ⟨rfl, by decide, _, rfl, hbroker⟩
  have hs : RouteRsp.Sendable ⟨true, some ⟨ascii "b:1883", by decide⟩, 60, 0⟩ 0 none 5 none 30 :=
    ⟨by decide, by decide, by decide, by decide, by decide, by decide⟩
  have hbody : SoundBody .ec800 (ascii "\r\n") (wire Nanopb.routeRsp (RouteRsp.toValues
      ⟨true, some ⟨ascii "b:1883", by decide⟩, 60, 0⟩ 0 none 5 none 30)) (ascii "\r\n") :=
    ⟨lineBlank_crlf, lineBlank_crlf, by decide +kernel,
      Seq.not_occursAt_of_firstAt_none (by decide) (by decide +kernel), by decide +kernel⟩
  exact (deviceRouteRspCb_wire hu hs hbody).2 ⟨by decide, by decide, by decide, by decide⟩

end AppXd.Net4g
