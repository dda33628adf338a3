import AppXd.Net4g.Device
import AppXd.Net4g.HttpRsp
import Mathlib.Data.List.TakeWhile

/-!
# Route responses

A route response names the broker that the device connects to, as a text `host:port`.
`deviceRouteRspCb` stores both before it looks at the response's verdict, and refuses nothing but a
demand to activate again. A store behind an array's end, a pointer that is not set and a scan behind
an array leave the callback without a result.
-/

namespace AppXd.Net4g

open CStr (ascii textAt clear store)

/-- `routeRsp` with the `routeData` in it, as far as the callback looks at them. A string that the
response lacks is a null pointer. -/
structure RouteRsp where
  success : Bool
  broker : Option CStr.Text
  keepalive : Int
  reactive : Int
  deriving DecidableEq

/-! ## The callback -/

/-- `get_atcmd_rsp_before_after_value` with length 0: what stands before and behind the first middle
key. The second part is at most ten bytes long and ends at a blank. -/
def getAtcmdRspBeforeAfterValue (srcData middleKey : List UInt8) : List UInt8 × List UInt8 :=
  match Seq.firstAt middleKey srcData with
  | none => ([], [])
  | some tempDataLen =>
    if 0 < tempDataLen then
      (srcData.take tempDataLen, ((srcData.drop (tempDataLen + middleKey.length)).takeWhile
        fun b => !blank b).take 10)
    else ([], [])

/-- The bytes that `atoi` leaves, behind white space, a sign and digits. -/
def atoiRest (s : List UInt8) : List UInt8 :=
  let s := s.dropWhile CStr.isSpace
  let s := if s.head? = some 45 ∨ s.head? = some 43 then s.drop 1 else s
  s.dropWhile fun b => CStr.digitVal b < 10

/-- `atoi` of the port's text stays in the array of ten bytes. -/
def PortReads (portTemp : List UInt8) : Prop := portTemp.length = 10 → atoiRest portTemp ≠ []

instance (portTemp : List UInt8) : Decidable (PortReads portTemp) :=
  inferInstanceAs (Decidable (_ → _))

/-- `u16MqttPort`. -/
def mqttPort (portTemp : List UInt8) : UInt16 :=
  if portTemp = [] then 0 else UInt16.ofNat (CStr.atoi portTemp % 65536).toNat

/-- The interval for the reports, in seconds. -/
def reportInterval (cubbyInterval : UInt32) : UInt32 :=
  if 300 < cubbyInterval ∧ cubbyInterval < 65535 then cubbyInterval else 1800

/-- What is stored in `g_deviceGlobalInfo.mqtt`. -/
def MqttPara.route (q : MqttPara) (addrTemp : List UInt8) (port : UInt16) (keepalive : Int)
    (interval : UInt32) : MqttPara where
  addr := store (clear q.addr) addrTemp
  port := port
  hbInterval := keepalive
  retryInterval := 60
  retryTimes := 3
  timerReportInterval := interval
  password := clear q.password
  token := clear q.token
  secretKey := clear q.secretKey

/-- The copy in `gSysLoginInfo` that a board makes which leaves the module powered. -/
def SysLoginInfo.route (l : SysLoginInfo) (addrTemp : List UInt8) (q : MqttPara) : SysLoginInfo :=
  { l with
    addr := store (CStr.clear l.addr) addrTemp
    port := q.port
    hbInterval := q.hbInterval
    retryInterval := q.retryInterval
    retryTimes := q.retryTimes
    timerReportInterval := q.timerReportInterval }

section
variable (noPowerOff : Bool) (d : Device)

/-- The stores that come before the response's verdict. -/
def Device.route (addrTemp portTemp : List UInt8) (keepalive : Int) : Device :=
  let interval := reportInterval d.sysInfo.cubbyInterval
  let mqtt := d.globalInfo.mqtt.route addrTemp (mqttPort portTemp) keepalive interval
  { d with
    globalInfo := { d.globalInfo with mqtt := mqtt }
    sysInfo := { d.sysInfo with cubbyInterval := interval }
    loginInfo := if noPowerOff then d.loginInfo.route addrTemp mqtt else d.loginInfo }

/-- The stores stay in their arrays, and the address in `mqtt` keeps a terminator. -/
def Device.RouteFits (addrTemp portTemp : List UInt8) : Prop :=
  addrTemp.length < 32 ∧ PortReads portTemp ∧ addrTemp.length < d.globalInfo.mqtt.addr.length ∧
    (noPowerOff = true → addrTemp.length ≤ d.loginInfo.addr.length)

instance (addrTemp portTemp : List UInt8) : Decidable (d.RouteFits noPowerOff addrTemp portTemp) :=
  inferInstanceAs (Decidable (_ ∧ _ ∧ _ ∧ (_ → _)))

/-- The callback behind the decoder. -/
def routeApply (rsp : RouteRsp) : Option (Bool × Device) :=
  match rsp.broker with
  | none => none
  | some broker =>
    let x := getAtcmdRspBeforeAfterValue broker.chars (ascii ":")
    if d.RouteFits noPowerOff x.1 x.2 then
      let d := d.route noPowerOff x.1 x.2 rsp.keepalive
      if rsp.success = true ∧ rsp.reactive = 1 then
        some (false, { d with loginInfo := { d.loginInfo with activeFlag := 0 } })
      else some (true, d)
    else none

/-- `device_route_rsp_cb`: whether it returns `AT_OK`, and what it leaves. -/
def deviceRouteRspCb (m : ModuleType) (decode : List UInt8 → Option RouteRsp)
    (srcData : List UInt8) : Option (Bool × Device) :=
  match httpDecode m decode srcData with
  | none => none
  | some none => some (false, d)
  | some (some rsp) => routeApply noPowerOff d rsp

end

/-! ## What a response asks for -/

/-- A text `host:port`. The port is a number in decimal, and nothing but a blank follows it. -/
structure HostPort (s host digits : List UInt8) : Prop where
  split : ∃ rest, s = host ++ 58 :: (digits ++ rest) ∧ ∀ b ∈ rest.head?, blank b = true
  host_ne : host ≠ []
  host_colon : 58 ∉ host
  digits_ne : digits ≠ []
  decimal : ∀ b ∈ digits, 48 ≤ b ∧ b ≤ 57
  port_lt : CStr.digits 10 digits < 65536

/-- A response that can be used, with the host and the digits of the port that it names. -/
structure RouteRsp.Usable (rsp : RouteRsp) (host digits : List UInt8) : Prop where
  success : rsp.success = true
  reactive : rsp.reactive ≠ 1
  broker : ∃ s, rsp.broker = some s ∧ HostPort s.chars host digits

/-- The callback accepts what can be used, and else leaves `mqtt` as it was. -/
def RouteLaw (d : Device) (rsp : Option RouteRsp) : Option (Bool × Device) → Prop
  | none => False
  | some (true, d') => ∃ r host digits, rsp = some r ∧ r.Usable host digits ∧
      textAt d'.globalInfo.mqtt.addr 0 = host ∧
      d'.globalInfo.mqtt.port.toNat = CStr.digits 10 digits
  | some (false, d') => d'.globalInfo.mqtt = d.globalInfo.mqtt

/-- All that a route response stores is stored already. -/
structure MqttPara.Routed (q : MqttPara) (addrTemp portTemp : List UInt8) (keepalive : Int)
    (interval : UInt32) : Prop where
  addr : q.addr = CStr.copyInto q.addr.length addrTemp
  port : q.port = mqttPort portTemp
  hbInterval : q.hbInterval = keepalive
  retryInterval : q.retryInterval = 60
  retryTimes : q.retryTimes = 3
  timerReportInterval : q.timerReportInterval = interval
  password : ∀ b ∈ q.password, b = 0
  token : ∀ b ∈ q.token, b = 0
  secretKey : ∀ b ∈ q.secretKey, b = 0

/-- The response is handled as it should be: it can be used and what it brings fits, or it demands
an activation and everything that it brings is there already. -/
inductive RouteOk (noPowerOff : Bool) (d : Device) (rsp : RouteRsp) : Prop
  | usable {host digits} : rsp.Usable host digits → host.length < 32 → digits.length < 10 →
    host.length < d.globalInfo.mqtt.addr.length →
    (noPowerOff = true → host.length ≤ d.loginInfo.addr.length) → RouteOk noPowerOff d rsp
  | routed {s addrTemp portTemp} : rsp.success = true → rsp.reactive = 1 → rsp.broker = some s →
    getAtcmdRspBeforeAfterValue s.chars (ascii ":") = (addrTemp, portTemp) →
    d.RouteFits noPowerOff addrTemp portTemp →
    d.globalInfo.mqtt.Routed addrTemp portTemp rsp.keepalive
      (reportInterval d.sysInfo.cubbyInterval) → RouteOk noPowerOff d rsp

section
variable {s host digits : List UInt8}

theorem isDigit_le {b : UInt8} (hb : 48 ≤ b ∧ b ≤ 57) : 48 ≤ b.toNat ∧ b.toNat ≤ 57 := hb

/-- A digit is no white space, no sign and no blank. -/
theorem isDigit_cases {b : UInt8} (hb : 48 ≤ b ∧ b ≤ 57) :
    CStr.isSpace b = false ∧ b ≠ 45 ∧ b ≠ 43 ∧ blank b = false ∧ CStr.digitVal b < 10 := by
  have hnat := isDigit_le hb
  have hne : ∀ {c : UInt8}, c.toNat < 48 → b ≠ c := by
    rintro c hc rfl
    exact absurd hnat.1 (Nat.not_le.2 hc)
  refine ⟨decide_eq_false ?_, hne (by decide), hne (by decide), ?_, ?_⟩
  · rintro (h | ⟨-, h⟩)
    · exact hne (by decide) h
    · have hle : b.toNat ≤ 13 := h
      omega
  · simp only [blank, Bool.or_eq_false_iff, decide_eq_false_iff_not]
    exact ⟨⟨⟨⟨hne (by decide), hne (by decide)⟩, hne (by decide)⟩, hne (by decide)⟩,
      hne (by decide)⟩
  · unfold CStr.digitVal
    rw [if_pos hb]
    omega

/-- The text that is left of a number without sign. -/
theorem dropWhile_isSpace (hdec : ∀ b ∈ digits, 48 ≤ b ∧ b ≤ 57) :
    digits.dropWhile CStr.isSpace = digits ∧ digits.head? ≠ some 45 ∧ digits.head? ≠ some 43 := by
  cases digits with
  | nil => exact ⟨rfl, nofun, nofun⟩
  | cons b digits =>
    obtain ⟨hspace, hminus, hplus, -⟩ := isDigit_cases (hdec b List.mem_cons_self)
    refine ⟨?_, fun h => hminus (Option.some.inj h), fun h => hplus (Option.some.inj h)⟩
    rw [List.dropWhile_cons, if_neg (by rw [hspace]; decide)]

theorem atoiRest_digits (hdec : ∀ b ∈ digits, 48 ≤ b ∧ b ≤ 57) : atoiRest digits = [] := by
  obtain ⟨hspace, hminus, hplus⟩ := dropWhile_isSpace hdec
  unfold atoiRest
  simp only [hspace, hminus, hplus, or_self, if_false]
  rw [List.dropWhile_eq_nil_iff]
  intro b hb
  exact decide_eq_true (isDigit_cases (hdec b hb)).2.2.2.2

theorem mqttPort_digits (h : HostPort s host digits) :
    (mqttPort digits).toNat = CStr.digits 10 digits := by
  unfold mqttPort
  have hint : CStr.digits 10 digits ≤ 2147483647 :=
    Nat.le_of_lt (Nat.lt_of_lt_of_le h.port_lt (by decide))
  rw [if_neg h.digits_ne, (CStr.atoi_decimal_iff h.decimal).2 hint]
  have hlt : (CStr.digits 10 digits : Int) < 65536 := Int.ofNat_lt.2 h.port_lt
  have hmod : ((CStr.digits 10 digits : Int) % 65536).toNat = CStr.digits 10 digits := by
    rw [Int.emod_eq_of_lt (Int.natCast_nonneg _) hlt, Int.toNat_natCast]
  rw [hmod]
  exact Nat.mod_eq_of_lt h.port_lt

/-- The code splits such a text at the same places, and looks at ten bytes of the port. -/
theorem HostPort.code_split (h : HostPort s host digits) :
    getAtcmdRspBeforeAfterValue s (ascii ":") = (host, digits.take 10) := by
  obtain ⟨rest, rfl, hrest⟩ := h.split
  have hfirst : Seq.firstAt (ascii ":") (host ++ 58 :: (digits ++ rest)) = some host.length :=
    Seq.firstAt_singleton h.host_colon
  have hafter : (host ++ 58 :: (digits ++ rest)).drop (host.length + (ascii ":").length) =
      digits ++ rest := by
    rw [show (ascii ":").length = 1 from rfl, List.drop_append]
    simp
  have hdigits : ∀ b ∈ digits, (!blank b) = true := fun b hb => by
    rw [(isDigit_cases (h.decimal b hb)).2.2.2.1]
    rfl
  have hcut : (digits ++ rest).takeWhile (fun b => !blank b) = digits := by
    cases rest with
    | nil => rw [List.append_nil, List.takeWhile_eq_self_iff]; exact hdigits
    | cons b rest =>
      refine CStr.takeWhile_append_stop hdigits ?_
      rw [hrest b rfl]
      rfl
  unfold getAtcmdRspBeforeAfterValue
  rw [hfirst]
  simp only [if_pos (List.length_pos_of_ne_nil h.host_ne), hafter, hcut, List.take_left]

theorem HostPort.host_noNul (h : HostPort s host digits) (hs : 0 ∉ s) : 0 ∉ host := by
  obtain ⟨rest, rfl, -⟩ := h.split
  exact fun h0 => hs (List.mem_append_left _ h0)

/-- The port can be read where it has less than ten digits. -/
theorem HostPort.portReads (h : HostPort s host digits) :
    PortReads (digits.take 10) ↔ digits.length < 10 := by
  have hrest : atoiRest (digits.take 10) = [] :=
    atoiRest_digits fun b hb => h.decimal b (List.mem_of_mem_take hb)
  unfold PortReads
  rw [hrest, List.length_take]
  constructor
  · intro hr
    by_contra hlen
    exact hr (Nat.min_eq_left (Nat.not_lt.1 hlen)) rfl
  · intro hlen h10
    omega

end

section
variable {noPowerOff : Bool} {d : Device} {rsp : RouteRsp}

/-- All is stored already where storing changes nothing. -/
theorem route_eq_self_iff {q : MqttPara} {addrTemp portTemp : List UInt8} {keepalive : Int}
    {interval : UInt32} : q.route addrTemp (mqttPort portTemp) keepalive interval = q ↔
      q.Routed addrTemp portTemp keepalive interval := by
  constructor
  · intro h
    constructor
    · rw [← CStr.store_clear]
      exact (congrArg MqttPara.addr h).symm
    · exact (congrArg MqttPara.port h).symm
    · exact (congrArg MqttPara.hbInterval h).symm
    · exact (congrArg MqttPara.retryInterval h).symm
    · exact (congrArg MqttPara.retryTimes h).symm
    · exact (congrArg MqttPara.timerReportInterval h).symm
    · exact CStr.clear_eq_self_iff.1 (congrArg MqttPara.password h)
    · exact CStr.clear_eq_self_iff.1 (congrArg MqttPara.token h)
    · exact CStr.clear_eq_self_iff.1 (congrArg MqttPara.secretKey h)
  · intro h
    unfold MqttPara.route
    rw [CStr.store_clear, ← h.addr, ← h.port, ← h.hbInterval, ← h.timerReportInterval,
      CStr.clear_eq_self_iff.2 h.password, CStr.clear_eq_self_iff.2 h.token,
      CStr.clear_eq_self_iff.2 h.secretKey, ← h.retryInterval, ← h.retryTimes]

/-- What the callback does to a response that can be used. -/
theorem routeApply_usable {host digits : List UInt8} (h : rsp.Usable host digits) :
    routeApply noPowerOff d rsp =
      if d.RouteFits noPowerOff host (digits.take 10) then
        some (true, d.route noPowerOff host (digits.take 10) rsp.keepalive)
      else none := by
  obtain ⟨s, hs, hp⟩ := h.broker
  unfold routeApply
  have hreactive : ¬ (rsp.success = true ∧ rsp.reactive = 1) := fun hr => h.reactive hr.2
  simp only [hs, hp.code_split, if_neg hreactive]

theorem RouteRsp.Usable.fits_iff {host digits : List UInt8} (h : rsp.Usable host digits) :
    d.RouteFits noPowerOff host (digits.take 10) ↔ host.length < 32 ∧ digits.length < 10 ∧
      host.length < d.globalInfo.mqtt.addr.length ∧
      (noPowerOff = true → host.length ≤ d.loginInfo.addr.length) := by
  obtain ⟨s, -, hp⟩ := h.broker
  exact and_congr_right' (and_congr_left' hp.portReads)

/-- The host and the port that are stored where they fit. -/
theorem RouteRsp.Usable.stored {host digits : List UInt8} (h : rsp.Usable host digits)
    (hf : d.RouteFits noPowerOff host (digits.take 10)) :
    textAt (d.route noPowerOff host (digits.take 10) rsp.keepalive).globalInfo.mqtt.addr 0 = host ∧
      (d.route noPowerOff host (digits.take 10) rsp.keepalive).globalInfo.mqtt.port.toNat =
        CStr.digits 10 digits := by
  obtain ⟨s, -, hp⟩ := h.broker
  have hlen : digits.length < 10 := hp.portReads.1 hf.2.1
  refine ⟨CStr.textAt_store_clear _ (hp.host_noNul s.noNul), ?_⟩
  rw [List.take_of_length_le hlen.le]
  exact mqttPort_digits hp

theorem routeLaw_usable {host digits : List UInt8} (h : rsp.Usable host digits) :
    RouteLaw d (some rsp) (routeApply noPowerOff d rsp) ↔ host.length < 32 ∧ digits.length < 10 ∧
      host.length < d.globalInfo.mqtt.addr.length ∧
      (noPowerOff = true → host.length ≤ d.loginInfo.addr.length) := by
  rw [routeApply_usable h, ← h.fits_iff]
  split
  · rename_i hf
    exact iff_of_true ⟨rsp, host, digits, rfl, h, h.stored hf⟩ hf
  · rename_i hf
    exact iff_of_false (fun h => h) hf

/-- What the callback does to a response that cannot be used. -/
theorem routeLaw_other (h : ∀ host digits, ¬ rsp.Usable host digits) :
    RouteLaw d (some rsp) (routeApply noPowerOff d rsp) ↔
      rsp.success = true ∧ rsp.reactive = 1 ∧ ∃ s addrTemp portTemp, rsp.broker = some s ∧
        getAtcmdRspBeforeAfterValue s.chars (ascii ":") = (addrTemp, portTemp) ∧
        d.RouteFits noPowerOff addrTemp portTemp ∧
        d.globalInfo.mqtt.Routed addrTemp portTemp rsp.keepalive
          (reportInterval d.sysInfo.cubbyInterval) := by
  unfold routeApply
  split
  · rename_i hnone
    refine iff_of_false (fun hl => hl) ?_
    rintro ⟨-, -, s, -, -, hs, -⟩
    rw [hnone] at hs
    cases hs
  · rename_i s hs
    generalize hx : getAtcmdRspBeforeAfterValue s.chars (ascii ":") = x
    obtain ⟨addrTemp, portTemp⟩ := x
    dsimp only
    split
    · rename_i hf
      split
      · rename_i hr
        refine (route_eq_self_iff (q := d.globalInfo.mqtt)).trans ?_
        constructor
        · intro hq
          exact ⟨hr.1, hr.2, s, addrTemp, portTemp, hs, hx, hf, hq⟩
        · rintro ⟨-, -, s', a', p', hs', hx', -, hq⟩
          cases hs.symm.trans hs'
          cases hx.symm.trans hx'
          exact hq
      · rename_i hr
        refine iff_of_false ?_ fun hl => hr ⟨hl.1, hl.2.1⟩
        rintro ⟨r, host, digits, hrsp, hu, -⟩
        cases hrsp
        exact h host digits hu
    · rename_i hf
      refine iff_of_false (fun hl => hl) ?_
      rintro ⟨-, -, s', a', p', hs', hx', hf', -⟩
      cases hs.symm.trans hs'
      cases hx.symm.trans hx'
      exact hf hf'

theorem routeLaw_iff : RouteLaw d (some rsp) (routeApply noPowerOff d rsp) ↔
    RouteOk noPowerOff d rsp := by
  by_cases h : ∃ host digits, rsp.Usable host digits
  · obtain ⟨host, digits, hu⟩ := h
    rw [routeLaw_usable hu]
    constructor
    · rintro ⟨h1, h2, h3, h4⟩
      exact .usable hu h1 h2 h3 h4
    · rintro (⟨hu', h1, h2, h3, h4⟩ | ⟨-, hr, -⟩)
      · exact (routeLaw_usable hu).1 ((routeLaw_usable hu').2 ⟨h1, h2, h3, h4⟩)
      · exact absurd hr hu.reactive
  · have hno : ∀ host digits, ¬ rsp.Usable host digits := fun host digits hu =>
      h ⟨host, digits, hu⟩
    rw [routeLaw_other hno]
    constructor
    · rintro ⟨h1, h2, s, a, p, h3, h4, h5, h6⟩
      exact .routed h1 h2 h3 h4 h5 h6
    · rintro (⟨hu, -⟩ | ⟨h1, h2, h3, h4, h5, h6⟩)
      · exact absurd hu (hno _ _)
      · exact ⟨h1, h2, _, _, _, h3, h4, h5, h6⟩

end

/-- The callback accepts exactly what it should when the answer fits, and the message in it is
handled as it should be. -/
theorem routeLaw_deviceRouteRspCb (noPowerOff : Bool) (d : Device) (m : ModuleType)
    (decode : List UInt8 → Option RouteRsp) (srcData : List UInt8) :
    RouteLaw d (httpMessage m decode srcData) (deviceRouteRspCb noPowerOff d m decode srcData) ↔
      HttpFits m srcData ∧ ∀ rsp ∈ httpMessage m decode srcData, RouteOk noPowerOff d rsp := by
  unfold deviceRouteRspCb
  by_cases hfits : HttpFits m srcData
  · rw [httpDecode_of_fits hfits]
    cases hmsg : httpMessage m decode srcData with
    | none => exact iff_of_true rfl ⟨hfits, nofun⟩
    | some rsp =>
      refine routeLaw_iff.trans ⟨fun h => ⟨hfits, fun r hr => ?_⟩, fun h => h.2 rsp rfl⟩
      cases hr
      exact h
  · rw [httpDecode_of_not_fits hfits]
    exact iff_of_false (fun h => h) fun h => hfits h.1

/-- A response without success is accepted. -/
theorem not_routeLaw_unsuccessful : ¬ ∀ (noPowerOff : Bool) (d : Device) (m : ModuleType)
    (decode : List UInt8 → Option RouteRsp) (srcData : List UInt8),
    RouteLaw d (httpMessage m decode srcData)
      (deviceRouteRspCb noPowerOff d m decode srcData) := by
  intro h
  have hlaw := h false (.reset 0) .nt26e (fun _ => some ⟨false, some ⟨[], List.not_mem_nil⟩, 0, 0⟩)
    (ascii "x\r\nOK")
  obtain ⟨r, host, digits, hr, hu, -⟩ := hlaw
  cases hr
  cases hu.success

end AppXd.Net4g
