import AppXd.Net4g.Device
import AppXd.Net4g.HttpRsp

/-!
# Activation responses

The answer to the activation request brings the device's credentials and a signature over them.
`net4gActivePostRspCb` copies the credentials over the old ones before it checks the signature, and
checks it over what the arrays read as then. The answer to the confirm request ends the activation.

A copy behind an array's end, an array without terminator, and a null pointer leave the callback
without a result. The signature is compared after its memory has been released.
-/

namespace AppXd.Net4g

open CStr (ascii textAt store)

/-- `activeRspData`, as far as the callback looks at it. A string that the response lacks is a null
pointer. -/
structure ActiveRsp where
  deviceKey : Option CStr.Text
  deviceSecret : Option CStr.Text
  t : Int
  sign : Option CStr.Text
  deviceNo : Option CStr.Text
  deriving DecidableEq

/-- What the activation uses of other modules: the digits of an MD5 sum, the secret that all
devices share, and the decoders of the two responses. Of the second one only `success` is looked
at. -/
structure ActiveEnv where
  md5 : List UInt8 → List UInt8
  originSecret : CStr.Text
  decodeActive : List UInt8 → Option ActiveRsp
  decodeConfirm : List UInt8 → Option Bool

/-! ## The callbacks -/

section
variable (e : ActiveEnv)

/-- The text that is signed. -/
def signText (deviceKey deviceSecret : List UInt8) (t : Int) : List UInt8 :=
  ascii "deviceKey=" ++ deviceKey ++ ascii "||deviceSecret=" ++ deviceSecret ++ ascii "||t=" ++
    ascii (toString t) ++ e.originSecret.chars

/-- The characters 8 to 23 of the MD5 sum. -/
def md5Sign (text : List UInt8) : List UInt8 := ((e.md5 text).drop 8).take 16

/-- The copies into `gSysLoginInfo`. -/
def SysLoginInfo.active (l : SysLoginInfo) (deviceKey deviceSecret deviceNo : List UInt8) :
    SysLoginInfo :=
  { l with
    deviceKey := store l.deviceKey deviceKey
    deviceSecret := store l.deviceSecret deviceSecret
    deviceNo := store l.deviceNo deviceNo }

/-- The copies fit. -/
def SysLoginInfo.ActiveFits (l : SysLoginInfo) (deviceKey deviceSecret deviceNo : List UInt8) :
    Prop :=
  CStr.Fits l.deviceKey deviceKey ∧ CStr.Fits l.deviceSecret deviceSecret ∧
    CStr.Fits l.deviceNo deviceNo

instance (l : SysLoginInfo) (deviceKey deviceSecret deviceNo : List UInt8) :
    Decidable (l.ActiveFits deviceKey deviceSecret deviceNo) :=
  inferInstanceAs (Decidable (_ ∧ _ ∧ _))

/-- The text that the code makes of what is stored, in a buffer of 200 bytes. -/
def codeText (l : SysLoginInfo) (t : Int) : List UInt8 :=
  (signText e (textAt l.deviceKey 0) (textAt l.deviceSecret 0) t).take 199

def Device.setActiveFlag (d : Device) (activeFlag : UInt8) : Device :=
  { d with loginInfo := { d.loginInfo with activeFlag := activeFlag } }

/-- `net4g_active_post_rsp_cb` behind the decoder. `released` is what the first 16 bytes of the
signature's memory read as after its release. -/
def activeApply (released : List UInt8 → List UInt8) (d : Device) (rsp : ActiveRsp) :
    Option (Bool × Device) :=
  match rsp.deviceKey, rsp.deviceSecret, rsp.deviceNo, rsp.sign with
  | some deviceKey, some deviceSecret, some deviceNo, some sign =>
    if d.loginInfo.ActiveFits deviceKey.chars deviceSecret.chars deviceNo.chars then
      let l := d.loginInfo.active deviceKey.chars deviceSecret.chars deviceNo.chars
      let d := { d with loginInfo := l }
      if md5Sign e (codeText e l rsp.t) = released sign.chars then
        some (true, (d.setActiveFlag 0xBB).writeLoginInfo.writeLoginInfoBack)
      else some (false, d)
    else none
  | _, _, _, _ => none

def net4gActivePostRspCb (m : ModuleType) (released : List UInt8 → List UInt8)
    (srcData : List UInt8) (d : Device) : Option (Bool × Device) :=
  match httpDecode m e.decodeActive srcData with
  | none => none
  | some none => some (false, d)
  | some (some rsp) => activeApply e released d rsp

def net4gActiveConfirmRspCb (m : ModuleType) (srcData : List UInt8) (d : Device) :
    Option (Bool × Device) :=
  match httpDecode m e.decodeConfirm srcData with
  | none => none
  | some none => some (false, d)
  | some (some success) =>
    if success then
      let d := (d.setActiveFlag 0xAA).writeLoginInfo.writeLoginInfoBack
      let net4G := { d.sysInfo.net4G with activeFlag := 0xAA }
      some (true, { d with sysInfo := { d.sysInfo with net4G := net4G } }.writeSysInfo)
    else some (false, d.setActiveFlag 0)

end

/-! ## What a response may do -/

section
variable (e : ActiveEnv)

/-- The response is complete, and it is signed. -/
structure ActiveRsp.Verified (rsp : ActiveRsp) (deviceKey deviceSecret deviceNo : CStr.Text) :
    Prop where
  key : rsp.deviceKey = some deviceKey
  secret : rsp.deviceSecret = some deviceSecret
  no : rsp.deviceNo = some deviceNo
  sign : ∃ s, rsp.sign = some s ∧
    s.chars = md5Sign e (signText e deviceKey.chars deviceSecret.chars rsp.t)

/-- The credentials are stored as strings, in the flash too, and the device waits for the answer to
its confirm request. -/
structure Device.Stored (d : Device) (deviceKey deviceSecret deviceNo : List UInt8) : Prop where
  deviceKey : textAt d.loginInfo.deviceKey 0 = deviceKey
  deviceSecret : textAt d.loginInfo.deviceSecret 0 = deviceSecret
  deviceNo : textAt d.loginInfo.deviceNo 0 = deviceNo
  activeFlag : d.loginInfo.activeFlag = 0xBB
  flash : d.loginFlash = d.loginInfo
  backFlash : d.loginBackFlash = d.loginInfo

/-- `gSysLoginInfo` is as it was, and so are its copies. -/
structure Device.LoginKept (d d' : Device) : Prop where
  loginInfo : d'.loginInfo = d.loginInfo
  flash : d'.loginFlash = d.loginFlash
  backFlash : d'.loginBackFlash = d.loginBackFlash

/-- A signed response is stored. Any other one is refused. -/
structure PostLaw (d : Device) (msg : Option ActiveRsp) (ok : Bool) (d' : Device) : Prop where
  stored : ∀ rsp deviceKey deviceSecret deviceNo, msg = some rsp →
    rsp.Verified e deviceKey deviceSecret deviceNo →
      ok = true ∧ d'.Stored deviceKey.chars deviceSecret.chars deviceNo.chars
  kept : (∀ rsp ∈ msg, ∀ deviceKey deviceSecret deviceNo,
    ¬ rsp.Verified e deviceKey deviceSecret deviceNo) → ok = false ∧ d.LoginKept d'

/-- The response is handled as it should be. Where it is signed, each of the old arrays has a NUL
at the length of the new string, and the code finds the same signature. Where it is not, the arrays
begin with what the response brings, and the code does not find the signature. -/
inductive PostOk (released : List UInt8 → List UInt8) (d : Device) (rsp : ActiveRsp) : Prop
  | signed {deviceKey deviceSecret deviceNo sign} :
    rsp.Verified e deviceKey deviceSecret deviceNo → rsp.sign = some sign →
    d.loginInfo.deviceKey[deviceKey.chars.length]? = some 0 →
    d.loginInfo.deviceSecret[deviceSecret.chars.length]? = some 0 →
    d.loginInfo.deviceNo[deviceNo.chars.length]? = some 0 →
    md5Sign e ((signText e deviceKey.chars deviceSecret.chars rsp.t).take 199) =
      released sign.chars → PostOk released d rsp
  | refused {deviceKey deviceSecret deviceNo sign} :
    ¬ rsp.Verified e deviceKey deviceSecret deviceNo → rsp.deviceKey = some deviceKey →
    rsp.deviceSecret = some deviceSecret → rsp.deviceNo = some deviceNo → rsp.sign = some sign →
    d.loginInfo.ActiveFits deviceKey.chars deviceSecret.chars deviceNo.chars →
    deviceKey.chars <+: d.loginInfo.deviceKey → deviceSecret.chars <+: d.loginInfo.deviceSecret →
    deviceNo.chars <+: d.loginInfo.deviceNo →
    md5Sign e (codeText e d.loginInfo rsp.t) ≠ released sign.chars → PostOk released d rsp

end

/-! ## One response -/

section
variable {e : ActiveEnv} {released : List UInt8 → List UInt8} {d : Device} {rsp : ActiveRsp}
  {deviceKey deviceSecret deviceNo sign : CStr.Text}

/-- The strings that a signed response brings are those that it is signed for. -/
theorem ActiveRsp.Verified.unique {k s n : CStr.Text}
    (h : rsp.Verified e deviceKey deviceSecret deviceNo) (h' : rsp.Verified e k s n) :
    k = deviceKey ∧ s = deviceSecret ∧ n = deviceNo :=
  ⟨Option.some.inj (h'.key.symm.trans h.key), Option.some.inj (h'.secret.symm.trans h.secret),
    Option.some.inj (h'.no.symm.trans h.no)⟩

/-- The law for a response that is signed. -/
theorem postLaw_of_verified (h : rsp.Verified e deviceKey deviceSecret deviceNo) {ok : Bool}
    {d' : Device} : PostLaw e d (some rsp) ok d' ↔
      ok = true ∧ d'.Stored deviceKey.chars deviceSecret.chars deviceNo.chars := by
  constructor
  · intro hl
    exact hl.stored rsp _ _ _ rfl h
  · intro hl
    constructor
    · intro rsp' k s n hrsp h'
      obtain rfl := Option.some.inj hrsp
      obtain ⟨rfl, rfl, rfl⟩ := h.unique h'
      exact hl
    · intro hno
      exact absurd h (hno rsp rfl _ _ _)

/-- The law for a response that is not signed, or for none. -/
theorem postLaw_of_not_verified {msg : Option ActiveRsp}
    (h : ∀ rsp ∈ msg, ∀ k s n, ¬ rsp.Verified e k s n) {ok : Bool} {d' : Device} :
    PostLaw e d msg ok d' ↔ ok = false ∧ d.LoginKept d' := by
  constructor
  · intro hl
    exact hl.kept h
  · intro hl
    constructor
    · intro rsp k s n hrsp hv
      exact absurd hv (h rsp hrsp k s n)
    · intro _
      exact hl

/-- The callback on a complete response whose strings fit. -/
theorem activeApply_of_fits (hkey : rsp.deviceKey = some deviceKey)
    (hsecret : rsp.deviceSecret = some deviceSecret) (hno : rsp.deviceNo = some deviceNo)
    (hsign : rsp.sign = some sign)
    (hf : d.loginInfo.ActiveFits deviceKey.chars deviceSecret.chars deviceNo.chars) :
    activeApply e released d rsp =
      let l := d.loginInfo.active deviceKey.chars deviceSecret.chars deviceNo.chars
      let d := { d with loginInfo := l }
      if md5Sign e (codeText e l rsp.t) = released sign.chars then
        some (true, (d.setActiveFlag 0xBB).writeLoginInfo.writeLoginInfoBack)
      else some (false, d) := by
  unfold activeApply
  simp only [hkey, hsecret, hno, hsign, if_pos hf]

/-- The callback has a result where all strings are there and fit. -/
theorem fits_of_activeApply {x : Bool × Device} (h : activeApply e released d rsp = some x) :
    ∃ deviceKey deviceSecret deviceNo sign, rsp.deviceKey = some deviceKey ∧
      rsp.deviceSecret = some deviceSecret ∧ rsp.deviceNo = some deviceNo ∧
      rsp.sign = some sign ∧
      d.loginInfo.ActiveFits deviceKey.chars deviceSecret.chars deviceNo.chars := by
  unfold activeApply at h
  split at h
  · rename_i k s n g hk hs hn hg
    split at h
    · rename_i hf
      exact ⟨k, s, n, g, hk, hs, hn, hg, hf⟩
    · cases h
  · cases h

/-- The arrays read as the strings of a response exactly when each of them had a NUL at the
string's length. -/
theorem active_reads_iff {l : SysLoginInfo} :
    l.ActiveFits deviceKey.chars deviceSecret.chars deviceNo.chars ∧
        textAt (store l.deviceKey deviceKey.chars) 0 = deviceKey.chars ∧
        textAt (store l.deviceSecret deviceSecret.chars) 0 = deviceSecret.chars ∧
        textAt (store l.deviceNo deviceNo.chars) 0 = deviceNo.chars ↔
      l.deviceKey[deviceKey.chars.length]? = some 0 ∧
        l.deviceSecret[deviceSecret.chars.length]? = some 0 ∧
        l.deviceNo[deviceNo.chars.length]? = some 0 := by
  rw [← CStr.fits_and_textAt_store_iff deviceKey.noNul,
    ← CStr.fits_and_textAt_store_iff deviceSecret.noNul,
    ← CStr.fits_and_textAt_store_iff deviceNo.noNul]
  unfold SysLoginInfo.ActiveFits
  tauto

theorem active_eq_self_iff {l : SysLoginInfo} {k s n : List UInt8} :
    l.active k s n = l ↔ k <+: l.deviceKey ∧ s <+: l.deviceSecret ∧ n <+: l.deviceNo := by
  rw [← CStr.store_eq_self_iff, ← CStr.store_eq_self_iff, ← CStr.store_eq_self_iff]
  unfold SysLoginInfo.active
  constructor
  · intro h
    exact ⟨congrArg SysLoginInfo.deviceKey h, congrArg SysLoginInfo.deviceSecret h,
      congrArg SysLoginInfo.deviceNo h⟩
  · rintro ⟨hk, hs, hn⟩
    rw [hk, hs, hn]

/-- A signed response. -/
theorem post_verified_iff (h : rsp.Verified e deviceKey deviceSecret deviceNo)
    (hsign : rsp.sign = some sign) :
    (∃ ok d', activeApply e released d rsp = some (ok, d') ∧ PostLaw e d (some rsp) ok d') ↔
      (d.loginInfo.deviceKey[deviceKey.chars.length]? = some 0 ∧
        d.loginInfo.deviceSecret[deviceSecret.chars.length]? = some 0 ∧
        d.loginInfo.deviceNo[deviceNo.chars.length]? = some 0) ∧
      md5Sign e ((signText e deviceKey.chars deviceSecret.chars rsp.t).take 199) =
        released sign.chars := by
  simp only [postLaw_of_verified h]
  rw [← active_reads_iff]
  constructor
  · rintro ⟨ok, d', hr, rfl, hst⟩
    obtain ⟨k, s, n, g, hk, hs, hn, hg, hf⟩ := fits_of_activeApply hr
    cases hk.symm.trans h.key
    cases hs.symm.trans h.secret
    cases hn.symm.trans h.no
    cases hg.symm.trans hsign
    rw [activeApply_of_fits hk hs hn hg hf] at hr
    dsimp only at hr
    split at hr
    · rename_i hcode
      cases hr
      have hreads : textAt (store d.loginInfo.deviceKey deviceKey.chars) 0 = deviceKey.chars :=
        hst.deviceKey
      have hreads' : textAt (store d.loginInfo.deviceSecret deviceSecret.chars) 0 =
        deviceSecret.chars := hst.deviceSecret
      refine ⟨⟨hf, hreads, hreads', hst.deviceNo⟩, ?_⟩
      unfold codeText SysLoginInfo.active at hcode
      rwa [hreads, hreads'] at hcode
    · cases hr
  · rintro ⟨⟨hf, hk, hs, hn⟩, hcode⟩
    have hr : activeApply e released d rsp = _ :=
      activeApply_of_fits h.key h.secret h.no hsign hf
    have hcode' : md5Sign e (codeText e (d.loginInfo.active deviceKey.chars deviceSecret.chars
        deviceNo.chars) rsp.t) = released sign.chars := by
      unfold codeText SysLoginInfo.active
      rw [hk, hs]
      exact hcode
    dsimp only at hr
    rw [if_pos hcode'] at hr
    exact ⟨_, _, hr, rfl, hk, hs, hn, rfl, rfl, rfl⟩

/-- A response that is not signed. -/
theorem post_refused_iff (h : ∀ k s n, ¬ rsp.Verified e k s n) :
    (∃ ok d', activeApply e released d rsp = some (ok, d') ∧ PostLaw e d (some rsp) ok d') ↔
      ∃ deviceKey deviceSecret deviceNo sign, rsp.deviceKey = some deviceKey ∧
        rsp.deviceSecret = some deviceSecret ∧ rsp.deviceNo = some deviceNo ∧
        rsp.sign = some sign ∧
        d.loginInfo.ActiveFits deviceKey.chars deviceSecret.chars deviceNo.chars ∧
        d.loginInfo.active deviceKey.chars deviceSecret.chars deviceNo.chars = d.loginInfo ∧
        md5Sign e (codeText e d.loginInfo rsp.t) ≠ released sign.chars := by
  have hlaw : ∀ {ok d'}, PostLaw e d (some rsp) ok d' ↔ ok = false ∧ d.LoginKept d' :=
    postLaw_of_not_verified fun r hr => Option.some.inj hr ▸ h
  simp only [hlaw]
  constructor
  · rintro ⟨ok, d', hr, rfl, hkept⟩
    obtain ⟨k, s, n, g, hk, hs, hn, hg, hf⟩ := fits_of_activeApply hr
    refine ⟨k, s, n, g, hk, hs, hn, hg, hf, ?_⟩
    rw [activeApply_of_fits hk hs hn hg hf] at hr
    dsimp only at hr
    split at hr
    · cases hr
    · rename_i hcode
      cases hr
      have hself : d.loginInfo.active k.chars s.chars n.chars = d.loginInfo := hkept.loginInfo
      rw [hself] at hcode
      exact ⟨hself, hcode⟩
  · rintro ⟨k, s, n, g, hk, hs, hn, hg, hf, hself, hcode⟩
    have hr : activeApply e released d rsp = _ := activeApply_of_fits hk hs hn hg hf
    dsimp only at hr
    rw [hself, if_neg hcode] at hr
    exact ⟨_, _, hr, rfl, rfl, rfl, rfl⟩

theorem activeApply_iff :
    (∃ ok d', activeApply e released d rsp = some (ok, d') ∧ PostLaw e d (some rsp) ok d') ↔
      PostOk e released d rsp := by
  by_cases h : ∃ k s n, rsp.Verified e k s n
  · obtain ⟨k, s, n, hv⟩ := h
    obtain ⟨g, hg, -⟩ := hv.sign
    rw [post_verified_iff hv hg]
    constructor
    · rintro ⟨⟨h1, h2, h3⟩, h4⟩
      exact .signed hv hg h1 h2 h3 h4
    · rintro (⟨hv', hg', h1, h2, h3, h4⟩ | ⟨hno, hk, hs, hn, -⟩)
      · obtain ⟨rfl, rfl, rfl⟩ := hv.unique hv'
        cases hg.symm.trans hg'
        exact ⟨⟨h1, h2, h3⟩, h4⟩
      · cases hk.symm.trans hv.key
        cases hs.symm.trans hv.secret
        cases hn.symm.trans hv.no
        exact absurd hv hno
  · have hno : ∀ k s n, ¬ rsp.Verified e k s n := fun k s n hv => h ⟨k, s, n, hv⟩
    rw [post_refused_iff hno]
    constructor
    · rintro ⟨k, s, n, g, hk, hs, hn, hg, hf, hself, hcode⟩
      obtain ⟨h1, h2, h3⟩ := active_eq_self_iff.1 hself
      exact .refused (hno k s n) hk hs hn hg hf h1 h2 h3 hcode
    · rintro (⟨hv, -⟩ | ⟨-, hk, hs, hn, hg, hf, h1, h2, h3, hcode⟩)
      · exact absurd hv (hno _ _ _)
      · exact ⟨_, _, _, _, hk, hs, hn, hg, hf, active_eq_self_iff.2 ⟨h1, h2, h3⟩, hcode⟩

/-- The callback obeys the law on an answer that fits, when the message in it is handled as it
should be. -/
theorem activePostRspCb_iff {m : ModuleType} {srcData : List UInt8} :
    (∃ ok d', net4gActivePostRspCb e m released srcData d = some (ok, d') ∧
        PostLaw e d (httpMessage m e.decodeActive srcData) ok d') ↔
      HttpFits m srcData ∧
        ∀ rsp ∈ httpMessage m e.decodeActive srcData, PostOk e released d rsp := by
  unfold net4gActivePostRspCb
  by_cases hfits : HttpFits m srcData
  · rw [httpDecode_of_fits hfits]
    cases httpMessage m e.decodeActive srcData with
    | none =>
      refine iff_of_true ⟨false, d, rfl, ?_⟩ ⟨hfits, nofun⟩
      have hno : ∀ rsp ∈ (none : Option ActiveRsp), ∀ k s n, ¬ rsp.Verified e k s n :=
        fun rsp hr => absurd hr (Option.not_mem_none rsp)
      exact (postLaw_of_not_verified hno).2 ⟨rfl, rfl, rfl, rfl⟩
    | some rsp =>
      refine activeApply_iff.trans ⟨fun h => ⟨hfits, fun r hr => ?_⟩, fun h => h.2 rsp rfl⟩
      cases hr
      exact h
  · rw [httpDecode_of_not_fits hfits]
    refine iff_of_false ?_ fun h => hfits h.1
    rintro ⟨ok, d', h, -⟩
    cases h

end

end AppXd.Net4g
