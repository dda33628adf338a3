import AppXd.Net4g.KeyReads
import AppXd.Net4g.RecvSpec

/-!
# Which FIFO cells one call reads

The ring searches stay in the array where `SearchReads` holds. The C string functions that the
branch on a missing head runs on the array read up to the next NUL, which need not lie in the array
when the window passes its end; `HeadFailOk` says that it does.
-/

namespace AppXd.Net4g

open CStr (ascii)

/-- The search of the keyword in the window reads below the end of the ring. -/
def SearchReads (c : Config) (f : Fifo) (key : List UInt8) : Prop :=
  Crossing c f.data f.head f.tail key ∨ f.tail + key.length ≤ c.uartRecvFifoSize + 2

/-- `get_atcmd_rsp_value` skips blanks and NULs behind the head key; a NUL in the array must be
left for its second search. -/
def ValueReads (c : Config) (f : Fifo) (src srcLen : Nat) (key : List UInt8) : Prop :=
  ∀ q, CStr.strstr f.data c.ram src key = some q →
    ∃ z, q + key.length + skipBlanks f.data (q + key.length)
        (subU32 srcLen key.length % 256) ≤ z ∧ z < c.uartRecvFifoSize ∧ f.data z = 0

/-- An answer of the radio that begins with `key` is searched and split inside the array. -/
def AnswerOk (c : Config) (f : Fifo) (key : List UInt8) : Prop :=
  (CStr.strstr f.data c.ram f.head key).isSome →
    SearchReads c f key ∧ ValueReads c f f.head (unreadLen c f) key

/-- The two neighbour cells of a cell answer. -/
def NeighboursOk (c : Config) (f : Fifo) : Prop :=
  ∀ p, CStr.strstr f.data c.ram f.head (ascii "neighbourcell") = some p →
    ValueReads c f p (subU32 (unreadLen c f) (p - f.head)) (ascii "neighbourcell") ∧
    ∀ p', CStr.strstr f.data c.ram (p + 13) (ascii "neighbourcell") = some p' →
      ValueReads c f p' (subU32 (unreadLen c f) (p' - f.head)) (ascii "neighbourcell")

/-- The strings from the head on end in the array, and so do the answers in them. -/
structure AnswersOk (c : Config) (f : Fifo) : Prop where
  nul : ∃ z, f.head ≤ z ∧ z < c.uartRecvFifoSize ∧ f.data z = 0
  rssi : AnswerOk c f getNetRssiRspHead
  qeng : c.moduleType.quectel = true →
    AnswerOk c f (getNetQengServingCellRspHead c.moduleType)
  lcell : c.moduleType.quectel = false → AnswerOk c f (getNetCellRspHead c.moduleType) ∧
    NeighboursOk c f

/-- The branch on a missing head reads inside the array: so does the search of the notice, and
either the array is cleared because of the banner or the strings from the head on end in it. -/
structure HeadFailOk (c : Config) (f : Fifo) : Prop where
  notice : SearchReads c f (netMqttDisconnectCmdHead c.moduleType)
  rest : AnswersOk c f ∨ rebootBanner c f = true ∧
    Crossing c f.data f.head f.tail (netMqttDisconnectCmdHead c.moduleType) ∧
    Seq.firstAt (netMqttDisconnectCmdHead c.moduleType) (f.window c) = none

section
variable (c : Config) (f : Fifo)

instance (key : List UInt8) : Decidable (SearchReads c f key) := by
  unfold SearchReads
  infer_instance

instance (src srcLen : Nat) (key : List UInt8) : Decidable (ValueReads c f src srcLen key) :=
  decidable_of_iff (∀ q ∈ CStr.strstr f.data c.ram src key, ∃ z, z < c.uartRecvFifoSize ∧
      q + key.length + skipBlanks f.data (q + key.length) (subU32 srcLen key.length % 256) ≤ z ∧
      f.data z = 0)
    (forall₂_congr fun _ _ => exists_congr fun _ => and_left_comm)

instance (key : List UInt8) : Decidable (AnswerOk c f key) := by
  unfold AnswerOk
  infer_instance

instance : Decidable (NeighboursOk c f) :=
  decidable_of_iff (∀ p ∈ CStr.strstr f.data c.ram f.head (ascii "neighbourcell"),
      ValueReads c f p (subU32 (unreadLen c f) (p - f.head)) (ascii "neighbourcell") ∧
      ∀ p' ∈ CStr.strstr f.data c.ram (p + 13) (ascii "neighbourcell"),
        ValueReads c f p' (subU32 (unreadLen c f) (p' - f.head)) (ascii "neighbourcell")) Iff.rfl

instance : Decidable (AnswersOk c f) :=
  decidable_of_iff ((∃ z, z < c.uartRecvFifoSize ∧ f.head ≤ z ∧ f.data z = 0) ∧
      AnswerOk c f getNetRssiRspHead ∧
      (c.moduleType.quectel = true →
        AnswerOk c f (getNetQengServingCellRspHead c.moduleType)) ∧
      (c.moduleType.quectel = false → AnswerOk c f (getNetCellRspHead c.moduleType) ∧
        NeighboursOk c f))
    ⟨fun ⟨⟨z, h1, h2, h3⟩, h4, h5, h6⟩ => ⟨⟨z, h2, h1, h3⟩, h4, h5, h6⟩,
      fun ⟨⟨z, h1, h2, h3⟩, h4, h5, h6⟩ => ⟨⟨z, h2, h1, h3⟩, h4, h5, h6⟩⟩

instance : Decidable (HeadFailOk c f) :=
  decidable_of_iff (_ ∧ (_ ∨ _)) ⟨fun h => ⟨h.1, h.2⟩, fun h => ⟨h.notice, h.rest⟩⟩

end

section
variable {c : Config} {f : Fifo}

theorem SearchReads.hi {key : List UInt8} (hf : f.Wf c) (hk : Keyword key)
    (h : SearchReads c f key) (idx : Nat) :
    (searchWindow c f key idx).hi ≤ c.uartRecvFifoSize :=
  getKeyDataIndex_hi hk hf.head_le hf.tail_lt hf.data_tail h idx

theorem getAtcmdRspValue_hi {src srcLen z : Nat} {key tail : List UInt8} (hk : key ≠ [])
    (ht : tail ≠ []) (hz : f.data z = 0) (hsz : src ≤ z) (hzn : z < c.uartRecvFifoSize)
    (h : ValueReads c f src srcLen key) :
    (getAtcmdRspValue f.data c.ram src srcLen key tail).2 ≤ c.uartRecvFifoSize := by
  have hfst := CStr.strstrEnd_le c.ram hk hz hsz
  unfold getAtcmdRspValue
  cases hq : CStr.strstr f.data c.ram src key with
  | none => exact hfst.trans hzn
  | some q =>
    obtain ⟨z', hz1, hz2, hz3⟩ := h q hq
    have hskip := skipBlanks_le f.data (q + key.length) (subU32 srcLen key.length % 256)
    have hsnd := CStr.strstrEnd_le c.ram ht hz3 hz1
    have hread : q + key.length + min (skipBlanks f.data (q + key.length)
        (subU32 srcLen key.length % 256) + 1) (subU32 srcLen key.length % 256) ≤
        c.uartRecvFifoSize := by omega
    exact Nat.max_le.2 ⟨Nat.max_le.2 ⟨hfst.trans hzn, hread⟩, hsnd.trans hz2⟩

theorem getNetRssi_hi {info : SignalInfo} {z len : Nat} (hz : f.data z = 0) (hhz : f.head ≤ z)
    (hzn : z < c.uartRecvFifoSize) (h : ValueReads c f f.head len getNetRssiRspHead) :
    (getNetRssi f.data c.ram f.head len info).2 ≤ c.uartRecvFifoSize :=
  getAtcmdRspValue_hi keyword_netRssiRspHead.ne_nil (by decide) hz hhz hzn h

theorem net4gGetNetQengServingCellCb_hi {info : SignalInfo} {z len : Nat} (hz : f.data z = 0)
    (hhz : f.head ≤ z) (hzn : z < c.uartRecvFifoSize)
    (h : ValueReads c f f.head len (getNetQengServingCellRspHead c.moduleType)) :
    (net4gGetNetQengServingCellCb c.moduleType f.data c.ram f.head len info).2 ≤
      c.uartRecvFifoSize := by
  have hhi := getAtcmdRspValue_hi (keyword_qengServingCellRspHead c.moduleType).ne_nil
    (show netCmdRspTailOk ≠ [] by decide) hz hhz hzn h
  unfold net4gGetNetQengServingCellCb
  simp only
  split <;> exact hhi

theorem net4gGetNetQcellCb_hi {info : SignalInfo} {z : Nat} (hz : f.data z = 0)
    (hhz : f.head ≤ z) (hzn : z < c.uartRecvFifoSize)
    (h : ValueReads c f f.head (unreadLen c f) (getNetCellRspHead c.moduleType))
    (hnb : NeighboursOk c f) :
    (net4gGetNetQcellCb c.moduleType f.data c.ram f.head (unreadLen c f) info).2 ≤
      c.uartRecvFifoSize := by
  have hkey : ascii "neighbourcell" ≠ [] := by decide
  have hlen : (ascii "neighbourcell").length = 13 := rfl
  have htail : (if c.moduleType.quectel then netCmdRspTailOk else ascii "\r\n") ≠ [] := by
    split <;> decide
  have h1 := getAtcmdRspValue_hi (keyword_netCellRspHead c.moduleType).ne_nil htail hz hhz hzn h
  have h2 := CStr.strstrEnd_le c.ram hkey hz hhz
  unfold net4gGetNetQcellCb
  simp only
  cases hp : CStr.strstr f.data c.ram f.head (ascii "neighbourcell") with
  | none => exact Nat.max_le.2 ⟨h1, h2.trans hzn⟩
  | some p =>
    obtain ⟨hv, hnext⟩ := hnb p hp
    obtain ⟨hhp, hpz⟩ := CStr.strstr_le hkey hp hz hhz
    rw [hlen] at hpz
    have h3 := getAtcmdRspValue_hi hkey (show ascii "\r\n" ≠ [] by decide) hz
      (Nat.le_trans (Nat.le_add_right p 13) hpz) hzn hv
    have h4 := CStr.strstrEnd_le c.ram hkey hz hpz
    have h5 : max (max (max (getAtcmdRspValue f.data c.ram f.head (unreadLen c f)
        (getNetCellRspHead c.moduleType)
        (if c.moduleType.quectel then netCmdRspTailOk else ascii "\r\n")).2
        (CStr.strstrEnd f.data c.ram f.head (ascii "neighbourcell")))
        (getAtcmdRspValue f.data c.ram p (subU32 (unreadLen c f) (p - f.head))
          (ascii "neighbourcell") (ascii "\r\n")).2)
        (CStr.strstrEnd f.data c.ram (p + 13) (ascii "neighbourcell")) ≤ c.uartRecvFifoSize := by
      omega
    simp only
    cases hp' : CStr.strstr f.data c.ram (p + 13) (ascii "neighbourcell") with
    | none => exact h5
    | some p' =>
      obtain ⟨hpp, hpz'⟩ := CStr.strstr_le hkey hp' hz hpz
      have h6 := getAtcmdRspValue_hi hkey (show ascii "\r\n" ≠ [] by decide) hz
        (Nat.le_trans (Nat.le_add_right p' _) hpz') hzn (hnext p' hp')
      exact Nat.max_le.2 ⟨h5, h6⟩

/-- The test on the banner reads up to the NUL at the tail. -/
theorem rebootBannerEnd_le (hf : f.Wf c) : rebootBannerEnd c f ≤ c.uartRecvFifoSize := by
  have hboot := CStr.strstrEnd_le c.ram (show ascii "boot.rom" ≠ [] by decide) hf.data_tail
    (Nat.zero_le _)
  have hlierda := CStr.strstrEnd_le c.ram (show ascii "Lierda" ≠ [] by decide) hf.data_tail
    (Nat.zero_le _)
  have htail := hf.tail_lt
  unfold rebootBannerEnd
  split <;> omega

/-- After the array is cleared every string in it is empty. -/
theorem clearFifo_answersOk (c : Config) (f : Fifo) : AnswersOk c (clearFifo c f) := by
  have hz : (clearFifo c f).data 0 = 0 := if_pos c.fifo_pos
  have hnone : ∀ key : List UInt8, key ≠ [] →
      CStr.strstr (clearFifo c f).data c.ram (clearFifo c f).head key = none :=
    fun key hk => CStr.strstr_of_nul hk hz
  have hanswer : ∀ key : List UInt8, key ≠ [] → AnswerOk c (clearFifo c f) key :=
    fun key hk h => by rw [hnone key hk] at h; cases h
  refine ⟨⟨0, Nat.le_refl 0, c.fifo_pos, hz⟩, hanswer _ keyword_netRssiRspHead.ne_nil,
    fun _ => hanswer _ (keyword_qengServingCellRspHead _).ne_nil,
    fun _ => ⟨hanswer _ (keyword_netCellRspHead _).ne_nil, fun p hp => ?_⟩⟩
  rw [hnone _ (by decide)] at hp
  cases hp

/-- One search of the branch on a missing head. -/
theorem HeadFail.search_hi {l : HeadFail} {key : List UInt8} (hf : l.fifo.Wf c)
    (hk : Keyword key) (h : SearchReads c l.fifo key) (hl : l.hi ≤ c.uartRecvFifoSize) :
    (l.search c key).hi ≤ c.uartRecvFifoSize :=
  Nat.max_le.2 ⟨hl, h.hi hf hk _⟩

theorem headFailRetry_hi {l : HeadFail} (hf : l.fifo.Wf c)
    (h : SearchReads c l.fifo (netMqttDisconnectCmdHead c.moduleType)) {z : Nat}
    (hz : l.fifo.data z = 0) (hhz : l.fifo.head ≤ z) (hzn : z < c.uartRecvFifoSize)
    (hl : l.hi ≤ c.uartRecvFifoSize) : (headFailRetry c l).hi ≤ c.uartRecvFifoSize := by
  have hscan : max l.hi (CStr.strstrEnd l.fifo.data c.ram l.fifo.head (ascii "+QIURC:")) ≤
      c.uartRecvFifoSize :=
    Nat.max_le.2 ⟨hl, (CStr.strstrEnd_le c.ram (by decide) hz hhz).trans hzn⟩
  have hsearch := HeadFail.search_hi (l := l.scanned _) hf
    (keyword_disconnectCmdHead c.moduleType) h hscan
  unfold headFailRetry
  simp only
  split
  · split <;> exact hsearch
  · exact hscan

/-- The search of the notice reads inside the array, and so will the answers. -/
theorem headFailNotice_ok {l : HeadFail} (hf : l.fifo.Wf c) (h : HeadFailOk c l.fifo)
    (hl : l.hi ≤ c.uartRecvFifoSize) :
    (headFailNotice c l).hi ≤ c.uartRecvFifoSize ∧ AnswersOk c (headFailNotice c l).fifo := by
  have hk := keyword_disconnectCmdHead c.moduleType
  have hsearch := HeadFail.search_hi hf hk h.notice hl
  have hbanner : max (l.search c (netMqttDisconnectCmdHead c.moduleType)).hi
      (rebootBannerEnd c l.fifo) ≤ c.uartRecvFifoSize :=
    Nat.max_le.2 ⟨hsearch, rebootBannerEnd_le hf⟩
  -- with a banner and no notice, the array is cleared
  have hrest : (l.search c (netMqttDisconnectCmdHead c.moduleType)).ret = 1 ∨
      rebootBanner c l.fifo = false → AnswersOk c l.fifo := fun hnot => by
    refine h.rest.resolve_right fun ⟨hb, hx, hnone⟩ => ?_
    have hspec := getKeyDataIndex_spec hk hf.head_le hf.tail_lt hf.data_tail hx l.cmdHeadIndex
    have hfound := hspec.of_none hnone
    rcases hnot with hret | hnb
    · simp only [HeadFail.search, searchWindow, hfound] at hret
      cases hret
    · rw [hb] at hnb
      cases hnb
  unfold headFailNotice
  simp only
  split
  · exact ⟨hsearch, hrest (.inl ‹_›)⟩
  split
  · exact ⟨hbanner, clearFifo_answersOk c _⟩
  rename_i hnb
  have hans := hrest (.inr (Bool.not_eq_true _ ▸ hnb))
  split
  · obtain ⟨z, hhz, hzn, hz⟩ := hans.nul
    refine ⟨headFailRetry_hi (l := (l.search c _).scanned _) hf h.notice hz hhz hzn hbanner, ?_⟩
    rw [headFailRetry_fifo]
    exact hans
  · exact ⟨hbanner, hans⟩

/-- One answer of the radio. -/
theorem headFailAnswer_hi (b : Bool) {key : List UInt8} (gsm recvLen : Nat) {l : HeadFail}
    {g : (Nat → UInt8) → Nat → Nat → Nat → SignalInfo → SignalInfo × Nat} (hf : l.fifo.Wf c)
    (hk : Keyword key) {z : Nat} (hz : l.fifo.data z = 0) (hhz : l.fifo.head ≤ z)
    (hzn : z < c.uartRecvFifoSize) (hl : l.hi ≤ c.uartRecvFifoSize)
    (hs : (CStr.strstr l.fifo.data c.ram l.fifo.head key).isSome → SearchReads c l.fifo key)
    (hg : (CStr.strstr l.fifo.data c.ram l.fifo.head key).isSome →
      (g l.fifo.data c.ram l.fifo.head recvLen l.info).2 ≤ c.uartRecvFifoSize) :
    (headFailAnswer c b key key g gsm recvLen l).hi ≤ c.uartRecvFifoSize := by
  have htext : CStr.textEnd l.fifo.data c.ram l.fifo.head ≤ c.uartRecvFifoSize :=
    (CStr.textEnd_le hz hhz).trans hzn
  have hstr : CStr.strstrEnd l.fifo.data c.ram l.fifo.head key ≤ c.uartRecvFifoSize :=
    (CStr.strstrEnd_le c.ram hk.ne_nil hz hhz).trans hzn
  unfold headFailAnswer
  cases b <;> simp only [if_true, Bool.false_eq_true, if_false] <;> split
  · rename_i hsome
    have hscan : max (max l.hi (CStr.strstrEnd l.fifo.data c.ram l.fifo.head key))
        (CStr.textEnd l.fifo.data c.ram l.fifo.head) ≤ c.uartRecvFifoSize := by omega
    have hsearch := HeadFail.search_hi (l := (l.scanned _).scanned _) hf hk (hs hsome) hscan
    split
    · exact Nat.max_le.2 ⟨hsearch, hg hsome⟩
    · exact hsearch
  · exact Nat.max_le.2 ⟨hl, hstr⟩
  · rename_i hsome
    have hscan : max (max l.hi (CStr.textEnd l.fifo.data c.ram l.fifo.head))
        (CStr.strstrEnd l.fifo.data c.ram l.fifo.head key) ≤ c.uartRecvFifoSize := by omega
    have hsearch := HeadFail.search_hi (l := (l.scanned _).scanned _) hf hk (hs hsome) hscan
    split
    · exact Nat.max_le.2 ⟨hsearch, hg hsome⟩
    · exact hsearch
  · exact Nat.max_le.2 ⟨Nat.max_le.2 ⟨hl, htext⟩, hstr⟩

/-- The branch on a missing head reads inside the array. -/
theorem headFail_hi {r : Recv} {info : SignalInfo} {hi : Nat} (hf : r.fifo.Wf c)
    (h : HeadFailOk c r.fifo) (hhi : hi ≤ c.uartRecvFifoSize) :
    (headFail c r info hi).hi ≤ c.uartRecvFifoSize := by
  have hwf := (headFailNotice_fifo (c := c) ⟨2, 0, r.fifo, info, 0, hi⟩).wf hf
  obtain ⟨hl, hans⟩ := headFailNotice_ok (l := ⟨2, 0, r.fifo, info, 0, hi⟩) hf h hhi
  unfold headFail
  simp only
  generalize headFailNotice c ⟨2, 0, r.fifo, info, 0, hi⟩ = l at hwf hl hans ⊢
  obtain ⟨z, hhz, hzn, hz⟩ := hans.nul
  have hrssi : ∀ l' : HeadFail, l'.fifo = l.fifo →
      (CStr.strstr l'.fifo.data c.ram l'.fifo.head getNetRssiRspHead).isSome →
      (getNetRssi l'.fifo.data c.ram l'.fifo.head (unreadLen c l.fifo) l'.info).2 ≤
        c.uartRecvFifoSize := fun l' hl' hsome => by
    rw [hl'] at hsome ⊢
    exact getNetRssi_hi hz hhz hzn (hans.rssi hsome).2
  split
  · -- the second family: the answer `+CSQ:`, then `+QENG:`
    rename_i hq
    have hkey : getNetQengServingCellRspHead c.moduleType = ascii "+QENG:" := if_pos hq
    have hqeng := hans.qeng hq
    have hfst := headFailAnswer_hi true 0 (unreadLen c l.fifo) hwf keyword_netRssiRspHead hz hhz
      hzn hl (fun hsome => (hans.rssi hsome).1) (hrssi l rfl)
    have hkw := keyword_qengServingCellRspHead c.moduleType
    rw [hkey] at hqeng hkw ⊢
    refine headFailAnswer_hi _ _ _ (by rwa [headFailAnswer_fifo]) hkw (z := z)
      (by rwa [headFailAnswer_fifo]) (by rwa [headFailAnswer_fifo]) hzn hfst
      (fun hsome => ?_) (fun hsome => ?_)
    · rw [headFailAnswer_fifo] at hsome ⊢
      exact (hqeng hsome).1
    · rw [headFailAnswer_fifo] at hsome ⊢
      refine net4gGetNetQengServingCellCb_hi hz hhz hzn ?_
      rw [hkey]
      exact (hqeng hsome).2
  · -- the first family: the answer `+LCELL:`, then `+CSQ:`
    rename_i hq
    have hq' : c.moduleType.quectel = false := Bool.not_eq_true _ ▸ hq
    have hkey : getNetCellRspHead c.moduleType = ascii "+LCELL:" := if_neg hq
    obtain ⟨hlcell, hnb⟩ := hans.lcell hq'
    have hkw := keyword_netCellRspHead c.moduleType
    rw [hkey] at hlcell hkw ⊢
    have hfst := headFailAnswer_hi false 0 (unreadLen c l.fifo) hwf hkw hz hhz hzn hl
      (fun hsome => (hlcell hsome).1) (g := net4gGetNetQcellCb c.moduleType)
      (fun hsome => net4gGetNetQcellCb_hi hz hhz hzn (by rw [hkey]; exact (hlcell hsome).2) hnb)
    refine headFailAnswer_hi _ _ _ (by rwa [headFailAnswer_fifo]) keyword_netRssiRspHead (z := z)
      (by rwa [headFailAnswer_fifo]) (by rwa [headFailAnswer_fifo]) hzn hfst
      (fun hsome => ?_) (hrssi _ (headFailAnswer_fifo ..))
    rw [headFailAnswer_fifo] at hsome ⊢
    exact (hans.rssi hsome).1

end

end AppXd.Net4g
