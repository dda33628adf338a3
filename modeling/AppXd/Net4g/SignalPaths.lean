import AppXd.Net4g.CallbackBuffers
import AppXd.Net4g.Downlink
import AppXd.Net4g.Notice
import AppXd.Net4g.RingSearch
import AppXd.Net4g.Route

/-!
# The two ways of a signal strength

A response `+CSQ:` is handled by the callback of the configuration command, or as a line that comes
unasked, in `get_net4G_recv_cmd`. The callback takes a value above 31 for 0 and stores what it gets;
the other branch knows no limit, and leaves the signal as it is on a 0. `SignalsAgree` compares the
two, `SignalsFit` says where they agree.
-/

namespace AppXd.Net4g

open CStr (ascii textAt)

/-! ## The line -/

/-- A response line: `+CSQ:`, the two numbers and `OK`, with blanks between. -/
structure CsqLine where
  pre : List UInt8
  gap : List UInt8
  digits : List UInt8
  ber : List UInt8
  mid : List UInt8
  post : List UInt8
  blanks : ∀ b ∈ pre ++ (gap ++ (mid ++ post)), lineBlank b = true
  decimal : ∀ b ∈ digits ++ ber, 48 ≤ b ∧ b ≤ 57
  digits_pos : 0 < digits.length
  digits_le : digits.length ≤ 3
  rssi_le : CStr.digits 10 digits ≤ 255
  ber_pos : 0 < ber.length
  ber_le : ber.length ≤ 2
  short : pre.length + gap.length + mid.length + post.length ≤ 240

namespace CsqLine

variable (l : CsqLine)

/-- The value, as text. -/
def value : List UInt8 := l.digits ++ 44 :: l.ber

/-- What stands behind the head. -/
def body : List UInt8 := l.gap ++ (l.value ++ l.mid) ++ (netCmdRspTailOk ++ l.post)

def bytes : List UInt8 := l.pre ++ (getNetRssiRspHead ++ l.body)

def rssi : Nat := CStr.digits 10 l.digits

/-- The value as far as it is known: 99 and 255 are no strength. -/
def known : Nat := if 31 < l.rssi then 0 else l.rssi

end CsqLine

/-! ## The callback -/

/-- `net4g_get_net_rssi_cb`. `none` is a value that leaves its buffer of 50 bytes unterminated or
does not fit. -/
def net4gGetNetRssiCb (srcData : List UInt8) (s : SignalInfo) : Option (Bool × SignalInfo) :=
  match answerValue srcData srcData.length (some getNetRssiRspHead) with
  | none => some (false, s)
  | some v =>
    if v.length < 50 then
      let rssiValue := (CStr.atoi (textAt (CStr.copyInto 50 v) 0) % 256).toNat
      let rssiValue := if 31 < rssiValue then 0 else rssiValue
      some (true, { s with
        signal := rssiValue * 100 / 31
        qengServingcellInfo := { s.qengServingcellInfo with rssi := rssiValue } })
    else none

/-! ## The line that comes unasked -/

/-- The line is what is unread, and no command has been begun. -/
structure Unsolicited (c : Config) (r : Recv) (l : CsqLine) : Prop where
  wf : r.fifo.Wf c
  window : r.window c = l.bytes
  step : r.cmdGetStep = 0
  middle : r.checkPubMiddleFlag = false
  ack : r.checkPubAckFlag = false

/-- The two calls that the line needs: one sees that there is something, the next gives it up. -/
def recvUnsolicited (c : Config) (r : Recv) (info : SignalInfo) : SignalInfo :=
  let x := getNet4GRecvCmd c r info
  (getNet4GRecvCmd c x.recv x.info).info

/-- Both ways leave the same strength, and one of at most 100. -/
def SignalsAgree (c : Config) (r : Recv) (info : SignalInfo) (l : CsqLine) : Prop :=
  ∃ ok s, net4gGetNetRssiCb l.bytes info = some (ok, s) ∧
    s.signal = (recvUnsolicited c r info).signal ∧
    s.qengServingcellInfo.rssi = (recvUnsolicited c r info).qengServingcellInfo.rssi ∧
    (recvUnsolicited c r info).signal ≤ 100

/-- What stands behind the first `+CSQ:` of the string from the head on. The string does not end where
the ring does, but at the next NUL of the memory. -/
def flatBody (c : Config) (f : Fifo) : Option (List UInt8) :=
  afterHead (some getNetRssiRspHead) (CStr.text f.data c.ram f.head)

/-- What `get_atcmd_rsp_value` finds in the string from the head on. -/
def flatValue (c : Config) (f : Fifo) : Option (List UInt8) :=
  (getAtcmdRspValue f.data c.ram f.head (unreadLen c f) getNetRssiRspHead netCmdRspTailOk).1

/-- There it finds the text up to the tail, as the string has an end and the text fits. -/
def FlatRight (c : Config) (f : Fifo) (body : List UInt8) : Prop :=
  CStr.Holds f.data c.ram f.head (CStr.text f.data c.ram f.head) ∧
    BodyFits (subU32 (unreadLen c f) getNetRssiRspHead.length % 256) netCmdRspTailOk body

/-- The number of a value; without one it is 0. -/
def valueRssi : Option (List UInt8) → Nat
  | none => 0
  | some v => (CStr.atoi (textAt (CStr.copyInto 200 v) 0) % 256).toNat

/-- The number is stored as the callback stores it: a 0 leaves the signal. -/
def StoredAs (info : SignalInfo) (n known : Nat) : Prop :=
  n = known ∧ (n = 0 → info.signal = 0)

/-- The values are there already. -/
def HeldAs (info : SignalInfo) (known : Nat) : Prop :=
  info.signal = known * 100 / 31 ∧ info.qengServingcellInfo.rssi = known

/-- With the reboot banner in the array the line is thrown away. Otherwise a line in one piece is
stored, and of one that passes the end of the ring what the memory behind its first part makes of it:
without another head nothing is stored, and else the number behind that head. -/
def SignalsFit (c : Config) (r : Recv) (info : SignalInfo) (l : CsqLine) : Prop :=
  if rebootBanner c r.fifo then HeldAs info l.known
  else if r.fifo.head ≤ r.fifo.tail then StoredAs info l.rssi l.known
  else match flatBody c r.fifo with
    | none => HeldAs info l.known
    | some body =>
      (FlatRight c r.fifo body →
        StoredAs info (valueRssi (valueOfBody netCmdRspTailOk body)) l.known) ∧
      (¬ FlatRight c r.fifo body → StoredAs info (valueRssi (flatValue c r.fifo)) l.known)

/-! ## What the line gives -/

/-- `atoi` stops behind the digits. -/
theorem atoi_digits_append {digits rest : List UInt8} (hne : digits ≠ [])
    (hdec : ∀ b ∈ digits, 48 ≤ b ∧ b ≤ 57) (hrest : ∀ b ∈ rest.head?, ¬ CStr.digitVal b < 10)
    (hint : CStr.digits 10 digits ≤ 2147483647) :
    CStr.atoi (digits ++ rest) = CStr.digits 10 digits := by
  obtain ⟨hspace, hminus, hplus⟩ := dropWhile_isSpace hdec
  have hhead : (digits ++ rest).head? = digits.head? := List.head?_append_of_ne_nil _ hne
  have hdrop : (digits ++ rest).dropWhile CStr.isSpace = digits ++ rest := by
    rw [List.dropWhile_append, hspace, if_neg (by rwa [List.isEmpty_iff])]
  have hall : ∀ b ∈ digits, decide (CStr.digitVal b < 10) = true := fun b hb =>
    decide_eq_true (isDigit_cases (hdec b hb)).2.2.2.2
  have hstop : rest.takeWhile (fun b => decide (CStr.digitVal b < 10)) = [] := by
    cases rest with
    | nil => rfl
    | cons b rest => exact List.takeWhile_cons_of_neg (by simpa using hrest b rfl)
  have hdigits : CStr.digits 10 (digits ++ rest) = CStr.digits 10 digits := by
    unfold CStr.digits
    rw [List.takeWhile_append_of_pos hall, hstop, List.append_nil, List.takeWhile_eq_self_iff.2 hall]
  have hnumber : CStr.number 10 (digits ++ rest) = CStr.digits 10 digits := by
    unfold CStr.number
    simp [hdrop, hhead, hminus, hplus, hdigits]
  rw [← hnumber]
  refine CStr.strtol_eq_number_iff.2 ?_
  unfold CStr.InRange
  rw [hnumber]
  omega

namespace CsqLine

variable (l : CsqLine)

/-- The bytes of a line. -/
theorem mem_bytes {b : UInt8} (hb : b ∈ l.bytes) :
    lineBlank b = true ∨ (48 ≤ b ∧ b ≤ 57) ∨ b = 44 ∨ b ∈ getNetRssiRspHead ∨
      b ∈ netCmdRspTailOk := by
  have hblank := l.blanks b
  have hdec := l.decimal b
  simp only [bytes, body, value, List.mem_append, List.mem_cons] at hb hblank hdec
  tauto

theorem notMem_bytes {b : UInt8} (hblank : lineBlank b = false) (hdec : ¬ (48 ≤ b ∧ b ≤ 57))
    (hcomma : b ≠ 44) (hhead : b ∉ getNetRssiRspHead) (htail : b ∉ netCmdRspTailOk) :
    b ∉ l.bytes := by
  intro hb
  rcases l.mem_bytes hb with h | h | h | h | h
  · rw [hblank] at h
    cases h
  · exact hdec h
  · exact hcomma h
  · exact hhead h
  · exact htail h

theorem zero_notMem : 0 ∉ l.bytes :=
  l.notMem_bytes (by decide) (by decide) (by decide) (by decide) (by decide)

theorem length_bytes_le : l.bytes.length ≤ 253 := by
  have h1 := l.digits_le
  have h2 := l.ber_le
  have h3 := l.short
  have hhead : getNetRssiRspHead.length = 5 := by decide
  have htail : netCmdRspTailOk.length = 2 := by decide
  simp only [bytes, body, value, List.length_append, List.length_cons, hhead, htail]
  omega

/-- Plus signs are blanks no more than letters are. -/
theorem notMem_of_blank {b : UInt8} {s : List UInt8} (hs : ∀ x ∈ s, lineBlank x = true)
    (hb : lineBlank b = false) : b ∉ s := by
  intro h
  have htrue := hs b h
  rw [hb] at htrue
  cases htrue

theorem pre_blank : ∀ b ∈ l.pre, lineBlank b = true := fun b hb =>
  l.blanks b (List.mem_append_left _ hb)

theorem gap_blank : ∀ b ∈ l.gap, lineBlank b = true := fun b hb =>
  l.blanks b (List.mem_append_right _ (List.mem_append_left _ hb))

theorem mid_blank : ∀ b ∈ l.mid, lineBlank b = true := fun b hb =>
  l.blanks b (List.mem_append_right _ (List.mem_append_right _ (List.mem_append_left _ hb)))

theorem firstAt_head : Seq.firstAt getNetRssiRspHead l.bytes = some l.pre.length := by
  have hcons : getNetRssiRspHead = 43 :: ascii "CSQ:" := by decide
  unfold bytes
  rw [hcons]
  exact Seq.firstAt_append_left (notMem_of_blank l.pre_blank (by decide)) _

theorem afterHead_bytes : afterHead (some getNetRssiRspHead) l.bytes = some l.body := by
  have hdrop : l.bytes.drop (l.pre.length + getNetRssiRspHead.length) = l.body := by
    rw [bytes, ← List.drop_drop, List.drop_left, List.drop_left]
  unfold afterHead
  simp only [l.firstAt_head, Option.map_some, hdrop]

theorem firstAt_tail :
    Seq.firstAt netCmdRspTailOk l.body = some (l.gap ++ (l.value ++ l.mid)).length := by
  have hcons : netCmdRspTailOk = 79 :: ascii "K" := by decide
  have hdec : ∀ b ∈ l.digits ++ l.ber, b ≠ 79 := by
    rintro b hb rfl
    exact absurd (l.decimal 79 hb) (by decide)
  unfold body
  rw [hcons]
  refine Seq.firstAt_append_left ?_ _
  simp only [value, List.mem_append, List.mem_cons]
  rintro (h | (h | h | h) | h)
  · exact notMem_of_blank l.gap_blank (by decide) h
  · exact hdec 79 (List.mem_append_left _ h) rfl
  · exact absurd h (by decide)
  · exact hdec 79 (List.mem_append_right _ h) rfl
  · exact notMem_of_blank l.mid_blank (by decide) h

/-- A number keeps its ends. -/
theorem trim_value : Seq.trim lineBlank l.value = l.value := by
  have hdigit : ∀ b : UInt8, 48 ≤ b ∧ b ≤ 57 → lineBlank b = false := fun b hb => by
    have hblank := (isDigit_cases hb).2.2.2.1
    rwa [blank_eq_lineBlank (by rintro rfl; exact absurd hb (by decide))] at hblank
  refine (Seq.trim_eq_self_iff _).2 ⟨fun b hb => hdigit b (l.decimal b ?_), fun b hb =>
    hdigit b (l.decimal b ?_)⟩
  · have hne := List.ne_nil_of_length_pos l.digits_pos
    rw [value, List.head?_append_of_ne_nil _ hne] at hb
    exact List.mem_append_left _ (List.mem_of_mem_head? hb)
  · have hne := List.ne_nil_of_length_pos l.ber_pos
    rw [value, List.getLast?_append_of_ne_nil _ (List.cons_ne_nil _ _),
      List.getLast?_cons_of_ne_nil hne] at hb
    exact List.mem_append_right _ (List.mem_of_mem_getLast? hb)

theorem lead_body : Seq.lead lineBlank l.body = l.gap.length := by
  have hne : l.value ≠ [] := List.append_ne_nil_of_right_ne_nil _ (List.cons_ne_nil _ _)
  rw [body, List.append_assoc, Seq.lead_append _ (Seq.lead_eq_length_iff.2 l.gap_blank),
    List.append_assoc, Seq.lead_eq_zero, Nat.add_zero]
  rw [List.head?_append_of_ne_nil _ hne]
  exact ((Seq.trim_eq_self_iff _).1 l.trim_value).1

/-- What `get_atcmd_rsp_value` finds where the line stands. -/
theorem value_eq {data : Nat → UInt8} {ram src : Nat} (h : CStr.Holds data ram src l.bytes) :
    (getAtcmdRspValue data ram src l.bytes.length getNetRssiRspHead netCmdRspTailOk).1 =
      some l.value := by
  have hhead : getNetRssiRspHead.length = 5 := by decide
  have hlen := l.length_bytes_le
  have hbytes : l.bytes.length = l.pre.length + 5 + l.body.length := by
    rw [bytes, List.length_append, List.length_append, hhead]
    omega
  have hbody : l.body.length = (l.gap ++ (l.value ++ l.mid)).length +
      (netCmdRspTailOk ++ l.post).length := List.length_append
  have htail : 2 ≤ (netCmdRspTailOk ++ l.post).length := by
    rw [List.length_append]
    exact Nat.le_add_right 2 _
  have hgap : l.gap.length ≤ (l.gap ++ (l.value ++ l.mid)).length := by
    rw [List.length_append]
    exact Nat.le_add_right _ _
  have hloop : headLoopLen (some getNetRssiRspHead) l.bytes = l.bytes.length - 5 :=
    Nat.mod_eq_of_lt (by rw [Option.getD_some, hhead]; omega)
  have hfits : BodyFits (headLoopLen (some getNetRssiRspHead) l.bytes) netCmdRspTailOk l.body := by
    rw [hloop]
    refine ⟨.inl (by rw [l.lead_body]; omega), fun j hj => ?_⟩
    cases l.firstAt_tail.symm.trans hj
    have hleft : l.body.take (l.gap ++ (l.value ++ l.mid)).length = l.gap ++ (l.value ++ l.mid) :=
      List.take_left
    have hlead := Seq.lead_take (p := lineBlank) l.body (l.gap ++ (l.value ++ l.mid)).length
    rw [hleft, l.lead_body] at hlead
    simp only [l.lead_body, hleft]
    rw [if_pos (by omega)]
    exact .inr ⟨by omega, by omega⟩
  have hright := (valueRight_body_iff h l.afterHead_bytes).2 hfits
  have hne : l.value ≠ [] := List.append_ne_nil_of_right_ne_nil _ (List.cons_ne_nil _ _)
  refine hright.1.trans ?_
  unfold valueBetween valueOfBody
  rw [l.afterHead_bytes, Option.bind_some, l.firstAt_tail, Option.bind_some, body, List.take_left,
    Seq.trim_append l.gap_blank l.mid_blank hne l.trim_value]
  exact if_neg hne

theorem mem_bytes_of_value {b : UInt8} (hb : b ∈ l.value) : b ∈ l.bytes := by
  simp only [bytes, body, List.mem_append]
  exact .inr (.inr (.inl (.inr (.inl hb))))

/-- The number, in a buffer of any size. -/
theorem atoi_value (n : Nat) :
    (CStr.atoi (textAt (CStr.copyInto n l.value) 0) % 256).toNat = l.rssi := by
  have hle : l.rssi ≤ 255 := l.rssi_le
  have hatoi : CStr.atoi l.value = l.rssi := by
    refine atoi_digits_append (List.ne_nil_of_length_pos l.digits_pos) (fun b hb =>
      l.decimal b (List.mem_append_left _ hb)) ?_ ?_
    · rintro b ⟨⟩
      decide
    · exact Nat.le_trans l.rssi_le (by decide)
  rw [CStr.textAt_copyInto fun h => l.zero_notMem (l.mem_bytes_of_value h), hatoi]
  omega

theorem length_value_lt : l.value.length < 50 := by
  have h1 := l.digits_le
  have h2 := l.ber_le
  rw [value, List.length_append, List.length_cons]
  omega

/-- The callback stores the strength as far as it is known. -/
theorem net4gGetNetRssiCb_bytes (s : SignalInfo) :
    net4gGetNetRssiCb l.bytes s = some (true, { s with
      signal := l.known * 100 / 31
      qengServingcellInfo := { s.qengServingcellInfo with rssi := l.known } }) := by
  have hvalue : answerValue l.bytes l.bytes.length (some getNetRssiRspHead) = some l.value :=
    l.value_eq (holds_getD l.zero_notMem)
  unfold net4gGetNetRssiCb
  simp only [hvalue, if_pos l.length_value_lt, l.atoi_value]
  rfl

theorem known_le : l.known ≤ 31 := by
  unfold known
  split
  · exact Nat.zero_le _
  · exact Nat.not_lt.1 ‹_›

end CsqLine

/-! ## The searches -/

section
variable {c : Config} {f : Fifo} {key : List UInt8}

/-- The cells of a window that passes the end of the ring. -/
theorem getElem?_window_upper (hlt : f.tail < f.head) (hh : f.head ≤ c.uartRecvFifoSize)
    (ht : f.tail < c.uartRecvFifoSize) {q : Nat} (h1 : f.head ≤ q) (h2 : q < c.uartRecvFifoSize) :
    (f.window c)[q - f.head]? = some (f.data q) := by
  have hun := Ring.unread_of_lt (n := c.uartRecvFifoSize) hlt
  unfold Fifo.window
  rw [Ring.getElem?_window hh ht (by omega), Ring.wrap, if_pos (by omega), Nat.add_sub_cancel' h1]

theorem getElem?_window_lower (hlt : f.tail < f.head) (hh : f.head ≤ c.uartRecvFifoSize)
    (ht : f.tail < c.uartRecvFifoSize) {p : Nat} (hp : p < f.tail) :
    (f.window c)[c.uartRecvFifoSize - f.head + p]? = some (f.data p) := by
  have hun := Ring.unread_of_lt (n := c.uartRecvFifoSize) hlt
  have hcell : f.head + (c.uartRecvFifoSize - f.head + p) - c.uartRecvFifoSize = p := by omega
  unfold Fifo.window
  rw [Ring.getElem?_window hh ht (by omega), Ring.wrap, if_neg (by omega), hcell]

/-- A keyword with a byte that does not come in is not found, when its first byte stands at one
place at most: of the comparisons only one is cut by the end of the ring. -/
theorem searchWindow_missing (hk : Keyword key) (hf : f.Wf c) {x : UInt8} (hx : x ∈ key)
    (hxw : x ∉ f.window c)
    (hone : ∀ i j : Nat, (f.window c)[i]? = some (keyByte key 0) →
      (f.window c)[j]? = some (keyByte key 0) → i = j) (idx : Nat) :
    (searchWindow c f key idx).found = false := by
  obtain ⟨hh, ht, hz⟩ := hf
  have hno : ∀ p, ¬ Seq.OccursAt key (f.window c) p := fun p ho =>
    hxw (List.mem_of_mem_drop (ho.subset hx))
  have hnone := Seq.firstAt_eq_none hno
  unfold searchWindow
  rcases Nat.lt_or_ge f.tail f.head with hlt | hle
  swap
  · exact (getKeyDataIndex_flat hk hle ht hz idx).of_none hnone
  by_cases hcut : ∃ q, f.head ≤ q ∧ q < c.uartRecvFifoSize ∧ c.uartRecvFifoSize < q + key.length ∧
      f.data q = keyByte key 0
  swap
  · have hcross : Crossing c f.data f.head f.tail key := .inr (.inr fun q h1 h2 h3 h4 =>
      hcut ⟨q, h1, h2, h3, h4⟩)
    exact (getKeyDataIndex_spec hk hh ht hz hcross idx).of_none hnone
  obtain ⟨q, h1, h2, h3, h4⟩ := hcut
  have hq := getElem?_window_upper hlt hh ht h1 h2
  rw [h4] at hq
  have hlone : LoneCut c f.data f.head f.tail key q := by
    refine ⟨h1, h2, h3, h4, fun t ht1 ht2 _ ht4 => ?_, ?_⟩
    · have hcell := getElem?_window_upper hlt hh ht ht1 ht2
      rw [ht4] at hcell
      have := hone _ _ hcell hq
      omega
    by_cases hag : Agrees f.data key q (c.uartRecvFifoSize - q)
    · refine .inl ⟨hag, .inr ⟨hno, ?_⟩⟩
      rintro ⟨ii, hii, -, hrest⟩
      obtain ⟨j, hj, rfl⟩ := List.getElem_of_mem hx
      have hbyte : keyByte key j = key[j] := List.getD_eq_getElem _ _ hj
      rcases Nat.lt_or_ge j (c.uartRecvFifoSize - q) with hlow | hhigh
      · have hcell := getElem?_window_upper hlt hh ht (q := q + j) (by omega) (by omega)
        rw [hag j hlow, hbyte] at hcell
        exact hxw (List.mem_of_getElem? hcell)
      · -- the rest of the key ends before the NUL at the tail
        have hend : ii + (j - (c.uartRecvFifoSize - q)) < f.tail := by
          by_contra hge
          have hnul := hrest (f.tail - ii) (by omega)
          rw [Nat.add_sub_cancel' hii.le, hz] at hnul
          exact keyByte_ne_zero hk (by omega) hnul.symm
        have hcell := getElem?_window_lower hlt hh ht hend
        rw [hrest _ (by omega), Nat.add_sub_cancel' hhigh, hbyte] at hcell
        exact hxw (List.mem_of_getElem? hcell)
    · refine .inr ⟨hag, fun p hp hagp => ?_⟩
      have hcell := getElem?_window_lower hlt hh ht hp
      have hfirst := hagp 0 (by omega)
      rw [Nat.add_zero] at hfirst
      rw [hfirst] at hcell
      have := hone _ _ hcell hq
      omega
  have hun := Ring.unread_of_lt (n := c.uartRecvFifoSize) hlt
  refine (hlone.firstFound hk.ne_nil hk.short (by omega) ht hlt (fun p hp1 hp2 hag => ?_)
    idx).of_none hnone
  refine hno (p - f.head) ((occursAt_window_upper hk.ne_nil hh ht (by omega) (by omega)).2 ?_)
  rwa [Nat.add_sub_cancel' hp1]

end

namespace CsqLine

variable (l : CsqLine)

/-- The only plus sign begins the head. -/
theorem plus_unique {i : Nat} (h : l.bytes[i]? = some 43) : i = l.pre.length := by
  have hbytes : l.bytes = l.pre ++ (43 :: (ascii "CSQ:" ++ l.body)) := by
    have hcons : getNetRssiRspHead = 43 :: ascii "CSQ:" := by decide
    rw [bytes, hcons]
    rfl
  have hbody : 43 ∉ ascii "CSQ:" ++ l.body := by
    have hdec : 43 ∉ l.digits ++ l.ber := fun hmem => absurd (l.decimal 43 hmem) (by decide)
    have hpost : ∀ b ∈ l.post, lineBlank b = true := fun b hb =>
      l.blanks b (List.mem_append_right _ (List.mem_append_right _ (List.mem_append_right _ hb)))
    simp only [body, value, List.mem_append, List.mem_cons, not_or] at hdec ⊢
    exact ⟨by decide, ⟨notMem_of_blank l.gap_blank (by decide), ⟨hdec.1, by decide, hdec.2⟩,
      notMem_of_blank l.mid_blank (by decide)⟩, by decide, notMem_of_blank hpost (by decide)⟩
  rw [hbytes] at h
  rcases Nat.lt_trichotomy i l.pre.length with hlt | rfl | hgt
  · rw [List.getElem?_append_left hlt] at h
    exact absurd (List.mem_of_getElem? h) (notMem_of_blank l.pre_blank (by decide))
  · rfl
  · obtain ⟨k, rfl⟩ := Nat.exists_eq_add_of_lt hgt
    rw [List.getElem?_append_right (by omega), Nat.add_assoc, Nat.add_sub_cancel_left,
      List.getElem?_cons_succ] at h
    exact absurd (List.mem_of_getElem? h) hbody

end CsqLine

section
variable {c : Config} {f : Fifo} {l : CsqLine}

theorem plus_first {key : List UInt8} (hplus : keyByte key 0 = 43) (hw : f.window c = l.bytes)
    (i j : Nat) (hi : (f.window c)[i]? = some (keyByte key 0))
    (hj : (f.window c)[j]? = some (keyByte key 0)) : i = j := by
  rw [hw, hplus] at hi hj
  rw [l.plus_unique hi, l.plus_unique hj]

/-- The heads of the other answers and notices have a letter that the line lacks. -/
theorem searchWindow_other {key : List UInt8} (hk : Keyword key) (hplus : keyByte key 0 = 43)
    (hletter : 77 ∈ key ∨ 69 ∈ key) (hf : f.Wf c) (hw : f.window c = l.bytes) (idx : Nat) :
    (searchWindow c f key idx).found = false := by
  have hone := plus_first hplus hw
  rcases hletter with h | h
  · refine searchWindow_missing hk hf h ?_ hone idx
    rw [hw]
    exact l.notMem_bytes (by decide) (by decide) (by decide) (by decide) (by decide)
  · refine searchWindow_missing hk hf h ?_ hone idx
    rw [hw]
    exact l.notMem_bytes (by decide) (by decide) (by decide) (by decide) (by decide)

/-- The head of the line is found wherever the ring ends. -/
theorem searchWindow_csq (hf : f.Wf c) (hw : f.window c = l.bytes) (idx : Nat) :
    (searchWindow c f getNetRssiRspHead idx).found = true := by
  obtain ⟨hh, ht, hz⟩ := hf
  have hfirst := l.firstAt_head
  rw [← hw] at hfirst
  have hplus : keyByte getNetRssiRspHead 0 = 43 := by decide
  have hcross : Crossing c f.data f.head f.tail getNetRssiRspHead := by
    rcases Nat.lt_or_ge f.tail f.head with hlt | hle
    swap
    · exact .inl hle
    by_cases hpos : f.head + l.pre.length < c.uartRecvFifoSize
    · exact .inr (.inl ⟨_, Seq.firstAt_occursAt hfirst, hpos⟩)
    · refine .inr (.inr fun q h1 h2 _ h4 => ?_)
      have hcell := getElem?_window_upper hlt hh ht h1 h2
      rw [h4, hplus, hw] at hcell
      have := l.plus_unique hcell
      omega
  exact ((getKeyDataIndex_spec keyword_netRssiRspHead hh ht hz hcross idx).of_some hfirst).1

/-- A line in one piece stands in the memory as a string. -/
theorem holds_window (hf : f.Wf c) (hw : f.window c = l.bytes) (hle : f.head ≤ f.tail) :
    CStr.Holds f.data c.ram f.head l.bytes := by
  obtain ⟨-, ht, hz⟩ := hf
  have hcells : Ring.cells f.data f.head f.tail = l.bytes := by
    rw [← hw]
    exact (Ring.window_of_le hle).symm
  have hlen : l.bytes.length = f.tail - f.head := by
    rw [← hcells, Ring.length_cells]
  refine ⟨l.zero_notMem, fun i hi => ?_, ?_, ?_⟩
  · have hget := Ring.getElem?_cells f.data (a := f.head) (b := f.tail) (k := i) (by omega)
    rw [hcells, List.getElem?_eq_getElem hi] at hget
    exact (Option.some.inj hget).symm
  · rw [hlen, Nat.add_sub_cancel' hle]
    exact hz
  · have hram := c.fifo_ram
    omega

/-- The number that the branch on a missing head stores, if it stores one. -/
def flatRssi (c : Config) (f : Fifo) : Option Nat :=
  if (CStr.strstr f.data c.ram f.head getNetRssiRspHead).isSome then
    some (valueRssi (flatValue c f))
  else none

/-- What is found where it is found right. -/
theorem FlatRight.flatValue {body : List UInt8} (h : FlatRight c f body)
    (hbody : flatBody c f = some body) :
    AppXd.Net4g.flatValue c f = valueOfBody netCmdRspTailOk body := by
  obtain ⟨hholds, hfits⟩ := h
  obtain ⟨a, ha, rfl⟩ := Option.map_eq_some_iff.1 hbody
  obtain ⟨ho, hle, -⟩ := Seq.firstAt_eq_some_iff.1 ha
  have hfit := List.IsPrefix.length_le ho
  rw [List.length_drop] at hfit
  generalize CStr.text f.data c.ram f.head = s at hholds ha hle hfit hfits
  have hend : f.head + (a + getNetRssiRspHead.length) +
      (s.drop (a + getNetRssiRspHead.length)).length = f.head + s.length := by
    rw [List.length_drop]
    omega
  have hright := (valueAfter_right_iff _ netCmdRspTailOk
    (hholds.drop (k := a + getNetRssiRspHead.length) (by omega))
    (hend.symm ▸ hholds.strstrEnd_le getNetRssiRspHead)).2 hfits
  rw [← Nat.add_assoc f.head a] at hright
  unfold AppXd.Net4g.flatValue
  rw [getAtcmdRspValue_eq, hholds.strstr, ha, Option.map_some]
  exact hright.1

/-- The branch of `get_net4G_recv_cmd` stores what is found. -/
theorem flatRssi_eq : flatRssi c f = (flatBody c f).map fun _ => valueRssi (flatValue c f) := by
  unfold flatRssi flatBody afterHead CStr.strstr
  simp only
  cases Seq.firstAt getNetRssiRspHead (CStr.text f.data c.ram f.head) <;> rfl

/-- Of a line in one piece the number is read. -/
theorem flatRssi_of_le (hf : f.Wf c) (hw : f.window c = l.bytes) (hle : f.head ≤ f.tail) :
    flatRssi c f = some l.rssi := by
  have hholds := holds_window hf hw hle
  have hlen : unreadLen c f = l.bytes.length := by
    rw [← hw, Fifo.length_window]
    rfl
  have hstr : (CStr.strstr f.data c.ram f.head getNetRssiRspHead).isSome = true := by
    rw [hholds.strstr, l.firstAt_head]
    rfl
  unfold flatRssi
  rw [if_pos hstr, flatValue, hlen, l.value_eq hholds]
  exact congrArg some (l.atoi_value 200)

end

/-! ## The branch on a missing head -/

/-- What the branch leaves of a number. -/
def SignalInfo.stored (s : SignalInfo) (n : Nat) : SignalInfo :=
  let s := if n ≠ 0 then { s with signal := n * 100 / 31 } else s
  { s with qengServingcellInfo := { s.qengServingcellInfo with rssi := n } }

/-- What the branch leaves of the string from the head on. -/
def SignalInfo.storedFrom (s : SignalInfo) (c : Config) (f : Fifo) : SignalInfo :=
  match flatRssi c f with
  | none => s
  | some n => s.stored n

section
variable {c : Config}

theorem headFailAnswer_info {b : Bool} {text key : List UInt8}
    {f : (Nat → UInt8) → Nat → Nat → Nat → SignalInfo → SignalInfo × Nat} {gsm recvLen : Nat}
    {l : HeadFail} : (headFailAnswer c b text key f gsm recvLen l).info =
      if (CStr.strstr l.fifo.data c.ram l.fifo.head text).isSome ∧
          (searchWindow c l.fifo key l.cmdHeadIndex).found = true then
        (f l.fifo.data c.ram l.fifo.head recvLen l.info).1
      else l.info := by
  unfold headFailAnswer HeadFail.search HeadFail.scanned
  cases hstr : (CStr.strstr l.fifo.data c.ram l.fifo.head text).isSome <;>
    cases hfound : (searchWindow c l.fifo key l.cmdHeadIndex).found <;> cases b <;>
    simp [hstr, hfound]

theorem headFailNotice_info (l : HeadFail) : (headFailNotice c l).info = l.info := by
  have hretry : ∀ l : HeadFail, (headFailRetry c l).info = l.info := by
    intro l
    unfold headFailRetry
    simp only
    split
    · split <;> rfl
    · rfl
  unfold headFailNotice
  simp only
  split
  · rfl
  split
  · rfl
  split
  · exact hretry _
  · rfl

/-- Without the notice the FIFO is cleared on the banner alone. -/
theorem headFailNotice_fifo_eq {l : HeadFail}
    (h : ∀ idx, (searchWindow c l.fifo (netMqttDisconnectCmdHead c.moduleType) idx).found = false) :
    (headFailNotice c l).fifo =
      if rebootBanner c l.fifo then clearFifo c l.fifo else l.fifo := by
  unfold headFailNotice HeadFail.search
  simp only [h, Bool.false_eq_true, if_false, HeadFail.scanned_fifo, show ¬ (0 : Nat) = 1 by decide]
  split
  · rfl
  split
  · exact headFailRetry_fifo _
  · rfl

/-- The answer with the signal strength, where its search succeeds. -/
theorem headFailAnswer_csq {b : Bool} {gsm recvLen : Nat} {l : HeadFail}
    (hlen : recvLen = unreadLen c l.fifo)
    (h : ∀ idx, (searchWindow c l.fifo getNetRssiRspHead idx).found = true) :
    (headFailAnswer c b (ascii "+CSQ:") getNetRssiRspHead getNetRssi gsm recvLen l).info =
      l.info.storedFrom c l.fifo := by
  subst hlen
  have hstr : (CStr.strstr l.fifo.data c.ram l.fifo.head (ascii "+CSQ:")).isSome =
    (CStr.strstr l.fifo.data c.ram l.fifo.head getNetRssiRspHead).isSome := rfl
  rw [headFailAnswer_info, SignalInfo.storedFrom, flatRssi, h, hstr]
  simp only [and_true]
  split
  · rfl
  · rfl

/-- An answer whose search fails leaves all as it is. -/
theorem headFailAnswer_missing {b : Bool} {text key : List UInt8}
    {f : (Nat → UInt8) → Nat → Nat → Nat → SignalInfo → SignalInfo × Nat} {gsm recvLen : Nat}
    {l : HeadFail} (h : ∀ idx, (searchWindow c l.fifo key idx).found = false) :
    (headFailAnswer c b text key f gsm recvLen l).info = l.info := by
  rw [headFailAnswer_info, h, if_neg]
  rintro ⟨-, ⟨⟩⟩

/-- Behind a cleared FIFO there is no answer. -/
theorem headFailAnswer_nul {b : Bool} {text key : List UInt8}
    {f : (Nat → UInt8) → Nat → Nat → Nat → SignalInfo → SignalInfo × Nat} {gsm recvLen : Nat}
    {l : HeadFail} (hne : text ≠ []) (h : l.fifo.data l.fifo.head = 0) :
    (headFailAnswer c b text key f gsm recvLen l).info = l.info := by
  rw [headFailAnswer_info, CStr.strstr_of_nul hne h, if_neg]
  rintro ⟨⟨⟩, -⟩

end

section
variable {c : Config} {r : Recv} {info : SignalInfo} {l : CsqLine}

/-- The branch, on a FIFO that holds nothing but the line. -/
theorem headFail_info (hf : r.fifo.Wf c) (hw : r.window c = l.bytes) (hi : Nat) :
    (headFail c r info hi).info =
      if rebootBanner c r.fifo then info else info.storedFrom c r.fifo := by
  have hnotice : ∀ idx, (searchWindow c r.fifo (netMqttDisconnectCmdHead c.moduleType) idx).found =
      false := searchWindow_other (keyword_disconnectCmdHead _)
        (by cases c.moduleType <;> decide) (by cases c.moduleType <;> decide) hf hw
  have hfifo := headFailNotice_fifo_eq (c := c) (l := ⟨2, 0, r.fifo, info, 0, hi⟩) hnotice
  have hinfo := headFailNotice_info (c := c) ⟨2, 0, r.fifo, info, 0, hi⟩
  generalize hl : headFailNotice c ⟨2, 0, r.fifo, info, 0, hi⟩ = l₀ at hfifo hinfo
  simp only at hfifo hinfo
  unfold headFail
  simp only [hl]
  cases hbanner : rebootBanner c r.fifo with
  | true =>
    rw [hbanner, if_pos rfl] at hfifo
    have hz : l₀.fifo.data l₀.fifo.head = 0 := by
      rw [hfifo]
      exact if_pos c.fifo_pos
    rw [if_pos rfl]
    split
    · rw [headFailAnswer_nul (by decide), headFailAnswer_nul (by decide) hz, hinfo]
      rwa [headFailAnswer_fifo]
    · rw [headFailAnswer_nul (by decide), headFailAnswer_nul (by decide) hz, hinfo]
      rwa [headFailAnswer_fifo]
  | false =>
    have hkeep : l₀.fifo = r.fifo := by
      rw [hfifo, hbanner]
      rfl
    rw [if_neg Bool.false_ne_true]
    have hcsq := searchWindow_csq hf hw
    cases hm : c.moduleType.quectel with
    | true =>
      have hother : ∀ idx, (searchWindow c r.fifo
          (getNetQengServingCellRspHead c.moduleType) idx).found = false := by
        have hhead : getNetQengServingCellRspHead c.moduleType = ascii "+QENG:" := by
          unfold getNetQengServingCellRspHead
          rw [hm]
          rfl
        rw [hhead]
        exact searchWindow_other (by decide) (by decide) (by decide) hf hw
      simp only [if_true]
      rw [headFailAnswer_missing (by rwa [headFailAnswer_fifo, hkeep]),
        headFailAnswer_csq rfl (by rwa [hkeep]), hinfo, hkeep]
    | false =>
      have hother : ∀ idx, (searchWindow c r.fifo
          (getNetCellRspHead c.moduleType) idx).found = false := by
        have hhead : getNetCellRspHead c.moduleType = ascii "+LCELL:" := by
          unfold getNetCellRspHead
          rw [hm]
          rfl
        rw [hhead]
        exact searchWindow_other (by decide) (by decide) (by decide) hf hw
      simp only [Bool.false_eq_true, if_false]
      rw [headFailAnswer_csq (by rw [headFailAnswer_fifo]) (by rwa [headFailAnswer_fifo, hkeep]),
        headFailAnswer_missing (by rwa [hkeep]), hinfo, headFailAnswer_fifo, hkeep]

theorem ctrlCmdHead_cases (m : ModuleType) : keyByte (netMqttCtrlCmdHead m) 0 = 43 ∧
    77 ∈ netMqttCtrlCmdHead m ∧ (netMqttCtrlCmdHead m).length ≤ 10 := by
  cases m <;> decide

/-- The two calls on the line. -/
theorem recvUnsolicited_eq (h : Unsolicited c r l) :
    recvUnsolicited c r info =
      if rebootBanner c r.fifo then info else info.storedFrom c r.fifo := by
  have hne : r.window c ≠ [] := by
    rw [h.window]
    exact List.append_ne_nil_of_right_ne_nil _ (List.cons_ne_nil _ _)
  obtain ⟨hplus, hletter, hshort⟩ := ctrlCmdHead_cases c.moduleType
  have hlen : (ctrlHead c).length ≤ (r.window c).length := by
    refine hshort.trans ?_
    have h1 := l.digits_pos
    have h2 := l.ber_pos
    have h5 : getNetRssiRspHead.length = 5 := by decide
    have htail : netCmdRspTailOk.length = 2 := by decide
    rw [h.window]
    simp only [CsqLine.bytes, CsqLine.body, CsqLine.value, List.length_append, List.length_cons, h5,
      htail]
    omega
  have hmissing : ∀ idx, (getKeyDataIndex c r.fifo.data r.fifo.head r.fifo.tail
      (netMqttCtrlCmdHead c.moduleType) idx).found = false :=
    searchWindow_other (keyword_ctrlCmdHead _) hplus (.inl hletter) h.wf h.window
  have hfirst : getNet4GRecvCmd c r info =
      ⟨0, { r with cmdHeadIndex := 0, cmdTailIndex := 0, cmdGetStep := 1 }, info, 0, 0⟩ := by
    unfold getNet4GRecvCmd recvPath
    rw [recvCmdFromFifo_zero h.step, if_neg hne, if_pos hlen, h.middle, h.ack]
    rfl
  unfold recvUnsolicited
  simp only [hfirst]
  unfold getNet4GRecvCmd recvPath recvCmdFromFifo
  simp only [h.middle, h.ack, hmissing, Bool.false_eq_true, if_false]
  exact headFail_info h.wf h.window _

theorem heldAs_iff (info : SignalInfo) (known_le : l.known ≤ 31) : HeldAs info l.known ↔
    l.known * 100 / 31 = info.signal ∧ l.known = info.qengServingcellInfo.rssi ∧
      info.signal ≤ 100 := by
  unfold HeldAs
  constructor
  · rintro ⟨h1, h2⟩
    exact ⟨h1.symm, h2.symm, by omega⟩
  · rintro ⟨h1, h2, -⟩
    exact ⟨h1.symm, h2.symm⟩

theorem storedAs_iff (info : SignalInfo) (known_le : l.known ≤ 31) (n : Nat) :
    StoredAs info n l.known ↔
    l.known * 100 / 31 = (info.stored n).signal ∧
      l.known = (info.stored n).qengServingcellInfo.rssi ∧ (info.stored n).signal ≤ 100 := by
  have hrssi : (info.stored n).qengServingcellInfo.rssi = n := rfl
  have hsignal : (info.stored n).signal = if n ≠ 0 then n * 100 / 31 else info.signal := by
    unfold SignalInfo.stored
    split
    · rfl
    · rfl
  unfold StoredAs
  rw [hrssi, hsignal]
  by_cases hn : n = 0
  · rw [if_neg (Decidable.not_not.2 hn)]
    constructor
    · rintro ⟨rfl, h0⟩
      have h0 := h0 hn
      exact ⟨by omega, rfl, by omega⟩
    · rintro ⟨h1, h2, -⟩
      have h2 : l.known = n := Int.ofNat_inj.1 h2
      exact ⟨h2.symm, fun _ => by omega⟩
  · rw [if_pos hn]
    constructor
    · rintro ⟨rfl, -⟩
      exact ⟨rfl, rfl, by omega⟩
    · rintro ⟨-, h2, -⟩
      exact ⟨(Int.ofNat_inj.1 h2).symm, fun h0 => absurd h0 hn⟩

/-- Both ways agree exactly where the branch stores what the callback does, or has nothing to
store. -/
theorem signalsAgree_iff_signalsFit (c : Config) (r : Recv) (info : SignalInfo) (l : CsqLine)
    (h : Unsolicited c r l) : SignalsAgree c r info l ↔ SignalsFit c r info l := by
  have hagree : SignalsAgree c r info l ↔
      l.known * 100 / 31 = (recvUnsolicited c r info).signal ∧
        l.known = (recvUnsolicited c r info).qengServingcellInfo.rssi ∧
        (recvUnsolicited c r info).signal ≤ 100 := by
    unfold SignalsAgree
    rw [l.net4gGetNetRssiCb_bytes]
    constructor
    · rintro ⟨ok, s, hs, h1, h2, h3⟩
      cases hs
      exact ⟨h1, h2, h3⟩
    · rintro ⟨h1, h2, h3⟩
      exact ⟨_, _, rfl, h1, h2, h3⟩
  have hheld := heldAs_iff info l.known_le
  have hstored := storedAs_iff info l.known_le
  rw [hagree, recvUnsolicited_eq h]
  unfold SignalsFit
  cases rebootBanner c r.fifo with
  | true =>
    rw [if_pos rfl, if_pos rfl]
    exact hheld.symm
  | false =>
    rw [if_neg Bool.false_ne_true, if_neg Bool.false_ne_true]
    unfold SignalInfo.storedFrom
    by_cases hle : r.fifo.head ≤ r.fifo.tail
    · rw [if_pos hle, flatRssi_of_le h.wf h.window hle]
      exact (hstored _).symm
    · rw [if_neg hle, flatRssi_eq]
      cases hbody : flatBody c r.fifo with
      | none => exact hheld.symm
      | some body =>
        rw [Option.map_some]
        refine (hstored _).symm.trans ?_
        by_cases hright : FlatRight c r.fifo body
        · simp only [hright, hright.flatValue hbody, true_implies, not_true_eq_false,
            false_implies, and_true]
        · simp only [hright, false_implies, not_false_eq_true, true_implies, true_and]

end

/-! ## Lines with two digits -/

def twoDigits (a b : Fin 10) : List UInt8 := [UInt8.ofNat (48 + a), UInt8.ofNat (48 + b)]

theorem twoDigits_decimal (a b : Fin 10) : ∀ x ∈ twoDigits a b ++ ascii "0",
    48 ≤ x ∧ x ≤ 57 := by
  have hall : ∀ a b : Fin 10,
      (twoDigits a b ++ ascii "0").all (fun x => decide (48 ≤ x ∧ x ≤ 57)) = true := by decide
  exact fun x hx => of_decide_eq_true (List.all_eq_true.1 (hall a b) x hx)

theorem twoDigits_le : ∀ a b : Fin 10, CStr.digits 10 (twoDigits a b) ≤ 255 := by decide

theorem crlf_blanks : ∀ b ∈ ascii "\r\n" ++ (ascii " " ++ (ascii "\r\n\r\n" ++ ascii "\r\n")),
    lineBlank b = true :=
  List.all_eq_true.1 (by decide)

theorem zero_length : 0 < (ascii "0").length ∧ (ascii "0").length ≤ 2 := by decide

theorem crlf_short : (ascii "\r\n").length + (ascii " ").length + (ascii "\r\n\r\n").length +
    (ascii "\r\n").length ≤ 240 := by decide

/-- The response `+CSQ: ab,0`. -/
def csqLine (a b : Fin 10) : CsqLine where
  pre := ascii "\r\n"
  gap := ascii " "
  digits := twoDigits a b
  ber := ascii "0"
  mid := ascii "\r\n\r\n"
  post := ascii "\r\n"
  blanks := crlf_blanks
  decimal := twoDigits_decimal a b
  digits_pos := Nat.succ_pos 1
  digits_le := Nat.le_succ 2
  rssi_le := twoDigits_le a b
  ber_pos := zero_length.1
  ber_le := zero_length.2
  short := crlf_short

/-- The state after the line has come in. -/
def csqReceived (l : CsqLine) : Recv :=
  ((Link.reset l.bytes).deliver lineConfig l.bytes.length).recv

theorem unsolicited_csqLine : ∀ x ∈ [(2, 3), (9, 9)],
    Unsolicited lineConfig (csqReceived (csqLine x.1 x.2)) (csqLine x.1 x.2) := by
  intro x hx
  have hwin : ∀ x ∈ [((2 : Fin 10), (3 : Fin 10)), (9, 9)],
      (csqReceived (csqLine x.1 x.2)).window lineConfig = (csqLine x.1 x.2).bytes ∧
        (csqReceived (csqLine x.1 x.2)).fifo.head = 0 ∧
        (csqReceived (csqLine x.1 x.2)).fifo.tail = 20 ∧
        (csqReceived (csqLine x.1 x.2)).fifo.data 20 = 0 := by decide +kernel
  obtain ⟨hw, hhead, htail, hz⟩ := hwin x hx
  refine ⟨⟨?_, ?_, ?_⟩, hw, rfl, rfl, rfl⟩
  · rw [hhead]
    exact Nat.zero_le _
  · rw [htail]
    decide
  · rw [htail]
    exact hz

/-- A strength of 23. -/
theorem signalsAgree_csqLine :
    SignalsAgree lineConfig (csqReceived (csqLine 2 3)) .reset (csqLine 2 3) :=
  (signalsAgree_iff_signalsFit lineConfig (csqReceived (csqLine 2 3)) .reset (csqLine 2 3)
    (unsolicited_csqLine (2, 3) (by decide))).2 (by
      have hfit : rebootBanner lineConfig (csqReceived (csqLine 2 3)).fifo = false ∧
          (csqReceived (csqLine 2 3)).fifo.head ≤ (csqReceived (csqLine 2 3)).fifo.tail ∧
          (csqLine 2 3).rssi = 23 ∧ (csqLine 2 3).known = 23 := by decide +kernel
      obtain ⟨hbanner, hle, hrssi, hknown⟩ := hfit
      unfold SignalsFit StoredAs
      rw [hbanner, if_neg Bool.false_ne_true, if_pos hle, hrssi, hknown]
      exact ⟨rfl, fun h => absurd h (by decide)⟩)

/-- The callback takes 99 for no signal, the other branch stores it. -/
theorem not_signalsAgree_unknown :
    ¬ ∀ (c : Config) (r : Recv) (info : SignalInfo) (l : CsqLine), Unsolicited c r l →
      SignalsAgree c r info l := by
  intro h
  obtain ⟨ok, s, hs, -, hrssi, -⟩ := h _ _ .reset _ (unsolicited_csqLine (9, 9) (by decide))
  have hcb : net4gGetNetRssiCb (csqLine 9 9).bytes .reset = some (ok, s) := hs
  have hrun : (recvUnsolicited lineConfig (csqReceived (csqLine 9 9))
      .reset).qengServingcellInfo.rssi = 99 := by decide +kernel
  have hzero : (net4gGetNetRssiCb (csqLine 9 9).bytes .reset).map
      (fun x => x.2.qengServingcellInfo.rssi) = some 0 := by decide +kernel
  rw [hcb, Option.map_some, hrssi, hrun] at hzero
  cases hzero

end AppXd.Net4g
