import AppXd.Net4g.Notice
import AppXd.Net4g.Reconnect
import AppXd.Net4g.SearchRows

/-!
# Deliveries while a window is given up

The branch on a missing head looks at the FIFO in one statement after the other, sleeps before some
of them, and at last drops what is unread. Meanwhile the driver goes on receiving: `headFailWhile`
is the branch with the deliveries that come in front of each of these statements. Elsewhere in
`get_net4G_recv_cmd` a delivery might as well come before the call or behind it.
-/

namespace AppXd.Net4g

open CStr (ascii)
open Seq (firstAt)

/-- The FIFO, the driver, and the deliveries to come, which are listed for each statement that looks
at the FIFO. `fits` tells whether those that have come have found room. -/
structure Incoming where
  fifo : Fifo
  registered : Bool
  uart : List UInt8
  later : List (List (List UInt8))
  fits : Bool

/-- The local variables of the branch, with what comes in. -/
structure HeadFailWhile extends Incoming where
  ret : Nat
  cmdHeadIndex : Nat
  info : SignalInfo
  gsmPubs : Nat
  hi : Nat

/-- Result of a call: that of `get_net4G_recv_cmd`, the bytes that the driver keeps, those that have
come in, and whether these have fitted. -/
structure RecvWhile where
  result : GetRecvRet
  uart : List UInt8
  came : List UInt8
  fits : Bool

section
variable (c : Config)

namespace Incoming
variable (i : Incoming)

/-- The driver has received `bs`. -/
def deliver (bs : List UInt8) : Incoming :=
  if i.registered then
    let (fifo, uart) := net4gUartRecvCb c i.fifo (i.uart ++ bs) bs.length
    { i with fifo := fifo, uart := uart, fits := i.fits && decide (Fits c i.fifo bs) }
  else { i with uart := i.uart ++ bs }

/-- The deliveries in front of the next statement. -/
def pause : Incoming :=
  (i.later.headD []).foldl (deliver c) { i with later := i.later.tail }

/-- All that are left, in front of the last statement. -/
def rest : Incoming := i.later.flatten.foldl (deliver c) { i with later := [] }

/-- `memset` of the array, and one index after the other to its start. -/
def clear : Incoming :=
  let i := i.pause c
  let i := { i with fifo := { i.fifo with data := (clearFifo c i.fifo).data } }
  let i := i.pause c
  let i := { i with fifo := { i.fifo with head := 0 } }
  let i := i.pause c
  { i with fifo := { i.fifo with tail := 0 } }

end Incoming

namespace HeadFailWhile
variable (l : HeadFailWhile)

def locals : HeadFail := ⟨l.ret, l.cmdHeadIndex, l.fifo, l.info, l.gsmPubs, l.hi⟩

def paused : HeadFailWhile := { l with toIncoming := l.pause c }

/-- A statement that leaves the FIFO alone. -/
def run (f : HeadFail → HeadFail) : HeadFailWhile :=
  let h := f l.locals
  { l with
    ret := h.ret, cmdHeadIndex := h.cmdHeadIndex, info := h.info, gsmPubs := h.gsmPubs, hi := h.hi }

/-- The second search of the notice stands behind a delay. -/
def retry : HeadFailWhile :=
  let l := (l.paused c).run fun l =>
    l.scanned (CStr.strstrEnd l.fifo.data c.ram l.fifo.head (ascii "+QIURC:"))
  if (CStr.strstr l.fifo.data c.ram l.fifo.head (ascii "+QIURC:")).isSome then
    let l := (l.paused c).run (·.search c (netMqttDisconnectCmdHead c.moduleType))
    if l.ret = 1 then { l with ret := 10 } else l
  else l

def reboot : HeadFailWhile := { l with toIncoming := l.clear c, ret := 10 }

/-- The disconnect notice, or else one of the two reboot banners. -/
def notice : HeadFailWhile :=
  let l := (l.paused c).run (·.search c (netMqttDisconnectCmdHead c.moduleType))
  if l.ret = 1 then { l with ret := 10 }
  else
    let l := (l.paused c).run fun l =>
      l.scanned (CStr.strstrEnd l.fifo.data c.ram 0 (ascii "boot.rom"))
    if (CStr.strstr l.fifo.data c.ram 0 (ascii "boot.rom")).isSome then l.reboot c
    else
      let l := (l.paused c).run fun l =>
        l.scanned (CStr.strstrEnd l.fifo.data c.ram 0 (ascii "Lierda"))
      if (CStr.strstr l.fifo.data c.ram 0 (ascii "Lierda")).isSome then l.reboot c
      else if c.moduleType.quectel then l.retry c
      else l

/-- One of the radio's answers. The search stands behind a delay. The callback reads the FIFO as it
is when it begins: what comes while it runs changes nothing but the values that it stores. -/
def answer (showAlways : Bool) (text key : List UInt8)
    (f : (Nat → UInt8) → Nat → Nat → Nat → SignalInfo → SignalInfo × Nat) (gsm : Nat)
    (recvLen : Nat) : HeadFailWhile :=
  let l := (l.paused c).run fun l =>
    if showAlways then l.scanned (CStr.textEnd l.fifo.data c.ram l.fifo.head) else l
  let l := l.run fun l => l.scanned (CStr.strstrEnd l.fifo.data c.ram l.fifo.head text)
  if (CStr.strstr l.fifo.data c.ram l.fifo.head text).isSome then
    let l := l.run fun l =>
      if showAlways then l else l.scanned (CStr.textEnd l.fifo.data c.ram l.fifo.head)
    let l := (l.paused c).run (·.search c key)
    if l.ret = 1 then
      let l := l.paused c
      let (info, hi) := f l.fifo.data c.ram l.fifo.head recvLen l.info
      { l with info := info, gsmPubs := l.gsmPubs + gsm, hi := max l.hi hi }
    else l
  else l

/-- The length of the window, and the answers. -/
def answers : HeadFailWhile :=
  let m := c.moduleType
  let l := l.paused c
  let recvLen := unreadLen c l.fifo
  if m.quectel then
    let l := l.answer c true (ascii "+CSQ:") getNetRssiRspHead getNetRssi 0 recvLen
    l.answer c true (ascii "+QENG:") (getNetQengServingCellRspHead m)
      (net4gGetNetQengServingCellCb m) 1 recvLen
  else
    let l := l.answer c false (ascii "+LCELL:") (getNetCellRspHead m) (net4gGetNetQcellCb m) 0
      recvLen
    l.answer c false (ascii "+CSQ:") getNetRssiRspHead getNetRssi 1 recvLen

end HeadFailWhile

/-- The branch on a missing head, while the deliveries `a` come in. -/
def headFailWhile (r : Recv) (info : SignalInfo) (hi : Nat) (registered : Bool)
    (uart : List UInt8) (a : List (List (List UInt8))) : RecvWhile :=
  let l : HeadFailWhile := ⟨⟨r.fifo, registered, uart, a, true⟩, 2, 0, info, 0, hi⟩
  let l := (l.notice c).answers c
  let i := l.rest c
  { result :=
      ⟨l.ret, { r with fifo := { i.fifo with head := i.fifo.tail } }, l.info, l.gsmPubs, l.hi⟩
    uart := i.uart
    came := a.flatten.flatten
    fits := i.fits }

/-- `get_net4G_recv_cmd`, while the deliveries `a` come in if the window is given up. -/
def getNet4GRecvCmdWhile (r : Recv) (info : SignalInfo) (registered : Bool) (uart : List UInt8)
    (a : List (List (List UInt8))) : RecvWhile :=
  let res := recvCmdFromFifo c (netMqttCtrlCmdHead c.moduleType) netMqttCtrlCmdTail r
  if r.Unchecked ∧ res.ret = 2 then headFailWhile c res.recv info res.hi registered uart a
  else ⟨getNet4GRecvCmd c r info, uart, [], true⟩

end

namespace HeadFailWhile
variable {l : HeadFailWhile}

@[simp] theorem run_later (f : HeadFail → HeadFail) : (l.run f).later = l.later := rfl

@[simp] theorem run_fifo (f : HeadFail → HeadFail) : (l.run f).fifo = l.fifo := rfl

@[simp] theorem run_ret (f : HeadFail → HeadFail) : (l.run f).ret = (f l.locals).ret := rfl

@[simp] theorem run_toIncoming (f : HeadFail → HeadFail) : (l.run f).toIncoming = l.toIncoming :=
  rfl

@[simp] theorem locals_fifo : l.locals.fifo = l.fifo := rfl

@[simp] theorem paused_toIncoming : (l.paused c).toIncoming = l.pause c := rfl

@[simp] theorem paused_locals_ret : (l.paused c).locals.ret = l.ret := rfl

end HeadFailWhile

/-! ## What returns 10 -/

section
variable (c : Config)

/-- The search of the keyword is right about the unread bytes: they do not pass the end of the ring,
or the keyword stands in them before that, or the comparisons that add up lead to it. -/
def SearchRight (f : Fifo) (key : List UInt8) : Prop :=
  f.head ≤ f.tail ∨
    (∃ p < c.uartRecvFifoSize, Seq.OccursAt key (f.window c) p ∧
      f.head + p + key.length ≤ c.uartRecvFifoSize) ∨
    rowsCell c f.data f.head f.tail key = firstCell c f.data f.head f.tail key

/-- The head of a disconnect line stands among the unread bytes. -/
def NoticeUnread (f : Fifo) : Prop :=
  (firstAt (netMqttDisconnectCmdHead c.moduleType) (f.window c)).isSome = true

instance (f : Fifo) (key : List UInt8) : Decidable (SearchRight c f key) :=
  inferInstanceAs (Decidable (_ ∨ _ ∨ _))
instance (f : Fifo) : Decidable (NoticeUnread c f) := inferInstanceAs (Decidable (_ = true))

namespace Incoming

/-- The string from the head on begins no answer of the radio when it is looked for. -/
def Unanswered (i : Incoming) : Prop :=
  let i := (i.pause c).pause c
  CStr.strstr i.fifo.data c.ram i.fifo.head
      (if c.moduleType.quectel then ascii "+CSQ:" else ascii "+LCELL:") = none ∧
    let i := i.pause c
    CStr.strstr i.fifo.data c.ram i.fifo.head
      (if c.moduleType.quectel then ascii "+QENG:" else ascii "+CSQ:") = none

/-- The head of a disconnect line stands among the unread bytes when it is looked for, or else one
of the banners in the array, or else, behind `+QIURC:`, the head of the line a little later; and no
answer follows. -/
def Tells (i : Incoming) : Prop :=
  let i₁ := i.pause c
  let i₂ := i₁.pause c
  let i₃ := i₂.pause c
  let i₄ := i₃.pause c
  let i₅ := i₄.pause c
  SearchRight c i₁.fifo (netMqttDisconnectCmdHead c.moduleType) ∧
    if NoticeUnread c i₁.fifo then i₁.Unanswered c
    else if (CStr.strstr i₂.fifo.data c.ram 0 (ascii "boot.rom")).isSome then
      (i₂.clear c).Unanswered c
    else if (CStr.strstr i₃.fifo.data c.ram 0 (ascii "Lierda")).isSome then
      (i₃.clear c).Unanswered c
    else c.moduleType.quectel = true ∧
      (CStr.strstr i₄.fifo.data c.ram i₄.fifo.head (ascii "+QIURC:")).isSome = true ∧
        SearchRight c i₅.fifo (netMqttDisconnectCmdHead c.moduleType) ∧
          NoticeUnread c i₅.fifo ∧ i₅.Unanswered c

instance (i : Incoming) : Decidable (i.Unanswered c) := inferInstanceAs (Decidable (_ ∧ _))
instance (i : Incoming) : Decidable (i.Tells c) := inferInstanceAs (Decidable (_ ∧ _))

end Incoming

end

/-! ## What comes in -/

/-- The bytes that are still to come. -/
def Incoming.coming (i : Incoming) : List UInt8 := i.later.flatten.flatten

/-- Both indices stand in the ring. -/
def Fifo.InRing (c : Config) (f : Fifo) : Prop :=
  f.head ≤ c.uartRecvFifoSize ∧ f.tail < c.uartRecvFifoSize

/-- Between `i` and `j` the bytes `bs` come in and find room. The driver keeps as many bytes as
before where the callback is registered, and all of them where it is not. -/
structure Incoming.Delivered (c : Config) (bs : List UInt8) (i j : Incoming) : Prop where
  registered : j.registered = i.registered
  later : j.later = i.later
  fifo : j.fifo = i.fifo ∨ j.fifo.Wf c
  uart : j.uart <:+ i.uart ++ bs
  length : j.uart.length = i.uart.length + if i.registered then 0 else bs.length

/-- Between `i` and `j` some of the bytes come that are to come at `i`. -/
structure Incoming.Led (c : Config) (i j : Incoming) : Prop where
  registered : j.registered = i.registered
  inRing : j.fifo.InRing c
  uart : j.uart ++ j.coming <:+ i.uart ++ i.coming
  length : j.uart.length + (if i.registered then 0 else j.coming.length) =
    i.uart.length + if i.registered then 0 else i.coming.length

/-- What fits up to `j` has fitted up to `i`, and nothing of it is lost between them. -/
def Incoming.Leads (c : Config) (i j : Incoming) : Prop :=
  j.fits = true → i.fits = true ∧ (i.fifo.InRing c → Led c i j)

section
variable {c : Config} {i j k : Incoming} {bs bs' : List UInt8}

theorem Fifo.Wf.inRing {f : Fifo} (h : f.Wf c) : f.InRing c := ⟨h.head_le, h.tail_lt⟩

namespace Incoming

theorem Delivered.refl (i : Incoming) : Delivered c [] i i := by
  refine ⟨rfl, rfl, .inl rfl, ?_, ?_⟩
  · rw [List.append_nil]
  · rw [List.length_nil, ite_self, Nat.add_zero]

theorem Delivered.trans (h : Delivered c bs i j) (h' : Delivered c bs' j k) :
    Delivered c (bs ++ bs') i k := by
  refine ⟨h'.registered.trans h.registered, h'.later.trans h.later, ?_, ?_, ?_⟩
  · rcases h'.fifo with hf | hf
    · exact h.fifo.imp hf.trans fun hj => hf.symm ▸ hj
    · exact .inr hf
  · obtain ⟨pre, hpre⟩ := h.uart
    refine h'.uart.trans ⟨pre, ?_⟩
    rw [← List.append_assoc, hpre, List.append_assoc]
  · rw [h'.length, h.length, h.registered, List.length_append]
    split <;> omega

theorem Delivered.inRing (h : Delivered c bs i j) (hi : i.fifo.InRing c) : j.fifo.InRing c := by
  rcases h.fifo with hf | hf
  · rwa [hf]
  · exact hf.inRing

/-- One delivery. -/
theorem deliver_delivered (bs : List UInt8) (hfits : (i.deliver c bs).fits = true) :
    i.fits = true ∧ (i.fifo.InRing c → Delivered c bs i (i.deliver c bs)) := by
  unfold deliver at hfits ⊢
  by_cases hreg : i.registered = true
  · simp only [if_pos hreg, Bool.and_eq_true, decide_eq_true_eq] at hfits ⊢
    refine ⟨hfits.1, fun hi => ?_⟩
    have hlen : bs.length ≤ (i.uart ++ bs).length := by
      rw [List.length_append]
      exact Nat.le_add_left ..
    obtain ⟨f, hcb, hwf, -⟩ := net4gUartRecvCb_window hi.1 hi.2 hlen
      (hfits.2.congr (List.length_take_of_le hlen))
    rw [hcb]
    refine ⟨rfl, rfl, .inr hwf, List.drop_suffix _ _, ?_⟩
    rw [if_pos hreg, List.length_drop, List.length_append]
    omega
  · rw [if_neg hreg] at hfits ⊢
    refine ⟨hfits, fun _ => ⟨rfl, rfl, .inl rfl, List.suffix_refl _, ?_⟩⟩
    rw [if_neg hreg]
    exact List.length_append

/-- Deliveries one after the other. -/
theorem foldl_delivered (ds : List (List UInt8)) (hfits : (ds.foldl (deliver c) i).fits = true) :
    i.fits = true ∧ (i.fifo.InRing c → Delivered c ds.flatten i (ds.foldl (deliver c) i)) := by
  induction ds generalizing i with
  | nil => exact ⟨hfits, fun _ => .refl i⟩
  | cons d ds ih =>
    obtain ⟨hfits', hrest⟩ := ih (i := i.deliver c d) hfits
    obtain ⟨hfits'', hone⟩ := deliver_delivered d hfits'
    exact ⟨hfits'', fun hi => (hone hi).trans (hrest ((hone hi).inRing hi))⟩

theorem Led.refl (hi : i.fifo.InRing c) : Led c i i := ⟨rfl, hi, List.suffix_refl _, rfl⟩

theorem Led.trans (h : Led c i j) (h' : Led c j k) : Led c i k := by
  have hlen := h'.length
  rw [h.registered] at hlen
  exact ⟨h'.registered.trans h.registered, h'.inRing, h'.uart.trans h.uart, hlen.trans h.length⟩

theorem Leads.refl (i : Incoming) : Leads c i i := fun h => ⟨h, .refl⟩

theorem Leads.trans (h : Leads c i j) (h' : Leads c j k) : Leads c i k := fun hk =>
  have ⟨hj, hjk⟩ := h' hk
  have ⟨hi, hij⟩ := h hj
  ⟨hi, fun hin => (hij hin).trans (hjk (hij hin).inRing)⟩

/-- A statement on the FIFO leaves the driver alone. -/
theorem Leads.fifo {f : Fifo} (h : Leads c i j) (hf : j.fifo.InRing c → f.InRing c) :
    Leads c i { j with fifo := f } := fun hj =>
  have ⟨hi, hij⟩ := h hj
  ⟨hi, fun hin => ⟨(hij hin).registered, hf (hij hin).inRing, (hij hin).uart, (hij hin).length⟩⟩

/-- Deliveries that are listed. -/
theorem Leads.foldl {ds : List (List UInt8)} {ls : List (List (List UInt8))}
    (h : i.coming = ds.flatten ++ ls.flatten.flatten) :
    Leads c i (ds.foldl (deliver c) { i with later := ls }) := by
  intro hfits
  obtain ⟨hi, hds⟩ := foldl_delivered ds hfits
  refine ⟨hi, fun hin => ?_⟩
  have hd := hds hin
  have hcoming : (ds.foldl (deliver c) { i with later := ls }).coming = ls.flatten.flatten := by
    rw [coming, hd.later]
  refine ⟨hd.registered, hd.inRing hin, ?_, ?_⟩
  · obtain ⟨pre, hpre⟩ := hd.uart
    refine ⟨pre, ?_⟩
    rw [hcoming, h, ← List.append_assoc, hpre, List.append_assoc]
  · rw [hd.length, hcoming, h, List.length_append]
    show i.uart.length + (if i.registered then 0 else _) + _ = _
    split <;> omega

theorem Leads.pause (i : Incoming) : Leads c i (i.pause c) := by
  refine .foldl ?_
  unfold coming
  cases i.later with
  | nil => rfl
  | cons ds ls => rw [List.headD_cons, List.tail_cons, List.flatten_cons, List.flatten_append]

theorem Leads.rest (i : Incoming) : Leads c i (i.rest c) := .foldl (List.append_nil _).symm

/-- Nothing is left behind the last statement. -/
theorem coming_rest (hi : i.fifo.InRing c) (hfits : (i.rest c).fits = true) :
    (i.rest c).coming = [] := by
  obtain ⟨-, h⟩ := foldl_delivered i.later.flatten hfits
  rw [coming, rest, (h hi).later]
  rfl

theorem Leads.clear (i : Incoming) : Leads c i (i.clear c) := by
  refine Leads.fifo (Leads.trans ?_ (.pause _)) fun h => ⟨h.1, c.fifo_pos⟩
  refine Leads.fifo (Leads.trans ?_ (.pause _)) fun h => ⟨Nat.zero_le _, h.2⟩
  exact Leads.fifo (.pause _) id

/-- The searches find the FIFO as they expect it. -/
theorem pause_wf (h : i.fifo.Wf c) (hfits : (i.pause c).fits = true) : (i.pause c).fifo.Wf c := by
  obtain ⟨-, hd⟩ := foldl_delivered (i.later.headD []) hfits
  rcases (hd h.inRing).fifo with hf | hf
  · exact hf.symm ▸ h
  · exact hf

end Incoming

/-! ## The driver behind the branch -/

namespace HeadFailWhile
variable {l : HeadFailWhile}

theorem leads_paused (h : i.Leads c l.toIncoming) : i.Leads c (l.paused c).toIncoming :=
  h.trans (.pause _)

theorem leads_retry (h : i.Leads c l.toIncoming) : i.Leads c (l.retry c).toIncoming := by
  unfold retry
  simp only
  split
  · split <;> exact leads_paused (leads_paused h)
  · exact leads_paused h

theorem leads_reboot (h : i.Leads c l.toIncoming) : i.Leads c (l.reboot c).toIncoming :=
  h.trans (.clear _)

theorem leads_notice (h : i.Leads c (l.pause c)) : i.Leads c (l.notice c).toIncoming := by
  have h' := leads_paused (l := (l.paused c).run
    (·.search c (netMqttDisconnectCmdHead c.moduleType))) h
  unfold notice
  simp only
  split
  · exact h
  split
  · exact leads_reboot h'
  split
  · exact leads_reboot (leads_paused h')
  split
  · exact leads_retry (leads_paused h')
  · exact leads_paused h'

theorem leads_answer {b : Bool} {text key : List UInt8}
    {f : (Nat → UInt8) → Nat → Nat → Nat → SignalInfo → SignalInfo × Nat} {gsm n : Nat}
    (h : i.Leads c l.toIncoming) : i.Leads c (l.answer c b text key f gsm n).toIncoming := by
  unfold answer
  cases b <;> simp only [if_true, Bool.false_eq_true, if_false] <;> split
  · split
    · exact leads_paused (leads_paused (leads_paused h))
    · exact leads_paused (leads_paused h)
  · exact leads_paused h
  · split
    · exact leads_paused (leads_paused (leads_paused h))
    · exact leads_paused (leads_paused h)
  · exact leads_paused h

theorem leads_answers (h : i.Leads c l.toIncoming) : i.Leads c (l.answers c).toIncoming := by
  unfold answers
  simp only
  split <;> exact leads_answer (leads_answer (leads_paused h))

end HeadFailWhile

/-! ## The return value -/

theorem SearchRight.found {f : Fifo} {key : List UInt8} (h : SearchRight c f key)
    (hk : Keyword key) (hf : f.Wf c) (idx : Nat) :
    FirstFound c f.data f.head f.tail key (searchWindow c f key idx) := by
  have hne : key ≠ [] := List.ne_nil_of_length_pos hk.length_pos
  rcases Nat.lt_or_ge f.tail f.head with hlt | hle
  swap
  · exact firstFound_flat hne hk.noNul hk.short hle hf.tail_lt hf.data_tail idx
  rcases Nat.lt_or_eq_of_le hf.head_le with hh | heq
  · by_cases hocc : ∃ p, Seq.OccursAt key (f.window c) p ∧
        f.head + p + key.length ≤ c.uartRecvFifoSize
    · obtain ⟨p, ho, hp⟩ := hocc
      exact firstFound_upper hne hk.short hh hf.tail_lt hlt ho hp idx
    · have hrows : rowsCell c f.data f.head f.tail key = firstCell c f.data f.head f.tail key := by
        rcases h with hle | ⟨p, -, hp⟩ | hrows
        · exact absurd hle (Nat.not_le.2 hlt)
        · exact absurd ⟨p, hp⟩ hocc
        · exact hrows
      exact (firstFound_iff_rows hh hf.tail_lt hk.length_pos hk.short hlt hocc idx).2 hrows
  · -- the head is one past the array
    refine getKeyDataIndex_spec hk hf.head_le hf.tail_lt hf.data_tail (.inr (.inr ?_)) idx
    intro q h1 h2
    omega

namespace HeadFailWhile
variable {l : HeadFailWhile}

theorem search_ret {h : HeadFail} {key : List UInt8} (hs : SearchRight c h.fifo key)
    (hk : Keyword key) (hf : h.fifo.Wf c) :
    (h.search c key).ret = 1 ↔ (firstAt key (h.fifo.window c)).isSome = true := by
  have hfound := hs.found hk hf h.cmdHeadIndex
  have hret : (h.search c key).ret =
      if (searchWindow c h.fifo key h.cmdHeadIndex).found then 1 else 0 := rfl
  rw [hret]
  cases hw : firstAt key (h.fifo.window c) with
  | some p =>
    rw [(hfound.of_some hw).1]
    simp
  | none =>
    rw [hfound.of_none hw]
    simp

theorem answer_of_none {b : Bool} {text key : List UInt8}
    {f : (Nat → UInt8) → Nat → Nat → Nat → SignalInfo → SignalInfo × Nat} {gsm n : Nat}
    (h : CStr.strstr (l.pause c).fifo.data c.ram (l.pause c).fifo.head text = none) :
    (l.answer c b text key f gsm n).ret = l.ret ∧
      (l.answer c b text key f gsm n).toIncoming = l.pause c := by
  have hnone :
      (CStr.strstr (l.paused c).fifo.data c.ram (l.paused c).fifo.head text).isSome = false :=
    congrArg Option.isSome h
  unfold answer
  simp only [run_fifo, hnone, Bool.false_eq_true, if_false]
  cases b <;> exact ⟨rfl, rfl⟩

/-- The second search. -/
theorem retry_ten (hf : l.fifo.Wf c) (hfits : (l.retry c).fits = true)
    (hq : (CStr.strstr (l.pause c).fifo.data c.ram (l.pause c).fifo.head (ascii "+QIURC:")).isSome =
      true)
    (hright : SearchRight c ((l.pause c).pause c).fifo (netMqttDisconnectCmdHead c.moduleType))
    (hn : NoticeUnread c ((l.pause c).pause c).fifo) :
    (l.retry c).ret = 10 ∧ (l.retry c).toIncoming = (l.pause c).pause c := by
  have hin : (l.retry c).toIncoming = (l.pause c).pause c := by
    unfold retry
    simp only [run_toIncoming, paused_toIncoming, hq, if_true]
    split <;> rfl
  rw [hin] at hfits
  have hwf := Incoming.pause_wf hf (Incoming.Leads.pause _ hfits).1
  have hsearch := search_ret (h := (((l.paused c).run fun l => l.scanned (CStr.strstrEnd l.fifo.data
    c.ram l.fifo.head (ascii "+QIURC:"))).paused c).locals) hright
    (keyword_disconnectCmdHead c.moduleType) (Incoming.pause_wf hwf hfits)
  have hret := hsearch.2 hn
  refine ⟨?_, hin⟩
  unfold retry
  simp only [run_ret, run_toIncoming, paused_toIncoming, hq, hret, if_true]

/-- A window that tells the loss. -/
theorem notice_ten (hf : l.fifo.Wf c) (hfits : (l.notice c).fits = true) (h : l.Tells c) :
    (l.notice c).ret = 10 ∧ (l.notice c).Unanswered c := by
  obtain ⟨hright, h⟩ := h
  have hwf := Incoming.pause_wf hf (leads_notice (.refl (l.pause c)) hfits).1
  have hsearch : ((l.paused c).locals.search c _).ret = 1 ↔ NoticeUnread c (l.pause c).fifo :=
    search_ret hright (keyword_disconnectCmdHead c.moduleType) hwf
  unfold notice at hfits ⊢
  simp only [run_ret, run_toIncoming, paused_toIncoming, hsearch] at hfits ⊢
  split at h
  · rename_i hn
    simp only [hn, if_true]
    exact ⟨trivial, h⟩
  rename_i hn
  simp only [hn, if_false] at hfits ⊢
  split at h
  · rename_i hboot
    simp only [hboot, if_true]
    exact ⟨rfl, h⟩
  rename_i hboot
  simp only [hboot, Bool.false_eq_true, if_false] at hfits ⊢
  split at h
  · rename_i hlierda
    simp only [hlierda, if_true]
    exact ⟨rfl, h⟩
  rename_i hlierda
  simp only [hlierda, Bool.false_eq_true, if_false] at hfits ⊢
  obtain ⟨hquectel, hq, hright', hn', hun⟩ := h
  rw [if_pos hquectel] at hfits ⊢
  have hfits₃ := (leads_retry (.refl _) hfits).1
  have hwf₂ := Incoming.pause_wf hwf (Incoming.Leads.pause _ hfits₃).1
  obtain ⟨hret, hin⟩ := retry_ten (Incoming.pause_wf hwf₂ hfits₃) hfits hq hright' hn'
  rw [hin]
  exact ⟨hret, hun⟩

/-- Two answers, neither of which has come. -/
theorem answer_answer_ret {b b' : Bool} {text text' key key' : List UInt8}
    {f f' : (Nat → UInt8) → Nat → Nat → Nat → SignalInfo → SignalInfo × Nat} {gsm gsm' n n' : Nat}
    (h : CStr.strstr (l.pause c).fifo.data c.ram (l.pause c).fifo.head text = none)
    (h' : CStr.strstr ((l.pause c).pause c).fifo.data c.ram ((l.pause c).pause c).fifo.head text' =
      none) :
    ((l.answer c b text key f gsm n).answer c b' text' key' f' gsm' n').ret = l.ret := by
  obtain ⟨hret, hin⟩ := @answer_of_none c l b text key f gsm n h
  rw [← hin] at h'
  exact (answer_of_none h').1.trans hret

theorem answers_ret (h : l.Unanswered c) : (l.answers c).ret = l.ret := by
  obtain ⟨h1, h2⟩ := h
  unfold answers
  simp only
  split
  · rw [if_pos ‹_›] at h1 h2
    exact answer_answer_ret (l := l.paused c) h1 h2
  · rw [if_neg ‹_›] at h1 h2
    exact answer_answer_ret (l := l.paused c) h1 h2

end HeadFailWhile

/-! ## Nothing comes -/

theorem Incoming.pause_of_nil (h : i.later = []) : i.pause c = i := by
  unfold pause
  rw [h]
  cases i
  cases h
  rfl

namespace HeadFailWhile
variable {l : HeadFailWhile}

theorem paused_of_nil (h : l.later = []) : l.paused c = l := by
  unfold paused
  rw [Incoming.pause_of_nil h]

/-- The branch has got from `l` to `l'`, where the plain branch has the local variables `h`, and
nothing has come. -/
structure Mirrors (h : HeadFail) (l l' : HeadFailWhile) : Prop where
  locals : l'.locals = h
  later : l'.later = []
  uart : l'.uart = l.uart
  fits : l'.fits = l.fits

theorem Mirrors.ite {p : Prop} [Decidable p] {h h' : HeadFail} {l₁ l₂ : HeadFailWhile}
    (h₁ : Mirrors h l l₁) (h₂ : Mirrors h' l l₂) :
    Mirrors (if p then h else h') l (if p then l₁ else l₂) := by
  split
  · exact h₁
  · exact h₂

theorem retry_mirrors {h : HeadFail} {l' : HeadFailWhile} (hm : Mirrors h l l') :
    Mirrors (headFailRetry c h) l (l'.retry c) := by
  rw [← hm.locals]
  unfold retry headFailRetry
  simp only [paused_of_nil, run_later, hm.later]
  exact .ite (.ite ⟨rfl, hm.later, hm.uart, hm.fits⟩ ⟨rfl, hm.later, hm.uart, hm.fits⟩)
    ⟨rfl, hm.later, hm.uart, hm.fits⟩

theorem reboot_mirrors {h : HeadFail} {l' : HeadFailWhile} (hm : Mirrors h l l') :
    Mirrors { h with fifo := clearFifo c h.fifo, ret := 10 } l (l'.reboot c) := by
  have hclear : l'.clear c = { l'.toIncoming with fifo := clearFifo c l'.fifo } := by
    unfold Incoming.clear
    simp only [Incoming.pause_of_nil, hm.later]
    rfl
  unfold reboot
  rw [hclear, ← hm.locals]
  exact ⟨rfl, hm.later, hm.uart, hm.fits⟩

theorem scanned_scanned (h : HeadFail) (a b : Nat) :
    (h.scanned a).scanned b = h.scanned (max a b) := by
  unfold HeadFail.scanned
  rw [Nat.max_assoc]

theorem notice_mirrors (hl : l.later = []) :
    Mirrors (headFailNotice c l.locals) l (l.notice c) := by
  unfold notice headFailNotice
  simp only [paused_of_nil, run_later, hl]
  refine .ite ⟨rfl, hl, rfl, rfl⟩ ?_
  generalize hk : l.run (·.search c (netMqttDisconnectCmdHead c.moduleType)) = k
  have hlocals : l.locals.search c (netMqttDisconnectCmdHead c.moduleType) = k.locals := hk ▸ rfl
  have hm : Mirrors k.locals l k := hk ▸ ⟨rfl, hl, rfl, rfl⟩
  rw [hlocals]
  unfold rebootBanner rebootBannerEnd
  simp only [locals_fifo, run_fifo, HeadFail.scanned_fifo]
  obtain hb | hb :=
    Bool.eq_false_or_eq_true (CStr.strstr k.fifo.data c.ram 0 (ascii "boot.rom")).isSome
  · simp only [hb, if_true, Bool.true_or]
    exact reboot_mirrors ⟨rfl, hm.later, hm.uart, hm.fits⟩
  · simp only [hb, Bool.false_eq_true, if_false, Bool.false_or, ← scanned_scanned]
    have hm' : Mirrors ((k.locals.scanned (CStr.strstrEnd k.fifo.data c.ram 0
        (ascii "boot.rom"))).scanned (CStr.strstrEnd k.fifo.data c.ram 0 (ascii "Lierda"))) l
        ((k.run fun l => l.scanned (CStr.strstrEnd l.fifo.data c.ram 0 (ascii "boot.rom"))).run
          fun l => l.scanned (CStr.strstrEnd l.fifo.data c.ram 0 (ascii "Lierda"))) :=
      ⟨rfl, hm.later, hm.uart, hm.fits⟩
    exact .ite (reboot_mirrors hm') (.ite (retry_mirrors hm') hm')

theorem answer_mirrors {b : Bool} {text key : List UInt8}
    {f : (Nat → UInt8) → Nat → Nat → Nat → SignalInfo → SignalInfo × Nat} {gsm n : Nat}
    {h : HeadFail} {l' : HeadFailWhile} (hm : Mirrors h l l') :
    Mirrors (headFailAnswer c b text key f gsm n h) l (l'.answer c b text key f gsm n) := by
  rw [← hm.locals]
  unfold answer headFailAnswer
  simp only [paused_of_nil, run_later, hm.later]
  cases b
  · exact .ite (.ite ⟨rfl, hm.later, hm.uart, hm.fits⟩ ⟨rfl, hm.later, hm.uart, hm.fits⟩)
      ⟨rfl, hm.later, hm.uart, hm.fits⟩
  · exact .ite (.ite ⟨rfl, hm.later, hm.uart, hm.fits⟩ ⟨rfl, hm.later, hm.uart, hm.fits⟩)
      ⟨rfl, hm.later, hm.uart, hm.fits⟩

theorem answers_mirrors {h : HeadFail} {l' : HeadFailWhile} (hm : Mirrors h l l') :
    Mirrors (if c.moduleType.quectel then
        headFailAnswer c true (ascii "+QENG:") (getNetQengServingCellRspHead c.moduleType)
          (net4gGetNetQengServingCellCb c.moduleType) 1 (unreadLen c h.fifo)
          (headFailAnswer c true (ascii "+CSQ:") getNetRssiRspHead getNetRssi 0
            (unreadLen c h.fifo) h)
      else
        headFailAnswer c false (ascii "+CSQ:") getNetRssiRspHead getNetRssi 1 (unreadLen c h.fifo)
          (headFailAnswer c false (ascii "+LCELL:") (getNetCellRspHead c.moduleType)
            (net4gGetNetQcellCb c.moduleType) 0 (unreadLen c h.fifo) h)) l (l'.answers c) := by
  have hfifo : h.fifo = l'.fifo := hm.locals ▸ rfl
  unfold answers
  simp only [paused_of_nil hm.later, hfifo]
  exact .ite (answer_mirrors (answer_mirrors hm)) (answer_mirrors (answer_mirrors hm))

end HeadFailWhile

/-- The branch while nothing comes. -/
theorem headFailWhile_nil (r : Recv) (info : SignalInfo) (hi : Nat) (registered : Bool)
    (uart : List UInt8) :
    headFailWhile c r info hi registered uart [] = ⟨headFail c r info hi, uart, [], true⟩ := by
  have hm := HeadFailWhile.notice_mirrors (c := c)
    (l := ⟨⟨r.fifo, registered, uart, [], true⟩, 2, 0, info, 0, hi⟩) rfl
  have hm := HeadFailWhile.answers_mirrors (c := c) hm
  unfold headFailWhile
  simp only
  generalize HeadFailWhile.answers c _ = l at hm ⊢
  have hrest : l.rest c = l.toIncoming := by
    unfold Incoming.rest
    rw [hm.later]
    show { l.toIncoming with later := [] } = l.toIncoming
    rw [← hm.later]
  rw [hrest, hm.uart, hm.fits]
  show RecvWhile.mk ⟨l.locals.ret, { r with fifo := { l.locals.fifo with
    head := l.locals.fifo.tail } }, l.locals.info, l.locals.gsmPubs, l.locals.hi⟩ _ _ _ = _
  rw [hm.locals]
  rfl

/-- The call while nothing comes. -/
theorem getNet4GRecvCmdWhile_nil (r : Recv) (info : SignalInfo) (registered : Bool)
    (uart : List UInt8) :
    getNet4GRecvCmdWhile c r info registered uart [] =
      ⟨getNet4GRecvCmd c r info, uart, [], true⟩ := by
  unfold getNet4GRecvCmdWhile
  simp only
  split
  · rename_i h
    rw [getNet4GRecvCmd_idle h.1.1 h.1.2, headFailWhile_nil]
    unfold recvPath
    simp only [h.2]
  · rfl

/-! ## One call -/

variable {r : Recv} {info : SignalInfo} {hi : Nat} {registered : Bool} {uart : List UInt8}
  {a : List (List (List UInt8))}

/-- The window is dropped with what has come in, and the driver keeps the last of the bytes. -/
structure RecvWhile.Drops (c : Config) (registered : Bool) (uart : List UInt8)
    (w : RecvWhile) : Prop where
  unchecked : w.result.recv.Unchecked
  step : w.result.recv.cmdGetStep = 0
  empty : w.result.recv.window c = []
  ringed : Ringed c w.result.recv
  suffix : w.uart <:+ uart ++ w.came
  length : w.uart.length = uart.length + if registered then 0 else w.came.length

theorem headFailWhile_drops (hu : r.Unchecked) (h0 : r.cmdGetStep = 0) (hr : r.fifo.InRing c)
    (hfits : (headFailWhile c r info hi registered uart a).fits = true) :
    (headFailWhile c r info hi registered uart a).Drops c registered uart := by
  have hleads : Incoming.Leads c ⟨r.fifo, registered, uart, a, true⟩ _ :=
    HeadFailWhile.leads_answers (HeadFailWhile.leads_notice
      (l := ⟨⟨r.fifo, registered, uart, a, true⟩, 2, 0, info, 0, hi⟩) (.pause _))
  obtain ⟨hfits', hrest⟩ := Incoming.Leads.rest _ hfits
  have hled := (hleads hfits').2 hr
  have h := hled.trans (hrest hled.inRing)
  have hnil := Incoming.coming_rest hled.inRing hfits
  have hsuffix := h.uart
  have hlen := h.length
  rw [hnil, List.append_nil] at hsuffix
  rw [hnil, List.length_nil, ite_self, Nat.add_zero] at hlen
  have htail := h.inRing.2
  exact ⟨hu, h0, Fifo.window_empty c _, .of_empty htail.le htail (Fifo.window_empty c _) h0,
    hsuffix, hlen⟩

/-- A window that tells the loss makes the branch return 10. -/
theorem headFailWhile_ten (hr : r.fifo.Wf c)
    (hfits : (headFailWhile c r info hi registered uart a).fits = true)
    (h : Incoming.Tells c ⟨r.fifo, registered, uart, a, true⟩) :
    (headFailWhile c r info hi registered uart a).result.ret = 10 := by
  generalize hl : (⟨⟨r.fifo, registered, uart, a, true⟩, 2, 0, info, 0, hi⟩ : HeadFailWhile) = l
  have hfits' : (l.notice c).fits = true := by
    have hleads := (HeadFailWhile.leads_answers (.refl _)).trans (.rest _) hfits
    exact hl ▸ hleads.1
  have hret := HeadFailWhile.notice_ten (l := l) (hl ▸ hr) hfits' (hl ▸ h)
  have hans := HeadFailWhile.answers_ret hret.2
  rw [← hl] at hans hret
  exact hans.trans hret.1

/-- Where the window is given up, only the indices of the machine change. -/
theorem recvCmdFromFifo_givesUp (h : GivesUp c r) : ∃ i hi,
    recvCmdFromFifo c (ctrlHead c) netMqttCtrlCmdTail r =
      ⟨2, { r with cmdHeadIndex := i, cmdGetStep := 0 }, hi⟩ := by
  rcases h with ⟨h0, hne, hlt⟩ | ⟨h1, hnone⟩
  · refine ⟨r.cmdHeadIndex, 0, ?_⟩
    rw [recvCmdFromFifo_zero h0, if_neg hne, if_neg (Nat.not_le.2 hlt), ← h0]
  · have hnone' := (getKeyDataIndex_found r.fifo.data (ctrlHead c) c r.fifo.head r.fifo.tail
      r.cmdHeadIndex 0).trans hnone
    let k := getKeyDataIndex c r.fifo.data r.fifo.head r.fifo.tail (ctrlHead c) r.cmdHeadIndex
    refine ⟨k.index, k.hi, ?_⟩
    rw [recvCmdFromFifo, h1]
    exact if_neg (Bool.eq_false_iff.1 hnone')

theorem getNet4GRecvCmdWhile_givesUp (hu : r.Unchecked) (h : GivesUp c r) : ∃ i hi,
    getNet4GRecvCmdWhile c r info registered uart a =
      headFailWhile c { r with cmdHeadIndex := i, cmdGetStep := 0 } info hi registered uart a := by
  obtain ⟨i, hi, heq⟩ := recvCmdFromFifo_givesUp h
  refine ⟨i, hi, ?_⟩
  unfold getNet4GRecvCmdWhile
  simp only
  rw [show recvCmdFromFifo c (netMqttCtrlCmdHead c.moduleType) netMqttCtrlCmdTail r = _ from heq]
  exact if_pos ⟨hu, rfl⟩

theorem getNet4GRecvCmdWhile_drops (hu : r.Unchecked) (h : GivesUp c r) (hr : r.fifo.InRing c)
    (hfits : (getNet4GRecvCmdWhile c r info registered uart a).fits = true) :
    (getNet4GRecvCmdWhile c r info registered uart a).Drops c registered uart ∧
      (getNet4GRecvCmdWhile c r info registered uart a).came = a.flatten.flatten := by
  obtain ⟨i, hi, heq⟩ := @getNet4GRecvCmdWhile_givesUp c r info registered uart a hu h
  rw [heq] at hfits ⊢
  exact ⟨headFailWhile_drops hu rfl hr hfits, rfl⟩

theorem getNet4GRecvCmdWhile_ten (hu : r.Unchecked) (h : GivesUp c r) (hr : r.fifo.Wf c)
    (hfits : (getNet4GRecvCmdWhile c r info registered uart a).fits = true)
    (htells : Incoming.Tells c ⟨r.fifo, registered, uart, a, true⟩) :
    (getNet4GRecvCmdWhile c r info registered uart a).result.ret = 10 := by
  obtain ⟨i, hi, heq⟩ := @getNet4GRecvCmdWhile_givesUp c r info registered uart a hu h
  rw [heq] at hfits ⊢
  exact headFailWhile_ten hr hfits htells

theorem getNet4GRecvCmdWhile_kept (h : ¬ (r.Unchecked ∧ GivesUp c r)) :
    getNet4GRecvCmdWhile c r info registered uart a =
      ⟨getNet4GRecvCmd c r info, uart, [], true⟩ := by
  have htwo := recvCmdFromFifo_two (c := c) (r := r)
  exact if_neg fun h2 => h ⟨h2.1, htwo.1.1 h2.2⟩

end

/-! ## The communication step -/

section
variable (E : CommEnv) (x : CallInput E.config) (a : List (List (List UInt8))) (s : Comm)

namespace Comm

/-- The call of `get_net4G_recv_cmd`. -/
def receivedWhile : RecvWhile :=
  getNet4GRecvCmdWhile E.config s.recv s.info s.registered s.uart a

def afterReceiveWhile : Comm :=
  let w := s.receivedWhile E a
  { s with recv := w.result.recv, info := w.result.info, uart := w.uart }.save E.config
    ((List.replicate w.result.gsmPubs (Publication.gsmData 0 0)).flatMap x.reports)

end Comm

/-- `module_4g_communication_process`, while the deliveries `a` come in if a window is given up. -/
def module4gCommunicationProcessWhile : Option (CommRet × Comm) :=
  let s' := s.afterReceiveWhile E x a
  if (s.receivedWhile E a).result.ret = 10 then
    some (.netDisconnect, { s' with communicateStep := 0 })
  else (s'.otaWait E x).switch E x

end

section
variable {E : CommEnv} {x : CallInput E.config} {a : List (List (List UInt8))} {s t : Comm}
  {ret : CommRet}

/-- The step is the plain one where the reception is. -/
theorem module4gCommunicationProcessWhile_eq
    (h : s.receivedWhile E a = ⟨s.received E, s.uart, [], true⟩) :
    module4gCommunicationProcessWhile E x a s = module4gCommunicationProcess E x s := by
  unfold module4gCommunicationProcessWhile Comm.afterReceiveWhile
  rw [h]
  rfl

theorem module4gCommunicationProcessWhile_nil :
    module4gCommunicationProcessWhile E x [] s = module4gCommunicationProcess E x s :=
  module4gCommunicationProcessWhile_eq (getNet4GRecvCmdWhile_nil ..)

/-- With nothing unread a call receives nothing. -/
theorem getNet4GRecvCmd_empty {c : Config} {r : Recv} (info : SignalInfo) (hu : r.Unchecked)
    (h0 : r.cmdGetStep = 0) (hw : r.window c = []) :
    getNet4GRecvCmd c r info = ⟨0, r, info, 0, 0⟩ := by
  rw [getNet4GRecvCmd_idle hu.1 hu.2, recvPath, recvCmdFromFifo_zero h0, if_pos hw]
  rfl

/-- Behind the branch the step goes on like one that finds nothing unread. -/
theorem module4gCommunicationProcessWhile_outcome (hu : s.recv.Unchecked)
    (hup : GivesUp E.config s.recv) (hr : s.recv.fifo.InRing E.config)
    (hfits : (s.receivedWhile E a).fits = true)
    (h : module4gCommunicationProcessWhile E x a s = some (ret, t)) :
    SameRing (s.receivedWhile E a).result.recv t.recv ∧ t.uart = (s.receivedWhile E a).uart ∧
      ((s.receivedWhile E a).result.ret = 10 → ret = .netDisconnect) := by
  unfold module4gCommunicationProcessWhile at h
  simp only at h
  split at h
  · cases h
    exact ⟨.refl _, rfl, fun _ => rfl⟩
  rename_i h10
  obtain ⟨hd, -⟩ := getNet4GRecvCmdWhile_drops hu hup hr hfits
  have hreceived : (s.afterReceiveWhile E x a).received E =
      ⟨0, (s.receivedWhile E a).result.recv, (s.receivedWhile E a).result.info, 0, 0⟩ :=
    getNet4GRecvCmd_empty _ hd.unchecked hd.step hd.empty
  have hplain : module4gCommunicationProcess E x (s.afterReceiveWhile E x a) = some (ret, t) := by
    rw [← h]
    unfold module4gCommunicationProcess Comm.entered Comm.afterReceive
    rw [hreceived]
    rfl
  have hout := Comm.call_outcome hplain
  have hsame := hout.sameRing
  rw [hreceived] at hsame
  exact ⟨hsame, hout.uart, fun h => absurd h h10⟩

end

end AppXd.Net4g
