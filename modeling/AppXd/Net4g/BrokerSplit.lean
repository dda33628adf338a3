import AppXd.Net4g.AtValue
import AppXd.Net4g.Route

/-!
# The broker's address and port

`device_route_rsp_cb` splits the broker's text `host:port` at the first colon, into an array of 32
bytes and one of 10. Neither size is known to `get_atcmd_rsp_before_after_value`: a store behind an
array's end leaves the call without a result. `SplitsBroker` is what the callback relies on,
`BrokerFits` says for which texts it holds.
-/

namespace AppXd.Net4g

open CStr (ascii textAt copyInto)

/-- `memcpy` to the front of an array. -/
def storeFront (buf s : List UInt8) : Option (List UInt8) :=
  if s.length ≤ buf.length then some (CStr.store buf s) else none

section
variable (data : Nat → UInt8)

/-- The loop over `u8i`: the bytes from the cell `p` on that are no blanks. -/
def plainBytes (p : Nat) : Nat → Nat
  | 0 => 0
  | n + 1 => if blank (data p) then 0 else plainBytes (p + 1) n + 1

/-- `get_atcmd_rsp_before_after_value` with its two arrays: the return value, and what is in them
afterwards. -/
def getAtcmdRspBeforeAfterStores (ram src srcLen : Nat) (middleKey before after : List UInt8) :
    Option (Bool × List UInt8 × List UInt8) :=
  match CStr.strstr data ram src middleKey with
  | none => some (false, before, after)
  | some offsetHead =>
    let tempDataLen := offsetHead - src
    if 0 < tempDataLen then
      (storeFront before (Ring.cells data src (src + tempDataLen))).bind fun before =>
        let p := offsetHead + middleKey.length
        -- with length 0 the second part is measured
        let tempData2Len :=
          if 0 < srcLen then subU32 (subU32 srcLen tempDataLen) middleKey.length
          else plainBytes data p 10
        if 0 < tempData2Len then
          (storeFront after (Ring.cells data p (p + tempData2Len))).map fun after =>
            (true, before, after)
        else some (false, before, after)
    else some (false, before, after)

/-- The call in `device_route_rsp_cb`: `u8szMqttAddrTemp` and `ucszMqttPortTemp` are zeroed. -/
def routeSplit (ram src : Nat) : Option (Bool × List UInt8 × List UInt8) :=
  getAtcmdRspBeforeAfterStores data ram src 0 (ascii ":") (copyInto 32 []) (copyInto 10 [])

end

/-- A broker `host:port` whose parts fit in the arrays. -/
structure BrokerForm (s host port : List UInt8) : Prop where
  split : s = host ++ 58 :: port
  colon : 58 ∉ host
  host_pos : 0 < host.length
  host_le : host.length ≤ 31
  port_pos : 0 < port.length
  port_le : port.length ≤ 9
  plain : ∀ b ∈ port, lineBlank b = false

/-- The stores stay in the arrays and leave each a terminator. A broker `host:port` is taken apart,
another text is refused. -/
def SplitsBroker (data : Nat → UInt8) (ram src : Nat) (s : List UInt8) : Prop :=
  ∃ ret before after, routeSplit data ram src = some (ret, before, after) ∧
    0 ∈ before ∧ 0 ∈ after ∧
    (∀ host port, BrokerForm s host port →
      ret = true ∧ textAt before 0 = host ∧ textAt after 0 = port) ∧
    ((¬ ∃ host port, BrokerForm s host port) → ret = false)

/-- A text with bytes before its first colon has no more than 31 of them, and behind the colon it
ends or goes on with a blank, or it has at most 9 bytes without any blank. -/
def BrokerFits (s : List UInt8) : Prop :=
  ∀ c, Seq.firstAt (ascii ":") s = some c → 0 < c →
    c ≤ 31 ∧ let port := s.drop (c + 1)
      (∀ b ∈ port.head?, lineBlank b = true) ∨ (port.length ≤ 9 ∧ ∀ b ∈ port, lineBlank b = false)

section
variable {data : Nat → UInt8} {ram src : Nat} {s host port : List UInt8}

theorem ascii_colon : ascii ":" = [58] := by decide

theorem BrokerForm.firstAt_eq (h : BrokerForm s host port) :
    Seq.firstAt (ascii ":") s = some host.length := by
  rw [ascii_colon, h.split]
  exact Seq.firstAt_singleton h.colon

theorem plainBytes_holds (h : CStr.Holds data ram src s) (n : Nat) :
    plainBytes data src n = min n (s.takeWhile fun b => !blank b).length := by
  induction n generalizing src s with
  | zero => rw [Nat.zero_min]; rfl
  | succ n ih =>
    cases s with
    | nil =>
      have hstop : data src = 0 := h.stop
      rw [plainBytes, hstop]
      rfl
    | cons b s =>
      have hb : data src = b := h.cell 0 (Nat.succ_pos _)
      have ih := ih (h.drop (k := 1) (Nat.succ_le_succ (Nat.zero_le _)))
      rw [List.drop_one, List.tail_cons] at ih
      rw [plainBytes, hb]
      by_cases hblank : blank b = true
      · rw [if_pos hblank, List.takeWhile_cons_of_neg (by rw [hblank]; decide)]
        exact (Nat.min_zero _).symm
      · have hplain : (!blank b) = true := by
          rw [Bool.not_eq_true] at hblank
          rw [hblank]
          rfl
        rw [if_neg hblank, ih, List.takeWhile_cons_of_pos (p := fun b => !blank b) hplain,
          List.length_cons, Nat.add_min_add_right]

theorem storeFront_zeros {n : Nat} (hs : s.length ≤ n) :
    storeFront (copyInto n []) s = some (copyInto n s) := by
  have hclear : copyInto n [] = CStr.clear (copyInto n []) := by
    refine (CStr.clear_eq_self_iff.2 fun b hb => ?_).symm
    exact List.eq_of_mem_replicate hb
  have hlen : (copyInto n []).length = n := CStr.length_copyInto (Nat.zero_le n)
  unfold storeFront
  rw [hlen, if_pos hs, hclear, CStr.store_clear, hlen]

theorem storeFront_zeros_of_lt {n : Nat} (hs : n < s.length) :
    storeFront (copyInto n []) s = none := by
  have hlen : (copyInto n []).length = n := CStr.length_copyInto (Nat.zero_le n)
  unfold storeFront
  rw [hlen, if_neg (Nat.not_le.2 hs)]

/-- The second part, as the loop measures it. -/
theorem plainBytes_length (h : CStr.Holds data ram src s) (n : Nat) :
    plainBytes data src n = ((s.takeWhile fun b => !blank b).take n).length := by
  rw [plainBytes_holds h, List.length_take]

theorem cells_plainBytes (h : CStr.Holds data ram src s) (n : Nat) :
    Ring.cells data src (src + plainBytes data src n) = (s.takeWhile fun b => !blank b).take n := by
  have hprefix : (s.takeWhile fun b => !blank b).take n <+: s :=
    (List.take_prefix _ _).trans (List.takeWhile_prefix _)
  rw [plainBytes_length h, h.cells hprefix.length_le]
  exact (List.prefix_iff_eq_take.1 hprefix).symm

/-- The call stores the two parts that `getAtcmdRspBeforeAfterValue` cuts out, and succeeds if there
is a second one. -/
theorem routeSplit_eq (h : CStr.Holds data ram src s) :
    routeSplit data ram src =
      let x := getAtcmdRspBeforeAfterValue s (ascii ":")
      (storeFront (copyInto 32 []) x.1).map fun before =>
        (!x.2.isEmpty, before, copyInto 10 x.2) := by
  unfold routeSplit getAtcmdRspBeforeAfterStores getAtcmdRspBeforeAfterValue
  rw [h.strstr]
  cases hc : Seq.firstAt (ascii ":") s with
  | none => rfl
  | some c =>
    have hle : c + 1 ≤ s.length := Seq.firstAt_le_length hc (by decide)
    simp only [Option.map_some, Nat.add_sub_cancel_left]
    by_cases hpos : 0 < c
    swap
    · rw [if_neg hpos, if_neg hpos]
      rfl
    have hkey : (ascii ":").length = 1 := by decide
    have hport := h.drop hle
    have hcells := cells_plainBytes hport 10
    have hlen := plainBytes_length hport 10
    have hten : (((s.drop (c + 1)).takeWhile fun b => !blank b).take 10).length ≤ 10 :=
      List.length_take_le _ _
    rw [if_pos hpos, if_pos hpos, h.cells (Nat.le_of_succ_le hle), if_neg (Nat.lt_irrefl 0), hkey,
      Nat.add_assoc, hcells, hlen]
    generalize ((s.drop (c + 1)).takeWhile fun b => !blank b).take 10 = port at hten
    cases storeFront (copyInto 32 []) (s.take c) with
    | none => rfl
    | some before =>
      rw [Option.bind_some, Option.map_some]
      cases port with
      | nil => rfl
      | cons b port =>
        rw [if_pos (List.length_pos_of_ne_nil (List.cons_ne_nil b port)), storeFront_zeros hten]
        rfl

/-- What the call relies on, as facts about the two parts. -/
theorem splitsBroker_iff_parts (h : CStr.Holds data ram src s) {x : List UInt8 × List UInt8}
    (hx : getAtcmdRspBeforeAfterValue s (ascii ":") = x) (hx1 : 0 ∉ x.1) (hx2 : 0 ∉ x.2) :
    SplitsBroker data ram src s ↔ x.1.length ≤ 31 ∧ x.2.length ≤ 9 ∧
      (∀ host port, BrokerForm s host port → host = x.1 ∧ port = x.2) ∧
      ((¬ ∃ host port, BrokerForm s host port) → x.2 = []) := by
  have hsplit := routeSplit_eq h
  rw [hx] at hsplit
  unfold SplitsBroker
  rw [hsplit]
  constructor
  · rintro ⟨ret, before, after, hcall, hbefore, hafter, hform, hother⟩
    rcases Nat.lt_or_ge 32 x.1.length with hlt | hle
    · simp only [storeFront_zeros_of_lt hlt, Option.map_none] at hcall
      cases hcall
    simp only [storeFront_zeros hle, Option.map_some] at hcall
    cases hcall
    have h1 := (CStr.zero_mem_copyInto_iff hx1).1 hbefore
    have h2 := (CStr.zero_mem_copyInto_iff hx2).1 hafter
    refine ⟨Nat.le_of_lt_succ h1, Nat.le_of_lt_succ h2, fun host port hb => ?_, fun hno => ?_⟩
    · obtain ⟨-, hhost, hport⟩ := hform host port hb
      rw [CStr.textAt_copyInto hx1] at hhost
      rw [CStr.textAt_copyInto hx2] at hport
      exact ⟨hhost.symm, hport.symm⟩
    · have hret := hother hno
      rw [Bool.not_eq_false', List.isEmpty_iff] at hret
      exact hret
  · rintro ⟨h1, h2, hform, hother⟩
    simp only [storeFront_zeros (h1.trans (Nat.le_succ 31)), Option.map_some]
    refine ⟨_, _, _, rfl, (CStr.zero_mem_copyInto_iff hx1).2 (Nat.lt_succ_of_le h1),
      (CStr.zero_mem_copyInto_iff hx2).2 (Nat.lt_succ_of_le h2), fun host port hb => ?_,
      fun hno => ?_⟩
    · obtain ⟨rfl, rfl⟩ := hform host port hb
      refine ⟨?_, CStr.textAt_copyInto hx1, CStr.textAt_copyInto hx2⟩
      rw [Bool.not_eq_true', List.isEmpty_eq_false_iff]
      exact List.ne_nil_of_length_pos hb.port_pos
    · rw [hother hno]
      rfl

/-- A text without NUL is blank where a line is. -/
theorem takeWhile_plain (h0 : 0 ∉ s) :
    (s.takeWhile fun b => !blank b) = s.takeWhile fun b => !lineBlank b := by
  induction s with
  | nil => rfl
  | cons b s ih =>
    have hb : b ≠ 0 := fun hb => h0 (hb ▸ List.mem_cons_self)
    have ih := ih fun h => h0 (List.mem_cons_of_mem b h)
    rw [List.takeWhile_cons, List.takeWhile_cons, blank_eq_lineBlank hb, ih]

theorem takeWhile_plain_eq_nil_iff :
    (s.takeWhile fun b => !lineBlank b) = [] ↔ ∀ b ∈ s.head?, lineBlank b = true := by
  cases s with
  | nil => exact iff_of_true rfl fun b hb => by cases hb
  | cons b s =>
    rw [List.takeWhile_cons]
    cases hb : lineBlank b with
    | true =>
      refine iff_of_true rfl ?_
      rintro _ ⟨⟩
      exact hb
    | false =>
      refine iff_of_false (List.cons_ne_nil _ _) fun h => ?_
      have htrue := h b rfl
      rw [hb] at htrue
      cases htrue

/-- The forms of a text with bytes before its first colon. -/
theorem brokerForm_iff {c : Nat} (hc : Seq.firstAt (ascii ":") s = some c) :
    BrokerForm s host port ↔ (host = s.take c ∧ port = s.drop (c + 1)) ∧ 0 < c ∧ c ≤ 31 ∧
      0 < port.length ∧ port.length ≤ 9 ∧ ∀ b ∈ port, lineBlank b = false := by
  constructor
  · intro h
    have hlen : host.length = c := Option.some.inj (h.firstAt_eq.symm.trans hc)
    have hsplit := h.split
    refine ⟨⟨?_, ?_⟩, hlen ▸ h.host_pos, hlen ▸ h.host_le, h.port_pos, h.port_le, h.plain⟩
    · rw [← hlen, hsplit, List.take_left]
    · rw [← hlen, hsplit, ← List.drop_drop, List.drop_left, List.drop_one, List.tail_cons]
  · rintro ⟨⟨rfl, rfl⟩, hpos, hle, hport_pos, hport_le, hplain⟩
    rw [ascii_colon] at hc
    have hlt : c + 1 ≤ s.length := Seq.firstAt_le_length hc (List.cons_ne_nil _ _)
    have hlen : (s.take c).length = c := List.length_take_of_le (Nat.le_of_succ_le hlt)
    have hcolon : s[c] = 58 := by
      have hget := (Seq.firstAt_occursAt hc).getElem? (j := 0) Nat.zero_lt_one
      rw [Nat.add_zero, List.getElem?_eq_getElem hlt] at hget
      exact Option.some.inj hget
    refine ⟨?_, ?_, hlen.symm ▸ hpos, hlen.symm ▸ hle, hport_pos, hport_le, hplain⟩
    · rw [← hcolon, ← List.drop_eq_getElem_cons hlt, List.take_append_drop]
    · intro hmem
      obtain ⟨q, hq, hval⟩ := List.getElem_of_mem hmem
      rw [hlen] at hq
      rw [List.getElem_take] at hval
      refine Seq.not_occursAt_of_lt_firstAt hc hq ?_
      rw [Seq.OccursAt, List.drop_eq_getElem_cons (hq.trans hlt), hval]
      exact List.prefix_append [58] _

/-- A text without bytes before a colon has no form, and the call refuses it. -/
theorem splitsBroker_of_no_host (h : CStr.Holds data ram src s)
    (hzero : ∀ c, Seq.firstAt (ascii ":") s = some c → c = 0) : SplitsBroker data ram src s := by
  have hno : ∀ host port, ¬ BrokerForm s host port := fun host port hb =>
    hb.host_pos.ne' (hzero _ hb.firstAt_eq)
  have hx : getAtcmdRspBeforeAfterValue s (ascii ":") = ([], []) := by
    unfold getAtcmdRspBeforeAfterValue
    cases hc : Seq.firstAt (ascii ":") s with
    | none => rfl
    | some c => exact if_neg (by rw [hzero c hc]; exact Nat.lt_irrefl 0)
  exact (splitsBroker_iff_parts h hx List.not_mem_nil List.not_mem_nil).2
    ⟨Nat.zero_le _, Nat.zero_le _, fun host port hb => absurd hb (hno host port), fun _ => rfl⟩

/-- The broker's text is taken apart or refused as it should exactly when it fits. -/
theorem splitsBroker_iff_brokerFits (data : Nat → UInt8) (ram src : Nat) (s : List UInt8)
    (h : CStr.Holds data ram src s) : SplitsBroker data ram src s ↔ BrokerFits s := by
  cases hc : Seq.firstAt (ascii ":") s with
  | none =>
    refine iff_of_true (splitsBroker_of_no_host h fun c hc' => ?_) fun c hc' => ?_
    · cases hc.symm.trans hc'
    · cases hc.symm.trans hc'
  | some c =>
    rcases Nat.eq_zero_or_pos c with rfl | hpos
    · refine iff_of_true (splitsBroker_of_no_host h fun c hc' => ?_) fun c hc' hpos => ?_
      · exact (Option.some.inj (hc.symm.trans hc')).symm
      · cases hc.symm.trans hc'
        exact absurd hpos (Nat.lt_irrefl 0)
    have hlt : c + 1 ≤ s.length := Seq.firstAt_le_length hc (by decide)
    have hport0 : 0 ∉ s.drop (c + 1) := fun h0 => h.noNul (List.mem_of_mem_drop h0)
    have hx : getAtcmdRspBeforeAfterValue s (ascii ":") =
        (s.take c, ((s.drop (c + 1)).takeWhile fun b => !lineBlank b).take 10) := by
      unfold getAtcmdRspBeforeAfterValue
      rw [hc, ← takeWhile_plain hport0]
      exact if_pos hpos
    have hx1 : 0 ∉ s.take c := fun h0 => h.noNul (List.mem_of_mem_take h0)
    have hx2 : 0 ∉ ((s.drop (c + 1)).takeWhile fun b => !lineBlank b).take 10 := fun h0 =>
      hport0 ((List.takeWhile_prefix _).subset (List.mem_of_mem_take h0))
    have hlen : (s.take c).length = c := List.length_take_of_le (Nat.le_of_succ_le hlt)
    have hfits : BrokerFits s ↔ c ≤ 31 ∧
        ((∀ b ∈ (s.drop (c + 1)).head?, lineBlank b = true) ∨
          (s.drop (c + 1)).length ≤ 9 ∧ ∀ b ∈ s.drop (c + 1), lineBlank b = false) := by
      constructor
      · intro hf
        exact hf c hc hpos
      · intro hf c' hc' _
        cases hc.symm.trans hc'
        exact hf
    rw [splitsBroker_iff_parts h hx hx1 hx2, hfits]
    simp only [brokerForm_iff hc, hlen]
    generalize s.drop (c + 1) = port
    constructor
    · rintro ⟨hle, h9, hform, hother⟩
      refine ⟨hle, ?_⟩
      by_cases hb : 0 < port.length ∧ port.length ≤ 9 ∧ ∀ b ∈ port, lineBlank b = false
      · exact .inr hb.2
      · have hnil := hother (by
          rintro ⟨_, _, ⟨-, rfl⟩, -, -, hb'⟩
          exact hb hb')
        rw [List.take_eq_nil_iff] at hnil
        exact .inl (takeWhile_plain_eq_nil_iff.1 (hnil.resolve_left (by decide)))
    · rintro ⟨hle, hblank | ⟨h9, hplain⟩⟩
      · have hnil := takeWhile_plain_eq_nil_iff.2 hblank
        rw [hnil]
        refine ⟨hle, Nat.zero_le _, ?_, fun _ => rfl⟩
        rintro _ port' ⟨⟨-, rfl⟩, -, -, hport, -, hplain⟩
        -- a blank that is none
        cases port' with
        | nil => exact absurd hport (Nat.lt_irrefl 0)
        | cons b port =>
          have hb := hplain b List.mem_cons_self
          rw [hblank b rfl] at hb
          cases hb
      · have hall : (port.takeWhile fun b => !lineBlank b) = port := by
          rw [List.takeWhile_eq_self_iff]
          intro b hb
          rw [hplain b hb]
          rfl
        rw [hall, List.take_of_length_le (h9.trans (by decide))]
        refine ⟨hle, h9, fun _ _ hb => hb.1, fun hno => ?_⟩
        by_contra hne
        exact hno ⟨_, _, ⟨rfl, rfl⟩, hpos, hle, List.length_pos_of_ne_nil hne, h9, hplain⟩

/-- The broker `mq:1883`. -/
theorem splitsBroker_mq :
    SplitsBroker (fun i => (ascii "mq:1883").getD i 0) ((ascii "mq:1883").length + 1) 0
      (ascii "mq:1883") := by
  refine (splitsBroker_iff_brokerFits _ _ _ _ (holds_getD (by decide))).2 fun c hc _ => ?_
  have hfirst : Seq.firstAt (ascii ":") (ascii "mq:1883") = some 2 := by decide
  cases hfirst.symm.trans hc
  refine ⟨by decide, .inr ⟨by decide, fun b hb => ?_⟩⟩
  exact Bool.eq_false_iff.2 (List.any_eq_false.1 (by decide) b hb)

/-- Of a port with ten digits all are stored, and the array has no terminator. -/
theorem not_splitsBroker_digits :
    ¬ ∀ (data : Nat → UInt8) (ram src : Nat) (s : List UInt8), CStr.Holds data ram src s →
      SplitsBroker data ram src s := by
  intro h
  have h0 : 0 ∉ ascii "m:1234567890" := by decide
  obtain ⟨ret, before, after, hcall, -, hafter, -⟩ := h _ _ _ _ (holds_getD h0)
  have hrun : routeSplit (fun i => (ascii "m:1234567890").getD i 0)
      ((ascii "m:1234567890").length + 1) 0 =
        some (true, copyInto 32 (ascii "m"), ascii "1234567890") := by decide +kernel
  cases hrun.symm.trans hcall
  revert hafter
  decide

end

end AppXd.Net4g
