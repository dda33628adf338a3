import AppXd.Lib.HeldText
import AppXd.Net4g.CellInfo

/-!
# The text between two keys

What `get_atcmd_rsp_value` is for: the text between the first head and the first tail after it,
without the blanks at its ends (`valueBetween`). The lengths and counters of the function are
`uint8_t`, and it trims NULs as well; `ValueFits` says for which responses that does no harm.
-/

namespace AppXd.Net4g

section
variable (data : Nat → UInt8)

/-- What `get_atcmd_rsp_value` does from the cell `p` behind the head on. `hi` is one past the last
cell read before. -/
def valueAfter (ram p tempDataLen hi : Nat) (tailKey : List UInt8) : Option (List UInt8) × Nat :=
  let i := skipBlanks data p tempDataLen
  (valueBefore data ram (p + i) tailKey,
    max (max hi (p + min (i + 1) tempDataLen)) (CStr.strstrEnd data ram (p + i) tailKey))

theorem getAtcmdRspValue_eq (ram src srcLen : Nat) (headKey tailKey : List UInt8) :
    getAtcmdRspValue data ram src srcLen headKey tailKey =
      match CStr.strstr data ram src headKey with
      | none => (none, CStr.strstrEnd data ram src headKey)
      | some q => valueAfter data ram (q + headKey.length) (subU32 srcLen headKey.length % 256)
          (CStr.strstrEnd data ram src headKey) tailKey := rfl

/-- `get_atcmd_rsp_value`, whose head key may be `NULL`. -/
def getAtcmdRspValueOf (ram src srcLen : Nat) (headKey : Option (List UInt8))
    (tailKey : List UInt8) : Option (List UInt8) × Nat :=
  match headKey with
  | some headKey => getAtcmdRspValue data ram src srcLen headKey tailKey
  | none => valueAfter data ram src (srcLen % 256) src tailKey

end

/-! ## The text -/

/-- CR, LF, space and quote. -/
def lineBlank (b : UInt8) : Bool := b = 13 || b = 10 || b = 32 || b = 34

/-- What stands behind the head. -/
def afterHead (headKey : Option (List UInt8)) (s : List UInt8) : Option (List UInt8) :=
  match headKey with
  | none => some s
  | some headKey => (Seq.firstAt headKey s).map fun a => s.drop (a + headKey.length)

/-- The text before the first tail, trimmed, if it is not empty. -/
def valueOfBody (tailKey body : List UInt8) : Option (List UInt8) :=
  (Seq.firstAt tailKey body).bind fun j =>
  let v := Seq.trim lineBlank (body.take j)
  if v = [] then none else some v

/-- The text between the first head and the first tail after it. -/
def valueBetween (headKey : Option (List UInt8)) (tailKey s : List UInt8) : Option (List UInt8) :=
  (afterHead headKey s).bind (valueOfBody tailKey)

/-- The first loop gets as far as the blanks go: it stays before the terminator, does not stop
inside the blanks of a text, and does not pass into the tail key unless nothing is found then; and
the text from there on is counted by a `uint8_t`. `len` is the length that the loop is bounded
by. -/
def BodyFits (len : Nat) (tailKey body : List UInt8) : Prop :=
  (Seq.lead lineBlank body < body.length ∨ len ≤ body.length ∨
    tailKey = [] ∧ len ≤ body.length + 1) ∧
  ∀ j, Seq.firstAt tailKey body = some j →
    let i := min len (Seq.lead lineBlank body)
    let text := body.take j
    if i ≤ j then
      Seq.trim lineBlank text = [] ∨
        Seq.lead lineBlank text ≤ len ∧ text.length - Seq.lead lineBlank text < 256
    else ∀ c, Seq.firstAt tailKey (body.drop i) = some c →
      c % 256 ≤ Seq.trail lineBlank ((body.drop i).take c)

/-- The length that bounds the first loop. -/
def headLoopLen (headKey : Option (List UInt8)) (s : List UInt8) : Nat :=
  (s.length - (headKey.getD []).length) % 256

def ValueFits (headKey : Option (List UInt8)) (tailKey s : List UInt8) : Prop :=
  ∀ body, afterHead headKey s = some body → BodyFits (headLoopLen headKey s) tailKey body

/-! ## The loops -/

section
variable {data : Nat → UInt8} {ram p : Nat} {s : List UInt8}

theorem blank_eq_lineBlank {b : UInt8} (hb : b ≠ 0) : blank b = lineBlank b := by
  simp only [blank, lineBlank, hb, decide_false, Bool.or_false]

/-- The first loop stops behind the blanks of a string that has more, or after its rounds. -/
theorem skipBlanks_holds (h : CStr.Holds data ram p s) {n : Nat}
    (hn : Seq.lead lineBlank s < s.length ∨ n ≤ s.length) :
    skipBlanks data p n = min n (Seq.lead lineBlank s) := by
  induction n generalizing p s with
  | zero => rw [Nat.zero_min]; rfl
  | succ n ih =>
    cases s with
    | nil => rcases hn with hn | hn <;> simp at hn
    | cons b s =>
      have hb : data p = b := h.cell 0 (Nat.succ_pos _)
      have hb0 : b ≠ 0 := by
        rintro rfl
        exact h.noNul List.mem_cons_self
      rw [skipBlanks, hb, blank_eq_lineBlank hb0]
      by_cases hblank : lineBlank b = true
      · have hlead : Seq.lead lineBlank (b :: s) = Seq.lead lineBlank s + 1 := by
          unfold Seq.lead
          rw [List.takeWhile_cons, if_pos hblank, List.length_cons]
        rw [if_pos hblank, hlead, ih (h.drop (k := 1) (Nat.succ_pos _)), Nat.add_min_add_right]
        · rfl
        · rw [hlead, List.length_cons] at hn
          exact hn.imp Nat.lt_of_succ_lt_succ Nat.le_of_succ_le_succ
      · have hlead : Seq.lead lineBlank (b :: s) = 0 := by
          unfold Seq.lead
          rw [List.takeWhile_cons, if_neg hblank, List.length_nil]
        rw [if_neg hblank, hlead, Nat.min_zero]

/-- In a string of blanks it takes the terminator for a blank as well. -/
theorem skipBlanks_passes (h : CStr.Holds data ram p s) (hall : ∀ b ∈ s, lineBlank b = true)
    {n : Nat} (hn : s.length < n) : s.length < skipBlanks data p n := by
  induction s generalizing p n with
  | nil =>
    obtain ⟨n, rfl⟩ := Nat.exists_eq_succ_of_ne_zero (Nat.ne_of_gt hn)
    have hstop : data p = 0 := h.stop
    rw [skipBlanks, hstop, if_pos (by decide)]
    exact Nat.succ_pos _
  | cons b s ih =>
    obtain ⟨n, rfl⟩ := Nat.exists_eq_succ_of_ne_zero (Nat.ne_of_gt (Nat.zero_lt_of_lt hn))
    have hb : data p = b := h.cell 0 (Nat.succ_pos _)
    have hb0 : b ≠ 0 := by
      rintro rfl
      exact h.noNul List.mem_cons_self
    rw [skipBlanks, hb, blank_eq_lineBlank hb0, if_pos (hall b List.mem_cons_self), List.length_cons]
    exact Nat.succ_lt_succ (ih (h.drop (k := 1) (Nat.succ_pos _))
      (fun b' hb' => hall b' (List.mem_cons_of_mem b hb')) (Nat.lt_of_succ_lt_succ hn))

/-- The second loop drops the blanks at the end of the text. -/
theorem trimBlanks_holds (h : CStr.Holds data ram p s) {c n : Nat} (hc : c ≤ s.length)
    (hn : n ≤ c) : trimBlanks data (p + c) n = min n (Seq.trail lineBlank (s.take c)) := by
  induction n generalizing c with
  | zero => rw [Nat.zero_min]; rfl
  | succ n ih =>
    obtain ⟨c, rfl⟩ := Nat.exists_eq_succ_of_ne_zero (Nat.ne_of_gt (Nat.zero_lt_of_lt hn))
    have hlt : c < s.length := hc
    have hcell : data (p + c.succ - 1) = s[c] := h.cell c hlt
    have hb0 : s[c] ≠ 0 := fun h0 => h.noNul (h0 ▸ List.getElem_mem hlt)
    have htake : s.take c.succ = s.take c ++ [s[c]] := by
      rw [List.take_succ_eq_append_getElem hlt]
    rw [trimBlanks, hcell, blank_eq_lineBlank hb0]
    by_cases hblank : lineBlank s[c] = true
    · have htrail : Seq.trail lineBlank (s.take c.succ) = Seq.trail lineBlank (s.take c) + 1 := by
        unfold Seq.trail
        rw [htake, List.rtakeWhile_concat_pos _ _ _ hblank, List.length_append]
        rfl
      rw [if_pos hblank, htrail]
      show trimBlanks data (p + c) n + 1 = _
      rw [ih hlt.le (Nat.le_of_succ_le_succ hn), Nat.add_min_add_right]
    · have htrail : Seq.trail lineBlank (s.take c.succ) = 0 := by
        unfold Seq.trail
        rw [htake, List.rtakeWhile_concat_neg _ _ _ hblank, List.length_nil]
      rw [if_neg hblank, htrail, Nat.min_zero]

/-- The text that the second half cuts out in front of the cell `c` where it finds the tail key. -/
def cutText (text : List UInt8) : Option (List UInt8) :=
  let n := (text.length - min (text.length % 256) (Seq.trail lineBlank text)) % 256
  if 0 < n then some (text.take n) else none

theorem valueBefore_holds (h : CStr.Holds data ram p s) (tailKey : List UInt8) :
    valueBefore data ram p tailKey =
      (Seq.firstAt tailKey s).bind fun c => cutText (s.take c) := by
  unfold valueBefore
  rw [h.strstr]
  cases hc : Seq.firstAt tailKey s with
  | none => rfl
  | some c =>
    obtain ⟨-, hle, -⟩ := Seq.firstAt_eq_some_iff.1 hc
    have hlen : (s.take c).length = c := List.length_take_of_le hle
    have htrim : trimBlanks data (p + c) (c % 256) =
        min (c % 256) (Seq.trail lineBlank (s.take c)) :=
      trimBlanks_holds h hle (Nat.mod_le c 256)
    simp only [Option.map_some, Option.bind_some, Nat.add_sub_cancel_left, htrim, cutText, hlen]
    generalize hm : min (c % 256) (Seq.trail lineBlank (s.take c)) = m
    have hmc : m ≤ c := hm ▸ (Nat.min_le_left _ _).trans (Nat.mod_le c 256)
    have hback : p + c - m - p = c - m := by omega
    rw [hback]
    split
    · have hn : (c - m) % 256 ≤ c := (Nat.mod_le _ _).trans (Nat.sub_le c m)
      rw [h.cells (hn.trans hle), List.take_take, Nat.min_eq_left hn]
    · rfl

end

/-! ## The cut text -/

section
variable {text : List UInt8}

theorem cutText_eq_none_iff :
    cutText text = none ↔ text.length % 256 ≤ Seq.trail lineBlank text := by
  have hle := Nat.mod_le text.length 256
  unfold cutText
  simp only
  split
  · rename_i hpos
    refine iff_of_false (by simp) fun hcount => ?_
    rw [Nat.min_eq_left hcount] at hpos
    omega
  · rename_i hzero
    refine iff_of_true rfl ?_
    rcases Nat.le_total (text.length % 256) (Seq.trail lineBlank text) with h | h
    · exact h
    · rw [Nat.min_eq_right h] at hzero
      omega

/-- The text that is cut out, when the first loop has skipped `min len lead` blanks, is the trimmed
text if the loop skipped them all and `uint8_t` counts what is left. -/
theorem cutText_drop_iff {len : Nat} :
    cutText (text.drop (min len (Seq.lead lineBlank text))) =
        (if Seq.trim lineBlank text = [] then none else some (Seq.trim lineBlank text)) ↔
      Seq.trim lineBlank text = [] ∨
        Seq.lead lineBlank text ≤ len ∧ text.length - Seq.lead lineBlank text < 256 := by
  by_cases hnil : Seq.trim lineBlank text = []
  · -- nothing but blanks
    have hall : ∀ b ∈ text.drop (min len (Seq.lead lineBlank text)), lineBlank b = true :=
      fun b hb => Seq.trim_eq_nil_iff.1 hnil b (List.mem_of_mem_drop hb)
    refine iff_of_true ?_ (.inl hnil)
    rw [if_pos hnil, cutText_eq_none_iff, Seq.trail_eq_length_iff.2 hall]
    exact Nat.mod_le _ _
  have hlead : Seq.lead lineBlank text < text.length := by
    refine Nat.lt_of_le_of_ne (Seq.lead_le text) fun h => hnil ?_
    exact Seq.trim_eq_nil_iff.2 (Seq.lead_eq_length_iff.1 h)
  rw [if_neg hnil, or_iff_right hnil]
  rcases Nat.lt_or_ge len (Seq.lead lineBlank text) with hshort | hlong
  · -- the loop stopped inside the blanks
    refine iff_of_false ?_ fun h => Nat.not_le.2 hshort h.1
    rw [Nat.min_eq_left hshort.le]
    intro hcut
    unfold cutText at hcut
    simp only at hcut
    split at hcut
    swap
    · cases hcut
    rename_i hpos
    have hhead := congrArg List.head? (Option.some.inj hcut)
    rw [Seq.trim_eq_take] at hhead hnil
    generalize (List.drop len text).length - _ = n at hpos hhead
    have hn : n % 256 ≠ 0 := Nat.ne_of_gt hpos
    have hm : text.length - Seq.lead lineBlank text -
        Seq.trail lineBlank (text.drop (Seq.lead lineBlank text)) ≠ 0 := by
      intro h0
      rw [h0, List.take_zero] at hnil
      exact hnil rfl
    rw [List.head?_take, if_neg hn, List.head?_take, if_neg hm, List.head?_drop, List.head?_drop,
      List.getElem?_eq_getElem (by omega), List.getElem?_eq_getElem hlead,
      Option.some.injEq] at hhead
    have hblank := Seq.getElem_lt_lead hshort (by omega)
    rw [hhead, Seq.getElem_lead hlead] at hblank
    cases hblank
  · rw [Nat.min_eq_right hlong, and_iff_right hlong, Seq.trim_eq_take]
    rw [Seq.trim_eq_take] at hnil
    have hdrop : (text.drop (Seq.lead lineBlank text)).length =
        text.length - Seq.lead lineBlank text := List.length_drop
    generalize text.drop (Seq.lead lineBlank text) = rest at hnil hdrop ⊢
    rw [← hdrop] at hnil ⊢
    have htrail : Seq.trail lineBlank rest < rest.length := by
      refine Nat.lt_of_le_of_ne (Seq.trail_le rest) fun h => hnil ?_
      rw [h, Nat.sub_self, List.take_zero]
    unfold cutText
    simp only
    constructor
    · intro hcut
      split at hcut
      swap
      · cases hcut
      have hlen := congrArg List.length (Option.some.inj hcut)
      rw [List.length_take, List.length_take] at hlen
      omega
    · intro hlt
      rw [Nat.mod_eq_of_lt hlt, Nat.min_eq_right htrail.le,
        Nat.mod_eq_of_lt (Nat.lt_of_le_of_lt (Nat.sub_le _ _) hlt),
        if_pos (Nat.sub_pos_of_lt htrail)]

end

/-! ## The value -/

section
variable {data : Nat → UInt8} {ram p len hi : Nat} {body tailKey : List UInt8}

/-- When the first loop stays in the string, the function finds the value, or none if there is none,
in the cases named. -/
theorem cutText_eq_valueOfBody_iff :
    ((Seq.firstAt tailKey (body.drop (min len (Seq.lead lineBlank body)))).bind fun c =>
        cutText ((body.drop (min len (Seq.lead lineBlank body))).take c)) =
        valueOfBody tailKey body ↔
      ∀ j, Seq.firstAt tailKey body = some j →
        let i := min len (Seq.lead lineBlank body)
        let text := body.take j
        if i ≤ j then
          Seq.trim lineBlank text = [] ∨
            Seq.lead lineBlank text ≤ len ∧ text.length - Seq.lead lineBlank text < 256
        else ∀ c, Seq.firstAt tailKey (body.drop i) = some c →
          c % 256 ≤ Seq.trail lineBlank ((body.drop i).take c) := by
  have hlead := Seq.lead_le (p := lineBlank) body
  unfold valueOfBody
  cases hj : Seq.firstAt tailKey body with
  | none =>
    rw [Seq.firstAt_drop_none hj ((Nat.min_le_right _ _).trans hlead)]
    exact iff_of_true rfl fun j h => by cases h
  | some j =>
    have hforall : ∀ {P : Nat → Prop}, (∀ j', some j = some j' → P j') ↔ P j := by
      intro P
      constructor
      · exact fun h => h j rfl
      · rintro h j' ⟨⟩
        exact h
    rw [hforall]
    simp only [Option.bind_some]
    by_cases hij : min len (Seq.lead lineBlank body) ≤ j
    · rw [if_pos hij]
      have hmin : min len (Seq.lead lineBlank body) =
          min len (Seq.lead lineBlank (body.take j)) := by
        rw [Seq.lead_take]
        omega
      have htake : (body.drop (min len (Seq.lead lineBlank body))).take
          (j - min len (Seq.lead lineBlank body)) =
            (body.take j).drop (min len (Seq.lead lineBlank body)) := by
        rw [List.drop_take]
      rw [Seq.firstAt_drop_le hj hij, Option.bind_some, htake, hmin]
      exact cutText_drop_iff
    · rw [if_neg hij]
      have hnil : Seq.trim lineBlank (body.take j) = [] := by
        refine Seq.trim_eq_nil_iff.2 (Seq.lead_eq_length_iff.1 ?_)
        rw [Seq.lead_take, List.length_take]
        omega
      rw [if_pos hnil]
      cases hc : Seq.firstAt tailKey (body.drop (min len (Seq.lead lineBlank body))) with
      | none => exact iff_of_true rfl fun c h => by cases h
      | some c =>
        rw [Option.bind_some, cutText_eq_none_iff,
          List.length_take_of_le (Seq.firstAt_eq_some_iff.1 hc).2.1]
        constructor
        · rintro h c' ⟨⟩
          exact h
        · exact fun h => h c rfl

/-- The part of the function behind the head, when the first loop stays in the string. -/
theorem valueAfter_stays_iff (tailKey : List UInt8) (h : CStr.Holds data ram p body)
    (hhi : hi ≤ p + body.length + 1)
    (hstay : Seq.lead lineBlank body < body.length ∨ len ≤ body.length) :
    (valueAfter data ram p len hi tailKey).1 = valueOfBody tailKey body ∧
        (valueAfter data ram p len hi tailKey).2 ≤ p + body.length + 1 ↔
      BodyFits len tailKey body := by
  have hlead := Seq.lead_le (p := lineBlank) body
  have hskip := skipBlanks_holds h hstay
  have hle : min len (Seq.lead lineBlank body) ≤ body.length :=
    (Nat.min_le_right _ _).trans hlead
  have hrest := h.drop hle
  have hread : (valueAfter data ram p len hi tailKey).2 ≤ p + body.length + 1 := by
    unfold valueAfter
    simp only [hskip]
    have hend := hrest.strstrEnd_le tailKey
    rw [List.length_drop] at hend
    omega
  have hvalue : (valueAfter data ram p len hi tailKey).1 =
      (Seq.firstAt tailKey (body.drop (min len (Seq.lead lineBlank body)))).bind fun c =>
        cutText ((body.drop (min len (Seq.lead lineBlank body))).take c) := by
    unfold valueAfter
    simp only [hskip]
    exact valueBefore_holds hrest tailKey
  rw [hvalue, and_iff_left hread, cutText_eq_valueOfBody_iff]
  unfold BodyFits
  rw [and_iff_right]
  exact hstay.imp_right .inl

/-- The same when it passes the terminator: with a tail key the search behind it reads on. -/
theorem valueAfter_passes_iff (tailKey : List UInt8) (h : CStr.Holds data ram p body)
    (hhi : hi ≤ p + body.length + 1) (hall : Seq.lead lineBlank body = body.length)
    (hlong : body.length < len) :
    (valueAfter data ram p len hi tailKey).1 = valueOfBody tailKey body ∧
        (valueAfter data ram p len hi tailKey).2 ≤ p + body.length + 1 ↔
      BodyFits len tailKey body := by
  have hpass := skipBlanks_passes h (Seq.lead_eq_length_iff.1 hall) hlong
  have hskip := skipBlanks_le data p len
  have hmin : min len (Seq.lead lineBlank body) = body.length := by omega
  have hend : CStr.strstrEnd data ram (p + skipBlanks data p len) tailKey ≤
      (valueAfter data ram p len hi tailKey).2 := Nat.le_max_right _ _
  have hloop : p + min (skipBlanks data p len + 1) len ≤
      (valueAfter data ram p len hi tailKey).2 := (Nat.le_max_right _ _).trans (Nat.le_max_left _ _)
  by_cases htail : tailKey = [] ∧ len ≤ body.length + 1
  · obtain ⟨rfl, hlen⟩ := htail
    have hempty : ∀ s : List UInt8, Seq.firstAt [] s = some 0 := fun s =>
      Seq.firstAt_eq_some_iff.2 ⟨List.nil_prefix, Nat.zero_le _, fun q hq => by omega⟩
    have hstr : CStr.strstr data ram (p + skipBlanks data p len) [] =
        some (p + skipBlanks data p len) := by
      unfold CStr.strstr
      rw [hempty]
      rfl
    refine iff_of_true ⟨?_, ?_⟩ ⟨.inr (.inr ⟨rfl, hlen⟩), ?_⟩
    · unfold valueAfter valueBefore valueOfBody
      simp only [hstr, hempty, Nat.sub_self, Nat.zero_mod, trimBlanks, Option.bind_some,
        List.take_zero, Nat.sub_zero, Nat.lt_irrefl, if_false]
      rfl
    · unfold valueAfter CStr.strstrEnd
      simp only [hstr, List.length_nil]
      omega
    · intro j hj
      cases (hempty body).symm.trans hj
      simp only [hempty]
      split
      · exact .inl rfl
      · rintro c ⟨⟩
        exact Nat.zero_le _
  · refine iff_of_false (fun hr => ?_) fun hfits => ?_
    · have hbound := hr.2
      have hlen : len = body.length + 1 := by omega
      have htail' : tailKey ≠ [] := fun ht => htail ⟨ht, by omega⟩
      have hkey := List.length_pos_of_ne_nil htail'
      unfold CStr.strstrEnd at hend
      split at hend
      · rename_i q hq
        have hge : p + skipBlanks data p len ≤ q := by
          unfold CStr.strstr at hq
          obtain ⟨k, -, rfl⟩ := Option.map_eq_some_iff.1 hq
          exact Nat.le_add_right _ _
        omega
      · unfold CStr.textEnd at hend
        omega
    · rcases hfits.1 with h1 | h1 | h1
      · omega
      · omega
      · exact htail h1

/-- The part of the function behind the head. -/
theorem valueAfter_right_iff (len : Nat) (tailKey : List UInt8) (h : CStr.Holds data ram p body)
    (hhi : hi ≤ p + body.length + 1) :
    (valueAfter data ram p len hi tailKey).1 = valueOfBody tailKey body ∧
        (valueAfter data ram p len hi tailKey).2 ≤ p + body.length + 1 ↔
      BodyFits len tailKey body := by
  have hlead := Seq.lead_le (p := lineBlank) body
  by_cases hstay : Seq.lead lineBlank body < body.length ∨ len ≤ body.length
  · exact valueAfter_stays_iff tailKey h hhi hstay
  · rw [not_or, Nat.not_lt, Nat.not_le] at hstay
    exact valueAfter_passes_iff tailKey h hhi (Nat.le_antisymm hlead hstay.1) hstay.2

end

/-- The function gives what stands between the keys, and reads no further than the response's
terminator. -/
def ValueRight (data : Nat → UInt8) (ram src : Nat) (headKey : Option (List UInt8))
    (tailKey s : List UInt8) : Prop :=
  let r := getAtcmdRspValueOf data ram src s.length headKey tailKey
  r.1 = valueBetween headKey tailKey s ∧ r.2 ≤ src + s.length + 1

section
variable {data : Nat → UInt8} {ram src : Nat} {headKey : Option (List UInt8)}
  {tailKey s body : List UInt8}

/-- Without the head there is no value. -/
theorem valueRight_of_no_head (h : CStr.Holds data ram src s) (hb : afterHead headKey s = none) :
    ValueRight data ram src headKey tailKey s := by
  cases headKey with
  | none => cases hb
  | some headKey =>
    have ha : Seq.firstAt headKey s = none := Option.map_eq_none_iff.1 hb
    unfold ValueRight getAtcmdRspValueOf valueBetween
    simp only [getAtcmdRspValue_eq, h.strstr, ha, hb, Option.map_none]
    exact ⟨rfl, h.strstrEnd_le headKey⟩

/-- With a head the text behind it decides. -/
theorem valueRight_body_iff (h : CStr.Holds data ram src s) (hb : afterHead headKey s = some body) :
    ValueRight data ram src headKey tailKey s ↔ BodyFits (headLoopLen headKey s) tailKey body := by
  unfold ValueRight valueBetween getAtcmdRspValueOf
  cases headKey with
  | none =>
    cases hb
    exact valueAfter_right_iff _ tailKey h (by omega)
  | some headKey =>
    obtain ⟨a, ha, rfl⟩ := Option.map_eq_some_iff.1 hb
    obtain ⟨ho, hle, -⟩ := Seq.firstAt_eq_some_iff.1 ha
    have hfit := List.IsPrefix.length_le ho
    rw [List.length_drop] at hfit
    have hlen : subU32 s.length headKey.length % 256 = headLoopLen (some headKey) s := by
      unfold subU32 headLoopLen
      rw [if_pos (by omega)]
      rfl
    have hend : src + (a + headKey.length) + (s.drop (a + headKey.length)).length =
        src + s.length := by
      rw [List.length_drop]
      omega
    have hright := valueAfter_right_iff (headLoopLen (some headKey) s) tailKey
      (h.drop (k := a + headKey.length) (by omega)) (hend.symm ▸ h.strstrEnd_le headKey)
    rw [hend, ← Nat.add_assoc src a] at hright
    simp only [getAtcmdRspValue_eq, h.strstr, ha, hb, Option.map_some, Option.bind_some, hlen]
    exact hright

end

/-- Whatever stands behind the response, the function is right exactly where the value fits. -/
theorem valueRight_iff_valueFits (data : Nat → UInt8) (ram src : Nat)
    (headKey : Option (List UInt8)) (tailKey s : List UInt8) (h : CStr.Holds data ram src s) :
    ValueRight data ram src headKey tailKey s ↔ ValueFits headKey tailKey s := by
  unfold ValueFits
  cases hb : afterHead headKey s with
  | none => exact iff_of_true (valueRight_of_no_head h hb) fun body hbody => by cases hbody
  | some body =>
    rw [valueRight_body_iff h hb]
    constructor
    · rintro hfits body' ⟨⟩
      exact hfits
    · exact fun hfits => hfits body rfl

theorem holds_getD {s : List UInt8} (h0 : 0 ∉ s) :
    CStr.Holds (fun i => s.getD i 0) (s.length + 1) 0 s where
  noNul := h0
  cell := fun i hi => by
    rw [Nat.zero_add]
    exact List.getD_eq_getElem _ _ hi
  stop := by
    rw [Nat.zero_add]
    exact List.getD_eq_default _ _ (Nat.le_refl _)
  lt := by omega

/-- The signal strength of a module's answer. -/
theorem valueRight_csq :
    ValueRight (fun i => (CStr.ascii "+CSQ: 23,0\r\nOK\r\n").getD i 0)
      ((CStr.ascii "+CSQ: 23,0\r\nOK\r\n").length + 1) 0 (some getNetRssiRspHead) netCmdRspTailOk
      (CStr.ascii "+CSQ: 23,0\r\nOK\r\n") := by
  refine (valueRight_iff_valueFits _ _ _ _ _ _ (holds_getD (by decide))).2 fun body hbody => ?_
  cases hbody
  refine ⟨.inl (by decide), fun j hj => ?_⟩
  cases hj
  decide

/-- Behind an empty value the line end is skipped as a blank, and the next line is returned. -/
theorem not_valueRight_empty :
    ¬ ∀ (data : Nat → UInt8) (ram src : Nat) (headKey : Option (List UInt8))
      (tailKey s : List UInt8), CStr.Holds data ram src s →
      ValueRight data ram src headKey tailKey s := by
  intro h
  obtain ⟨hvalue, -⟩ := h _ _ _ (some (CStr.ascii "+LBS: ")) (CStr.ascii "\r\n")
    (CStr.ascii "+LBS: \r\n1\r\n") (holds_getD (by decide))
  have hcut : (getAtcmdRspValueOf (fun i => (CStr.ascii "+LBS: \r\n1\r\n").getD i 0)
      ((CStr.ascii "+LBS: \r\n1\r\n").length + 1) 0 (CStr.ascii "+LBS: \r\n1\r\n").length
      (some (CStr.ascii "+LBS: ")) (CStr.ascii "\r\n")).1 = some [49] := by decide
  have hnone : valueBetween (some (CStr.ascii "+LBS: ")) (CStr.ascii "\r\n")
      (CStr.ascii "+LBS: \r\n1\r\n") = none := by decide
  rw [hcut, hnone] at hvalue
  cases hvalue

end AppXd.Net4g
