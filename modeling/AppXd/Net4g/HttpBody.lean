import AppXd.Net4g.AtValue
import AppXd.Net4g.HttpRsp

/-!
# Bodies of HTTP responses

The callbacks for activation and route cut the body out of the answer as a text: what stands behind a
NUL is lost, and blanks at its ends are trimmed. `DecodesBody` holds for the other bodies.
-/

namespace AppXd.Net4g

open CStr (textAt)

section
variable (m : ModuleType) (b : List UInt8)

/-- The module's answer with a body. -/
def httpAnswer : List UInt8 := (netRouteActiveRspHead m).getD [] ++ (b ++ netRouteActiveRspTail m)

/-- What the callbacks hand to the decoder, whatever it is, is the body: `net4gActivePostRspCb`,
`net4gActiveConfirmRspCb` and `deviceRouteRspCb` all decode with `httpDecode`. -/
def DecodesBody : Prop :=
  ∀ (α : Type) (decode : List UInt8 → Option α),
    httpDecode m decode (httpAnswer m b) = some (decode b)

/-- The body is a text that neither begins nor ends with a blank. -/
structure PlainBody : Prop where
  noNul : 0 ∉ b
  head : ∀ x ∈ b.head?, lineBlank x = false
  last : ∀ x ∈ b.getLast?, lineBlank x = false

end

section
variable {m : ModuleType} {b t : List UInt8}

/-- Behind a text without the key, a key whose first byte does not come back is found where it was
put. -/
theorem firstAt_append_key (ht : Keyword t) (hb : ∀ q, ¬ Seq.OccursAt t b q) :
    Seq.firstAt t (b ++ t) = some b.length := by
  have hne := ht.ne_nil
  refine Seq.firstAt_eq_some hne ?_ fun q hq ho => ?_
  · unfold Seq.OccursAt
    rw [List.drop_left]
  · rcases Nat.lt_or_ge b.length (q + t.length) with hcut | hin
    · -- the key's first byte would stand inside the key
      have hk : b.length - q < t.length := by omega
      have hcell := ho.getElem? hk
      rw [Nat.add_sub_cancel' hq.le, List.getElem?_append_right (Nat.le_refl _), Nat.sub_self,
        ← List.getElem?_eq_getElem hk] at hcell
      exact ht.first (b.length - q) (by omega) hk hcell.symm
    · exact hb q ((Seq.occursAt_append hin).1 ho)

theorem keyword_routeActiveRspTail (m : ModuleType) : Keyword (netRouteActiveRspTail m) := by
  cases m <;> decide

theorem routeActiveRspTail_length (m : ModuleType) : (netRouteActiveRspTail m).length ≤ 4 := by
  cases m <;> decide

theorem routeActiveRspTail_noNul (m : ModuleType) : 0 ∉ netRouteActiveRspTail m := by
  cases m <;> decide

theorem routeActiveRspHead_noNul (m : ModuleType) : 0 ∉ (netRouteActiveRspHead m).getD [] := by
  cases m <;> decide

/-- The tail is no blank, but for the line end that it may begin with. -/
theorem lead_routeActiveRspTail (m : ModuleType) :
    Seq.lead lineBlank (netRouteActiveRspTail m) < (netRouteActiveRspTail m).length ∧
      (0 < Seq.lead lineBlank (netRouteActiveRspTail m) →
        Seq.firstAt (netRouteActiveRspTail m) ((netRouteActiveRspTail m).drop
          (Seq.lead lineBlank (netRouteActiveRspTail m))) = none) := by
  cases m <;> decide

theorem afterHead_httpAnswer (m : ModuleType) (b : List UInt8) :
    afterHead (netRouteActiveRspHead m) (httpAnswer m b) = some (b ++ netRouteActiveRspTail m) := by
  unfold afterHead httpAnswer
  cases hhead : netRouteActiveRspHead m with
  | none => rfl
  | some headKey =>
    have hfirst : Seq.firstAt headKey (headKey ++ (b ++ netRouteActiveRspTail m)) = some 0 :=
      Seq.firstAt_eq_some_iff.2 ⟨List.prefix_append _ _, Nat.zero_le _, fun q hq => by omega⟩
    simp only [Option.getD_some, hfirst, Option.map_some, Nat.zero_add, List.drop_left]

theorem httpRspValue_eq (m : ModuleType) (srcData : List UInt8) :
    httpRspValue m srcData = (getAtcmdRspValueOf (fun i => srcData.getD i 0) (srcData.length + 1) 0
      srcData.length (netRouteActiveRspHead m) (netRouteActiveRspTail m)).1 := by
  unfold httpRspValue getAtcmdRspValueOf
  cases netRouteActiveRspHead m with
  | none =>
    simp only [valueAfter, Nat.zero_add]
  | some headKey => rfl

/-- A body without NUL is handed on trimmed, if anything is left of it. -/
theorem httpRspValue_answer (h0 : 0 ∉ b) (hlen : b.length ≤ 199)
    (htail : ∀ q, ¬ Seq.OccursAt (netRouteActiveRspTail m) b q) :
    httpRspValue m (httpAnswer m b) =
      if Seq.trim lineBlank b = [] then none else some (Seq.trim lineBlank b) := by
  have hfirst := firstAt_append_key (keyword_routeActiveRspTail m) htail
  have h4 := routeActiveRspTail_length m
  obtain ⟨hlead, hnext⟩ := lead_routeActiveRspTail m
  have hle := Seq.lead_le (p := lineBlank) b
  have h0' : 0 ∉ httpAnswer m b := by
    intro h
    rcases List.mem_append.1 h with h | h
    · exact routeActiveRspHead_noNul m h
    rcases List.mem_append.1 h with h | h
    · exact h0 h
    · exact routeActiveRspTail_noNul m h
  have hloop : headLoopLen (netRouteActiveRspHead m) (httpAnswer m b) =
      b.length + (netRouteActiveRspTail m).length := by
    unfold headLoopLen httpAnswer
    rw [List.length_append, Nat.add_sub_cancel_left, List.length_append,
      Nat.mod_eq_of_lt (by omega)]
  have hfits : BodyFits (headLoopLen (netRouteActiveRspHead m) (httpAnswer m b))
      (netRouteActiveRspTail m) (b ++ netRouteActiveRspTail m) := by
    rw [hloop]
    refine ⟨.inr (.inl (by rw [List.length_append])), fun j hj => ?_⟩
    cases hfirst.symm.trans hj
    simp only [List.take_left]
    rcases Nat.lt_or_ge (Seq.lead lineBlank b) b.length with hlt | hge
    · have happ := Seq.lead_append_of_lt (netRouteActiveRspTail m) hlt
      rw [happ, if_pos (by omega)]
      exact .inr ⟨by omega, by omega⟩
    · -- a body of blanks
      have hall : Seq.lead lineBlank b = b.length := Nat.le_antisymm hle hge
      have happ := Seq.lead_append (netRouteActiveRspTail m) hall
      rw [happ, Nat.min_eq_right (by omega)]
      rcases Nat.eq_zero_or_pos (Seq.lead lineBlank (netRouteActiveRspTail m)) with hz | hpos
      · rw [if_pos (by omega)]
        exact .inl (Seq.trim_eq_nil_iff.2 (Seq.lead_eq_length_iff.1 hall))
      · rw [if_neg (by omega), ← List.drop_drop, List.drop_left, hnext hpos]
        rintro c ⟨⟩
  have hright := (valueRight_body_iff (holds_getD h0') (afterHead_httpAnswer m b)).2 hfits
  rw [httpRspValue_eq]
  refine hright.1.trans ?_
  unfold valueBetween valueOfBody
  rw [afterHead_httpAnswer, Option.bind_some, hfirst, Option.bind_some, List.take_left]

/-- The body reaches the decoder as it is exactly when it is plain. -/
theorem decodesBody_iff_plainBody (m : ModuleType) (b : List UInt8) (hpos : 1 ≤ b.length)
    (hlen : b.length ≤ 199) (htail : ∀ q, ¬ Seq.OccursAt (netRouteActiveRspTail m) b q) :
    DecodesBody m b ↔ PlainBody b := by
  have hne : b ≠ [] := List.ne_nil_of_length_pos hpos
  constructor
  · intro h
    -- the decoder that gives back what it gets
    have hsome := h _ some
    unfold httpDecode at hsome
    cases hv : httpRspValue m (httpAnswer m b) with
    | none =>
      rw [hv] at hsome
      cases hsome
    | some v =>
      rw [hv] at hsome
      simp only at hsome
      split at hsome
      swap
      · cases hsome
      have hb : textAt v 0 = b := Option.some.inj (Option.some.inj hsome)
      have h0 : 0 ∉ b := hb ▸ CStr.zero_notMem_textAt v 0
      rw [httpRspValue_answer h0 hlen htail] at hv
      split at hv
      · cases hv
      cases hv
      have htrim : Seq.trim lineBlank b = b := by
        have hle : (textAt (Seq.trim lineBlank b) 0).length ≤ (Seq.trim lineBlank b).length :=
          (List.takeWhile_sublist _).length_le
        rw [hb] at hle
        exact ((List.rdropWhile_prefix _ _).sublist.trans
          (List.dropWhile_sublist _)).eq_of_length_le hle
      obtain ⟨h1, h2⟩ := (Seq.trim_eq_self_iff b).1 htrim
      exact ⟨h0, h1, h2⟩
  · rintro ⟨h0, h1, h2⟩ α decode
    have htrim := (Seq.trim_eq_self_iff b).2 ⟨h1, h2⟩
    have htext : textAt b 0 = b := by
      refine List.takeWhile_eq_self_iff.2 fun x hx => decide_eq_true ?_
      rintro rfl
      exact h0 hx
    unfold httpDecode
    rw [httpRspValue_answer h0 hlen htail, htrim, if_neg hne]
    simp only [htext]
    exact if_pos (by omega)

/-- The body `{}`. -/
theorem decodesBody_braces : DecodesBody .ec800 [123, 125] :=
  (decodesBody_iff_plainBody .ec800 [123, 125] (by decide) (by decide) (by
    intro q ho
    have hle := ho.le_length (keyword_routeActiveRspTail .ec800).ne_nil
    have hlen : (netRouteActiveRspTail .ec800).length = 2 := rfl
    rw [hlen, show ([123, 125] : List UInt8).length = 2 from rfl] at hle
    have hq : q = 0 := by omega
    subst hq
    revert ho
    decide)).2 ⟨by decide, by rintro x ⟨⟩; rfl, by rintro x ⟨⟩; rfl⟩

/-- A body of two bytes that begins with the tag 0x0A loses it. -/
theorem not_decodesBody_tag :
    ¬ ∀ (m : ModuleType) (b : List UInt8), 1 ≤ b.length → b.length ≤ 199 →
      (∀ q, ¬ Seq.OccursAt (netRouteActiveRspTail m) b q) → DecodesBody m b := by
  intro h
  have hbody := h .ec800 [10, 123] (by decide) (by decide) (by
    intro q ho
    have hle := ho.le_length (keyword_routeActiveRspTail .ec800).ne_nil
    have hlen : (netRouteActiveRspTail .ec800).length = 2 := rfl
    rw [hlen, show ([10, 123] : List UInt8).length = 2 from rfl] at hle
    have hq : q = 0 := by omega
    subst hq
    revert ho
    decide) _ some
  have hcut : httpDecode .ec800 some (httpAnswer .ec800 [10, 123]) = some (some [123]) := by decide
  rw [hcut] at hbody
  cases hbody

end

end AppXd.Net4g
