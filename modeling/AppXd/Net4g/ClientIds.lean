import AppXd.Net4g.ConfigSet

/-!
# The list of client ids

`get_clientIdList_keywords_pb` takes as many tokens of the list as its caller asks for, and the
caller asks for ten.
-/

namespace AppXd.Net4g

open CStr (tokens atoi)

/-- The decimal entries of a list, at least one. -/
structure IdList where
  entries : List (List UInt8)
  ne_nil : entries ≠ []
  decimal : ∀ e ∈ entries, e ≠ [] ∧ ∀ b ∈ e, 48 ≤ b ∧ b ≤ 57

/-- The string of a list, with commas between the entries. -/
def IdList.chars (l : IdList) : List UInt8 := [44].intercalate l.entries

/-- The call returns. The first entries, up to ten, stand in the buffer, and nothing behind its
first ten elements has changed. -/
def StoresIds (l : IdList) (ids : List Int) (r : Option (List Int)) : Prop :=
  ∃ ids', r = some ids' ∧ ids'.length = ids.length ∧
    (∀ k < min l.entries.length 10,
      ids'[k]? = l.entries[k]?.map fun e => (CStr.digits 10 e : Int)) ∧
    ∀ k, 10 ≤ k → ids'[k]? = ids[k]?

section
variable {k : Nat} {vs ids : List Int}

theorem length_setFrom : (setFrom k vs ids).length = ids.length := by
  induction vs generalizing k ids with
  | nil => rfl
  | cons v vs ih => rw [setFrom, ih, List.length_set]

/-- What stands in the list after the numbers have been set. -/
theorem getElem?_setFrom {i : Nat} (hi : i < ids.length) :
    (setFrom k vs ids)[i]? = if k ≤ i ∧ i < k + vs.length then vs[i - k]? else ids[i]? := by
  induction vs generalizing k ids with
  | nil =>
    rw [List.length_nil, if_neg (by omega)]
    rfl
  | cons v vs ih =>
    rw [setFrom, ih (by rwa [List.length_set]), List.length_cons]
    rcases Nat.lt_trichotomy i k with hlt | rfl | hgt
    · rw [if_neg (by omega), if_neg (by omega), List.getElem?_set_ne (by omega)]
    · rw [if_neg (by omega), if_pos (by omega), List.getElem?_set_self hi, Nat.sub_self]
      rfl
    · rw [List.getElem?_set_ne (by omega)]
      by_cases hin : i < k + 1 + vs.length
      · rw [if_pos ⟨by omega, hin⟩, if_pos (by omega),
          show i - k = i - (k + 1) + 1 by omega, List.getElem?_cons_succ]
      · rw [if_neg (by omega), if_neg (by omega)]

end

theorem zero_notMem_intercalate {ts : List (List UInt8)} (h : ∀ t ∈ ts, 0 ∉ t) :
    0 ∉ [44].intercalate ts := by
  induction ts with
  | nil => exact List.not_mem_nil
  | cons t ts ih =>
    rw [List.forall_mem_cons] at h
    by_cases hnil : ts = []
    · rw [hnil, List.intercalate_singleton]
      exact h.1
    · rw [List.intercalate_cons_of_ne_nil hnil, List.mem_append, List.mem_append, not_or, not_or]
      exact ⟨⟨h.1, by decide⟩, ih h.2⟩

namespace IdList

variable (l : IdList)

theorem noNul : 0 ∉ l.chars :=
  zero_notMem_intercalate fun e he h0 => absurd ((l.decimal e he).2 0 h0).1 (by decide)

/-- The tokens of the string are the entries. -/
theorem tokens_chars : tokens 44 l.chars = l.entries :=
  CStr.tokens_intercalate l.ne_nil fun e he =>
    ⟨(l.decimal e he).1, fun h44 => absurd ((l.decimal e he).2 44 h44).1 (by decide)⟩

end IdList

/-- The list has ten entries, and an `int` takes the first ten. -/
def IdList.TenInts (l : IdList) : Prop :=
  10 ≤ l.entries.length ∧ ∀ e ∈ l.entries.take 10, CStr.digits 10 e ≤ 2147483647

/-- A list is stored right exactly when it has ten entries or more and the first ten fit. -/
theorem storesIds_iff (l : IdList) {ids : List Int} (hids : 10 ≤ ids.length) :
    StoresIds l ids (getClientIdListKeywordsPb l.chars 10 ids) ↔ l.TenInts := by
  rw [getClientIdListKeywordsPb_eq l.noNul, l.tokens_chars]
  by_cases hten : 10 ≤ l.entries.length
  case neg =>
    rw [if_neg hten]
    refine iff_of_false ?_ fun h => hten h.1
    rintro ⟨ids', hret, -⟩
    cases hret
  have htake : ((l.entries.take 10).map atoi).length = 10 := by
    rw [List.length_map, List.length_take, Nat.min_eq_left hten]
  have hstored : ∀ {k : Nat} (hk : k < 10),
      (setFrom 0 ((l.entries.take 10).map atoi) ids)[k]? = some (atoi l.entries[k]) := by
    intro k hk
    rw [getElem?_setFrom (by omega), if_pos (by omega), Nat.sub_zero, List.getElem?_map,
      List.getElem?_take_of_lt hk, List.getElem?_eq_getElem (by omega), Option.map_some]
  have hentry : ∀ {k : Nat} (hk : k < 10), l.entries[k]? = some l.entries[k] := fun hk =>
    List.getElem?_eq_getElem (by omega)
  rw [if_pos hten]
  constructor
  · rintro ⟨_, ⟨⟩, -, hids', -⟩
    refine ⟨hten, fun e he => ?_⟩
    obtain ⟨k, hk, rfl⟩ := List.mem_iff_getElem.1 he
    have hk10 : k < 10 := by
      rw [List.length_take] at hk
      omega
    have heq := hids' k (by omega)
    rw [hstored hk10, hentry hk10, Option.map_some] at heq
    rw [List.getElem_take]
    exact (CStr.atoi_decimal_iff (l.decimal _ (List.getElem_mem _)).2).1 (Option.some.inj heq)
  · rintro ⟨-, hfit⟩
    refine ⟨_, rfl, length_setFrom, fun k hk => ?_, fun k hk => ?_⟩
    · have hk10 : k < 10 := by omega
      have hmem : l.entries[k] ∈ l.entries.take 10 := by
        rw [← List.getElem_take (j := 10) (h := by rw [List.length_take]; omega)]
        exact List.getElem_mem _
      rw [hstored hk10, hentry hk10, Option.map_some,
        (CStr.atoi_decimal_iff (l.decimal _ (List.getElem_mem _)).2).2 (hfit _ hmem)]
    · rcases Nat.lt_or_ge k ids.length with hlt | hge
      · rw [getElem?_setFrom hlt, if_neg (by omega)]
      · rw [List.getElem?_eq_none (by rwa [length_setFrom]), List.getElem?_eq_none hge]

/-- Ten entries with one digit each. -/
def tenIds : IdList where
  entries := (List.range 10).map fun n => [48 + n.toUInt8]
  ne_nil := by decide
  decimal := by
    intro e he
    obtain ⟨n, hn, rfl⟩ := List.mem_map.1 he
    have hall : ∀ n < 10, 48 ≤ 48 + n.toUInt8 ∧ 48 + n.toUInt8 ≤ 57 := by decide
    refine ⟨List.cons_ne_nil _ _, fun b hb => ?_⟩
    rw [List.mem_singleton.1 hb]
    exact hall n (List.mem_range.1 hn)

theorem storesIds_tenIds : 10 ≤ (List.replicate 10 (0 : Int)).length ∧
    StoresIds tenIds (List.replicate 10 0)
      (getClientIdListKeywordsPb tenIds.chars 10 (List.replicate 10 0)) :=
  ⟨by decide, (storesIds_iff tenIds (by decide)).2 ⟨by decide, by decide⟩⟩

/-- The list with the one entry 7. -/
def oneId : IdList := ⟨[[55]], by decide, by
  intro e he
  rw [List.mem_singleton.1 he]
  exact ⟨by decide, fun b hb => by rw [List.mem_singleton.1 hb]; decide⟩⟩

/-- The second token of a list with one entry is missing. -/
theorem not_storesIds : ¬ ∀ (l : IdList) (ids : List Int), 10 ≤ ids.length →
    StoresIds l ids (getClientIdListKeywordsPb l.chars 10 ids) := by
  intro h
  obtain ⟨ids', hret, -⟩ := h oneId (List.replicate 10 0) (by decide)
  rw [show getClientIdListKeywordsPb oneId.chars 10 (List.replicate 10 0) = none by decide] at hret
  cases hret

end AppXd.Net4g
