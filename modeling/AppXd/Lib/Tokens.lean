import AppXd.Lib.CString
import Mathlib.Data.List.GetD
import Mathlib.Data.List.TakeWhile

/-!
# The tokens of a string

What successive calls of `strtok` return is the list of the nonempty parts between delimiters.
-/

namespace CStr

/-- The nonempty parts of a string between delimiters. -/
def tokens (d : UInt8) (s : List UInt8) : List (List UInt8) :=
  (s.splitOnP (· = d)).filter (· ≠ [])

section
variable {d : UInt8} {a s t : List UInt8}

@[simp] theorem tokens_nil : tokens d [] = [] := by
  simp [tokens]

/-- A delimiter in front does not count. -/
theorem tokens_cons_delim : tokens d (d :: s) = tokens d s := by
  have hsep : decide (d = d) = true := decide_eq_true rfl
  have h := List.splitOnP_append_cons (p := (· = d)) [] s hsep
  unfold tokens
  rw [List.nil_append] at h
  rw [h]
  simp

theorem tokens_token (hne : t ≠ []) (hd : d ∉ t) : tokens d t = [t] := by
  unfold tokens
  rw [List.splitOnP_eq_singleton]
  · simp [hne]
  · intro b hb
    simp only [decide_eq_false_iff_not]
    rintro rfl
    exact hd hb

theorem tokens_token_append (hne : t ≠ []) (hd : d ∉ t) :
    tokens d (t ++ d :: s) = t :: tokens d s := by
  have h := tokens_token hne hd
  unfold tokens at h ⊢
  rw [List.splitOnP_append_cons t s (by simp), List.filter_append, h]
  rfl

/-- Delimiters in front do not count. -/
theorem tokens_append_delims (ht : ∀ b ∈ t, b = d) : tokens d (t ++ s) = tokens d s := by
  induction t with
  | nil => rfl
  | cons b t ih =>
    obtain rfl := ht b List.mem_cons_self
    rw [List.cons_append, tokens_cons_delim, ih fun b' hb => ht b' (List.mem_cons_of_mem _ hb)]

/-- The tokens of a list of nonempty parts are these. -/
theorem tokens_intercalate {ts : List (List UInt8)} (hne : ts ≠ [])
    (hts : ∀ t ∈ ts, t ≠ [] ∧ d ∉ t) : tokens d ([d].intercalate ts) = ts := by
  have hsplit := List.splitOn_intercalate d (fun t ht => (hts t ht).2) hne
  have hp : (fun b => decide (b = d)) = (· == d) := funext fun b => (beq_eq_decide b d).symm
  unfold tokens
  rw [hp]
  refine (congrArg (List.filter _) hsplit).trans ?_
  exact List.filter_eq_self.2 fun t ht => decide_eq_true (hts t ht).1

/-- A string is delimiters and then nothing, or a token that ends the string or a delimiter. -/
theorem exists_token (d : UInt8) (s : List UInt8) :
    ∃ ds s', s = ds ++ s' ∧ (∀ b ∈ ds, b = d) ∧
      (s' = [] ∨ ∃ t, t ≠ [] ∧ d ∉ t ∧ (s' = t ∨ ∃ s'', s' = t ++ d :: s'')) := by
  induction s with
  | nil => exact ⟨[], [], rfl, nofun, .inl rfl⟩
  | cons b s ih =>
    obtain ⟨ds, s', rfl, hds, h⟩ := ih
    by_cases hb : b = d
    · refine ⟨b :: ds, s', rfl, ?_, h⟩
      rintro c (_ | ⟨_, hc⟩)
      · exact hb
      · exact hds c hc
    refine ⟨[], b :: (ds ++ s'), rfl, nofun, .inr ?_⟩
    have hsingle : d ∉ [b] := by
      rw [List.mem_singleton]
      exact fun h => hb h.symm
    cases ds with
    | cons c ds =>
      obtain rfl := hds c List.mem_cons_self
      exact ⟨[b], List.cons_ne_nil _ _, hsingle, .inr ⟨ds ++ s', rfl⟩⟩
    | nil =>
      obtain rfl | ⟨t, hne, hd, h⟩ := h
      · exact ⟨[b], List.cons_ne_nil _ _, hsingle, .inl rfl⟩
      · have hd' : d ∉ b :: t := by
          rw [List.mem_cons, not_or]
          exact ⟨fun h => hb h.symm, hd⟩
        obtain rfl | ⟨s'', rfl⟩ := h
        · exact ⟨b :: s', List.cons_ne_nil _ _, hd', .inl rfl⟩
        · exact ⟨b :: t, List.cons_ne_nil _ _, hd', .inr ⟨s'', rfl⟩⟩

/-! ## Calls of `strtok` -/

/-- A token that ends the buffer. -/
theorem strtok_last (hne : t ≠ []) (hd : d ∉ t) (h0 : 0 ∉ t) :
    strtok d (a ++ t) a.length = (some a.length, a ++ t, (a ++ t).length) := by
  have hskip : t.takeWhile (· = d) = [] := by
    cases t with
    | nil => exact absurd rfl hne
    | cons b t =>
      rw [List.takeWhile_cons, if_neg]
      intro hb
      exact hd (of_decide_eq_true hb ▸ List.mem_cons_self)
  have htok : t.takeWhile (fun b => b ≠ d ∧ b ≠ 0) = t := by
    rw [List.takeWhile_eq_self_iff]
    intro b hb
    refine decide_eq_true ⟨?_, ?_⟩
    · rintro rfl
      exact hd hb
    · rintro rfl
      exact h0 hb
  have hend : (a ++ t).getD (a.length + t.length) 0 = 0 := by
    rw [← List.length_append]
    exact List.getD_eq_default _ _ (Nat.le_refl _)
  unfold strtok
  simp only [List.drop_left, hskip, List.length_nil, Nat.add_zero, htok, if_neg hne, hend,
    if_true, List.length_append]

/-- Delimiters in front of a token are skipped. -/
theorem strtok_delims {ds : List UInt8} (hds : ∀ b ∈ ds, b = d) :
    strtok d (a ++ (ds ++ s)) a.length = strtok d ((a ++ ds) ++ s) (a ++ ds).length := by
  have hstart : a.length + ((ds ++ s).takeWhile (· = d)).length =
      (a ++ ds).length + (s.takeWhile (· = d)).length := by
    rw [List.takeWhile_append_of_pos fun b hb => decide_eq_true (hds b hb), List.length_append,
      List.length_append, Nat.add_assoc]
  unfold strtok
  simp only [List.drop_left, hstart]
  rw [List.append_assoc]

/-- A call leaves the bytes in front of it alone. -/
theorem strtok_take {buf buf' : List UInt8} {pos pos' : Nat} {o : Option Nat}
    (h : strtok d buf pos = (o, buf', pos')) : buf'.take pos = buf.take pos ∧ pos ≤ pos' := by
  unfold strtok at h
  simp only at h
  generalize ((buf.drop pos).takeWhile (· = d)).length = k at h
  generalize (buf.drop (pos + k)).takeWhile (fun b => b ≠ d ∧ b ≠ 0) = tok at h
  split at h
  · cases h
    exact ⟨rfl, Nat.le_add_right _ _⟩
  · split at h
    · cases h
      exact ⟨rfl, by omega⟩
    · cases h
      exact ⟨List.take_set_of_le (by omega), by omega⟩

/-- A call returns the first token and goes on with the others. -/
theorem strtok_tokens (hd0 : d ≠ 0) (h0 : 0 ∉ s) :
    match tokens d s with
    | [] => (strtok d (a ++ s) a.length).1 = none
    | t :: ts => ∃ p a' s', strtok d (a ++ s) a.length = (some p, a' ++ s', a'.length) ∧
        textAt (a' ++ s') p = t ∧ 0 ∉ s' ∧ tokens d s' = ts := by
  obtain ⟨ds, s', rfl, hds, h⟩ := exists_token d s
  rw [List.mem_append, not_or] at h0
  rw [strtok_delims hds, tokens_append_delims hds]
  obtain rfl | ⟨t, hne, hd, rfl | ⟨s'', rfl⟩⟩ := h
  · have hz : (a ++ ds ++ []).getD (a ++ ds).length 0 = 0 := by
      rw [List.append_nil]
      exact List.getD_eq_default _ _ (Nat.le_refl _)
    rw [strtok_nul hd0 hz, tokens_nil]
  · rw [tokens_token hne hd, strtok_last hne hd h0.2]
    refine ⟨_, a ++ ds ++ s', [], by rw [List.append_nil], ?_, by simp, tokens_nil⟩
    unfold textAt
    rw [List.append_nil, List.drop_left, List.takeWhile_eq_self_iff]
    exact fun b hb => decide_eq_true fun hb0 => h0.2 (hb0 ▸ hb)
  · rw [List.mem_append, List.mem_cons, not_or, not_or] at h0
    rw [tokens_token_append hne hd, strtok_token (.inl rfl) hne hd h0.2.1, if_neg hd0]
    refine ⟨(a ++ ds).length, a ++ ds ++ t ++ [0], s'', ?_, ?_, h0.2.2.2, rfl⟩
    · simp [Nat.add_assoc]
    · have htext := textAt_append (a := a ++ ds) (t := s'') h0.2.1
      simpa using htext

end

/-! ## What stands behind the tokens -/

/-- A byte in front of the string `s` begins a token, or goes before the first one. -/
def pushToken (d : UInt8) (w : List UInt8) (b : UInt8) :
    List UInt8 → List (List UInt8 × List UInt8) → List (List UInt8 × List UInt8)
  | [], _ => [([b], w)]
  | c :: s, fs =>
    if c = d then ([b], s ++ 0 :: w) :: fs
    else
      match fs with
      | [] => []
      | (t, r) :: fs => (b :: t, r) :: fs

/-- The tokens of a string that has `w` behind its NUL, each with what stands behind its end. -/
def tokensBehind (d : UInt8) (w : List UInt8) : List UInt8 → List (List UInt8 × List UInt8)
  | [] => []
  | b :: s =>
    if b = d then tokensBehind d w s else pushToken d w b s (tokensBehind d w s)

/-- One past the last position that a call of `strtok` reads. -/
def strtokEnd (d : UInt8) (buf : List UInt8) (pos : Nat) : Nat :=
  let start := pos + ((buf.drop pos).takeWhile (· = d)).length
  start + ((buf.drop start).takeWhile fun b => b ≠ d ∧ b ≠ 0).length + 1

section
variable {d : UInt8} {a s t w : List UInt8}

@[simp] theorem tokensBehind_nil : tokensBehind d w [] = [] := rfl

theorem tokensBehind_append_delims (ht : ∀ b ∈ t, b = d) :
    tokensBehind d w (t ++ s) = tokensBehind d w s := by
  induction t with
  | nil => rfl
  | cons b t ih =>
    rw [List.cons_append, tokensBehind, if_pos (ht b List.mem_cons_self)]
    exact ih fun b' hb => ht b' (List.mem_cons_of_mem _ hb)

theorem tokensBehind_token (hne : t ≠ []) (hd : d ∉ t) : tokensBehind d w t = [(t, w)] := by
  induction t with
  | nil => exact absurd rfl hne
  | cons b t ih =>
    rw [List.mem_cons, not_or] at hd
    rw [tokensBehind, if_neg (Ne.symm hd.1)]
    cases t with
    | nil => rfl
    | cons c t =>
      have hc : c ≠ d := fun h => hd.2 (h ▸ List.mem_cons_self)
      rw [ih (List.cons_ne_nil _ _) hd.2, pushToken, if_neg hc]

theorem tokensBehind_token_append (hne : t ≠ []) (hd : d ∉ t) :
    tokensBehind d w (t ++ d :: s) = (t, s ++ 0 :: w) :: tokensBehind d w s := by
  induction t with
  | nil => exact absurd rfl hne
  | cons b t ih =>
    rw [List.mem_cons, not_or] at hd
    rw [List.cons_append, tokensBehind, if_neg (Ne.symm hd.1)]
    cases t with
    | nil =>
      have hnext : tokensBehind d w (d :: s) = tokensBehind d w s := if_pos rfl
      show pushToken d w b (d :: s) (tokensBehind d w (d :: s)) = _
      rw [hnext]
      exact if_pos rfl
    | cons c t =>
      have hc : c ≠ d := fun h => hd.2 (h ▸ List.mem_cons_self)
      rw [ih (List.cons_ne_nil _ _) hd.2]
      show pushToken d w b (c :: (t ++ d :: s)) _ = _
      rw [pushToken, if_neg hc]

/-- The tokens are the same whatever stands behind them. -/
theorem tokensBehind_fst (d : UInt8) (w s : List UInt8) :
    (tokensBehind d w s).map Prod.fst = tokens d s := by
  induction hn : s.length using Nat.strong_induction_on generalizing s with
  | _ n ih =>
    obtain ⟨ds, s', rfl, hds, h⟩ := exists_token d s
    rw [tokensBehind_append_delims hds, tokens_append_delims hds]
    obtain rfl | ⟨t, hne, hd, rfl | ⟨s'', rfl⟩⟩ := h
    · rw [tokens_nil]
      rfl
    · rw [tokensBehind_token hne hd, tokens_token hne hd]
      rfl
    · have hlt : s''.length < n := by
        rw [← hn, List.length_append, List.length_append, List.length_cons]
        omega
      rw [tokensBehind_token_append hne hd, tokens_token_append hne hd, List.map_cons,
        ih _ hlt s'' rfl]

theorem length_tokensBehind_le : (tokensBehind d w s).length ≤ s.length := by
  induction s with
  | nil => exact Nat.le_refl _
  | cons b s ih =>
    rw [tokensBehind, List.length_cons]
    split
    · exact Nat.le_succ_of_le ih
    unfold pushToken
    split
    · exact Nat.le_refl _
    split
    · exact Nat.succ_le_succ ih
    split
    · exact Nat.zero_le _
    · rename_i heq
      rw [heq] at ih
      exact Nat.le_succ_of_le ih

/-- A call returns the first token, terminated, and goes on with the others. -/
theorem strtok_tokensBehind (hd0 : d ≠ 0) (h0 : 0 ∉ s) :
    match tokensBehind d w s with
    | [] => (strtok d (a ++ (s ++ 0 :: w)) a.length).1 = none
    | (t, r) :: fs => ∃ p a' s',
      strtok d (a ++ (s ++ 0 :: w)) a.length = (some p, a' ++ (s' ++ 0 :: w), a'.length) ∧
      (a' ++ (s' ++ 0 :: w)).drop p = t ++ 0 :: r ∧ t ≠ [] ∧ 0 ∉ t ∧ 0 ∉ s' ∧
      tokensBehind d w s' = fs ∧
      (a' ++ (s' ++ 0 :: w)).length = (a ++ (s ++ 0 :: w)).length := by
  obtain ⟨ds, s', rfl, hds, h⟩ := exists_token d s
  rw [List.mem_append, not_or] at h0
  have hassoc : a ++ (ds ++ s' ++ 0 :: w) = a ++ ds ++ (s' ++ 0 :: w) := by simp
  rw [List.append_assoc ds, strtok_delims hds, tokensBehind_append_delims hds, ← List.append_assoc ds,
    hassoc]
  generalize a ++ ds = b
  obtain rfl | ⟨t, hne, hd, rfl | ⟨s'', rfl⟩⟩ := h
  · have hz : (b ++ ([] ++ 0 :: w)).getD b.length 0 = 0 := by
      rw [List.getD_append_right _ _ _ _ (Nat.le_refl _), Nat.sub_self]
      rfl
    rw [strtok_nul hd0 hz, tokensBehind_nil]
  · rw [tokensBehind_token hne hd, strtok_token (.inr rfl) hne hd h0.2, if_pos rfl]
    refine ⟨b.length, b ++ s', [], by simp, ?_, hne, h0.2, List.not_mem_nil, rfl, by simp⟩
    rw [List.append_assoc b, List.drop_left]
    rfl
  · rw [List.mem_append, List.mem_cons, not_or, not_or] at h0
    have hstep := strtok_token (a := b) (t := s'' ++ 0 :: w) (.inl rfl) hne hd h0.2.1
    rw [if_neg hd0] at hstep
    rw [tokensBehind_token_append hne hd, List.append_assoc t, List.cons_append, hstep]
    refine ⟨b.length, b ++ (t ++ [0]), s'', by simp [Nat.add_assoc], ?_, hne, h0.2.1, h0.2.2.2, rfl,
      by simp⟩
    have hbuf : b ++ (t ++ [0]) ++ (s'' ++ 0 :: w) = b ++ (t ++ 0 :: (s'' ++ 0 :: w)) := by simp
    rw [hbuf, List.drop_left]

/-- A call reads no further than the NUL. -/
theorem strtokEnd_le (hd0 : d ≠ 0) :
    strtokEnd d (a ++ (s ++ 0 :: w)) a.length ≤ (a ++ (s ++ 0 :: w)).length := by
  have hz : (a ++ (s ++ 0 :: w)).getD (a.length + s.length) 0 = 0 := by
    rw [← List.append_assoc, ← List.length_append,
      List.getD_append_right _ _ _ _ (Nat.le_refl _), Nat.sub_self]
    rfl
  have hskip := length_takeWhile_drop_le (p := fun b => b = d)
    (decide_eq_false fun h => hd0 h.symm) (Nat.le_add_right a.length s.length) hz
  unfold strtokEnd
  simp only
  generalize ((a ++ (s ++ 0 :: w)).drop a.length).takeWhile (· = d) = skip at hskip
  have htok := length_takeWhile_drop_le (p := fun b => b ≠ d ∧ b ≠ 0) (by simp)
    (show a.length + skip.length ≤ a.length + s.length by omega) hz
  have hlen : (a ++ (s ++ 0 :: w)).length = a.length + s.length + (w.length + 1) := by
    simp [Nat.add_assoc]
  omega

/-- Delimiters in front of a token are read. -/
theorem strtokEnd_delims {ds : List UInt8} (hds : ∀ b ∈ ds, b = d) :
    strtokEnd d (a ++ (ds ++ s)) a.length = strtokEnd d ((a ++ ds) ++ s) (a ++ ds).length := by
  have hstart : a.length + ((ds ++ s).takeWhile (· = d)).length =
      (a ++ ds).length + (s.takeWhile (· = d)).length := by
    rw [List.takeWhile_append_of_pos fun b hb => decide_eq_true (hds b hb), List.length_append,
      List.length_append, Nat.add_assoc]
  unfold strtokEnd
  simp only [List.drop_left, hstart]
  rw [List.append_assoc]

/-- Without a NUL the call that returns the last token reads behind the buffer. -/
theorem strtokEnd_last (hd : d ∉ t) (h0 : 0 ∉ t) :
    strtokEnd d (a ++ t) a.length = (a ++ t).length + 1 := by
  have hskip : t.takeWhile (· = d) = [] := by
    cases t with
    | nil => rfl
    | cons b t =>
      rw [List.takeWhile_cons, if_neg]
      intro hb
      exact hd (of_decide_eq_true hb ▸ List.mem_cons_self)
  have htok : t.takeWhile (fun b => b ≠ d ∧ b ≠ 0) = t := by
    rw [List.takeWhile_eq_self_iff]
    intro b hb
    refine decide_eq_true ⟨?_, ?_⟩
    · rintro rfl
      exact hd hb
    · rintro rfl
      exact h0 hb
  unfold strtokEnd
  simp only [List.drop_left, hskip, List.length_nil, Nat.add_zero, htok, List.length_append]

/-- Without a NUL a call that stays in the buffer returns a token that a delimiter ends. -/
theorem strtok_of_noNul (h0 : 0 ∉ s) (hd0 : d ≠ 0)
    (hend : strtokEnd d (a ++ s) a.length ≤ (a ++ s).length) :
    ∃ p a' s', strtok d (a ++ s) a.length = (some p, a' ++ s', a'.length) ∧ 0 ∉ s' ∧
      (a' ++ s').length = (a ++ s).length := by
  obtain ⟨ds, s', rfl, hds, h⟩ := exists_token d s
  rw [List.mem_append, not_or] at h0
  rw [strtokEnd_delims hds, ← List.append_assoc] at hend
  rw [strtok_delims hds, ← List.append_assoc]
  generalize a ++ ds = b at hend ⊢
  obtain rfl | ⟨t, hne, hd, rfl | ⟨s'', rfl⟩⟩ := h
  · rw [strtokEnd_last List.not_mem_nil List.not_mem_nil] at hend
    omega
  · rw [strtokEnd_last hd h0.2] at hend
    omega
  · rw [List.mem_append, List.mem_cons, not_or, not_or] at h0
    rw [strtok_token (.inl rfl) hne hd h0.2.1, if_neg hd0]
    exact ⟨b.length, b ++ (t ++ [0]), s'', by simp [Nat.add_assoc], h0.2.2.2, by simp⟩

end

end CStr
