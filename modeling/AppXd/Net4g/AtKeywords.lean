import AppXd.Lib.HeldText
import AppXd.Net4g.CommandReads

/-!
# The keywords of a response

`get_at_rsp_keywords` cuts a response at its commas and copies the field with a given number without
the blanks at its end. The index that goes down over the blanks has 16 bits and is never negative:
in a field of blanks 65535 comes behind 0.
-/

namespace AppXd.Net4g

open CStr (ascii strtok strtokEnd textAt tokens tokensBehind Holds)

/-- The return value, the response as `strtok` leaves it, and the memory that `destData` points
to. -/
structure AtKeywords where
  ret : Bool
  srcData : List UInt8
  destData : Nat → UInt8

/-- The loop `for(i=strlen(pKeyWord)-1; i>=0; i--)` over the bytes from `pKeyWord` on: `key_len`.
Nothing where it reads behind the string or has not ended after the given number of rounds. -/
def keyLenLoop (mem : List UInt8) : Nat → UInt16 → UInt16 → Option UInt16
  | 0, _, _ => none
  | n + 1, i, keyLen =>
    match mem[i.toNat]? with
    | none => none
    | some b => if blank b then keyLenLoop mem n (i - 1) (keyLen - 1) else some keyLen

/-- The body of `if(key_count == keyNum)` for the token at `tok`: the bytes that are copied. Behind
65536 rounds the index has had all its values, so the loop does not end any more. -/
def takeKeyword (buf : List UInt8) (tok : Nat) : Option (List UInt8) :=
  let p := if buf.getD tok 0 = 34 then tok + 1 else tok
  let strlen := (textAt buf p).length
  match keyLenLoop (buf.drop p) 65536 (UInt16.ofNat strlen - 1) (UInt16.ofNat strlen) with
  | none => none
  | some keyLen =>
    if p + keyLen.toNat ≤ buf.length then some ((buf.drop p).take keyLen.toNat) else none

/-- The loop `while(pKeyWord != NULL)`. -/
def atKeywordsLoop (keyNum : UInt8) :
    Nat → List UInt8 → Nat → UInt8 → Bool → (Nat → UInt8) → Option AtKeywords
  | 0, _, _, _, _, _ => none
  | n + 1, buf, pos, keyCount, ret, destData =>
    if buf.length < strtokEnd 44 buf pos then none
    else
      match strtok 44 buf pos with
      | (none, buf, _) => some ⟨ret, buf, destData⟩
      | (some tok, buf, pos) =>
        if keyCount + 1 = keyNum then
          match takeKeyword buf tok with
          | none => none
          | some key =>
            atKeywordsLoop keyNum n buf pos (keyCount + 1) true (Ring.blit destData 0 (key ++ [0]))
        else atKeywordsLoop keyNum n buf pos (keyCount + 1) ret destData

/-- `get_at_rsp_keywords` on the string `srcData` with its terminator; `none` where it reads behind
the terminator or does not end. -/
def getAtRspKeywords (srcData srcHeader : List UInt8) (keyNum : UInt8) (destData : Nat → UInt8) :
    Option AtKeywords :=
  atKeywordsLoop keyNum (srcData.length + 1) srcData srcHeader.length 0 false destData

/-! ## The law -/

/-- The call ends and reads inside the string only; and if it returns 1, the destination holds the
field with the given number without its opening quote and the blanks at its end. -/
def KeywordsTotal (s header : List UInt8) (keyNum : UInt8) (r : Option AtKeywords) : Prop :=
  ∃ k, r = some k ∧ (k.ret = true → ∃ t ram, 0 < keyNum ∧
    (tokens 44 (s.drop header.length))[keyNum.toNat - 1]? = some t ∧
      Holds k.destData ram 0 (trimmed (unquoted t)))

/-- The fields, counted on from `k`, whose number is the given one modulo 256. -/
def numbered {α : Type*} (keyNum : UInt8) (k : Nat) (fs : List α) : List α :=
  ((fs.zipIdx (k + 1)).filter fun x => UInt8.ofNat x.2 = keyNum).map Prod.fst

/-- The bytes of a text on which the index stands before it passes 0. -/
def scanned (x : List UInt8) : List UInt8 := x.take ((x.length - 1) % 65536 + 1)

/-- One of these bytes is no blank; or the string goes on for so long that no value of the index
leaves it, and one of these bytes is none. The text has `r` behind its end. -/
def ScanEnds (x r : List UInt8) : Prop :=
  trimmed (scanned x) ≠ [] ∨
    65536 ≤ (x ++ 0 :: r).length ∧ trimmed ((x ++ 0 :: r).take 65536) ≠ []

instance (x r : List UInt8) : Decidable (ScanEnds x r) := inferInstanceAs (Decidable (_ ∨ _))

/-- The number of bytes up to the one where the index stops. -/
def keptLen (x r : List UInt8) : Nat :=
  if trimmed (scanned x) ≠ [] then (trimmed (scanned x)).length
  else (trimmed ((x ++ 0 :: r).take 65536)).length

/-- The text that is copied. Its length is a `uint16_t`. -/
def kept (x r : List UInt8) : List UInt8 := x.take (keptLen x r % 65536)

/-- Each field with the given number modulo 256 has an end of its own, and the last of them is cut
to the text of the field with that number. -/
structure KeywordsOk (keyNum : UInt8) (fs : List (List UInt8 × List UInt8)) : Prop where
  ends : ∀ f ∈ numbered keyNum 0 fs, ScanEnds (unquoted f.1) f.2
  last : ∀ f ∈ (numbered keyNum 0 fs).getLast?, 0 < keyNum ∧
    (fs.map fun g => trimmed (unquoted g.1))[keyNum.toNat - 1]? =
      some (kept (unquoted f.1) f.2)

/-! ## The index -/

section
variable {mem l : List UInt8} {b : UInt8}

theorem trimmed_concat : trimmed (l ++ [b]) = if blank b then trimmed l else l ++ [b] :=
  List.rdropWhile_concat ..

theorem length_trimmed_le (l : List UInt8) : (trimmed l).length ≤ l.length :=
  (List.rdropWhile_prefix _ _).length_le

/-- A round of the loop. -/
theorem keyLenLoop_round {i : Nat} (hi : i < mem.length) (h16 : i < 65536) (n : Nat)
    (keyLen : UInt16) : keyLenLoop mem (n + 1) (UInt16.ofNat i) keyLen =
      if blank mem[i] then keyLenLoop mem n (UInt16.ofNat i - 1) (keyLen - 1) else some keyLen := by
  have hread : mem[(UInt16.ofNat i).toNat]? = some mem[i] := by
    rw [UInt16.toNat_ofNat_of_lt' h16]
    exact List.getElem?_eq_getElem hi
  rw [keyLenLoop, hread]

/-- From the index `i` on: the index stops at the last byte up to there that is no blank, if there
is one, or goes on with 65535. -/
theorem keyLenLoop_eq {i : Nat} (hi : i < mem.length) (h16 : i < 65536) (n : Nat)
    (keyLen : UInt16) : keyLenLoop mem n (UInt16.ofNat i) keyLen =
      if trimmed (mem.take (i + 1)) ≠ [] ∧ i + 1 - (trimmed (mem.take (i + 1))).length < n then
        some (keyLen - UInt16.ofNat (i + 1 - (trimmed (mem.take (i + 1))).length))
      else if n ≤ i + 1 then none
      else keyLenLoop mem (n - (i + 1)) 65535 (keyLen - UInt16.ofNat (i + 1)) := by
  induction i generalizing n keyLen with
  | zero =>
    cases n with
    | zero => simp [keyLenLoop]
    | succ n =>
      rw [keyLenLoop_round hi h16, List.take_succ_eq_append_getElem hi, trimmed_concat]
      cases hb : blank mem[0] with
      | true => 
        cases n with
        | zero => simp [trimmed, keyLenLoop]
        | succ n => simp [trimmed]; rfl
      | false => simp
  | succ i ih =>
    cases n with
    | zero => simp [keyLenLoop]
    | succ n =>
      have hprev : UInt16.ofNat (i + 1) - 1 = UInt16.ofNat i := by
        rw [UInt16.ofNat_add]
        exact UInt16.add_sub_cancel ..
      rw [keyLenLoop_round hi h16, List.take_succ_eq_append_getElem hi, trimmed_concat, hprev,
        ih (Nat.lt_of_succ_lt hi) (Nat.lt_of_succ_lt h16)]
      cases hb : blank mem[i + 1] with
      | true =>
        have hle := length_trimmed_le (mem.take (i + 1))
        rw [List.length_take, Nat.min_eq_left (Nat.le_of_lt hi)] at hle
        have hsub : i + 1 + 1 - (trimmed (mem.take (i + 1))).length =
            i + 1 - (trimmed (mem.take (i + 1))).length + 1 := by omega
        have hkeyLen : ∀ m, keyLen - 1 - UInt16.ofNat m = keyLen - UInt16.ofNat (m + 1) := by
          intro m
          rw [UInt16.ofNat_add]
          show keyLen - 1 - UInt16.ofNat m = keyLen - (UInt16.ofNat m + 1)
          grind
        simp only [if_true, hsub, hkeyLen, Nat.succ_lt_succ_iff, Nat.add_le_add_iff_right,
          Nat.add_sub_add_right]
      | false =>
        have hlen : (mem.take (i + 1) ++ [mem[i + 1]]).length = i + 1 + 1 := by
          rw [List.length_append, List.length_take, Nat.min_eq_left (Nat.le_of_lt hi)]
          rfl
        have hne : mem.take (i + 1) ++ [mem[i + 1]] ≠ [] := List.concat_ne_nil _ _
        simp only [Bool.false_eq_true, if_false, hlen, Nat.sub_self]
        rw [if_pos ⟨hne, Nat.succ_pos n⟩]
        exact congrArg some (UInt16.sub_zero ..).symm

theorem ofNat_sub_ofNat {k m n : Nat} (h : k % 65536 = (m + n) % 65536) :
    UInt16.ofNat k - UInt16.ofNat m = UInt16.ofNat n := by
  have hsum : UInt16.ofNat k = UInt16.ofNat m + UInt16.ofNat n := by
    rw [← UInt16.ofNat_add, ← UInt16.toNat_inj, UInt16.toNat_ofNat', UInt16.toNat_ofNat']
    exact h
  rw [hsum, UInt16.add_comm, UInt16.add_sub_cancel]

/-- Behind a front of blanks, the last byte that is none stands behind that front. -/
theorem lt_length_trimmed {m n : Nat} (hm : trimmed (mem.take m) = [])
    (hn : trimmed (mem.take n) ≠ []) : m < (trimmed (mem.take n)).length := by
  by_contra hle
  rw [Nat.not_lt] at hle
  have hfront : trimmed (mem.take n) = mem.take (trimmed (mem.take n)).length :=
    List.prefix_iff_eq_take.1 ((List.rdropWhile_prefix _ _).trans (List.take_prefix n mem))
  have hsub : trimmed (mem.take n) ⊆ mem.take m := by
    rw [hfront]
    exact List.take_subset_take_left mem hle
  exact List.rdropWhile_last_not _ _ hn
    (List.rdropWhile_eq_nil_iff.1 hm _ (hsub (List.getLast_mem hn)))

/-- From 65535 on, with as many rounds as lead down to the last byte that is no blank. -/
theorem keyLenLoop_wrapped {n : Nat} (hn : n ≤ 65536) (hrounds : trimmed (mem.take 65536) ≠ [] →
      65536 - (trimmed (mem.take 65536)).length < n) :
    keyLenLoop mem n 65535 0 =
      if 65536 ≤ mem.length ∧ trimmed (mem.take 65536) ≠ [] then
        some (UInt16.ofNat (trimmed (mem.take 65536)).length)
      else none := by
  by_cases hlen : 65536 ≤ mem.length
  · have hloop := keyLenLoop_eq (i := 65535) hlen (by decide) n 0
    have hle := length_trimmed_le (mem.take 65536)
    rw [List.length_take, Nat.min_eq_left hlen] at hle
    refine hloop.trans ?_
    by_cases hne : trimmed (mem.take 65536) = []
    · rw [if_neg fun h => h.1 hne, if_pos hn, if_neg fun h => h.2 hne]
    · rw [if_pos ⟨hne, hrounds hne⟩, if_pos ⟨hlen, hne⟩]
      exact congrArg some (ofNat_sub_ofNat (k := 0)
        (m := 65536 - (trimmed (mem.take 65536)).length) (by omega))
  · rw [if_neg fun h => hlen h.1]
    cases n with
    | zero => rfl
    | succ n =>
      have hread : mem[(65535 : UInt16).toNat]? = none :=
        List.getElem?_eq_none (Nat.le_of_lt_succ (Nat.not_le.1 hlen))
      rw [keyLenLoop, hread]

/-- The length of the text that is copied. -/
theorem keyLenLoop_text (x r : List UInt8) :
    keyLenLoop (x ++ 0 :: r) 65536 (UInt16.ofNat x.length - 1) (UInt16.ofNat x.length) =
      if ScanEnds x r then some (UInt16.ofNat (keptLen x r)) else none := by
  have hends : trimmed (scanned x) = [] → (ScanEnds x r ↔
      65536 ≤ (x ++ 0 :: r).length ∧ trimmed ((x ++ 0 :: r).take 65536) ≠ []) := fun hnil =>
    or_iff_right (not_not.2 hnil)
  have hkept : trimmed (scanned x) = [] →
      keptLen x r = (trimmed ((x ++ 0 :: r).take 65536)).length := fun hnil =>
    if_neg (not_not.2 hnil)
  rcases Nat.eq_zero_or_pos x.length with hlen | hpos
  · obtain rfl := List.length_eq_zero_iff.1 hlen
    rw [if_congr (hends rfl) rfl rfl, hkept rfl]
    exact keyLenLoop_wrapped (Nat.le_refl 65536) fun hne =>
      Nat.sub_lt (by decide) (List.length_pos_iff.2 hne)
  · have hi := Nat.mod_lt (x.length - 1) (by decide : 0 < 65536)
    have hix := Nat.mod_le (x.length - 1) 65536
    have hstart : UInt16.ofNat x.length - 1 = UInt16.ofNat ((x.length - 1) % 65536) :=
      ofNat_sub_ofNat (m := 1) (by omega)
    have htake : (x ++ 0 :: r).take ((x.length - 1) % 65536 + 1) = scanned x :=
      List.take_append_of_le_length (by omega)
    have hle : (trimmed (scanned x)).length ≤ (x.length - 1) % 65536 + 1 :=
      (length_trimmed_le _).trans (List.length_take_le _ _)
    rw [hstart, keyLenLoop_eq (by rw [List.length_append]; omega) hi, htake]
    by_cases hne : trimmed (scanned x) = []
    · have hzero : UInt16.ofNat x.length - UInt16.ofNat ((x.length - 1) % 65536 + 1) = 0 :=
        ofNat_sub_ofNat (n := 0) (by omega)
      rw [if_neg fun h => h.1 hne, hzero, if_congr (hends hne) rfl rfl, hkept hne]
      by_cases hend : 65536 ≤ (x.length - 1) % 65536 + 1
      · -- the index has gone through all its values
        have hall : (x ++ 0 :: r).take 65536 = scanned x := by
          rw [← htake]
          exact congrArg (List.take · _) (Nat.le_antisymm hend hi)
        rw [if_pos hend, if_neg fun h => h.2 (hall ▸ hne)]
      · rw [if_neg hend]
        refine keyLenLoop_wrapped (Nat.sub_le ..) fun hfar => ?_
        have hlt := lt_length_trimmed (htake ▸ hne) hfar
        omega
    · have hlt : 0 < (trimmed (scanned x)).length := List.length_pos_iff.2 hne
      have hkeep : keptLen x r = (trimmed (scanned x)).length := if_pos hne
      rw [if_pos ⟨hne, by omega⟩, if_pos (show ScanEnds x r from .inl hne), hkeep]
      exact congrArg some (ofNat_sub_ofNat (by omega))

end

section
variable {buf t r : List UInt8} {tok : Nat}

theorem keptLen_le (x r : List UInt8) : keptLen x r ≤ (x ++ 0 :: r).length := by
  unfold keptLen
  split
  · rw [List.length_append]
    exact Nat.le_add_right_of_le ((length_trimmed_le _).trans (List.length_take_le' _ _))
  · exact (length_trimmed_le _).trans (List.length_take_le' _ _)

theorem unquoted_append (hne : t ≠ []) : unquoted (t ++ 0 :: r) = unquoted t ++ 0 :: r := by
  cases t with
  | nil => exact absurd rfl hne
  | cons b t =>
    unfold unquoted
    show (if b = 34 then t ++ 0 :: r else b :: (t ++ 0 :: r)) = (if b = 34 then t else b :: t) ++ _
    split <;> rfl

/-- The bytes that are copied. -/
theorem takeKeyword_eq (ht : buf.drop tok = t ++ 0 :: r) (hne : t ≠ []) (h0 : 0 ∉ t) :
    takeKeyword buf tok =
      if ScanEnds (unquoted t) r then
        some ((unquoted t ++ 0 :: r).take (keptLen (unquoted t) r % 65536))
      else none := by
  have htext := textAt_unquoted ht hne h0
  have hdrop := (drop_unquoted ht 0).trans (unquoted_append hne)
  rw [Nat.add_zero, Nat.add_zero] at hdrop
  unfold takeKeyword
  simp only [htext, hdrop]
  generalize (if buf.getD tok 0 = 34 then tok + 1 else tok) = p at hdrop
  have hlen := congrArg List.length hdrop
  rw [List.length_drop, List.length_append, List.length_cons] at hlen
  have hle := keptLen_le (unquoted t) r
  rw [List.length_append, List.length_cons] at hle
  have hmod := Nat.mod_le (keptLen (unquoted t) r) 65536
  rw [keyLenLoop_text]
  by_cases hends : ScanEnds (unquoted t) r
  · rw [if_pos hends, if_pos hends]
    simp only [UInt16.toNat_ofNat']
    rw [if_pos (show p + keptLen (unquoted t) r % 65536 ≤ buf.length by omega)]
  · rw [if_neg hends, if_neg hends]

/-- The text that a copy leaves in the destination. -/
theorem holds_kept {x : List UInt8} (destData : Nat → UInt8) (h0 : 0 ∉ x) :
    ∃ ram, Holds (Ring.blit destData 0 ((x ++ 0 :: r).take (keptLen x r % 65536) ++ [0])) ram 0
      (kept x r) := by
  unfold kept
  generalize keptLen x r % 65536 = m
  have h0' : 0 ∉ x.take m := fun h => h0 (List.mem_of_mem_take h)
  rcases Nat.lt_or_ge x.length m with hlt | hle
  · obtain ⟨k, rfl⟩ := Nat.exists_eq_add_of_lt hlt
    have htake : (x ++ 0 :: r).take (x.length + k + 1) = x ++ 0 :: r.take k := by
      rw [Nat.add_assoc, List.take_length_add_append, List.take_succ_cons]
    have hall : x.take (x.length + k + 1) = x := List.take_of_length_le (Nat.le_of_lt hlt)
    rw [htake, hall, List.append_assoc, List.cons_append]
    exact ⟨_, .blit_cons destData 0 h0 _⟩
  · rw [List.take_append_of_le_length hle]
    exact ⟨_, .blit destData 0 h0'⟩

end

/-! ## The loop over the fields -/

section
variable {keyNum : UInt8} {α : Type*} {f : α} {fs : List α}

theorem mem_of_mem_numbered {k : Nat} (h : f ∈ numbered keyNum k fs) : f ∈ fs := by
  obtain ⟨x, hx, rfl⟩ := List.mem_map.1 h
  exact List.fst_mem_of_mem_zipIdx (List.mem_filter.1 hx).1

theorem numbered_cons (k : Nat) : numbered keyNum k (f :: fs) =
    if UInt8.ofNat k + 1 = keyNum then f :: numbered keyNum (k + 1) fs
    else numbered keyNum (k + 1) fs := by
  have hnum : UInt8.ofNat (k + 1) = UInt8.ofNat k + 1 := UInt8.ofNat_add k 1
  unfold numbered
  rw [List.zipIdx_cons, List.filter_cons]
  simp only [hnum, decide_eq_true_eq]
  split <;> rfl

end

/-- What a run over fields leaves, the last with the number being `f`. -/
def Took (ret : Bool) (destData : Nat → UInt8) (k : AtKeywords) :
    Option (List UInt8 × List UInt8) → Prop
  | none => k.ret = ret ∧ k.destData = destData
  | some f => k.ret = true ∧ ∃ ram, Holds k.destData ram 0 (kept (unquoted f.1) f.2)

section
variable {ret : Bool} {destData destData' : Nat → UInt8} {k : AtKeywords}
  {f : List UInt8 × List UInt8} {fs : List (List UInt8 × List UInt8)}

/-- A field whose copy the fields behind it may have written over. -/
theorem Took.cons (hf : ∃ ram, Holds destData' ram 0 (kept (unquoted f.1) f.2))
    (h : Took true destData' k fs.getLast?) : Took ret destData k (f :: fs).getLast? := by
  rw [List.getLast?_cons]
  cases hlast : fs.getLast? with
  | none =>
    rw [hlast] at h
    exact ⟨h.1, h.2 ▸ hf⟩
  | some g =>
    rw [hlast] at h
    exact h

theorem zero_notMem_unquoted {t : List UInt8} (h0 : 0 ∉ t) : 0 ∉ unquoted t := by
  unfold unquoted
  split
  · exact fun h => h0 (List.mem_of_mem_drop h)
  · exact h0

end

/-- The run over the fields. -/
theorem atKeywordsLoop_fields (keyNum : UInt8) {n : Nat} (j : Nat) (a : List UInt8)
    {s : List UInt8} (ret : Bool) (destData : Nat → UInt8) (h0 : 0 ∉ s)
    (hn : (tokensBehind 44 [] s).length < n) :
    ((∀ f ∈ numbered keyNum j (tokensBehind 44 [] s), ScanEnds (unquoted f.1) f.2) →
      ∃ k, atKeywordsLoop keyNum n (a ++ (s ++ [0])) a.length (UInt8.ofNat j) ret destData =
        some k ∧ Took ret destData k (numbered keyNum j (tokensBehind 44 [] s)).getLast?) ∧
    ((∃ f ∈ numbered keyNum j (tokensBehind 44 [] s), ¬ ScanEnds (unquoted f.1) f.2) →
      atKeywordsLoop keyNum n (a ++ (s ++ [0])) a.length (UInt8.ofNat j) ret destData = none) := by
  induction n generalizing j a s ret destData with
  | zero => exact absurd hn (Nat.not_lt_zero _)
  | succ n ih =>
    have hend := CStr.strtokEnd_le (d := 44) (a := a) (s := s) (w := []) (by decide)
    have hcall := CStr.strtok_tokensBehind (d := 44) (a := a) (w := []) (by decide) h0
    rw [atKeywordsLoop, if_neg (Nat.not_lt.2 hend)]
    cases hfs : tokensBehind 44 [] s with
    | nil =>
      rw [hfs] at hcall
      obtain ⟨q, hq⟩ : ∃ q, strtok 44 (a ++ (s ++ [0])) a.length = (none, q) :=
        ⟨_, Prod.ext hcall rfl⟩
      rw [hq]
      exact ⟨fun _ => ⟨_, rfl, rfl, rfl⟩, fun ⟨f, hf, _⟩ => absurd hf List.not_mem_nil⟩
    | cons f fs =>
      obtain ⟨t, r⟩ := f
      rw [hfs] at hcall hn
      obtain ⟨tok, a', s', hstrtok, ht, hne, ht0, h0', rfl, -⟩ := hcall
      rw [hstrtok, numbered_cons]
      simp only
      have hnum : UInt8.ofNat (j + 1) = UInt8.ofNat j + 1 := UInt8.ofNat_add j 1
      have hrest := fun ret destData =>
        hnum ▸ ih (j + 1) a' ret destData h0' (Nat.lt_of_succ_lt_succ hn)
      by_cases hj : UInt8.ofNat j + 1 = keyNum
      · rw [if_pos hj, if_pos hj, takeKeyword_eq ht hne ht0, List.forall_mem_cons]
        by_cases hends : ScanEnds (unquoted t) r
        · rw [if_pos hends]
          have hbehind := hrest true (Ring.blit destData 0
            ((unquoted t ++ 0 :: r).take (keptLen (unquoted t) r % 65536) ++ [0]))
          refine ⟨fun h => ?_, fun ⟨f, hf, hnot⟩ => hbehind.2 ?_⟩
          · obtain ⟨k, hk, htook⟩ := hbehind.1 h.2
            exact ⟨k, hk, htook.cons (holds_kept destData (zero_notMem_unquoted ht0))⟩
          · rcases List.mem_cons.1 hf with rfl | hf
            · exact absurd hends hnot
            · exact ⟨f, hf, hnot⟩
        · rw [if_neg hends]
          exact ⟨fun h => absurd h.1 hends, fun _ => rfl⟩
      · rw [if_neg hj, if_neg hj]
        exact hrest ret destData

/-- What the call does is decided by the fields behind the header. -/
theorem getAtRspKeywords_fields (s header : CStr.Text) (keyNum : UInt8) (destData : Nat → UInt8)
    (hle : header.chars.length ≤ s.chars.length) {fs : List (List UInt8 × List UInt8)}
    (hfs : tokensBehind 44 [] (s.chars.drop header.chars.length) = fs) :
    ((∀ f ∈ numbered keyNum 0 fs, ScanEnds (unquoted f.1) f.2) →
      ∃ k, getAtRspKeywords (s.chars ++ [0]) header.chars keyNum destData = some k ∧
        Took false destData k (numbered keyNum 0 fs).getLast?) ∧
    ((∃ f ∈ numbered keyNum 0 fs, ¬ ScanEnds (unquoted f.1) f.2) →
      getAtRspKeywords (s.chars ++ [0]) header.chars keyNum destData = none) := by
  have hlen : (s.chars.take header.chars.length).length = header.chars.length := by
    rw [List.length_take, Nat.min_eq_left hle]
  have h0 : 0 ∉ s.chars.drop header.chars.length := fun h => s.noNul (List.mem_of_mem_drop h)
  have hn : (tokensBehind 44 [] (s.chars.drop header.chars.length)).length <
      (s.chars ++ [0]).length + 1 := by
    have hfields := CStr.length_tokensBehind_le (d := 44) (w := [])
      (s := s.chars.drop header.chars.length)
    rw [List.length_drop] at hfields
    rw [List.length_append]
    omega
  have hrun := atKeywordsLoop_fields keyNum 0 (s.chars.take header.chars.length) false destData
    h0 hn
  rw [← List.append_assoc, List.take_append_drop, hlen, hfs] at hrun
  exact hrun

/-- The call ends inside the string, and copies the field with the number, exactly when each field
with that number modulo 256 has an end of its own and the last of them is cut to that text. -/
theorem keywordsTotal_iff (s header : CStr.Text) (keyNum : UInt8) (destData : Nat → UInt8)
    (hle : header.chars.length ≤ s.chars.length) :
    KeywordsTotal s.chars header.chars keyNum
        (getAtRspKeywords (s.chars ++ [0]) header.chars keyNum destData) ↔
      KeywordsOk keyNum (tokensBehind 44 [] (s.chars.drop header.chars.length)) := by
  have hrun := getAtRspKeywords_fields s header keyNum destData hle rfl
  -- the fields are the tokens
  have htokens := CStr.tokensBehind_fst 44 [] (s.chars.drop header.chars.length)
  unfold KeywordsTotal
  rw [← htokens]
  generalize tokensBehind 44 [] (s.chars.drop header.chars.length) = fs at hrun
  constructor
  · rintro ⟨k, hk, hret⟩
    have hends : ∀ f ∈ numbered keyNum 0 fs, ScanEnds (unquoted f.1) f.2 := by
      intro f hf
      by_contra hnot
      cases (hrun.2 ⟨f, hf, hnot⟩).symm.trans hk
    refine ⟨hends, fun f hf => ?_⟩
    obtain ⟨k', hk', htook⟩ := hrun.1 hends
    obtain rfl := Option.some.inj (hk.symm.trans hk')
    rw [Option.mem_def.1 hf] at htook
    obtain ⟨t, ram, hpos, ht, hheld⟩ := hret htook.1
    obtain ⟨ram', hheld'⟩ := htook.2
    refine ⟨hpos, ?_⟩
    rw [List.getElem?_map, Option.map_eq_some_iff] at ht ⊢
    obtain ⟨g, hg, rfl⟩ := ht
    exact ⟨g, hg, hheld.unique hheld'⟩
  · intro hok
    obtain ⟨k, hk, htook⟩ := hrun.1 hok.ends
    refine ⟨k, hk, fun hret => ?_⟩
    cases hlast : (numbered keyNum 0 fs).getLast? with
    | none =>
      rw [hlast] at htook
      rw [htook.1] at hret
      cases hret
    | some f =>
      rw [hlast] at htook
      obtain ⟨hpos, hf⟩ := hok.last f hlast
      obtain ⟨ram, hheld⟩ := htook.2
      rw [List.getElem?_map, Option.map_eq_some_iff] at hf
      obtain ⟨g, hg, heq⟩ := hf
      refine ⟨g.1, ram, hpos, ?_, heq ▸ hheld⟩
      rw [List.getElem?_map, hg]
      rfl

/-! ## Short responses -/

section
variable {x r : List UInt8} {keyNum : UInt8} {fs : List (List UInt8 × List UInt8)}

theorem scanned_of_short (h : x.length ≤ 65536) : scanned x = x := by
  rcases Nat.eq_zero_or_pos x.length with hlen | hpos
  · rw [List.length_eq_zero_iff.1 hlen]
    rfl
  · unfold scanned
    rw [Nat.mod_eq_of_lt (by omega), Nat.sub_add_cancel hpos, List.take_length]

theorem scanEnds_of_short (h : (x ++ 0 :: r).length < 65536) : ScanEnds x r ↔ trimmed x ≠ [] := by
  have hx : x.length ≤ 65536 := by
    rw [List.length_append] at h
    omega
  unfold ScanEnds
  rw [scanned_of_short hx]
  exact or_iff_left fun hfar => Nat.not_le.2 h hfar.1

theorem kept_of_short (h : x.length < 65536) (hne : trimmed x ≠ []) : kept x r = trimmed x := by
  have hle := length_trimmed_le x
  have hlen : keptLen x r = (trimmed x).length := by
    unfold keptLen
    rw [scanned_of_short (Nat.le_of_lt h), if_pos hne]
  unfold kept
  rw [hlen, Nat.mod_eq_of_lt (by omega)]
  exact take_length_trimmed x

theorem length_unquoted_le (x : List UInt8) : (unquoted x).length ≤ x.length := by
  unfold unquoted
  split
  · exact (List.drop_sublist 1 x).length_le
  · exact Nat.le_refl _

/-- In a response below 65536 bytes each field with the number has something else than blanks, and
the last one of them has the text of the first. -/
theorem keywordsOk_of_short (h : ∀ f ∈ fs, f.1.length + f.2.length + 1 < 65536) :
    KeywordsOk keyNum fs ↔
      (∀ f ∈ numbered keyNum 0 fs, trimmed (unquoted f.1) ≠ []) ∧
        ∀ f ∈ (numbered keyNum 0 fs).getLast?, 0 < keyNum ∧
          (fs.map fun g => trimmed (unquoted g.1))[keyNum.toNat - 1]? =
            some (trimmed (unquoted f.1)) := by
  have hshort : ∀ f ∈ numbered keyNum 0 fs, (unquoted f.1 ++ 0 :: f.2).length < 65536 := by
    intro f hf
    have hlen := h f (mem_of_mem_numbered hf)
    have hle := length_unquoted_le f.1
    rw [List.length_append, List.length_cons]
    omega
  have hends : (∀ f ∈ numbered keyNum 0 fs, ScanEnds (unquoted f.1) f.2) ↔
      ∀ f ∈ numbered keyNum 0 fs, trimmed (unquoted f.1) ≠ [] :=
    forall₂_congr fun f hf => scanEnds_of_short (hshort f hf)
  have hlast : (∀ f ∈ numbered keyNum 0 fs, trimmed (unquoted f.1) ≠ []) →
      ∀ f ∈ (numbered keyNum 0 fs).getLast?,
        kept (unquoted f.1) f.2 = trimmed (unquoted f.1) := by
    intro hne f hf
    have hmem := List.mem_of_getLast? hf
    have hlen := hshort f hmem
    rw [List.length_append] at hlen
    exact kept_of_short (by omega) (hne f hmem)
  constructor
  · intro hok
    have hne := hends.1 hok.ends
    refine ⟨hne, fun f hf => ?_⟩
    rw [← hlast hne f hf]
    exact hok.last f hf
  · rintro ⟨hne, hok⟩
    refine ⟨hends.2 hne, fun f hf => ?_⟩
    rw [hlast hne f hf]
    exact hok f hf

end

/-- The response `:1,"ab" ,2`. -/
def atResponse : CStr.Text := ⟨ascii ":1,\"ab\" ,2", by decide⟩

/-- The header `:`. -/
def atHeader : CStr.Text := ⟨ascii ":", by decide⟩

/-- The second field is quoted, with a blank behind it. -/
theorem keywordsTotal_atResponse : KeywordsTotal atResponse.chars atHeader.chars 2
    (getAtRspKeywords (atResponse.chars ++ [0]) atHeader.chars 2 fun _ => 0) := by
  refine (keywordsTotal_iff atResponse atHeader 2 _ (by decide)).2 ?_
  exact (keywordsOk_of_short (by decide)).2 ⟨by decide, by decide⟩

/-- A field that is only a quote: the index starts at 65535. -/
theorem not_keywordsTotal : ¬ ∀ (s header : CStr.Text) (keyNum : UInt8) (destData : Nat → UInt8),
    header.chars.length ≤ s.chars.length →
      KeywordsTotal s.chars header.chars keyNum
        (getAtRspKeywords (s.chars ++ [0]) header.chars keyNum destData) := by
  intro h
  obtain ⟨k, hk, -⟩ := h ⟨ascii ":\",x", by decide⟩ atHeader 1 (fun _ => 0) (by decide)
  rw [show getAtRspKeywords _ _ _ _ = none from rfl] at hk
  cases hk

end AppXd.Net4g
