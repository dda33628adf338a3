import AppXd.Lib.Tokens
import AppXd.Net4g.WifiSwitch

/-!
# The reads of one command

Step 1 of `module_4g_communication_process` takes one command from the queue. Its loops run over the
command's buffer with counters of 8 and 16 bits: `FieldsOk` says on the fields of a command when they
end, read no missing token and stay inside the buffer.
-/

namespace AppXd.Net4g

open CStr (ascii strtok strtokEnd textAt store tokensBehind)

theorem take_length_trimmed (token : List UInt8) :
    token.take (trimmed token).length = trimmed token :=
  (List.prefix_iff_eq_take.1 (List.rdropWhile_prefix _ _)).symm

/-! ## The loop over the fields -/

/-- The length that `ucdatalen` holds. -/
def announced (datalen : List UInt8) : Nat := (CStr.atoi (textAt datalen 0) % 65536).toNat

/-- One past the last position read behind the length at `q`: the byte behind it, and the bytes that
are copied. -/
def takePbEnd (k : PbKeywords) (buf : List UInt8) (q : Nat) : Nat :=
  let offset := (textAt buf q).length % 256
  let p := q + (offset + 1) % 256
  max (p + 1) ((if buf.getD p 0 = 34 then p + 1 else p) +
    announced (store k.datalen ((buf.drop q).take offset)))

/-- The loop `while(pKeyWord != NULL)` ends within so many rounds: every position that it reads lies
in the buffer, no token is missing, the copies fit, and `atoi` gets a string. -/
def KeywordsPbEnds (keyNum : Nat) : Nat → List UInt8 → Nat → Nat → PbKeywords → Prop
  | 0, _, _, _, _ => False
  | n + 1, buf, pos, keyCount, k =>
    strtokEnd 44 buf pos ≤ buf.length ∧
      match strtok 44 buf pos with
      | (none, _, _) => True
      | (some tok, buf, pos) =>
        let keyCount := (keyCount + 1) % 256
        if keyCount = keyNum then
          strtokEnd 44 buf pos ≤ buf.length ∧
            match strtok 44 buf pos, takePbFields k buf tok pos with
            | (some q, _, _), some (k', buf, pos) =>
              takePbEnd k buf q ≤ buf.length ∧ 0 ∈ k'.datalen ∧
                KeywordsPbEnds keyNum n buf pos keyCount k'
            | _, _ => False
        else KeywordsPbEnds keyNum n buf pos keyCount k

section
variable {keyNum : Nat}

theorem keywordsPbEnds_succ {n : Nat} {buf : List UInt8} {pos j : Nat} {k : PbKeywords}
    (h : KeywordsPbEnds keyNum n buf pos j k) : KeywordsPbEnds keyNum (n + 1) buf pos j k := by
  induction n generalizing buf pos j k with
  | zero => exact h.elim
  | succ n ih =>
    rw [KeywordsPbEnds] at h ⊢
    refine ⟨h.1, ?_⟩
    have h := h.2
    split at h
    · trivial
    · simp only at h ⊢
      split at h
      · rename_i hj
        rw [if_pos hj]
        refine ⟨h.1, ?_⟩
        have h := h.2
        split at h
        · exact ⟨h.1, h.2.1, ih h.2.2⟩
        · exact h.elim
      · rename_i hj
        rw [if_neg hj]
        exact ih h

theorem keywordsPbEnds_mono {n n' : Nat} {buf : List UInt8} {pos j : Nat} {k : PbKeywords}
    (h : KeywordsPbEnds keyNum n buf pos j k) (hn : n ≤ n') :
    KeywordsPbEnds keyNum n' buf pos j k := by
  induction hn with
  | refl => exact h
  | step _ ih => exact keywordsPbEnds_succ ih

/-- A topic that is taken leaves the buffer as `strtok` does. -/
theorem takePbFields_strtok {k k' : PbKeywords} {buf buf' : List UInt8} {tok pos pos' : Nat}
    (h : takePbFields k buf tok pos = some (k', buf', pos')) :
    ∃ q, strtok 44 buf pos = (some q, buf', pos') := by
  unfold takePbFields at h
  simp only at h
  split at h
  · cases h
  split at h
  · cases h
  · rename_i q buf₁ pos₁ hstrtok
    split at h
    · cases h
      exact ⟨q, hstrtok⟩
    · cases h

/-- Without a NUL behind it the loop leaves the buffer. -/
theorem not_keywordsPbEnds_of_noNul {n j : Nat} {a s : List UInt8} {k : PbKeywords} (h0 : 0 ∉ s) :
    ¬ KeywordsPbEnds keyNum n (a ++ s) a.length j k := by
  induction n generalizing a s j k with
  | zero => exact id
  | succ n ih =>
    intro h
    obtain ⟨hend, h⟩ := h
    obtain ⟨p, a', s', hstrtok, h0', -⟩ := CStr.strtok_of_noNul h0 (by decide) hend
    rw [hstrtok] at h
    simp only at h
    split at h
    · obtain ⟨hend', h⟩ := h
      obtain ⟨p', a'', s'', hstrtok', h0'', -⟩ := CStr.strtok_of_noNul h0' (by decide) hend'
      split at h
      · rename_i hq htake
        obtain ⟨q, hq'⟩ := takePbFields_strtok htake
        rw [hstrtok'] at hq'
        cases hq'
        exact ih h0'' h.2.2
      · exact h
    · exact ih h0' h

end

/-! ## The fields of a command -/

/-- A quote in front is skipped. -/
def unquoted (s : List UInt8) : List UInt8 := if s.getD 0 0 = 34 then s.drop 1 else s

/-- The bytes of a length that are copied. Their number is a `uint8_t`. -/
def lengthText (l : List UInt8) : List UInt8 := l.take (l.length % 256)

/-- What stands behind a length with `r` behind its end. -/
def behindLength (l r : List UInt8) : List UInt8 := (l ++ 0 :: r).drop ((l.length % 256 + 1) % 256)

/-- A topic is not blank and its text fits `ucchar`. -/
def TopicField (t : List UInt8) : Prop :=
  trimmed (unquoted t) ≠ [] ∧ (trimmed (unquoted t)).length < 100

instance (t : List UInt8) : Decidable (TopicField t) := inferInstanceAs (Decidable (_ ∧ _))

/-- A length leaves room for a NUL in `ucdatalen`, what it announces fits `ucdata`, and as many bytes
stand behind it. -/
structure LengthField (datalen l r : List UInt8) : Prop where
  short : l.length % 256 < 4
  fits : announced (store datalen (lengthText l)) < 200
  present : behindLength l r ≠ []
  inside : announced (store datalen (lengthText l)) ≤ (unquoted (behindLength l r)).length

/-- The fields of a command that has `m` fields before its next topic: each topic is followed by a
length, and the counter comes round behind 256 fields. -/
def FieldsOk : Nat → List UInt8 → List (List UInt8 × List UInt8) → Prop
  | _, _, [] => True
  | m + 1, datalen, _ :: fs => FieldsOk m datalen fs
  | 0, _, [_] => False
  | 0, datalen, (t, _) :: (l, r) :: fs =>
    TopicField t ∧ LengthField datalen l r ∧ FieldsOk 255 (store datalen (lengthText l)) fs

instance (datalen l r : List UInt8) : Decidable (LengthField datalen l r) :=
  decidable_of_iff (l.length % 256 < 4 ∧ announced (store datalen (lengthText l)) < 200 ∧
      behindLength l r ≠ [] ∧
      announced (store datalen (lengthText l)) ≤ (unquoted (behindLength l r)).length)
    ⟨fun h => ⟨h.1, h.2.1, h.2.2.1, h.2.2.2⟩, fun h => ⟨h.short, h.fits, h.present, h.inside⟩⟩

instance FieldsOk.decidable : ∀ m datalen fs, Decidable (FieldsOk m datalen fs)
  | _, _, [] => .isTrue trivial
  | m + 1, datalen, _ :: fs => FieldsOk.decidable m datalen fs
  | 0, _, [_] => .isFalse id
  | 0, datalen, (t, _) :: (l, r) :: fs =>
    have := FieldsOk.decidable 255 (store datalen (lengthText l)) fs
    inferInstanceAs (Decidable (TopicField t ∧ LengthField datalen l r ∧
      FieldsOk 255 (store datalen (lengthText l)) fs))

/-- The buffers behind a topic, its length and the bytes announced. -/
def PbKeywords.taken (k : PbKeywords) (t l r : List UInt8) : PbKeywords where
  ret := true
  destData1 := store k.destData1 (trimmed (unquoted t) ++ [0])
  datalen := store k.datalen (lengthText l)
  destData2 := store k.destData2 ((unquoted (behindLength l r)).take
    (announced (store k.datalen (lengthText l))) ++ [0])

/-- The buffers behind all fields. -/
def fieldsTaken : Nat → PbKeywords → List (List UInt8 × List UInt8) → PbKeywords
  | _, k, [] => k
  | m + 1, k, _ :: fs => fieldsTaken m k fs
  | 0, k, [_] => k
  | 0, k, (t, _) :: (l, r) :: fs => fieldsTaken 255 (k.taken t l r) fs

section
variable {k : PbKeywords} {buf buf' t l r r' : List UInt8} {tok pos pos' q : Nat}

theorem getD_of_drop {buf s : List UInt8} {q : Nat} (h : buf.drop q = s) (m : Nat) :
    buf.getD (q + m) 0 = s.getD m 0 := by
  rw [← h, List.getD_eq_getElem?_getD, List.getD_eq_getElem?_getD, List.getElem?_drop]

theorem drop_of_drop {buf s : List UInt8} {q : Nat} (h : buf.drop q = s) (m : Nat) :
    buf.drop (q + m) = s.drop m := by
  rw [← h, List.drop_drop]

theorem textAt_of_drop (h : buf.drop q = t ++ 0 :: r) (h0 : 0 ∉ t) : textAt buf q = t := by
  unfold textAt
  rw [h]
  exact CStr.takeWhile_append_stop (fun b hb => decide_eq_true fun hb0 => h0 (hb0 ▸ hb)) (by simp)

/-- The text behind an opening quote. -/
theorem textAt_unquoted (h : buf.drop tok = t ++ 0 :: r) (hne : t ≠ []) (h0 : 0 ∉ t) :
    textAt buf (if buf.getD tok 0 = 34 then tok + 1 else tok) = unquoted t := by
  cases t with
  | nil => exact absurd rfl hne
  | cons b t =>
    have hb : buf.getD tok 0 = b := getD_of_drop h 0
    unfold unquoted
    rw [hb]
    show _ = if b = 34 then t else b :: t
    split
    · have hdrop : buf.drop (tok + 1) = t ++ 0 :: r := drop_of_drop h 1
      exact textAt_of_drop hdrop fun h => h0 (List.mem_cons_of_mem b h)
    · exact textAt_of_drop h h0

/-- The bytes behind a length. -/
theorem drop_unquoted (h : buf.drop q = t) (m : Nat) :
    buf.drop ((if buf.getD (q + m) 0 = 34 then q + 1 else q) + m) = unquoted (t.drop m) := by
  have hquote : (t.drop m).getD 0 0 = t.getD m 0 := (getD_of_drop rfl 0).symm
  unfold unquoted
  rw [getD_of_drop h, hquote]
  split
  · rw [Nat.add_right_comm, Nat.add_assoc, drop_of_drop h, List.drop_drop]
  · exact drop_of_drop h m

/-- What is taken at a topic with a length behind it. -/
theorem takePbFields_fields (ht : buf.drop tok = t ++ 0 :: r) (hne : t ≠ []) (h0 : 0 ∉ t)
    (hstrtok : strtok 44 buf pos = (some q, buf', pos')) (hl : buf'.drop q = l ++ 0 :: r')
    (h0' : 0 ∉ l) :
    takePbFields k buf tok pos =
      if TopicField t ∧ l.length % 256 ≤ 4 ∧ announced (store k.datalen (lengthText l)) < 200 then
        some (k.taken t l r', buf', pos')
      else none := by
  have hlen : textAt buf' q = l := textAt_of_drop hl h0'
  have htake : (l ++ 0 :: r').take (l.length % 256) = lengthText l :=
    List.take_append_of_le_length (Nat.mod_le _ _)
  unfold takePbFields
  simp only [textAt_unquoted ht hne h0, trimmedLen_eq, hstrtok, hlen, hl, htake, drop_unquoted hl]
  by_cases hblank : trimmed (unquoted t) = []
  · rw [if_pos hblank, if_neg fun h => h.1.1 hblank]
  rw [if_neg hblank]
  simp only [take_length_trimmed]
  exact if_congr ⟨fun h => ⟨⟨hblank, h.1⟩, h.2⟩, fun h => ⟨h.1.2, h.2⟩⟩ rfl rfl

/-- A missing length is read. -/
theorem takePbFields_missing (hstrtok : (strtok 44 buf pos).1 = none) :
    takePbFields k buf tok pos = none := by
  obtain ⟨p, hp⟩ : ∃ p, strtok 44 buf pos = (none, p) := ⟨_, Prod.ext hstrtok rfl⟩
  unfold takePbFields
  simp only [hp]
  split <;> rfl

/-- The reads behind a length stay in the buffer exactly when what they read stands there. -/
theorem takePbEnd_le_iff (hl : buf.drop q = l ++ 0 :: r) (h0 : 0 ∉ l) (hshort : l.length % 256 < 4) :
    takePbEnd k buf q ≤ buf.length ↔ behindLength l r ≠ [] ∧
      announced (store k.datalen (lengthText l)) ≤ (unquoted (behindLength l r)).length := by
  have hlen : textAt buf q = l := textAt_of_drop hl h0
  have htake : (l ++ 0 :: r).take (l.length % 256) = lengthText l :=
    List.take_append_of_le_length (Nat.mod_le _ _)
  have hoffset : (l.length % 256 + 1) % 256 = l.length % 256 + 1 := Nat.mod_eq_of_lt (by omega)
  have hbuf : buf.length = q + (l ++ 0 :: r).length := by
    have hpos : 0 < (l ++ 0 :: r).length := by simp
    have hsub := congrArg List.length hl
    rw [List.length_drop] at hsub
    omega
  have hbehind : (behindLength l r).length = (l ++ 0 :: r).length - (l.length % 256 + 1) := by
    rw [behindLength, hoffset, List.length_drop]
  have hquote : (behindLength l r).getD 0 0 = buf.getD (q + (l.length % 256 + 1)) 0 := by
    rw [behindLength, hoffset, getD_of_drop hl]
    exact (getD_of_drop rfl 0).symm
  unfold takePbEnd unquoted
  simp only [hlen, hl, htake, hoffset, hquote]
  generalize announced (store k.datalen (lengthText l)) = n
  rw [ne_eq, ← List.length_eq_zero_iff, hbuf]
  split
  · rw [List.length_drop, hbehind]
    omega
  · rw [hbehind]
    omega

end

/-! ## The loop on the fields -/

/-- `ucdatalen` has four bytes, and its last one is still a NUL. -/
def LengthRoom (datalen : List UInt8) : Prop := datalen.length = 4 ∧ datalen[3]? = some 0

section
variable {datalen l : List UInt8}

theorem length_lengthText (l : List UInt8) : (lengthText l).length = l.length % 256 := by
  unfold lengthText
  rw [List.length_take, Nat.min_eq_left (Nat.mod_le _ _)]

theorem LengthRoom.store (h : LengthRoom datalen) (hshort : l.length % 256 < 4) :
    LengthRoom (store datalen (lengthText l)) := by
  have hlen := length_lengthText l
  refine ⟨?_, ?_⟩
  · rw [CStr.length_store (by rw [hlen, h.1]; omega), h.1]
  · unfold CStr.store
    rw [List.getElem?_append_right (by omega), List.getElem?_drop,
      Nat.add_sub_cancel' (by omega : (lengthText l).length ≤ 3)]
    exact h.2

/-- `atoi` gets a string exactly when fewer than four bytes are copied. -/
theorem zero_mem_store_iff (h : LengthRoom datalen) (h0 : 0 ∉ l) (hle : l.length % 256 ≤ 4) :
    0 ∈ store datalen (lengthText l) ↔ l.length % 256 < 4 := by
  constructor
  · intro hmem
    by_contra hlong
    have hfull : datalen.drop (lengthText l).length = [] := by
      rw [length_lengthText]
      exact List.drop_eq_nil_of_le (by rw [h.1]; omega)
    unfold CStr.store at hmem
    rw [hfull, List.append_nil] at hmem
    exact h0 (List.mem_of_mem_take hmem)
  · intro hshort
    exact List.mem_of_getElem? (h.store hshort).2

/-- The reads behind a length stay in the buffer and `atoi` gets a string exactly when the length is
in order. -/
theorem lengthField_iff {k : PbKeywords} {buf r : List UInt8} {q : Nat} (h : LengthRoom k.datalen)
    (hl : buf.drop q = l ++ 0 :: r) (h0 : 0 ∉ l) (hle : l.length % 256 ≤ 4)
    (hfits : announced (store k.datalen (lengthText l)) < 200) :
    takePbEnd k buf q ≤ buf.length ∧ 0 ∈ store k.datalen (lengthText l) ↔
      LengthField k.datalen l r := by
  have hzero := zero_mem_store_iff h h0 hle
  constructor
  · rintro ⟨hend, hnul⟩
    have hshort := hzero.1 hnul
    obtain ⟨hpresent, hinside⟩ := (takePbEnd_le_iff hl h0 hshort).1 hend
    exact ⟨hshort, hfits, hpresent, hinside⟩
  · intro hfield
    exact ⟨(takePbEnd_le_iff hl h0 hfield.short).2 ⟨hfield.present, hfield.inside⟩,
      hzero.2 hfield.short⟩

end

section
variable {keyNum : Nat} {w : List UInt8}

/-- The loop ends as it should exactly on the fields that are in order, and has then taken them. -/
theorem keywordsPb_fields {n m j : Nat} {a s : List UInt8} {k : PbKeywords} (h0 : 0 ∉ s)
    (hm : m < 256) (hkey : (j + m + 1) % 256 = keyNum) (hroom : LengthRoom k.datalen)
    (hn : (tokensBehind 44 w s).length < n) :
    (KeywordsPbEnds keyNum n (a ++ (s ++ 0 :: w)) a.length j k ↔
        FieldsOk m k.datalen (tokensBehind 44 w s)) ∧
      (FieldsOk m k.datalen (tokensBehind 44 w s) →
        ∃ buf, keywordsPbLoop keyNum n (a ++ (s ++ 0 :: w)) a.length j k =
          some (fieldsTaken m k (tokensBehind 44 w s), buf)) := by
  induction n generalizing m j a s k with
  | zero => exact absurd hn (Nat.not_lt_zero _)
  | succ n ih =>
    have hend := CStr.strtokEnd_le (d := 44) (a := a) (s := s) (w := w) (by decide)
    have hcall := CStr.strtok_tokensBehind (d := 44) (a := a) (w := w) (by decide) h0
    rw [KeywordsPbEnds, keywordsPbLoop, and_iff_right hend]
    cases hfs : tokensBehind 44 w s with
    | nil =>
      rw [hfs] at hcall
      obtain ⟨q, hq⟩ : ∃ q, strtok 44 (a ++ (s ++ 0 :: w)) a.length = (none, q) :=
        ⟨_, Prod.ext hcall rfl⟩
      rw [hq]
      exact ⟨Iff.rfl, fun _ => ⟨q.1, rfl⟩⟩
    | cons f fs =>
      obtain ⟨t, r⟩ := f
      rw [hfs] at hcall hn
      obtain ⟨tok, a', s', hstrtok, ht, hne, ht0, h0', rfl, hlen⟩ := hcall
      rw [hstrtok]
      simp only
      rw [List.length_cons] at hn
      cases m with
      | succ m =>
        have hj : ¬ (j + 1) % 256 = keyNum := by omega
        rw [if_neg hj, if_neg hj]
        exact ih h0' (by omega) (by omega) hroom (by omega)
      | zero =>
        have hj : (j + 1) % 256 = keyNum := by omega
        rw [if_pos hj, if_pos hj,
          and_iff_right (CStr.strtokEnd_le (d := 44) (a := a') (s := s') (w := w) (by decide))]
        have hcall' := CStr.strtok_tokensBehind (d := 44) (a := a') (w := w) (by decide) h0'
        cases hfs' : tokensBehind 44 w s' with
        | nil =>
          rw [hfs'] at hcall'
          rw [takePbFields_missing hcall']
          refine ⟨⟨fun h => ?_, fun h => h.elim⟩, fun h => h.elim⟩
          split at h
          · rename_i heq
            cases heq
          · exact h
        | cons g gs =>
          obtain ⟨l, r'⟩ := g
          rw [hfs'] at hcall' hn
          obtain ⟨q, a'', s'', hstrtok', hl, -, hl0, h0'', rfl, hlen'⟩ := hcall'
          have hfields : FieldsOk 0 k.datalen ((t, r) :: (l, r') :: tokensBehind 44 w s'') ↔
              TopicField t ∧ LengthField k.datalen l r' ∧
                FieldsOk 255 (store k.datalen (lengthText l)) (tokensBehind 44 w s'') := Iff.rfl
          rw [takePbFields_fields ht hne ht0 hstrtok' hl hl0, hstrtok', hfields]
          by_cases hcond : TopicField t ∧ l.length % 256 ≤ 4 ∧
              announced (store k.datalen (lengthText l)) < 200
          · rw [if_pos hcond]
            simp only
            have hrest : LengthField k.datalen l r' → _ := fun hfield =>
              ih (m := 255) (j := (j + 1) % 256) (a := a'') (k := k.taken t l r') h0'' (by decide)
                (by omega) (hroom.store hfield.short) (by rw [List.length_cons] at hn; omega)
            refine ⟨?_, fun h => (hrest h.2.1).2 h.2.2⟩
            rw [← and_assoc, show (k.taken t l r').datalen = store k.datalen (lengthText l) from rfl,
              lengthField_iff hroom hl hl0 hcond.2.1 hcond.2.2, and_iff_right hcond.1]
            exact and_congr_right fun hfield => (hrest hfield).1
          · rw [if_neg hcond]
            have hnot : ¬ (TopicField t ∧ LengthField k.datalen l r' ∧
                FieldsOk 255 (store k.datalen (lengthText l)) (tokensBehind 44 w s'')) :=
              fun h => hcond ⟨h.1, h.2.1.short.le, h.2.1.fits⟩
            exact ⟨⟨fun h => h.elim, fun h => absurd h hnot⟩, fun h => absurd h hnot⟩

end

/-- The fields of a command whose string begins at `pos`, each with what stands behind it. -/
def commandFields (buf : List UInt8) (pos : Nat) : List (List UInt8 × List UInt8) :=
  tokensBehind 44 (buf.drop (pos + (textAt buf pos).length + 1)) (textAt buf pos)

section
variable {keyNum : Nat} {data header : List UInt8}

/-- A buffer with a NUL is what stands in front of the string, the string and what is behind it. -/
theorem split_text {buf : List UInt8} {pos : Nat} (h : 0 ∈ buf.drop pos) :
    buf = buf.take pos ++ (textAt buf pos ++ 0 :: buf.drop (pos + (textAt buf pos).length + 1)) := by
  obtain ⟨s, w, hsplit, h0⟩ := List.eq_append_cons_of_mem h
  have htext : textAt buf pos = s := textAt_of_drop hsplit h0
  rw [htext]
  have hbehind : buf.drop (pos + s.length + 1) = w := by
    rw [Nat.add_assoc, drop_of_drop hsplit, List.drop_append]
    simp
  rw [hbehind, ← hsplit, List.take_append_drop]

theorem getAtRspKeywordsPb_fields (hnul : 0 ∈ data.drop header.length) (hkey : 0 < keyNum)
    (hkey' : keyNum < 256) :
    ((∃ n, KeywordsPbEnds keyNum n data header.length 0 .clear) ↔
        FieldsOk (keyNum - 1) PbKeywords.clear.datalen (commandFields data header.length)) ∧
      (FieldsOk (keyNum - 1) PbKeywords.clear.datalen (commandFields data header.length) →
        ∃ buf, getAtRspKeywordsPb data header keyNum =
          some (fieldsTaken (keyNum - 1) .clear (commandFields data header.length), buf)) := by
  have hpos : (data.take header.length).length = header.length := by
    rw [List.length_take, Nat.min_eq_left]
    by_contra hshort
    rw [List.drop_eq_nil_of_le (by omega)] at hnul
    exact absurd hnul List.not_mem_nil
  have h0 := CStr.zero_notMem_textAt data header.length
  have hsplit := split_text hnul
  have hroom : LengthRoom PbKeywords.clear.datalen := ⟨rfl, rfl⟩
  have hiff : ∀ n, (commandFields data header.length).length < n →
      (KeywordsPbEnds keyNum n data header.length 0 .clear ↔
          FieldsOk (keyNum - 1) PbKeywords.clear.datalen (commandFields data header.length)) ∧
        (FieldsOk (keyNum - 1) PbKeywords.clear.datalen (commandFields data header.length) →
          ∃ buf, keywordsPbLoop keyNum n data header.length 0 .clear =
            some (fieldsTaken (keyNum - 1) .clear (commandFields data header.length), buf)) := by
    intro n hn
    have hnum : (0 + (keyNum - 1) + 1) % 256 = keyNum := by
      rw [Nat.zero_add, Nat.sub_add_cancel hkey, Nat.mod_eq_of_lt hkey']
    have h := keywordsPb_fields (a := data.take header.length) h0 (by omega) hnum hroom hn
    rw [← hsplit, hpos] at h
    exact h
  refine ⟨⟨?_, fun h => ⟨_, (hiff _ (Nat.lt_succ_self _)).1.2 h⟩⟩, ?_⟩
  · rintro ⟨n, h⟩
    exact (hiff _ (Nat.lt_of_lt_of_le (Nat.lt_succ_self _) (Nat.le_max_right n _))).1.1
      (keywordsPbEnds_mono h (Nat.le_max_left _ _))
  · refine (hiff _ ?_).2
    have hfields := CStr.length_tokensBehind_le (d := 44)
      (w := data.drop (header.length + (textAt data header.length).length + 1))
      (s := textAt data header.length)
    have htext : (textAt data header.length).length ≤ data.length := by
      have hlen := congrArg List.length hsplit
      rw [List.length_append, List.length_append] at hlen
      omega
    exact Nat.lt_succ_of_le (hfields.trans htext)

theorem nul_of_keywordsPbEnds {n : Nat} {k : PbKeywords}
    (h : KeywordsPbEnds keyNum n data header.length 0 k) : 0 ∈ data.drop header.length := by
  by_contra h0
  rcases Nat.lt_or_ge data.length header.length with hshort | hle
  · cases n with
    | zero => exact h
    | succ n =>
      have hend := h.1
      unfold strtokEnd at hend
      simp only at hend
      omega
  · have hno : ¬ KeywordsPbEnds keyNum n (data.take header.length ++ data.drop header.length)
        (data.take header.length).length 0 k := not_keywordsPbEnds_of_noNul h0
    apply hno
    rw [List.take_append_drop, List.length_take, Nat.min_eq_left hle]
    exact h

end

/-! ## The message -/

section
variable {b : Board} {netWork : NetworkWorkStep} {d : Device} {dec : Decoder b}
  {topic pbdata : List UInt8} {op : Operation}

/-- Only a list of client ids that is too short is left. -/
theorem rspOperation_isSome_iff : (∃ r, rspOperation netWork d dec op pbdata = some r) ↔
    (op = .config → ∀ m, dec.config pbdata = some m → Accepts d m.header.opCode → m.command = 26 →
      m.hasDeviceConfig = true → m.deviceConfig.TenIds) := by
  unfold rspOperation
  cases op with
  | config =>
    simp only [Decoder.decode]
    cases hdec : dec.config pbdata with
    | none => exact ⟨fun _ _ _ h => absurd h (Option.some_ne_none _).symm, fun _ => ⟨_, rfl⟩⟩
    | some m =>
      simp only [Option.map_some, rspHandle]
      by_cases ha : Accepts d m.header.opCode
      · rw [configCommand_isSome_iff ha]
        constructor
        · rintro h - m' hm'
          cases hm'
          exact fun _ => h
        · exact fun h => h trivial m rfl ha
      · refine ⟨fun _ _ m' hm' ha' => ?_, fun _ => ?_⟩
        · cases hm'
          exact absurd ha' ha
        · unfold configCommand
          rw [acceptOpCode_of_not_accepts ha]
          exact ⟨_, rfl⟩
  | _ =>
    refine ⟨fun _ => by rintro ⟨⟩, fun _ => ?_⟩
    split
    · exact ⟨_, rfl⟩
    · rename_i msg hmsg
      simp only [Decoder.decode, Option.map_eq_some_iff] at hmsg
      obtain ⟨m, -, rfl⟩ := hmsg
      exact ⟨_, rfl⟩

theorem rspAnalyze_isSome_iff (h0 : 0 ∉ topic) (hshort : pbdata.length < 200) :
    (∃ r, rspAnalyze netWork d dec topic pbdata = some r) ↔ ¬ levels topic <+: ownLevels b d ∧
      (OwnTopic b d .config topic → ∀ m, dec.config pbdata = some m → Accepts d m.header.opCode →
        m.command = 26 → m.hasDeviceConfig = true → m.deviceConfig.TenIds) := by
  have hsome : ∀ op, rspLevels b d topic = some (some op) ↔ OwnTopic b d op topic :=
    fun op => rspLevels_eq_some_iff h0
  rw [rspAnalyze_eq, if_neg (by omega), if_neg (by omega), ← rspLevels_eq_none_iff h0, ← hsome]
  cases hlevels : rspLevels b d topic with
  | none =>
    constructor
    · rintro ⟨r, hr⟩
      cases hr
    · rintro ⟨h, -⟩
      exact absurd rfl h
  | some o =>
    cases o with
    | none => exact ⟨fun _ => ⟨nofun, nofun⟩, fun _ => ⟨_, rfl⟩⟩
    | some op =>
      have hmap : (∃ r, (rspOperation netWork d dec op pbdata).map some = some r) ↔
          ∃ r, rspOperation netWork d dec op pbdata = some r := by
        constructor
        · rintro ⟨r, hr⟩
          obtain ⟨r', hr', -⟩ := Option.map_eq_some_iff.1 hr
          exact ⟨r', hr'⟩
        · rintro ⟨r, hr⟩
          exact ⟨some r, by rw [hr]; rfl⟩
      simp only [hmap, rspOperation_isSome_iff, Option.some.injEq]
      exact ⟨fun h => ⟨nofun, h⟩, fun h => h.2⟩

end

namespace Comm

/-- A message with its topic is handled to the end: there are bytes to decrypt, no level of the topic
is missing, and a list of client ids can be read. -/
structure Analyzable (E : CommEnv) (s : Comm) (i : DecryptInput) : Prop where
  nonempty : i.len ≠ 0
  levels : ∀ pbdata, s.clearText E i = some pbdata →
    ¬ levels i.topic <+: ownLevels E.board s.device
  ids : ∀ pbdata m, s.clearText E i = some pbdata → OwnTopic E.board s.device .config i.topic →
    E.decoder.config pbdata = some m → Accepts s.device m.header.opCode → m.command = 26 →
    m.hasDeviceConfig = true → m.deviceConfig.TenIds

variable {E : CommEnv} {s : Comm} {x : CallInput E.config} {i : DecryptInput}

theorem length_clearText {pbdata : List UInt8} (h : s.clearText E i = some pbdata) :
    pbdata.length ≤ i.len := by
  unfold clearText at h
  simp only at h
  split at h
  · cases h
    refine (List.length_take_le _ _).trans ?_
    split
    · exact Nat.sub_le _ _
    · exact Nat.le_refl _
  · cases h

theorem dispatch_isSome_iff {topic pbdata : List UInt8} :
    (∃ r, s.dispatch E x topic pbdata = some r) ↔
      ∃ r, rspAnalyze s.netWork s.device E.decoder topic pbdata = some r := by
  unfold dispatch
  split
  · rename_i h
    rw [h]
    constructor
    · rintro ⟨r, hr⟩
      cases hr
    · rintro ⟨r, hr⟩
      cases hr
  · rename_i h
    rw [h]
    exact ⟨fun _ => ⟨_, rfl⟩, fun _ => ⟨_, rfl⟩⟩
  · rename_i h
    rw [h]
    exact ⟨fun _ => ⟨_, rfl⟩, fun _ => ⟨_, rfl⟩⟩

theorem analyze_isSome_iff (h0 : 0 ∉ i.topic) (hlen : i.len < 200) :
    (∃ r, s.analyze E x i = some r) ↔ s.Analyzable E i := by
  by_cases hempty : i.len = 0
  · unfold analyze
    rw [if_pos hempty]
    refine ⟨?_, fun h => absurd hempty h.nonempty⟩
    rintro ⟨r, hr⟩
    cases hr
  cases hclear : s.clearText E i with
  | none =>
    have hsome : ∃ r, s.analyze E x i = some r := by
      unfold clearText at hclear
      unfold analyze
      simp only at hclear ⊢
      rw [if_neg hempty]
      split at hclear
      · cases hclear
      · rename_i hle
        rw [if_neg hle]
        exact ⟨_, rfl⟩
    refine ⟨fun _ => ⟨hempty, ?_, ?_⟩, fun _ => hsome⟩
    · intro pbdata h
      rw [hclear] at h
      cases h
    · intro pbdata m h
      rw [hclear] at h
      cases h
  | some pbdata =>
    have hshort := (length_clearText hclear).trans_lt hlen
    rw [analyze_of_clearText hempty hclear, dispatch_isSome_iff, rspAnalyze_isSome_iff h0 hshort]
    constructor
    · rintro ⟨hlevels, hids⟩
      refine ⟨hempty, fun _ _ => hlevels, fun pbdata' m h hown => ?_⟩
      rw [hclear] at h
      cases h
      exact hids hown m
    · exact fun h => ⟨h.levels pbdata hclear, fun hown m => h.ids pbdata m hclear hown⟩

end Comm

/-! ## The step -/

/-- What is announced behind the last topic is a length that fits. -/
theorem announced_fieldsTaken {m : Nat} {k : PbKeywords} {fs : List (List UInt8 × List UInt8)}
    (hfields : FieldsOk m k.datalen fs) (hk : k.ret = true → announced k.datalen < 200)
    (hret : (fieldsTaken m k fs).ret = true) : announced (fieldsTaken m k fs).datalen < 200 := by
  induction m, k, fs using fieldsTaken.induct with
  | case1 m k => exact hk hret
  | case2 m k f fs ih => exact ih hfields hk hret
  | case3 k f => exact hfields.elim
  | case4 k t r l r' fs ih => exact ih hfields.2.2 (fun _ => hfields.2.1.fits) hret

namespace Comm

variable {E : CommEnv} {s : Comm} {x : CallInput E.config}

/-- The fields of the command at the head of the queue. -/
def headCmdFields (E : CommEnv) (s : Comm) : List (List UInt8 × List UInt8) :=
  commandFields s.headCmd.qData (netMqttCtrlCmdHead E.config.moduleType).length

/-- What they leave in the caller's buffers. -/
def headCmdTaken (E : CommEnv) (s : Comm) : PbKeywords :=
  fieldsTaken (topicKeyNum E.config.moduleType - 1) .clear (s.headCmdFields E)

/-- Step 1 ends: the loop over the fields reads only in the command's buffer, and the call returns. -/
structure StepEnds (E : CommEnv) (s : Comm) (x : CallInput E.config) : Prop where
  loop : ∃ n, KeywordsPbEnds (topicKeyNum E.config.moduleType) n s.headCmd.qData
    (netMqttCtrlCmdHead E.config.moduleType).length 0 .clear
  returns : ∃ r, s.recvStep E x = some r

/-- The command is a string behind the head, its fields are in order, and a message with its topic
can be handled. -/
structure CommandOk (E : CommEnv) (s : Comm) : Prop where
  terminated : 0 ∈ s.headCmd.qData.drop (netMqttCtrlCmdHead E.config.moduleType).length
  fields : FieldsOk (topicKeyNum E.config.moduleType - 1) PbKeywords.clear.datalen (s.headCmdFields E)
  message : (s.headCmdTaken E).ret = true → s.Analyzable E (s.headCmdTaken E).decryptInput

theorem topicKeyNum_pos (m : ModuleType) : 0 < topicKeyNum m := by
  unfold topicKeyNum
  split <;> decide

/-- Behind the loop a call returns unless it is lost in the message. -/
theorem handleCmd_isSome_iff {k : PbKeywords} {buf : List UInt8}
    (h : getAtRspKeywordsPb s.headCmd.qData (netMqttCtrlCmdHead E.config.moduleType)
      (topicKeyNum E.config.moduleType) = some (k, buf)) :
    (∃ r, s.handleCmd E x = some r) ↔
      (k.ret = true → ∃ r, s.analyze E x k.decryptInput = some r) := by
  unfold handleCmd
  simp only [h]
  cases hk : k.ret with
  | false =>
    refine ⟨fun _ => nofun, fun _ => ?_⟩
    rw [if_neg Bool.false_ne_true]
    split <;> exact ⟨_, rfl⟩
  | true =>
    simp only [if_true, forall_const]
    cases hana : s.analyze E x k.decryptInput with
    | none =>
      constructor
      · rintro ⟨r, hr⟩
        cases hr
      · rintro ⟨r, hr⟩
        cases hr
    | some r => exact ⟨fun _ => ⟨_, rfl⟩, fun _ => ⟨_, rfl⟩⟩

end Comm

/-- Step 1 ends on the command at the head of the queue exactly when the command is in order. -/
theorem stepEnds_iff_commandOk {E : CommEnv} {s : Comm} {x : CallInput E.config}
    (hqueue : s.recv.qHead ≠ s.recv.qTail) : s.StepEnds E x ↔ s.CommandOk E := by
  have hpos := Comm.topicKeyNum_pos E.config.moduleType
  have hlt : topicKeyNum E.config.moduleType < 256 :=
    (Notification.topicKeyNum_lt E.config.moduleType).trans (by decide)
  have hstep : s.recvStep E x = s.handleCmd E x := if_pos hqueue
  have hmessage : 0 ∈ s.headCmd.qData.drop (netMqttCtrlCmdHead E.config.moduleType).length →
      FieldsOk (topicKeyNum E.config.moduleType - 1) PbKeywords.clear.datalen (s.headCmdFields E) →
      ((∃ r, s.recvStep E x = some r) ↔
        ((s.headCmdTaken E).ret = true → s.Analyzable E (s.headCmdTaken E).decryptInput)) := by
    intro hnul hfields
    obtain ⟨buf, hget⟩ := (getAtRspKeywordsPb_fields hnul hpos hlt).2 hfields
    rw [hstep, Comm.handleCmd_isSome_iff hget]
    refine forall_congr' fun hret => Comm.analyze_isSome_iff (CStr.zero_notMem_textAt _ _) ?_
    exact announced_fieldsTaken hfields nofun hret
  constructor
  · rintro ⟨hloop, hreturns⟩
    have hnul := nul_of_keywordsPbEnds hloop.choose_spec
    have hfields := (getAtRspKeywordsPb_fields hnul hpos hlt).1.1 hloop
    exact ⟨hnul, hfields, (hmessage hnul hfields).1 hreturns⟩
  · rintro ⟨hnul, hfields, hmsg⟩
    exact ⟨(getAtRspKeywordsPb_fields hnul hpos hlt).1.2 hfields, (hmessage hnul hfields).2 hmsg⟩

/-! ## A small program -/

/-- The device `k` with this command in its queue. -/
def cmdQueued (cmd : List UInt8) : Comm :=
  { configQueued with recv := { Recv.reset with
      cmdQ := fun _ => cmdEntry (configProgram false).config cmd
      qTail := 1 } }

/-- Step 1 ends on a command that enables the WiFi. -/
theorem stepEnds_configNotification :
    (cmdQueued configNotification).StepEnds (configProgram false) (.quiet _) := by
  have hinput : ((cmdQueued configNotification).headCmdTaken (configProgram false)).decryptInput =
      ⟨ascii "device/pk/k/command/config", 1, [1]⟩ := by
    decide +kernel
  refine (stepEnds_iff_commandOk (by decide)).2 ⟨by decide +kernel, by decide +kernel, fun _ => ?_⟩
  rw [hinput]
  refine ⟨Nat.one_ne_zero, fun _ _ => by decide +kernel, fun _ m _ _ hm _ _ _ h => ?_⟩
  cases hm
  exact absurd h (by decide)

/-- A topic of which only the quotes are there is trimmed to its end and on. -/
theorem not_stepEnds_blank : ¬ ∀ (E : CommEnv) (s : Comm) (x : CallInput E.config),
    s.recv.qHead ≠ s.recv.qTail → s.StepEnds E x := by
  intro h
  obtain ⟨hloop, -⟩ := h (configProgram false) (cmdQueued (ascii "+QMTRECV:0,0,\"\",1,\"a\""))
    (.quiet _) (by decide)
  have hfields := (getAtRspKeywordsPb_fields (by decide +kernel) (by decide) (by decide)).1.1 hloop
  revert hfields
  decide +kernel

end AppXd.Net4g
