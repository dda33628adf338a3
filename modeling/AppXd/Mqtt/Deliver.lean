import Mathlib.Data.List.Nodup
import AppXd.Lib.TopicFilter
import AppXd.Mqtt.Deserialize

/-!
# Delivering a publication

The client looks for the handlers of a topic. Their filters may have wildcards, and these take less
than the standard says: no empty level, and `#` not the level above it.
-/

namespace AppXd.Mqtt

/-- The characters `/`, `+` and `#`. -/
def levelSeparator : UInt8 := 0x2F

def plusSign : UInt8 := 0x2B

def hashSign : UInt8 := 0x23

/-- The loop on what is left of the filter and of the name. -/
def isTopicMatched : List UInt8 → List UInt8 → Bool
  | [], curn => curn.isEmpty
  | _ :: _, [] => false
  | f :: curf, n :: curn =>
    if n = levelSeparator ∧ f ≠ levelSeparator then false
    else if f ≠ plusSign ∧ f ≠ hashSign ∧ f ≠ n then false
    else if f = plusSign then isTopicMatched curf (curn.dropWhile (· ≠ levelSeparator))
    else if f = hashSign then isTopicMatched curf []
    else isTopicMatched curf curn

/-- `MQTTPacket_equals` on a name with a length. -/
def mqttPacketEquals (a b : List UInt8) : Bool :=
  a.length = b.length && a.take a.length = b.take a.length

/-- `struct sub_msg_handlers`. -/
structure SubMsgHandler where
  topicFilter : Option (List UInt8)
  /-- Whether the callback is set. -/
  callback : Bool

/-- A handler, by its index, or the one for all other messages. -/
inductive Receiver
  | handler (i : Nat)
  | defaultMessageHandler
  deriving DecidableEq

def SubMsgHandler.wants (sub : SubMsgHandler) (topicName : List UInt8) : Bool :=
  match sub.topicFilter with
  | none => false
  | some f => mqttPacketEquals topicName f || isTopicMatched f topicName

/-- The loop over the handlers from the index `i` on: who gets the message, and whether anyone has
got it. -/
def deliverLoop (topicName : List UInt8) : Nat → List SubMsgHandler → List Receiver × Bool
  | _, [] => ([], false)
  | i, sub :: subs =>
    let r := deliverLoop topicName (i + 1) subs
    if sub.wants topicName then if sub.callback then (.handler i :: r.1, true) else r else r

/-- Who gets the message, in this order, and what is returned. -/
def deliverMessage (messageHandlers : List SubMsgHandler) (defaultMessageHandler : Bool)
    (topicName : List UInt8) : List Receiver × Int :=
  let r := deliverLoop topicName 0 messageHandlers
  if r.2 then (r.1, 0)
  else if defaultMessageHandler then (r.1 ++ [.defaultMessageHandler], 0)
  else (r.1, -1)

/-! ## Matching -/

/-- The wildcards of a filter stand for levels of their own, `#` for the last. -/
def FilterWellFormed (topicFilter : List UInt8) : Prop :=
  TopicFilter.WellFormed plusSign hashSign (topicFilter.splitOn levelSeparator)

/-- What is behind a level. -/
def AtLevelEnd (l : List UInt8) : Prop := l = [] ∨ ∃ r, l = levelSeparator :: r

section
variable {f n l r : List UInt8}

theorem isTopicMatched_cons_of_ne {a c : UInt8} (hsep : c ≠ levelSeparator) (hplus : a ≠ plusSign)
    (hhash : a ≠ hashSign) :
    isTopicMatched (a :: f) (c :: n) = (decide (a = c) && isTopicMatched f n) := by
  rw [isTopicMatched, if_neg fun h => hsep h.1]
  by_cases hac : a = c
  · rw [if_neg fun h => h.2.2 hac, if_neg hplus, if_neg hhash, decide_eq_true hac, Bool.true_and]
  · rw [if_pos ⟨hplus, hhash, hac⟩, decide_eq_false hac, Bool.false_and]

theorem isTopicMatched_separator :
    isTopicMatched (levelSeparator :: f) (levelSeparator :: n) = isTopicMatched f n := by
  rw [isTopicMatched, if_neg fun h => h.2 rfl, if_neg fun h => h.2.2 rfl, if_neg (by decide),
    if_neg (by decide)]

/-- A level of the filter without wildcards is compared with the level of the name. -/
theorem isTopicMatched_text (hl : levelSeparator ∉ l) (hplus : plusSign ∉ l) (hhash : hashSign ∉ l)
    (hf : AtLevelEnd f) {m : List UInt8} (hm : levelSeparator ∉ m) (hr : AtLevelEnd r) :
    isTopicMatched (l ++ f) (m ++ r) = (decide (l = m) && isTopicMatched f r) := by
  induction l generalizing m with
  | nil =>
    cases m with
    | nil => rfl
    | cons c m =>
      have hc : c ≠ levelSeparator := fun h => hm (h ▸ List.mem_cons_self)
      rw [decide_eq_false (List.cons_ne_nil c m).symm, Bool.false_and]
      rcases hf with rfl | ⟨f, rfl⟩
      · rfl
      · rw [List.nil_append, List.cons_append,
          isTopicMatched_cons_of_ne hc (by decide) (by decide), decide_eq_false hc.symm,
          Bool.false_and]
  | cons a l ih =>
    have ha : a ≠ levelSeparator := fun h => hl (h ▸ List.mem_cons_self)
    have haplus : a ≠ plusSign := fun h => hplus (h ▸ List.mem_cons_self)
    have hahash : a ≠ hashSign := fun h => hhash (h ▸ List.mem_cons_self)
    cases m with
    | nil =>
      rw [decide_eq_false (List.cons_ne_nil a l), Bool.false_and]
      rcases hr with rfl | ⟨r, rfl⟩
      · rfl
      · rw [List.nil_append, List.cons_append, isTopicMatched, if_pos ⟨rfl, ha⟩]
    | cons c m =>
      have hc : c ≠ levelSeparator := fun h => hm (h ▸ List.mem_cons_self)
      rw [List.cons_append, List.cons_append, isTopicMatched_cons_of_ne hc haplus hahash,
        ih (fun h => hl (List.mem_cons_of_mem a h)) (fun h => hplus (List.mem_cons_of_mem a h))
          (fun h => hhash (List.mem_cons_of_mem a h)) fun h => hm (List.mem_cons_of_mem c h),
        ← Bool.and_assoc]
      simp only [List.cons.injEq, Bool.decide_and]

/-- `+` takes the level of the name if it is not empty. -/
theorem isTopicMatched_plus {m : List UInt8} (hm : levelSeparator ∉ m) (hr : AtLevelEnd r) :
    isTopicMatched (plusSign :: f) (m ++ r) = (decide (m ≠ []) && isTopicMatched f r) := by
  cases m with
  | nil =>
    rcases hr with rfl | ⟨r, rfl⟩
    · rfl
    · rw [List.nil_append, isTopicMatched, if_pos ⟨rfl, by decide⟩]
      rfl
  | cons c m =>
    have hc : c ≠ levelSeparator := fun h => hm (h ▸ List.mem_cons_self)
    have hskip : (m ++ r).dropWhile (· ≠ levelSeparator) = r := by
      have hall : ∀ x ∈ m, decide (x ≠ levelSeparator) = true := fun x hx =>
        decide_eq_true fun h => hm (h ▸ List.mem_cons_of_mem c hx)
      rw [List.dropWhile_append_of_pos hall]
      rcases hr with rfl | ⟨r, rfl⟩ <;> rfl
    rw [List.cons_append, isTopicMatched, if_neg fun h => hc h.1, if_neg fun h => h.1 rfl,
      if_pos rfl, hskip]
    rfl

/-- `#` takes what is left of the name if its first level is not empty. -/
theorem isTopicMatched_hash {m : List UInt8} (hm : levelSeparator ∉ m) (hr : AtLevelEnd r) :
    isTopicMatched [hashSign] (m ++ r) = decide (m ≠ []) := by
  cases m with
  | nil =>
    rcases hr with rfl | ⟨r, rfl⟩
    · rfl
    · rw [List.nil_append, isTopicMatched, if_pos ⟨rfl, by decide⟩]
      rfl
  | cons c m =>
    have hc : c ≠ levelSeparator := fun h => hm (h ▸ List.mem_cons_self)
    rw [List.cons_append, isTopicMatched, if_neg fun h => hc h.1, if_neg fun h => h.2.1 rfl,
      if_neg (by decide), if_pos rfl]
    rfl

/-- The levels of a text are its first level and those behind it. -/
inductive FirstLevel (l : List UInt8) (m r : List UInt8) : List (List UInt8) → Prop
  | last (hl : l = m) (hr : r = []) : FirstLevel l m r []
  | more {r' : List UInt8} (hl : l = m ++ levelSeparator :: r') (hr : r = levelSeparator :: r') :
      FirstLevel l m r (r'.splitOn levelSeparator)

theorem exists_level (l : List UInt8) :
    ∃ m r ls, FirstLevel l m r ls ∧ l = m ++ r ∧ levelSeparator ∉ m ∧ AtLevelEnd r ∧
      l.splitOn levelSeparator = m :: ls := by
  by_cases h : levelSeparator ∈ l
  · obtain ⟨m, r, rfl, hm⟩ := List.eq_append_cons_of_mem h
    exact ⟨m, _, _, .more rfl rfl, rfl, hm, .inr ⟨r, rfl⟩,
      List.splitOn_append_cons_self_of_not_mem hm r⟩
  · exact ⟨l, [], _, .last rfl rfl, (List.append_nil l).symm, h, .inl rfl,
      List.splitOn_eq_singleton h⟩

/-- The code's reading of a well-formed filter. -/
theorem isTopicMatched_iff_strict (hf : FilterWellFormed f) (n : List UInt8) :
    isTopicMatched f n = true ↔ TopicFilter.Strict plusSign hashSign
      (f.splitOn levelSeparator) (n.splitOn levelSeparator) := by
  induction hlen : f.length using Nat.strongRecOn generalizing f n with
  | _ k ih =>
    unfold FilterWellFormed at hf
    obtain ⟨l, f₂, fs, hffirst, hfl, hl, hfend, hfs⟩ := exists_level f
    obtain ⟨m, n₂, ns, hnfirst, hnm, hm, hnend, hns⟩ := exists_level n
    rw [hfs] at hf ⊢
    rw [hns]
    -- What is behind the first level of the filter and the name.
    have hrest : isTopicMatched f₂ n₂ = true ↔ TopicFilter.Strict plusSign hashSign fs ns := by
      cases hffirst with
      | last hl' hr =>
        subst hr
        cases hnfirst with
        | last hm' hr =>
          subst hr
          exact iff_of_true rfl .nil
        | @more n' hm' hr =>
          subst hr
          refine iff_of_false Bool.false_ne_true fun h => ?_
          generalize hsplit : n'.splitOn levelSeparator = ns at h
          cases h
          exact List.splitOn_ne_nil _ _ hsplit
      | @more f' hl' hr =>
        subst hr
        cases hnfirst with
        | last hm' hr =>
          subst hr
          refine iff_of_false Bool.false_ne_true fun h => ?_
          generalize hsplit : f'.splitOn levelSeparator = fs at h
          cases fs with
          | nil => exact List.splitOn_ne_nil _ _ hsplit
          | cons f fs => exact h.ne_nil rfl
        | @more n' hm' hr =>
          subst hr
          rw [isTopicMatched_separator]
          refine ih f'.length ?_ hf.2 n' rfl
          rw [← hlen, hl', List.length_append, List.length_cons]
          omega
    rw [hfl, hnm]
    unfold TopicFilter.Strict at hrest ⊢
    obtain ⟨rfl | ⟨rfl, hlast⟩ | ⟨hplus, hhash⟩, -⟩ := hf
    · rw [List.singleton_append, isTopicMatched_plus hm hnend, Bool.and_eq_true, decide_eq_true_iff,
        hrest, TopicFilter.fits_plus (by decide)]
    · have hf₂ : f₂ = [] := by
        cases hffirst with
        | last hl' hr => exact hr
        | more hl' hr => exact absurd hlast (List.splitOn_ne_nil _ _)
      rw [hf₂, List.append_nil, isTopicMatched_hash hm hnend, decide_eq_true_iff, hlast,
        TopicFilter.fits_hash (by decide)]
      constructor
      · intro h
        exact ⟨m, rfl, h⟩
      · rintro ⟨_, ⟨⟩, h⟩
        exact h
    · rw [isTopicMatched_text hl hplus hhash hfend hm hnend, Bool.and_eq_true, decide_eq_true_iff,
        hrest, TopicFilter.fits_text hplus hhash]

/-- For a name without an empty level, a well-formed filter matches where it does by the standard,
except the level above one with `#`. -/
theorem isTopicMatched_iff_standard (hf : FilterWellFormed f)
    (hn : ∀ l ∈ n.splitOn levelSeparator, l ≠ []) :
    isTopicMatched f n = true ↔
      TopicFilter.Standard plusSign hashSign (f.splitOn levelSeparator)
        (n.splitOn levelSeparator) ∧
      ¬ ∃ fs, f.splitOn levelSeparator = fs ++ [[hashSign]] ∧
        TopicFilter.Standard plusSign hashSign fs (n.splitOn levelSeparator) := by
  rw [isTopicMatched_iff_strict hf]
  exact TopicFilter.strict_iff_standard (by decide) hf hn

/-- The filter `a/+/#` and the name `a/b/c`. -/
theorem isTopicMatched_iff_standard_wildcards :
    isTopicMatched [97, 47, 43, 47, 35] [97, 47, 98, 47, 99] = true ↔
      TopicFilter.Standard plusSign hashSign [[97], [43], [35]] [[97], [98], [99]] ∧
      ¬ ∃ fs, [[97], [43], [35]] = fs ++ [[hashSign]] ∧
        TopicFilter.Standard plusSign hashSign fs [[97], [98], [99]] := by
  refine isTopicMatched_iff_standard ?_ ?_
  · exact ⟨.inr (.inr ⟨by decide, by decide⟩), .inl rfl, .inr (.inl ⟨rfl, rfl⟩), trivial⟩
  · exact (by decide : ∀ l ∈ [[97], [98], [(99 : UInt8)]], l ≠ [])

end

/-! ## Delivery -/

section
variable {subs : List SubMsgHandler} {topicName : List UInt8}

theorem mqttPacketEquals_iff {a b : List UInt8} : mqttPacketEquals a b = true ↔ a = b := by
  unfold mqttPacketEquals
  rw [Bool.and_eq_true, decide_eq_true_iff, decide_eq_true_iff]
  constructor
  · rintro ⟨hlen, htake⟩
    rwa [List.take_length, hlen, List.take_length] at htake
  · rintro rfl
    exact ⟨rfl, rfl⟩

/-- The handlers that get the message, by their index, are those with a callback whose filter is the
topic or matches it. -/
theorem deliverLoop_fst (topicName : List UInt8) (i : Nat) (subs : List SubMsgHandler) :
    (deliverLoop topicName i subs).1 = ((subs.zipIdx i).filter fun s =>
      s.1.wants topicName && s.1.callback).map fun s => Receiver.handler s.2 := by
  induction subs generalizing i with
  | nil => rfl
  | cons sub subs ih =>
    rw [List.zipIdx_cons, List.filter_cons, deliverLoop]
    simp only
    cases sub.wants topicName <;> cases sub.callback <;> simp [ih]

theorem deliverLoop_snd (topicName : List UInt8) (i : Nat) (subs : List SubMsgHandler) :
    (deliverLoop topicName i subs).2 = !(deliverLoop topicName i subs).1.isEmpty := by
  induction subs generalizing i with
  | nil => rfl
  | cons sub subs ih =>
    rw [deliverLoop]
    split
    · split
      · rfl
      · exact ih (i + 1)
    · exact ih (i + 1)

theorem nodup_handlers (p : SubMsgHandler × Nat → Bool) (subs : List SubMsgHandler) :
    ((subs.zipIdx.filter p).map fun s => Receiver.handler s.2).Nodup := by
  have hindex : (subs.zipIdx.map Prod.snd).Nodup := by
    rw [List.zipIdx_map_snd]
    exact List.nodup_range'
  have hmap : (subs.zipIdx.filter p).map (fun s => Receiver.handler s.2) =
      ((subs.zipIdx.filter p).map Prod.snd).map Receiver.handler := (List.map_map ..).symm
  rw [hmap]
  refine List.Nodup.map (fun i j h => Receiver.handler.inj h) ?_
  exact hindex.sublist (List.filter_sublist.map _)

theorem wants_iff {sub : SubMsgHandler} (hf : ∀ f ∈ sub.topicFilter, FilterWellFormed f) :
    (sub.wants topicName && sub.callback) = true ↔ ∃ f, sub = ⟨some f, true⟩ ∧ (f = topicName ∨
      TopicFilter.Strict plusSign hashSign (f.splitOn levelSeparator)
        (topicName.splitOn levelSeparator)) := by
  obtain ⟨_ | f, callback⟩ := sub
  · refine iff_of_false (fun h => ?_) ?_
    · cases h
    · rintro ⟨f, h, -⟩
      cases h
  · rw [Bool.and_eq_true, SubMsgHandler.wants, Bool.or_eq_true, mqttPacketEquals_iff,
      isTopicMatched_iff_strict (hf f rfl)]
    constructor
    · rintro ⟨h, rfl⟩
      exact ⟨f, rfl, h.imp_left Eq.symm⟩
    · rintro ⟨f', h, hmatch⟩
      cases h
      exact ⟨hmatch.imp_left Eq.symm, rfl⟩

/-- Who gets a message: each handler with a callback whose filter is the topic or matches it, once,
and the one for all other messages where there is none of these. What is returned says whether
anyone has got it. -/
theorem deliverMessage_receivers (hf : ∀ sub ∈ subs, ∀ f ∈ sub.topicFilter, FilterWellFormed f)
    (defaultMessageHandler : Bool) (topicName : List UInt8) :
    let r := deliverMessage subs defaultMessageHandler topicName
    (∀ i, .handler i ∈ r.1 ↔ ∃ f, subs[i]? = some ⟨some f, true⟩ ∧ (f = topicName ∨
      TopicFilter.Strict plusSign hashSign (f.splitOn levelSeparator)
        (topicName.splitOn levelSeparator))) ∧
      (.defaultMessageHandler ∈ r.1 ↔ defaultMessageHandler = true ∧ ∀ i, .handler i ∉ r.1) ∧
      r.1.Nodup ∧ r.2 = if r.1 = [] then -1 else 0 := by
  have hloop := deliverLoop_fst topicName 0 subs
  have hgot := deliverLoop_snd topicName 0 subs
  -- The handlers that get it, by the loop.
  have hhandlers : ∀ i, .handler i ∈ (deliverLoop topicName 0 subs).1 ↔
      ∃ f, subs[i]? = some ⟨some f, true⟩ ∧ (f = topicName ∨
        TopicFilter.Strict plusSign hashSign (f.splitOn levelSeparator)
          (topicName.splitOn levelSeparator)) := by
    intro i
    rw [hloop, List.mem_map]
    constructor
    · rintro ⟨⟨sub, j⟩, hmem, h⟩
      cases h
      obtain ⟨hmem, hwants⟩ := List.mem_filter.1 hmem
      have hsub : subs[j]? = some sub := List.mem_zipIdx_iff_getElem?.1 hmem
      obtain ⟨f, rfl, hmatch⟩ := (wants_iff (hf sub (List.mem_of_getElem? hsub))).1 hwants
      exact ⟨f, hsub, hmatch⟩
    · rintro ⟨f, hsub, hmatch⟩
      refine ⟨(⟨some f, true⟩, i), List.mem_filter.2 ⟨List.mem_zipIdx_iff_getElem?.2 hsub, ?_⟩, rfl⟩
      exact (wants_iff (hf _ (List.mem_of_getElem? hsub))).2 ⟨f, rfl, hmatch⟩
  have hdefault : .defaultMessageHandler ∉ (deliverLoop topicName 0 subs).1 := by
    rw [hloop, List.mem_map]
    rintro ⟨s, -, h⟩
    cases h
  have hnodup : (deliverLoop topicName 0 subs).1.Nodup := by
    rw [hloop]
    exact nodup_handlers _ subs
  unfold deliverMessage
  generalize deliverLoop topicName 0 subs = r at *
  obtain ⟨l, got⟩ := r
  simp only at hhandlers hdefault hnodup hgot ⊢
  subst hgot
  cases l with
  | nil =>
    have hnone : ∀ i, Receiver.handler i ∉ ([] : List Receiver) := fun i => List.not_mem_nil
    cases defaultMessageHandler with
    | true =>
      refine ⟨fun i => ?_, iff_of_true List.mem_cons_self ⟨rfl, fun i h => ?_⟩,
        List.nodup_singleton _, rfl⟩
      · rw [← hhandlers i]
        refine iff_of_false (fun h => ?_) (hnone i)
        cases List.mem_singleton.1 h
      · cases List.mem_singleton.1 h
    | false => exact ⟨hhandlers, iff_of_false hdefault fun h => Bool.noConfusion h.1, hnodup, rfl⟩
  | cons x l =>
    refine ⟨hhandlers, iff_of_false hdefault fun h => ?_, hnodup, rfl⟩
    cases x with
    | handler i => exact h.2 i List.mem_cons_self
    | defaultMessageHandler => exact hdefault List.mem_cons_self

/-- Two handlers want the message, and one of them has a callback. -/
theorem deliverMessage_receivers_two :
    let r := deliverMessage [⟨some [43], false⟩, ⟨none, true⟩, ⟨some [35], true⟩] true [97]
    (∀ i, .handler i ∈ r.1 ↔ ∃ f, [⟨some [43], false⟩, ⟨none, true⟩,
      (⟨some [35], true⟩ : SubMsgHandler)][i]? = some ⟨some f, true⟩ ∧ (f = [97] ∨
        TopicFilter.Strict plusSign hashSign (f.splitOn levelSeparator) [[97]])) ∧
      (.defaultMessageHandler ∈ r.1 ↔ true = true ∧ ∀ i, .handler i ∉ r.1) ∧
      r.1.Nodup ∧ r.2 = if r.1 = [] then -1 else 0 := by
  refine deliverMessage_receivers ?_ true [97]
  simp only [List.forall_mem_cons, Option.mem_def, Option.some.injEq, forall_eq', reduceCtorEq,
    false_imp_iff, implies_true, true_and]
  exact ⟨⟨.inl rfl, trivial⟩, ⟨.inr (.inl ⟨rfl, rfl⟩), trivial⟩, List.forall_mem_nil _⟩

end

end AppXd.Mqtt
