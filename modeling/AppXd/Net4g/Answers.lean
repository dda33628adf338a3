import AppXd.Net4g.Handshake
import AppXd.Net4g.Reconnect

/-!
# Prompts and acknowledgements

`get_net4G_recv_cmd` looks for the prompt and the acknowledgement in everything that is still
unread, and leaves the head in front of what it has found. The log gives every byte its number in the
stream that the driver has received. An occurrence that answers a request is to lie behind the bytes
that had been received when the request was written. `AnswerCond` asks for that much of the bytes
that are unread at that time: that none of them begins an answer.
-/

namespace AppXd.Net4g

open Seq (OccursAt NoStart)
open Trace (Run Guarded PFun)

/-- What a publish waits for. -/
inductive AnswerKind
  | prompt | ack
  deriving DecidableEq

namespace AnswerKind

/-- `NET_MQTT_PUB_MIDDLE_HEAD` and `NET_MQTT_PUB_RSP_HEAD`. -/
def key (m : ModuleType) : AnswerKind → List UInt8
  | prompt => netMqttPubMiddleHead
  | ack => netMqttPubRspHead m

/-- The check flag of the answer. -/
def awaited (r : Recv) : AnswerKind → Bool
  | prompt => r.checkPubMiddleFlag
  | ack => r.checkPubAckFlag

/-- Whether a call of `get_net4G_recv_cmd` looks for the answer. -/
def searched (r : Recv) : AnswerKind → Bool
  | prompt => r.checkPubMiddleFlag
  | ack => !r.checkPubMiddleFlag && r.checkPubAckFlag

/-- A call looks for one answer at most. -/
theorem searched_unique {r : Recv} {k k' : AnswerKind} (h : k.searched r = true)
    (h' : k'.searched r = true) : k = k' := by
  cases k <;> cases k' <;> simp_all [searched]

theorem keyword (m : ModuleType) (k : AnswerKind) : Keyword (k.key m) := by
  cases k with
  | prompt => exact keyword_pubMiddleHead
  | ack => exact keyword_pubRspHead m

end AnswerKind

/-- What a write asks for: the publish command for the prompt, the payload for the
acknowledgement. -/
def Write.asksFor (w : Write) : Option AnswerKind :=
  match w.kind with
  | .pubCmd .. => some .prompt
  | .payload .. => some .ack
  | .other => none

/-- The number of the unread byte at which a call finds the answer that it looks for. -/
def Recv.answerAt (c : Config) (r : Recv) (k : AnswerKind) : Option Nat :=
  let i := searchWindow c r.fifo (k.key c.moduleType) 0
  if k.searched r ∧ i.found then some (Ring.unread c.uartRecvFifoSize r.fifo.head i.index) else none

/-- An occurrence that was found: its place in the stream, and the number of bytes that had been
received when the current message asked for it. -/
structure Answer where
  kind : AnswerKind
  pos : Nat
  since : Nat

structure AnswerLog where
  work : Work
  stream : List UInt8
  since : AnswerKind → Nat
  answers : List Answer

namespace AnswerLog

/-- The bytes that no call has dropped yet, in the FIFO and in the driver. -/
def pending (c : Config) (s : AnswerLog) : List UInt8 :=
  s.work.comm.recv.window c ++ s.work.comm.uart

/-- The place of the first unread byte. -/
def pos (c : Config) (s : AnswerLog) : Nat := s.stream.length - (s.pending c).length

/-- The occurrences that a call finds. -/
def found (c : Config) (s : AnswerLog) : List Answer :=
  [.prompt, .ack].filterMap fun k =>
    (s.work.comm.recv.answerAt c k).map fun n => ⟨k, s.pos c + n, s.since k⟩

/-- The log behind an event that has led to `w`. After a reconnection the driver holds new bytes. -/
def next (E : CommEnv) (s : AnswerLog) (w : Work) : WorkEvent E.config → AnswerLog
  | .uart bs => { s with work := w, stream := s.stream ++ bs }
  | .work x =>
    if s.work.comm.netWork = .normal then
      { work := w
        stream := s.stream
        since := fun k =>
          if some k ∈ (w.comm.writes.drop s.work.comm.writes.length).map Write.asksFor then
            s.stream.length
          else s.since k
        answers := s.answers ++ s.found E.config }
    else if s.work.comm.netWork = .error then { s with work := w }
    else { s with work := w, stream := s.stream ++ x.uart }
  | _ => { s with work := w }

def step (E : CommEnv) (s : AnswerLog) (e : WorkEvent E.config) : Option AnswerLog :=
  (s.work.step E e).map fun (_, w) => s.next E w e

end AnswerLog

def AnswerStep (E : CommEnv) : AnswerLog → WorkEvent E.config → AnswerLog → Prop :=
  PFun (AnswerLog.step E)

/-- The unread bytes are the last ones of the stream; every answer lies behind what had been received
when it was asked for; and no two of them are the same. -/
structure FreshAnswers (c : Config) (s : AnswerLog) : Prop where
  unread : s.pending c <:+ s.stream
  fresh : ∀ a ∈ s.answers, a.since ≤ a.pos ∧ OccursAt (a.kind.key c.moduleType) s.stream a.pos
  once : s.answers.Pairwise fun a b => a.pos < b.pos

/-! ## The condition -/

/-- What the next write of `net4g_send_data_process` asks for. -/
def SendProcess.asksFor (p : SendProcess) : Option AnswerKind :=
  match p.processWorkStep with
  | 0 => some .prompt
  | 2 => some .ack
  | _ => none

/-- Where a call comes to ask for an answer, no byte that is still unread begins one. -/
def NoneStale (E : CommEnv) (s : Comm) : Prop :=
  s.communicateStep = 2 → ∀ k ∈ s.proc.asksFor,
    NoStart (k.key E.config.moduleType) (s.recv.window E.config ++ s.uart)

/-- The search of an answer is right. -/
def AnswerSearchOk (c : Config) (r : Recv) : Prop := ∀ k ∈ [AnswerKind.prompt, .ack],
  k.searched r = true → Crossing c r.fifo.data r.fifo.head r.fifo.tail (k.key c.moduleType)

def AnswerCond (E : CommEnv) (s : Work) (e : WorkEvent E.config) : Prop :=
  LinkCond E s e ∧ match e with
    | .work x => s.comm.netWork = .normal → AnswerSearchOk E.config s.comm.recv ∧
        ((s.comm.received E).ret ≠ 10 → NoneStale E (s.comm.entered E x.call))
    | _ => True

instance (E : CommEnv) (s : Comm) : Decidable (NoneStale E s) := by
  unfold NoneStale
  infer_instance

instance (c : Config) (r : Recv) : Decidable (AnswerSearchOk c r) := by
  unfold AnswerSearchOk
  infer_instance

instance (E : CommEnv) (s : Work) : ∀ e, Decidable (AnswerCond E s e)
  | .work x => inferInstanceAs (Decidable (LinkCond E s (.work x) ∧ (_ → _ ∧ (_ → _))))
  | .uart bs => inferInstanceAs (Decidable (LinkCond E s (.uart bs) ∧ True))
  | .save m => inferInstanceAs (Decidable (LinkCond E s (.save m) ∧ True))
  | .others d b => inferInstanceAs (Decidable (LinkCond E s (.others d b) ∧ True))

/-! ## One call of `get_net4G_recv_cmd` -/

section
variable {c : Config} {r : Recv} {k : AnswerKind}

/-- The answer is found where it occurs. -/
theorem Recv.answerAt_occursAt (hr : Ringed c r) (hs : AnswerSearchOk c r) {n : Nat}
    (h : r.answerAt c k = some n) : OccursAt (k.key c.moduleType) (r.window c) n := by
  unfold Recv.answerAt at h
  simp only at h
  split at h
  swap
  · cases h
  rename_i hfound
  have hne : r.window c ≠ [] := fun hnil => by
    have hun : Ring.unread c.uartRecvFifoSize r.fifo.head r.fifo.tail = 0 := by
      rw [← Fifo.length_window]
      exact List.length_eq_zero_iff.2 hnil
    exact absurd ((getKeyDataIndex_empty hun 0).symm.trans hfound.2) nofun
  have hk := k.keyword c.moduleType
  have hx := hs k (by cases k <;> decide) hfound.1
  have hspec := getKeyDataIndex_spec hk hr.head_le hr.tail_lt (hr.data_tail hne) hx 0
  cases hfirst : Seq.firstAt (k.key c.moduleType) (r.window c) with
  | none => exact absurd ((hspec.of_none hfirst).symm.trans hfound.2) nofun
  | some p =>
    have hlen := Seq.firstAt_le_length hfirst hk.ne_nil
    rw [Recv.window, Fifo.length_window] at hlen
    have hpos := hk.length_pos
    have hn := Option.some.inj h
    rw [searchWindow, (hspec.of_some hfirst).2,
      Ring.unread_wrap hr.head_le hr.tail_lt (by omega)] at hn
    exact hn ▸ Seq.firstAt_occursAt hfirst

/-- A call that looks for an answer either finds it and clears its flag, or changes nothing. -/
theorem getNet4GRecvCmd_searched (info : SignalInfo) (h : k.searched r = true) :
    r.answerAt c k = none ∧ (getNet4GRecvCmd c r info).recv = r ∨
      k.awaited (getNet4GRecvCmd c r info).recv = false := by
  unfold Recv.answerAt getNet4GRecvCmd
  cases k with
  | prompt =>
    have hm : r.checkPubMiddleFlag = true := h
    simp only [hm, if_true, AnswerKind.key, AnswerKind.searched, true_and]
    split
    · exact .inr rfl
    · exact .inl ⟨rfl, rfl⟩
  | ack =>
    obtain ⟨hm, ha⟩ : r.checkPubMiddleFlag = false ∧ r.checkPubAckFlag = true := by
      simpa [AnswerKind.searched] using h
    simp only [hm, ha, Bool.false_eq_true, if_false, if_true, AnswerKind.key, AnswerKind.searched,
      Bool.not_false, Bool.and_self, true_and]
    split
    · exact .inr rfl
    · exact .inl ⟨rfl, rfl⟩

/-- Outside the states that wait for both, what is awaited is looked for. -/
theorem Waits.searched {p : SendProcess} (hw : Waits p r) (h : k.awaited r = true) :
    k.searched r = true := by
  cases k with
  | prompt => exact h
  | ack =>
    have ha : r.checkPubAckFlag = true := h
    have hm : r.checkPubMiddleFlag = false := Bool.eq_false_iff.2 fun hm =>
      absurd ((hw.exclusive hm).symm.trans ha) nofun
    simp [AnswerKind.searched, hm, ha]

/-- A call that does not look for an answer finds none, and one call finds at most one. -/
theorem AnswerLog.found_cases (c : Config) (s : AnswerLog) :
    (∀ k, s.work.comm.recv.answerAt c k = none) ∧ s.found c = [] ∨
      ∃ k n, k.searched s.work.comm.recv = true ∧ s.work.comm.recv.answerAt c k = some n ∧
        s.found c = [⟨k, s.pos c + n, s.since k⟩] := by
  have hsearched : ∀ k n, s.work.comm.recv.answerAt c k = some n →
      k.searched s.work.comm.recv = true := by
    intro k n h
    unfold Recv.answerAt at h
    simp only at h
    split at h
    · exact ‹_ ∧ _›.1
    · cases h
  unfold AnswerLog.found
  cases hp : s.work.comm.recv.answerAt c .prompt with
  | some n =>
    have hm : s.work.comm.recv.checkPubMiddleFlag = true := hsearched _ _ hp
    have ha : s.work.comm.recv.answerAt c .ack = none := by
      unfold Recv.answerAt
      simp [AnswerKind.searched, hm]
    exact .inr ⟨.prompt, n, hm, hp, by simp [hp, ha]⟩
  | none =>
    cases ha : s.work.comm.recv.answerAt c .ack with
    | some n => exact .inr ⟨.ack, n, hsearched _ _ ha, ha, by simp [hp, ha]⟩
    | none =>
      refine .inl ⟨fun k => ?_, by simp [hp, ha]⟩
      cases k with
      | prompt => exact hp
      | ack => exact ha

end

/-! ## What a call asks for -/

theorem SendDataOutcome.requests {text : SendEntry → List UInt8} {q : Send} {p : SendProcess}
    {r : Recv} {res : SendDataRet} (h : SendDataOutcome text q p r res) (k : AnswerKind) :
    (some k ∈ res.write.toList.map Write.asksFor → k ∈ p.asksFor) ∧
      (k.awaited res.recv = true →
        some k ∈ res.write.toList.map Write.asksFor ∨ k.awaited r = true) := by
  cases h with
  | pubCmd h0 =>
    unfold SendProcess.asksFor
    rw [h0]
    cases k <;> simp [Write.asksFor, AnswerKind.awaited]
  | payload h2 =>
    unfold SendProcess.asksFor
    rw [h2]
    cases k <;> simp [Write.asksFor, AnswerKind.awaited]
  | prompted | unprompted | done =>
    cases k <;> simp [AnswerKind.awaited, Recv.clearMiddle, Recv.clearAck]
  | waiting | unacked | still => simp

section
variable {E : CommEnv} {s t : Comm} {x : CallInput E.config} {ret : CommRet}

/-- What a call asks for, and what is awaited behind it. -/
theorem Comm.CallOutcome.requests (h : CallOutcome E s x ret t) :
    ∃ ws, t.writes = s.writes ++ ws ∧ ∀ k,
      (some k ∈ ws.map Write.asksFor → (s.received E).ret ≠ 10 ∧
        (s.entered E x).communicateStep = 2 ∧ k ∈ (s.entered E x).proc.asksFor) ∧
      (k.awaited t.recv = true →
        some k ∈ ws.map Write.asksFor ∨ k.awaited (s.received E).recv = true) := by
  have hquiet : ∀ (u : Comm), (u.writes = s.writes ∨ ∃ bs, u.writes = s.writes ++ [⟨.other, bs⟩]) →
      ∃ ws, u.writes = s.writes ++ ws ∧ ∀ k, some k ∉ ws.map Write.asksFor := by
    rintro u (hu | ⟨bs, hu⟩)
    · exact ⟨[], hu.trans (List.append_nil _).symm, fun _ => List.not_mem_nil⟩
    · refine ⟨_, hu, fun k hk => ?_⟩
      cases List.mem_singleton.1 hk
  obtain ⟨ws, hws, hnone⟩ := hquiet (s.entered E x) Comm.entered_writes
  have hrest : ∀ (u : Comm), u.writes = (s.entered E x).writes →
      (∀ k : AnswerKind, k.awaited u.recv = k.awaited (s.received E).recv) →
      ∃ ws, u.writes = s.writes ++ ws ∧ ∀ k,
        (some k ∈ ws.map Write.asksFor → (s.received E).ret ≠ 10 ∧
          (s.entered E x).communicateStep = 2 ∧ k ∈ (s.entered E x).proc.asksFor) ∧
        (k.awaited u.recv = true →
          some k ∈ ws.map Write.asksFor ∨ k.awaited (s.received E).recv = true) := by
    intro u hu hflags
    exact ⟨ws, hu.trans hws, fun k => ⟨fun h => absurd h (hnone k), fun h => .inr (hflags k ▸ h)⟩⟩
  have hsame : ∀ (u : Comm) (k : AnswerKind), u.recv = (s.entered E x).recv →
      k.awaited u.recv = k.awaited (s.received E).recv := fun u k hu => by
    rw [hu, Comm.entered_recv]
  have hsent : (s.received E).ret ≠ 10 → s.communicateStep = 2 →
      ∃ ws, ((s.entered E x).afterSend E).writes = s.writes ++ ws ∧ ∀ k,
        (some k ∈ ws.map Write.asksFor → (s.received E).ret ≠ 10 ∧
          (s.entered E x).communicateStep = 2 ∧ k ∈ (s.entered E x).proc.asksFor) ∧
        (k.awaited ((s.entered E x).afterSend E).recv = true →
          some k ∈ ws.map Write.asksFor ∨ k.awaited (s.received E).recv = true) := by
    intro h10 h2
    have hout := (s.entered E x).sendData_outcome E
    refine ⟨ws ++ ((s.entered E x).sendData E).write.toList, ?_, fun k => ?_⟩
    · show (s.entered E x).writes ++ _ = _
      rw [hws, List.append_assoc]
    obtain ⟨hask, hflag⟩ := hout.requests k
    rw [Comm.entered_recv] at hflag
    rw [List.map_append, List.mem_append]
    refine ⟨fun h => ⟨h10, Comm.entered_communicateStep.trans h2, hask ?_⟩, fun h => ?_⟩
    · exact h.resolve_left (hnone k)
    · exact (hflag h).imp .inr id
  cases h with
  | notice =>
    exact ⟨[], (List.append_nil _).symm, fun k => ⟨fun h => absurd h List.not_mem_nil, .inr⟩⟩
  | register | publish | idle => exact hrest _ rfl fun k => hsame _ k rfl
  | command k buf n t _ _ _ _ _ hana =>
    obtain ⟨d, ms, rfl⟩ := Comm.analyze_eq hana
    refine hrest _ rfl fun k => ?_
    rw [← hsame (s.entered E x) k rfl]
    cases k <;> rfl
  | unknown | disconnect =>
    refine hrest _ rfl fun k => ?_
    rw [← hsame (s.entered E x) k rfl]
    cases k <;> rfl
  | cellInfo =>
    obtain ⟨ws', i, flag, heq, hws'⟩ :=
      Comm.getCellInfoProcess_eq (s.entered E x) E.config.moduleType
    rw [heq]
    obtain rfl | ⟨bs, rfl⟩ := hws'
    · exact hrest _ rfl fun k => hsame _ k rfl
    · refine ⟨ws ++ [⟨.other, bs⟩], ?_, fun k => ⟨fun h => absurd h ?_, fun h => .inr ?_⟩⟩
      · show (s.entered E x).writes ++ _ = _
        rw [hws, List.append_assoc]
      · rw [List.map_append, List.mem_append]
        rintro (h | h)
        · exact hnone k h
        · cases List.mem_singleton.1 h
      · exact hsame (s.entered E x) k rfl ▸ h
  | published h10 h2 => exact hsent h10 h2
  | failed h10 h2 => exact hsent h10 h2
  | publishing h10 h2 => exact hsent h10 h2

end

/-! ## Runs -/

/-- The bytes that were unread when the answer was asked for begin none, and every answer found
before lies in front of it. -/
structure Awaited (c : Config) (s : AnswerLog) (k : AnswerKind) : Prop where
  passed : ∃ old new, s.pending c = old ++ new ∧ NoStart (k.key c.moduleType) old ∧
    s.since k + new.length ≤ s.stream.length
  later : ∀ a ∈ s.answers, a.pos < s.since k

/-- The invariant of a run. -/
structure AnswerInv (c : Config) (s : AnswerLog) : Prop where
  online : Online c s.work.comm
  law : FreshAnswers c s
  waits : Waits s.work.comm.proc s.work.comm.recv
  since_le : ∀ k, s.since k ≤ s.stream.length
  inside : ∀ a ∈ s.answers, a.pos < s.stream.length
  awaited : ∀ k, AnswerKind.awaited s.work.comm.recv k = true → Awaited c s k

section
variable {c : Config} {s : AnswerLog} {w : Work}

/-- New bytes arrive behind those that are pending, or instead of them. -/
theorem AnswerInv.arrive (hs : AnswerInv c s) (hw : Online c w.comm) {rest bs : List UInt8}
    (hrest : rest = s.pending c ∨ rest = [])
    (hpending : w.comm.recv.window c ++ w.comm.uart = rest ++ bs)
    (hproc : w.comm.proc = s.work.comm.proc)
    (hm : w.comm.recv.checkPubMiddleFlag = s.work.comm.recv.checkPubMiddleFlag)
    (ha : w.comm.recv.checkPubAckFlag = s.work.comm.recv.checkPubAckFlag) :
    AnswerInv c { s with work := w, stream := s.stream ++ bs } := by
  have hlen : (s.stream ++ bs).length = s.stream.length + bs.length := List.length_append
  have hflag : ∀ k : AnswerKind, k.awaited w.comm.recv = k.awaited s.work.comm.recv := fun k => by
    cases k
    · exact hm
    · exact ha
  refine ⟨hw, ⟨?_, fun a ha => ?_, hs.law.once⟩, ?_, fun k => ?_, fun a ha => ?_, fun k hk => ?_⟩
  · have hsuffix : rest <:+ s.stream := by
      obtain rfl | rfl := hrest
      · exact hs.law.unread
      · exact List.nil_suffix
    obtain ⟨pre, hpre⟩ := hsuffix
    refine ⟨pre, ?_⟩
    show pre ++ (w.comm.recv.window c ++ w.comm.uart) = _
    rw [hpending, ← List.append_assoc, hpre]
  · obtain ⟨h1, h2⟩ := hs.law.fresh a ha
    exact ⟨h1, h2.append bs⟩
  · show Waits w.comm.proc w.comm.recv
    rw [hproc]
    exact ⟨fun h => hs.waits.middle (hm ▸ h), fun h => hs.waits.ack (ha ▸ h)⟩
  · have := hs.since_le k
    show s.since k ≤ (s.stream ++ bs).length
    omega
  · have := hs.inside a ha
    show a.pos < (s.stream ++ bs).length
    omega
  · rw [show AnswerKind.awaited w.comm.recv k = _ from hflag k] at hk
    obtain ⟨⟨old, new, hsplit, hnone, hsince⟩, hlater⟩ := hs.awaited k hk
    have hsince_le := hs.since_le k
    obtain rfl | rfl := hrest
    · refine ⟨⟨old, new ++ bs, ?_, hnone, ?_⟩, hlater⟩
      · show w.comm.recv.window c ++ w.comm.uart = _
        rw [hpending, hsplit, List.append_assoc]
      · rw [List.length_append]
        show s.since k + _ ≤ (s.stream ++ bs).length
        omega
    · refine ⟨⟨[], bs, hpending, .nil _, ?_⟩, hlater⟩
      show s.since k + _ ≤ (s.stream ++ bs).length
      omega

/-- What a call leaves pending is the rest of what was. -/
theorem Kept.suffix {f f' : Fifo} (h : Kept c f f') (hh : f.head ≤ c.uartRecvFifoSize)
    (ht : f.tail < c.uartRecvFifoSize) : f'.window c <:+ f.window c := by
  cases h with
  | moved k _ _ hmoved =>
    have hdrop := hmoved.window hh ht f.data
    unfold Fifo.window
    rw [‹f'.data = f.data›, hdrop]
    exact List.drop_suffix ..
  | cleared =>
    rw [show (clearFifo c f).window c = [] from Fifo.window_empty c (clearFifo c f)]
    exact List.nil_suffix

/-- The place of the first unread byte, and where the stream goes on from there. -/
theorem FreshAnswers.pos_eq (h : FreshAnswers c s) :
    ∃ pre, s.stream = pre ++ s.pending c ∧ pre.length = s.pos c := by
  obtain ⟨pre, hpre⟩ := h.unread
  refine ⟨pre, hpre.symm, ?_⟩
  unfold AnswerLog.pos
  rw [← hpre, List.length_append, Nat.add_sub_cancel_right]

/-- An answer that a call finds is a new one, and behind what had been received when it was asked
for. -/
theorem AnswerInv.found (hs : AnswerInv c s) (hok : AnswerSearchOk c s.work.comm.recv)
    {k : AnswerKind} {n : Nat} (hk : k.searched s.work.comm.recv = true)
    (hn : s.work.comm.recv.answerAt c k = some n) :
    OccursAt (k.key c.moduleType) s.stream (s.pos c + n) ∧ s.since k ≤ s.pos c + n ∧
      ∀ a ∈ s.answers, a.pos < s.pos c + n := by
  have hawaited : k.awaited s.work.comm.recv = true := by
    cases k with
    | prompt => exact hk
    | ack =>
      have hk' : (!s.work.comm.recv.checkPubMiddleFlag && s.work.comm.recv.checkPubAckFlag) = true :=
        hk
      rw [Bool.and_eq_true] at hk'
      exact hk'.2
  have hocc := (Recv.answerAt_occursAt hs.online.ringed hok hn).append s.work.comm.uart
  obtain ⟨pre, hstream, hpre⟩ := hs.law.pos_eq
  obtain ⟨⟨old, new, hsplit, hnone, hsince⟩, hlater⟩ := hs.awaited k hawaited
  have hpos : OccursAt (k.key c.moduleType) s.stream (s.pos c + n) := by
    rw [hstream, ← hpre]
    exact hocc.prepend pre
  have hle : s.since k ≤ s.pos c + n := by
    have hold : old.length ≤ n := hnone.length_le (v := new) (by rw [← hsplit]; exact hocc)
    have hlen := congrArg List.length hstream
    have hlen' := congrArg List.length hsplit
    rw [List.length_append] at hlen hlen'
    omega
  exact ⟨hpos, hle, fun a ha => Nat.lt_of_lt_of_le (hlater a ha) hle⟩

theorem AnswerInv.of_mem_found (hs : AnswerInv c s) (hok : AnswerSearchOk c s.work.comm.recv)
    {a : Answer} (ha : a ∈ s.found c) :
    a.since ≤ a.pos ∧ OccursAt (a.kind.key c.moduleType) s.stream a.pos ∧
      ∀ b ∈ s.answers, b.pos < a.pos := by
  obtain ⟨-, hnil⟩ | ⟨k, n, hk, hat, hone⟩ := s.found_cases c
  · rw [hnil] at ha
    cases ha
  · rw [hone, List.mem_singleton] at ha
    obtain ⟨hocc, hle, hlater⟩ := hs.found hok hk hat
    exact ha ▸ ⟨hle, hocc, hlater⟩

/-- All answers lie in the stream. -/
theorem AnswerInv.found_inside (hs : AnswerInv c s) (hok : AnswerSearchOk c s.work.comm.recv) :
    ∀ a ∈ s.answers ++ s.found c, a.pos < s.stream.length := by
  intro a ha
  obtain ha | ha := List.mem_append.1 ha
  · exact hs.inside a ha
  · have hk := a.kind.keyword c.moduleType
    have hle := (hs.of_mem_found hok ha).2.1.le_length hk.ne_nil
    have hpos := hk.length_pos
    omega

/-- A search that ends without an answer finds none of the other kind either. -/
theorem AnswerLog.found_nil {k : AnswerKind} (hk : k.searched s.work.comm.recv = true)
    (hnone : s.work.comm.recv.answerAt c k = none) : s.found c = [] := by
  obtain ⟨-, hnil⟩ | ⟨k', n, hk', hat, -⟩ := s.found_cases c
  · exact hnil
  · obtain rfl := AnswerKind.searched_unique hk hk'
    cases hnone.symm.trans hat

end

section
variable {E : CommEnv} {s s' : AnswerLog} {e : WorkEvent E.config}

/-- A call. -/
theorem AnswerInv.call (hs : AnswerInv E.config s) {x : WorkInput E.config} {ret : CommRet} {t : Comm}
    (hn : s.work.comm.netWork = .normal) (hc : AnswerCond E s.work (.work x))
    (hcall : module4gCommunicationProcess E x.call s.work.comm = some (ret, t))
    (honline : Online E.config (s.work.normal E.config.moduleType ret t).comm) :
    AnswerInv E.config
      (s.next E (s.work.normal E.config.moduleType ret t) (.work x)) := by
  obtain ⟨hlink, hc⟩ := hc
  obtain ⟨hok, hstale⟩ := hc hn
  have hout := Comm.call_outcome hcall
  have hb := s.work.normal_afterCall E.config.moduleType ret t
  obtain ⟨hring, hkept⟩ := getNet4GRecvCmd_ringed s.work.comm.info hs.online.ringed (hlink hn).1
  obtain ⟨ws, hws, hreq⟩ := hout.requests
  -- what is pending, in the log's terms
  have hpending : (s.next E (s.work.normal E.config.moduleType ret t) (.work x)).pending E.config =
      (s.work.comm.received E).recv.window E.config ++ s.work.comm.uart := by
    have hwork : (s.next E (s.work.normal E.config.moduleType ret t) (.work x)).work =
        s.work.normal E.config.moduleType ret t := by
      unfold AnswerLog.next
      simp only [if_pos hn]
    unfold AnswerLog.pending
    rw [hwork, hb.recv, hb.uart, hout.sameRing.window, hout.uart]
  have hsuffix : (s.next E (s.work.normal E.config.moduleType ret t) (.work x)).pending E.config <:+
      s.pending E.config := by
    rw [hpending]
    obtain ⟨pre, hpre⟩ := hkept.suffix hs.online.ringed.head_le hs.online.ringed.tail_lt
    refine ⟨pre, ?_⟩
    rw [← List.append_assoc]
    exact congrArg (· ++ s.work.comm.uart) hpre
  have hasked : ∀ k : AnswerKind, some k ∈ ((s.work.normal E.config.moduleType ret t).comm.writes.drop
      s.work.comm.writes.length).map Write.asksFor ↔ some k ∈ ws.map Write.asksFor := by
    intro k
    obtain hw | ⟨bs, hw⟩ := hb.writes
    · rw [hw, hws, List.drop_left]
    · rw [hw, hws, List.append_assoc, List.drop_left, List.map_append, List.mem_append]
      exact or_iff_left fun h => by cases List.mem_singleton.1 h
  unfold AnswerLog.next at hpending hsuffix ⊢
  simp only [if_pos hn] at hpending hsuffix ⊢
  simp only [hasked] at hpending hsuffix ⊢
  have hinside := hs.found_inside hok
  refine ⟨honline, ⟨hsuffix.trans hs.law.unread, fun a ha => ?_, ?_⟩, ?_, fun k => ?_, hinside,
    fun k hk => ?_⟩
  · obtain ha | ha := List.mem_append.1 ha
    · exact hs.law.fresh a ha
    · obtain ⟨hle, hocc, -⟩ := hs.of_mem_found hok ha
      exact ⟨hle, hocc⟩
  · refine List.pairwise_append.2 ⟨hs.law.once, ?_, fun a ha b hb =>
      (hs.of_mem_found hok hb).2.2 a ha⟩
    obtain ⟨-, hnil⟩ | ⟨k, n, -, -, hone⟩ := s.found_cases E.config
    · rw [hnil]
      exact .nil
    · rw [hone]
      exact List.pairwise_singleton ..
  · rw [hb.proc, hb.recv]
    exact hout.waits hs.waits
  · show ite _ _ _ ≤ s.stream.length
    split
    · exact Nat.le_refl _
    · exact hs.since_le k
  · rw [hb.recv] at hk
    obtain ⟨hask, hflag⟩ := hreq k
    by_cases hreqk : some k ∈ ws.map Write.asksFor
    · obtain ⟨h10, h2, hkind⟩ := hask hreqk
      have hnone := hstale h10 h2 k hkind
      rw [Comm.entered_recv, show (s.work.comm.entered E x.call).uart = s.work.comm.uart from
        Comm.entered_waited.uart, ← hpending] at hnone
      refine ⟨⟨_, [], (List.append_nil _).symm, hnone, ?_⟩, ?_⟩
      · show ite _ _ _ + 0 ≤ s.stream.length
        rw [if_pos hreqk]
        exact Nat.le_refl _
      · show ∀ a ∈ s.answers ++ s.found E.config, a.pos < ite _ _ _
        rw [if_pos hreqk]
        exact hinside
    · have hawaited := (hflag hk).resolve_left hreqk
      have hbefore : k.awaited s.work.comm.recv = true := by
        obtain ⟨hm, ha⟩ := getNet4GRecvCmd_checks E.config s.work.comm.recv s.work.comm.info
        cases k
        · exact hm hawaited
        · exact ha hawaited
      have hsearched := hs.waits.searched hbefore
      obtain ⟨hnone, hrecv⟩ | hcleared :=
        getNet4GRecvCmd_searched (c := E.config) s.work.comm.info hsearched
      swap
      · exact absurd (hcleared.symm.trans hawaited) nofun
      have hnil : s.found E.config = [] := AnswerLog.found_nil hsearched hnone
      obtain ⟨⟨old, new, hsplit, hno, hsince⟩, hlater⟩ := hs.awaited k hbefore
      refine ⟨⟨old, new, hpending.trans ?_, hno, ?_⟩, ?_⟩
      · have hwin : (s.work.comm.received E).recv.window E.config =
            s.work.comm.recv.window E.config := congrArg (Recv.window E.config) hrecv
        rw [hwin]
        exact hsplit
      · show ite _ _ _ + _ ≤ s.stream.length
        rw [if_neg hreqk]
        exact hsince
      · show ∀ a ∈ s.answers ++ s.found E.config, a.pos < ite _ _ _
        rw [if_neg hreqk, hnil, List.append_nil]
        exact hlater

theorem AnswerStep.inv (hs : AnswerInv E.config s) (hc : AnswerCond E s.work e)
    (h : AnswerStep E s e s') : AnswerInv E.config s' := by
  obtain ⟨⟨ret, w⟩, hstep, rfl⟩ := Option.map_eq_some_iff.1 h
  have honline := hs.online.step hc.1 hstep
  have hquiet : ∀ w : Work, Online E.config w.comm → w.comm.recv = s.work.comm.recv →
      w.comm.uart = s.work.comm.uart → w.comm.proc = s.work.comm.proc →
      AnswerInv E.config { s with work := w } := by
    intro w hw hrecv huart hproc
    have hpending : w.comm.recv.window E.config ++ w.comm.uart = s.pending E.config ++ [] := by
      rw [hrecv, huart, List.append_nil]
      rfl
    have harrive := hs.arrive hw (.inl rfl) hpending hproc (by rw [hrecv]) (by rw [hrecv])
    rwa [List.append_nil] at harrive
  cases Work.step_outcome hstep with
  | uart bs =>
    obtain ⟨f, u, hd⟩ := Comm.deliver_eq E.config s.work.comm bs
    have hwin : (s.work.comm.deliver E.config bs).recv.window E.config ++
        (s.work.comm.deliver E.config bs).uart = s.pending E.config ++ bs := by
      by_cases hreg : s.work.comm.registered = true
      · exact (Comm.deliver_window hs.online.ringed hreg (hc.1 hreg)).2
      · unfold Comm.deliver
        rw [if_neg hreg]
        exact (List.append_assoc ..).symm
    exact hs.arrive honline (.inl rfl) hwin (by rw [hd]) (by rw [hd]) (by rw [hd])
  | save m => exact hquiet _ honline rfl rfl rfl
  | others d flag => exact hquiet _ honline rfl rfl rfl
  | phase x next hn ho herr =>
    obtain ⟨n, hphase, -⟩ := s.work.phase_eq x next
    obtain ⟨hh, ht⟩ := s.work.comm.recv.fifo.answers_index (c := E.config) x.rsps
    have hwin := Fifo.window_eq_nil hh ht (hs.online.empty (hs.online.offline hn ho))
    unfold AnswerLog.next
    simp only [if_neg hn, if_neg herr]
    have hpending : (s.work.phase x next).comm.recv.window E.config ++
        (s.work.phase x next).comm.uart = [] ++ x.uart := by
      rw [hphase]
      exact congrArg (· ++ x.uart) hwin
    exact hs.arrive honline (.inr rfl) hpending (by rw [hphase]) (by rw [hphase]) (by rw [hphase])
  | error x w hn hw =>
    have hne : s.work.comm.netWork ≠ .normal := by
      rw [hn]
      decide
    unfold AnswerLog.next
    simp only [if_neg hne, if_pos hn]
    obtain rfl | rfl := hw <;> exact hquiet _ honline rfl rfl rfl
  | call x ret t hn hcall => exact hs.call hn hc hcall honline

end

/-- In a run whose steps meet the condition every prompt and every acknowledgement is found in bytes
that were received after the current message had asked for it, and none of them is used twice. -/
theorem freshAnswers_of_answerCond {E : CommEnv} {w₀ : Work}
    (h₀ : Disconnected E.config w₀.comm) (hidle : w₀.comm.recv.Unchecked)
    {es : List (WorkEvent E.config)} {s : AnswerLog}
    (h : Run (Guarded (fun s => AnswerCond E s.work) (AnswerStep E))
      ⟨w₀, w₀.comm.uart, fun _ => 0, []⟩ es s) : FreshAnswers E.config s := by
  have hstep : ∀ s e s', AnswerInv E.config s →
      Guarded (fun s => AnswerCond E s.work) (AnswerStep E) s e s' → AnswerInv E.config s' :=
    fun _ _ _ hs hg => AnswerStep.inv hs hg.1 hg.2
  have hnone : ∀ k : AnswerKind, k.awaited w₀.comm.recv = false := fun k => by
    cases k
    · exact hidle.1
    · exact hidle.2
  have hstart : AnswerInv E.config ⟨w₀, w₀.comm.uart, fun _ => 0, []⟩ := by
    refine ⟨h₀.online, ⟨?_, nofun, .nil⟩, ⟨fun h => ?_, fun h => ?_⟩, fun _ => Nat.zero_le _, nofun,
      fun k h => ?_⟩
    · show w₀.comm.recv.window E.config ++ w₀.comm.uart <:+ w₀.comm.uart
      rw [h₀.empty]
      exact List.suffix_refl _
    · exact absurd ((hnone .prompt).symm.trans h) nofun
    · exact absurd ((hnone .ack).symm.trans h) nofun
    · exact absurd ((hnone k).symm.trans h) nofun
  exact (h.inv hstep hstart).law

/-! ## A small program -/

/-- A message is published. Its prompt and its acknowledgement come in two deliveries. -/
def publishWith (prompt ack : List UInt8) : List (WorkEvent queueConfig) :=
  .save oneMsg :: List.replicate 4 workCall ++ [.uart prompt] ++ List.replicate 2 workCall ++
    [.uart ack, workCall]

theorem freshAnswers_of_answerCond_small : ∃ s : AnswerLog,
    s.answers.map (fun a => (a.pos, a.since)) = [(0, 0), (4, 4)] ∧ FreshAnswers queueConfig s := by
  have heval : ((publishWith (CStr.ascii "\r\n> ") (CStr.ascii "+QMTPUBEX:")).foldlM
      (Trace.guard (fun s => AnswerCond (.small queueConfig) s.work)
        (AnswerLog.step (.small queueConfig))) ⟨.reset, [], fun _ => 0, []⟩).map
      (fun s => s.answers.map fun a => (a.pos, a.since)) = some [(0, 0), (4, 4)] := by
    decide +kernel
  obtain ⟨s, hs, heq⟩ := Option.map_eq_some_iff.1 heval
  have hrun := Trace.run_guarded_of_foldlM hs
  exact ⟨s, heq, freshAnswers_of_answerCond (Work.reset_disconnected _) ⟨rfl, rfl⟩ hrun⟩

/-- An acknowledgement that comes before the prompt is taken for that of the payload. -/
theorem freshAnswers_fails : ¬ ∀ (E : CommEnv) (w₀ : Work) (es : List (WorkEvent E.config))
    (s : AnswerLog), Disconnected E.config w₀.comm → w₀.comm.recv.Unchecked →
      Run (AnswerStep E) ⟨w₀, w₀.comm.uart, fun _ => 0, []⟩ es s → FreshAnswers E.config s := by
  intro h
  have heval : ((publishWith (CStr.ascii "+QMTPUBEX:\r\n> ") []).foldlM
      (AnswerLog.step (.small queueConfig)) ⟨.reset, [], fun _ => 0, []⟩).map
      (fun s => s.answers.map fun a => (a.pos, a.since)) = some [(10, 0), (0, 14)] := by
    decide +kernel
  obtain ⟨s, hs, heq⟩ := Option.map_eq_some_iff.1 heval
  have hlaw := h (.small queueConfig) .reset _ s (Work.reset_disconnected _) ⟨rfl, rfl⟩
    (Trace.run_pfun_iff.2 hs)
  have hmem : (0, 14) ∈ s.answers.map fun a => (a.pos, a.since) := by
    rw [heq]
    exact .tail _ (.head _)
  obtain ⟨a, ha, hpos⟩ := List.mem_map.1 hmem
  obtain ⟨hp, hsince⟩ := Prod.mk.inj hpos
  have hle := (hlaw.fresh a ha).1
  omega

end AppXd.Net4g
