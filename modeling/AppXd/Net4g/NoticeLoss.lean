import AppXd.Lib.Tokens
import AppXd.Net4g.Arrivals
import AppXd.Net4g.CmdQueue

/-!
# Notices in a run

The line of a disconnect notice and the banner of a reboot are to be noticed by the call that moves
the head past their end. The log gives every byte its number in the stream that the driver has
received. Bytes come between two calls, and inside a call while it gives a window up. `NoticeCond`
says of a window that is given up that it tells the loss if a notice ends in it or in what comes
meanwhile, of a message head that no notice ends in front of it, and of a command that it is no
notice that reads like a message.
-/

namespace AppXd.Net4g

open CStr (ascii strtok textAt tokens tokensBehind)
open Seq (firstAt OccursAt)
open Trace (Run Guarded PFun)

/-! ## The law -/

/-- Where the notices end that begin at `p`: behind the line end of a disconnect line, and behind
the banner. -/
def noticeEnds (m : ModuleType) (w : List UInt8) (p : Nat) : List Nat :=
  let text := p + (netMqttDisconnectCmdHead m).length
  (if OccursAt (netMqttDisconnectCmdHead m) w p then
    ((firstAt (ascii "\r\n") (w.drop text)).map (text + · + 2)).toList else []) ++
  if OccursAt (ascii "boot.rom") w p then [p + 8] else []

/-- A call: the numbers of the first unread byte before and behind it, what `get_net4G_recv_cmd` and
`module_4g_communication_process` return, and the command that is enqueued. -/
structure NoticeCall where
  before : Nat
  behind : Nat
  recvRet : Nat
  ret : CommRet
  enqueued : Option (List UInt8)

/-- The dequeueing of the command loses the connection. -/
def LosesConnection (E : CommEnv) (bs : List UInt8) : Prop :=
  ∀ (s : Comm) (x : CallInput E.config), s.dequeued E = some (cmdEntry E.config bs) →
    ∃ t, module4gCommunicationProcess E x s = some (.netDisconnect, t)

/-- The call returns 10, so that the connection is lost, or it enqueues the line as a command that
does so. -/
def NoticeCall.Noticed (E : CommEnv) (a : NoticeCall) (line : List UInt8) : Prop :=
  a.recvRet = 10 ∧ a.ret = .netDisconnect ∨ a.enqueued = some line ∧ LosesConnection E line

/-- What happens in a run. While a call gives a window up, the deliveries `a` come in. -/
inductive NoticeEvent (c : Config)
  | uart (bs : List UInt8)
  | save (m : PubMsg c)
  | others (d : Device) (getCellInfoFlag : Bool)
  | call (x : CallInput c) (a : List (List (List UInt8)))

/-- The state, the bytes that the driver has received, and the calls. -/
structure NoticeLog where
  comm : Comm
  stream : List UInt8
  calls : List NoticeCall

namespace NoticeLog

/-- The bytes that no call has dropped yet, in the FIFO and in the driver. -/
def pending (c : Config) (s : NoticeLog) : List UInt8 := s.comm.recv.window c ++ s.comm.uart

/-- The number of the first unread byte. -/
def pos (c : Config) (s : NoticeLog) : Nat := s.stream.length - (s.pending c).length

/-- The log of a call. -/
def call (E : CommEnv) (s : NoticeLog) (a : List (List (List UInt8))) (ret : CommRet) (t : Comm) :
    NoticeLog :=
  let w := s.comm.receivedWhile E a
  let s' := { s with comm := t, stream := s.stream ++ w.came }
  { s' with calls := s.calls ++ [⟨s.pos E.config, s'.pos E.config, w.result.ret, ret,
      s.comm.recv.enqueued E.config⟩] }

def step (E : CommEnv) (s : NoticeLog) : NoticeEvent E.config → Option NoticeLog
  | .uart bs => some { s with comm := s.comm.deliver E.config bs, stream := s.stream ++ bs }
  | .save m => some { s with comm := s.comm.save E.config [m] }
  | .others d flag => some { s with comm := { s.comm with device := d, getCellInfoFlag := flag } }
  | .call x a => (module4gCommunicationProcessWhile E x a s.comm).map fun (ret, t) =>
    s.call E a ret t

end NoticeLog

def NoticeStep (E : CommEnv) : NoticeLog → NoticeEvent E.config → NoticeLog → Prop :=
  PFun (NoticeLog.step E)

/-- The unread bytes are the last ones of the stream, and every notice is noticed by the call that
moves the head past its end. -/
structure NoticesKept (E : CommEnv) (s : NoticeLog) : Prop where
  unread : s.pending E.config <:+ s.stream
  noticed : ∀ a ∈ s.calls, ∀ p, ∀ e ∈ noticeEnds E.config.moduleType s.stream p,
    a.before < e → e ≤ a.behind → a.Noticed E ((s.stream.drop p).take (e - p))

/-! ## The condition -/

/-- The number of unread bytes that step 3 takes. -/
def Recv.cmdLen (c : Config) (r : Recv) : Nat :=
  Ring.unread c.uartRecvFifoSize r.fifo.head r.cmdTailIndex

/-- The command fits its buffer, its text up to the first comma is the head of a disconnect line,
and behind the head of a message it has fewer fields than a message. -/
structure TellsLoss (c : Config) (bs : List UInt8) : Prop where
  room : bs.length ≤ c.uartRecvCmdSize
  ended : 0 ∈ (cmdEntry c bs).qData
  head : (textAt (cmdEntry c bs).qData 0).takeWhile (· ≠ 44) =
    netMqttDisconnectCmdHead c.moduleType
  few : (tokens 44 ((textAt (cmdEntry c bs).qData 0).drop (ctrlHead c).length)).length <
    topicKeyNum c.moduleType

/-- The FIFO as the branch on a missing head finds it, with the deliveries to come. -/
def Comm.incoming (s : Comm) (a : List (List (List UInt8))) : Incoming :=
  ⟨s.recv.fifo, s.registered, s.uart, a, true⟩

/-- The number of the first byte that a call cannot drop. -/
def NoticeLog.reach (c : Config) (s : NoticeLog) (a : List (List (List UInt8))) : Nat :=
  s.pos c + (s.comm.recv.window c).length +
    if s.comm.registered then a.flatten.flatten.length else 0

/-- A notice stands from `p` to `e` in the stream. If the window is given up, it tells the loss. The
search of the message head is right, and the head stands before the end of the notice. A command
ends before it, or it is the notice and tells the loss. -/
structure NoticeSafe (c : Config) (s : NoticeLog) (a : List (List (List UInt8))) (p e : Nat) :
    Prop where
  givenUp : Discards c s.comm.recv → s.comm.recv.window c ≠ [] → (s.comm.incoming a).Tells c
  right : s.comm.recv.cmdGetStep = 1 → SearchRight c s.comm.recv.fifo (ctrlHead c)
  skipped : s.comm.recv.cmdGetStep = 1 →
    ∀ n ∈ firstAt (ctrlHead c) (s.comm.recv.window c), s.pos c + n < e
  taken : s.comm.recv.cmdGetStep = 3 → s.pos c + s.comm.recv.cmdLen c < e ∨
    p = s.pos c ∧ e = s.pos c + s.comm.recv.cmdLen c ∧
      s.comm.recv.cmdHeadIndex = s.comm.recv.fifo.head ∧
        TellsLoss c (((s.stream ++ a.flatten.flatten).drop p).take (e - p))

/-- A call without check flags is right about the notices that end among the unread bytes or in what
comes. -/
def NoticesSafe (c : Config) (s : NoticeLog) (a : List (List (List UInt8))) : Prop :=
  s.comm.recv.Unchecked → ∀ p < (s.stream ++ a.flatten.flatten).length,
    ∀ e ∈ noticeEnds c.moduleType (s.stream ++ a.flatten.flatten) p,
      s.pos c < e ∧ e ≤ s.reach c a → NoticeSafe c s a p e

/-- Deliveries fit when they come. -/
def DeliveryFits (E : CommEnv) (s : NoticeLog) : NoticeEvent E.config → Prop
  | .uart bs => s.comm.registered = true → Fits E.config s.comm.recv.fifo bs
  | .call _ a => (s.comm.receivedWhile E a).fits = true
  | _ => True

/-- Deliveries fit, the end of a command is found right, and the call is right about the notices. -/
def NoticeCond (E : CommEnv) (s : NoticeLog) (e : NoticeEvent E.config) : Prop :=
  DeliveryFits E s e ∧ match e with
    | .call _ a => TailCond E.config s.comm.recv ∧ NoticesSafe E.config s a
    | _ => True

instance (c : Config) (bs : List UInt8) : Decidable (TellsLoss c bs) :=
  decidable_of_iff (bs.length ≤ c.uartRecvCmdSize ∧ 0 ∈ (cmdEntry c bs).qData ∧
      (textAt (cmdEntry c bs).qData 0).takeWhile (· ≠ 44) =
        netMqttDisconnectCmdHead c.moduleType ∧
      (tokens 44 ((textAt (cmdEntry c bs).qData 0).drop (ctrlHead c).length)).length <
        topicKeyNum c.moduleType)
    ⟨fun h => ⟨h.1, h.2.1, h.2.2.1, h.2.2.2⟩, fun h => ⟨h.room, h.ended, h.head, h.few⟩⟩

instance (c : Config) (s : NoticeLog) (a : List (List (List UInt8))) (p e : Nat) :
    Decidable (NoticeSafe c s a p e) :=
  decidable_of_iff ((Discards c s.comm.recv → s.comm.recv.window c ≠ [] →
        (s.comm.incoming a).Tells c) ∧
      (s.comm.recv.cmdGetStep = 1 → SearchRight c s.comm.recv.fifo (ctrlHead c)) ∧
      (s.comm.recv.cmdGetStep = 1 →
        ∀ n ∈ firstAt (ctrlHead c) (s.comm.recv.window c), s.pos c + n < e) ∧
      (s.comm.recv.cmdGetStep = 3 → s.pos c + s.comm.recv.cmdLen c < e ∨
        p = s.pos c ∧ e = s.pos c + s.comm.recv.cmdLen c ∧
          s.comm.recv.cmdHeadIndex = s.comm.recv.fifo.head ∧
            TellsLoss c (((s.stream ++ a.flatten.flatten).drop p).take (e - p))))
    ⟨fun h => ⟨h.1, h.2.1, h.2.2.1, h.2.2.2⟩, fun h => ⟨h.givenUp, h.right, h.skipped, h.taken⟩⟩

instance (c : Config) (s : NoticeLog) (a : List (List (List UInt8))) :
    Decidable (NoticesSafe c s a) := by
  unfold NoticesSafe
  infer_instance

instance (E : CommEnv) (s : NoticeLog) : ∀ e, Decidable (DeliveryFits E s e)
  | .uart bs => inferInstanceAs (Decidable (_ → Fits E.config s.comm.recv.fifo bs))
  | .call _ _ => inferInstanceAs (Decidable (_ = true))
  | .save _ => .isTrue trivial
  | .others _ _ => .isTrue trivial

instance (E : CommEnv) (s : NoticeLog) : ∀ e, Decidable (NoticeCond E s e)
  | .uart bs => inferInstanceAs (Decidable (DeliveryFits E s (.uart bs) ∧ True))
  | .call x a => inferInstanceAs (Decidable (DeliveryFits E s (.call x a) ∧ _ ∧ _))
  | .save _ => .isTrue ⟨trivial, trivial⟩
  | .others _ _ => .isTrue ⟨trivial, trivial⟩

/-! ## Notices in a growing stream -/

section
variable {m : ModuleType} {w : List UInt8} {p e : Nat}

theorem mem_noticeEnds : e ∈ noticeEnds m w p ↔
    OccursAt (netMqttDisconnectCmdHead m) w p ∧
        (∃ t, firstAt (ascii "\r\n") (w.drop (p + (netMqttDisconnectCmdHead m).length)) = some t ∧
          p + (netMqttDisconnectCmdHead m).length + t + 2 = e) ∨
      OccursAt (ascii "boot.rom") w p ∧ e = p + 8 := by
  unfold noticeEnds
  simp only [List.mem_append]
  refine or_congr ?_ ?_
  · split
    · rename_i ho
      rw [Option.mem_toList, Option.map_eq_some_iff]
      exact (and_iff_right ho).symm
    · rename_i ho
      exact iff_of_false List.not_mem_nil fun h => ho h.1
  · split
    · rename_i ho
      rw [List.mem_singleton]
      exact (and_iff_right ho).symm
    · rename_i ho
      exact iff_of_false List.not_mem_nil fun h => ho h.1

theorem rebootText_length : (ascii "boot.rom").length = 8 := by decide

theorem lineEnd_ne_nil : ascii "\r\n" ≠ [] := by decide

theorem lineEnd_length : (ascii "\r\n").length = 2 := by decide

/-- A notice is not empty and lies in the stream. -/
theorem noticeEnds_le (h : e ∈ noticeEnds m w p) : p < e ∧ e ≤ w.length := by
  rcases mem_noticeEnds.1 h with ⟨-, t, ht, rfl⟩ | ⟨ho, rfl⟩
  · have hle := Seq.firstAt_le_length ht lineEnd_ne_nil
    rw [lineEnd_length, List.length_drop] at hle
    omega
  · have hle := ho.le_length (List.ne_nil_of_length_pos (by rw [rebootText_length]; decide))
    rw [rebootText_length] at hle
    omega

/-- What arrives behind a notice does not matter for it. -/
theorem noticeEnds_append {v : List UInt8} (h : e ∈ noticeEnds m (w ++ v) p) (he : e ≤ w.length) :
    e ∈ noticeEnds m w p := by
  rcases mem_noticeEnds.1 h with ⟨ho, t, ht, rfl⟩ | ⟨ho, rfl⟩
  · refine mem_noticeEnds.2 (.inl ⟨(Seq.occursAt_append (by omega)).1 ho, t, ?_, rfl⟩)
    obtain ⟨hot, -, hfirst⟩ := Seq.firstAt_eq_some_iff.1 ht
    rw [List.drop_append_of_le_length (by omega)] at hot hfirst
    have hlen : (w.drop (p + (netMqttDisconnectCmdHead m).length)).length =
        w.length - (p + (netMqttDisconnectCmdHead m).length) := List.length_drop
    refine Seq.firstAt_eq_some lineEnd_ne_nil ?_ fun q hq hoq => hfirst q hq (hoq.append v)
    exact (Seq.occursAt_append (by rw [lineEnd_length]; omega)).1 hot
  · exact mem_noticeEnds.2 (.inr ⟨(Seq.occursAt_append (by rwa [rebootText_length])).1 ho, rfl⟩)

theorem noticeEnds_mono (v : List UInt8) (h : e ∈ noticeEnds m w p) :
    e ∈ noticeEnds m (w ++ v) p := by
  rcases mem_noticeEnds.1 h with ⟨ho, t, ht, rfl⟩ | ⟨ho, rfl⟩
  · refine mem_noticeEnds.2 (.inl ⟨ho.append v, t, ?_, rfl⟩)
    have hle := (noticeEnds_le h).2
    rw [List.drop_append_of_le_length (by omega)]
    exact Seq.firstAt_append lineEnd_ne_nil ht v
  · exact mem_noticeEnds.2 (.inr ⟨ho.append v, rfl⟩)

/-- The bytes of a notice stay the same. -/
theorem line_append (v : List UInt8) (h : p < e ∧ e ≤ w.length) :
    ((w ++ v).drop p).take (e - p) = (w.drop p).take (e - p) := by
  rw [List.drop_append_of_le_length (by omega), List.take_append_of_le_length]
  rw [List.length_drop]
  omega

end

/-! ## A command that tells the loss -/

section
variable {E : CommEnv} {bs : List UInt8}

/-- An entry that is dequeued is the one at the head of the queue. -/
theorem Comm.dequeued_eq_some {s : Comm} {q : CmdQ} (h : s.dequeued E = some q) :
    (s.received E).ret ≠ 10 ∧ s.communicateStep = 1 ∧
      (s.received E).recv.qHead ≠ (s.received E).recv.qTail ∧
      (s.received E).recv.cmdQ (s.received E).recv.qHead = q := by
  unfold dequeued at h
  simp only at h
  split at h
  · rename_i hc
    exact ⟨hc.1, hc.2.1, hc.2.2, Option.some.inj h⟩
  · cases h

/-- Where fewer tokens are left than are asked for, the call counts them, and the bytes in front of
them stay. -/
theorem keywordsPbLoop_few {keyNum n j : Nat} {a s w : List UInt8} {k : PbKeywords} (h0 : 0 ∉ s)
    (hfew : j + (tokens 44 s).length < keyNum) (hk : keyNum < 256)
    (hn : (tokens 44 s).length < n) :
    ∃ buf, keywordsPbLoop keyNum n (a ++ (s ++ 0 :: w)) a.length j k = some (k, buf) ∧
      buf.take a.length = a := by
  rw [← CStr.tokensBehind_fst 44 w s, List.length_map] at hfew hn
  induction n generalizing j a s with
  | zero => exact absurd hn (Nat.not_lt_zero _)
  | succ n ih =>
    have hcall := CStr.strtok_tokensBehind (d := 44) (a := a) (w := w) (by decide) h0
    rw [keywordsPbLoop]
    generalize hs : strtok 44 (a ++ (s ++ 0 :: w)) a.length = r at hcall
    obtain ⟨o, buf, pos⟩ := r
    obtain ⟨htake, hle⟩ := CStr.strtok_take hs
    rw [List.take_left] at htake
    cases hfs : tokensBehind 44 w s with
    | nil =>
      rw [hfs] at hcall
      obtain rfl : o = none := hcall
      exact ⟨buf, rfl, htake⟩
    | cons f fs =>
      rw [hfs] at hcall hfew hn
      obtain ⟨p, a', s', heq, -, -, -, h0', rfl, -⟩ := hcall
      cases heq
      rw [List.length_cons] at hfew hn
      simp only
      rw [Nat.mod_eq_of_lt (by omega), if_neg (by omega)]
      obtain ⟨buf', hloop, hkeep⟩ := @ih (j + 1) a' s' h0' (by omega) (by omega)
      refine ⟨buf', hloop, ?_⟩
      rw [List.take_append_of_le_length hle] at htake
      calc
        buf'.take a.length = (buf'.take a'.length).take a.length := by
          rw [List.take_take, Nat.min_eq_left hle]
        _ = a := by rw [hkeep, htake]

theorem toldDisconnect_of_take {m : ModuleType} {buf : List UInt8}
    (h : buf.take ((netMqttDisconnectCmdHead m).length + 1) = netMqttDisconnectCmdHead m ++ [0]) :
    Comm.ToldDisconnect m buf := by
  have h0 : 0 ∉ netMqttDisconnectCmdHead m := by cases m <;> decide
  have htext := @CStr.textAt_append [] _ (buf.drop ((netMqttDisconnectCmdHead m).length + 1)) h0
  have hbuf := List.take_append_drop ((netMqttDisconnectCmdHead m).length + 1) buf
  rw [h, List.append_assoc] at hbuf
  rw [List.nil_append, show 0 :: buf.drop _ = [0] ++ buf.drop _ from rfl, hbuf] at htext
  unfold Comm.ToldDisconnect
  rw [show textAt buf 0 = _ from htext]
  exact (CStr.strcmp_eq_zero h0 h0).2 rfl

/-- A head without a comma goes on where the head of a message ends. -/
theorem disconnectHead_eq {m : ModuleType} (h : 44 ∉ netMqttDisconnectCmdHead m) :
    netMqttDisconnectCmdHead m = netMqttCtrlCmdHead m ++ ascii " STATS" := by
  cases m <;> revert h <;> decide

theorem TellsLoss.exists_rest {c : Config} (h : TellsLoss c bs) : ∃ rest w,
    (cmdEntry c bs).qData =
        netMqttCtrlCmdHead c.moduleType ++ (ascii " STATS" ++ (rest ++ 0 :: w)) ∧
      netMqttDisconnectCmdHead c.moduleType = netMqttCtrlCmdHead c.moduleType ++ ascii " STATS" ∧
      0 ∉ rest ∧ (tokens 44 (ascii " STATS" ++ rest)).length < topicKeyNum c.moduleType ∧
      (rest = [] ∨ ∃ behind, rest = 44 :: behind) := by
  obtain ⟨text, w, hbuf, h0⟩ := List.eq_append_cons_of_mem h.ended
  have htext : textAt (cmdEntry c bs).qData 0 = text := by
    rw [hbuf]
    exact @CStr.textAt_append [] text w h0
  have hhead := h.head
  have hfew := h.few
  rw [htext] at hhead hfew
  have hdisc := disconnectHead_eq (m := c.moduleType) fun h44 => by
    rw [← hhead] at h44
    have hne := List.mem_takeWhile_imp h44
    exact absurd hne (by decide)
  have hsplit := List.takeWhile_append_dropWhile (p := (· ≠ (44 : UInt8))) (l := text)
  have hrest := List.head?_dropWhile_not (· ≠ (44 : UInt8)) text
  rw [hhead, hdisc] at hsplit
  generalize text.dropWhile (· ≠ 44) = rest at hsplit hrest
  subst hsplit
  rw [List.append_assoc] at hbuf h0 hfew
  rw [ctrlHead, List.drop_left] at hfew
  refine ⟨rest, w, by rw [hbuf, List.append_assoc], hdisc, ?_, hfew, ?_⟩
  · intro hmem
    exact h0 (List.mem_append_right _ (List.mem_append_right _ hmem))
  · cases rest with
    | nil => exact .inl rfl
    | cons b behind =>
      have hb : b = 44 := by simpa using hrest
      exact .inr ⟨behind, hb ▸ rfl⟩

/-- The fields of such a command are missing, and what is left of it is the head of the line. -/
theorem TellsLoss.fields {c : Config} (h : TellsLoss c bs) : ∃ k buf,
    getAtRspKeywordsPb (cmdEntry c bs).qData (netMqttCtrlCmdHead c.moduleType)
        (topicKeyNum c.moduleType) = some (k, buf) ∧ k.ret = false ∧
      Comm.ToldDisconnect c.moduleType buf := by
  obtain ⟨rest, w, hbuf, hdisc, h0, hfew, hrest⟩ := h.exists_rest
  have hkey := Notification.topicKeyNum_lt c.moduleType
  have htext : ascii " STATS" ≠ [] ∧ 44 ∉ ascii " STATS" ∧ 0 ∉ ascii " STATS" := by decide
  obtain ⟨n, hn⟩ : ∃ n, (cmdEntry c bs).qData.length = n + 4 :=
    ⟨(cmdEntry c bs).qData.length - 4, by rw [hbuf]; simp [ascii]; omega⟩
  unfold getAtRspKeywordsPb
  rw [hn, hbuf]
  generalize netMqttCtrlCmdHead c.moduleType = a at hdisc ⊢
  have htold : ∀ buf : List UInt8, buf.take (a ++ (ascii " STATS" ++ [0])).length =
      a ++ (ascii " STATS" ++ [0]) → Comm.ToldDisconnect c.moduleType buf := fun buf h => by
    refine toldDisconnect_of_take ?_
    rw [hdisc, List.append_assoc, ← h]
    simp [Nat.add_assoc]
  rcases hrest with rfl | ⟨behind, rfl⟩
  · -- the text ends behind the head
    have hstep := @CStr.strtok_token 44 a _ w 0 (.inr rfl) htext.1 htext.2.1 htext.2.2
    have hend :
        (a ++ (ascii " STATS" ++ 0 :: w)).getD (a.length + (ascii " STATS").length) 0 = 0 := by
      rw [← List.append_assoc, ← List.length_append, List.getD_append_right _ _ _ _ (Nat.le_refl _),
        Nat.sub_self]
      rfl
    rw [if_pos rfl] at hstep
    rw [List.append_nil, CStr.tokens_token htext.1 htext.2.1, List.length_singleton] at hfew
    rw [List.nil_append, keywordsPbLoop, hstep]
    simp only
    rw [Nat.mod_eq_of_lt (by decide), if_neg (by omega), keywordsPbLoop,
      CStr.strtok_nul (by decide) hend]
    refine ⟨_, _, rfl, rfl, htold _ ?_⟩
    have hassoc : a ++ (ascii " STATS" ++ 0 :: w) = a ++ (ascii " STATS" ++ [0]) ++ w := by simp
    rw [hassoc, List.take_left]
  · have hstep := @CStr.strtok_token 44 a _ (behind ++ 0 :: w) 44 (.inl rfl) htext.1 htext.2.1
      htext.2.2
    rw [if_neg (by decide)] at hstep
    rw [CStr.tokens_token_append htext.1 htext.2.1, List.length_cons] at hfew
    have hassoc : a ++ (ascii " STATS" ++ 0 :: (behind ++ 0 :: w)) =
        a ++ (ascii " STATS" ++ [0]) ++ (behind ++ 0 :: w) := by simp
    have hpos : a.length + (ascii " STATS").length + 1 = (a ++ (ascii " STATS" ++ [0])).length := by
      simp [Nat.add_assoc]
    have hbehind : 0 ∉ behind := fun hmem => h0 (List.mem_cons_of_mem _ hmem)
    obtain ⟨buf, hloop, hkeep⟩ := @keywordsPbLoop_few (topicKeyNum c.moduleType) (n + 4) 1
      (a ++ (ascii " STATS" ++ [0])) behind w .clear hbehind (by omega) (by omega) (by omega)
    rw [List.cons_append, keywordsPbLoop, hstep]
    simp only
    rw [Nat.mod_eq_of_lt (by decide), if_neg (by omega), hassoc, hpos]
    exact ⟨_, _, hloop, rfl, htold _ hkeep⟩

/-- A command that tells the loss loses the connection when it is dequeued. -/
theorem TellsLoss.losesConnection (h : TellsLoss E.config bs) : LosesConnection E bs := by
  obtain ⟨k, buf, hfields, hk, htold⟩ := h.fields
  intro s x hdeq
  obtain ⟨h10, h1, hne, hhead⟩ := Comm.dequeued_eq_some hdeq
  have hstep : (s.entered E x).communicateStep = 1 :=
    Comm.entered_waited.communicateStep.trans h1
  have hentry : (s.entered E x).headCmd = cmdEntry E.config bs := by
    unfold Comm.headCmd
    rw [Comm.entered_recv, hhead]
  unfold module4gCommunicationProcess Comm.switch
  rw [if_neg h10, hstep]
  simp only
  unfold Comm.recvStep
  rw [Comm.entered_recv, if_pos hne]
  unfold Comm.handleCmd
  simp only [hentry, hfields, hk, Bool.false_eq_true, if_false]
  exact ⟨_, if_pos htold⟩

end

/-! ## What a call drops -/

/-- The number of unread bytes in front of the message head that step 1 finds. -/
def Recv.headAt (c : Config) (r : Recv) : Option Nat :=
  let i := searchWindow c r.fifo (ctrlHead c) r.cmdHeadIndex
  if r.cmdGetStep = 1 ∧ i.found then some (Ring.unread c.uartRecvFifoSize r.fifo.head i.index)
  else none

/-- The number of unread bytes that a call drops. -/
def Recv.passed (c : Config) (r : Recv) : Nat :=
  if r.Unchecked then
    if GivesUp c r then (r.window c).length
    else if r.cmdGetStep = 3 then r.cmdLen c
    else (r.headAt c).getD 0
  else 0

section
variable {c : Config} {r : Recv} {info : SignalInfo}

/-- How far a head has moved is seen from the indices. -/
theorem Moved.unread {f f' : Fifo} {k : Nat} (h : Moved c f f' k)
    (hh : f.head ≤ c.uartRecvFifoSize) :
    Ring.unread c.uartRecvFifoSize f.head f'.head = k := by
  have hle := h.le
  have hhead := h.head
  have hun := Ring.unread_cases c.uartRecvFifoSize f.head f.tail
  have hun' := Ring.unread_cases c.uartRecvFifoSize f.head f'.head
  omega

theorem GivesUp.step_le (h : GivesUp c r) : r.cmdGetStep ≤ 1 := by
  rcases h with ⟨h0, -⟩ | ⟨h1, -⟩
  · rw [h0]
    exact Nat.zero_le 1
  · exact h1.le

theorem Recv.headAt_eq_some {n : Nat} (h : r.headAt c = some n) :
    r.cmdGetStep = 1 ∧ (searchWindow c r.fifo (ctrlHead c) r.cmdHeadIndex).found = true := by
  unfold Recv.headAt at h
  simp only at h
  split at h
  · assumption
  · cases h

/-- A window with a message head is not given up. -/
theorem Recv.not_givesUp_of_headAt {n : Nat} (h : r.headAt c = some n) : ¬ GivesUp c r := by
  obtain ⟨h1, hfound⟩ := Recv.headAt_eq_some h
  rintro (⟨h0, -⟩ | ⟨-, hnone⟩)
  · rw [h0] at h1
    cases h1
  · have hsame := (getKeyDataIndex_found r.fifo.data (ctrlHead c) c r.fifo.head r.fifo.tail
      r.cmdHeadIndex 0).symm.trans hfound
    exact absurd (hnone.symm.trans hsame) Bool.false_ne_true

theorem Recv.passed_of_givesUp (hu : r.Unchecked) (h : GivesUp c r) :
    r.passed c = (r.window c).length := by
  unfold Recv.passed
  rw [if_pos hu, if_pos h]

theorem Recv.passed_of_headAt (hu : r.Unchecked) {n : Nat} (h : r.headAt c = some n) :
    r.passed c = n := by
  have h3 : r.cmdGetStep ≠ 3 := by
    rw [(Recv.headAt_eq_some h).1]
    decide
  unfold Recv.passed
  rw [if_pos hu, if_neg (Recv.not_givesUp_of_headAt h), if_neg h3, h]
  rfl

theorem Recv.passed_of_cmd (hu : r.Unchecked) (h3 : r.cmdGetStep = 3) :
    r.passed c = r.cmdLen c := by
  have hnot : ¬ GivesUp c r := fun h => by
    have := h.step_le
    omega
  unfold Recv.passed
  rw [if_pos hu, if_neg hnot, if_pos h3]

/-- Otherwise the head stays. -/
theorem Recv.passed_eq_zero (hup : ¬ GivesUp c r) (h3 : r.cmdGetStep ≠ 3)
    (hat : r.headAt c = none) :
    r.passed c = 0 := by
  unfold Recv.passed
  rw [if_neg hup, if_neg h3, hat]
  exact ite_self 0

theorem Recv.headAt_none (h1 : r.cmdGetStep ≠ 1) : r.headAt c = none :=
  if_neg fun h => h1 h.1

/-- The head that step 1 finds is the first one in the window if the search is right. -/
theorem Recv.headAt_firstAt (h : Ringed c r) (hright : SearchRight c r.fifo (ctrlHead c)) {n : Nat}
    (hn : r.headAt c = some n) : firstAt (ctrlHead c) (r.window c) = some n := by
  obtain ⟨h1, hfound⟩ := Recv.headAt_eq_some hn
  have hwf := h.wf (h.begun (by omega))
  have hfirst := hright.found (keyword_ctrlCmdHead _) hwf r.cmdHeadIndex
  cases hw : firstAt (ctrlHead c) (r.window c) with
  | none => exact absurd (hfound.symm.trans (hfirst.of_none hw)) nofun
  | some k =>
    have hlen := Seq.firstAt_le_length hw (keyword_ctrlCmdHead c.moduleType).ne_nil
    rw [Recv.window, Fifo.length_window] at hlen
    have hpos : 0 < (ctrlHead c).length := (keyword_ctrlCmdHead c.moduleType).length_pos
    unfold Recv.headAt at hn
    simp only [if_pos (show r.cmdGetStep = 1 ∧ _ from ⟨h1, hfound⟩), (hfirst.of_some hw).2] at hn
    rw [Ring.unread_wrap h.head_le h.tail_lt (by omega)] at hn
    exact hn

/-- The bytes that step 3 takes from the head on. -/
theorem cmdBytes_eq_take (h : Ringed c r) (h3 : r.cmdGetStep = 3)
    (hhead : r.cmdHeadIndex = r.fifo.head) (hpos : 0 < r.cmdLen c) :
    cmdBytes c r = (r.window c).take (r.cmdLen c) := by
  obtain ⟨k, hm⟩ := h.ended h3
  have hk : r.cmdLen c = k := hm.unread h.head_le
  rw [hk] at hpos ⊢
  have hhead_le := h.head_le
  have htail := h.tail_lt
  have hend : r.cmdTailIndex ≤ c.uartRecvFifoSize := hm.head_le
  have hidx : r.cmdTailIndex = r.fifo.head + k ∨
      r.cmdTailIndex + c.uartRecvFifoSize = r.fifo.head + k ∧ r.fifo.tail < r.fifo.head := hm.head
  have hle : k ≤ Ring.unread c.uartRecvFifoSize r.fifo.head r.fifo.tail := hm.le
  have hun := Ring.unread_cases c.uartRecvFifoSize r.fifo.head r.fifo.tail
  rw [cmdBytes_eq_window (by omega), hhead]
  exact Ring.window_take hhead_le hle hend hidx

/-- The window that is given up is empty behind the call. -/
theorem headFail_window (info : SignalInfo) (i hi : Nat) :
    (headFail c { r with cmdHeadIndex := i, cmdGetStep := 0 } info hi).recv.window c = [] := by
  obtain ⟨f, -, hrecv⟩ := headFail_recv (c := c) { r with cmdHeadIndex := i, cmdGetStep := 0 }
    info hi
  rw [hrecv]
  exact Fifo.window_empty c f

/-- The unread bytes that are left when those that the call drops are gone. -/
def Leaves (c : Config) (r : Recv) (w : List UInt8) : Prop :=
  w = (r.window c).drop (r.passed c) ∧ r.passed c ≤ (r.window c).length

theorem Leaves.kept (h : r.passed c = 0) : Leaves c r (r.window c) := by
  unfold Leaves
  rw [h]
  exact ⟨rfl, Nat.zero_le _⟩

theorem Leaves.nil (hu : r.Unchecked) (hup : GivesUp c r) : Leaves c r [] := by
  unfold Leaves
  rw [Recv.passed_of_givesUp hu hup]
  exact ⟨List.drop_length.symm, Nat.le_refl _⟩

theorem Leaves.moved {f' : Fifo} {k : Nat} (h : Ringed c r) (hk : r.passed c = k)
    (hm : Moved c r.fifo f' k) :
    Leaves c r (Ring.window r.fifo.data c.uartRecvFifoSize f'.head f'.tail) := by
  have hunread : (r.window c).length =
      Ring.unread c.uartRecvFifoSize r.fifo.head r.fifo.tail := Fifo.length_window ..
  unfold Leaves
  rw [hk, hunread]
  exact ⟨hm.window h.head_le h.tail_lt r.fifo.data, hm.le⟩

/-- In steps 2, 4 and later the head stays. -/
theorem Recv.passed_of_step (h1 : 1 < r.cmdGetStep) (h3 : r.cmdGetStep ≠ 3) : r.passed c = 0 :=
  Recv.passed_eq_zero (fun hup => absurd hup.step_le (Nat.not_le.2 h1)) h3
    (Recv.headAt_none (Nat.ne_of_gt h1))

/-- Step 0. -/
theorem recvPath_leaves_start (hu : r.Unchecked) (hstep : r.cmdGetStep = 0) :
    Leaves c r ((recvPath c r info).recv.window c) := by
  have hzero : ¬ GivesUp c r → r.passed c = 0 := fun hup =>
    Recv.passed_eq_zero hup (by omega) (Recv.headAt_none (by omega))
  rw [recvPath, recvCmdFromFifo_zero hstep]
  by_cases hnil : r.window c = []
  · rw [if_pos hnil]
    refine .kept (hzero ?_)
    rintro (⟨-, hne, -⟩ | ⟨h1, -⟩)
    · exact hne hnil
    · omega
  rw [if_neg hnil]
  by_cases hlen : (ctrlHead c).length ≤ (r.window c).length
  · rw [if_pos hlen]
    refine .kept (hzero ?_)
    rintro (⟨-, -, hlt⟩ | ⟨h1, -⟩)
    · omega
    · omega
  · rw [if_neg hlen]
    have hempty := headFail_window (c := c) (r := r) info r.cmdHeadIndex 0
    rw [show { r with cmdHeadIndex := r.cmdHeadIndex, cmdGetStep := 0 } = r by
      rw [← hstep]] at hempty
    have hleft := Leaves.nil hu (.inl ⟨hstep, hnil, Nat.lt_of_not_le hlen⟩)
    rw [← hempty] at hleft
    exact hleft

/-- Step 1. -/
theorem recvPath_leaves_head (h : Ringed c r) (hu : r.Unchecked) (hstep : r.cmdGetStep = 1) :
    Leaves c r ((recvPath c r info).recv.window c) := by
  have hwin := h.begun (by rw [hstep]; decide)
  have hinside := getKeyDataIndex_inside (keyword_ctrlCmdHead c.moduleType) h.head_le h.tail_lt
    (h.data_tail hwin) r.cmdHeadIndex
  rw [recvPath, recvCmdFromFifo, hstep]
  simp only
  cases hfound : (getKeyDataIndex c r.fifo.data r.fifo.head r.fifo.tail (ctrlHead c)
    r.cmdHeadIndex).found with
  | true =>
    obtain ⟨n, hn, hindex⟩ := hinside hfound
    have hat : r.headAt c = some n := by
      unfold Recv.headAt searchWindow
      rw [if_pos ⟨hstep, hfound⟩, hindex, Ring.unread_wrap h.head_le h.tail_lt hn]
    simp only [if_true, hindex]
    exact .moved h (Recv.passed_of_headAt hu hat) (Moved.inside h.head_le h.tail_lt hn)
  | false =>
    have hup : GivesUp c r := .inr ⟨hstep, (getKeyDataIndex_found _ _ c _ _ _ _).trans hfound⟩
    simp only [Bool.false_eq_true, if_false]
    have hleft := Leaves.nil hu hup
    rw [← headFail_window info _ _] at hleft
    exact hleft

theorem recvPath_leaves (h : Ringed c r) (hu : r.Unchecked) :
    Leaves c r ((recvPath c r info).recv.window c) := by
  obtain hstep | hstep | hstep | hstep | ⟨n, hstep⟩ := cmdGetStep_cases r.cmdGetStep
  · exact recvPath_leaves_start hu hstep
  · exact recvPath_leaves_head h hu hstep
  · have hzero : r.passed c = 0 := Recv.passed_of_step (by omega) (by omega)
    rw [recvPath, recvCmdFromFifo, hstep]
    simp only
    cases (getKeyDataIndex c r.fifo.data r.fifo.head r.fifo.tail netMqttCtrlCmdTail
      r.cmdTailIndex).found with
    | true => exact .kept hzero
    | false => exact .kept hzero
  · obtain ⟨k, hmoved⟩ := h.ended hstep
    have hlen : r.cmdLen c = k := hmoved.unread h.head_le
    have hpassed := (Recv.passed_of_cmd (c := c) hu hstep).trans hlen
    rw [recvPath, recvCmdFromFifo, hstep]
    exact .moved h hpassed hmoved
  · rw [recvPath, recvCmdFromFifo, hstep]
    exact .kept (Recv.passed_of_step (by omega) (by omega))

/-- One call. -/
theorem getNet4GRecvCmd_leaves (info : SignalInfo) (h : Ringed c r) :
    Leaves c r ((getNet4GRecvCmd c r info).recv.window c) := by
  by_cases hu : r.Unchecked
  · rw [getNet4GRecvCmd_idle hu.1 hu.2]
    exact recvPath_leaves h hu
  · have hleft := Leaves.kept (c := c) (r := r) (if_neg hu)
    unfold getNet4GRecvCmd
    split
    · simp only
      split <;> exact hleft
    rename_i hm
    split
    · simp only
      split <;> exact hleft
    rename_i ha
    exact absurd ⟨Bool.eq_false_iff.2 hm, Bool.eq_false_iff.2 ha⟩ hu

end

/-! ## Runs -/

/-- The invariant of a run. -/
structure NoticeInv (E : CommEnv) (s : NoticeLog) : Prop where
  ringed : Ringed E.config s.comm.recv
  law : NoticesKept E s
  inside : ∀ a ∈ s.calls, a.behind ≤ s.stream.length

section
variable {E : CommEnv} {s s' : NoticeLog} {e : NoticeEvent E.config} {x : CallInput E.config}
  {a : List (List (List UInt8))} {ret : CommRet} {t : Comm}

/-- The unread bytes are the last ones of the stream. -/
theorem NoticeLog.drop_pos (hs : s.pending E.config <:+ s.stream) :
    s.stream.drop (s.pos E.config) = s.pending E.config :=
  (List.suffix_iff_eq_drop.1 hs).symm

theorem NoticeLog.pos_add (hs : s.pending E.config <:+ s.stream) :
    s.pos E.config + (s.comm.recv.window E.config).length + s.comm.uart.length =
      s.stream.length := by
  have hle := hs.length_le
  have hlen : (s.pending E.config).length = _ := List.length_append
  unfold NoticeLog.pos
  omega

/-- A call that gives the window up drops it with what comes in. -/
theorem NoticeLog.call_givesUp (hr : Ringed E.config s.comm.recv)
    (hs : s.pending E.config <:+ s.stream) (hu : s.comm.recv.Unchecked)
    (hup : GivesUp E.config s.comm.recv) (hfits : (s.comm.receivedWhile E a).fits = true)
    (hcall : module4gCommunicationProcessWhile E x a s.comm = some (ret, t)) :
    (s.call E a ret t).pending E.config <:+ (s.call E a ret t).stream ∧
      (s.call E a ret t).pos E.config ≤ s.reach E.config a ∧ Ringed E.config t.recv := by
  have hin : s.comm.recv.fifo.InRing E.config := ⟨hr.head_le, hr.tail_lt⟩
  obtain ⟨hsame, huart, -⟩ := module4gCommunicationProcessWhile_outcome hu hup hin hfits hcall
  obtain ⟨hd, hcame⟩ : (s.comm.receivedWhile E a).Drops E.config s.comm.registered s.comm.uart ∧
      (s.comm.receivedWhile E a).came = a.flatten.flatten :=
    getNet4GRecvCmdWhile_drops hu hup hin hfits
  have hpending : (s.call E a ret t).pending E.config = (s.comm.receivedWhile E a).uart := by
    show t.recv.window E.config ++ t.uart = _
    rw [hsame.window, huart, hd.empty, List.nil_append]
  refine ⟨?_, ?_, hsame.ringed hd.ringed⟩
  · obtain ⟨pre, hpre⟩ : s.comm.uart <:+ s.stream := (List.suffix_append ..).trans hs
    rw [hpending]
    refine hd.suffix.trans ⟨pre, ?_⟩
    show pre ++ (s.comm.uart ++ _) = s.stream ++ (s.comm.receivedWhile E a).came
    rw [← List.append_assoc, hpre]
  · have hlen := hd.length
    have hpos := NoticeLog.pos_add hs
    have hstream : (s.call E a ret t).stream.length =
        s.stream.length + (s.comm.receivedWhile E a).came.length := List.length_append
    rw [hcame] at hlen hstream
    unfold NoticeLog.reach NoticeLog.pos at *
    rw [hpending, hstream, hlen]
    split <;> omega

/-- A call that does not takes no delivery. -/
theorem NoticeLog.call_kept (hr : Ringed E.config s.comm.recv)
    (hs : s.pending E.config <:+ s.stream)
    (hup : ¬ (s.comm.recv.Unchecked ∧ GivesUp E.config s.comm.recv))
    (hcall : module4gCommunicationProcess E x s.comm = some (ret, t)) :
    (s.call E a ret t).stream = s.stream ∧ (s.call E a ret t).pending E.config <:+ s.stream ∧
      (s.call E a ret t).pos E.config = s.pos E.config + s.comm.recv.passed E.config := by
  have hw : s.comm.receivedWhile E a = _ := getNet4GRecvCmdWhile_kept hup
  have hout := Comm.call_outcome hcall
  obtain ⟨hwin, hle⟩ := getNet4GRecvCmd_leaves s.comm.info hr
  have hstream : (s.call E a ret t).stream = s.stream := by
    show s.stream ++ (s.comm.receivedWhile E a).came = s.stream
    rw [hw, List.append_nil]
  have hpending : (s.call E a ret t).pending E.config =
      (s.pending E.config).drop (s.comm.recv.passed E.config) := by
    show t.recv.window E.config ++ t.uart = (s.comm.recv.window E.config ++ s.comm.uart).drop _
    rw [hout.sameRing.window, hout.uart, List.drop_append_of_le_length hle]
    exact congrArg (· ++ s.comm.uart) hwin
  refine ⟨hstream, hpending ▸ (List.drop_suffix ..).trans hs, ?_⟩
  have hpos := NoticeLog.pos_add hs
  have hlen : (s.pending E.config).length = _ := List.length_append
  unfold NoticeLog.pos at hpos ⊢
  rw [hstream, hpending, List.length_drop]
  omega

/-- A notice that a call passes which gives the window up. -/
theorem noticed_of_givesUp (hr : Ringed E.config s.comm.recv) (hu : s.comm.recv.Unchecked)
    (hup : GivesUp E.config s.comm.recv) (hfits : (s.comm.receivedWhile E a).fits = true)
    {p e : Nat} (hsafe : NoticeSafe E.config s a p e)
    (hcall : module4gCommunicationProcessWhile E x a s.comm = some (ret, t)) :
    (s.comm.receivedWhile E a).result.ret = 10 ∧ ret = .netDisconnect := by
  obtain ⟨-, -, hret⟩ := module4gCommunicationProcessWhile_outcome hu hup
    ⟨hr.head_le, hr.tail_lt⟩ hfits hcall
  have hwin : s.comm.recv.window E.config ≠ [] := by
    rcases hup with ⟨-, hne, -⟩ | ⟨h1, -⟩
    · exact hne
    · exact hr.begun (by omega)
  have hwf := hr.wf hwin
  have hdiscards : Discards E.config s.comm.recv := by
    rcases hup with ⟨h0, -, hlt⟩ | ⟨h1, hnone⟩
    · exact .inl ⟨h0, hlt⟩
    · refine .inr ⟨h1, ?_⟩
      have hfirst := (hsafe.right h1).found (keyword_ctrlCmdHead _) hwf 0
      cases hw : firstAt (ctrlHead E.config) (s.comm.recv.window E.config) with
      | none => rfl
      | some n => exact absurd ((hfirst.of_some hw).1.symm.trans hnone) nofun
  have hten := getNet4GRecvCmdWhile_ten hu hup hwf hfits (hsafe.givenUp hdiscards hwin)
  exact ⟨hten, hret hten⟩

/-- A notice that another call passes is the command that it takes. -/
theorem noticed_of_kept (hr : Ringed E.config s.comm.recv) (hs : s.pending E.config <:+ s.stream)
    (hup : ¬ (s.comm.recv.Unchecked ∧ GivesUp E.config s.comm.recv)) {p e : Nat}
    (he : e ∈ noticeEnds E.config.moduleType s.stream p) (hpos : s.pos E.config < e)
    (hend : e ≤ s.pos E.config + s.comm.recv.passed E.config)
    (hsafe : s.comm.recv.Unchecked → NoticeSafe E.config s a p e) :
    s.comm.recv.enqueued E.config = some ((s.stream.drop p).take (e - p)) ∧
      LosesConnection E ((s.stream.drop p).take (e - p)) := by
  have hu : s.comm.recv.Unchecked := by
    by_contra hu
    have hzero : s.comm.recv.passed E.config = 0 := if_neg hu
    omega
  replace hsafe := hsafe hu
  by_cases h3 : s.comm.recv.cmdGetStep = 3
  · rw [Recv.passed_of_cmd hu h3] at hend
    obtain ⟨hp, he', hhead, htells⟩ := (hsafe.taken h3).resolve_left (Nat.not_lt.2 hend)
    rw [line_append _ (noticeEnds_le he)] at htells
    refine ⟨?_, htells.losesConnection⟩
    have hle := (getNet4GRecvCmd_leaves s.comm.info hr).2
    rw [Recv.passed_of_cmd hu h3] at hle
    have hbytes := cmdBytes_eq_take hr h3 hhead (by omega)
    unfold Recv.enqueued
    rw [if_pos ⟨hu, h3⟩, hbytes, hp, NoticeLog.drop_pos hs, he', Nat.add_sub_cancel_left]
    exact congrArg some (List.take_append_of_le_length hle).symm
  · cases hat : s.comm.recv.headAt E.config with
    | none =>
      rw [Recv.passed_eq_zero (fun h => hup ⟨hu, h⟩) h3 hat] at hend
      omega
    | some n =>
      rw [Recv.passed_of_headAt hu hat] at hend
      have h1 := (Recv.headAt_eq_some hat).1
      have hfirst := Recv.headAt_firstAt hr (hsafe.right h1) hat
      exact absurd (hsafe.skipped h1 n hfirst) (Nat.not_lt.2 hend)

/-- A delivery. -/
theorem NoticeInv.uart (hs : NoticeInv E s) {bs : List UInt8}
    (hfit : s.comm.registered = true → Fits E.config s.comm.recv.fifo bs) :
    NoticeInv E { s with comm := s.comm.deliver E.config bs, stream := s.stream ++ bs } := by
  have hwin : Ringed E.config (s.comm.deliver E.config bs).recv ∧
      (s.comm.deliver E.config bs).recv.window E.config ++ (s.comm.deliver E.config bs).uart =
        s.pending E.config ++ bs := by
    by_cases hreg : s.comm.registered = true
    · exact Comm.deliver_window hs.ringed hreg (hfit hreg)
    · unfold Comm.deliver
      rw [if_neg hreg]
      exact ⟨hs.ringed, (List.append_assoc ..).symm⟩
  refine ⟨hwin.1, ⟨?_, fun a ha p e he hbefore hbehind => ?_⟩, fun a ha => ?_⟩
  · obtain ⟨pre, hpre⟩ := hs.law.unread
    refine ⟨pre, ?_⟩
    show pre ++ (_ ++ _) = _
    rw [hwin.2, ← List.append_assoc, hpre]
  · have hend := hbehind.trans (hs.inside a ha)
    have he' := noticeEnds_append he hend
    show a.Noticed E (((s.stream ++ bs).drop p).take (e - p))
    rw [line_append bs (noticeEnds_le he')]
    exact hs.law.noticed a ha p e he' hbefore hbehind
  · show a.behind ≤ (s.stream ++ bs).length
    rw [List.length_append]
    exact (hs.inside a ha).trans (Nat.le_add_right _ _)

/-- What a call adds to the log. -/
theorem NoticeInv.logged (hs : NoticeInv E s) (hring : Ringed E.config t.recv)
    (hunread : (s.call E a ret t).pending E.config <:+ (s.call E a ret t).stream)
    (hnew : ∀ p, ∀ e ∈ noticeEnds E.config.moduleType (s.call E a ret t).stream p,
      s.pos E.config < e → e ≤ (s.call E a ret t).pos E.config →
        NoticeCall.Noticed E ⟨s.pos E.config, (s.call E a ret t).pos E.config,
          (s.comm.receivedWhile E a).result.ret, ret, s.comm.recv.enqueued E.config⟩
          (((s.call E a ret t).stream.drop p).take (e - p))) :
    NoticeInv E (s.call E a ret t) := by
  refine ⟨hring, ⟨hunread, fun c hc p e he hbefore hbehind => ?_⟩, fun c hc => ?_⟩
  · rcases List.mem_append.1 hc with hc | hc
    · have he' := noticeEnds_append he (hbehind.trans (hs.inside c hc))
      show c.Noticed E (((s.stream ++ _).drop p).take (e - p))
      rw [line_append _ (noticeEnds_le he')]
      exact hs.law.noticed c hc p e he' hbefore hbehind
    · cases List.mem_singleton.1 hc
      exact hnew p e he hbefore hbehind
  · rcases List.mem_append.1 hc with hc | hc
    · refine (hs.inside c hc).trans ?_
      show s.stream.length ≤ (s.stream ++ _).length
      rw [List.length_append]
      exact Nat.le_add_right _ _
    · cases List.mem_singleton.1 hc
      exact Nat.sub_le _ _

/-- A call. -/
theorem NoticeInv.call (hs : NoticeInv E s) (hc : NoticeCond E s (.call x a))
    (hcall : module4gCommunicationProcessWhile E x a s.comm = some (ret, t)) :
    NoticeInv E (s.call E a ret t) := by
  obtain ⟨hfits, htail, hsafe⟩ := hc
  by_cases hup : s.comm.recv.Unchecked ∧ GivesUp E.config s.comm.recv
  · obtain ⟨hunread, hpos, hring⟩ :=
      NoticeLog.call_givesUp hs.ringed hs.law.unread hup.1 hup.2 hfits hcall
    refine hs.logged hring hunread fun p e he hbefore hbehind => .inl ?_
    have hcame := (getNet4GRecvCmdWhile_drops hup.1 hup.2 ⟨hs.ringed.head_le, hs.ringed.tail_lt⟩
      hfits).2
    have hstream : (s.call E a ret t).stream = s.stream ++ a.flatten.flatten :=
      congrArg (s.stream ++ ·) hcame
    rw [hstream] at he
    obtain ⟨hlt, hle⟩ := noticeEnds_le he
    have hsafe' := hsafe hup.1 p (Nat.lt_of_lt_of_le hlt hle) e he ⟨hbefore, hbehind.trans hpos⟩
    exact noticed_of_givesUp hs.ringed hup.1 hup.2 hfits hsafe' hcall
  · have hw : s.comm.receivedWhile E a = ⟨s.comm.received E, s.comm.uart, [], true⟩ :=
      getNet4GRecvCmdWhile_kept hup
    rw [module4gCommunicationProcessWhile_eq hw] at hcall
    obtain ⟨hstream, hunread, hpos⟩ :=
      NoticeLog.call_kept (a := a) hs.ringed hs.law.unread hup hcall
    obtain ⟨hring, -⟩ := getNet4GRecvCmd_ringed s.comm.info hs.ringed htail
    refine hs.logged ((Comm.call_outcome hcall).sameRing.ringed hring) (hstream.symm ▸ hunread)
      fun p e he hbefore hbehind => .inr ?_
    rw [hstream] at he ⊢
    rw [hpos] at hbehind
    have hle := (getNet4GRecvCmd_leaves s.comm.info hs.ringed).2
    refine noticed_of_kept (a := a) hs.ringed hs.law.unread hup he hbefore hbehind fun hu => ?_
    have hmem := noticeEnds_mono a.flatten.flatten he
    obtain ⟨hlt, hle'⟩ := noticeEnds_le hmem
    refine hsafe hu p (Nat.lt_of_lt_of_le hlt hle') e hmem ⟨hbefore, ?_⟩
    unfold NoticeLog.reach
    exact (hbehind.trans (Nat.add_le_add_left hle _)).trans (Nat.le_add_right _ _)

theorem NoticeStep.inv (hs : NoticeInv E s) (hc : NoticeCond E s e) (h : NoticeStep E s e s') :
    NoticeInv E s' := by
  cases e with
  | uart bs =>
    cases h
    exact hs.uart hc.1
  | save m =>
    cases h
    exact ⟨hs.ringed, ⟨hs.law.unread, hs.law.noticed⟩, hs.inside⟩
  | others d flag =>
    cases h
    exact ⟨hs.ringed, ⟨hs.law.unread, hs.law.noticed⟩, hs.inside⟩
  | call x a =>
    obtain ⟨⟨ret, t⟩, hcall, rfl⟩ := Option.map_eq_some_iff.1 h
    exact hs.call hc hcall

end

/-- In a run whose steps meet the condition every notice is noticed by the call that moves the head
past its end. -/
theorem noticesKept_of_noticeCond {E : CommEnv} {s₀ : Comm} (h₀ : Ringed E.config s₀.recv)
    {es : List (NoticeEvent E.config)} {s : NoticeLog}
    (h : Run (Guarded (NoticeCond E) (NoticeStep E))
      ⟨s₀, s₀.recv.window E.config ++ s₀.uart, []⟩ es s) : NoticesKept E s := by
  have hstart : NoticeInv E ⟨s₀, s₀.recv.window E.config ++ s₀.uart, []⟩ := by
    refine ⟨h₀, ⟨List.suffix_refl _, fun a ha => ?_⟩, fun a ha => ?_⟩
    · cases ha
    · cases ha
  have hstep : ∀ s e s', NoticeInv E s → Guarded (NoticeCond E) (NoticeStep E) s e s' →
      NoticeInv E s' := fun _ _ _ hs hg => NoticeStep.inv hs hg.1 hg.2
  exact (h.inv hstep hstart).law

/-! ## A small program -/

/-- The callback is registered, the bytes come in one delivery, and two calls look at them. While
the second one gives the window up, `late` comes in front of its seventh look at the FIFO, or of
its last one. -/
def noticeEvents (bs late : List UInt8) : List (NoticeEvent queueConfig) :=
  [.call (.quiet queueConfig) [], .uart bs, .call (.quiet queueConfig) [],
    .call (.quiet queueConfig) [[], [], [], [], [], [], [late]]]

/-- Where each call has begun and ended, what it has returned, and whether it has enqueued a
command. -/
def NoticeLog.report (s : NoticeLog) : List (Nat × Nat × Nat × Bool) :=
  s.calls.map fun a => (a.before, a.behind, a.recvRet, a.enqueued.isSome)

theorem reset_ringed : Ringed queueConfig Comm.reset.recv :=
  .of_empty (Nat.zero_le _) queueConfig.fifo_pos rfl rfl

/-- A disconnect line whose end comes while the call gives the window up. -/
theorem noticesKept_of_noticeCond_line : ∃ s : NoticeLog,
    s.report = [(0, 0, 0, false), (0, 0, 0, false), (0, 15, 10, false)] ∧
      15 ∈ noticeEnds .ec800 s.stream 0 ∧ NoticesKept (.small queueConfig) s := by
  have heval : ((noticeEvents (ascii "+QMTSTAT: 0,1") (ascii "\r\n")).foldlM
      (Trace.guard (NoticeCond (.small queueConfig)) (NoticeLog.step (.small queueConfig)))
      ⟨.reset, [], []⟩).map (fun s => (decide (15 ∈ noticeEnds .ec800 s.stream 0), s.report)) =
        some (true, [(0, 0, 0, false), (0, 0, 0, false), (0, 15, 10, false)]) := by
    decide +kernel
  obtain ⟨s, hs, heq⟩ := Option.map_eq_some_iff.1 heval
  obtain ⟨hend, hreport⟩ := Prod.mk.inj heq
  have hrun := Trace.run_guarded_of_foldlM hs
  exact ⟨s, hreport, of_decide_eq_true hend,
    noticesKept_of_noticeCond (E := .small queueConfig) reset_ringed hrun⟩

/-- A message behind the disconnect line: the head is moved to it, and the line is lost. -/
theorem noticesKept_fails : ¬ ∀ (E : CommEnv) (s₀ : Comm) (es : List (NoticeEvent E.config))
    (s : NoticeLog), Ringed E.config s₀.recv →
      Run (Guarded (DeliveryFits E) (NoticeStep E))
        ⟨s₀, s₀.recv.window E.config ++ s₀.uart, []⟩ es s → NoticesKept E s := by
  intro h
  have heval : ((noticeEvents (ascii "+QMTSTAT: 0,1\r\n+QMTRECV:") []).foldlM
      (Trace.guard (DeliveryFits (.small queueConfig)) (NoticeLog.step (.small queueConfig)))
      ⟨.reset, [], []⟩).map (fun s => (decide (15 ∈ noticeEnds .ec800 s.stream 0), s.report)) =
        some (true, [(0, 0, 0, false), (0, 0, 0, false), (0, 15, 0, false)]) := by
    decide +kernel
  obtain ⟨s, hs, heq⟩ := Option.map_eq_some_iff.1 heval
  obtain ⟨hend, hreport⟩ := Prod.mk.inj heq
  have hlaw := h (.small queueConfig) .reset _ s reset_ringed (Trace.run_guarded_of_foldlM hs)
  have hmem : (0, 15, 0, false) ∈ s.report := by
    rw [hreport]
    exact List.mem_of_getElem? (i := 2) rfl
  obtain ⟨a, ha, heq⟩ := List.mem_map.1 hmem
  simp only [Prod.mk.injEq] at heq
  obtain ⟨hbefore, hbehind, hret, hcmd⟩ := heq
  rcases hlaw.noticed a ha 0 15 (of_decide_eq_true hend) (by omega) (by omega) with
    ⟨h10, -⟩ | ⟨hline, -⟩
  · omega
  · rw [hline] at hcmd
    cases hcmd

/-- A disconnect line that comes in the delay of the search for `+CSQ:` is dropped unseen. -/
example : ((noticeEvents (ascii "\r\n+CSQ: 9,9") (ascii "+QMTSTAT: 0,1\r\n")).foldlM
    (Trace.guard (DeliveryFits (.small queueConfig)) (NoticeLog.step (.small queueConfig)))
    ⟨.reset, [], []⟩).map (fun s => (decide (26 ∈ noticeEnds .ec800 s.stream 11), s.report)) =
      some (true, [(0, 0, 0, false), (0, 0, 0, false), (0, 26, 1, false)]) := by
  decide +kernel

end AppXd.Net4g
