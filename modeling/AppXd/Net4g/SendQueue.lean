import AppXd.Net4g.Link
import Mathlib.Data.List.TakeWhile

/-!
# The publish queue

`save_pub_msg_to_queue` appends a message to a ring of `NET_4G_UART_SEND_QUEU_SIZE` entries and
`reset_pub_msg_queue` drops the oldest. Equal ends mean that the ring is empty, and a save does not
ask whether it is full.
-/

namespace AppXd.Net4g

open Trace (Run Guarded)

/-- An entry of `gNet4g_dataStruct.send.queue`. -/
structure SendEntry where
  topic : List UInt8
  cmdData : List UInt8
  cmdLen : Nat
  deriving DecidableEq

/-- `gNet4g_dataStruct.send`. -/
structure Send where
  queue : Nat → SendEntry
  qHead : Nat
  qTail : Nat

section
variable (c : Config)

def savePubMsgToQueue (s : Send) (topic1 pbData : List UInt8) (pbLen : Nat) : Send :=
  { s with
    queue := Ring.poke s.queue s.qTail
      ⟨CStr.textAt topic1 0, CStr.copyInto c.uartSendQueuDataSize (pbData.take pbLen), pbLen⟩
    qTail := (s.qTail + 1) % c.uartSendQueuSize }

def resetPubMsgQueue (s : Send) : Send := { s with qHead := (s.qHead + 1) % c.uartSendQueuSize }

def getPubMsgFlag (s : Send) : Bool := s.qTail ≠ s.qHead

end

/-! ## Messages -/

/-- A message as its sender hands it over: the topic is a C string and the payload fits its
buffer. -/
structure PubMsg (c : Config) where
  topic : List UInt8
  payload : List UInt8
  noNul : 0 ∉ topic
  fits : payload.length ≤ c.uartSendQueuDataSize

/-- The topic, the payload and the payload's length of an entry, as they are published. -/
def SendEntry.content (e : SendEntry) : List UInt8 × List UInt8 × Nat :=
  (e.topic, e.cmdData.take e.cmdLen, e.cmdLen)

def PubMsg.content {c : Config} (m : PubMsg c) : List UInt8 × List UInt8 × Nat :=
  (m.topic, m.payload, m.payload.length)

/-- What is pending, oldest first. -/
def Send.pending (c : Config) (s : Send) : List (List UInt8 × List UInt8 × Nat) :=
  (Ring.window s.queue c.uartSendQueuSize s.qHead s.qTail).map SendEntry.content

/-- Both ends stand in the ring. -/
structure Send.Wf (c : Config) (s : Send) : Prop where
  head : s.qHead < c.uartSendQueuSize
  tail : s.qTail < c.uartSendQueuSize

section
variable {c : Config} {s : Send} (m : PubMsg c)

theorem Send.length_pending :
    (s.pending c).length = Ring.unread c.uartSendQueuSize s.qHead s.qTail := by
  rw [Send.pending, List.length_map, Ring.length_window]

/-- A saved entry has the message's content. -/
theorem PubMsg.saved_content :
    SendEntry.content ⟨CStr.textAt m.topic 0,
      CStr.copyInto c.uartSendQueuDataSize (m.payload.take m.payload.length),
      m.payload.length⟩ = m.content := by
  have htopic : CStr.textAt m.topic 0 = m.topic := by
    rw [CStr.textAt, List.drop_zero]
    refine List.takeWhile_eq_self_iff.2 fun b hb => ?_
    exact decide_eq_true fun h0 => m.noNul (h0 ▸ hb)
  unfold SendEntry.content PubMsg.content
  rw [htopic, List.take_length, CStr.take_copyInto]

/-- A save that finds room appends the message. -/
theorem Send.pending_save (hs : s.Wf c) (h : (s.pending c).length + 1 < c.uartSendQueuSize) :
    (savePubMsgToQueue c s m.topic m.payload m.payload.length).pending c =
      s.pending c ++ [m.content] := by
  rw [Send.length_pending] at h
  unfold Send.pending savePubMsgToQueue
  simp only
  rw [Ring.window_push _ hs.head hs.tail h, List.map_append, List.map_singleton, m.saved_content]

/-- A save that finds no room makes the queue look empty. -/
theorem Send.pending_save_full (hs : s.Wf c)
    (h : ¬ (s.pending c).length + 1 < c.uartSendQueuSize) :
    (savePubMsgToQueue c s m.topic m.payload m.payload.length).pending c = [] := by
  rw [Send.length_pending] at h
  have hlt := Ring.unread_lt hs.head hs.tail
  unfold Send.pending savePubMsgToQueue
  simp only
  rw [Ring.window_push_full _ hs.head hs.tail (by omega), List.map_nil]

theorem Send.Wf.save (hs : s.Wf c) :
    (savePubMsgToQueue c s m.topic m.payload m.payload.length).Wf c :=
  ⟨hs.head, Nat.mod_lt _ (Nat.zero_lt_of_lt hs.tail)⟩

/-- While a message is pending, a reset drops the oldest. -/
theorem Send.pending_reset (hs : s.Wf c) (h : getPubMsgFlag s = true) :
    s.pending c = (s.queue s.qHead).content :: (resetPubMsgQueue c s).pending c := by
  have hne : s.qHead ≠ s.qTail := (of_decide_eq_true h).symm
  unfold Send.pending resetPubMsgQueue
  rw [Ring.window_pop hs.head hs.tail hne, List.map_cons]

theorem Send.Wf.reset (hs : s.Wf c) : (resetPubMsgQueue c s).Wf c :=
  ⟨Nat.mod_lt _ (Nat.zero_lt_of_lt hs.tail), hs.tail⟩

end

/-! ## Runs -/

inductive SendEvent (c : Config)
  | save (m : PubMsg c)
  | reset

/-- The queue, with the messages that it has accepted and those that were taken from its head. -/
structure SendLog where
  send : Send
  accepted : List (List UInt8 × List UInt8 × Nat)
  taken : List (List UInt8 × List UInt8 × Nat)

/-- The log of a save. A save that changes nothing has not accepted its message. -/
def SendLog.save (c : Config) (s : SendLog) (m : PubMsg c) : SendLog :=
  let send := savePubMsgToQueue c s.send m.topic m.payload m.payload.length
  { s with
    send := send
    accepted := if send.pending c = s.send.pending c then s.accepted else s.accepted ++ [m.content] }

/-- The log of a reset, with the message that stood at the head. -/
def SendLog.reset (c : Config) (s : SendLog) : SendLog :=
  { s with
    send := resetPubMsgQueue c s.send
    taken := s.taken ++ [(s.send.queue s.send.qHead).content] }

/-- Saves come at any time, resets only while a message is pending. -/
inductive SendStep (c : Config) : SendLog → SendEvent c → SendLog → Prop
  | save {s} (m : PubMsg c) : SendStep c s (.save m) (s.save c m)
  | reset {s} : getPubMsgFlag s.send = true → SendStep c s .reset (s.reset c)

/-- The messages taken and the messages pending are, in order, those that were there at first and
those accepted since. -/
def Lossless (c : Config) (s₀ : Send) (s : SendLog) : Prop :=
  s.taken ++ s.send.pending c = s₀.pending c ++ s.accepted

/-- A save needs a free entry besides the one that keeps the ends apart. -/
def SaveRoom (c : Config) (s : SendLog) : SendEvent c → Prop
  | .save _ => (s.send.pending c).length + 1 < c.uartSendQueuSize
  | .reset => True

section
variable {c : Config} {s₀ : Send} {s s' : SendLog} {e : SendEvent c}

theorem SendStep.det {s₁ s₂ : SendLog} (h₁ : SendStep c s e s₁) (h₂ : SendStep c s e s₂) :
    s₁ = s₂ := by
  cases h₁ with
  | save m => cases h₂ with | save => rfl
  | reset => cases h₂ with | reset => rfl

theorem SendStep.wf (hs : s.send.Wf c) (h : SendStep c s e s') : s'.send.Wf c := by
  cases h with
  | save m => exact hs.save m
  | reset => exact hs.reset

/-- One step keeps the law exactly when a save finds room. -/
theorem SendStep.lossless_iff (hs : s.send.Wf c) (hl : Lossless c s₀ s) (h : SendStep c s e s') :
    Lossless c s₀ s' ↔ SaveRoom c s e := by
  have hlen := congrArg List.length hl
  rw [List.length_append, List.length_append] at hlen
  cases h with
  | save m =>
    unfold Lossless SendLog.save SaveRoom
    simp only
    constructor
    · intro hl'
      by_contra hfull
      rw [Send.pending_save_full m hs hfull, if_neg] at hl'
      · have hlen' := congrArg List.length hl'
        simp only [List.length_append, List.length_nil, List.length_singleton] at hlen'
        omega
      · intro hnil
        rw [← hnil, List.length_nil] at hfull
        have hsize := c.sendQueu_two
        omega
    · intro hroom
      rw [Send.pending_save m hs hroom, if_neg, ← List.append_assoc, hl, List.append_assoc]
      intro heq
      have hlen' := congrArg List.length heq
      rw [List.length_append, List.length_singleton] at hlen'
      omega
  | reset hflag =>
    refine ⟨fun _ => trivial, fun _ => ?_⟩
    unfold Lossless SendLog.reset
    simp only
    rw [List.append_assoc, List.singleton_append, ← Send.pending_reset hs hflag]
    exact hl

end

/-- The queue loses nothing in a run exactly when every save of the run finds room. -/
theorem lossless_iff_saveRoom {c : Config} {s₀ : Send} (h₀ : s₀.Wf c) {es : List (SendEvent c)}
    {s : SendLog} (h : Run (SendStep c) ⟨s₀, [], []⟩ es s) :
    (∀ es₁ s₁, es₁ <+: es → Run (SendStep c) ⟨s₀, [], []⟩ es₁ s₁ → Lossless c s₀ s₁) ↔
      Run (Guarded (SaveRoom c) (SendStep c)) ⟨s₀, [], []⟩ es s := by
  have hdet : ∀ s e s₁ s₂, SendStep c s e s₁ → SendStep c s e s₂ → s₁ = s₂ :=
    fun _ _ _ _ => SendStep.det
  have hwf : ∀ (s : SendLog) e s', s.send.Wf c → SendStep c s e s' → s'.send.Wf c :=
    fun _ _ _ => SendStep.wf
  have hstep : ∀ (s : SendLog) e s', s.send.Wf c → Lossless c s₀ s → SendStep c s e s' →
      (Lossless c s₀ s' ↔ SaveRoom c s e) := fun _ _ _ => SendStep.lossless_iff
  exact h.passes_iff hdet hwf hstep h₀ (List.append_nil _).symm

/-- The empty publish queue. -/
def Send.reset : Send := ⟨fun _ => ⟨[], [], 0⟩, 0, 0⟩

theorem Send.reset_wf (c : Config) : Send.reset.Wf c :=
  ⟨Nat.zero_lt_of_lt c.sendQueu_two, Nat.zero_lt_of_lt c.sendQueu_two⟩

/-- A message of one byte. -/
def byteMsg (b : UInt8) : PubMsg smallConfig := ⟨[], [b], nofun, (by decide : 1 ≤ 16)⟩

/-- Two saves and two resets of a queue of three entries. -/
theorem lossless_iff_saveRoom_small :
    (∀ es₁ s₁, es₁ <+: [.save (byteMsg 1), .save (byteMsg 2), .reset, .reset] →
      Run (SendStep smallConfig) ⟨.reset, [], []⟩ es₁ s₁ → Lossless smallConfig .reset s₁) ↔
      Run (Guarded (SaveRoom smallConfig) (SendStep smallConfig)) ⟨.reset, [], []⟩
        [.save (byteMsg 1), .save (byteMsg 2), .reset, .reset]
        ((((SendLog.mk .reset [] []).save _ (byteMsg 1)).save _ (byteMsg 2)).reset smallConfig
          |>.reset smallConfig) :=
  lossless_iff_saveRoom (Send.reset_wf _)
    (.cons (.save _) (.cons (.save _) (.cons (.reset rfl) (.cons (.reset rfl) .nil))))

/-- Three saves without a reset lose the messages in a queue of three entries. -/
theorem lossless_fails : ¬ ∀ (c : Config) (s₀ : Send) (es : List (SendEvent c)) (s : SendLog),
    s₀.Wf c → Run (SendStep c) ⟨s₀, [], []⟩ es s → Lossless c s₀ s := by
  intro h
  have hrun : Run (SendStep smallConfig) ⟨.reset, [], []⟩
      [.save (byteMsg 1), .save (byteMsg 2), .save (byteMsg 3)] _ :=
    .cons (.save _) (.cons (.save _) (.cons (.save _) .nil))
  have hl := congrArg List.length (h _ _ _ _ (Send.reset_wf _) hrun)
  revert hl
  decide

end AppXd.Net4g
