import AppXd.Mqtt.Client

/-!
# What happens to a session

The log of a session tells whether a CONNECT was accepted. Sending and receiving packets leaves the
two connection flags, and the log but for the packets sent.
-/

namespace AppXd.Mqtt

/-! ## The log -/

/-- The last call of `mqtt_client_connect` has sent a CONNECT. -/
def sentInCall : List Effect → Bool
  | [] => false
  | .called :: _ => false
  | .sent t :: l => t = .connect || sentInCall l
  | .opened :: l | .closed :: l | .connack _ :: l | .disconnected :: l | .returned _ :: l =>
    sentInCall l

/-- On the present network connection a CONNECT was accepted, and the session has not been ended
since. -/
def accepted : List Effect → Bool
  | [] => false
  | .opened :: _ | .closed :: _ | .disconnected :: _ => false
  | .connack code :: l => code = some 0 && sentInCall l
  | .sent _ :: l | .called :: l | .returned _ :: l => accepted l

/-- Each call of `mqtt_client_connect` that returned `MQTT_OK` had sent a CONNECT, unless one was
accepted already. -/
def truthful : List Effect → Bool
  | [] => true
  | .returned ret :: l => (ret ≠ 0 || sentInCall l || accepted l) && truthful l
  | .opened :: l | .closed :: l | .sent _ :: l | .connack _ :: l | .disconnected :: l |
    .called :: l => truthful l

section
variable (ts : List MsgType) (l : List Effect)

@[simp] theorem accepted_sent : accepted (ts.map .sent ++ l) = accepted l := by
  induction ts with
  | nil => rfl
  | cons t ts ih => exact ih

@[simp] theorem truthful_sent : truthful (ts.map .sent ++ l) = truthful l := by
  induction ts with
  | nil => rfl
  | cons t ts ih => exact ih

variable {l} in
theorem sentInCall_sent (h : sentInCall l = true) : sentInCall (ts.map .sent ++ l) = true := by
  induction ts with
  | nil => exact h
  | cons t ts ih => simp [sentInCall, ih]

end

/-! ## What leaves the connection alone -/

namespace Session

/-- Nothing but packets sent. -/
structure Quiet (cs cs' : Session) : Prop where
  netIsConnected : cs'.netIsConnected = cs.netIsConnected
  isConnected : cs'.isConnected = cs.isConnected
  bufSize : cs'.bufSize = cs.bufSize
  disconnect : cs'.disconnect = cs.disconnect
  log : ∃ ts : List MsgType, cs'.log = ts.map .sent ++ cs.log

section
variable {cs cs' cs'' : Session}

theorem Quiet.refl (cs : Session) : cs.Quiet cs := ⟨rfl, rfl, rfl, rfl, [], rfl⟩

theorem Quiet.trans (h : cs.Quiet cs') (h' : cs'.Quiet cs'') : cs.Quiet cs'' := by
  obtain ⟨ts, hts⟩ := h.log
  obtain ⟨ts', hts'⟩ := h'.log
  refine ⟨h'.netIsConnected.trans h.netIsConnected, h'.isConnected.trans h.isConnected,
    h'.bufSize.trans h.bufSize, h'.disconnect.trans h.disconnect, ts' ++ ts, ?_⟩
  rw [hts', hts, List.map_append, List.append_assoc]

theorem Quiet.accepted (h : cs.Quiet cs') : accepted cs'.log = accepted cs.log := by
  obtain ⟨ts, hts⟩ := h.log
  rw [hts, accepted_sent]

theorem Quiet.truthful (h : cs.Quiet cs') : truthful cs'.log = truthful cs.log := by
  obtain ⟨ts, hts⟩ := h.log
  rw [hts, truthful_sent]

theorem Quiet.sentInCall (h : cs.Quiet cs') (hs : sentInCall cs.log = true) :
    sentInCall cs'.log = true := by
  obtain ⟨ts, hts⟩ := h.log
  rw [hts]
  exact sentInCall_sent ts hs

end

section
variable {cs : Session}

theorem quiet_getNextPacketId : cs.Quiet cs.getNextPacketId := ⟨rfl, rfl, rfl, rfl, [], rfl⟩

theorem quiet_mqttSendPacket (t : MsgType) (length : Int) :
    cs.Quiet (cs.mqttSendPacket t length).2 := by
  unfold mqttSendPacket
  simp only
  split
  · exact ⟨rfl, rfl, rfl, rfl, [t], rfl⟩
  · exact ⟨rfl, rfl, rfl, rfl, [], rfl⟩

/-- What is reported as sent is in the log. -/
theorem mqttSendPacket_log {t : MsgType} {length : Int} (h : (cs.mqttSendPacket t length).1 = 0) :
    (cs.mqttSendPacket t length).2.log = .sent t :: cs.log := by
  unfold mqttSendPacket at h ⊢
  simp only at h ⊢
  split at h
  · rw [if_pos ‹_›]
    rfl
  · cases h

theorem quiet_mqttRead (mlen : Nat) : cs.Quiet (cs.mqttRead mlen).2.2 := by
  unfold mqttRead
  split
  · exact Quiet.refl cs
  · exact ⟨rfl, rfl, rfl, rfl, [], rfl⟩

theorem quiet_store {p : Nat} {data : List UInt8} {cs' : Session} (h : cs.store p data = some cs') :
    cs.Quiet cs' := by
  unfold store at h
  split at h
  · cases h
    exact ⟨rfl, rfl, rfl, rfl, [], rfl⟩
  · cases h

theorem quiet_decodePacket (n multiplier value : Nat) (cs : Session) :
    cs.Quiet (decodePacket n multiplier value cs).2 := by
  induction n generalizing multiplier value cs with
  | zero => exact Quiet.refl cs
  | succ n ih =>
    have hread : cs.Quiet (cs.mqttRead 1).2.2 := quiet_mqttRead 1
    unfold decodePacket
    split
    · rename_i i data rc cs' heq
      rw [heq] at hread
      split
      · exact hread
      simp only
      split
      · exact hread.trans (ih ..)
      · exact hread
    · rename_i heq
      rw [heq] at hread
      exact hread

theorem quiet_mqttReadPacket {r : Int × Session} (h : cs.mqttReadPacket = some r) :
    cs.Quiet r.2 := by
  unfold mqttReadPacket at h
  obtain ⟨cs₁, h₁, h⟩ := Option.bind_eq_some_iff.1 h
  have hquiet := (quiet_mqttRead 1).trans (quiet_store h₁)
  split at h
  · cases h
    exact hquiet
  obtain ⟨cs₂, h₂, h⟩ := Option.bind_eq_some_iff.1 h
  obtain ⟨cs₃, h₃, h⟩ := Option.bind_eq_some_iff.1 h
  have hlength := (quiet_decodePacket 4 1 0 cs₁).trans (quiet_store h₂)
  have hrest := (hquiet.trans hlength).trans ((quiet_mqttRead _).trans (quiet_store h₃))
  split at h
  · cases h
    exact hrest
  · obtain ⟨header, -, rfl⟩ := Option.map_eq_some_iff.1 h
    exact hrest

theorem quiet_mqttSubscribe {topicFilter : List UInt8} {r : Int × Session}
    (h : cs.mqttSubscribe topicFilter = some r) : cs.Quiet r.2 := by
  unfold mqttSubscribe at h
  split at h
  · cases h
    exact Quiet.refl cs
  simp only at h
  have hid : cs.Quiet cs.getNextPacketId := quiet_getNextPacketId
  split at h
  · cases h
    exact hid
  have hsend := hid.trans (quiet_mqttSendPacket .subscribe
    (mqttSerializeSubscribe cs.getNextPacketId.bufSize.toNat topicFilter))
  split at h
  · cases h
    exact hsend
  obtain ⟨r₁, h₁, h⟩ := Option.bind_eq_some_iff.1 h
  have hread := hsend.trans (quiet_mqttReadPacket h₁)
  split at h
  · cases h
    exact hread
  split at h
  · obtain ⟨d, -, rfl⟩ := Option.map_eq_some_iff.1 h
    exact hread
  · cases h
    exact hread

theorem quiet_subscribeHandler {topics : List (Option (List UInt8))} {cs : Session}
    {r : Int × Session} (h : subscribeHandler topics cs = some r) : cs.Quiet r.2 := by
  induction topics generalizing cs with
  | nil =>
    cases h
    exact Quiet.refl cs
  | cons topic topics ih =>
    cases topic with
    | none => exact ih h
    | some topic =>
      obtain ⟨r₁, h₁, h⟩ := Option.bind_eq_some_iff.1 h
      have hsub := quiet_mqttSubscribe h₁
      split at h
      · cases h
        exact hsub
      · exact hsub.trans (ih h)

theorem quiet_mqttSendPublish (m : QueuedMsg) : cs.Quiet (cs.mqttSendPublish m).2 := by
  have hid : cs.Quiet (if m.qos = 1 ∨ m.qos = 2 then cs.getNextPacketId else cs) := by
    split
    · exact quiet_getNextPacketId
    · exact Quiet.refl cs
  unfold mqttSendPublish
  dsimp only
  generalize (if m.qos = 1 ∨ m.qos = 2 then cs.getNextPacketId else cs) = cs' at hid ⊢
  split
  · exact hid
  split
  · exact hid.trans (quiet_mqttSendPacket ..)
  · exact hid.trans (quiet_mqttSendPacket ..)

theorem quiet_sendQueued : cs.Quiet cs.sendQueued := by
  unfold sendQueued
  split
  · exact Quiet.refl cs
  · rename_i m msgs _
    have hmsgs : cs.Quiet { cs with msgs := msgs } := ⟨rfl, rfl, rfl, rfl, [], rfl⟩
    exact hmsgs.trans (quiet_mqttSendPublish m)

theorem quiet_answer (t : MsgType) (len : Int) : cs.Quiet (cs.answer t len).2 := by
  unfold answer
  split
  · exact Quiet.refl cs
  · exact quiet_mqttSendPacket t len

theorem quiet_tickPing (now : UInt32) : cs.Quiet { cs with tickPing := now } :=
  ⟨rfl, rfl, rfl, rfl, [], rfl⟩

theorem quiet_mqttCycle {now : UInt32} {r : Int × Session} (h : cs.mqttCycle now = some r) :
    cs.Quiet r.2 := by
  unfold mqttCycle at h
  obtain ⟨r₁, h₁, h⟩ := Option.bind_eq_some_iff.1 h
  have hread := quiet_mqttReadPacket h₁
  have htick := hread.trans (quiet_tickPing now)
  simp only at h
  split at h
  · cases h
    exact hread
  split at h
  · split at h
    · cases h
      exact htick
    · cases h
  split at h
  · obtain ⟨d, -, h⟩ := Option.bind_eq_some_iff.1 h
    split at h
    · cases h
      exact hread
    split at h
    · cases h
    split at h
    · cases h
      exact htick
    split at h
    · cases h
      exact htick.trans (quiet_answer ..)
    split at h
    · cases h
      exact htick.trans (quiet_answer ..)
    · cases h
      exact htick
  split at h
  · obtain ⟨rc, -, rfl⟩ := Option.map_eq_some_iff.1 h
    split
    · exact hread
    · exact hread.trans (quiet_answer ..)
  split at h
  · cases h
    exact htick
  · cases h
    exact hread

theorem quiet_serve {x : HandlerInput} {r : Bool × Session} (h : cs.serve x = some r) :
    cs.Quiet r.2 := by
  unfold serve at h
  split at h
  · split at h
    · have hsend : cs.Quiet _ :=
        quiet_mqttSendPacket .pingreq (mqttSerializePingreq cs.bufSize.toNat)
      simp only at h
      split at h
      · cases h
        exact hsend
      · cases h
        exact hsend.trans (quiet_tickPing x.now)
    · cases h
      exact Quiet.refl cs
  split at h
  · cases h
    exact Quiet.refl cs
  split at h
  · obtain ⟨r₁, h₁, rfl⟩ := Option.map_eq_some_iff.1 h
    exact quiet_mqttCycle h₁
  · cases h
    exact Quiet.refl cs

theorem quiet_mqttClientPublish (locked malloced : Bool) (qos : Nat) (topic msgStr : List UInt8) :
    cs.Quiet (cs.mqttClientPublish locked malloced qos topic msgStr).2 := by
  unfold mqttClientPublish mqttPublish
  split
  · exact Quiet.refl cs
  split
  · exact Quiet.refl cs
  split
  · exact Quiet.refl cs
  · exact ⟨rfl, rfl, rfl, rfl, [], rfl⟩

theorem quiet_mqttClientSubscribe {locked : Bool} {topic : List UInt8} {r : Int × Session}
    (h : cs.mqttClientSubscribe locked topic = some r) : cs.Quiet r.2 := by
  unfold mqttClientSubscribe at h
  split at h
  · cases h
    exact Quiet.refl cs
  · obtain ⟨r₁, h₁, rfl⟩ := Option.map_eq_some_iff.1 h
    have hsub := quiet_mqttSubscribe h₁
    exact hsub

end

end Session

end AppXd.Mqtt
