import AppXd.Mqtt.ReadPacket
import AppXd.Mqtt.SessionLog

/-!
# What `mqtt_client_connect` reports

`ConnectTruthful` says that the result is `MQTT_OK` for an accepted CONNECT with all topics
subscribed and for nothing else, and that the connection is dropped if the CONNECT is not accepted.
`ConnectFine` says for which answers of the port it is so.
-/

namespace AppXd.Mqtt

namespace Session

variable (cs : Session)

/-! ## Subscribing -/

/-- The session when the SUBSCRIBE for a topic has been sent, if it can be. -/
def sendSubscribe (topicFilter : List UInt8) : Option Session :=
  let cs := cs.getNextPacketId
  let len := mqttSerializeSubscribe cs.bufSize.toNat topicFilter
  let r := cs.mqttSendPacket .subscribe len
  if 0 < len ∧ r.1 = 0 then some r.2 else none

/-- A whole SUBACK comes that grants a QoS; `cs'` is the session then. -/
def Granted (cs' : Session) : Prop :=
  (∃ header, cs.WholePacket header) ∧ cs.mqttReadPacket = some (MsgType.suback.code, cs') ∧
    ∃ qos, 0 ≤ qos ∧ qos ≤ 2 ∧ mqttDeserializeSuback cs'.readbuf = some (1, qos)

/-- The server grants all topics that are set. -/
def AllSubscribed : List (Option (List UInt8)) → Session → Prop
  | [], _ => True
  | none :: topics, cs => AllSubscribed topics cs
  | some topic :: topics, cs => ∃ cs₁ cs₂, cs.sendSubscribe topic = some cs₁ ∧ cs₁.Granted cs₂ ∧
    AllSubscribed topics cs₂

/-- For one of the topics the SUBSCRIBE cannot be sent, or something else than a SUBACK comes; those
before it get packets that pass for a SUBACK. -/
def SubscribeFails : List (Option (List UInt8)) → Session → Prop
  | [], _ => False
  | none :: topics, cs => SubscribeFails topics cs
  | some topic :: topics, cs => ∀ cs₁, cs.sendSubscribe topic = some cs₁ →
    ∃ r, cs₁.mqttReadPacket = some r ∧ (r.1 = MsgType.suback.code →
      (mqttDeserializeSuback r.2.readbuf).isSome ∧ SubscribeFails topics r.2)

section
variable {cs : Session}

theorem quiet_sendSubscribe {topic : List UInt8} {cs₁ : Session}
    (h : cs.sendSubscribe topic = some cs₁) : cs.Quiet cs₁ := by
  unfold sendSubscribe at h
  simp only at h
  split at h
  · cases h
    exact quiet_getNextPacketId.trans (quiet_mqttSendPacket ..)
  · cases h

/-- A SUBSCRIBE that is not sent is an error. -/
theorem mqttSubscribe_unsent {topic : List UInt8} (h : cs.sendSubscribe topic = none) :
    ∃ r, cs.mqttSubscribe topic = some r ∧ r.1 ≠ 0 := by
  have hne : (-1 : Int) ≠ 0 := by decide
  unfold sendSubscribe at h
  unfold mqttSubscribe
  simp only at h ⊢
  split
  · exact ⟨_, rfl, hne⟩
  split
  · exact ⟨_, rfl, hne⟩
  split
  · exact ⟨_, rfl, by assumption⟩
  · rw [if_pos ⟨by omega, by omega⟩] at h
    cases h

/-- What comes for a SUBSCRIBE decides. -/
theorem mqttSubscribe_sent (hconn : cs.isConnected = true) {topic : List UInt8} {cs₁ : Session}
    (h : cs.sendSubscribe topic = some cs₁) :
    cs.mqttSubscribe topic = cs₁.mqttReadPacket.bind fun r =>
      if r.1 < 0 then some r
      else if r.1 = MsgType.suback.code then
        (mqttDeserializeSuback r.2.readbuf).map fun d =>
        let rc := if d.1 = 1 then d.2 else r.1
        (if rc ≠ 0x80 then 0 else rc, r.2)
      else some (-1, r.2) := by
  unfold sendSubscribe at h
  unfold mqttSubscribe
  simp only [hconn, Bool.not_true, Bool.false_eq_true, if_false] at h ⊢
  split at h
  · rename_i hsent
    cases h
    rw [if_neg (Int.not_le.2 hsent.1), if_neg (not_not_intro hsent.2)]
  · cases h

/-- What is taken for the granted QoS is never 0x80, as the array holds signed characters. -/
theorem mqttDeserializeSuback_ne {buf : List UInt8} {d : Int × Int}
    (h : mqttDeserializeSuback buf = some d) : d.2 ≠ 0x80 := by
  have hbyte : ∀ b : UInt8, b.toInt8.toInt ≠ 0x80 := fun b => by
    have := Int8.toInt_lt b.toInt8
    omega
  have hinit : (-1 : Int) ≠ 0x80 := by decide
  unfold mqttDeserializeSuback at h
  obtain ⟨header, -, h⟩ := Option.bind_eq_some_iff.1 h
  split at h
  · cases h
    exact hinit
  obtain ⟨⟨rc, mylen⟩, -, h⟩ := Option.bind_eq_some_iff.1 h
  simp only at h
  split at h
  · cases h
    exact hinit
  obtain ⟨_, -, h⟩ := Option.bind_eq_some_iff.1 h
  obtain ⟨_, -, h⟩ := Option.bind_eq_some_iff.1 h
  split at h
  · cases h
    exact hinit
  split at h
  · obtain ⟨granted, -, h⟩ := Option.bind_eq_some_iff.1 h
    cases h
    exact hbyte granted
  · cases h

/-- Whatever comes as a SUBACK counts. -/
theorem mqttSubscribe_suback (hconn : cs.isConnected = true) {topic : List UInt8}
    {cs₁ cs₂ : Session} (h : cs.sendSubscribe topic = some cs₁)
    (hread : cs₁.mqttReadPacket = some (MsgType.suback.code, cs₂)) :
    cs.mqttSubscribe topic =
      (mqttDeserializeSuback cs₂.readbuf).map fun _ => ((0 : Int), cs₂) := by
  have hcode : ¬ MsgType.suback.code < 0 := by decide
  rw [mqttSubscribe_sent hconn h, hread, Option.bind_some, if_neg hcode, if_pos rfl]
  cases hd : mqttDeserializeSuback cs₂.readbuf with
  | none => rfl
  | some d =>
    have hne : (if d.1 = 1 then d.2 else MsgType.suback.code) ≠ 0x80 := by
      split
      · exact mqttDeserializeSuback_ne hd
      · decide
    simp only [Option.map_some, if_pos hne]

/-- Anything else is an error. -/
theorem mqttSubscribe_other (hconn : cs.isConnected = true) {topic : List UInt8} {cs₁ : Session}
    {r : Int × Session} (h : cs.sendSubscribe topic = some cs₁) (hread : cs₁.mqttReadPacket = some r)
    (hr : r.1 ≠ MsgType.suback.code) : ∃ r', cs.mqttSubscribe topic = some r' ∧ r'.1 ≠ 0 := by
  have hne : (-1 : Int) ≠ 0 := by decide
  rw [mqttSubscribe_sent hconn h, hread, Option.bind_some]
  simp only [if_neg hr]
  split
  · exact ⟨_, rfl, by omega⟩
  · exact ⟨_, rfl, hne⟩

/-- One topic of the handler. -/
theorem subscribeHandler_some {topic : List UInt8} {topics : List (Option (List UInt8))} :
    subscribeHandler (some topic :: topics) cs = (cs.mqttSubscribe topic).bind fun r =>
      if r.1 ≠ 0 then some (-1, r.2) else subscribeHandler topics r.2 := rfl

theorem subscribeHandler_failed {topic : List UInt8} {topics : List (Option (List UInt8))}
    (h : ∃ r, cs.mqttSubscribe topic = some r ∧ r.1 ≠ 0) :
    ∃ r, subscribeHandler (some topic :: topics) cs = some r ∧ r.1 ≠ 0 := by
  have hminus : (-1 : Int) ≠ 0 := by decide
  obtain ⟨r, hr, hne⟩ := h
  refine ⟨(-1, r.2), ?_, hminus⟩
  rw [subscribeHandler_some, hr, Option.bind_some, if_pos hne]

/-- All topics granted: the handler succeeds. -/
theorem subscribeHandler_of_allSubscribed {topics : List (Option (List UInt8))} {cs : Session}
    (hconn : cs.isConnected = true) (h : AllSubscribed topics cs) :
    ∃ cs', subscribeHandler topics cs = some (0, cs') := by
  induction topics generalizing cs with
  | nil => exact ⟨cs, rfl⟩
  | cons topic topics ih =>
    cases topic with
    | none => exact ih hconn h
    | some topic =>
      obtain ⟨cs₁, cs₂, hsent, ⟨-, hread, qos, -, -, hqos⟩, hrest⟩ := h
      have hconn₂ : cs₂.isConnected = true :=
        (quiet_mqttReadPacket hread).isConnected.trans
          ((quiet_sendSubscribe hsent).isConnected.trans hconn)
      rw [subscribeHandler_some, mqttSubscribe_suback hconn hsent hread, hqos]
      exact ih hconn₂ hrest

/-- The handler fails where a topic fails. -/
theorem subscribeHandler_ne_zero_iff {topics : List (Option (List UInt8))} {cs : Session}
    (hconn : cs.isConnected = true) :
    (∃ r, subscribeHandler topics cs = some r ∧ r.1 ≠ 0) ↔ SubscribeFails topics cs := by
  induction topics generalizing cs with
  | nil =>
    constructor
    · rintro ⟨r, hr, hne⟩
      cases hr
      exact hne rfl
    · exact False.elim
  | cons topic topics ih =>
    cases topic with
    | none => exact ih hconn
    | some topic =>
      cases hsent : cs.sendSubscribe topic with
      | none =>
        constructor
        · intro _ cs₁ h
          rw [hsent] at h
          cases h
        · intro _
          exact subscribeHandler_failed (mqttSubscribe_unsent hsent)
      | some cs₁ =>
        cases hread : cs₁.mqttReadPacket with
        | none =>
          constructor
          · rintro ⟨r, hr, -⟩
            rw [subscribeHandler_some, mqttSubscribe_sent hconn hsent, hread] at hr
            cases hr
          · intro h
            obtain ⟨r, hr, -⟩ := h cs₁ hsent
            rw [hread] at hr
            cases hr
        | some r =>
          obtain ⟨rc, cs₂⟩ := r
          by_cases hrc : rc = MsgType.suback.code
          · subst hrc
            have hconn₂ : cs₂.isConnected = true :=
              (quiet_mqttReadPacket hread).isConnected.trans
                ((quiet_sendSubscribe hsent).isConnected.trans hconn)
            have hstep := mqttSubscribe_suback hconn hsent hread
            constructor
            · rintro ⟨r, hr, hne⟩ cs₁' hsent'
              cases hsent.symm.trans hsent'
              refine ⟨_, hread, fun _ => ?_⟩
              rw [subscribeHandler_some, hstep] at hr
              cases hd : mqttDeserializeSuback cs₂.readbuf with
              | none =>
                rw [hd] at hr
                cases hr
              | some d =>
                rw [hd] at hr
                exact ⟨rfl, (ih hconn₂).1 ⟨r, hr, hne⟩⟩
            · intro h
              obtain ⟨r, hr, hfail⟩ := h cs₁ hsent
              cases hread.symm.trans hr
              obtain ⟨hsome, hfail⟩ := hfail rfl
              obtain ⟨d, hd⟩ := Option.isSome_iff_exists.1 hsome
              obtain ⟨r, hr, hne⟩ := (ih hconn₂).2 hfail
              refine ⟨r, ?_, hne⟩
              rw [subscribeHandler_some, hstep, hd]
              exact hr
          · constructor
            · intro _ cs₁' hsent'
              cases hsent.symm.trans hsent'
              exact ⟨_, hread, fun h => absurd h hrc⟩
            · intro _
              exact subscribeHandler_failed (mqttSubscribe_other hconn hsent hread hrc)

/-- The handler tells whether all topics are subscribed exactly when it fails or they are. -/
theorem subscribeHandler_truthful_iff {topics : List (Option (List UInt8))}
    (hconn : cs.isConnected = true) :
    (∃ r, subscribeHandler topics cs = some r ∧ (r.1 = 0 ↔ AllSubscribed topics cs)) ↔
      SubscribeFails topics cs ∨ AllSubscribed topics cs := by
  rw [← subscribeHandler_ne_zero_iff hconn]
  constructor
  · rintro ⟨r, hr, hiff⟩
    by_cases hzero : r.1 = 0
    · exact .inr (hiff.1 hzero)
    · exact .inl ⟨r, hr, hzero⟩
  · rintro (⟨r, hr, hne⟩ | hall)
    · refine ⟨r, hr, fun h => absurd h hne, fun hall => ?_⟩
      obtain ⟨cs', hcs'⟩ := subscribeHandler_of_allSubscribed hconn hall
      rw [hr, Option.some.injEq] at hcs'
      rw [hcs']
    · obtain ⟨cs', hcs'⟩ := subscribeHandler_of_allSubscribed hconn hall
      exact ⟨_, hcs', fun _ => hall, fun _ => rfl⟩

end

/-! ## Connecting -/

/-- A whole CONNACK with the return code 0 comes. -/
def ConnackAccepted (cs' : Session) : Prop :=
  (∃ header, cs.WholePacket header) ∧ cs.mqttReadPacket = some (MsgType.connack.code, cs') ∧
    mqttDeserializeConnack cs'.readbuf = some (1, some 0)

/-- Something comes that does not count as a CONNACK. -/
def NoConnack : Prop :=
  ∃ r, cs.mqttReadPacket = some r ∧ 0 ≤ r.1 ∧
    (r.1 = MsgType.connack.code → ∃ d, mqttDeserializeConnack r.2.readbuf = some d ∧ d.1 ≠ 1)

/-- The session whose CONNECT has been accepted. -/
def connected (now : UInt32) : Session :=
  ({ cs with isConnected := true, tickPing := now } : Session).note (.connack (some 0))

/-- The CONNECT is sent; `cs'` is the session then. -/
def ConnectSent (x : ConnectInput) (cs' : Session) : Prop :=
  x.locked = true ∧ ∃ len, mqttSerializeConnect x.options cs.bufSize.toNat = some len ∧ 0 < len ∧
    (cs.configured x.options).mqttSendPacket .connect len = (0, cs')

/-- The CONNECT is accepted. -/
def ConnectAccepted (x : ConnectInput) : Prop :=
  ∃ cs₁ cs₂, cs.ConnectSent x cs₁ ∧ cs₁.ConnackAccepted cs₂

end Session

section
variable {ι : Type*} [DecidableEq ι] (i : ι) (l : Links (Option ι)) (cs : Session)
  (x : ConnectInput)

/-- The node of the session is not in `mqtt_hd`. -/
def NotListed : Prop := ∀ ns, l.Circular none ns → some i ∉ ns

/-- The result tells whether the session is connected with all topics subscribed, and a CONNECT that
is not accepted leaves nothing of the connection. -/
def ConnectTruthful : Prop :=
  ∃ ret l' cs', mqttClientConnect i l cs x = some (ret, l', cs') ∧
    (ret = 0 ↔ ∃ cs₁ cs₂, cs.ConnectSent x cs₁ ∧ cs₁.ConnackAccepted cs₂ ∧
      Session.AllSubscribed cs₂.topicFilters (cs₂.connected x.now)) ∧
    (¬ cs.ConnectAccepted x →
      cs'.isConnected = false ∧ cs'.netIsConnected = false ∧ NotListed i l')

/-- The connection can be dropped: the port has a function for it, and the node is in no list. -/
def Droppable : Prop := cs.disconnect = true ∧ NotListed i l

/-- The lock is taken and the CONNECT is written; then it cannot be sent or something comes that does
not count as a CONNACK, or it is accepted, and a topic fails or all are subscribed. -/
def ConnectFine : Prop :=
  x.locked = true ∧ ∃ len, mqttSerializeConnect x.options cs.bufSize.toNat = some len ∧ 0 < len ∧
    let sent := (cs.configured x.options).mqttSendPacket .connect len
    ((sent.1 ≠ 0 ∨ sent.2.NoConnack) ∧ Droppable i l cs ∨
      sent.1 = 0 ∧ ∃ cs₂, sent.2.ConnackAccepted cs₂ ∧
        (Session.SubscribeFails cs₂.topicFilters (cs₂.connected x.now) ∨
          Session.AllSubscribed cs₂.topicFilters (cs₂.connected x.now)))

end

section
variable {ι : Type*} [DecidableEq ι] {i : ι} {l : Links (Option ι)} {cs cs' : Session}
  {x : ConnectInput}

theorem quiet_configured (o : ConnectData) : cs.Quiet (cs.configured o) :=
  ⟨rfl, rfl, rfl, rfl, [], rfl⟩

/-- The call of a session that is not connected yet. -/
theorem mqttClientConnect_locked (hconn : cs.isConnected = false) (hnet : cs.netIsConnected = true)
    (hlock : x.locked = true) : mqttClientConnect i l cs x = connectExchange i l cs x := by
  unfold mqttClientConnect
  simp only [hlock, hnet, hconn, Bool.not_true, Bool.false_eq_true, if_false]

/-- What the call does once the CONNECT is sent. -/
theorem mqttClientConnect_sent (hconn : cs.isConnected = false) (hnet : cs.netIsConnected = true)
    {cs₁ : Session} (hsent : cs.ConnectSent x cs₁) :
    mqttClientConnect i l cs x = cs₁.mqttReadPacket.bind fun r =>
      if r.1 < 0 then some (connectExit 0 l r.2)
      else if r.1 = MsgType.connack.code then
        (mqttDeserializeConnack r.2.readbuf).bind fun d =>
        if d.1 = 1 then connackReceived i l r.2 d.2 x.now else some (connectExit (-1) l r.2)
      else some (connectExit (-1) l r.2) := by
  obtain ⟨hlock, len, hlen, hpos, hsend⟩ := hsent
  have hsize : (cs.configured x.options).bufSize = cs.bufSize := rfl
  rw [mqttClientConnect_locked hconn hnet hlock]
  unfold connectExchange
  simp only [hsize, hlen, Option.bind_some, if_neg (Int.not_le.2 hpos), hsend, ne_eq,
    not_true_eq_false, if_false]

/-- Only what comes for the CONNECT that was sent can accept it. -/
theorem Session.ConnectSent.connack {cs₁ : Session} (hsent : cs.ConnectSent x cs₁)
    (h : cs.ConnectAccepted x) : ∃ cs₂, cs₁.ConnackAccepted cs₂ := by
  obtain ⟨-, len, hlen, -, hsend⟩ := hsent
  obtain ⟨cs₁', cs₂, ⟨-, len', hlen', -, hsend'⟩, hacc⟩ := h
  cases hlen.symm.trans hlen'
  cases hsend.symm.trans hsend'
  exact ⟨cs₂, hacc⟩

theorem Session.ConnackAccepted.not_noConnack {cs₂ : Session} (h : cs.ConnackAccepted cs₂) :
    ¬ cs.NoConnack := by
  rintro ⟨r, hread, -, hcode⟩
  cases h.2.1.symm.trans hread
  obtain ⟨d, hd, hne⟩ := hcode rfl
  cases h.2.2.symm.trans hd
  exact hne rfl

/-- Leaving through the label `exit` is right if it reports an error and drops the connection. -/
theorem connectTruthful_exit_iff (hconn : cs.isConnected = false) (hnet : cs.netIsConnected = true)
    (hquiet : cs.Quiet cs') {ret : Int} (hno : ¬ cs.ConnectAccepted x)
    (hret : mqttClientConnect i l cs x = some (connectExit ret l cs')) :
    ConnectTruthful i l cs x ↔ ret ≠ 0 ∧ Droppable i l cs := by
  have hconn' : cs'.isConnected = false := hquiet.isConnected.trans hconn
  have hexit : connectExit ret l cs' = (ret, l, cs'.mqttNetDisconnect) := by
    unfold connectExit
    rw [hconn']
    rfl
  rw [hexit] at hret
  constructor
  · rintro ⟨ret', l', cs'', h, hok, hdrop⟩
    cases hret.symm.trans h
    obtain ⟨-, hnet', hlist⟩ := hdrop hno
    refine ⟨fun hzero => ?_, ?_, hlist⟩
    · obtain ⟨cs₁, cs₂, hsent, hacc, -⟩ := hok.1 hzero
      exact hno ⟨cs₁, cs₂, hsent, hacc⟩
    · by_contra hport
      have hkeep : cs'.mqttNetDisconnect = cs' := by
        unfold Session.mqttNetDisconnect
        rw [if_neg (by rwa [hquiet.disconnect])]
      rw [hkeep, hquiet.netIsConnected, hnet] at hnet'
      cases hnet'
  · rintro ⟨hne, hport, hlist⟩
    have hgone : cs'.mqttNetDisconnect.isConnected = false ∧
        cs'.mqttNetDisconnect.netIsConnected = false := by
      unfold Session.mqttNetDisconnect
      rw [if_pos (hquiet.disconnect.trans hport)]
      exact ⟨hconn', rfl⟩
    refine ⟨ret, l, _, hret, ⟨fun hzero => absurd hzero hne, ?_⟩, fun _ => ⟨hgone.1, hgone.2, hlist⟩⟩
    rintro ⟨cs₁, cs₂, hsent, hacc, -⟩
    exact absurd ⟨cs₁, cs₂, hsent, hacc⟩ hno

/-- An accepted CONNECT: what is left is the subscriptions. -/
theorem connectTruthful_accepted_iff (hconn : cs.isConnected = false)
    (hnet : cs.netIsConnected = true) {cs₁ cs₂ : Session} (hsent : cs.ConnectSent x cs₁)
    (hacc : cs₁.ConnackAccepted cs₂) :
    ConnectTruthful i l cs x ↔
      Session.SubscribeFails cs₂.topicFilters (cs₂.connected x.now) ∨
        Session.AllSubscribed cs₂.topicFilters (cs₂.connected x.now) := by
  have hneg : ¬ MsgType.connack.code < 0 := by decide
  have hret : mqttClientConnect i l cs x =
      (Session.subscribeHandler cs₂.topicFilters (cs₂.connected x.now)).map fun r =>
        (r.1, l.addTail (some i) none, r.2) := by
    rw [mqttClientConnect_sent hconn hnet hsent, hacc.2.1, Option.bind_some, if_neg hneg,
      if_pos rfl, hacc.2.2]
    rfl
  obtain ⟨hlock, len, hlen, hpos, hsend⟩ := hsent
  obtain ⟨hwhole, hread, hcode⟩ := hacc
  have hsub : (∃ cs₁' cs₂', cs.ConnectSent x cs₁' ∧ cs₁'.ConnackAccepted cs₂' ∧
      Session.AllSubscribed cs₂'.topicFilters (cs₂'.connected x.now)) ↔
        Session.AllSubscribed cs₂.topicFilters (cs₂.connected x.now) := by
    constructor
    · rintro ⟨cs₁', cs₂', ⟨-, len', hlen', -, hsend'⟩, ⟨-, hread', -⟩, hall⟩
      cases hlen.symm.trans hlen'
      cases hsend.symm.trans hsend'
      cases hread.symm.trans hread'
      exact hall
    · exact fun hall => ⟨cs₁, cs₂, ⟨hlock, len, hlen, hpos, hsend⟩, ⟨hwhole, hread, hcode⟩, hall⟩
  have hmarked : (cs₂.connected x.now).isConnected = true := rfl
  rw [← Session.subscribeHandler_truthful_iff hmarked]
  constructor
  · rintro ⟨ret, l', cs', h, hok, -⟩
    rw [hret] at h
    obtain ⟨r, hr, hr'⟩ := Option.map_eq_some_iff.1 h
    cases hr'
    exact ⟨r, hr, hok.trans hsub⟩
  · rintro ⟨r, hr, hok⟩
    rw [hr] at hret
    exact ⟨r.1, _, r.2, hret, hok.trans hsub.symm,
      fun hno => absurd ⟨cs₁, cs₂, ⟨hlock, len, hlen, hpos, hsend⟩, hwhole, hread, hcode⟩ hno⟩

/-- A CONNACK that counts without being an acceptance marks the session. -/
theorem not_connectTruthful_counted (hconn : cs.isConnected = false)
    (hnet : cs.netIsConnected = true) {cs₁ cs₂ : Session} {code : Option UInt8}
    (hsent : cs.ConnectSent x cs₁) (hread : cs₁.mqttReadPacket = some (MsgType.connack.code, cs₂))
    (hcode : mqttDeserializeConnack cs₂.readbuf = some (1, code)) (hno : ¬ cs.ConnectAccepted x) :
    ¬ ConnectTruthful i l cs x := by
  have hneg : ¬ MsgType.connack.code < 0 := by decide
  have hret : mqttClientConnect i l cs x = connackReceived i l cs₂ code x.now := by
    rw [mqttClientConnect_sent hconn hnet hsent, hread, Option.bind_some, if_neg hneg, if_pos rfl,
      hcode]
    rfl
  rintro ⟨ret, l', cs', h, -, hdrop⟩
  obtain ⟨hgone, -⟩ := hdrop hno
  rw [hret] at h
  obtain ⟨r, hr, hr'⟩ := Option.map_eq_some_iff.1 h
  cases hr'
  have hmarked := (Session.quiet_subscribeHandler hr).isConnected
  rw [hgone] at hmarked
  cases hmarked

/-- Something that does not count as a CONNACK is reported; the connection is to be dropped. -/
theorem connectTruthful_noConnack_iff (hconn : cs.isConnected = false)
    (hnet : cs.netIsConnected = true) {cs₁ : Session} (hsent : cs.ConnectSent x cs₁)
    (hquiet : cs.Quiet cs₁) (hno : ¬ cs.ConnectAccepted x) (hnone : cs₁.NoConnack) :
    ConnectTruthful i l cs x ↔ Droppable i l cs := by
  have hminus : (-1 : Int) ≠ 0 := by decide
  obtain ⟨⟨t, cs₂⟩, hread, hle, hcode⟩ := hnone
  have hret : mqttClientConnect i l cs x = some (connectExit (-1) l cs₂) := by
    rw [mqttClientConnect_sent hconn hnet hsent, hread, Option.bind_some, if_neg (Int.not_lt.2 hle)]
    by_cases ht : t = MsgType.connack.code
    · obtain ⟨d, hd, hne⟩ := hcode ht
      rw [if_pos ht, hd, Option.bind_some, if_neg hne]
    · rw [if_neg ht]
  rw [connectTruthful_exit_iff hconn hnet (hquiet.trans (Session.quiet_mqttReadPacket hread)) hno
    hret]
  exact and_iff_right hminus

/-- What is left: a read out of the buffer, a read that fails, a CONNACK that counts. -/
theorem not_connectTruthful_other (hconn : cs.isConnected = false)
    (hnet : cs.netIsConnected = true) {cs₁ : Session} (hsent : cs.ConnectSent x cs₁)
    (hquiet : cs.Quiet cs₁) (hno : ¬ cs.ConnectAccepted x) (hnone : ¬ cs₁.NoConnack) :
    ¬ ConnectTruthful i l cs x := by
  have hcall := mqttClientConnect_sent (i := i) (l := l) hconn hnet hsent
  cases hread : cs₁.mqttReadPacket with
  | none =>
    rw [hread] at hcall
    rintro ⟨ret, l', cs', h, -⟩
    cases hcall.symm.trans h
  | some r =>
    obtain ⟨t, cs₂⟩ := r
    rw [hread, Option.bind_some] at hcall
    rcases Int.lt_or_le t 0 with hlt | hle
    · -- nothing is put into `ret`
      rw [if_pos hlt] at hcall
      rw [connectTruthful_exit_iff hconn hnet
        (hquiet.trans (Session.quiet_mqttReadPacket hread)) hno hcall]
      exact fun h => h.1 rfl
    rw [if_neg (Int.not_lt.2 hle)] at hcall
    by_cases ht : t = MsgType.connack.code
    · subst ht
      rw [if_pos rfl] at hcall
      cases hd : mqttDeserializeConnack cs₂.readbuf with
      | none =>
        rw [hd] at hcall
        rintro ⟨ret, l', cs', h, -⟩
        cases hcall.symm.trans h
      | some d =>
        obtain ⟨rc, code⟩ := d
        by_cases hrc : rc = 1
        · subst hrc
          exact not_connectTruthful_counted hconn hnet hsent hread hd hno
        · exact absurd ⟨_, hread, hle, fun _ => ⟨_, hd, hrc⟩⟩ hnone
    · exact absurd ⟨_, hread, hle, fun h => absurd h ht⟩ hnone

/-- What comes for the CONNECT decides. -/
theorem connectTruthful_sent_iff (hconn : cs.isConnected = false) (hnet : cs.netIsConnected = true)
    {cs₁ : Session} (hsent : cs.ConnectSent x cs₁) (hquiet : cs.Quiet cs₁) :
    ConnectTruthful i l cs x ↔ cs₁.NoConnack ∧ Droppable i l cs ∨
      ∃ cs₂, cs₁.ConnackAccepted cs₂ ∧
        (Session.SubscribeFails cs₂.topicFilters (cs₂.connected x.now) ∨
          Session.AllSubscribed cs₂.topicFilters (cs₂.connected x.now)) := by
  by_cases hacc : ∃ cs₂, cs₁.ConnackAccepted cs₂
  · obtain ⟨cs₂, hacc⟩ := hacc
    rw [connectTruthful_accepted_iff hconn hnet hsent hacc]
    constructor
    · exact fun h => .inr ⟨cs₂, hacc, h⟩
    · rintro (h | ⟨cs₃, hacc', h⟩)
      · exact absurd h.1 hacc.not_noConnack
      · cases hacc.2.1.symm.trans hacc'.2.1
        exact h
  have hno : ¬ cs.ConnectAccepted x := fun h => hacc (hsent.connack h)
  by_cases hnone : cs₁.NoConnack
  · rw [connectTruthful_noConnack_iff hconn hnet hsent hquiet hno hnone]
    constructor
    · exact fun h => .inl ⟨hnone, h⟩
    · rintro (h | ⟨cs₂, h, -⟩)
      · exact h.2
      · exact absurd ⟨cs₂, h⟩ hacc
  · refine iff_of_false (not_connectTruthful_other hconn hnet hsent hquiet hno hnone) ?_
    rintro (h | ⟨cs₂, h, -⟩)
    · exact hnone h.1
    · exact hacc ⟨cs₂, h⟩

/-- The result of `mqtt_client_connect` is true exactly for the answers named. -/
theorem connectTruthful_iff_connectFine (i : ι) (l : Links (Option ι)) (cs : Session)
    (x : ConnectInput) (hconn : cs.isConnected = false) (hnet : cs.netIsConnected = true) :
    ConnectTruthful i l cs x ↔ ConnectFine i l cs x := by
  have hsize : (cs.configured x.options).bufSize = cs.bufSize := rfl
  by_cases hlock : x.locked = true
  swap
  · -- the call returns at once and leaves the connection
    refine iff_of_false ?_ fun h => hlock h.1
    rintro ⟨ret, l', cs', h, -, hdrop⟩
    have hret : mqttClientConnect i l cs x = some (-1, l, cs) := by
      unfold mqttClientConnect
      rw [Bool.not_eq_true] at hlock
      rw [hlock]
      rfl
    cases hret.symm.trans h
    obtain ⟨-, hnet', -⟩ := hdrop fun ⟨_, _, ⟨h, _⟩, _⟩ => hlock h
    rw [hnet] at hnet'
    cases hnet'
  have hcall := mqttClientConnect_locked (i := i) (l := l) hconn hnet hlock
  have hconf : cs.Quiet (cs.configured x.options) := quiet_configured x.options
  cases hlen : mqttSerializeConnect x.options cs.bufSize.toNat with
  | none =>
    refine iff_of_false ?_ ?_
    · rintro ⟨ret, l', cs', h, -⟩
      rw [hcall] at h
      unfold connectExchange at h
      simp only [hsize, hlen] at h
      cases h
    · rintro ⟨-, len, h, -⟩
      cases hlen.symm.trans h
  | some len =>
    have hfine : ConnectFine i l cs x ↔ 0 < len ∧
        let sent := (cs.configured x.options).mqttSendPacket .connect len
        ((sent.1 ≠ 0 ∨ sent.2.NoConnack) ∧ Droppable i l cs ∨
          sent.1 = 0 ∧ ∃ cs₂, sent.2.ConnackAccepted cs₂ ∧
            (Session.SubscribeFails cs₂.topicFilters (cs₂.connected x.now) ∨
              Session.AllSubscribed cs₂.topicFilters (cs₂.connected x.now))) := by
      constructor
      · rintro ⟨-, len', h, hrest⟩
        cases hlen.symm.trans h
        exact hrest
      · exact fun h => ⟨hlock, len, hlen, h⟩
    rw [hfine]
    rcases Int.lt_or_le 0 len with hpos | hnpos
    swap
    · -- nothing is put into `ret`
      have hret : mqttClientConnect i l cs x =
          some (connectExit 0 l (cs.configured x.options)) := by
        rw [hcall]
        unfold connectExchange
        simp only [hsize, hlen, Option.bind_some, if_pos hnpos]
      have hno : ¬ cs.ConnectAccepted x := by
        rintro ⟨cs₁, cs₂, ⟨-, len', h, hpos, -⟩, -⟩
        cases hlen.symm.trans h
        omega
      rw [connectTruthful_exit_iff hconn hnet hconf hno hret]
      exact iff_of_false (fun h => h.1 rfl) fun h => by omega
    simp only [hpos, true_and]
    have hquiet : cs.Quiet ((cs.configured x.options).mqttSendPacket .connect len).2 :=
      hconf.trans (Session.quiet_mqttSendPacket .connect len)
    generalize hsend : (cs.configured x.options).mqttSendPacket .connect len = sent at hquiet ⊢
    obtain ⟨rc, cs₁⟩ := sent
    by_cases hrc : rc = 0
    · subst hrc
      rw [connectTruthful_sent_iff hconn hnet ⟨hlock, len, hlen, hpos, hsend⟩ hquiet]
      simp only [ne_eq, not_true_eq_false, false_or, true_and]
    · have hret : mqttClientConnect i l cs x = some (connectExit rc l cs₁) := by
        rw [hcall]
        unfold connectExchange
        simp only [hsize, hlen, Option.bind_some, if_neg (Int.not_le.2 hpos), hsend, ne_eq, hrc,
          not_false_eq_true, if_true]
      have hno : ¬ cs.ConnectAccepted x := by
        rintro ⟨cs₁', cs₂, ⟨-, len', h, -, hsend'⟩, -⟩
        cases hlen.symm.trans h
        cases hsend.symm.trans hsend'
        exact hrc rfl
      rw [connectTruthful_exit_iff hconn hnet hquiet hno hret]
      simp only [ne_eq, hrc, not_false_eq_true, true_or, true_and, false_and, or_false]

end

/-! ## Three calls -/

/-- A session with a network connection, whose port sends packets of 15 bytes as a whole. -/
def connecting (writes : List Int) (reads : List ReadAnswer) : Session :=
  { Session.reading reads with isConnected := false, answers := ⟨writes, reads⟩ }

/-- The options of a client named by one byte: the CONNECT takes 15 bytes. -/
def shortOptions : ConnectInput where
  locked := true
  answers := ⟨[], []⟩
  options := ⟨4, ⟨some [97], none⟩, 60, false, ⟨none, none⟩, ⟨none, none⟩, ⟨none, none⟩,
    ⟨none, none⟩⟩
  now := 0

theorem notListed_init : NotListed (0 : Nat) Links.init := by
  intro ns h
  rw [h.unique Links.circular_init]
  exact List.not_mem_nil

/-- A client with a topic whose packets are sent as a whole. The server accepts it and grants the
topic. -/
def subscribing : Session :=
  { connecting [15, 8] [.bytes [0x20], .bytes [2], .bytes [0, 0], .bytes [0x90], .bytes [3],
      .bytes [0, 1, 0]] with topicFilters := [some [97]] }

/-- The session when a packet has been read. -/
def Session.received (cs : Session) : Session := (cs.mqttReadPacket.getD (0, cs)).2

/-- The CONNECT of the client has been sent. -/
def subscribingConnect : Session :=
  ((subscribing.configured shortOptions.options).mqttSendPacket .connect 15).2

/-- Its SUBSCRIBE has been sent. -/
def subscribingSent : Session :=
  ((subscribingConnect.received.connected 0).sendSubscribe [97]).getD subscribing

theorem subscribing_connack : subscribingConnect.ConnackAccepted subscribingConnect.received :=
  ⟨⟨0x20, _, _, rfl, rfl, rfl, by decide, fun _ => rfl⟩, rfl, by decide +kernel⟩

theorem subscribing_granted : subscribingSent.Granted subscribingSent.received :=
  ⟨⟨0x90, _, _, rfl, rfl, rfl, by decide, fun _ => rfl⟩, rfl, 0, by decide, by decide,
    by decide +kernel⟩

/-- The CONNECT cannot be sent, or the client is accepted with its topic. -/
theorem connectTruthful_calls :
    ConnectTruthful (0 : Nat) Links.init (connecting [] []) shortOptions ∧
      ConnectTruthful (0 : Nat) Links.init subscribing shortOptions := by
  refine ⟨?_, ?_⟩
  · exact (connectTruthful_iff_connectFine 0 Links.init (connecting [] []) shortOptions rfl rfl).2
      ⟨rfl, 15, by decide, by decide, .inl ⟨.inl (by decide), rfl, notListed_init⟩⟩
  · exact (connectTruthful_iff_connectFine 0 Links.init subscribing shortOptions rfl rfl).2
      ⟨rfl, 15, rfl, by decide, .inr ⟨rfl, _, subscribing_connack,
        .inr ⟨_, _, rfl, subscribing_granted, trivial⟩⟩⟩

/-- The server refuses the client with the return code 5, and the result is `MQTT_OK`. -/
theorem not_connectTruthful_refused :
    ¬ ∀ (i : Nat) (l : Links (Option Nat)) (cs : Session) (x : ConnectInput),
      cs.isConnected = false → cs.netIsConnected = true → ConnectTruthful i l cs x := by
  intro h
  obtain ⟨ret, l', cs', hret, hok, -⟩ := h 0 Links.init
    (connecting [15] [.bytes [0x20], .bytes [2], .bytes [0, 5]]) shortOptions rfl rfl
  have hzero : (mqttClientConnect 0 Links.init
      (connecting [15] [.bytes [0x20], .bytes [2], .bytes [0, 5]]) shortOptions).map (·.1) =
        some 0 := by decide +kernel
  rw [hret, Option.map_some, Option.some.injEq] at hzero
  obtain ⟨cs₁, cs₂, ⟨-, len, hlen, -, hsend⟩, ⟨-, hread, hcode⟩, -⟩ := hok.1 hzero
  have hlen' : len = 15 := Option.some.inj (hlen.symm.trans rfl)
  subst hlen'
  have hrefused : (((connecting [15] [.bytes [0x20], .bytes [2], .bytes [0, 5]]).configured
      shortOptions.options).mqttSendPacket .connect 15).2.mqttReadPacket.bind
        (fun r => mqttDeserializeConnack r.2.readbuf) = some (1, some 5) := by decide +kernel
  rw [hsend] at hrefused
  simp only [hread, Option.bind_some, hcode] at hrefused
  cases hrefused

end AppXd.Mqtt
