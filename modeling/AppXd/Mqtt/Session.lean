import AppXd.Lib.Trace
import AppXd.Mqtt.SessionLog

/-!
# Runs of the MQTT client

Any number of sessions connect, publish and disconnect while the handler serves the first of the
list. A session that is marked as connected should have its network connection, be in the list and
have had its CONNECT accepted; a run keeps this as long as no connection is lost under a session.
-/

namespace AppXd.Mqtt

open Trace (Run Guarded PFun)

variable {ι : Type*} [DecidableEq ι]

inductive Event (ι : Type*)
  /-- The port's function leaves this value in `netport.socket`. -/
  | netConnect (i : ι) (socket : Int)
  | netDisconnect (i : ι)
  | connect (i : ι) (x : ConnectInput)
  | disconnect (i : ι) (locked : Bool) (answers : Answers)
  | handler (x : HandlerInput)
  | publish (i : ι) (locked malloced : Bool) (qos : Nat) (topic msgStr : List UInt8)
  | subscribe (i : ι) (locked : Bool) (answers : Answers) (topic : List UInt8)

/-- A call of `mqtt_client_connect` begins. -/
def Session.entered (cs : Session) (answers : Answers) : Session := (cs.load answers).note .called

@[simp] theorem entered_netIsConnected (cs : Session) (answers : Answers) :
    (cs.entered answers).netIsConnected = cs.netIsConnected := rfl

@[simp] theorem entered_isConnected (cs : Session) (answers : Answers) :
    (cs.entered answers).isConnected = cs.isConnected := rfl

def Client.step (s : Client ι) : Event ι → Option (Client ι)
  | .netConnect i socket => some (s.put i s.links ((s.sessions i).mqttNetConnect socket).2)
  | .netDisconnect i => some (s.put i s.links (s.sessions i).mqttNetDisconnect)
  | .connect i x =>
    (mqttClientConnect i s.links ((s.sessions i).entered x.answers) x).map fun r =>
      s.put i r.2.1 (r.2.2.note (.returned r.1))
  | .disconnect i locked answers =>
    let r := mqttClientDisconnect i s.links ((s.sessions i).load answers) locked
    some (s.put i r.2.1 r.2.2)
  | .handler x => mqttCoreHandler s x
  | .publish i locked malloced qos topic msgStr =>
    some (s.put i s.links ((s.sessions i).mqttClientPublish locked malloced qos topic msgStr).2)
  | .subscribe i locked answers topic =>
    (((s.sessions i).load answers).mqttClientSubscribe locked topic).map fun r =>
      s.put i s.links r.2

/-! ## Consistency -/

/-- A session is what its flags say, with its node in the list or not. -/
structure Session.Law (listed : Prop) (cs : Session) : Prop where
  connected : cs.isConnected = true → cs.netIsConnected = true ∧ listed ∧ accepted cs.log = true
  truthful : truthful cs.log = true

def Consistent (s : Client ι) (i : ι) : Prop :=
  (s.sessions i).Law (s.links.OnceIn none (some i))

/-- No session has been used. -/
structure Fresh (s : Client ι) : Prop where
  links : s.links = Links.init
  sessions : ∀ i, (s.sessions i).isConnected = false ∧ (s.sessions i).log = []

/-! ## The condition -/

/-- The buffer takes the CONNECT. -/
def ConnectFits (cs : Session) (o : ConnectData) : Prop :=
  mqttPacketLen (mqttSerializeConnectLength o) ≤ cs.bufSize.toNat

/-- The return code of the CONNACK that comes if the CONNECT is sent. -/
def connackAnswer (cs : Session) (o : ConnectData) : Option (Option UInt8) :=
  (mqttSerializeConnect o cs.bufSize.toNat).bind fun len =>
  let r := cs.mqttSendPacket .connect len
  if r.1 ≠ 0 then none
  else
    r.2.mqttReadPacket.bind fun r =>
    if r.1 = MsgType.connack.code then
      (mqttDeserializeConnack r.2.readbuf).bind fun d => if d.1 = 1 then some d.2 else none
    else none

/-- The CONNECT fits, and a CONNACK that comes for it accepts it. -/
def ConnectGood (cs : Session) (x : ConnectInput) : Prop :=
  ConnectFits cs x.options ∧
    ∀ code ∈ connackAnswer (cs.configured x.options) x.options, code = some 0

/-- The handler finds its connection lost: a ping that is due cannot be sent, `select` fails, or
what there is to read cannot be. -/
def Drops (cs : Session) (x : HandlerInput) : Prop :=
  x.res = 0 ∧ cs.PingDue x ∧
      (cs.mqttSendPacket .pingreq (mqttSerializePingreq cs.bufSize.toNat)).1 ≠ 0 ∨
    x.res < 0 ∨
    0 < x.res ∧ x.fdIsSet = true ∧ ∃ r ∈ cs.mqttCycle x.now, r.1 < 0

/-- The step loses no connection that session `i` has, and no CONNECT that `i` sends is refused or
too long for the buffer. -/
def KeepsSession (i : ι) (s : Client ι) : Event ι → Prop
  | .netDisconnect j =>
    i = j → (s.sessions j).isConnected = false ∨ (s.sessions j).disconnect = false
  | .connect j x =>
    i = j → x.locked = true → (s.sessions j).netIsConnected = true →
      (s.sessions j).isConnected = false → ConnectGood ((s.sessions j).entered x.answers) x
  | .handler x =>
    s.links.next none = some i → x.locked = true →
      ¬ Drops ((s.sessions i).load x.answers).sendQueued x
  | .netConnect .. | .disconnect .. | .publish .. | .subscribe .. => True

section
variable (cs : Session)

instance (o : ConnectData) : Decidable (ConnectFits cs o) := inferInstanceAs (Decidable (_ ≤ _))

instance (x : ConnectInput) : Decidable (ConnectGood cs x) := inferInstanceAs (Decidable (_ ∧ _))

instance (x : HandlerInput) : Decidable (Drops cs x) := inferInstanceAs (Decidable (_ ∨ _ ∨ _))

end

instance (i : ι) (s : Client ι) (e : Event ι) : Decidable (KeepsSession i s e) :=
  match e with
  | .netDisconnect _ => inferInstanceAs (Decidable (_ → _ ∨ _))
  | .connect .. => inferInstanceAs (Decidable (_ → _ → _ → _ → _))
  | .handler _ => inferInstanceAs (Decidable (_ → _ → ¬ _))
  | .netConnect .. | .disconnect .. | .publish .. | .subscribe .. => inferInstanceAs (Decidable True)

/-! ## Invariants -/

/-- What holds of a session whether or not it is consistent. -/
structure Session.WF (cs : Session) : Prop where
  bufSize : cs.isConnected = true → 2 ≤ cs.bufSize.toNat
  accepted : accepted cs.log = true → cs.isConnected = true

/-- The list is one, and only sessions marked as connected are in it. -/
structure Inv (s : Client ι) (ns : List (Option ι)) : Prop where
  circular : s.links.Circular none ns
  connected : ∀ i, some i ∈ ns → (s.sessions i).isConnected = true
  alone : ∀ i, some i ∉ ns → s.links.isEmpty (some i) = true
  session : ∀ i, (s.sessions i).WF

section
variable {s : Client ι} {i j : ι} {ns ns' : List (Option ι)} {l : Links (Option ι)} {cs : Session}

@[simp] theorem put_links : (s.put i l cs).links = l := rfl

@[simp] theorem put_sessions_self : (s.put i l cs).sessions i = cs := by
  unfold Client.put
  exact Function.update_self ..

theorem put_sessions_of_ne (h : j ≠ i) : (s.put i l cs).sessions j = s.sessions j := by
  unfold Client.put
  exact Function.update_of_ne h ..

theorem Inv.consistent_iff (h : Inv s ns) : Consistent s i ↔ (s.sessions i).Law (some i ∈ ns) := by
  unfold Consistent
  rw [h.circular.onceIn_iff]

theorem Fresh.inv (h : Fresh s) : Inv s [] where
  circular := h.links ▸ Links.circular_init
  connected i hi := (List.not_mem_nil hi).elim
  alone i _ := by
    rw [h.links]
    simp [Links.init]
  session i := by
    obtain ⟨hc, hlog⟩ := h.sessions i
    refine ⟨fun hc' => ?_, fun ha => ?_⟩
    · exact absurd (hc.symm.trans hc') Bool.false_ne_true
    · rw [hlog] at ha
      cases ha

theorem Fresh.consistent (h : Fresh s) : Consistent s i := by
  obtain ⟨hc, hlog⟩ := h.sessions i
  refine ⟨fun hc' => absurd (hc.symm.trans hc') Bool.false_ne_true, ?_⟩
  rw [hlog]
  rfl

theorem Inv.session_put (h : Inv s ns) (hwf : cs.WF) : ((s.put i l cs).sessions j).WF := by
  by_cases hj : j = i
  · subst hj
    rw [put_sessions_self]
    exact hwf
  · rw [put_sessions_of_ne hj]
    exact h.session j

theorem Inv.kept (h : Inv s ns) (hwf : cs.WF)
    (hc : (s.sessions i).isConnected = true → cs.isConnected = true) :
    Inv (s.put i s.links cs) ns where
  circular := h.circular
  connected j hj := by
    by_cases hji : j = i
    · subst hji
      rw [put_sessions_self]
      exact hc (h.connected j hj)
    · rw [put_sessions_of_ne hji]
      exact h.connected j hj
  alone := h.alone
  session j := h.session_put hwf

theorem Inv.removed (h : Inv s ns) (hwf : cs.WF) :
    Inv (s.put i (removeNode s.links i) cs) (ns.filter (· ≠ some i)) := by
  have hconnected : ∀ j, some j ∈ ns.filter (· ≠ some i) →
      ((s.put i (removeNode s.links i) cs).sessions j).isConnected = true := by
    intro j hj
    obtain ⟨hj, hji⟩ := List.mem_filter.1 hj
    rw [put_sessions_of_ne (fun heq => of_decide_eq_true hji (congrArg some heq))]
    exact h.connected j hj
  by_cases hi : some i ∈ ns
  · have hempty : s.links.isEmpty (some i) = false :=
      Bool.eq_false_iff.2 fun he => h.circular.next_ne hi (Links.isEmpty_iff.1 he)
    have hlinks : removeNode s.links i = s.links.delInit (some i) := by simp [removeNode, hempty]
    refine ⟨?_, hconnected, ?_, fun j => h.session_put hwf⟩
    · rw [put_links, hlinks]
      exact h.circular.delInit hi
    · intro j hj
      rw [put_links, hlinks, Links.isEmpty_iff]
      by_cases hji : j = i
      · rw [hji, Links.next_delInit_self]
      · have hj : some j ∉ ns := fun hmem =>
          hj (List.mem_filter.2 ⟨hmem, decide_eq_true fun heq => hji (Option.some.inj heq)⟩)
        rw [h.circular.next_delInit hi (by simp [hj])]
        exact Links.isEmpty_iff.1 (h.alone j hj)
  · have hlinks : removeNode s.links i = s.links := by simp [removeNode, h.alone i hi]
    have hns : ns.filter (· ≠ some i) = ns :=
      List.filter_eq_self.2 fun a ha => decide_eq_true fun heq => hi (heq ▸ ha)
    rw [hns] at hconnected ⊢
    rw [hlinks] at hconnected ⊢
    exact ⟨h.circular, hconnected, h.alone, fun j => h.session_put hwf⟩

theorem Inv.added (h : Inv s ns) (hwf : cs.WF) (hold : (s.sessions i).isConnected = false)
    (hnew : cs.isConnected = true) :
    Inv (s.put i (s.links.addTail (some i) none) cs) (ns ++ [some i]) := by
  have hi : some i ∉ ns := fun hmem =>
    absurd (hold.symm.trans (h.connected i hmem)) Bool.false_ne_true
  refine ⟨h.circular.addTail (by simp [hi]), ?_, ?_, fun j => h.session_put hwf⟩
  · intro j hj
    by_cases hji : j = i
    · subst hji
      rw [put_sessions_self]
      exact hnew
    · rw [put_sessions_of_ne hji]
      rcases List.mem_append.1 hj with hj | hj
      · exact h.connected j hj
      · exact absurd (Option.some.inj (List.mem_singleton.1 hj)) hji
  · intro j hj
    obtain ⟨hj, hji⟩ := not_or.1 (fun hmem => hj (List.mem_append.2 hmem))
    rw [put_links, Links.isEmpty_iff,
      h.circular.next_addTail (by simp [hj]) (fun heq => hji (List.mem_singleton.2 heq))]
    exact Links.isEmpty_iff.1 (h.alone j hj)

end

/-! ## One step -/

/-- What a call does to the list and to its session `i`, where `good` tells whether the session is
consistent behind it. -/
inductive Does (i : ι) (l : Links (Option ι)) (cs : Session) (good : Prop) :
    Links (Option ι) → Session → Prop
  | kept {cs'} : cs'.WF → (cs.isConnected = true → cs'.isConnected = true) →
    (∀ p, cs.Law p → (cs'.Law p ↔ good)) → Does i l cs good l cs'
  | removed {cs'} : cs'.WF → (∀ p, cs.Law p → (cs'.Law False ↔ good)) →
    Does i l cs good (removeNode l i) cs'
  | added {cs'} : cs'.WF → cs.isConnected = false → cs'.isConnected = true →
    (∀ p, cs.Law p → (cs'.Law True ↔ good)) → Does i l cs good (l.addTail (some i) none) cs'

section
variable {s : Client ι} {i j : ι} {ns ns' : List (Option ι)} {l : Links (Option ι)}
  {cs : Session} {good : Prop}

theorem Inv.consistent_put_of_ne (h : Inv s ns) (h' : Inv (s.put i l cs) ns') (hj : j ≠ i)
    (hmem : some j ∈ ns' ↔ some j ∈ ns) : Consistent (s.put i l cs) j ↔ Consistent s j := by
  rw [h.consistent_iff, h'.consistent_iff, put_sessions_of_ne hj, hmem]

theorem Inv.consistent_put (h : Inv s ns) (h' : Inv (s.put i l cs) ns') {p : Prop}
    (hmem : some i ∈ ns' ↔ p) (hlaw : ∀ q, (s.sessions i).Law q → (cs.Law p ↔ good))
    (hc : Consistent s i) : Consistent (s.put i l cs) i ↔ good := by
  rw [h'.consistent_iff, put_sessions_self, hmem]
  exact hlaw _ (h.consistent_iff.1 hc)

theorem Inv.does (h : Inv s ns) (hd : Does i s.links (s.sessions i) good l cs) :
    ∃ ns', Inv (s.put i l cs) ns' ∧ (Consistent s i → (Consistent (s.put i l cs) i ↔ good)) ∧
      ∀ j ≠ i, (Consistent (s.put i l cs) j ↔ Consistent s j) := by
  cases hd with
  | kept hwf hc hlaw =>
    have h' := h.kept hwf hc
    refine ⟨ns, h', ?_, fun j hj => h.consistent_put_of_ne h' hj Iff.rfl⟩
    intro hcons
    rw [h'.consistent_iff, put_sessions_self]
    exact hlaw _ (h.consistent_iff.1 hcons)
  | removed hwf hlaw =>
    have h' := h.removed (i := i) hwf
    refine ⟨_, h', h.consistent_put h' (by simp) hlaw, ?_⟩
    intro j hj
    exact h.consistent_put_of_ne h' hj (by simp [hj])
  | added hwf hold hnew hlaw =>
    have h' := h.added hwf hold hnew
    refine ⟨_, h', h.consistent_put h' (by simp) hlaw, ?_⟩
    intro j hj
    exact h.consistent_put_of_ne h' hj (by simp [hj])

end

section
variable {i : ι} {l : Links (Option ι)} {cs cs' : Session} {good p : Prop} {answers : Answers}

open Session (Quiet)

theorem quiet_load (cs : Session) (answers : Answers) : cs.Quiet (cs.load answers) :=
  ⟨rfl, rfl, rfl, rfl, [], rfl⟩

theorem wf_quiet (hq : cs.Quiet cs') (h : cs.WF) : cs'.WF where
  bufSize hc := by
    rw [hq.bufSize]
    exact h.bufSize (hq.isConnected ▸ hc)
  accepted ha := by
    rw [hq.isConnected]
    exact h.accepted (hq.accepted ▸ ha)

theorem law_quiet (hq : cs.Quiet cs') : cs'.Law p ↔ cs.Law p := by
  constructor
  · rintro ⟨hc, ht⟩
    rw [hq.isConnected, hq.netIsConnected, hq.accepted] at hc
    exact ⟨hc, hq.truthful ▸ ht⟩
  · rintro ⟨hc, ht⟩
    refine ⟨?_, hq.truthful.trans ht⟩
    rw [hq.isConnected, hq.netIsConnected, hq.accepted]
    exact hc

theorem does_quiet (h : cs.WF) (hq : cs.Quiet cs') (hgood : good) : Does i l cs good l cs' :=
  .kept (wf_quiet hq h) (fun hc => hq.isConnected.trans hc)
    fun _ hlaw => iff_of_true ((law_quiet hq).2 hlaw) hgood

/-- A session that is not marked as connected is well-formed if no CONNECT counts as accepted. -/
theorem wf_of_not_connected (hc : cs.isConnected = false) (ha : accepted cs.log = false) : cs.WF where
  bufSize hc' := absurd (hc.symm.trans hc') Bool.false_ne_true
  accepted ha' := absurd (ha.symm.trans ha') Bool.false_ne_true

theorem law_of_not_connected (hc : cs.isConnected = false) :
    cs.Law p ↔ truthful cs.log = true :=
  ⟨fun h => h.truthful, fun ht => ⟨fun hc' => absurd (hc.symm.trans hc') Bool.false_ne_true, ht⟩⟩

theorem accepted_eq_false (h : cs.WF) (hc : cs.isConnected = false) : accepted cs.log = false :=
  Bool.eq_false_iff.2 fun ha => absurd (hc.symm.trans (h.accepted ha)) Bool.false_ne_true

/-! ### The network connection -/

theorem does_mqttNetConnect (h : cs.WF) (socket : Int) :
    Does i l cs True l (cs.mqttNetConnect socket).2 := by
  unfold Session.mqttNetConnect
  cases hnet : cs.netIsConnected with
  | true => exact does_quiet h (Quiet.refl cs) trivial
  | false =>
    simp only [Bool.not_false, if_true]
    split
    · refine .kept ⟨h.bufSize, fun ha => ?_⟩ id fun p hlaw => iff_of_true ⟨?_, hlaw.truthful⟩ trivial
      · cases ha
      · intro hc
        exact absurd (hnet.symm.trans (hlaw.connected hc).1) Bool.false_ne_true
    · exact does_quiet h ⟨hnet.symm, rfl, rfl, rfl, [], rfl⟩ trivial

theorem mqttNetDisconnect_isConnected : cs.mqttNetDisconnect.isConnected = cs.isConnected := by
  unfold Session.mqttNetDisconnect
  split <;> rfl

theorem mqttNetDisconnect_log (cs : Session) :
    cs.mqttNetDisconnect.log = .closed :: cs.log ∨ cs.mqttNetDisconnect.log = cs.log := by
  unfold Session.mqttNetDisconnect
  split
  · exact .inl rfl
  · exact .inr rfl

theorem wf_mqttNetDisconnect (h : cs.WF) : cs.mqttNetDisconnect.WF := by
  unfold Session.mqttNetDisconnect
  split
  · exact ⟨h.bufSize, fun ha => nomatch ha⟩
  · exact h

theorem does_mqttNetDisconnect (h : cs.WF) :
    Does i l cs (cs.isConnected = false ∨ cs.disconnect = false) l cs.mqttNetDisconnect := by
  refine .kept (wf_mqttNetDisconnect h) (fun hc => mqttNetDisconnect_isConnected.trans hc) ?_
  intro p hlaw
  unfold Session.mqttNetDisconnect
  cases hd : cs.disconnect with
  | false =>
    simp only [Bool.false_eq_true, if_false, or_true, iff_true]
    exact hlaw
  | true =>
    simp only [if_true, Bool.true_eq_false, or_false]
    constructor
    · intro h'
      exact Bool.eq_false_iff.2 fun hc => absurd (h'.connected hc).1 Bool.false_ne_true
    · intro hc
      refine ⟨fun hc' => absurd (hc.symm.trans hc') Bool.false_ne_true, ?_⟩
      exact hlaw.truthful

theorem does_mqttClientDisconnect (h : cs.WF) (locked : Bool) :
    Does i l cs True (mqttClientDisconnect i l (cs.load answers) locked).2.1
      (mqttClientDisconnect i l (cs.load answers) locked).2.2 := by
  unfold mqttClientDisconnect
  split
  · exact does_quiet h (quiet_load cs answers) trivial
  · have hq : cs.Quiet (if 0 < mqttSerializeDisconnect (cs.load answers).bufSize.toNat then
        ((cs.load answers).mqttSendPacket .disconnect
          (mqttSerializeDisconnect (cs.load answers).bufSize.toNat)).2 else cs.load answers) := by
      split
      · exact (quiet_load cs answers).trans (Session.quiet_mqttSendPacket ..)
      · exact quiet_load cs answers
    refine .removed (wf_of_not_connected rfl rfl) fun p hlaw => iff_of_true ?_ trivial
    exact (law_of_not_connected rfl).2 (hq.truthful.trans hlaw.truthful)

/-! ### The handler -/

theorem serve_eq_true_iff {x : HandlerInput} {r : Bool × Session} (h : cs.serve x = some r) :
    r.1 = true ↔ Drops cs x := by
  unfold Session.serve at h
  unfold Drops
  split at h
  · have hres : x.res = 0 := ‹_›
    split at h
    · simp only at h
      split at h <;> cases h <;> simp [*]
    · cases h
      simp [*]
  split at h
  · cases h
    simp [*]
  have hpos : 0 < x.res := by omega
  split at h
  · obtain ⟨r₁, h₁, rfl⟩ := Option.map_eq_some_iff.1 h
    simp [*]
  · cases h
    simp [*]

theorem does_handle {x : HandlerInput} {r : Links (Option ι) × Session} (h : cs.WF)
    (hc : cs.isConnected = true) (hr : handle i l (cs.load x.answers) x = some r) :
    Does i l cs (x.locked = true → ¬ Drops (cs.load x.answers).sendQueued x) r.1 r.2 := by
  have hload := quiet_load cs x.answers
  unfold handle at hr
  split at hr
  · rename_i hlock
    cases hr
    refine does_quiet h hload fun hlocked => ?_
    simp [hlocked] at hlock
  split at hr
  · rename_i hflags
    cases hr
    -- the list holds marked sessions only, so it is the network connection that is missing
    refine .removed (wf_quiet hload h) fun p hlaw => ?_
    have hnet := (hlaw.connected hc).1
    rw [hload.isConnected, hload.netIsConnected, hc, hnet] at hflags
    cases hflags
  · obtain ⟨r₁, h₁, rfl⟩ := Option.map_eq_some_iff.1 hr
    have hq := hload.trans (Session.quiet_sendQueued.trans (Session.quiet_serve h₁))
    have hlock : x.locked = true := by
      rename_i hlock _
      simpa using hlock
    have hdrop := serve_eq_true_iff h₁
    cases hr₁ : r₁.1 with
    | false =>
      refine does_quiet h hq fun _ hdrops => ?_
      exact absurd (hr₁.symm.trans (hdrop.2 hdrops)) Bool.false_ne_true
    | true =>
      have hlen : mqttSerializeDisconnect r₁.2.bufSize.toNat = 2 := by
        rw [hq.bufSize]
        exact if_neg (Nat.not_lt.2 (h.bufSize hc))
      simp only [if_true, mqttClientSendDisconnectPacket, hlen, Int.reduceLT]
      have hq' := hq.trans (Session.quiet_mqttSendPacket .disconnect 2)
      refine .removed (wf_mqttNetDisconnect (wf_quiet hq' h)) fun p _ => iff_of_false ?_ ?_
      · intro hlaw
        refine (hlaw.connected ?_).2.1
        exact mqttNetDisconnect_isConnected.trans (hq'.isConnected.trans hc)
      · intro hgood
        exact hgood hlock (hdrop.1 hr₁)

/-! ### The connection of a session -/

/-- A CONNECT that the buffer takes has a length, and one that it does not take has none. -/
theorem mqttSerializeConnect_cases {o : ConnectData} {bufSize : Nat} {len : Int}
    (h : mqttSerializeConnect o bufSize = some len) :
    len < 0 ∧ bufSize < mqttPacketLen (mqttSerializeConnectLength o) ∨
      0 < len ∧ mqttPacketLen (mqttSerializeConnectLength o) ≤ bufSize ∧ 2 ≤ bufSize := by
  unfold mqttSerializeConnect at h
  split at h
  · rename_i hshort
    cases h
    exact .inl ⟨by decide, hshort⟩
  · rename_i hfits
    simp only at h
    split at h
    · cases h
      have hbody : 3 ≤ connectBody o := by
        unfold connectBody
        omega
      exact .inr ⟨by omega, Nat.le_of_not_lt hfits, by omega⟩
    · cases h

/-- The call returns at once. -/
theorem does_return {ret : Int} (h : cs.WF) (hret : ret = 0 → cs.isConnected = true)
    (hgood : good) : Does i l cs good l ((cs.entered answers).note (.returned ret)) := by
  refine .kept ⟨h.bufSize, h.accepted⟩ id fun p hlaw => iff_of_true ⟨hlaw.connected, ?_⟩ hgood
  have ht := hlaw.truthful
  by_cases hok : ret = 0
  · have ha := (hlaw.connected (hret hok)).2.2
    simp [Session.note, Session.entered, Session.load, truthful, accepted, ha, ht]
  · simp [Session.note, Session.entered, Session.load, truthful, hok, ht]

/-- The call returns with the list as it is, and without its network connection where the session is
not marked as connected. -/
theorem does_connectExit {ret : Int} (h : cs.WF) (hc : cs.isConnected = false)
    (hq : (cs.entered answers).Quiet cs')
    (hgood : (ret = 0 → sentInCall cs'.log = true) ↔ good) :
    Does i l cs good (connectExit ret l cs').2.1 ((connectExit ret l cs').2.2.note (.returned ret)) := by
  have hc' : cs'.isConnected = false := hq.isConnected.trans hc
  have hold : accepted cs.log = false := accepted_eq_false h hc
  have ha : accepted cs'.log = false := hq.accepted.trans hold
  have hexit : (connectExit ret l cs').2.2 = cs'.mqttNetDisconnect := by simp [connectExit, hc']
  rw [hexit]
  have hnot : (cs'.mqttNetDisconnect.note (.returned ret)).isConnected = false :=
    mqttNetDisconnect_isConnected.trans hc'
  refine .kept (wf_of_not_connected hnot ?_) (fun hcon => ?_) fun p hlaw => ?_
  · unfold Session.note accepted
    rcases mqttNetDisconnect_log cs' with hlog | hlog
    · rw [hlog]
      rfl
    · rw [hlog]
      exact ha
  · exact absurd (hc.symm.trans hcon) Bool.false_ne_true
  · have ht : truthful cs'.log = true := hq.truthful.trans hlaw.truthful
    rw [law_of_not_connected hnot, ← hgood]
    unfold Session.note
    rcases mqttNetDisconnect_log cs' with hlog | hlog
    · rw [hlog]
      simp [truthful, sentInCall, accepted, ht, Decidable.imp_iff_not_or]
    · rw [hlog]
      simp [truthful, ha, ht, Decidable.imp_iff_not_or]

/-- The session is marked, and goes to the end of the list. -/
theorem does_connackReceived {code : Option UInt8} {now : UInt32} {r : Int × Links (Option ι) × Session}
    (hc : cs.isConnected = false) (hnet : cs.netIsConnected = true)
    (hbuf : 2 ≤ cs.bufSize.toNat) (hq : (cs.entered answers).Quiet cs')
    (hsent : sentInCall cs'.log = true) (hr : connackReceived i l cs' code now = some r) :
    Does i l cs (code = some 0) r.2.1 (r.2.2.note (.returned r.1)) := by
  obtain ⟨r₁, h₁, rfl⟩ := Option.map_eq_some_iff.1 hr
  have hsub := Session.quiet_subscribeHandler h₁
  have hcon : r₁.2.isConnected = true := hsub.isConnected
  have hacc : accepted r₁.2.log = decide (code = some 0) := by
    rw [hsub.accepted]
    simp [Session.note, accepted, hsent]
  have hsent' : sentInCall r₁.2.log = true := hsub.sentInCall hsent
  refine .added ⟨fun _ => ?_, fun _ => hcon⟩ hc hcon fun p hlaw => ?_
  · have hsize : r₁.2.bufSize = cs.bufSize := hsub.bufSize.trans hq.bufSize
    show 2 ≤ r₁.2.bufSize.toNat
    rw [hsize]
    exact hbuf
  · have ht : truthful r₁.2.log = true := hsub.truthful.trans (hq.truthful.trans hlaw.truthful)
    have hnet' : r₁.2.netIsConnected = true :=
      hsub.netIsConnected.trans (hq.netIsConnected.trans hnet)
    constructor
    · intro hlaw'
      have hacc' : accepted r₁.2.log = true := (hlaw'.connected hcon).2.2
      exact of_decide_eq_true (hacc.symm.trans hacc')
    · intro hcode
      refine ⟨fun _ => ⟨hnet', trivial, hacc.trans (decide_eq_true hcode)⟩, ?_⟩
      simp [Session.note, truthful, hsent', ht]

/-- How the exchange ends: the CONNECT does not fit, no CONNACK comes, or one comes. -/
theorem connectExchange_cases {x : ConnectInput} {r : Int × Links (Option ι) × Session}
    (hcs' : cs.configured x.options = cs') (hr : connectExchange i l cs x = some r) :
    ¬ ConnectFits cs x.options ∧ r = connectExit 0 l cs' ∨
      ConnectFits cs x.options ∧ 2 ≤ cs.bufSize.toNat ∧
        ((connackAnswer cs' x.options = none ∧ ∃ ret cs₁, cs'.Quiet cs₁ ∧
            (ret = 0 → sentInCall cs₁.log = true) ∧ r = connectExit ret l cs₁) ∨
          ∃ code cs₁, connackAnswer cs' x.options = some code ∧ cs'.Quiet cs₁ ∧
            sentInCall cs₁.log = true ∧ connackReceived i l cs₁ code x.now = some r) := by
  have hsize : cs.bufSize = cs'.bufSize := by rw [← hcs']; rfl
  unfold connectExchange at hr
  unfold ConnectFits connackAnswer
  simp only [hcs', hsize] at hr ⊢
  obtain ⟨len, hlen, hr⟩ := Option.bind_eq_some_iff.1 hr
  rw [hlen, Option.bind_some]
  obtain ⟨hneg, hshort⟩ | ⟨hpos, hfits, hbuf⟩ := mqttSerializeConnect_cases hlen
  · rw [if_pos (Int.le_of_lt hneg)] at hr
    cases hr
    exact .inl ⟨Nat.not_le.2 hshort, rfl⟩
  rw [if_neg (Int.not_le.2 hpos)] at hr
  refine .inr ⟨hfits, hbuf, ?_⟩
  have hsend : cs'.Quiet _ := Session.quiet_mqttSendPacket .connect len
  by_cases hrc : (cs'.mqttSendPacket .connect len).1 = 0
  · have hsent : sentInCall (cs'.mqttSendPacket .connect len).2.log = true := by
      rw [Session.mqttSendPacket_log hrc]
      rfl
    simp only [hrc, ne_eq, not_true_eq_false, if_false] at hr ⊢
    obtain ⟨r₁, h₁, hr⟩ := Option.bind_eq_some_iff.1 hr
    rw [h₁, Option.bind_some]
    have hread := Session.quiet_mqttReadPacket h₁
    have hsent₁ := hread.sentInCall hsent
    split at hr
    · rename_i hneg
      have hne : r₁.1 ≠ MsgType.connack.code := fun heq => absurd (heq ▸ hneg) (by decide)
      cases hr
      rw [if_neg hne]
      exact .inl ⟨rfl, _, _, hsend.trans hread, fun _ => hsent₁, rfl⟩
    split at hr
    · rename_i hconnack
      obtain ⟨d, hd, hr⟩ := Option.bind_eq_some_iff.1 hr
      rw [if_pos hconnack, hd, Option.bind_some]
      split at hr
      · rename_i hok
        rw [if_pos hok]
        exact .inr ⟨_, _, rfl, hsend.trans hread, hsent₁, hr⟩
      · rename_i hok
        cases hr
        rw [if_neg hok]
        exact .inl ⟨rfl, _, _, hsend.trans hread, fun _ => hsent₁, rfl⟩
    · rename_i hconnack
      cases hr
      simp only [hconnack, if_false]
      exact .inl ⟨trivial, _, _, hsend.trans hread, fun _ => hsent₁, rfl⟩
  · simp only [hrc, ne_eq, not_false_eq_true, if_true] at hr ⊢
    cases hr
    exact .inl ⟨trivial, _, _, hsend, fun h0 => absurd h0 hrc, rfl⟩

theorem does_connectExchange {x : ConnectInput} {r : Int × Links (Option ι) × Session} (h : cs.WF)
    (hc : cs.isConnected = false) (hnet : cs.netIsConnected = true)
    (hr : connectExchange i l (cs.entered x.answers) x = some r) :
    Does i l cs (ConnectGood (cs.entered x.answers) x) r.2.1 (r.2.2.note (.returned r.1)) := by
  have hq : (cs.entered x.answers).Quiet ((cs.entered x.answers).configured x.options) :=
    ⟨rfl, rfl, rfl, rfl, [], rfl⟩
  obtain ⟨hfits, rfl⟩ | ⟨hfits, hbuf, hans⟩ := connectExchange_cases rfl hr
  · refine does_connectExit h hc hq (iff_of_false (fun h0 => ?_) fun hgood => hfits hgood.1)
    have hnot : sentInCall ((cs.entered x.answers).configured x.options).log = false := rfl
    exact absurd (hnot.symm.trans (h0 rfl)) Bool.false_ne_true
  rcases hans with ⟨hnone, ret, cs₁, hq₁, hsent, rfl⟩ | ⟨code, cs₁, hcode, hq₁, hsent, hr⟩
  · refine does_connectExit h hc (hq.trans hq₁) (iff_of_true hsent ⟨hfits, ?_⟩)
    rw [hnone]
    exact fun _ hmem => nomatch hmem
  · have hgood : ConnectGood (cs.entered x.answers) x ↔ code = some 0 := by
      unfold ConnectGood
      rw [hcode]
      simp [hfits]
    simp only [hgood]
    exact does_connackReceived hc hnet hbuf (hq.trans hq₁) hsent hr

/-- The call finds no network connection. -/
theorem does_notConnected (h : cs.WF) (hgood : good) :
    Does i l cs good (connectExit (-6600) l (cs.entered answers)).2.1
      ((connectExit (-6600) l (cs.entered answers)).2.2.note (.returned (-6600))) := by
  cases hc : cs.isConnected with
  | false =>
    exact does_connectExit h hc (Quiet.refl _) (iff_of_true (fun h0 => nomatch h0) hgood)
  | true =>
    have hexit : (connectExit (-6600) l (cs.entered answers)).2.2 = cs.entered answers := by
      simp [connectExit, hc]
    rw [hexit]
    exact does_return h (fun h0 => nomatch h0) hgood

theorem does_mqttClientConnect {x : ConnectInput} {r : Int × Links (Option ι) × Session} (h : cs.WF)
    (hr : mqttClientConnect i l (cs.entered x.answers) x = some r) :
    Does i l cs (x.locked = true → cs.netIsConnected = true → cs.isConnected = false →
      ConnectGood (cs.entered x.answers) x) r.2.1 (r.2.2.note (.returned r.1)) := by
  unfold mqttClientConnect at hr
  rw [entered_netIsConnected, entered_isConnected] at hr
  cases hlock : x.locked with
  | false =>
    simp only [hlock, Bool.not_false, if_true, Option.some.injEq] at hr
    subst hr
    exact does_return h (fun h0 => nomatch h0) fun h0 => nomatch h0
  | true =>
  cases hnet : cs.netIsConnected with
  | false =>
    simp only [hlock, hnet, Bool.not_true, Bool.not_false, Bool.false_eq_true, if_true, if_false,
      Option.some.injEq] at hr
    subst hr
    exact does_notConnected h fun _ h0 => nomatch h0
  | true =>
  cases hc : cs.isConnected with
  | true =>
    simp only [hlock, hnet, hc, Bool.not_true, Bool.false_eq_true, if_true, if_false,
      Option.some.injEq] at hr
    subst hr
    have hexit : (connectExit 0 l (cs.entered x.answers)).2.2 = cs.entered x.answers := by
      simp [connectExit, hc]
    rw [hexit]
    exact does_return h (fun _ => hc) fun _ _ h0 => nomatch h0
  | false =>
    simp only [hlock, hnet, hc, Bool.not_true, Bool.false_eq_true, if_false] at hr
    simp only [forall_const]
    exact does_connectExchange h hc hnet hr

end

/-! ## Runs -/

section
variable {s s' : Client ι} {e : Event ι} {ns : List (Option ι)}

theorem Inv.mem_of_next (h : Inv s ns) {i : ι} (hi : s.links.next none = some i) : some i ∈ ns := by
  cases ns with
  | nil =>
    have hnone : s.links.next none = none := h.circular.next_head_eq_iff.2 rfl
    cases hnone.symm.trans hi
  | cons a ns =>
    rw [← hi, h.circular.next_head]
    exact List.mem_cons_self

/-- A step leaves a session consistent exactly when it keeps it. -/
theorem Inv.step (h : Inv s ns) (hs : s.step e = some s') :
    ∃ ns', Inv s' ns' ∧ ∀ i, Consistent s i → (Consistent s' i ↔ KeepsSession i s e) := by
  -- all steps but an idle handler are a call for one session
  have hcall : ∀ {j : ι} {l cs} {good : Prop}, Does j s.links (s.sessions j) good l cs →
      (∀ i, KeepsSession i s e ↔ (i = j → good)) → s' = s.put j l cs →
      ∃ ns', Inv s' ns' ∧ ∀ i, Consistent s i → (Consistent s' i ↔ KeepsSession i s e) := by
    rintro j l cs good hd hgood rfl
    obtain ⟨ns', hinv, hself, hother⟩ := h.does hd
    refine ⟨ns', hinv, fun i hi => ?_⟩
    rw [hgood]
    by_cases hij : i = j
    · subst hij
      rw [hself hi]
      simp
    · rw [hother i hij]
      simp [hij, hi]
  cases e with
  | netConnect j socket =>
    cases hs
    exact hcall (does_mqttNetConnect (h.session j) socket) (by simp [KeepsSession]) rfl
  | netDisconnect j =>
    cases hs
    exact hcall (does_mqttNetDisconnect (h.session j)) (fun _ => Iff.rfl) rfl
  | connect j x =>
    obtain ⟨r, hr, rfl⟩ := Option.map_eq_some_iff.1 hs
    exact hcall (does_mqttClientConnect (h.session j) hr) (fun _ => Iff.rfl) rfl
  | disconnect j locked answers =>
    cases hs
    exact hcall (does_mqttClientDisconnect (h.session j) locked) (by simp [KeepsSession]) rfl
  | publish j locked malloced qos topic msgStr =>
    cases hs
    exact hcall (does_quiet (h.session j) (Session.quiet_mqttClientPublish ..) trivial)
      (by simp [KeepsSession]) rfl
  | subscribe j locked answers topic =>
    obtain ⟨r, hr, rfl⟩ := Option.map_eq_some_iff.1 hs
    have hq := (quiet_load _ answers).trans (Session.quiet_mqttClientSubscribe hr)
    exact hcall (does_quiet (h.session j) hq trivial) (by simp [KeepsSession]) rfl
  | handler x =>
    change mqttCoreHandler s x = some s' at hs
    unfold mqttCoreHandler at hs
    split at hs
    · rename_i hnext
      cases hs
      exact ⟨ns, h, fun i hi => iff_of_true hi fun hi' => nomatch hnext.symm.trans hi'⟩
    · rename_i j hnext
      obtain ⟨r, hr, rfl⟩ := Option.map_eq_some_iff.1 hs
      have hc := h.connected j (h.mem_of_next hnext)
      refine hcall (does_handle (h.session j) hc hr) (fun i => ?_) rfl
      simp only [KeepsSession, hnext, Option.some.injEq]
      constructor
      · rintro hkeeps rfl
        exact hkeeps rfl
      · rintro hgood rfl
        exact hgood rfl

/-- A session is consistent in every state of a run exactly when all steps keep it. -/
theorem consistent_iff_keepsSession {i : ι} {es : List (Event ι)} (hs : Fresh s)
    (h : Run (PFun Client.step) s es s') :
    (∀ es₁ s₁, es₁ <+: es → Run (PFun Client.step) s es₁ s₁ → Consistent s₁ i) ↔
      Run (Guarded (KeepsSession i) (PFun Client.step)) s es s' := by
  refine h.passes_iff (J := fun s => ∃ ns, Inv s ns) ?_ ?_ ?_ ⟨[], hs.inv⟩ hs.consistent
  · intro s e s₁ s₂
    exact Trace.PFun.det
  · rintro s e s' ⟨ns, hinv⟩ hstep
    obtain ⟨ns', hinv', -⟩ := hinv.step hstep
    exact ⟨ns', hinv'⟩
  · rintro s e s' ⟨ns, hinv⟩ hcons hstep
    obtain ⟨-, -, hkeeps⟩ := hinv.step hstep
    exact hkeeps i hcons

end

/-! ### One session -/

def exampleSession : Session where
  nextPacketid := 0
  netIsConnected := false
  isConnected := false
  bufSize := 64
  readbuf := List.replicate 64 0
  keepAliveInterval := 0
  tickPing := 0
  socket := -1
  disconnect := true
  mqttNoticeCb := true
  topicFilters := [some [97]]
  msgs := []
  answers := ⟨[], []⟩
  log := []

def exampleClient : Client Unit := ⟨Links.init, fun _ => exampleSession⟩

theorem exampleClient_fresh : Fresh exampleClient := ⟨rfl, fun _ => ⟨rfl, rfl⟩⟩

/-- The server accepts the CONNECT and the subscription. -/
def exampleConnect : ConnectInput where
  locked := true
  answers := ⟨[15, 8], [.bytes [0x20], .bytes [2], .bytes [0, 0],
    .bytes [0x90], .bytes [3], .bytes [0, 1, 2]]⟩
  options :=
    { mqttVersion := 4, clientID := ⟨some [97], none⟩, keepAliveInterval := 60, willFlag := false,
      willTopicName := ⟨none, none⟩, willMessage := ⟨none, none⟩, username := ⟨none, none⟩,
      password := ⟨none, none⟩ }
  now := 100

/-- A ping is sent, a message published and a PINGRESP read; then the session connects again. -/
def exampleRun : List (Event Unit) :=
  [.netConnect () 3, .connect () exampleConnect,
    .handler ⟨true, ⟨[2], []⟩, 0, false, 200, 200⟩, .publish () true true 1 [97] [98],
    .handler ⟨true, ⟨[7], [.bytes [0xD0], .bytes [0], .bytes []]⟩, 1, true, 202, 202⟩,
    .disconnect () true ⟨[2], []⟩, .netDisconnect (), .netConnect () 4, .connect () exampleConnect]

theorem exampleRun_consistent : ∃ s', Run (PFun Client.step) exampleClient exampleRun s' ∧
    ∀ es₁ s₁, es₁ <+: exampleRun → Run (PFun Client.step) exampleClient es₁ s₁ →
      Consistent s₁ () := by
  have hsome : (exampleRun.foldlM (Trace.guard (KeepsSession ()) Client.step)
      exampleClient).isSome = true := by decide +kernel
  obtain ⟨s', hs'⟩ := Option.isSome_iff_exists.1 hsome
  have hguarded := Trace.run_guarded_of_foldlM hs'
  have hrun : Run (PFun Client.step) exampleClient exampleRun s' := hguarded.mono fun _ _ _ h => h.2
  exact ⟨s', hrun, (consistent_iff_keepsSession exampleClient_fresh hrun).2 hguarded⟩

/-- `select` fails, and the network connection is made again. -/
def dropRun : List (Event Unit) :=
  [.netConnect () 3, .connect () exampleConnect, .handler ⟨true, ⟨[2], []⟩, -1, false, 200, 200⟩,
    .netConnect () 4, .connect () exampleConnect]

/-- After the handler has dropped a connection, `mqtt_client_connect` returns `MQTT_OK` on a new one
without a CONNECT, and the session is in no list. -/
theorem not_consistent_dropRun : ∃ s', Run (PFun Client.step) exampleClient dropRun s' ∧
    (s'.sessions ()).isConnected = true ∧ (s'.sessions ()).netIsConnected = true ∧
    s'.links.next none = none ∧
    (∃ l, (s'.sessions ()).log = .returned 0 :: .called :: .opened :: .closed :: l) ∧
    ¬ Consistent s' () := by
  have hfold : (dropRun.foldlM Client.step exampleClient).map (fun s' =>
      ((s'.sessions ()).isConnected, (s'.sessions ()).netIsConnected, s'.links.next none,
        (s'.sessions ()).log)) =
      some (true, true, none, [.returned 0, .called, .opened, .closed, .sent .disconnect,
        .returned 0, .sent .subscribe, .connack (some 0), .sent .connect, .called, .opened]) := by
    decide +kernel
  obtain ⟨s', hs', heq⟩ := Option.map_eq_some_iff.1 hfold
  simp only [Prod.mk.injEq] at heq
  obtain ⟨hc, hnet, hnext, hlog⟩ := heq
  refine ⟨s', Trace.run_pfun_iff.2 hs', hc, hnet, hnext, ⟨_, hlog⟩, fun hcons => ?_⟩
  have hacc := (hcons.connected hc).2.2
  rw [hlog] at hacc
  exact absurd hacc (by decide)

end AppXd.Mqtt
