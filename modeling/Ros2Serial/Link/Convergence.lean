import Ros2Serial.Device.Answer
import Ros2Serial.Host.Builtin
import Ros2Serial.Host.Sending
import Ros2Serial.Link.Relay

/-!
# A session that catches up

What `Relay.lean` does not say: that anything is published at all.  After a start of the
session, the announcements of a node fill the tables, and from then on every message of
the node gets to ROS.

* `Gains` is what a session does that is not stopped: entries are added.
* An entry under the id of an endpoint is about that endpoint, because of the mirror
  (`forwards_of_mem`, `subscriber_of_mem`).  So it is enough that there is one.
* `Steady` steps are those without a stop, in which ROS creates what it is asked for, no frame is
  lost, and the threads of the host go on.
-/

namespace Ros2Serial.Link

open Generator Device Host Runs

/-! ## Entries of endpoints -/

section Entries

variable {cfg : NodeConfig} {text : CString → String} {nh : NodeHandle} {t : TableSession}
  {e : Endpoint}

/-- What stands under the id of a publisher of a ROS topic is a publisher. -/
theorem Entry.publisher_of_id (hids : IdsFit cfg) (henrolled : Enrolled cfg nh) {i : Nat}
    (he : Slots.Holds nh.publishers i e) (hkind : e.endpoint = Device.TopicInfo.ID_PUBLISHER)
    {r : Host.Registry} {id : UInt16} {handler : Handler} (h : Entry text nh r id handler)
    (hid : id.toNat = topicField e.id) : handler = .publisher := by
  have hfield := (topicField_publisher hids henrolled he).1
  cases h with
  | builtin hmem =>
    have hsmall : ∀ entry ∈ Host.Registry.setupHandlers, entry.1 < 100 := by decide
    have hlt := hsmall _ hmem
    omega
  | publisher hx => rfl
  | @service _ kind _ x hx hinfo =>
    rcases hx with ⟨⟨k, hk⟩, hservice, hxid⟩ | ⟨⟨j, hj⟩, -, hxid⟩
    · obtain rfl := unique_of_topicField hids henrolled hk he (by omega)
      rw [hkind] at hservice
      cases kind <;> exact absurd hservice (by decide)
    · obtain ⟨hsubscriber, hlt⟩ := topicField_subscriber hids henrolled hj
      omega

/-- An entry under the id of a publisher forwards its messages. -/
theorem forwards_of_mem (hids : IdsFit cfg) (henrolled : Enrolled cfg nh)
    (h : Reflects text nh t) {i : Nat} (he : Slots.Holds nh.publishers i e)
    (hkind : e.endpoint = Device.TopicInfo.ID_PUBLISHER)
    (hmem : UInt16.ofNat (topicField e.id) ∈ t.registry.callbacks) :
    forwards t (topicField e.id) = some ⟨text e.topic, text e.type⟩ := by
  have hid := toNat_topicField e.id
  obtain ⟨handler, hlookup⟩ := Option.isSome_iff_exists.mp (AList.lookup_isSome.mpr hmem)
  obtain rfl := (h.mirrors.entries _ _ hlookup).publisher_of_id hids henrolled he hkind hid
  obtain ⟨x, ⟨⟨k, hk⟩, -, hxid⟩, hpublisher⟩ := h.published _ hlookup
  obtain rfl := unique_of_topicField hids henrolled hk he (by omega)
  unfold forwards
  rw [hlookup]
  exact hpublisher

/-- An entry under the id of a subscriber is for its topic. -/
theorem subscriber_of_mem (hids : IdsFit cfg) (henrolled : Enrolled cfg nh)
    (h : Reflects text nh t) {j : Nat} (he : Slots.Holds nh.subscribers j e)
    (hmem : UInt16.ofNat (topicField e.id) ∈ t.registry.subscribers) :
    t.registry.subscribers.lookup (UInt16.ofNat (topicField e.id)) =
      some ⟨text e.topic, text e.type, UInt16.ofNat (topicField e.id)⟩ := by
  have hid := toNat_topicField e.id
  obtain ⟨sub, hlookup⟩ := Option.isSome_iff_exists.mp (AList.lookup_isSome.mpr hmem)
  obtain ⟨x, ⟨⟨k, hk⟩, -, hxid⟩, rfl⟩ := h.mirrors.subscribers _ _ hlookup
  obtain rfl := subscriber_unique_of_topicField hids henrolled hk he (hxid.symm.trans hid)
  exact hlookup

end Entries

/-! ## Sessions that are not stopped -/

/-- Entries are added to the tables, and none is removed. -/
structure Gains (r r' : Host.Registry) : Prop where
  active : r'.active = r.active
  callbacks : ∀ id, id ∈ r.callbacks → id ∈ r'.callbacks
  subscribers : ∀ id, id ∈ r.subscribers → id ∈ r'.subscribers

/-- The session goes on, with more entries. -/
structure Persists (t t' : TableSession) : Prop where
  gains : Gains t.registry t'.registry
  faults : t'.registry.faults = t.registry.faults
  ok : t'.ok = t.ok
  io_stopped : t'.io_stopped = t.io_stopped

section Persists

variable {r r' r'' : Host.Registry} {t t' t'' : TableSession}
  {deserialize : List UInt8 → Option Host.TopicInfo}

theorem Gains.refl (r : Host.Registry) : Gains r r := ⟨rfl, fun _ => id, fun _ => id⟩

theorem Gains.trans (h : Gains r r') (h' : Gains r' r'') : Gains r r'' where
  active := h'.active.trans h.active
  callbacks id hid := h'.callbacks id (h.callbacks id hid)
  subscribers id hid := h'.subscribers id (h.subscribers id hid)

theorem Gains.of_eq (hactive : r'.active = r.active) (hcallbacks : r'.callbacks = r.callbacks)
    (hsubscribers : r'.subscribers = r.subscribers) : Gains r r' :=
  ⟨hactive, fun _ h => hcallbacks ▸ h, fun _ h => hsubscribers ▸ h⟩

theorem Persists.refl (t : TableSession) : Persists t t := ⟨.refl _, rfl, rfl, rfl⟩

theorem Persists.trans (h : Persists t t') (h' : Persists t' t'') : Persists t t'' :=
  ⟨h.gains.trans h'.gains, h'.faults.trans h.faults, h'.ok.trans h.ok,
    h'.io_stopped.trans h.io_stopped⟩

theorem Persists.listens (h : Persists t t') (hlistens : listens t = true) :
    listens t' = true := by
  unfold Link.listens at hlistens ⊢
  rwa [h.gains.active, h.io_stopped, Host.Registry.runs_congr h.faults]

/-- The handlers do not change the tables but by their entries. -/
theorem call_gains (handler : Handler) (stream : List UInt8) (outside : Outside)
    (r : Host.Registry) : Gains r (r.call deserialize handler stream outside) := by
  have henters : Host.Registry.EntersAt _ r (r.call deserialize handler stream outside) :=
    Host.Registry.call_enters handler stream outside r
  have hcallbacks : ∀ id, id ∈ r.callbacks →
      id ∈ (r.call deserialize handler stream outside).callbacks := by
    intro id hid
    obtain ⟨entered, -, hentered⟩ := henters.callbacks
    rw [hentered]
    cases Host.Registry.handlerEntered deserialize handler stream outside r with
    | none => exact hid
    | some id' => exact (AList.mem_insert _).mpr (Or.inr hid)
  refine ⟨henters.active, hcallbacks, fun id hid => ?_⟩
  clear henters hcallbacks
  have hcreate : ∀ kind topic_info,
      id ∈ (r.createService kind outside.created topic_info).1.subscribers := by
    intro kind topic_info
    by_cases hmem : topic_info.topic_name ∈ r.services kind
    · rw [Host.Registry.createService_present hmem]
      exact hid
    · rw [(Host.Registry.createService_creates hmem outside.created).topics.subscribers]
      exact hid
  have hsubscriber : ∀ kind topic_info,
      id ∈ (r.setupServiceSubscriber kind outside.created topic_info).subscribers := by
    intro kind topic_info
    cases hconstructed : (r.createService kind outside.created topic_info).2 with
    | true =>
      rw [(Host.Registry.setupServiceSubscriber_sets hconstructed).subscribers]
      exact hcreate kind topic_info
    | false =>
      rw [Host.Registry.setupServiceSubscriber_thrown hconstructed]
      exact hcreate kind topic_info
  have hsetup : ∀ f : Host.TopicInfo → Host.Registry → Host.Registry,
      (∀ topic_info, id ∈ (f topic_info r).subscribers) →
      id ∈ (r.setup (deserialize stream) f).subscribers := by
    intro f hf
    cases deserialize stream with
    | none => exact hid
    | some topic_info => exact hf topic_info
  cases handler with
  | setupPublisher =>
    refine hsetup _ fun topic_info => ?_
    unfold Host.Registry.setupPublisher
    split <;> exact hid
  | setupSubscriber =>
    refine hsetup _ fun topic_info => ?_
    unfold Host.Registry.setupSubscriber
    split
    · exact (AList.mem_insert _).mpr (Or.inr hid)
    · exact hid
  | handleLog => exact hid
  | handleTime => exact hid
  | setupServiceClientPublisher => exact hsetup _ fun topic_info => hcreate .client topic_info
  | setupServiceClientSubscriber => exact hsetup _ fun topic_info => hsubscriber .client topic_info
  | setupServiceServerPublisher => exact hsetup _ fun topic_info => hcreate .server topic_info
  | setupServiceServerSubscriber => exact hsetup _ fun topic_info => hsubscriber .server topic_info
  | publisher => exact hid
  | serviceClient srv =>
    simp only [Host.Registry.call, Host.Registry.handleClient]
    split <;> exact hid
  | serviceServer srv => exact hid

/-- What ROS answers is not so long that `checksum` does not end. -/
structure Returns (outside : Outside) : Prop where
  time : outside.time.length < 65536
  answer : ∀ response ∈ outside.answer, response.length < 65536

theorem callOutgoing_length {outside : Outside} (hreturns : Returns outside) {handler : Handler}
    {message : List UInt8} {id : UInt16}
    (h : r.callOutgoing outside handler = some (message, id)) : message.length < 65536 := by
  cases handler with
  | handleTime =>
    obtain ⟨rfl, -⟩ := Prod.mk.inj (Option.some.inj h)
    exact hreturns.time
  | serviceClient srv =>
    obtain ⟨client, -, hhandle⟩ := Option.bind_eq_some_iff.mp h
    rw [Host.ServiceClient.handle] at hhandle
    split at hhandle
    · cases hhandle
    · obtain ⟨response, hanswer, heq⟩ := Option.map_eq_some_iff.mp hhandle
      obtain ⟨rfl, -⟩ := Prod.mk.inj heq
      exact hreturns.answer response hanswer
  | _ => cases h

/-- The handlers return, or throw what `read_body` catches. -/
theorem call_faults {outside : Outside} (hreturns : Returns outside) (handler : Handler)
    (stream : List UInt8) (r : Host.Registry) :
    (r.call deserialize handler stream outside).faults = r.faults := by
  have hsends := (Host.Registry.call_sends deserialize r handler stream outside).faults
  cases hout : r.callOutgoing outside handler with
  | none =>
    rw [hout] at hsends
    exact hsends.trans (List.append_nil _)
  | some handed =>
    obtain ⟨message, id⟩ := handed
    rw [hout] at hsends
    have hlength := callOutgoing_length hreturns hout
    have hnone : Host.Registry.writeFaults .io message id r.announced = [] := by
      refine Host.Registry.writeFaults_eq_nil ?_ id r.announced
      rcases Nat.lt_or_ge 65527 message.length with hlong | hshort
      · exact Or.inr (by simp [Host.Registry.isDropped, hlong, hlength])
      · exact Or.inl hshort
    rw [hsends]
    exact (congrArg (r.faults ++ ·) hnone).trans (List.append_nil _)

/-- While ROS is up, `set_sync_timeout` arms the timer and nothing else. -/
theorem setSyncTimeout_of_ok (hok : t.ok = true) : t.setSyncTimeout = t := by
  unfold TableSession.setSyncTimeout
  rw [if_pos hok]

/-- While ROS is up, the call of an entry of `callbacks_` is that of `Registry`. -/
theorem call_of_ok (hok : t.ok = true) (handler : Handler) (stream : List UInt8)
    (outside : Outside) :
    (t.call deserialize handler stream outside).registry =
        t.registry.call deserialize handler stream outside ∧
      (t.call deserialize handler stream outside).ok = t.ok ∧
      (t.call deserialize handler stream outside).io_stopped = t.io_stopped := by
  have hpublisher : ∀ kind topic_info,
      (t.setupServicePublisher kind outside.created topic_info).registry =
          t.registry.setupServicePublisher kind outside.created topic_info ∧
        (t.setupServicePublisher kind outside.created topic_info).ok = t.ok ∧
        (t.setupServicePublisher kind outside.created topic_info).io_stopped = t.io_stopped := by
    intro kind topic_info
    unfold TableSession.setupServicePublisher
    dsimp only
    split
    · rw [setSyncTimeout_of_ok]
      · exact ⟨rfl, rfl, rfl⟩
      · exact hok
    · exact ⟨rfl, rfl, rfl⟩
  have hsubscriber : ∀ kind topic_info,
      (t.setupServiceSubscriber kind outside.created topic_info).registry =
          t.registry.setupServiceSubscriber kind outside.created topic_info ∧
        (t.setupServiceSubscriber kind outside.created topic_info).ok = t.ok ∧
        (t.setupServiceSubscriber kind outside.created topic_info).io_stopped = t.io_stopped := by
    intro kind topic_info
    have hflag : (t.createService kind outside.created topic_info).2 =
      (t.registry.createService kind outside.created topic_info).2 := rfl
    unfold TableSession.setupServiceSubscriber Host.Registry.setupServiceSubscriber
    dsimp only
    rw [hflag]
    cases (t.registry.createService kind outside.created topic_info).2 with
    | true =>
      rw [if_pos rfl, setSyncTimeout_of_ok]
      · exact ⟨rfl, rfl, rfl⟩
      · exact hok
    | false => exact ⟨rfl, rfl, rfl⟩
  have hsetup : ∀ (f : Host.TopicInfo → TableSession → TableSession)
      (g : Host.TopicInfo → Host.Registry → Host.Registry),
      (∀ topic_info, (f topic_info t).registry = g topic_info t.registry ∧
        (f topic_info t).ok = t.ok ∧ (f topic_info t).io_stopped = t.io_stopped) →
      (t.setup (deserialize stream) f).registry = t.registry.setup (deserialize stream) g ∧
        (t.setup (deserialize stream) f).ok = t.ok ∧
        (t.setup (deserialize stream) f).io_stopped = t.io_stopped := by
    intro f g h
    cases deserialize stream with
    | none => exact ⟨rfl, rfl, rfl⟩
    | some topic_info => exact h topic_info
  cases handler with
  | setupPublisher =>
    refine hsetup _ _ fun topic_info => ?_
    unfold TableSession.setupPublisher
    cases hcreated : outside.created with
    | true =>
      rw [if_pos rfl, setSyncTimeout_of_ok]
      · exact ⟨rfl, rfl, rfl⟩
      · exact hok
    | false => exact ⟨rfl, rfl, rfl⟩
  | setupSubscriber =>
    refine hsetup _ _ fun topic_info => ?_
    unfold TableSession.setupSubscriber
    rw [setSyncTimeout_of_ok]
    · exact ⟨rfl, rfl, rfl⟩
    · exact hok
  | handleLog => exact ⟨rfl, rfl, rfl⟩
  | handleTime =>
    simp only [TableSession.call, TableSession.handleTime]
    split
    · rw [setSyncTimeout_of_ok]
      · exact ⟨rfl, rfl, rfl⟩
      · exact hok
    · exact ⟨rfl, rfl, rfl⟩
  | setupServiceClientPublisher => exact hsetup _ _ fun info => hpublisher .client info
  | setupServiceClientSubscriber => exact hsetup _ _ fun info => hsubscriber .client info
  | setupServiceServerPublisher => exact hsetup _ _ fun info => hpublisher .server info
  | setupServiceServerSubscriber => exact hsetup _ _ fun info => hsubscriber .server info
  | publisher => exact ⟨rfl, rfl, rfl⟩
  | serviceClient srv => exact ⟨rfl, rfl, rfl⟩
  | serviceServer srv => exact ⟨rfl, rfl, rfl⟩

theorem call_persists (hok : t.ok = true) {outside : Outside} (hreturns : Returns outside)
    (handler : Handler) (stream : List UInt8) :
    Persists t (t.call deserialize handler stream outside) := by
  obtain ⟨hregistry, hsame, hio⟩ := call_of_ok hok handler stream outside
  exact ⟨hregistry ▸ call_gains handler stream outside t.registry,
    hregistry ▸ call_faults hreturns handler stream t.registry, hsame, hio⟩

/-- A message on a topic that nobody has registered. -/
theorem unrecognised_persists (hok : t.ok = true) (enabled : Bool) (topic_id : Nat) :
    Persists t (t.unrecognised enabled topic_id) := by
  refine TableSession.unrecognised_keeps (P := Persists t) ?_ ?_ ?_ (.refl t) enabled topic_id
  · exact fun t' n h => h.trans ⟨.refl _, rfl, rfl, rfl⟩
  · exact fun t' names h => h.trans ⟨.refl _, rfl, rfl, rfl⟩
  · intro t' h
    have hsync : t'.attemptSync = { t' with registry := t'.registry.requestTopics } :=
      setSyncTimeout_of_ok (h.ok.trans hok)
    rw [hsync]
    exact h.trans ⟨.of_eq rfl rfl rfl, Host.Registry.requestTopics_faults _, rfl, rfl⟩

theorem lookup_persists (hok : t.ok = true) (enabled : Bool) {outside : Outside}
    (hreturns : Returns outside) (topic_id : Nat) (payload : List UInt8) :
    Persists t (t.lookup deserialize enabled outside topic_id payload) := by
  unfold TableSession.lookup
  split
  · exact call_persists hok hreturns _ payload
  · exact unrecognised_persists hok enabled topic_id

theorem rosMessage_persists (id : UInt16) {message : List UInt8} (hlength : message.length ≤ 65527)
    (t : TableSession) : Persists t (t.step deserialize (.rosMessage id message)) := by
  unfold TableSession.step
  split
  · exact .refl t
  · dsimp only [Host.Registry.rosMessage]
    split
    · exact ⟨.of_eq rfl rfl rfl, rfl, rfl, rfl⟩
    · exact ⟨.of_eq rfl rfl rfl, Host.Registry.writeMessage_faults_short hlength, rfl, rfl⟩

theorem rosRequest_persists {type : String} {request : List UInt8}
    (hlength : request.length ≤ 65527)
    (halive : t.registry.callsDestroyed (.rosRequest type request) = none) :
    Persists t (t.step deserialize (.rosRequest type request)) := by
  unfold TableSession.step
  split
  · exact .refl t
  · rename_i hgoes
    have hruns : t.registry.runs .ros = true := by
      simp only [Bool.or_eq_true, Bool.not_eq_true', not_or, Bool.not_eq_false] at hgoes
      exact hgoes.2
    rw [Host.Registry.callsDestroyed, if_pos hruns] at halive
    dsimp only [Host.Registry.rosRequest]
    split
    · rename_i hconverter
      rw [hconverter] at halive
      unfold Host.Registry.startRequest
      split
      · exact ⟨.refl _, rfl, rfl, rfl⟩
      · rename_i server hserver
        split
        · exact ⟨.of_eq rfl rfl rfl, Host.Registry.writeMessage_faults_short hlength, rfl, rfl⟩
        · rename_i hgone
          simp [Host.Registry.destroyedServer, hgone, hserver] at halive
    · exact ⟨.refl _, rfl, rfl, rfl⟩

end Persists

/-! ## Steady steps -/

namespace Bridge

variable {cfg : NodeConfig} {callbacks : Callbacks cfg} {text : CString → String}
  {deserialize : List UInt8 → Option Host.TopicInfo} {b b' b'' : Bridge}

/-- No stop, no loss, and ROS creates what it is asked for.  No payload is so long that
`write_message` does not return, and no server is called that is gone. -/
def Step.Steady (b : Bridge) : Step → Prop
  | .deliver _ outside => outside.created = true ∧ Returns outside
  | .call _ => True
  | .rosMessage _ message => message.length ≤ 65527
  | .rosRequest type request =>
    request.length ≤ 65527 ∧ b.session.registry.callsDestroyed (.rosRequest type request) = none
  | .lose | .fail _ _ | .stop | .interrupt | .start => False

/-- The session runs, ROS is up, and the handlers of the protocol are in place. -/
structure Live (b : Bridge) : Prop where
  listens : listens b.session = true
  ok : b.session.ok = true
  builtin : ∀ entry ∈ Host.Registry.setupHandlers,
    UInt16.ofNat entry.1 ∈ b.session.registry.callbacks

/-- The frame announces the publisher of a ROS topic, or the subscriber to one, and the
session has an entry for it. -/
def Heard (cfg : NodeConfig) (r : Host.Registry) (frame : List UInt8) : Prop :=
  (∀ e : Endpoint, e.endpoint = Device.TopicInfo.ID_PUBLISHER →
    Announces (e, cfg.OUTPUT_SIZE) frame → UInt16.ofNat (topicField e.id) ∈ r.callbacks) ∧
  (∀ e : Endpoint, e.endpoint = Device.TopicInfo.ID_SUBSCRIBER →
    Announces (e, cfg.INPUT_SIZE) frame → UInt16.ofNat (topicField e.id) ∈ r.subscribers)

/-- The frames that were taken between two states. -/
def takenSince (b b' : Bridge) : List (List UInt8) :=
  (b'.node.hardware.tx.take b'.taken).drop b.taken

/-- The session has an entry for every publisher of a ROS topic in these tables. -/
def Forwards (nh : NodeHandle) (r : Host.Registry) : Prop :=
  ∀ i e, Slots.Holds nh.publishers i e → e.endpoint = Device.TopicInfo.ID_PUBLISHER →
    UInt16.ofNat (topicField e.id) ∈ r.callbacks

/-- What steady steps lead to. -/
structure Continues (cfg : NodeConfig) (text : CString → String) (b b' : Bridge) : Prop where
  sound : b'.Sound cfg text
  session : Persists b.session b'.session
  node : Grows b.node b'.node
  tx : b.node.hardware.tx <+: b'.node.hardware.tx
  taken : b.taken ≤ b'.taken
  heard : ∀ frame ∈ takenSince b b', Heard cfg b'.session.registry frame
  published : ∃ more, b'.forwarded = b.forwarded ++ more ∧
    more.Sublist ((takenSince b b').filterMap (rosMessageOf text b'.node)) ∧
    ∀ nh, Enrolled cfg nh → Grows nh b.node → Forwards nh b.session.registry →
      ((takenSince b b').filterMap (rosMessageOf text nh)).Sublist more

theorem Heard.gains {r r' : Host.Registry} {frame : List UInt8} (h : Heard cfg r frame)
    (hgains : Gains r r') : Heard cfg r' frame :=
  ⟨fun e hkind he => hgains.callbacks _ (h.1 e hkind he),
    fun e hkind he => hgains.subscribers _ (h.2 e hkind he)⟩

theorem Live.persists (h : b.Live) (hsession : Persists b.session b'.session) : b'.Live where
  listens := hsession.listens h.listens
  ok := hsession.ok.trans h.ok
  builtin entry hentry := hsession.gains.callbacks _ (h.builtin entry hentry)

/-- Frames are taken from the front, one after the other. -/
theorem takenSince_trans (htaken : b.taken ≤ b'.taken)
    (hle : b'.taken ≤ b'.node.hardware.tx.length)
    (htx : b'.node.hardware.tx <+: b''.node.hardware.tx) (htaken' : b'.taken ≤ b''.taken) :
    takenSince b b'' = takenSince b b' ++ takenSince b' b'' := by
  obtain ⟨more, hmore⟩ := htx
  have hfront : b'.node.hardware.tx.take b'.taken = b''.node.hardware.tx.take b'.taken := by
    rw [← hmore, List.take_append_of_le_length hle]
  have hsplit : b''.node.hardware.tx.take b''.taken =
      b''.node.hardware.tx.take b'.taken ++
        (b''.node.hardware.tx.take b''.taken).drop b'.taken := by
    have htake : (b''.node.hardware.tx.take b''.taken).take b'.taken =
        b''.node.hardware.tx.take b'.taken := by
      rw [List.take_take, Nat.min_eq_left htaken']
    rw [← htake, List.take_append_drop]
  have hlength : b.taken ≤ (b''.node.hardware.tx.take b'.taken).length := by
    rw [← hfront, List.length_take, Nat.min_eq_left hle]
    exact htaken
  unfold takenSince
  rw [hfront]
  conv_lhs => rw [hsplit, List.drop_append_of_le_length hlength]

/-- What the frames that were taken say does not change when the tables grow. -/
theorem filterMap_takenSince (hids : IdsFit cfg) (h : b'.Sound cfg text)
    (henrolled : Enrolled cfg b''.node) (hgrows : Grows b'.node b''.node) :
    (takenSince b b').filterMap (rosMessageOf text b''.node) =
      (takenSince b b').filterMap (rosMessageOf text b'.node) := by
  obtain ⟨sent, htx, hsent⟩ := h.own
  refine List.filterMap_congr fun frame hframe => ?_
  have hmem : frame ∈ b'.node.hardware.tx := List.mem_of_mem_take (List.mem_of_mem_drop hframe)
  rw [htx] at hmem
  obtain ⟨f, hf, rfl⟩ := List.mem_map.mp hmem
  exact rosMessageOf_grows hids h.enrolled henrolled hgrows (hsent f hf).own

theorem Continues.trans (hids : IdsFit cfg) (h : Continues cfg text b b')
    (h' : Continues cfg text b' b'') : Continues cfg text b b'' := by
  have hframes := takenSince_trans h.taken h.sound.taken_le h'.tx h'.taken
  refine ⟨h'.sound, h.session.trans h'.session, h.node.trans h'.node, h.tx.trans h'.tx,
    Nat.le_trans h.taken h'.taken, ?_, ?_⟩
  · intro frame hframe
    rw [hframes] at hframe
    rcases List.mem_append.mp hframe with hold | hnew
    · exact (h.heard frame hold).gains h'.session.gains
    · exact h'.heard frame hnew
  · obtain ⟨more, hmore, hbelow, hsub⟩ := h.published
    obtain ⟨more', hmore', hbelow', hsub'⟩ := h'.published
    refine ⟨more ++ more', by rw [hmore', hmore, List.append_assoc], ?_, ?_⟩
    · rw [hframes, List.filterMap_append,
        filterMap_takenSince hids h.sound h'.sound.enrolled h'.node]
      exact hbelow.append hbelow'
    intro nh henrolled hgrows hforwards
    rw [hframes, List.filterMap_append]
    refine (hsub nh henrolled hgrows hforwards).append
      (hsub' nh henrolled (hgrows.trans h.node) fun i e he hkind => ?_)
    exact h.session.gains.callbacks _ (hforwards i e he hkind)

/-- A step that takes no frame. -/
theorem Continues.of_session (hsound : b'.Sound cfg text) (hsession : Persists b.session b'.session)
    (hnode : Grows b.node b'.node) (htx : b.node.hardware.tx <+: b'.node.hardware.tx)
    (htaken : b'.taken = b.taken) (hforwarded : b'.forwarded = b.forwarded) :
    Continues cfg text b b' := by
  have hnone : takenSince b b' = [] := by
    unfold takenSince
    rw [htaken]
    exact List.drop_eq_nil_of_le (List.length_take_le _ _)
  refine ⟨hsound, hsession, hnode, htx, Nat.le_of_eq htaken.symm, ?_, [], ?_, ?_, ?_⟩
  · intro frame hframe
    rw [hnone] at hframe
    cases hframe
  · rw [hforwarded, List.append_nil]
  · exact List.nil_sublist _
  · intro nh _ _ _
    rw [hnone]
    exact List.nil_sublist _

theorem Continues.refl (h : b.Sound cfg text) : Continues cfg text b b :=
  .of_session h (.refl _) (.of_eq rfl rfl) List.prefix_rfl rfl rfl

/-- A frame that announces a publisher or a subscriber, at a session that is live. -/
theorem lookup_heard (hdeserializes : Deserializes text deserialize) (hids : IdsFit cfg)
    (h : b.Sound cfg text) (hlive : b.Live) {frame : Nat × List UInt8}
    (hown : Own cfg b.node frame) (enabled : Bool) {outside : Outside}
    (hcreated : outside.created = true) :
    Heard cfg (b.session.lookup deserialize enabled outside frame.1 frame.2).registry
      (frameOf frame) := by
  have htopic := topicOf_frameOf hown
  have hpayload : Wire.payloadOf (frameOf frame) = frame.2 := Wire.payloadOf_encode _ _
  -- the handler of the setup id is the one that `start` has entered
  have hcall : ∀ (handler : Handler) {kind : Int} {e : Endpoint} {bufferSize : Nat},
      e.endpoint = kind → Announces (e, bufferSize) (frameOf frame) →
      (topicField kind, handler) ∈ Host.Registry.setupHandlers →
      deserialize frame.2 = some (hostInfo text e bufferSize) ∧
        (b.session.lookup deserialize enabled outside frame.1 frame.2).registry =
          b.session.registry.call deserialize handler frame.2 outside := by
    rintro handler kind e bufferSize rfl ⟨payload, hframe, hinfo⟩ hmem
    have hfield : frame.1 = topicField e.endpoint := by
      rw [← htopic, hframe]
      exact Wire.topicOf_encode (topicField_lt _) payload
    have hbytes : frame.2 = payload := by
      rw [← hpayload, hframe]
      exact Wire.payloadOf_encode _ payload
    have hlt : frame.1 < 100 := by
      have hsmall : ∀ entry ∈ Host.Registry.setupHandlers, entry.1 < 100 := by decide
      rw [hfield]
      exact hsmall _ hmem
    have hbuiltin : UInt16.ofNat frame.1 ∈ b.session.registry.callbacks := by
      rw [hfield]
      exact hlive.builtin _ hmem
    obtain ⟨found, hlookup⟩ := Option.isSome_iff_exists.mp (AList.lookup_isSome.mpr hbuiltin)
    have hfound := (h.reflects.mirrors.entries _ _ hlookup).builtin_ofNat hids h.enrolled hlt
    rw [hfield] at hfound
    obtain rfl := setupHandlers_unique hfound hmem
    refine ⟨by rw [hbytes]; exact hdeserializes e bufferSize payload hinfo, ?_⟩
    rw [TableSession.lookup, hlookup]
    exact (call_of_ok hlive.ok found frame.2 outside).1
  refine ⟨fun e hkind hannounces => ?_, fun e hkind hannounces => ?_⟩
  · obtain ⟨hinfo, hregistry⟩ := hcall .setupPublisher hkind hannounces (by decide)
    rw [hregistry, Host.Registry.call, hinfo]
    dsimp only [Host.Registry.setup, Host.Registry.setupPublisher]
    rw [if_pos hcreated]
    exact (AList.mem_insert _).mpr (Or.inl rfl)
  · obtain ⟨hinfo, hregistry⟩ := hcall .setupSubscriber hkind hannounces (by decide)
    rw [hregistry, Host.Registry.call, hinfo]
    dsimp only [Host.Registry.setup, Host.Registry.setupSubscriber]
    rw [if_pos hcreated]
    exact (AList.mem_insert _).mpr (Or.inl rfl)

/-! ## Runs that are steady -/

/-- The next frame of the node, at a session that is live. -/
theorem deliver_continues (hdeserializes : Deserializes text deserialize) (hids : IdsFit cfg)
    (hsize : cfg.OUTPUT_SIZE < buffer_max + 8) (h : b.Sound cfg text) (hlive : b.Live)
    {frame : List UInt8} (hframe : b.node.hardware.tx[b.taken]? = some frame) (enabled : Bool)
    {outside : Outside} (hcreated : outside.created = true) (hreturns : Returns outside) :
    Continues cfg text b
      (receive deserialize enabled outside (Wire.topicOf frame) (Wire.payloadOf frame)
        { b with taken := b.taken + 1 }) := by
  have hsound := receive_sound hdeserializes hids h hframe enabled outside
  obtain ⟨sent, htx, hsent⟩ := h.own
  obtain ⟨f, hf, rfl⟩ : ∃ f ∈ sent, frameOf f = frame :=
    List.mem_map.mp (htx ▸ List.mem_of_getElem? hframe)
  have hown := (hsent f hf).own
  have hpayload : Wire.payloadOf (frameOf f) = f.2 := Wire.payloadOf_encode _ _
  have hlength : f.2.length < buffer_max := by
    have hle := (hsent f hf).length_le
    rw [frameOf, Wire.encode_length] at hle
    omega
  have hreceived : receive deserialize enabled outside (Wire.topicOf (frameOf f))
      (Wire.payloadOf (frameOf f)) { b with taken := b.taken + 1 } =
      { b with
        taken := b.taken + 1
        session := b.session.lookup deserialize enabled outside f.1 f.2
        forwarded := b.forwarded ++ ((forwards b.session f.1).map (·, f.2)).toList } := by
    rw [topicOf_frameOf hown, hpayload, receive, hlive.listens, if_neg (by decide), if_pos hlength]
  rw [hreceived] at hsound ⊢
  have hone : takenSince b
      { b with
        taken := b.taken + 1
        session := b.session.lookup deserialize enabled outside f.1 f.2
        forwarded := b.forwarded ++ ((forwards b.session f.1).map (·, f.2)).toList } =
      [frameOf f] := by
    have htake : (b.node.hardware.tx.take b.taken).length = b.taken := by
      rw [List.length_take, Nat.min_eq_left h.taken_le]
    unfold takenSince
    dsimp only
    rw [List.take_add_one, hframe, Option.toList_some,
      List.drop_append_of_le_length (Nat.le_of_eq htake.symm),
      List.drop_eq_nil_of_le (Nat.le_of_eq htake), List.nil_append]
  refine ⟨hsound, lookup_persists hlive.ok enabled hreturns f.1 f.2, .of_eq rfl rfl,
    List.prefix_rfl, Nat.le_succ _, ?_, _, rfl, ?_, ?_⟩
  · intro frame hmem
    rw [hone, List.mem_singleton] at hmem
    rw [hmem]
    exact lookup_heard hdeserializes hids h hlive hown enabled hcreated
  · rw [hone]
    cases hforwards : forwards b.session f.1 with
    | none => exact List.nil_sublist _
    | some publisher =>
      simp [forwards_eq hids h.enrolled h.reflects hown hforwards]
  · intro nh henrolled hgrows hforwards
    rw [hone]
    cases hmessage : rosMessageOf text nh (frameOf f) with
    | none =>
      rw [List.filterMap_cons_none hmessage, List.filterMap_nil]
      exact List.nil_sublist _
    | some m =>
      obtain ⟨i, e, he, hkind, hfield⟩ := exists_of_rosMessageOf hmessage
      rw [rosMessageOf_eq_some hids henrolled he hkind hfield, hpayload] at hmessage
      have hpublisher := forwards_of_mem hids h.enrolled h.reflects (hgrows.publishers i e he) hkind
        (hforwards i e he hkind)
      rw [topicOf_frameOf hown] at hfield
      rw [← hfield] at hpublisher
      obtain rfl := Option.some.inj hmessage
      have hmessage' : rosMessageOf text nh (frameOf f) =
          some (⟨text e.topic, text e.type⟩, Wire.payloadOf (frameOf f)) :=
        rosMessageOf_eq_some hids henrolled he hkind ((topicOf_frameOf hown).trans hfield)
      rw [hpayload] at hmessage'
      simp [hmessage', hpublisher]

theorem step_continues (hcallbacks : callbacks.Proper)
    (hdeserializes : Deserializes text deserialize) (hids : IdsFit cfg)
    (hsize : cfg.OUTPUT_SIZE < buffer_max + 8) (h : b.Sound cfg text) (hlive : b.Live)
    {st : Step} (hproper : st.Proper callbacks b) (hsteady : st.Steady b) :
    Continues cfg text b (b.step cfg callbacks deserialize st) := by
  have hsound := step_sound hcallbacks hdeserializes hids h hproper
  cases st with
  | call c =>
    have hemits := Call.run_emits hcallbacks h.enrolled hproper
    obtain ⟨more, htx, -⟩ := hemits.tx
    exact .of_session hsound (.refl _) hemits.grows ⟨_, htx.symm⟩ rfl rfl
  | deliver enabled outside =>
    rw [step]
    split
    · exact .refl h
    · rename_i frame hframe
      exact deliver_continues hdeserializes hids hsize h hlive hframe enabled hsteady.1 hsteady.2
  | rosMessage id message =>
    have hsession : Persists b.session (b.session.step deserialize (.rosMessage id message)) :=
      rosMessage_persists id hsteady b.session
    exact .of_session hsound hsession (.of_eq rfl rfl) List.prefix_rfl rfl rfl
  | rosRequest type request =>
    have hsession : Persists b.session (b.session.step deserialize (.rosRequest type request)) :=
      rosRequest_persists hsteady.1 hsteady.2
    exact .of_session hsound hsession (.of_eq rfl rfl) List.prefix_rfl rfl rfl
  | lose => exact hsteady.elim
  | fail i error => exact hsteady.elim
  | stop => exact hsteady.elim
  | interrupt => exact hsteady.elim
  | start => exact hsteady.elim

theorem run_continues (hcallbacks : callbacks.Proper)
    (hdeserializes : Deserializes text deserialize) (hids : IdsFit cfg)
    (hsize : cfg.OUTPUT_SIZE < buffer_max + 8) (h : b.Sound cfg text) (hlive : b.Live)
    {steps : List Step}
    (hsteps : Throughout (step cfg callbacks deserialize)
      (fun b st => st.Proper callbacks b ∧ st.Steady b) b steps) :
    Continues cfg text b (run (step cfg callbacks deserialize) b steps) := by
  induction steps generalizing b with
  | nil => exact .refl h
  | cons st steps ih =>
    obtain ⟨⟨hproper, hsteady⟩, hrest⟩ := throughout_cons.mp hsteps
    have hfirst := step_continues hcallbacks hdeserializes hids hsize h hlive hproper hsteady
    exact hfirst.trans hids (ih hfirst.sound (hlive.persists hfirst.session) hrest)

/-! ## Catching up -/

/-- A read that gets under way leaves the tables as they are. -/
theorem readDepth_registry {t : TableSession} (depth n : Nat) (callback : Continuation) :
    (t.readDepth depth n callback).registry.active = true →
      (t.readDepth depth n callback).registry = t.registry := by
  refine TableSession.readDepth_keeps
    (P := fun t' => t'.registry.active = true → t'.registry = t.registry) (fun _ _ h => h) ?_
    (fun _ => rfl) depth n callback
  intro t' h hactive
  unfold TableSession.stop at hactive ⊢
  split at hactive
  · rename_i hon
    rw [Host.Registry.stop, if_pos hon] at hactive
    cases hactive
  · rename_i hoff
    exact absurd hactive hoff

theorem readDepth_ok (t : TableSession) (depth n : Nat) (callback : Continuation) :
    (t.readDepth depth n callback).ok = t.ok := by
  refine TableSession.readDepth_keeps (P := fun t' => t'.ok = t.ok) (fun _ _ h => h) ?_ rfl depth n
    callback
  intro t' h
  unfold TableSession.stop
  split <;> exact h

/-- A session that was stopped and is started has the handlers of the protocol. -/
theorem start_live (hstopped : b.session.registry.active = false) (hok : b.session.ok = true)
    (hlistens : listens (b.step cfg callbacks deserialize .start).session = true) :
    (b.step cfg callbacks deserialize .start).Live := by
  have hgoes : ¬ (b.session.io_stopped || !b.session.registry.runs .io) = true := by
    intro hstuck
    have hsame : b.session.step deserialize .start = b.session := if_pos hstuck
    rw [step, hsame, Link.listens, hstopped, Bool.and_false] at hlistens
    cases hlistens
  have hstep : b.session.step deserialize .start =
      if b.session.registry.active then b.session else b.session.start := if_neg hgoes
  have hstart : (b.step cfg callbacks deserialize .start).session =
      TableSession.readSyncHeader { b.session with registry := b.session.registry.start } := by
    rw [step, hstep, if_neg (by rw [hstopped]; decide), TableSession.start]
    have hsync : TableSession.setSyncTimeout
        { b.session with registry := b.session.registry.start } =
        { b.session with registry := b.session.registry.start } := setSyncTimeout_of_ok hok
    rw [hsync]
  rw [hstart] at hlistens
  have hactive : (TableSession.readSyncHeader
      { b.session with registry := b.session.registry.start }).registry.active = true := by
    rw [Link.listens, Bool.and_eq_true] at hlistens
    exact hlistens.2
  have hregistry := readDepth_registry 2 1 .readSyncFirst hactive
  refine ⟨hstart ▸ hlistens, ?_, fun entry hentry => ?_⟩
  · rw [hstart]
    exact (readDepth_ok _ 2 1 .readSyncFirst).trans hok
  · have hprotected := Host.Registry.start_protected b.session.registry rfl entry hentry
    rw [hstart, TableSession.readSyncHeader, TableSession.read, hregistry]
    exact AList.lookup_isSome.mp (Option.isSome_iff_exists.mpr ⟨_, hprotected⟩)

/-- What was written after a state, and has been taken by now, was taken since. -/
theorem mem_takenSince {frame : List UInt8} {upTo : Nat}
    (hframe : frame ∈ (b'.node.hardware.tx.take upTo).drop b.node.hardware.tx.length)
    (hle : b.taken ≤ b.node.hardware.tx.length) (htaken : upTo ≤ b'.taken) :
    frame ∈ takenSince b b' := by
  obtain ⟨j, hj⟩ := List.mem_iff_getElem?.mp hframe
  rw [List.getElem?_drop] at hj
  have hlt : b.node.hardware.tx.length + j < upTo := by
    have hlength := (List.getElem?_eq_some_iff.mp hj).1
    rw [List.length_take] at hlength
    omega
  rw [List.getElem?_take_of_lt hlt] at hj
  refine List.mem_iff_getElem?.mpr ⟨b.node.hardware.tx.length + j - b.taken, ?_⟩
  have hindex : b.taken + (b.node.hardware.tx.length + j - b.taken) =
      b.node.hardware.tx.length + j := by omega
  rw [takenSince, List.getElem?_drop, hindex, List.getElem?_take_of_lt (by omega), hj]

/-- The session has an entry for every publisher of a ROS topic and every subscriber to one
in these tables, with the topic and the type. -/
structure CaughtUp (text : CString → String) (nh : NodeHandle) (t : TableSession) : Prop where
  publishers : ∀ i e, Slots.Holds nh.publishers i e →
    e.endpoint = Device.TopicInfo.ID_PUBLISHER →
    forwards t (topicField e.id) = some ⟨text e.topic, text e.type⟩
  subscribers : ∀ j e, Slots.Holds nh.subscribers j e →
    e.endpoint = Device.TopicInfo.ID_SUBSCRIBER →
    t.registry.subscribers.lookup (UInt16.ofNat (topicField e.id)) =
      some ⟨text e.topic, text e.type, UInt16.ofNat (topicField e.id)⟩

section Resumes

variable (cfg callbacks deserialize)

/-- The session was stopped, is started, and gets its first read under way.  Then there are
steady steps.  The call `c` among them reads a request of topics, and in the end the frames
that were written until then have been taken. -/
structure Resumes (b : Bridge) (done : List Step) (c : Call) (rest : List Step) : Prop where
  stopped : b.session.registry.active = false
  ok : b.session.ok = true
  listens : listens (b.step cfg callbacks deserialize .start).session = true
  steady : Throughout (step cfg callbacks deserialize)
    (fun b st => st.Proper callbacks b ∧ st.Steady b)
    (b.step cfg callbacks deserialize .start) (done ++ .call c :: rest)
  asked : Asked (c.run cfg callbacks
    (run (step cfg callbacks deserialize) b (.start :: done)).node).2
  taken : (run (step cfg callbacks deserialize) b
      (.start :: (done ++ [.call c]))).node.hardware.tx.length ≤
    (run (step cfg callbacks deserialize) b (.start :: (done ++ .call c :: rest))).taken

end Resumes

/-- What was in the tables when the request was read has its entry in the end. -/
theorem Resumes.caughtUp {done rest : List Step} {c : Call}
    (hresumes : Resumes cfg callbacks deserialize b done c rest) (hcallbacks : callbacks.Proper)
    (hdeserializes : Deserializes text deserialize) (hids : IdsFit cfg)
    (hsize : cfg.OUTPUT_SIZE < buffer_max + 8) (h : b.Sound cfg text) :
    (run (step cfg callbacks deserialize) b (.start :: done)).Sound cfg text ∧
      (run (step cfg callbacks deserialize) b (.start :: (done ++ .call c :: rest))).Live ∧
      Continues cfg text (run (step cfg callbacks deserialize) b (.start :: done))
        (run (step cfg callbacks deserialize) b (.start :: (done ++ .call c :: rest))) ∧
      CaughtUp text (run (step cfg callbacks deserialize) b (.start :: done)).node
        (run (step cfg callbacks deserialize) b (.start :: (done ++ .call c :: rest))).session := by
  have hlive := start_live hresumes.stopped hresumes.ok hresumes.listens
  have hstart : (b.step cfg callbacks deserialize .start).Sound cfg text :=
    step_sound hcallbacks hdeserializes hids h trivial
  obtain ⟨hdone, hcallrest⟩ := (throughout_append _).mp hresumes.steady
  obtain ⟨⟨hproper, hsteady⟩, hrest⟩ := throughout_cons.mp hcallrest
  have hfirst := run_continues hcallbacks hdeserializes hids hsize hstart hlive hdone
  have hasked := hresumes.asked
  have htaken := hresumes.taken
  simp only [run_cons, run_append, run_nil] at hasked htaken ⊢
  obtain ⟨asked, heq⟩ : ∃ asked, run (step cfg callbacks deserialize)
    (b.step cfg callbacks deserialize .start) done = asked := ⟨_, rfl⟩
  rw [heq] at hfirst hproper hrest hasked htaken ⊢
  have hlive' := hlive.persists hfirst.session
  have hcall := step_continues hcallbacks hdeserializes hids hsize hfirst.sound hlive' hproper
    hsteady
  have hlast := run_continues hcallbacks hdeserializes hids hsize hcall.sound
    (hlive'.persists hcall.session) hrest
  have hboth := hcall.trans hids hlast
  have hended := hboth.sound
  -- an announcement of each endpoint was written in the call, and has been taken
  have hheard : ∀ entry ∈ announcements cfg asked.node, ∃ frame, Announces entry frame ∧
      Heard cfg (run (step cfg callbacks deserialize)
        (asked.step cfg callbacks deserialize (.call c)) rest).session.registry frame := by
    intro entry hentry
    obtain ⟨frame, hframe, hannounces⟩ :=
      (Call.run_answers hcallbacks hfirst.sound.enrolled hproper).announced hasked entry hentry
    obtain ⟨more, htx⟩ := hlast.tx
    refine ⟨frame, hannounces, hboth.heard frame (mem_takenSince ?_ hfirst.sound.taken_le htaken)⟩
    rw [← htx, List.take_left]
    exact hframe
  refine ⟨hfirst.sound, (hlive'.persists hcall.session).persists hlast.session, hboth, ?_, ?_⟩
  · intro i e he hkind
    obtain ⟨frame, hannounces, hentry⟩ := hheard (e, cfg.OUTPUT_SIZE)
      (List.mem_append_left _ (List.mem_map_of_mem (mem_filterMap_of_holds he)))
    exact forwards_of_mem hids hended.enrolled hended.reflects (hboth.node.publishers i e he) hkind
      (hentry.1 e hkind hannounces)
  · intro j e he hkind
    obtain ⟨frame, hannounces, hentry⟩ := hheard (e, cfg.INPUT_SIZE)
      (List.mem_append_right _ (List.mem_map_of_mem (mem_filterMap_of_holds he)))
    exact subscriber_of_mem hids hended.enrolled hended.reflects (hboth.node.subscribers j e he)
      (hentry.2 e hkind hannounces)

/-! ### A device that is plugged in again -/

/-- The session is started, and reading from the port fails. -/
def unplugSteps : List Step :=
  [.call (.advertise publisherP), .start, .fail 0 (.other 2)]

/-- The device gets the request of the new session. -/
def requestSteps : List Step := [.call (.arrive (Wire.encode 0 []))]

/-- The frames of the node arrive. -/
def answerSteps : List Step := List.replicate 2 (.deliver true ⟨true, none, []⟩)

/-- A node and a session of which nothing has happened. -/
def quietBridge : Bridge := new (freshNode atmega168) quietSession

theorem unplugSteps_proper :
    Throughout (step atmega168 (noCallbacks _) (deserializeInfo plainText))
      (fun b st => st.Proper (noCallbacks atmega168) b) quietBridge unplugSteps :=
  throughout_cons.mpr ⟨⟨by decide, by decide⟩, proper_others (by simp)⟩

theorem created_steady {b : Bridge} : (Step.deliver true ⟨true, none, []⟩).Steady b :=
  ⟨rfl, by decide, nofun⟩

theorem unplugSteps_resumes :
    Resumes atmega168 (noCallbacks _) (deserializeInfo plainText)
      (run (step atmega168 (noCallbacks _) (deserializeInfo plainText)) quietBridge unplugSteps)
      requestSteps .spinOnce answerSteps where
  stopped := by decide +kernel
  ok := by decide +kernel
  listens := by decide +kernel
  steady :=
    throughout_cons.mpr ⟨⟨trivial, trivial⟩, throughout_cons.mpr
      ⟨⟨show StoresInside atmega168 _ by decide +kernel, trivial⟩, throughout_cons.mpr
        ⟨⟨trivial, created_steady⟩, throughout_cons.mpr
          ⟨⟨trivial, created_steady⟩, throughout_nil⟩⟩⟩⟩
  asked := ⟨List.replicate 150 0, by decide +kernel⟩
  taken := by decide +kernel

section FromStart

variable {hardware : Hardware} {types : List String} {timeout threshold : Int} {ok : Bool}
  {t : TableSession} {before done rest later : List Step} {c : Call}

end FromStart

/-- The publisher sends, and its message arrives. -/
def messageSteps : List Step :=
  [.call (.publish 106 (timeMsg 1 2)), .deliver true ⟨true, none, []⟩]

/-- When the device gets the request. -/
def askedBridge : Bridge :=
  run (step atmega168 (noCallbacks _) (deserializeInfo plainText)) quietBridge
    (unplugSteps ++ .start :: requestSteps)

/-- When the answer has arrived. -/
def answeredBridge : Bridge :=
  run (step atmega168 (noCallbacks _) (deserializeInfo plainText)) quietBridge
    (unplugSteps ++ .start :: (requestSteps ++ .call .spinOnce :: answerSteps))

theorem messageSteps_steady :
    Throughout (step atmega168 (noCallbacks _) (deserializeInfo plainText))
      (fun b st => st.Proper (noCallbacks atmega168) b ∧ st.Steady b) answeredBridge messageSteps := by
  have hstart : (run (step atmega168 (noCallbacks _) (deserializeInfo plainText)) quietBridge
      unplugSteps).Sound atmega168 plainText :=
    (run_sound (noCallbacks_proper _) (deserializeInfo_deserializes plainText) (by decide)
      (new_sound (initNode_enrolled _ _) rfl quietSession_eq) unplugSteps_proper).last
  obtain ⟨-, -, hcontinues, -⟩ := unplugSteps_resumes.caughtUp (noCallbacks_proper _)
    (deserializeInfo_deserializes plainText) (by decide) (by decide) hstart
  have hasked : askedBridge = run (step atmega168 (noCallbacks _) (deserializeInfo plainText))
      (run (step atmega168 (noCallbacks _) (deserializeInfo plainText)) quietBridge unplugSteps)
      (.start :: requestSteps) := run_append _
  have hanswered : answeredBridge =
      run (step atmega168 (noCallbacks _) (deserializeInfo plainText))
      (run (step atmega168 (noCallbacks _) (deserializeInfo plainText)) quietBridge unplugSteps)
      (.start :: (requestSteps ++ .call .spinOnce :: answerSteps)) := run_append _
  rw [← hasked, ← hanswered] at hcontinues
  have hslot : Slots.Holds askedBridge.node.publishers 0 { publisherP with id := 106 } := rfl
  have hkept : Slots.Holds answeredBridge.node.publishers 0 { publisherP with id := 106 } :=
    hcontinues.node.publishers _ _ hslot
  exact throughout_cons.mpr ⟨⟨⟨0, _, hkept, rfl⟩, trivial⟩, throughout_cons.mpr
    ⟨⟨trivial, created_steady⟩, throughout_nil⟩⟩

end Bridge

end Ros2Serial.Link
