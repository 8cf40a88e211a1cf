import Ros2Serial.Host.Rejection
import Ros2Serial.Link.Mirror

/-!
# A node and its session

`Bridge` is a node with a session of the host, and the frames between them.  In any order
the node is called and bytes of any kind arrive at it, its frames arrive at the host or
are lost, the host is stopped and started, its reads fail, ROS shuts down, and messages and
requests come from ROS.

* A frame that arrives at a session that is stopped is ignored.  One that is too long for
  the read buffer stops the session (`Oversize.lean`).
* `forwarded` is not in the code.  It records what `Publisher::handle` has published.
* That a session gets the frames of a node and no others is `Decoders.lean`.  Here a frame
  arrives whole, or not at all.  What its bytes do on their way through the read handlers
  comes to the same (`FrameReads.lean`).

`Reflects` is the invariant of the session, which adds `publishers_` to `Mirrors`, and
`Bridge.Sound` that of the whole.  What the host publishes is then a part of what the node
has sent, in order, under the topic and the type of the publisher (`forwarded_sublist`).
-/

namespace Ros2Serial.Link

open Generator Device Host Runs

/-! ## The machine -/

/-- The publisher that is bound to an entry of `callbacks_`. -/
def forwards (t : TableSession) (topic_id : Nat) : Option Host.Publisher :=
  match t.registry.callbacks.lookup (UInt16.ofNat topic_id) with
  | some .publisher => t.publishers.lookup (UInt16.ofNat topic_id)
  | _ => none

/-- The `io_service` runs handlers, and `read_body` does not return at once. -/
def listens (t : TableSession) : Bool :=
  !t.io_stopped && t.registry.runs .io && t.registry.active

structure Bridge where
  node : NodeHandle
  /-- How many frames of the node have arrived at the host, or were lost. -/
  taken : Nat
  session : TableSession
  /-- What was published in ROS. -/
  forwarded : List (Host.Publisher × List UInt8)

namespace Bridge

inductive Step
  /-- A call of the node, or bytes that arrive there. -/
  | call (call : Call)
  /-- The next frame of the node arrives at the host. -/
  | deliver (enabled : Bool) (outside : Outside)
  /-- The next frame is lost. -/
  | lose
  /-- What happens to the session besides. -/
  | rosMessage (topic_id : UInt16) (message : List UInt8)
  | rosRequest (service_type : String) (request : List UInt8)
  | fail (i : Nat) (error : ErrorCode)
  | stop
  | interrupt
  | start

section Steps

variable (cfg : NodeConfig) (callbacks : Callbacks cfg)
  (deserialize : List UInt8 → Option Host.TopicInfo)

/-- The host has read a frame. -/
def receive (enabled : Bool) (outside : Outside) (topic_id : Nat) (payload : List UInt8)
    (b : Bridge) : Bridge :=
  if !listens b.session then b
  else if payload.length < buffer_max then
    { b with
      session := b.session.lookup deserialize enabled outside topic_id payload
      forwarded := b.forwarded ++ ((forwards b.session topic_id).map (·, payload)).toList }
  else { b with session := b.session.stop }

def step (b : Bridge) : Step → Bridge
  | .call c => { b with node := callStep cfg callbacks b.node c }
  | .deliver enabled outside =>
    match b.node.hardware.tx[b.taken]? with
    | none => b
    | some frame =>
      receive deserialize enabled outside (Wire.topicOf frame) (Wire.payloadOf frame)
        { b with taken := b.taken + 1 }
  | .lose =>
    match b.node.hardware.tx[b.taken]? with
    | none => b
    | some _ => { b with taken := b.taken + 1 }
  | .rosMessage topic_id message =>
    { b with session := b.session.step deserialize (.rosMessage topic_id message) }
  | .rosRequest service_type request =>
    { b with session := b.session.step deserialize (.rosRequest service_type request) }
  | .fail i error => { b with session := b.session.step deserialize (.fail i error) }
  | .stop => { b with session := b.session.step deserialize .stop }
  | .interrupt => { b with session := b.session.step deserialize .interrupt }
  | .start => { b with session := b.session.step deserialize .start }

end Steps

/-- A node, and a session that was not started. -/
def new (nh : NodeHandle) (t : TableSession) : Bridge where
  node := nh
  taken := 0
  session := t
  forwarded := []

/-- What a program may call. -/
def Step.Proper {cfg : NodeConfig} (callbacks : Callbacks cfg) (b : Bridge) : Step → Prop
  | .call c => c.Proper callbacks b.node
  | _ => True

end Bridge

/-! ## What the node has sent to ROS -/

section Sent

variable {cfg : NodeConfig} (text : CString → String)

/-- The entry of a slot is a publisher of a ROS topic, with this id. -/
def Publishes (topic_id : Nat) (slot : Option Endpoint) : Option Endpoint :=
  slot.filter fun e => e.endpoint = Device.TopicInfo.ID_PUBLISHER && topicField e.id = topic_id

/-- A frame of the node as a message of a ROS topic, if it is one. -/
def rosMessageOf (nh : NodeHandle) (frame : List UInt8) : Option (Host.Publisher × List UInt8) :=
  (nh.publishers.findSome? (Publishes (Wire.topicOf frame))).map fun e =>
    (⟨text e.topic, text e.type⟩, Wire.payloadOf frame)

/-- The messages of ROS topics among the first frames of the node. -/
def sentToRos (nh : NodeHandle) (taken : Nat) : List (Host.Publisher × List UInt8) :=
  (nh.hardware.tx.take taken).filterMap (rosMessageOf text nh)

variable {text} {nh nh' : NodeHandle}

theorem publishes_eq_some_iff {topic_id : Nat} {slot : Option Endpoint} {e : Endpoint} :
    Publishes topic_id slot = some e ↔
      slot = some e ∧ e.endpoint = Device.TopicInfo.ID_PUBLISHER ∧ topicField e.id = topic_id := by
  unfold Publishes
  rw [Option.filter_eq_some_iff]
  simp

/-- The topic field leads to one publisher. -/
theorem unique_of_topicField (hids : IdsFit cfg) (henrolled : Enrolled cfg nh) {i j : Nat}
    {x y : Endpoint} (hx : Slots.Holds nh.publishers i x) (hy : Slots.Holds nh.publishers j y)
    (hfield : topicField x.id = topicField y.id) : x = y := by
  have hxfield := (topicField_publisher hids henrolled hx).1
  have hyfield := (topicField_publisher hids henrolled hy).1
  obtain rfl : i = j := by omega
  exact hx.unique hy

/-- The topic field leads to one subscriber. -/
theorem subscriber_unique_of_topicField (hids : IdsFit cfg) (henrolled : Enrolled cfg nh)
    {i j : Nat} {x y : Endpoint} (hx : Slots.Holds nh.subscribers i x)
    (hy : Slots.Holds nh.subscribers j y) (hfield : topicField x.id = topicField y.id) :
    x = y := by
  have hxfield := (topicField_subscriber hids henrolled hx).1
  have hyfield := (topicField_subscriber hids henrolled hy).1
  obtain rfl : i = j := by omega
  exact hx.unique hy

/-- A frame with the id of a publisher of a ROS topic is a message of it. -/
theorem rosMessageOf_eq_some (hids : IdsFit cfg) (henrolled : Enrolled cfg nh) {i : Nat}
    {e : Endpoint} (he : Slots.Holds nh.publishers i e)
    (hkind : e.endpoint = Device.TopicInfo.ID_PUBLISHER) {frame : List UInt8}
    (htopic : Wire.topicOf frame = topicField e.id) :
    rosMessageOf text nh frame = some (⟨text e.topic, text e.type⟩, Wire.payloadOf frame) := by
  have hfound : nh.publishers.findSome? (Publishes (Wire.topicOf frame)) = some e := by
    cases hfind : nh.publishers.findSome? (Publishes (Wire.topicOf frame)) with
    | none =>
      rw [List.findSome?_eq_none_iff] at hfind
      have hslot := hfind (some e) (List.mem_of_getElem? he)
      rw [publishes_eq_some_iff.mpr ⟨rfl, hkind, htopic.symm⟩] at hslot
      cases hslot
    | some x =>
      obtain ⟨slot, hslot, hx⟩ := List.exists_of_findSome?_eq_some hfind
      obtain ⟨rfl, -, hfield⟩ := publishes_eq_some_iff.mp hx
      obtain ⟨j, hj⟩ := List.mem_iff_getElem?.mp hslot
      rw [unique_of_topicField hids henrolled hj he (hfield.trans htopic)]
  rw [rosMessageOf, hfound]
  rfl

/-- A message of a ROS topic has the id of a publisher. -/
theorem exists_of_rosMessageOf {frame : List UInt8} {m : Host.Publisher × List UInt8}
    (h : rosMessageOf text nh frame = some m) :
    ∃ i e, Slots.Holds nh.publishers i e ∧ e.endpoint = Device.TopicInfo.ID_PUBLISHER ∧
      Wire.topicOf frame = topicField e.id := by
  obtain ⟨e, hfind, -⟩ := Option.map_eq_some_iff.mp h
  obtain ⟨slot, hslot, he⟩ := List.exists_of_findSome?_eq_some hfind
  obtain ⟨rfl, hkind, hfield⟩ := publishes_eq_some_iff.mp he
  obtain ⟨i, hi⟩ := List.mem_iff_getElem?.mp hslot
  exact ⟨i, e, hi, hkind, hfield.symm⟩

theorem topicOf_frameOf {frame : Nat × List UInt8} (h : Own cfg nh frame) :
    Wire.topicOf (frameOf frame) = frame.1 := by
  have hlt : frame.1 < 65536 := by
    cases h with
    | report payload => exact topicField_lt Device.TopicInfo.ID_LOG
    | time payload => exact topicField_lt Device.TopicInfo.ID_TIME
    | publisher he hinfo => exact topicField_lt _
    | subscriber he hinfo => exact topicField_lt _
    | message he payload => exact topicField_lt _
  exact Wire.topicOf_encode hlt frame.2

/-- A frame of the node is one of the protocol, or has the id of a publisher. -/
theorem own_topic (henrolled : Enrolled cfg nh) {frame : Nat × List UInt8}
    (hown : Own cfg nh frame) :
    frame.1 < 100 ∨ ∃ i e, Slots.Holds nh.publishers i e ∧ frame.1 = topicField e.id := by
  cases hown with
  | report payload =>
    have hsmall : topicField Device.TopicInfo.ID_LOG < 100 := by decide
    exact Or.inl hsmall
  | time payload =>
    have hsmall : topicField Device.TopicInfo.ID_TIME < 100 := by decide
    exact Or.inl hsmall
  | publisher he hinfo =>
    exact Or.inl (topicField_endpoint_lt (Or.inl (henrolled.publishers.kind _ _ he)))
  | subscriber he hinfo =>
    exact Or.inl (topicField_endpoint_lt (Or.inr (henrolled.subscribers.kind _ _ he)))
  | message he payload => exact Or.inr ⟨_, _, he, rfl⟩

theorem own_topic_lt (henrolled : Enrolled cfg nh) {frame : Nat × List UInt8}
    (hown : Own cfg nh frame) : frame.1 < 65536 := by
  rcases own_topic henrolled hown with hsmall | ⟨i, e, -, htopic⟩
  · omega
  · exact htopic ▸ topicField_lt e.id

/-- What an own frame is does not change when the tables grow. -/
theorem rosMessageOf_grows (hids : IdsFit cfg) (henrolled : Enrolled cfg nh)
    (henrolled' : Enrolled cfg nh') (hgrows : Grows nh nh') {frame : Nat × List UInt8}
    (hown : Own cfg nh frame) :
    rosMessageOf text nh' (frameOf frame) = rosMessageOf text nh (frameOf frame) := by
  have htopic := topicOf_frameOf hown
  cases hold : rosMessageOf text nh (frameOf frame) with
  | some m =>
    obtain ⟨i, e, he, hkind, hfield⟩ := exists_of_rosMessageOf hold
    rw [rosMessageOf_eq_some hids henrolled he hkind hfield] at hold
    rw [rosMessageOf_eq_some hids henrolled' (hgrows.publishers i e he) hkind hfield, hold]
  | none =>
    by_contra hnew
    obtain ⟨m, hm⟩ := Option.ne_none_iff_exists'.mp hnew
    obtain ⟨i, e, he, hkind, hfield⟩ := exists_of_rosMessageOf hm
    have hid := (topicField_publisher hids henrolled' he).1
    rw [htopic] at hfield
    -- the frame has the id of an endpoint, so it is a message of a publisher that was there
    rcases own_topic henrolled hown with hsmall | ⟨k, x, hx, hxfield⟩
    · omega
    · obtain rfl := unique_of_topicField hids henrolled' (hgrows.publishers _ _ hx) he
        (hxfield.symm.trans hfield)
      rw [rosMessageOf_eq_some hids henrolled hx hkind (htopic.trans hxfield)] at hold
      cases hold

end Sent

/-! ## The session -/

/-- The tables of the session are about endpoints of the node, and what is bound to the
entry of a publisher is that of the topic and the type of the node's. -/
structure Reflects (text : CString → String) (nh : NodeHandle) (t : TableSession) : Prop where
  mirrors : Mirrors text nh t.registry
  published : ∀ id, t.registry.callbacks.lookup id = some .publisher →
    ∃ e, HasPublisher nh Device.TopicInfo.ID_PUBLISHER id e ∧
      t.publishers.lookup id = some ⟨text e.topic, text e.type⟩

section Session

variable {text : CString → String} {nh nh' : NodeHandle} {t t' : TableSession}

theorem Reflects.grows (h : Reflects text nh t) (hgrows : Grows nh nh') : Reflects text nh' t where
  mirrors := h.mirrors.grows hgrows
  published := by
    intro id hlookup
    obtain ⟨e, he, hpublisher⟩ := h.published id hlookup
    exact ⟨e, he.mono hgrows, hpublisher⟩

/-- A change that enters no publisher. -/
theorem Reflects.of_mirrors (h : Reflects text nh t) (hmirrors : Mirrors text nh t'.registry)
    (hcallbacks : ∀ id, t'.registry.callbacks.lookup id = some .publisher →
      t.registry.callbacks.lookup id = some .publisher)
    (hpublishers : t'.publishers = t.publishers) : Reflects text nh t' where
  mirrors := hmirrors
  published := by
    intro id hlookup
    obtain ⟨e, he, hpublisher⟩ := h.published id (hcallbacks id hlookup)
    exact ⟨e, he, hpublishers ▸ hpublisher⟩

/-- A change of neither the tables with endpoints nor the publishers. -/
theorem Reflects.congr (h : Reflects text nh t) (hregistry : t'.registry = t.registry)
    (hpublishers : t'.publishers = t.publishers) : Reflects text nh t' :=
  h.of_mirrors (hregistry ▸ h.mirrors) (fun _ hlookup => hregistry ▸ hlookup) hpublishers

theorem stop_reflects (h : Reflects text nh t) : Reflects text nh t.stop := by
  unfold TableSession.stop
  split
  · rename_i hactive
    refine ⟨stop_mirrors h.mirrors, fun id hlookup => ?_⟩
    dsimp only at hlookup
    rw [Host.Registry.stop, if_pos hactive] at hlookup
    cases hlookup
  · exact h

theorem setSyncTimeout_reflects (h : Reflects text nh t) : Reflects text nh t.setSyncTimeout := by
  unfold TableSession.setSyncTimeout
  split
  · exact h
  · exact (stop_reflects h).congr rfl rfl

theorem attemptSync_reflects (h : Reflects text nh t) : Reflects text nh t.attemptSync :=
  setSyncTimeout_reflects
    (h.of_mirrors (requestTopics_mirrors h.mirrors) (fun _ hlookup => hlookup) rfl)

theorem readDepth_reflects (h : Reflects text nh t) (depth n : Nat) (callback : Continuation) :
    Reflects text nh (t.readDepth depth n callback) :=
  TableSession.readDepth_keeps (fun _ _ h => h.congr rfl rfl) (fun _ h => stop_reflects h) h depth n
    callback

theorem start_reflects (h : Reflects text nh t) : Reflects text nh t.start := by
  have hstart : Reflects text nh { t with registry := t.registry.start } := by
    refine h.of_mirrors (start_mirrors h.mirrors) (fun id hlookup => ?_) rfl
    rcases Host.Registry.start_callbacks hlookup with hmem | hold
    · exact absurd hmem (by decide)
    · exact hold
  exact readDepth_reflects (setSyncTimeout_reflects hstart) 2 1 .readSyncFirst

/-- A read that has ended, with its bytes or with an error. -/
theorem completeRead_reflects (h : Reflects text nh t) (op : AsyncRead)
    (result : Except ErrorCode (List UInt8)) : Reflects text nh (t.completeRead op result) :=
  TableSession.completeRead_keeps (fun _ _ h => h.congr rfl rfl) (fun _ h => stop_reflects h) h op
    result

/-- What happens to a session besides the frames that it reads. -/
theorem step_reflects {deserialize : List UInt8 → Option Host.TopicInfo}
    (h : Reflects text nh t) {st : TableSession.Step}
    (hst : (∃ id message, st = .rosMessage id message) ∨
      (∃ type request, st = .rosRequest type request) ∨
      (∃ i error, st = .fail i error) ∨ st = .stop ∨ st = .interrupt ∨ st = .start) :
    Reflects text nh (t.step deserialize st) := by
  unfold TableSession.step
  split
  · exact h
  rcases hst with ⟨id, message, rfl⟩ | ⟨type, request, rfl⟩ | ⟨i, error, rfl⟩ | rfl | rfl | rfl
  · refine h.of_mirrors (rosMessage_mirrors h.mirrors id message) (fun id' hlookup => ?_) rfl
    dsimp only [Host.Registry.rosMessage] at hlookup
    split at hlookup <;> exact hlookup
  · refine h.of_mirrors (rosRequest_mirrors h.mirrors type request) (fun id hlookup => ?_) rfl
    dsimp only [Host.Registry.rosRequest] at hlookup
    split at hlookup
    · unfold Host.Registry.startRequest at hlookup
      split at hlookup
      · exact hlookup
      · split at hlookup <;> exact hlookup
    · exact hlookup
  · dsimp only
    split
    · exact h
    · exact completeRead_reflects h _ _
  · exact stop_reflects h
  · exact h.congr rfl rfl
  · dsimp only
    split
    · exact h
    · exact start_reflects h

/-- The setup of a service enters no publisher. -/
theorem createService_callbacks {r : Host.Registry} {kind : ServiceKind} {created : Bool}
    {topic_info : Host.TopicInfo} {id : UInt16}
    (h : (r.createService kind created topic_info).1.callbacks.lookup id = some .publisher) :
    r.callbacks.lookup id = some .publisher := by
  by_cases hmem : topic_info.topic_name ∈ r.services kind
  · rwa [Host.Registry.createService_present hmem] at h
  · rw [(Host.Registry.createService_creates hmem created).callbacks] at h
    split at h
    · rcases lookup_insert_cases h with ⟨-, hhandler⟩ | hold
      · cases kind <;> cases hhandler
      · exact hold
    · exact h

theorem setupServiceSubscriber_callbacks {r : Host.Registry} {kind : ServiceKind}
    {created : Bool} {topic_info : Host.TopicInfo} {id : UInt16}
    (h : (r.setupServiceSubscriber kind created topic_info).callbacks.lookup id =
      some .publisher) : r.callbacks.lookup id = some .publisher := by
  have hsame : (r.setupServiceSubscriber kind created topic_info).callbacks =
      (r.createService kind created topic_info).1.callbacks := by
    cases hconstructed : (r.createService kind created topic_info).2 with
    | true => exact (Host.Registry.setupServiceSubscriber_sets hconstructed).callbacks
    | false => rw [Host.Registry.setupServiceSubscriber_thrown hconstructed]
  rw [hsame] at h
  exact createService_callbacks h

/-- No handler but that of the publishers enters one. -/
theorem call_callbacks {r : Host.Registry} {deserialize : List UInt8 → Option Host.TopicInfo}
    {handler : Handler} (hhandler : handler ≠ .setupPublisher) {stream : List UInt8}
    {outside : Outside} {id : UInt16}
    (h : (r.call deserialize handler stream outside).callbacks.lookup id = some .publisher) :
    r.callbacks.lookup id = some .publisher := by
  have hsetup : ∀ f : Host.TopicInfo → Host.Registry → Host.Registry,
      (∀ topic_info, (f topic_info r).callbacks.lookup id = some .publisher →
        r.callbacks.lookup id = some .publisher) →
      (r.setup (deserialize stream) f).callbacks.lookup id = some .publisher →
        r.callbacks.lookup id = some .publisher := by
    intro f hf
    cases deserialize stream with
    | none => exact fun h => h
    | some topic_info => exact hf topic_info
  cases handler with
  | setupPublisher => exact absurd rfl hhandler
  | setupSubscriber =>
    refine hsetup _ (fun topic_info h => ?_) h
    unfold Host.Registry.setupSubscriber at h
    split at h <;> exact h
  | handleLog => exact h
  | handleTime => exact h
  | setupServiceClientPublisher => exact hsetup _ (fun _ h => createService_callbacks h) h
  | setupServiceClientSubscriber => exact hsetup _ (fun _ h => setupServiceSubscriber_callbacks h) h
  | setupServiceServerPublisher => exact hsetup _ (fun _ h => createService_callbacks h) h
  | setupServiceServerSubscriber => exact hsetup _ (fun _ h => setupServiceSubscriber_callbacks h) h
  | publisher => exact h
  | serviceClient srv =>
    simp only [Host.Registry.call, Host.Registry.handleClient] at h
    split at h <;> exact h
  | serviceServer srv => exact h

section Frames

variable {cfg : NodeConfig} {deserialize : List UInt8 → Option Host.TopicInfo}

/-- Only the announcement of a publisher of a ROS topic gets to `setup_publisher`. -/
theorem setupPublisher_frame (hdeserializes : Deserializes text deserialize) (hids : IdsFit cfg)
    (henrolled : Enrolled cfg nh) (h : Mirrors text nh t.registry) {frame : Nat × List UInt8}
    (hown : Own cfg nh frame)
    (hentry : t.registry.callbacks.lookup (UInt16.ofNat frame.1) = some .setupPublisher) :
    ∃ i e, Slots.Holds nh.publishers i e ∧ e.endpoint = Device.TopicInfo.ID_PUBLISHER ∧
      deserialize frame.2 = some (hostInfo text e cfg.OUTPUT_SIZE) := by
  have hentry' := h.entries _ _ hentry
  have htopic : ∀ topic : Nat, (topic, Handler.setupPublisher) ∈ Host.Registry.setupHandlers →
      topic = 0 := by
    intro topic hmem
    have hall : ∀ entry ∈ Host.Registry.setupHandlers, entry.2 = .setupPublisher → entry.1 = 0 := by
      decide
    exact hall _ hmem rfl
  cases hown with
  | report payload =>
    have hsmall : topicField Device.TopicInfo.ID_LOG < 100 := by decide
    have hzero : topicField Device.TopicInfo.ID_LOG = 0 :=
      htopic _ (hentry'.builtin_ofNat hids henrolled hsmall)
    exact absurd hzero (by decide)
  | time payload =>
    have hsmall : topicField Device.TopicInfo.ID_TIME < 100 := by decide
    have hzero : topicField Device.TopicInfo.ID_TIME = 0 :=
      htopic _ (hentry'.builtin_ofNat hids henrolled hsmall)
    exact absurd hzero (by decide)
  | publisher he hinfo =>
    have hkind := henrolled.publishers.kind _ _ he
    have hzero := htopic _
      (hentry'.builtin_ofNat hids henrolled (topicField_endpoint_lt (Or.inl hkind)))
    have hkinds : ∀ k ∈ publisherKinds, topicField k = 0 → k = Device.TopicInfo.ID_PUBLISHER := by
      decide
    exact ⟨_, _, he, hkinds _ hkind hzero, hdeserializes _ _ _ hinfo⟩
  | subscriber he hinfo =>
    have hkind := henrolled.subscribers.kind _ _ he
    have hzero := htopic _
      (hentry'.builtin_ofNat hids henrolled (topicField_endpoint_lt (Or.inr hkind)))
    have hkinds : ∀ k ∈ subscriberKinds, topicField k ≠ 0 := by decide
    exact absurd hzero (hkinds _ hkind)
  | @message i e he payload =>
    have hfield := (topicField_publisher hids henrolled he).1
    have hid := toNat_topicField e.id
    have hle : 100 ≤ (UInt16.ofNat (topicField e.id)).toNat := by omega
    rcases hentry'.endpoint_of_le hle with hhandler | ⟨kind, srv, hhandler⟩
    · cases hhandler
    · cases kind <;> cases hhandler

/-- The setup of a publisher of the node. -/
theorem setupPublisher_reflects (h : Reflects text nh t) {e : Endpoint} {bufferSize : Nat}
    (he : ∃ i, Slots.Holds nh.publishers i e)
    (hkind : e.endpoint = Device.TopicInfo.ID_PUBLISHER) (created : Bool) :
    Reflects text nh (t.setupPublisher created (hostInfo text e bufferSize)) := by
  have hmirrors : Mirrors text nh
      (t.registry.setupPublisher created (hostInfo text e bufferSize)) :=
    setupPublisher_mirrors h.mirrors he hkind created
  unfold TableSession.setupPublisher
  split
  · rename_i hcreated
    refine setSyncTimeout_reflects ⟨hmirrors, fun id hlookup => ?_⟩
    dsimp only at hlookup ⊢
    rw [Host.Registry.setupPublisher, if_pos hcreated] at hlookup
    by_cases hid : id = (hostInfo text e bufferSize).topic_id
    · rw [hid, AList.lookup_insert]
      exact ⟨e, ⟨he, hkind, hostInfo_topic_id text e bufferSize⟩, rfl⟩
    · rw [AList.lookup_insert_ne hid] at hlookup ⊢
      exact h.published id hlookup
  · exact h

theorem setupServicePublisher_reflects (h : Reflects text nh t) {kind : ServiceKind}
    {created : Bool} {topic_info : Host.TopicInfo}
    (hmirrors : Mirrors text nh (t.registry.setupServicePublisher kind created topic_info)) :
    Reflects text nh (t.setupServicePublisher kind created topic_info) := by
  unfold TableSession.setupServicePublisher
  dsimp only
  split
  · exact setSyncTimeout_reflects
      (h.of_mirrors hmirrors (fun id hlookup => createService_callbacks hlookup) rfl)
  · exact h.of_mirrors hmirrors (fun id hlookup => createService_callbacks hlookup) rfl

theorem setupServiceSubscriber_reflects (h : Reflects text nh t) {kind : ServiceKind}
    {created : Bool} {topic_info : Host.TopicInfo}
    (hmirrors : Mirrors text nh (t.registry.setupServiceSubscriber kind created topic_info)) :
    Reflects text nh (t.setupServiceSubscriber kind created topic_info) := by
  have hcallbacks : ∀ id, (t.registry.setupServiceSubscriber kind created
      topic_info).callbacks.lookup id = some .publisher →
      t.registry.callbacks.lookup id = some .publisher :=
    fun id hlookup => setupServiceSubscriber_callbacks hlookup
  have hflag : (t.createService kind created topic_info).2 =
    (t.registry.createService kind created topic_info).2 := rfl
  unfold Host.Registry.setupServiceSubscriber at hmirrors hcallbacks
  unfold TableSession.setupServiceSubscriber
  dsimp only at hmirrors hcallbacks ⊢
  rw [hflag]
  cases hconstructed : (t.registry.createService kind created topic_info).2 with
  | true =>
    rw [hconstructed] at hmirrors hcallbacks
    exact setSyncTimeout_reflects (h.of_mirrors hmirrors hcallbacks rfl)
  | false =>
    rw [hconstructed] at hmirrors hcallbacks
    exact h.of_mirrors hmirrors hcallbacks rfl

/-- The call of an entry of `callbacks_` for a frame of the node. -/
theorem call_reflects (hdeserializes : Deserializes text deserialize) (hids : IdsFit cfg)
    (henrolled : Enrolled cfg nh) (h : Reflects text nh t) {frame : Nat × List UInt8}
    (hown : Own cfg nh frame) {handler : Handler}
    (hentry : t.registry.callbacks.lookup (UInt16.ofNat frame.1) = some handler)
    (outside : Outside) : Reflects text nh (t.call deserialize handler frame.2 outside) := by
  have hmirrors := message_mirrors hdeserializes hids henrolled h.mirrors hown hentry outside
  -- a handler that enters no publisher keeps those that are bound
  have hended : handler ≠ .setupPublisher → ∀ ended : TableSession,
      ended.registry = t.registry.call deserialize handler frame.2 outside →
      ended.publishers = t.publishers → Reflects text nh ended := by
    intro hsetup ended hregistry hpublishers
    exact h.of_mirrors (hregistry ▸ hmirrors)
      (fun id hlookup => call_callbacks hsetup (hregistry ▸ hlookup)) hpublishers
  cases handler with
  | setupPublisher =>
    obtain ⟨i, e, he, hkind, hinfo⟩ :=
      setupPublisher_frame hdeserializes hids henrolled h.mirrors hown hentry
    simp only [TableSession.call, hinfo, TableSession.setup]
    exact setupPublisher_reflects h ⟨i, he⟩ hkind outside.created
  | setupSubscriber =>
    simp only [TableSession.call]
    cases hinfo : deserialize frame.2 with
    | none => exact h
    | some topic_info =>
      refine setSyncTimeout_reflects (hended (by decide) _ ?_ rfl)
      rw [Host.Registry.call, hinfo]
      rfl
  | handleLog => exact h
  | handleTime =>
    have htime : Reflects text nh { t with registry := t.registry.handleTime outside.time } :=
      hended (by decide) _ rfl rfl
    simp only [TableSession.call, TableSession.handleTime]
    split
    · exact setSyncTimeout_reflects htime
    · exact htime
  | publisher => exact h
  | serviceClient srv => exact hended Handler.noConfusion _ rfl rfl
  | serviceServer srv => exact hended Handler.noConfusion _ rfl rfl
  | setupServiceClientPublisher =>
    simp only [TableSession.call, Host.Registry.call] at hmirrors ⊢
    cases hinfo : deserialize frame.2 with
    | none => exact h
    | some topic_info =>
      rw [hinfo] at hmirrors
      exact setupServicePublisher_reflects h hmirrors
  | setupServiceClientSubscriber =>
    simp only [TableSession.call, Host.Registry.call] at hmirrors ⊢
    cases hinfo : deserialize frame.2 with
    | none => exact h
    | some topic_info =>
      rw [hinfo] at hmirrors
      exact setupServiceSubscriber_reflects h hmirrors
  | setupServiceServerPublisher =>
    simp only [TableSession.call, Host.Registry.call] at hmirrors ⊢
    cases hinfo : deserialize frame.2 with
    | none => exact h
    | some topic_info =>
      rw [hinfo] at hmirrors
      exact setupServicePublisher_reflects h hmirrors
  | setupServiceServerSubscriber =>
    simp only [TableSession.call, Host.Registry.call] at hmirrors ⊢
    cases hinfo : deserialize frame.2 with
    | none => exact h
    | some topic_info =>
      rw [hinfo] at hmirrors
      exact setupServiceSubscriber_reflects h hmirrors

theorem unrecognised_reflects (h : Reflects text nh t) (enabled : Bool) (topic_id : Nat) :
    Reflects text nh (t.unrecognised enabled topic_id) :=
  TableSession.unrecognised_keeps (fun _ _ h => h.congr rfl rfl) (fun _ _ h => h.congr rfl rfl)
    (fun _ h => attemptSync_reflects h) h enabled topic_id

theorem lookup_reflects (hdeserializes : Deserializes text deserialize) (hids : IdsFit cfg)
    (henrolled : Enrolled cfg nh) (h : Reflects text nh t) {frame : Nat × List UInt8}
    (hown : Own cfg nh frame) (enabled : Bool) (outside : Outside) :
    Reflects text nh (t.lookup deserialize enabled outside frame.1 frame.2) := by
  unfold TableSession.lookup
  split
  · rename_i handler hentry
    exact call_reflects hdeserializes hids henrolled h hown hentry outside
  · exact unrecognised_reflects h enabled frame.1

/-- What is published for a frame is what the frame is. -/
theorem forwards_eq (hids : IdsFit cfg) (henrolled : Enrolled cfg nh) (h : Reflects text nh t)
    {frame : Nat × List UInt8} (hown : Own cfg nh frame) {publisher : Host.Publisher}
    (hforwards : forwards t frame.1 = some publisher) :
    rosMessageOf text nh (frameOf frame) = some (publisher, frame.2) := by
  have htopic := topicOf_frameOf hown
  have hlt : frame.1 < 65536 := by
    rw [← htopic, Wire.topicOf]
    have hlow := ((frameOf frame).getD 5 0).toNat_lt
    have hhigh := ((frameOf frame).getD 6 0).toNat_lt
    omega
  unfold forwards at hforwards
  split at hforwards
  · rename_i hentry
    obtain ⟨e, ⟨⟨i, he⟩, hkind, hid⟩, hpublisher⟩ := h.published _ hentry
    rw [UInt16.toNat_ofNat_of_lt' hlt] at hid
    rw [hpublisher, Option.some.injEq] at hforwards
    have hmessage : rosMessageOf text nh (frameOf frame) =
        some (⟨text e.topic, text e.type⟩, Wire.payloadOf (frameOf frame)) :=
      rosMessageOf_eq_some hids henrolled he hkind (htopic.trans hid)
    rw [hmessage, ← hforwards]
    have hpayload : Wire.payloadOf (frameOf frame) = frame.2 := Wire.payloadOf_encode _ _
    rw [hpayload]
  · cases hforwards

end Frames

end Session

/-! ## The whole -/

namespace Bridge

variable {cfg : NodeConfig} {callbacks : Callbacks cfg} {text : CString → String}
  {deserialize : List UInt8 → Option Host.TopicInfo} {b : Bridge}

/-- What every step keeps. -/
structure Sound (cfg : NodeConfig) (text : CString → String) (b : Bridge) : Prop where
  enrolled : Enrolled cfg b.node
  own : ∃ sent : List (Nat × List UInt8),
    b.node.hardware.tx = sent.map frameOf ∧ ∀ f ∈ sent, Emitted cfg b.node f
  taken_le : b.taken ≤ b.node.hardware.tx.length
  reflects : Reflects text b.node b.session
  forwarded : b.forwarded.Sublist (sentToRos text b.node b.taken)

/-- The frames that were taken stay what they are, whatever the node writes behind them. -/
theorem sentToRos_emits (hids : IdsFit cfg) {nh nh' : NodeHandle} (henrolled : Enrolled cfg nh)
    (hown : ∃ sent : List (Nat × List UInt8),
      nh.hardware.tx = sent.map frameOf ∧ ∀ f ∈ sent, Emitted cfg nh f)
    (hemits : Emits cfg nh nh') (taken : Nat) :
    (sentToRos text nh taken).Sublist (sentToRos text nh' taken) := by
  obtain ⟨sent, htx, hsent⟩ := hown
  obtain ⟨more, htx', -⟩ := hemits.tx
  have hsame : ∀ frame ∈ nh.hardware.tx.take taken,
      rosMessageOf text nh' frame = rosMessageOf text nh frame := by
    intro frame hframe
    rw [htx] at hframe
    obtain ⟨f, hf, rfl⟩ := List.mem_map.mp (List.mem_of_mem_take hframe)
    exact rosMessageOf_grows hids henrolled hemits.enrolled hemits.grows (hsent f hf).own
  unfold sentToRos
  rw [← List.filterMap_congr hsame, htx', List.take_append]
  exact (List.sublist_append_left _ _).filterMap _

/-- Taking one frame more. -/
theorem sentToRos_succ {nh : NodeHandle} {taken : Nat} {frame : List UInt8}
    (hframe : nh.hardware.tx[taken]? = some frame) :
    sentToRos text nh (taken + 1) =
      sentToRos text nh taken ++ (rosMessageOf text nh frame).toList := by
  unfold sentToRos
  rw [List.take_add_one, hframe, Option.toList_some, List.filterMap_append]
  cases hmessage : rosMessageOf text nh frame with
  | none => simp [hmessage]
  | some m => simp [hmessage]

theorem receive_sound (hdeserializes : Deserializes text deserialize) (hids : IdsFit cfg)
    (h : b.Sound cfg text) {frame : List UInt8} (hframe : b.node.hardware.tx[b.taken]? = some frame)
    (enabled : Bool) (outside : Outside) :
    (receive deserialize enabled outside (Wire.topicOf frame) (Wire.payloadOf frame)
      { b with taken := b.taken + 1 }).Sound cfg text := by
  obtain ⟨sent, htx, hsent⟩ := h.own
  obtain ⟨f, hf, rfl⟩ : ∃ f ∈ sent, frameOf f = frame :=
    List.mem_map.mp (htx ▸ List.mem_of_getElem? hframe)
  have hown := (hsent f hf).own
  have hpayload : Wire.payloadOf (frameOf f) = f.2 := Wire.payloadOf_encode _ _
  have htaken : (b.forwarded).Sublist (sentToRos text b.node (b.taken + 1)) := by
    rw [sentToRos_succ hframe]
    exact h.forwarded.trans (List.sublist_append_left _ _)
  have htaken_le : b.taken + 1 ≤ b.node.hardware.tx.length :=
    (List.getElem?_eq_some_iff.mp hframe).1
  rw [topicOf_frameOf hown, hpayload]
  unfold receive
  dsimp only
  split
  · exact ⟨h.enrolled, h.own, htaken_le, h.reflects, htaken⟩
  · split
    · refine ⟨h.enrolled, h.own, htaken_le,
        lookup_reflects hdeserializes hids h.enrolled h.reflects hown enabled outside, ?_⟩
      dsimp only
      rw [sentToRos_succ hframe]
      refine h.forwarded.append ?_
      cases hforwards : forwards b.session f.1 with
      | none => exact List.nil_sublist _
      | some publisher =>
        rw [forwards_eq hids h.enrolled h.reflects hown hforwards]
        exact List.Sublist.refl _
    · exact ⟨h.enrolled, h.own, htaken_le, stop_reflects h.reflects, htaken⟩

theorem step_sound (hcallbacks : callbacks.Proper) (hdeserializes : Deserializes text deserialize)
    (hids : IdsFit cfg) (h : b.Sound cfg text) {st : Step} (hproper : st.Proper callbacks b) :
    (b.step cfg callbacks deserialize st).Sound cfg text := by
  have hsession : ∀ st : TableSession.Step, Reflects text b.node (b.session.step deserialize st) →
      Sound cfg text { b with session := b.session.step deserialize st } :=
    fun st hreflects => ⟨h.enrolled, h.own, h.taken_le, hreflects, h.forwarded⟩
  cases st with
  | call c =>
    have hemits := Call.run_emits hcallbacks h.enrolled hproper
    obtain ⟨sent, htx, hsent⟩ := h.own
    obtain ⟨more, htx', hmore⟩ := hemits.tx
    refine ⟨hemits.enrolled, ⟨sent ++ more, ?_, ?_⟩, ?_, h.reflects.grows hemits.grows, ?_⟩
    · rw [step, htx', htx, List.map_append]
    · intro f hf
      rcases List.mem_append.mp hf with hold | hnew
      · exact (hsent f hold).mono hemits.grows
      · exact hmore f hnew
    · rw [step, htx', List.length_append]
      exact Nat.le_trans h.taken_le (Nat.le_add_right _ _)
    · exact h.forwarded.trans (sentToRos_emits hids h.enrolled h.own hemits b.taken)
  | deliver enabled outside =>
    rw [step]
    split
    · exact h
    · rename_i frame hframe
      exact receive_sound hdeserializes hids h hframe enabled outside
  | lose =>
    rw [step]
    split
    · exact h
    · rename_i frame hframe
      refine ⟨h.enrolled, h.own, (List.getElem?_eq_some_iff.mp hframe).1, h.reflects, ?_⟩
      dsimp only
      rw [sentToRos_succ hframe]
      exact h.forwarded.trans (List.sublist_append_left _ _)
  | rosMessage id message =>
    exact hsession _ (step_reflects h.reflects (Or.inl ⟨id, message, rfl⟩))
  | rosRequest type request =>
    exact hsession _ (step_reflects h.reflects (Or.inr (Or.inl ⟨type, request, rfl⟩)))
  | fail i error =>
    exact hsession _ (step_reflects h.reflects (Or.inr (Or.inr (Or.inl ⟨i, error, rfl⟩))))
  | stop => exact hsession _ (step_reflects h.reflects (by simp))
  | interrupt => exact hsession _ (step_reflects h.reflects (by simp))
  | start => exact hsession _ (step_reflects h.reflects (by simp))

/-! ## Runs -/

/-- A session without entries reflects any node. -/
theorem new_reflects {types : List String} {timeout threshold : Int} {ok : Bool} {t : TableSession}
    (hnew : TableSession.new types timeout threshold ok = some t) (nh : NodeHandle) :
    Reflects text nh t := by
  obtain ⟨buffer, -, rfl⟩ := Option.map_eq_some_iff.mp hnew
  have hobjects : ∀ kind srv, serviceInfo (Host.Registry.new types timeout) kind srv = none := by
    intro kind srv
    cases kind <;> rfl
  refine ⟨⟨?_, ?_, ?_, ?_, ?_⟩, ?_⟩
  · intro id handler hlookup
    cases hlookup
  · intro kind name srv hlookup
    cases kind <;> cases hlookup
  · intro kind srv name id hinfo
    rw [hobjects] at hinfo
    cases hinfo
  · intro id sub hlookup
    cases hlookup
  · intro w hw
    cases hw
  · intro id hlookup
    cases hlookup

theorem new_sound {nh : NodeHandle} (henrolled : Enrolled cfg nh) (htx : nh.hardware.tx = [])
    {types : List String} {timeout threshold : Int} {ok : Bool} {t : TableSession}
    (hnew : TableSession.new types timeout threshold ok = some t) : (new nh t).Sound cfg text where
  enrolled := henrolled
  own := ⟨[], htx, by simp⟩
  taken_le := Nat.zero_le _
  reflects := new_reflects hnew nh
  forwarded := List.nil_sublist _

/-- The invariant, in every state of a run. -/
theorem run_sound (hcallbacks : callbacks.Proper) (hdeserializes : Deserializes text deserialize)
    (hids : IdsFit cfg) (h : b.Sound cfg text) {steps : List Step}
    (hproper : Throughout (step cfg callbacks deserialize) (fun b st => st.Proper callbacks b) b steps) :
    Always (step cfg callbacks deserialize) (Sound cfg text) b steps :=
  Always.of_throughout h (fun _ _ h hproper => step_sound hcallbacks hdeserializes hids h hproper)
    hproper

/-- A program that calls the node, and nothing else. -/
theorem proper_calls {b : Bridge} {calls : List Call}
    (h : Throughout (callStep cfg callbacks) (fun nh call => call.Proper callbacks nh) b.node calls) :
    Throughout (step cfg callbacks deserialize) (fun b st => st.Proper callbacks b) b
      (calls.map .call) := by
  induction calls generalizing b with
  | nil => exact throughout_nil
  | cons c calls ih =>
    obtain ⟨hfirst, hmore⟩ := throughout_cons.mp h
    exact throughout_cons.mpr ⟨hfirst, ih hmore⟩

/-- What a program calls does not depend on the session. -/
theorem proper_others {b : Bridge} {steps : List Step} (h : ∀ c, .call c ∉ steps) :
    Throughout (step cfg callbacks deserialize) (fun b st => st.Proper callbacks b) b steps := by
  rintro done st ⟨rest, rfl⟩
  cases st with
  | call c => exact absurd (by simp) (h c)
  | _ => trivial

/-- A name, byte by byte. -/
def plainText (s : CString) : String := String.ofList (s.val.map fun b => Char.ofNat b.toNat)

/-- The session starts, and a publisher is announced and sends.  Its frames arrive, and the
session is stopped and started. -/
def relaySteps : List Step :=
  .start :: publishingCalls.map .call ++
    [.deliver true ⟨true, none, []⟩, .deliver true ⟨true, none, []⟩,
      .deliver true ⟨true, none, []⟩, .stop, .start]

theorem relaySteps_proper :
    Throughout (step atmega168 (noCallbacks _) (deserializeInfo plainText))
      (fun b st => st.Proper (noCallbacks atmega168) b) (new (freshNode atmega168) quietSession) relaySteps := by
  refine throughout_cons.mpr ⟨trivial, (throughout_append _).mpr ⟨?_, proper_others (by simp)⟩⟩
  exact proper_calls publishingCalls_proper

end Bridge

end Ros2Serial.Link
