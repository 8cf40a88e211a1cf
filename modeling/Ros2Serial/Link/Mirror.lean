import Ros2Serial.Device.Emission
import Ros2Serial.Device.Subscription
import Ros2Serial.Host.Tables

/-!
# The tables of the host as a mirror of those of the device

The setup handlers of a session fill its tables from the frames that a node writes.
Where all frames are those of one node, the tables are about its endpoints.

* `Entry` is what an entry of `callbacks_` is about: a handler of the protocol, a
  publisher of the node, or a service with an endpoint of the node.
* `Mirrors` has the same for the other tables and for the objects of the services, and
  says of every frame that the session writes to whom it is addressed.
* `Mirrors.update` is the one rule for a change of the session.  Each handler has one
  lemma, and `message_mirrors` puts them together for a frame of the node.

The text of a name on the host is `text` of its bytes, for any function `text`.  How a
`TopicInfo` is deserialized is a parameter, and `Deserializes` is what is needed of it.
-/

namespace Ros2Serial.Link

open Generator Device Host

/-! ## What an announcement says -/

/-- The `TopicInfo` of an endpoint, as the host gets it. -/
def hostInfo (text : CString → String) (e : Endpoint) (bufferSize : Nat) : Host.TopicInfo where
  topic_id := UInt16.ofNat (topicField e.id)
  topic_name := text e.topic
  message_type := text e.type
  buffer_size := Int32.ofNat bufferSize

/-- `deserialize_message` gives back what a complete announcement says. -/
def Deserializes (text : CString → String) (deserialize : List UInt8 → Option Host.TopicInfo) :
    Prop :=
  ∀ (e : Endpoint) (bufferSize : Nat) (payload : List UInt8),
    (topicInfo e bufferSize).Encodes payload →
      deserialize payload = some (hostInfo text e bufferSize)

/-! ### A decoder for announcements -/

/-- A field without brackets has one element. -/
def theOne (cls : DataClass)
    (field : {elems : List cls.Val // ArraySize.single.Admits elems.length}) : cls.Val :=
  field.val.head (List.ne_nil_of_length_eq_add_one field.property)

/-- The fields of a `TopicInfo` that the host looks at. -/
def infoOf (text : CString → String) (v : topicInfoDef.Val) : Host.TopicInfo :=
  let id : Fin (256 ^ 2) := theOne (.primitive .uint16) v.1
  let size : Fin (256 ^ 4) := theOne (.primitive .int32) v.2.2.2.2.1
  { topic_id := UInt16.ofNat id.val
    topic_name := text (theOne .string v.2.1)
    message_type := text (theOne .string v.2.2.1)
    buffer_size := Int32.ofNat size.val }

/-- The decoder of the device, on a new object. -/
def deserializeInfo (text : CString → String) (payload : List UInt8) : Option Host.TopicInfo :=
  let cfg : NodeConfig := { atmega168 with INPUT_SIZE := payload.length }
  let received :=
    (Device.Subscriber.construct topicInfoDef).receive cfg exactPlatform topicInfoDef payload
  received.2.map (infoOf text)

theorem topicInfoDef_compiles : topicInfoDef.Compiles fun _ => False := by
  refine ⟨by decide, ?_, ?_⟩
  · simp [topicInfoDef, MessageDef.members, fieldMembers]
    decide
  · simp [topicInfoDef, MessageDef.members, fieldMembers, MessageDef.FieldsCompile,
      DataClass.Compiles, stringTarget]
    decide

theorem infoOf_topicInfo (text : CString → String) (e : Endpoint) (bufferSize : Nat) :
    infoOf text (topicInfo e bufferSize).value = hostInfo text e bufferSize := by
  have hsize : Int32.ofNat (bufferSize % 2 ^ 32) = Int32.ofNat bufferSize := by
    refine Int32.toBitVec_inj.mp (BitVec.eq_of_toNat_eq ?_)
    simp
  exact congrArg (Host.TopicInfo.mk (UInt16.ofNat (topicField e.id)) (text e.topic) (text e.type))
    hsize

theorem deserializeInfo_deserializes (text : CString → String) :
    Deserializes text (deserializeInfo text) := by
  intro e bufferSize payload hencodes
  have hinvertible : topicInfoDef.Invertible := by
    simp [topicInfoDef, MessageDef.Invertible, DataClass.Invertible]
  have hsent : Sent { atmega168 with INPUT_SIZE := payload.length } topicInfoDef payload
      (topicInfo e bufferSize).value :=
    ⟨payload, ⟨rfl, rfl⟩, Nat.le_refl _, hencodes⟩
  have husable := Device.Subscriber.construct_usable (P := exactPlatform) topicInfoDef_compiles
  have hreceived := husable.receive_sent exactPlatform_allocates topicInfoDef_compiles
    hinvertible hsent
  rw [deserializeInfo, hreceived.1]
  exact congrArg some (infoOf_topicInfo text e bufferSize)

/-- The setup id of the publisher of a service. -/
def publisherKind : ServiceKind → Int
  | .client => Device.TopicInfo.ID_SERVICE_CLIENT + Device.TopicInfo.ID_PUBLISHER
  | .server => Device.TopicInfo.ID_SERVICE_SERVER + Device.TopicInfo.ID_PUBLISHER

/-- The setup id of the subscriber of a service. -/
def subscriberKind : ServiceKind → Int
  | .client => Device.TopicInfo.ID_SERVICE_CLIENT + Device.TopicInfo.ID_SUBSCRIBER
  | .server => Device.TopicInfo.ID_SERVICE_SERVER + Device.TopicInfo.ID_SUBSCRIBER

/-- The name and the topic id of the object of a service. -/
def serviceInfo (r : Host.Registry) : ServiceKind → Nat → Option (String × UInt16)
  | .client, srv => r.clients[srv]?.map fun client => (client.service_name, client.topic_id)
  | .server, srv => r.servers[srv]?.map fun server => (server.service_name, server.topic_id)

/-! ## The mirror -/

section Mirror

variable (text : CString → String) (nh : NodeHandle)

/-- The node has a publisher of this kind in a slot, with this id. -/
def HasPublisher (kind : Int) (id : UInt16) (e : Endpoint) : Prop :=
  (∃ i, Slots.Holds nh.publishers i e) ∧ e.endpoint = kind ∧ id.toNat = topicField e.id

/-- The node has a subscriber of this kind in a slot, with this id. -/
def HasSubscriber (kind : Int) (id : UInt16) (e : Endpoint) : Prop :=
  (∃ j, Slots.Holds nh.subscribers j e) ∧ e.endpoint = kind ∧ id.toNat = topicField e.id

/-- What an entry of `callbacks_` is about. -/
inductive Entry (r : Host.Registry) : UInt16 → Handler → Prop
  | builtin {id : UInt16} {handler : Handler}
      (hmem : (id.toNat, handler) ∈ Host.Registry.setupHandlers) : Entry r id handler
  | publisher {id : UInt16} {e : Endpoint}
      (he : HasPublisher nh Device.TopicInfo.ID_PUBLISHER id e) : Entry r id .publisher
  | service {id id' : UInt16} {kind : ServiceKind} {srv : Nat} {e : Endpoint}
      (he : HasPublisher nh (publisherKind kind) id e ∨ HasSubscriber nh (subscriberKind kind) id e)
      (hinfo : serviceInfo r kind srv = some (text e.topic, id')) :
      Entry r id (Host.Registry.serviceHandler kind srv)

/-- The topic id of a service: not set, or that of its subscriber. -/
def Known (kind : ServiceKind) (name : String) (id : UInt16) : Prop :=
  id = -1 ∨ ∃ e, HasSubscriber nh (subscriberKind kind) id e ∧ name = text e.topic

/-- An entry of `subscribers_` is about a subscriber of the node. -/
def Subscribed (id : UInt16) (sub : Host.Subscriber) : Prop :=
  ∃ e, HasSubscriber nh Device.TopicInfo.ID_SUBSCRIBER id e ∧
    sub = { topic_name := text e.topic, message_type := text e.type, topic_id := id }

/-- A frame for the node: a request of the protocol, a message for one of its subscribers,
or one with the topic id of a service that was not set. -/
def Addressed (frame : List UInt8) : Prop :=
  Wire.topicOf frame ∈
      [Host.TopicInfo.ID_PUBLISHER, Host.TopicInfo.ID_TIME, Host.TopicInfo.ID_TX_STOP, 65535] ∨
    ∃ j e, Slots.Holds nh.subscribers j e ∧ Wire.topicOf frame = topicField e.id

/-- The tables of the session are about endpoints of the node. -/
structure Mirrors (r : Host.Registry) : Prop where
  entries : ∀ id handler, r.callbacks.lookup id = some handler → Entry text nh r id handler
  named : ∀ kind name srv, (r.services kind).lookup name = some srv →
    ∃ id, serviceInfo r kind srv = some (name, id)
  known : ∀ kind srv name id, serviceInfo r kind srv = some (name, id) →
    Known text nh kind name id
  subscribers : ∀ id sub, r.subscribers.lookup id = some sub → Subscribed text nh id sub
  written : ∀ w ∈ r.written, Addressed nh w.frame

end Mirror

section Rules

variable {text : CString → String} {nh nh' : NodeHandle} {r r' : Host.Registry}

theorem HasPublisher.mono {kind : Int} {id : UInt16} {e : Endpoint} (h : HasPublisher nh kind id e)
    (hgrows : Grows nh nh') : HasPublisher nh' kind id e := by
  obtain ⟨⟨i, hi⟩, hkind, hid⟩ := h
  exact ⟨⟨i, hgrows.publishers i e hi⟩, hkind, hid⟩

theorem HasSubscriber.mono {kind : Int} {id : UInt16} {e : Endpoint}
    (h : HasSubscriber nh kind id e) (hgrows : Grows nh nh') : HasSubscriber nh' kind id e := by
  obtain ⟨⟨j, hj⟩, hkind, hid⟩ := h
  exact ⟨⟨j, hgrows.subscribers j e hj⟩, hkind, hid⟩

/-- The mirror stays one when the tables of the node grow. -/
theorem Mirrors.grows (h : Mirrors text nh r) (hgrows : Grows nh nh') : Mirrors text nh' r where
  entries := by
    intro id handler hlookup
    cases h.entries id handler hlookup with
    | builtin hmem => exact .builtin hmem
    | publisher he => exact .publisher (he.mono hgrows)
    | service he hinfo =>
      exact .service (he.imp (fun he => he.mono hgrows) fun he => he.mono hgrows) hinfo
  named := h.named
  known := by
    intro kind srv name id hinfo
    rcases h.known kind srv name id hinfo with hunset | ⟨e, he, hname⟩
    · exact Or.inl hunset
    · exact Or.inr ⟨e, he.mono hgrows, hname⟩
  subscribers := by
    intro id sub hlookup
    obtain ⟨e, he, hsub⟩ := h.subscribers id sub hlookup
    exact ⟨e, he.mono hgrows, hsub⟩
  written := by
    intro w hw
    rcases h.written w hw with hmem | ⟨j, e, he, htopic⟩
    · exact Or.inl hmem
    · exact Or.inr ⟨j, e, hgrows.subscribers j e he, htopic⟩

/-- A change of the session: whatever is in the new tables was there before, or is about
the node.  The objects of the services keep their names. -/
theorem Mirrors.update (h : Mirrors text nh r)
    (hnames : ∀ kind srv name id, serviceInfo r kind srv = some (name, id) →
      ∃ id', serviceInfo r' kind srv = some (name, id'))
    (hentries : ∀ id handler, r'.callbacks.lookup id = some handler →
      r.callbacks.lookup id = some handler ∨ Entry text nh r' id handler)
    (hservices : ∀ kind name srv, (r'.services kind).lookup name = some srv →
      (r.services kind).lookup name = some srv ∨ ∃ id, serviceInfo r' kind srv = some (name, id))
    (hknown : ∀ kind srv name id, serviceInfo r' kind srv = some (name, id) →
      serviceInfo r kind srv = some (name, id) ∨ Known text nh kind name id)
    (hsubscribers : ∀ id sub, r'.subscribers.lookup id = some sub →
      r.subscribers.lookup id = some sub ∨ Subscribed text nh id sub)
    (hwritten : ∀ w ∈ r'.written, w ∈ r.written ∨ Addressed nh w.frame) :
    Mirrors text nh r' where
  entries := by
    intro id handler hlookup
    rcases hentries id handler hlookup with hold | hnew
    · cases h.entries id handler hold with
      | builtin hmem => exact .builtin hmem
      | publisher he => exact .publisher he
      | service he hinfo =>
        obtain ⟨id', hinfo'⟩ := hnames _ _ _ _ hinfo
        exact .service he hinfo'
    · exact hnew
  named := by
    intro kind name srv hlookup
    rcases hservices kind name srv hlookup with hold | hnew
    · obtain ⟨id, hinfo⟩ := h.named kind name srv hold
      exact hnames kind srv name id hinfo
    · exact hnew
  known := by
    intro kind srv name id hinfo
    rcases hknown kind srv name id hinfo with hold | hnew
    · exact h.known kind srv name id hold
    · exact hnew
  subscribers := by
    intro id sub hlookup
    rcases hsubscribers id sub hlookup with hold | hnew
    · exact h.subscribers id sub hold
    · exact hnew
  written := by
    intro w hw
    rcases hwritten w hw with hold | hnew
    · exact h.written w hold
    · exact hnew

/-- A change of what is written only. -/
theorem Mirrors.of_written (h : Mirrors text nh r) (hcallbacks : r'.callbacks = r.callbacks)
    (hservices : r'.services = r.services) (hinfo : serviceInfo r' = serviceInfo r)
    (hsubscribers : r'.subscribers = r.subscribers)
    (hwritten : ∀ w ∈ r'.written, w ∈ r.written ∨ Addressed nh w.frame) : Mirrors text nh r' := by
  refine h.update ?_ ?_ ?_ ?_ ?_ hwritten
  · intro kind srv name id hsome
    exact ⟨id, by rw [hinfo, hsome]⟩
  · intro id handler hlookup
    exact Or.inl (hcallbacks ▸ hlookup)
  · intro kind name srv hlookup
    exact Or.inl (hservices ▸ hlookup)
  · intro kind srv name id hsome
    exact Or.inl (hinfo ▸ hsome)
  · intro id sub hlookup
    exact Or.inl (hsubscribers ▸ hlookup)

/-! ## Writing -/

/-- The frames of `write_message` have the topic id that it gets. -/
theorem topicOf_messageBuffer {message frame : List UInt8} {id : UInt16}
    (h : messageBuffer message id.toNat = some frame) : Wire.topicOf frame = id.toNat := by
  obtain ⟨-, rfl⟩ := (messageBuffer_eq_some_iff id.toNat_lt).mp h
  exact Wire.topicOf_encode id.toNat_lt message

theorem writeMessage_written {thread : Thread} {message : List UInt8} {id : UInt16} {w : Written}
    (hw : w ∈ (r.writeMessage thread message id).written) :
    w ∈ r.written ∨ Wire.topicOf w.frame = id.toNat := by
  rcases List.mem_append.mp hw with hold | hnew
  · exact Or.inl hold
  · obtain ⟨frame, hframe, rfl⟩ := List.mem_map.mp hnew
    exact Or.inr (topicOf_messageBuffer (Option.mem_toList.mp hframe))

/-- What is written to one of the ids of the protocol, or to a service that is known. -/
theorem Mirrors.writeMessage (h : Mirrors text nh r) {id : UInt16}
    (hid : ∀ frame, Wire.topicOf frame = id.toNat → Addressed nh frame) (thread : Thread)
    (message : List UInt8) : Mirrors text nh (r.writeMessage thread message id) := by
  refine h.of_written rfl (funext fun kind => by cases kind <;> rfl)
    (funext fun kind => by cases kind <;> rfl) rfl fun w hw => ?_
  exact (writeMessage_written hw).imp_right fun htopic => hid w.frame htopic

/-- The topic id of a service leads to the node. -/
theorem Known.addressed {kind : ServiceKind} {name : String} {id : UInt16}
    (h : Known text nh kind name id) {frame : List UInt8}
    (hframe : Wire.topicOf frame = id.toNat) : Addressed nh frame := by
  rcases h with rfl | ⟨e, ⟨⟨j, hj⟩, -, hid⟩, -⟩
  · refine Or.inl ?_
    rw [hframe]
    decide
  · exact Or.inr ⟨j, e, hj, hframe.trans hid⟩

/-! ## Setup frames -/

/-- An entry of a table after an insertion is the new one, or was there. -/
theorem lookup_insert_cases {κ ν : Type} [DecidableEq κ] {table : AList fun _ : κ => ν} {k k' : κ}
    {v v' : ν} (h : (table.insert k v).lookup k' = some v') :
    k' = k ∧ v' = v ∨ table.lookup k' = some v' := by
  by_cases hk : k' = k
  · rw [hk, AList.lookup_insert] at h
    exact Or.inl ⟨hk, (Option.some.inj h).symm⟩
  · rw [AList.lookup_insert_ne hk] at h
    exact Or.inr h

theorem hostInfo_topic_id (text : CString → String) (e : Endpoint) (bufferSize : Nat) :
    (hostInfo text e bufferSize).topic_id.toNat = topicField e.id :=
  toNat_topicField e.id

variable {e : Endpoint} {bufferSize : Nat}

theorem setupPublisher_mirrors (h : Mirrors text nh r) (he : ∃ i, Slots.Holds nh.publishers i e)
    (hkind : e.endpoint = Device.TopicInfo.ID_PUBLISHER) (created : Bool) :
    Mirrors text nh (r.setupPublisher created (hostInfo text e bufferSize)) := by
  unfold Host.Registry.setupPublisher
  split
  · refine h.update ?_ ?_ ?_ ?_ ?_ fun w hw => Or.inl hw
    · intro kind srv name id hinfo
      exact ⟨id, by cases kind <;> exact hinfo⟩
    · intro id handler hlookup
      rcases lookup_insert_cases hlookup with ⟨rfl, rfl⟩ | hold
      · exact Or.inr (.publisher ⟨he, hkind, hostInfo_topic_id text e bufferSize⟩)
      · exact Or.inl hold
    · intro kind name srv hlookup
      exact Or.inl (by cases kind <;> exact hlookup)
    · intro kind srv name id hinfo
      exact Or.inl (by cases kind <;> exact hinfo)
    · intro id sub hlookup
      exact Or.inl hlookup
  · exact h

theorem setupSubscriber_mirrors (h : Mirrors text nh r) (he : ∃ j, Slots.Holds nh.subscribers j e)
    (hkind : e.endpoint = Device.TopicInfo.ID_SUBSCRIBER) (created : Bool) :
    Mirrors text nh (r.setupSubscriber created (hostInfo text e bufferSize)) := by
  unfold Host.Registry.setupSubscriber
  split
  · refine h.update ?_ ?_ ?_ ?_ ?_ fun w hw => Or.inl hw
    · intro kind srv name id hinfo
      exact ⟨id, by cases kind <;> exact hinfo⟩
    · intro id handler hlookup
      exact Or.inl hlookup
    · intro kind name srv hlookup
      exact Or.inl (by cases kind <;> exact hlookup)
    · intro kind srv name id hinfo
      exact Or.inl (by cases kind <;> exact hinfo)
    · intro id sub hlookup
      rcases lookup_insert_cases hlookup with ⟨rfl, rfl⟩ | hold
      · exact Or.inr ⟨e, ⟨he, hkind, hostInfo_topic_id text e bufferSize⟩, rfl⟩
      · exact Or.inl hold
  · exact h

/-- A list of objects with a new one at its end. -/
theorem getElem?_append_singleton_map {α β : Type} (f : α → β) (objects : List α) (a : α)
    (srv : Nat) :
    (objects ++ [a])[srv]?.map f =
      if srv = objects.length then some (f a) else objects[srv]?.map f := by
  by_cases hlt : srv < objects.length
  · rw [List.getElem?_append_left hlt, if_neg (Nat.ne_of_lt hlt)]
  · rw [List.getElem?_append_right (Nat.not_lt.mp hlt)]
    by_cases heq : srv = objects.length
    · rw [if_pos heq, heq, Nat.sub_self]
      rfl
    · rw [if_neg heq, List.getElem?_eq_none (by simp; omega),
        List.getElem?_eq_none (by omega)]

/-- A new object of a service, whose topic id is not set, and the entries for it if its
constructor does not throw. -/
theorem Mirrors.make (h : Mirrors text nh r) {kind : ServiceKind} {name : String}
    (hmake : ∀ other srv, serviceInfo r' other srv =
      if other = kind ∧ srv = r.made kind then some (name, -1) else serviceInfo r other srv)
    (hentries : ∀ id handler, r'.callbacks.lookup id = some handler →
      r.callbacks.lookup id = some handler ∨ Entry text nh r' id handler)
    (hservices : ∀ other other_name srv, (r'.services other).lookup other_name = some srv →
      (r.services other).lookup other_name = some srv ∨
        other = kind ∧ other_name = name ∧ srv = r.made kind)
    (hsubscribers : r'.subscribers = r.subscribers) (hwritten : r'.written = r.written) :
    Mirrors text nh r' := by
  have hmade : serviceInfo r kind (r.made kind) = none := by
    cases kind with
    | client => exact congrArg (Option.map _) (List.getElem?_eq_none (Nat.le_refl _))
    | server => exact congrArg (Option.map _) (List.getElem?_eq_none (Nat.le_refl _))
  refine h.update ?_ hentries ?_ ?_ ?_ ?_
  · intro other srv other_name id hinfo
    refine ⟨id, ?_⟩
    rw [hmake, if_neg, hinfo]
    rintro ⟨rfl, rfl⟩
    rw [hmade] at hinfo
    cases hinfo
  · intro other other_name srv hlookup
    rcases hservices other other_name srv hlookup with hold | ⟨rfl, rfl, rfl⟩
    · exact Or.inl hold
    · exact Or.inr ⟨-1, by rw [hmake, if_pos ⟨rfl, rfl⟩]⟩
  · intro other srv other_name id hinfo
    rw [hmake] at hinfo
    split at hinfo
    · rw [Option.some.injEq, Prod.mk.injEq] at hinfo
      exact Or.inr (Or.inl hinfo.2.symm)
    · exact Or.inl hinfo
  · intro id sub hlookup
    exact Or.inl (hsubscribers ▸ hlookup)
  · intro w hw
    exact Or.inl (hwritten ▸ hw)

/-- The endpoint of the node that a setup frame for a service is about. -/
def ServiceEndpoint (nh : NodeHandle) (kind : ServiceKind) (e : Endpoint) : Prop :=
  ∀ id : UInt16, id.toNat = topicField e.id →
    HasPublisher nh (publisherKind kind) id e ∨ HasSubscriber nh (subscriberKind kind) id e

/-- The object that `createService` makes for a name that the table does not have, and the
entries for it, if there are any. -/
theorem createService_makes {kind : ServiceKind} {topic_info : Host.TopicInfo} {created : Bool}
    (habsent : topic_info.topic_name ∉ r.services kind)
    (hr' : r' = (r.createService kind created topic_info).1) :
    r' = r ∨
      (∀ other srv, serviceInfo r' other srv =
        if other = kind ∧ srv = r.made kind then some (topic_info.topic_name, -1)
        else serviceInfo r other srv) ∧
      r'.subscribers = r.subscribers ∧ r'.written = r.written ∧
      ((r'.callbacks = r.callbacks ∧ r'.services = r.services) ∨
        (r'.callbacks = r.callbacks.insert topic_info.topic_id
            (Host.Registry.serviceHandler kind (r.made kind)) ∧
          ∀ other, r'.services other =
            if other = kind then (r.services other).insert topic_info.topic_name (r.made kind)
            else r.services other)) := by
  subst hr'
  unfold Host.Registry.createService
  rw [if_neg habsent]
  cases kind with
  | client =>
    have hinfo : ∀ found other srv, serviceInfo
        { r with clients := r.clients ++ [Host.ServiceClient.new topic_info found] } other srv =
        if other = ServiceKind.client ∧ srv = r.made .client then
          some (topic_info.topic_name, (-1 : UInt16))
        else serviceInfo r other srv := by
      intro found other srv
      cases other with
      | client =>
        simp only [true_and]
        exact getElem?_append_singleton_map (fun client : Host.ServiceClient =>
          (client.service_name, client.topic_id)) r.clients
          (Host.ServiceClient.new topic_info found) srv
      | server => rfl
    unfold Host.Registry.newServiceClient
    dsimp only
    by_cases hthrown : (decide (topic_info.message_type ∈ r.converters) && !created) = true
    · rw [if_pos hthrown]
      exact Or.inl rfl
    · rw [if_neg hthrown]
      refine Or.inr ⟨?_, rfl, rfl, Or.inr ⟨rfl, fun other => by cases other <;> rfl⟩⟩
      intro other srv
      rw [← hinfo (decide (topic_info.message_type ∈ r.converters))]
      cases other <;> rfl
  | server =>
    have hinfo : ∀ converters other srv, serviceInfo
        { r with
          servers := r.servers ++ [Host.ServiceServer.new topic_info buffer_max
            r.services_no_response_timeout_ms]
          converters := converters } other srv =
        if other = ServiceKind.server ∧ srv = r.made .server then
          some (topic_info.topic_name, (-1 : UInt16))
        else serviceInfo r other srv := by
      intro converters other srv
      cases other with
      | client => rfl
      | server =>
        simp only [true_and]
        exact getElem?_append_singleton_map (fun server : Host.ServiceServer =>
          (server.service_name, server.topic_id)) r.servers (Host.ServiceServer.new topic_info
            buffer_max r.services_no_response_timeout_ms) srv
    unfold Host.Registry.newServiceServer
    dsimp only
    refine Or.inr ?_
    cases r.converters.lookup topic_info.message_type with
    | none =>
      refine ⟨?_, rfl, rfl, Or.inr ⟨rfl, fun other => by cases other <;> rfl⟩⟩
      intro other srv
      rw [← hinfo r.converters]
      cases other <;> rfl
    | some converter =>
      cases created with
      | true =>
        refine ⟨?_, rfl, rfl, Or.inr ⟨rfl, fun other => by cases other <;> rfl⟩⟩
        intro other srv
        rw [← hinfo (r.converters.insert topic_info.message_type
          (converter.startServer true topic_info.topic_name r.servers.length))]
        cases other <;> rfl
      | false =>
        refine ⟨?_, rfl, rfl, Or.inl ⟨rfl, funext fun other => by cases other <;> rfl⟩⟩
        intro other srv
        rw [← hinfo (r.converters.insert topic_info.message_type
          (converter.startServer false topic_info.topic_name r.servers.length))]
        cases other <;> rfl

theorem createService_mirrors (h : Mirrors text nh r) {kind : ServiceKind}
    (he : ServiceEndpoint nh kind e) (created : Bool) :
    Mirrors text nh (r.createService kind created (hostInfo text e bufferSize)).1 := by
  have hid := hostInfo_topic_id text e bufferSize
  by_cases hpresent : (hostInfo text e bufferSize).topic_name ∈ r.services kind
  · rw [Host.Registry.createService_present hpresent]
    exact h
  rcases createService_makes hpresent rfl with hsame | ⟨hmake, hsubs, hwritten, htables⟩
  · rw [hsame]
    exact h
  rcases htables with ⟨hcallbacks, hservices⟩ | ⟨hcallbacks, hservices⟩
  · refine h.make hmake ?_ ?_ hsubs hwritten
    · intro id handler hlookup
      exact Or.inl (hcallbacks ▸ hlookup)
    · intro other name srv hlookup
      exact Or.inl (hservices ▸ hlookup)
  · refine h.make hmake ?_ ?_ hsubs hwritten
    · intro id handler hlookup
      rw [hcallbacks] at hlookup
      rcases lookup_insert_cases hlookup with ⟨rfl, rfl⟩ | hold
      · have hinfo := hmake kind (r.made kind)
        rw [if_pos ⟨rfl, rfl⟩] at hinfo
        exact Or.inr (.service (he _ hid) hinfo)
      · exact Or.inl hold
    · intro other name srv hlookup
      rw [hservices] at hlookup
      split at hlookup
      · rename_i hother
        rcases lookup_insert_cases hlookup with ⟨rfl, rfl⟩ | hold
        · exact Or.inr ⟨hother, rfl, rfl⟩
        · exact Or.inl hold
      · exact Or.inl hlookup

/-- A change of one object. -/
theorem getElem?_modify_map {α β : Type} (f : α → β) (g : α → α) (objects : List α) (srv i : Nat) :
    (objects.modify srv g)[i]?.map f =
      if srv = i then objects[i]?.map fun a => f (g a) else objects[i]?.map f := by
  rw [List.getElem?_modify]
  by_cases hi : srv = i
  · simp only [if_pos hi, Option.map_eq_map, Option.map_map]
    rfl
  · simp only [if_neg hi, Option.map_eq_map, Option.map_map]
    rfl

/-- `setTopicId` changes the topic id of the object that the table has for the name. -/
theorem setTopicId_info (kind : ServiceKind) (topic_info : Host.TopicInfo) (r : Host.Registry)
    (other : ServiceKind) (srv : Nat) :
    serviceInfo (r.setTopicId kind topic_info) other srv =
      if other = kind ∧ (r.services kind).lookup topic_info.topic_name = some srv then
        (serviceInfo r other srv).map fun info => (info.1, topic_info.topic_id)
      else serviceInfo r other srv := by
  unfold Host.Registry.setTopicId
  cases hlookup : (r.services kind).lookup topic_info.topic_name with
  | none =>
    rw [if_neg (by rintro ⟨-, hnone⟩; cases hnone)]
    cases kind <;> rfl
  | some found =>
    cases kind with
    | client =>
      cases other with
      | client =>
        refine (getElem?_modify_map _ _ r.clients found srv).trans ?_
        simp only [Option.some.injEq, true_and, serviceInfo, Option.map_map]
        rfl
      | server => simp [serviceInfo]
    | server =>
      cases other with
      | client => simp [serviceInfo]
      | server =>
        refine (getElem?_modify_map _ _ r.servers found srv).trans ?_
        simp only [Option.some.injEq, true_and, serviceInfo, Option.map_map]
        rfl

/-- `setTopicId` and the record of what was announced change nothing else. -/
theorem setTopicId_tables (kind : ServiceKind) (topic_info : Host.TopicInfo) (r : Host.Registry) :
    (r.setTopicId kind topic_info).callbacks = r.callbacks ∧
      (r.setTopicId kind topic_info).services = r.services ∧
      (r.setTopicId kind topic_info).subscribers = r.subscribers ∧
      (r.setTopicId kind topic_info).written = r.written := by
  have hsets := Host.Registry.setTopicId_sets kind topic_info r
  exact ⟨hsets.callbacks, hsets.services, hsets.subscribers, hsets.written⟩

/-- The setup of the subscriber of a service. -/
theorem setTopicId_mirrors (h : Mirrors text nh r) {kind : ServiceKind}
    (he : ∃ j, Slots.Holds nh.subscribers j e) (hkind : e.endpoint = subscriberKind kind)
    {announced : AList fun _ : UInt16 => Int32} :
    Mirrors text nh { r.setTopicId kind (hostInfo text e bufferSize) with
      announced := announced } := by
  have hinfo : ∀ other srv, serviceInfo { r.setTopicId kind (hostInfo text e bufferSize) with
      announced := announced } other srv =
      serviceInfo (r.setTopicId kind (hostInfo text e bufferSize)) other srv := by
    intro other srv
    cases other <;> rfl
  obtain ⟨hcallbacks, hservices, hsubs, hwritten⟩ :=
    setTopicId_tables kind (hostInfo text e bufferSize) r
  refine h.update ?_ ?_ ?_ ?_ ?_ fun w hw => Or.inl (hwritten ▸ hw)
  · intro other srv name id hsome
    rw [hinfo, setTopicId_info, hsome]
    split
    · exact ⟨_, rfl⟩
    · exact ⟨id, rfl⟩
  · intro id handler hlookup
    exact Or.inl (hcallbacks ▸ hlookup)
  · intro other name srv hlookup
    have hsame : Host.Registry.services { r.setTopicId kind (hostInfo text e bufferSize) with
        announced := announced } other =
        (r.setTopicId kind (hostInfo text e bufferSize)).services other := by
      cases other <;> rfl
    rw [hsame, hservices] at hlookup
    exact Or.inl hlookup
  · intro other srv name id hsome
    rw [hinfo, setTopicId_info] at hsome
    split at hsome
    · rename_i hset
      obtain ⟨rfl, hlookup⟩ := hset
      -- the table has the object under the name of the endpoint
      obtain ⟨id', hnamed⟩ := h.named other _ srv hlookup
      rw [hnamed, Option.map_some, Option.some.injEq, Prod.mk.injEq] at hsome
      obtain ⟨rfl, rfl⟩ := hsome
      exact Or.inr (Or.inr ⟨e, ⟨he, hkind, hostInfo_topic_id text e bufferSize⟩, rfl⟩)
    · exact Or.inl hsome
  · intro id sub hlookup
    exact Or.inl (hsubs ▸ hlookup)

theorem setupServiceSubscriber_mirrors (h : Mirrors text nh r) (kind : ServiceKind)
    (he : ∃ j, Slots.Holds nh.subscribers j e) (hkind : e.endpoint = subscriberKind kind)
    (created : Bool) :
    Mirrors text nh (r.setupServiceSubscriber kind created (hostInfo text e bufferSize)) := by
  have hcreate : Mirrors text nh (r.createService kind created (hostInfo text e bufferSize)).1 :=
    createService_mirrors h (fun id hid => Or.inr ⟨he, hkind, hid⟩) created
  unfold Host.Registry.setupServiceSubscriber
  dsimp only
  split
  · exact setTopicId_mirrors hcreate he hkind
  · exact hcreate

/-! ## The other handlers -/

theorem handleTime_mirrors (h : Mirrors text nh r) (time : List UInt8) :
    Mirrors text nh (r.handleTime time) :=
  h.writeMessage (fun frame hframe => Or.inl (by rw [hframe]; decide)) .io time

theorem requestTopics_mirrors (h : Mirrors text nh r) : Mirrors text nh r.requestTopics :=
  h.writeMessage (fun frame hframe => Or.inl (by rw [hframe]; decide)) .io []

theorem handleClient_mirrors (h : Mirrors text nh r) (answer : Option (List UInt8)) (srv : Nat) :
    Mirrors text nh (r.handleClient answer srv) := by
  unfold Host.Registry.handleClient
  cases hclient : r.clients[srv]? with
  | none => exact h
  | some client =>
    have hknown : Known text nh .client client.service_name client.topic_id :=
      h.known .client srv _ _ (by simp [serviceInfo, hclient])
    dsimp only [Option.bind_some, Host.ServiceClient.handle]
    split
    · exact h
    · rename_i response id hsome
      have hid : id = client.topic_id := by
        split at hsome
        · cases hsome
        · obtain ⟨_, _, heq⟩ := Option.map_eq_some_iff.mp hsome
          exact (Prod.mk.inj heq).2.symm
      subst hid
      exact h.writeMessage (fun frame hframe => hknown.addressed hframe) .io response

theorem handleResponse_mirrors (h : Mirrors text nh r) (stream : List UInt8) (srv : Nat) :
    Mirrors text nh (r.handleResponse stream srv) := by
  have hsame : ∀ server : Host.ServiceServer,
      ((server.responseHandle stream).service_name, (server.responseHandle stream).topic_id) =
        (server.service_name, server.topic_id) := by
    intro server
    unfold Host.ServiceServer.responseHandle
    dsimp only
    split
    · rfl
    · split <;> rfl
  refine h.of_written rfl (funext fun kind => by cases kind <;> rfl)
    (funext fun kind => funext fun i => ?_) rfl fun w hw => Or.inl hw
  cases kind with
  | client => rfl
  | server =>
    refine (getElem?_modify_map _ _ r.servers srv i).trans ?_
    simp only [hsame, ite_self]
    rfl

theorem startRequest_mirrors (h : Mirrors text nh r) (srv : Nat) (request : List UInt8) :
    Mirrors text nh (r.startRequest srv request) := by
  unfold Host.Registry.startRequest
  cases hserver : r.servers[srv]? with
  | none => exact h
  | some server =>
    have hknown : Known text nh .server server.service_name server.topic_id :=
      h.known .server srv _ _ (by simp [serviceInfo, hserver])
    have hset : Mirrors text nh
        { r with servers := r.servers.set srv { server with get_response := false } } := by
      refine h.of_written rfl (funext fun kind => by cases kind <;> rfl)
        (funext fun kind => funext fun i => ?_) rfl fun w hw => Or.inl hw
      cases kind with
      | client => rfl
      | server =>
        simp only [serviceInfo, List.getElem?_set]
        split
        · rename_i heq
          subst heq
          have hlt := (List.getElem?_eq_some_iff.mp hserver).1
          rw [if_pos hlt, hserver]
          rfl
        · rfl
    dsimp only
    split
    · exact hset.writeMessage (fun frame hframe => hknown.addressed hframe) .ros request
    · exact h.of_written rfl (funext fun kind => by cases kind <;> rfl)
        (funext fun kind => by cases kind <;> rfl) rfl fun w hw => Or.inl hw

theorem rosRequest_mirrors (h : Mirrors text nh r) (service_type : String)
    (request : List UInt8) : Mirrors text nh (r.rosRequest service_type request) := by
  unfold Host.Registry.rosRequest
  split
  · exact startRequest_mirrors h _ request
  · exact h

theorem rosMessage_mirrors (h : Mirrors text nh r) (id : UInt16) (message : List UInt8) :
    Mirrors text nh (r.rosMessage id message) := by
  unfold Host.Registry.rosMessage
  cases hsub : r.subscribers.lookup id with
  | none => exact h
  | some sub =>
    obtain ⟨e, ⟨⟨j, hj⟩, -, hid⟩, rfl⟩ := h.subscribers id sub hsub
    exact h.writeMessage (fun frame hframe => Or.inr ⟨j, e, hj, hframe.trans hid⟩) .ros message

/-! ## Stops and starts -/

theorem stop_mirrors (h : Mirrors text nh r) : Mirrors text nh r.stop := by
  unfold Host.Registry.stop
  split
  · have hcleared : Mirrors text nh
        { r with
          active := false, callbacks := ∅, subscribers := ∅, service_clients := ∅
          service_servers := ∅, announced := ∅ } := by
      refine h.update ?_ ?_ ?_ ?_ ?_ fun w hw => Or.inl hw
      · intro kind srv name id hinfo
        exact ⟨id, by cases kind <;> exact hinfo⟩
      · intro id handler hlookup
        cases hlookup
      · intro kind name srv hlookup
        cases kind <;> cases hlookup
      · intro kind srv name id hinfo
        exact Or.inl (by cases kind <;> exact hinfo)
      · intro id sub hlookup
        cases hlookup
    exact hcleared.writeMessage (fun frame hframe => Or.inl (by rw [hframe]; decide)) .io [0]
  · exact h

/-- The entries that `start` makes are those of the protocol. -/
theorem start_lookup {id : UInt16} {handler : Handler}
    (h : r.start.callbacks.lookup id = some handler) :
    (id.toNat, handler) ∈ Host.Registry.setupHandlers ∨ r.callbacks.lookup id = some handler := by
  have hfold : ∀ (entries : List (Nat × Handler)) (callbacks : AList fun _ : UInt16 => Handler),
      (∀ entry ∈ entries, entry.1 < 65536) →
      (entries.foldl (fun callbacks entry => callbacks.insert (UInt16.ofNat entry.1) entry.2)
        callbacks).lookup id = some handler →
      (id.toNat, handler) ∈ entries ∨ callbacks.lookup id = some handler := by
    intro entries
    induction entries with
    | nil => exact fun _ _ h => Or.inr h
    | cons entry entries ih =>
      intro callbacks hsmall h
      obtain ⟨hfirst, hrest⟩ := List.forall_mem_cons.mp hsmall
      rcases ih _ hrest h with hmem | hlookup
      · exact Or.inl (List.mem_cons_of_mem _ hmem)
      · rcases lookup_insert_cases hlookup with ⟨rfl, rfl⟩ | hold
        · rw [UInt16.toNat_ofNat_of_lt' hfirst]
          exact Or.inl List.mem_cons_self
        · exact Or.inr hold
  exact hfold _ _ (by decide) h

theorem start_mirrors (h : Mirrors text nh r) : Mirrors text nh r.start := by
  refine requestTopics_mirrors (h.update ?_ ?_ ?_ ?_ ?_ fun w hw => Or.inl hw)
  · intro kind srv name id hinfo
    exact ⟨id, by cases kind <;> exact hinfo⟩
  · intro id handler hlookup
    rcases start_lookup hlookup with hmem | hold
    · exact Or.inr (.builtin hmem)
    · exact Or.inl hold
  · intro kind name srv hlookup
    exact Or.inl (by cases kind <;> exact hlookup)
  · intro kind srv name id hinfo
    exact Or.inl (by cases kind <;> exact hinfo)
  · intro id sub hlookup
    exact Or.inl hlookup

/-! ## A frame of the node -/

/-- The ids of the slots are topic ids of 16 bits. -/
def IdsFit (cfg : NodeConfig) : Prop := 100 + cfg.MAX_SUBSCRIBERS + cfg.MAX_PUBLISHERS ≤ 65536

instance (cfg : NodeConfig) : Decidable (IdsFit cfg) := inferInstanceAs (Decidable (_ ≤ _))

variable {cfg : NodeConfig}

/-- The topic field of a publisher is its id, which is that of its slot. -/
theorem topicField_publisher (hids : IdsFit cfg) (henrolled : Enrolled cfg nh) {i : Nat}
    (he : Slots.Holds nh.publishers i e) :
    topicField e.id = 100 + cfg.MAX_SUBSCRIBERS + i ∧ i < cfg.MAX_PUBLISHERS := by
  have hnumber := henrolled.publishers.numbered i e he
  have hlt := (List.getElem?_eq_some_iff.mp he).1
  rw [henrolled.initialised.publishers] at hlt
  unfold IdsFit at hids
  refine ⟨?_, hlt⟩
  rw [topicField, hnumber]
  omega

theorem topicField_subscriber (hids : IdsFit cfg) (henrolled : Enrolled cfg nh) {j : Nat}
    (he : Slots.Holds nh.subscribers j e) :
    topicField e.id = 100 + j ∧ j < cfg.MAX_SUBSCRIBERS := by
  have hnumber := henrolled.subscribers.numbered j e he
  have hlt := (List.getElem?_eq_some_iff.mp he).1
  rw [henrolled.initialised.subscribers] at hlt
  unfold IdsFit at hids
  refine ⟨?_, hlt⟩
  rw [topicField, hnumber]
  omega

/-- An endpoint has an id behind those of the protocol. -/
theorem Entry.builtin_of_lt (hids : IdsFit cfg) (henrolled : Enrolled cfg nh) {id : UInt16}
    {handler : Handler} (h : Entry text nh r id handler) (hlt : id.toNat < 100) :
    (id.toNat, handler) ∈ Host.Registry.setupHandlers := by
  cases h with
  | builtin hmem => exact hmem
  | publisher he =>
    obtain ⟨⟨i, hi⟩, -, hid⟩ := he
    have hfield := (topicField_publisher hids henrolled hi).1
    omega
  | service he hinfo =>
    rcases he with ⟨⟨i, hi⟩, -, hid⟩ | ⟨⟨j, hj⟩, -, hid⟩
    · have hfield := (topicField_publisher hids henrolled hi).1
      omega
    · have hfield := (topicField_subscriber hids henrolled hj).1
      omega

/-- The same for the topic field of a frame. -/
theorem Entry.builtin_ofNat (hids : IdsFit cfg) (henrolled : Enrolled cfg nh) {topic : Nat}
    {handler : Handler} (h : Entry text nh r (UInt16.ofNat topic) handler) (hlt : topic < 100) :
    (topic, handler) ∈ Host.Registry.setupHandlers := by
  have hid : (UInt16.ofNat topic).toNat = topic :=
    UInt16.toNat_ofNat_of_lt' (Nat.lt_trans hlt (by decide))
  have hmem := h.builtin_of_lt hids henrolled (by omega)
  rwa [hid] at hmem

/-- The handlers of the protocol have ids below those of the endpoints. -/
theorem Entry.endpoint_of_le {id : UInt16} {handler : Handler} (h : Entry text nh r id handler)
    (hle : 100 ≤ id.toNat) :
    handler = .publisher ∨ ∃ kind srv, handler = Host.Registry.serviceHandler kind srv := by
  cases h with
  | builtin hmem =>
    have hsmall : ∀ entry ∈ Host.Registry.setupHandlers, entry.1 < 100 := by decide
    have hlt := hsmall _ hmem
    omega
  | publisher he => exact Or.inl rfl
  | service he hinfo => exact Or.inr ⟨_, _, rfl⟩

/-- A setup id has one handler. -/
theorem setupHandlers_unique {topic : Nat} {handler handler' : Handler}
    (h : (topic, handler) ∈ Host.Registry.setupHandlers)
    (h' : (topic, handler') ∈ Host.Registry.setupHandlers) : handler = handler' := by
  have hunique : ∀ a ∈ Host.Registry.setupHandlers, ∀ b ∈ Host.Registry.setupHandlers,
      a.1 = b.1 → a.2 = b.2 := by decide
  exact hunique _ h _ h' rfl

/-- A publisher is announced under the setup id of its kind, and the handler of the id does
what is right for the kind. -/
theorem announcedPublisher_mirrors {deserialize : List UInt8 → Option Host.TopicInfo}
    (h : Mirrors text nh r) {payload : List UInt8}
    (hinfo : deserialize payload = some (hostInfo text e bufferSize))
    (he : ∃ i, Slots.Holds nh.publishers i e) (hkind : e.endpoint ∈ publisherKinds)
    {handler : Handler}
    (hmem : (topicField e.endpoint, handler) ∈ Host.Registry.setupHandlers) (outside : Outside) :
    Mirrors text nh (r.call deserialize handler payload outside) := by
  have hservice : ∀ kind : ServiceKind, e.endpoint = publisherKind kind →
      Mirrors text nh (r.createService kind outside.created (hostInfo text e bufferSize)).1 :=
    fun kind hkind => createService_mirrors h (fun id hid => Or.inl ⟨he, hkind, hid⟩) _
  simp only [publisherKinds, List.mem_cons, List.not_mem_nil, or_false] at hkind
  rcases hkind with hkind | hkind | hkind
  · rw [hkind] at hmem
    obtain rfl : handler = .setupPublisher := setupHandlers_unique hmem (by decide)
    simp only [Host.Registry.call, hinfo, Host.Registry.setup]
    exact setupPublisher_mirrors h he hkind _
  · rw [hkind] at hmem
    obtain rfl : handler = .setupServiceServerPublisher := setupHandlers_unique hmem (by decide)
    simp only [Host.Registry.call, hinfo, Host.Registry.setup]
    exact hservice .server hkind
  · rw [hkind] at hmem
    obtain rfl : handler = .setupServiceClientPublisher := setupHandlers_unique hmem (by decide)
    simp only [Host.Registry.call, hinfo, Host.Registry.setup]
    exact hservice .client hkind

/-- The same for a subscriber. -/
theorem announcedSubscriber_mirrors {deserialize : List UInt8 → Option Host.TopicInfo}
    (h : Mirrors text nh r) {payload : List UInt8}
    (hinfo : deserialize payload = some (hostInfo text e bufferSize))
    (he : ∃ j, Slots.Holds nh.subscribers j e) (hkind : e.endpoint ∈ subscriberKinds)
    {handler : Handler}
    (hmem : (topicField e.endpoint, handler) ∈ Host.Registry.setupHandlers) (outside : Outside) :
    Mirrors text nh (r.call deserialize handler payload outside) := by
  simp only [subscriberKinds, List.mem_cons, List.not_mem_nil, or_false] at hkind
  rcases hkind with hkind | hkind | hkind
  · rw [hkind] at hmem
    obtain rfl : handler = .setupSubscriber := setupHandlers_unique hmem (by decide)
    simp only [Host.Registry.call, hinfo, Host.Registry.setup]
    exact setupSubscriber_mirrors h he hkind _
  · rw [hkind] at hmem
    obtain rfl : handler = .setupServiceServerSubscriber := setupHandlers_unique hmem (by decide)
    simp only [Host.Registry.call, hinfo, Host.Registry.setup]
    exact setupServiceSubscriber_mirrors h .server he hkind _
  · rw [hkind] at hmem
    obtain rfl : handler = .setupServiceClientSubscriber := setupHandlers_unique hmem (by decide)
    simp only [Host.Registry.call, hinfo, Host.Registry.setup]
    exact setupServiceSubscriber_mirrors h .client he hkind _

/-- The setup id of an endpoint is below 100. -/
theorem topicField_endpoint_lt
    (hkind : e.endpoint ∈ publisherKinds ∨ e.endpoint ∈ subscriberKinds) :
    topicField e.endpoint < 100 := by
  have hpub : ∀ k ∈ publisherKinds, topicField k < 100 := by decide
  have hsub : ∀ k ∈ subscriberKinds, topicField k < 100 := by decide
  exact hkind.elim (hpub _) (hsub _)

/-- A frame of the node's own, at a session that mirrors it. -/
theorem message_mirrors {deserialize : List UInt8 → Option Host.TopicInfo}
    (hdeserializes : Deserializes text deserialize) (hids : IdsFit cfg)
    (henrolled : Enrolled cfg nh) (h : Mirrors text nh r) {frame : Nat × List UInt8}
    (hown : Own cfg nh frame) {handler : Handler}
    (hentry : r.callbacks.lookup (UInt16.ofNat frame.1) = some handler) (outside : Outside) :
    Mirrors text nh (r.call deserialize handler frame.2 outside) := by
  have hentry' := h.entries _ handler hentry
  cases hown with
  | report payload =>
    have hsmall : topicField Device.TopicInfo.ID_LOG < 100 := by decide
    have hmem : (topicField Device.TopicInfo.ID_LOG, handler) ∈ Host.Registry.setupHandlers :=
      hentry'.builtin_ofNat hids henrolled hsmall
    obtain rfl : handler = .handleLog := setupHandlers_unique hmem (by decide)
    exact h
  | time payload =>
    have hsmall : topicField Device.TopicInfo.ID_TIME < 100 := by decide
    have hmem : (topicField Device.TopicInfo.ID_TIME, handler) ∈ Host.Registry.setupHandlers :=
      hentry'.builtin_ofNat hids henrolled hsmall
    obtain rfl : handler = .handleTime := setupHandlers_unique hmem (by decide)
    exact handleTime_mirrors h outside.time
  | publisher he hinfo =>
    have hkind := henrolled.publishers.kind _ _ he
    have hmem := hentry'.builtin_ofNat hids henrolled (topicField_endpoint_lt (Or.inl hkind))
    exact announcedPublisher_mirrors h (hdeserializes _ _ _ hinfo) ⟨_, he⟩ hkind hmem outside
  | subscriber he hinfo =>
    have hkind := henrolled.subscribers.kind _ _ he
    have hmem := hentry'.builtin_ofNat hids henrolled (topicField_endpoint_lt (Or.inr hkind))
    exact announcedSubscriber_mirrors h (hdeserializes _ _ _ hinfo) ⟨_, he⟩ hkind hmem outside
  | @message i e he payload =>
    have hfield := (topicField_publisher hids henrolled he).1
    have hid := toNat_topicField e.id
    have hle : 100 ≤ (UInt16.ofNat (topicField e.id)).toNat := by omega
    rcases hentry'.endpoint_of_le hle with rfl | ⟨kind, srv, rfl⟩
    · exact h
    · cases kind with
      | client => exact handleClient_mirrors h outside.answer srv
      | server => exact handleResponse_mirrors h payload srv

end Rules

end Ros2Serial.Link
