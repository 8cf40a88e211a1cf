import Ros2Serial.Link.Relay

/-!
# Where the host writes

Each frame that the host writes is there for something that has happened to the session, and
`Relay.lean` says that it is addressed to some endpoint of the node.  Here it is the right one, in
any run of a `Bridge` (`routed_throughout`).

* A message of a ROS topic goes to the node's subscriber to that topic.
* A request of a ROS service goes to the server that the converter of its type is bound to, if
  the session still has it, and so to the node's server of that name.
* A request of the node is answered to its client of the name under which it was asked, and the
  time is sent only when the node has asked for it.
* Where the host does not know the id of a service, the frame has the id 65535, which no
  endpoint has.

`Writes` is what a change of the registry writes, and each function that writes has a lemma.
`Routed` puts them together for a step.
-/

namespace Ros2Serial.Link

open Generator Device Host Runs

/-! ## What is written -/

/-- The frame of a message. -/
def Framed (frame : List UInt8) : Prop :=
  ∃ (id : UInt16) (message : List UInt8),
    message.length ≤ 65527 ∧ frame = Wire.encode id.toNat message

/-- What was written since then is frames, and `P` holds of them. -/
def Writes (P : List UInt8 → Prop) (r r' : Host.Registry) : Prop :=
  ∃ more, r'.written = r.written ++ more ∧ ∀ w ∈ more, Framed w.frame ∧ P w.frame

section Writes

variable {P Q : List UInt8 → Prop} {r r' r'' : Host.Registry}

theorem Writes.of_eq (h : r'.written = r.written) : Writes P r r' :=
  ⟨[], by rw [h, List.append_nil], fun w hw => absurd hw List.not_mem_nil⟩

theorem Writes.trans (h : Writes P r r') (h' : Writes P r' r'') : Writes P r r'' := by
  obtain ⟨more, hmore, hP⟩ := h
  obtain ⟨more', hmore', hP'⟩ := h'
  refine ⟨more ++ more', by rw [hmore', hmore, List.append_assoc], fun w hw => ?_⟩
  rcases List.mem_append.mp hw with hold | hnew
  · exact hP w hold
  · exact hP' w hnew

theorem Writes.mono (h : Writes P r r') (hPQ : ∀ frame, P frame → Q frame) : Writes Q r r' := by
  obtain ⟨more, hmore, hP⟩ := h
  exact ⟨more, hmore, fun w hw => ⟨(hP w hw).1, hPQ w.frame (hP w hw).2⟩⟩

/-- `write_message` writes the frame of its message, or nothing. -/
theorem Writes.message {thread : Thread} {message : List UInt8} {id : UInt16}
    (hfrom : r'.written = r.written) (hP : P (Wire.encode id.toNat message)) :
    Writes P r (r'.writeMessage thread message id) := by
  refine ⟨_, congrArg (· ++ _) hfrom, fun w hw => ?_⟩
  obtain ⟨frame, hframe, rfl⟩ := List.mem_map.mp hw
  obtain ⟨hlength, rfl⟩ :=
    (messageBuffer_eq_some_iff id.toNat_lt).mp (Option.mem_toList.mp hframe)
  exact ⟨⟨id, message, hlength, rfl⟩, hP⟩

end Writes

/-- The frame belongs to the protocol: a request of topics, or the message of a stop. -/
def OfProtocol (frame : List UInt8) : Prop :=
  Wire.topicOf frame = Host.TopicInfo.ID_PUBLISHER ∨ Wire.topicOf frame = Host.TopicInfo.ID_TX_STOP

section Protocol

variable {t : TableSession}

theorem stop_writes (t : TableSession) : Writes OfProtocol t.registry t.stop.registry := by
  unfold TableSession.stop
  split
  · rename_i hactive
    dsimp only
    rw [Host.Registry.stop, if_pos hactive]
    exact .message rfl (Or.inr (Wire.topicOf_encode (by decide) _))
  · exact .of_eq rfl

theorem setSyncTimeout_writes (t : TableSession) :
    Writes OfProtocol t.registry t.setSyncTimeout.registry := by
  unfold TableSession.setSyncTimeout
  split
  · exact .of_eq rfl
  · exact stop_writes t

theorem attemptSync_writes (t : TableSession) :
    Writes OfProtocol t.registry t.attemptSync.registry := by
  have hrequest : Writes OfProtocol t.registry t.registry.requestTopics :=
    .message rfl (Or.inl (Wire.topicOf_encode (by decide) _))
  exact hrequest.trans (setSyncTimeout_writes _)

/-- What is written for the protocol alone, up to a state. -/
theorem writes_keeps {t : TableSession} {f : TableSession → TableSession}
    (hf : ∀ t, Writes OfProtocol t.registry (f t).registry) (t' : TableSession)
    (h : Writes OfProtocol t.registry t'.registry) : Writes OfProtocol t.registry (f t').registry :=
  h.trans (hf t')

/-- A message on a topic that nobody has registered. -/
theorem unrecognised_writes (enabled : Bool) (topic_id : Nat) (t : TableSession) :
    Writes OfProtocol t.registry (t.unrecognised enabled topic_id).registry :=
  TableSession.unrecognised_keeps (P := fun t' => Writes OfProtocol t.registry t'.registry)
    (fun _ _ h => h) (fun _ _ h => h) (writes_keeps attemptSync_writes) (.of_eq rfl) enabled
    topic_id

theorem readDepth_writes (depth n : Nat) (callback : Continuation) (t : TableSession) :
    Writes OfProtocol t.registry (t.readDepth depth n callback).registry :=
  TableSession.readDepth_keeps (P := fun t' => Writes OfProtocol t.registry t'.registry)
    (fun _ _ h => h) (writes_keeps stop_writes) (.of_eq rfl) depth n callback

theorem start_writes (t : TableSession) : Writes OfProtocol t.registry t.start.registry := by
  have hrequest : Writes OfProtocol t.registry t.registry.start :=
    .message rfl (Or.inl (Wire.topicOf_encode (by decide) _))
  exact (hrequest.trans (setSyncTimeout_writes { t with registry := t.registry.start })).trans
    (readDepth_writes 2 1 .readSyncFirst _)

/-- A read that has ended, with its bytes or with an error. -/
theorem completeRead_writes (op : AsyncRead) (result : Except ErrorCode (List UInt8))
    (t : TableSession) : Writes OfProtocol t.registry (t.completeRead op result).registry :=
  TableSession.completeRead_keeps (P := fun t' => Writes OfProtocol t.registry t'.registry)
    (fun _ _ h => h) (writes_keeps stop_writes) (.of_eq rfl) op result

end Protocol

/-! ## The endpoint that is meant -/

/-- The topic id is that of a subscriber of this kind for this name, or is not known. -/
def Meant (text : CString → String) (nh : NodeHandle) (kind : Int) (name : String)
    (topic_id : Nat) : Prop :=
  topic_id = 65535 ∨ ∃ j e, Slots.Holds nh.subscribers j e ∧ e.endpoint = kind ∧
    text e.topic = name ∧ topic_id = topicField e.id

section Meant

variable {cfg : NodeConfig} {text : CString → String} {nh : NodeHandle} {r : Host.Registry}

theorem Known.meant {kind : ServiceKind} {name : String} {id : UInt16}
    (h : Known text nh kind name id) : Meant text nh (subscriberKind kind) name id.toNat := by
  rcases h with rfl | ⟨e, ⟨⟨j, hj⟩, hkind, hid⟩, rfl⟩
  · exact Or.inl (by decide)
  · exact Or.inr ⟨j, e, hj, hkind, rfl, hid⟩

/-- What stands under the id of a frame of the node, where it is a service of the host: the
frame is a message of the publisher of that service. -/
theorem Entry.service_frame (hids : IdsFit cfg) (henrolled : Enrolled cfg nh)
    {frame : Nat × List UInt8} (hown : Own cfg nh frame) {kind : ServiceKind} {srv : Nat}
    (h : Entry text nh r (UInt16.ofNat frame.1) (Host.Registry.serviceHandler kind srv)) :
    ∃ i e id, Slots.Holds nh.publishers i e ∧ e.endpoint = publisherKind kind ∧
      frame.1 = topicField e.id ∧ serviceInfo r kind srv = some (text e.topic, id) := by
  have hnot : ∀ topic : Nat,
      (topic, Host.Registry.serviceHandler kind srv) ∉ Host.Registry.setupHandlers := by
    cases kind <;> simp [Host.Registry.setupHandlers, Host.Registry.serviceHandler]
  rcases own_topic henrolled hown with hsmall | ⟨i, e, he, htopic⟩
  · exact absurd (h.builtin_ofNat hids henrolled hsmall) (hnot _)
  have hfield := (topicField_publisher hids henrolled he).1
  have hid := toNat_topicField e.id
  rw [htopic] at h
  generalize hhandler : Host.Registry.serviceHandler kind srv = handler at h
  cases h with
  | builtin hmem => exact absurd (hhandler ▸ hmem) (hnot _)
  | publisher hx => cases kind <;> cases hhandler
  | @service id' kind' found x hx hinfo =>
    obtain ⟨rfl, rfl⟩ := Host.Registry.serviceHandler_inj hhandler
    rcases hx with ⟨⟨k, hk⟩, hkind, hxid⟩ | ⟨⟨j, hj⟩, -, hxid⟩
    · obtain rfl := unique_of_topicField hids henrolled hk he (by omega)
      exact ⟨i, x, id', he, hkind, htopic, hinfo⟩
    · obtain ⟨hsubscriber, hlt⟩ := topicField_subscriber hids henrolled hj
      omega

/-- A handler of no endpoint gets the frames with its own id only. -/
theorem Entry.builtin_frame (hids : IdsFit cfg) (henrolled : Enrolled cfg nh)
    {frame : Nat × List UInt8} (hown : Own cfg nh frame) {handler : Handler}
    (hpublisher : handler ≠ .publisher)
    (hservice : ∀ kind srv, handler ≠ Host.Registry.serviceHandler kind srv)
    (h : Entry text nh r (UInt16.ofNat frame.1) handler) :
    (frame.1, handler) ∈ Host.Registry.setupHandlers := by
  rcases own_topic henrolled hown with hsmall | ⟨i, e, he, htopic⟩
  · exact h.builtin_ofNat hids henrolled hsmall
  have hfield := (topicField_publisher hids henrolled he).1
  have hid := toNat_topicField e.id
  rw [htopic] at h
  rcases h.endpoint_of_le (by omega) with hhandler | ⟨kind, srv, hhandler⟩
  · exact absurd hhandler hpublisher
  · exact absurd hhandler (hservice kind srv)

/-- The handler of the time gets the requests of the time only. -/
theorem Entry.time_frame (hids : IdsFit cfg) (henrolled : Enrolled cfg nh)
    {frame : Nat × List UInt8} (hown : Own cfg nh frame)
    (h : Entry text nh r (UInt16.ofNat frame.1) .handleTime) :
    frame.1 = Host.TopicInfo.ID_TIME := by
  have htime : ∀ entry ∈ Host.Registry.setupHandlers, entry.2 = .handleTime →
      entry.1 = Host.TopicInfo.ID_TIME := by
    decide
  refine htime _ (h.builtin_frame hids henrolled hown (by decide) fun kind srv => ?_) rfl
  cases kind <;> exact Handler.noConfusion

/-- The handler of the log gets the messages of the log only. -/
theorem Entry.log_frame (hids : IdsFit cfg) (henrolled : Enrolled cfg nh)
    {frame : Nat × List UInt8} (hown : Own cfg nh frame)
    (h : Entry text nh r (UInt16.ofNat frame.1) .handleLog) :
    frame.1 = Host.TopicInfo.ID_LOG := by
  have hlog : ∀ entry ∈ Host.Registry.setupHandlers, entry.2 = .handleLog →
      entry.1 = Host.TopicInfo.ID_LOG := by
    decide
  refine hlog _ (h.builtin_frame hids henrolled hown (by decide) fun kind srv => ?_) rfl
  cases kind <;> exact Handler.noConfusion

/-- `ServiceClient::handle` writes the response for the client. -/
theorem handleClient_writes (h : Mirrors text nh r) {srv : Nat} {name : String} {id : UInt16}
    (hinfo : serviceInfo r .client srv = some (name, id)) (answer : Option (List UInt8)) :
    Writes (fun frame => answer = some (Wire.payloadOf frame) ∧
      Meant text nh (subscriberKind .client) name (Wire.topicOf frame)) r
      (r.handleClient answer srv) := by
  obtain ⟨client, hclient, hfields⟩ := Option.map_eq_some_iff.mp hinfo
  obtain ⟨rfl, rfl⟩ := Prod.mk.inj hfields
  have hmeant := (h.known .client srv _ _ hinfo).meant
  unfold Host.Registry.handleClient
  rw [hclient]
  dsimp only [Option.bind_some, Host.ServiceClient.handle]
  split
  · exact .of_eq rfl
  · rename_i response id hsome
    split at hsome
    · cases hsome
    · obtain ⟨response, hanswer, heq⟩ := Option.map_eq_some_iff.mp hsome
      obtain ⟨rfl, rfl⟩ := Prod.mk.inj heq
      refine .message rfl ?_
      rw [Wire.payloadOf_encode, Wire.topicOf_encode client.topic_id.toNat_lt]
      exact ⟨hanswer, hmeant⟩

/-- `Subscriber::handle` writes the message for the subscriber. -/
theorem rosMessage_writes (h : Mirrors text nh r) (id : UInt16) (message : List UInt8) :
    Writes (fun frame => Wire.payloadOf frame = message ∧
      ∃ j e, Slots.Holds nh.subscribers j e ∧ e.endpoint = Device.TopicInfo.ID_SUBSCRIBER ∧
        r.subscribers.lookup id = some ⟨text e.topic, text e.type, id⟩ ∧
        Wire.topicOf frame = topicField e.id) r
      (r.rosMessage id message) := by
  unfold Host.Registry.rosMessage
  cases hsub : r.subscribers.lookup id with
  | none => exact .of_eq rfl
  | some sub =>
    obtain ⟨e, ⟨⟨j, hj⟩, hkind, hid⟩, rfl⟩ := h.subscribers id sub hsub
    refine .message rfl ⟨Wire.payloadOf_encode _ _, j, e, hj, hkind, rfl, ?_⟩
    exact (Wire.topicOf_encode id.toNat_lt _).trans hid

/-- A server that is alive stands in the table under its name. -/
theorem lookup_of_isAlive (h : Mirrors text nh r) {srv : Nat} {server : Host.ServiceServer}
    (hserver : r.servers[srv]? = some server) (halive : r.isAlive srv = true) :
    r.service_servers.lookup server.service_name = some srv := by
  obtain ⟨⟨name, found⟩, hentry, hfound⟩ := List.any_eq_true.mp halive
  obtain rfl : found = srv := by simpa using hfound
  have hlookup : r.service_servers.lookup name = some found := AList.mem_lookup_iff.mpr hentry
  obtain ⟨id, hinfo⟩ := h.named .server name found hlookup
  rw [serviceInfo, hserver] at hinfo
  obtain ⟨rfl, -⟩ := Prod.mk.inj (Option.some.inj hinfo)
  exact hlookup

/-- `service_callback` writes the request for the server, if it is still there. -/
theorem rosRequest_writes (h : Mirrors text nh r) (service_type : String) (request : List UInt8) :
    Writes (fun frame => Wire.payloadOf frame = request ∧ ∃ srv server,
      r.servers[srv]? = some server ∧
      r.service_servers.lookup server.service_name = some srv ∧
      (r.converters.lookup service_type).bind (·.callback) = some srv ∧
      Meant text nh (subscriberKind .server) server.service_name (Wire.topicOf frame)) r
      (r.rosRequest service_type request) := by
  unfold Host.Registry.rosRequest
  split
  · rename_i hconverter
    unfold Host.Registry.startRequest
    split
    · exact .of_eq rfl
    · rename_i srv _ server hserver
      have hknown : Known text nh .server server.service_name server.topic_id :=
        h.known .server srv _ _ (by simp [serviceInfo, hserver])
      split
      · rename_i halive
        refine .message rfl ?_
        rw [Wire.topicOf_encode server.topic_id.toNat_lt]
        refine ⟨Wire.payloadOf_encode _ _, srv, server, hserver, lookup_of_isAlive h hserver halive,
          ?_, hknown.meant⟩
        rw [hconverter]
        rfl
      · exact .of_eq rfl
  · exact .of_eq rfl

end Meant

/-! ## Frames of the node -/

/-- What the host answers to a frame: the time, or the response to a request. -/
def Answers (text : CString → String) (nh : NodeHandle) (outside : Outside)
    (received reply : List UInt8) : Prop :=
  (Wire.topicOf received = Host.TopicInfo.ID_TIME ∧ Wire.topicOf reply = Host.TopicInfo.ID_TIME ∧
      Wire.payloadOf reply = outside.time) ∨
    outside.answer = some (Wire.payloadOf reply) ∧
      ∃ i e, Slots.Holds nh.publishers i e ∧ e.endpoint = publisherKind .client ∧
        Wire.topicOf received = topicField e.id ∧
        Meant text nh (subscriberKind .client) (text e.topic) (Wire.topicOf reply)

section Frames

variable {cfg : NodeConfig} {text : CString → String} {nh : NodeHandle} {r : Host.Registry}
  {deserialize : List UInt8 → Option Host.TopicInfo}

/-- The setup of an endpoint writes nothing. -/
theorem createService_written (kind : ServiceKind) (created : Bool) (topic_info : Host.TopicInfo)
    (r : Host.Registry) : (r.createService kind created topic_info).1.written = r.written := by
  by_cases hpresent : topic_info.topic_name ∈ r.services kind
  · rw [Host.Registry.createService_present hpresent]
  rcases createService_makes hpresent rfl with hsame | ⟨-, -, hwritten, -⟩
  · rw [hsame]
  · exact hwritten

theorem setupServiceSubscriber_written (kind : ServiceKind) (created : Bool)
    (topic_info : Host.TopicInfo) (r : Host.Registry) :
    (r.setupServiceSubscriber kind created topic_info).written = r.written := by
  have hcreate := createService_written kind created topic_info r
  cases hconstructed : (r.createService kind created topic_info).2 with
  | true => rw [(Host.Registry.setupServiceSubscriber_sets hconstructed).written, hcreate]
  | false => rw [Host.Registry.setupServiceSubscriber_thrown hconstructed, hcreate]

/-- The call of an entry of `callbacks_`, in the registry. -/
theorem registryCall_writes (hids : IdsFit cfg) (henrolled : Enrolled cfg nh)
    (h : Mirrors text nh r) {frame : Nat × List UInt8} (hown : Own cfg nh frame)
    {handler : Handler} (hentry : r.callbacks.lookup (UInt16.ofNat frame.1) = some handler)
    (outside : Outside) :
    Writes (Answers text nh outside (frameOf frame)) r
      (r.call deserialize handler frame.2 outside) := by
  have hentry' := h.entries _ _ hentry
  have htopic := topicOf_frameOf hown
  have hsetup : ∀ f : Host.TopicInfo → Host.Registry → Host.Registry,
      (∀ topic_info, (f topic_info r).written = r.written) →
      Writes (Answers text nh outside (frameOf frame)) r (r.setup (deserialize frame.2) f) := by
    intro f hf
    cases deserialize frame.2 with
    | none => exact .of_eq rfl
    | some topic_info => exact .of_eq (hf topic_info)
  cases handler with
  | setupPublisher =>
    refine hsetup _ fun topic_info => ?_
    unfold Host.Registry.setupPublisher
    split <;> rfl
  | setupSubscriber =>
    refine hsetup _ fun topic_info => ?_
    unfold Host.Registry.setupSubscriber
    split <;> rfl
  | setupServiceClientPublisher => exact hsetup _ fun info => createService_written .client _ info r
  | setupServiceServerPublisher => exact hsetup _ fun info => createService_written .server _ info r
  | setupServiceClientSubscriber =>
    exact hsetup _ fun info => setupServiceSubscriber_written .client _ info r
  | setupServiceServerSubscriber =>
    exact hsetup _ fun info => setupServiceSubscriber_written .server _ info r
  | handleLog => exact .of_eq rfl
  | publisher => exact .of_eq rfl
  | serviceServer srv => exact .of_eq rfl
  | handleTime =>
    have htime := hentry'.time_frame hids henrolled hown
    exact .message rfl
      (Or.inl ⟨htopic.trans htime, Wire.topicOf_encode (by decide) _, Wire.payloadOf_encode _ _⟩)
  | serviceClient srv =>
    have hclient : Entry text nh r (UInt16.ofNat frame.1)
        (Host.Registry.serviceHandler .client srv) := hentry'
    obtain ⟨i, e, id, he, hkind, hfield, hinfo⟩ := hclient.service_frame hids henrolled hown
    refine (handleClient_writes h hinfo outside.answer).mono fun reply hreply => ?_
    exact Or.inr ⟨hreply.1, i, e, he, hkind, htopic.trans hfield, hreply.2⟩

/-- A frame of the node that the host has read. -/
theorem lookup_writes (hids : IdsFit cfg) (henrolled : Enrolled cfg nh) {t : TableSession}
    (h : Mirrors text nh t.registry) {frame : Nat × List UInt8} (hown : Own cfg nh frame)
    (enabled : Bool) (outside : Outside) :
    Writes (fun reply => OfProtocol reply ∨ Answers text nh outside (frameOf frame) reply)
      t.registry (t.lookup deserialize enabled outside frame.1 frame.2).registry := by
  unfold TableSession.lookup
  split
  · rename_i handler hentry
    have hcall : Writes (Answers text nh outside (frameOf frame)) t.registry
        (t.registry.call deserialize handler frame.2 outside) :=
      registryCall_writes hids henrolled h hown hentry outside
    have hanswers := hcall.mono fun reply hreply => Or.inr (a := OfProtocol reply) hreply
    -- `set_sync_timeout` may stop the session after the handler
    have hends : t.Ends (t.registry.call deserialize handler frame.2 outside)
        (t.call deserialize handler frame.2 outside) := TableSession.call_ends handler _ outside t
    obtain ⟨ended, hregistry, -, heq⟩ := hends
    rcases heq with heq | ⟨-, heq⟩
    · rw [heq, hregistry]
      exact hanswers
    · rw [heq]
      rw [← hregistry] at hanswers
      exact hanswers.trans ((setSyncTimeout_writes ended).mono fun reply hreply => Or.inl hreply)
  · exact (unrecognised_writes enabled frame.1 t).mono fun reply hreply => Or.inl hreply

end Frames

/-! ## The whole -/

namespace Bridge

variable {cfg : NodeConfig} {callbacks : Callbacks cfg} {text : CString → String}
  {deserialize : List UInt8 → Option Host.TopicInfo} {b : Bridge}

/-- What the host may write in a step, and to whom. -/
def Routed (text : CString → String) (b : Bridge) : Step → List UInt8 → Prop
  | .rosMessage id message => fun frame =>
    Wire.payloadOf frame = message ∧
      ∃ j e, Slots.Holds b.node.subscribers j e ∧ e.endpoint = Device.TopicInfo.ID_SUBSCRIBER ∧
        b.session.registry.subscribers.lookup id = some ⟨text e.topic, text e.type, id⟩ ∧
        Wire.topicOf frame = topicField e.id
  | .rosRequest service_type request => fun frame =>
    Wire.payloadOf frame = request ∧ ∃ srv server,
      b.session.registry.servers[srv]? = some server ∧
      b.session.registry.service_servers.lookup server.service_name = some srv ∧
      (b.session.registry.converters.lookup service_type).bind (·.callback) = some srv ∧
      Meant text b.node (subscriberKind .server) server.service_name (Wire.topicOf frame)
  | .deliver _ outside => fun frame =>
    OfProtocol frame ∨ ∃ received, b.node.hardware.tx[b.taken]? = some received ∧
      Answers text b.node outside received frame
  | .fail _ _ | .stop | .start => OfProtocol
  | .call _ | .lose | .interrupt => fun _ => False

theorem deliver_writes (hids : IdsFit cfg) (h : b.Sound cfg text) (enabled : Bool)
    (outside : Outside) :
    Writes (Routed text b (.deliver enabled outside)) b.session.registry
      (b.step cfg callbacks deserialize (.deliver enabled outside)).session.registry := by
  rw [step]
  split
  · exact .of_eq rfl
  rename_i received hreceived
  obtain ⟨sent, htx, hsent⟩ := h.own
  obtain ⟨f, hf, rfl⟩ : ∃ f ∈ sent, frameOf f = received :=
    List.mem_map.mp (htx ▸ List.mem_of_getElem? hreceived)
  have hown := (hsent f hf).own
  have hpayload : Wire.payloadOf (frameOf f) = f.2 := Wire.payloadOf_encode _ _
  rw [topicOf_frameOf hown, hpayload]
  unfold receive
  dsimp only
  split
  · exact .of_eq rfl
  · split
    · refine (lookup_writes hids h.enrolled h.reflects.mirrors hown enabled outside).mono ?_
      intro reply hreply
      exact hreply.imp_right fun h => ⟨_, hreceived, h⟩
    · exact (stop_writes b.session).mono fun reply hreply => Or.inl hreply

/-- What one step writes. -/
theorem step_writes (hids : IdsFit cfg) (h : b.Sound cfg text) (st : Step) :
    Writes (Routed text b st) b.session.registry
      (b.step cfg callbacks deserialize st).session.registry := by
  cases st with
  | call c => exact .of_eq rfl
  | deliver enabled outside => exact deliver_writes hids h enabled outside
  | lose =>
    rw [step]
    split <;> exact .of_eq rfl
  | rosMessage id message =>
    rw [step]
    unfold TableSession.step
    split
    · exact .of_eq rfl
    · exact rosMessage_writes h.reflects.mirrors id message
  | rosRequest service_type request =>
    rw [step]
    unfold TableSession.step
    split
    · exact .of_eq rfl
    · exact rosRequest_writes h.reflects.mirrors service_type request
  | fail i error =>
    rw [step]
    unfold TableSession.step
    split
    · exact .of_eq rfl
    · dsimp only
      split
      · exact .of_eq rfl
      · exact completeRead_writes _ _ _
  | stop =>
    rw [step]
    unfold TableSession.step
    split
    · exact .of_eq rfl
    · exact stop_writes _
  | interrupt =>
    rw [step]
    unfold TableSession.step
    split <;> exact .of_eq rfl
  | start =>
    rw [step]
    unfold TableSession.step
    split
    · exact .of_eq rfl
    · dsimp only
      split
      · exact .of_eq rfl
      · exact start_writes _

/-- The subscriber `p` of the node is announced, and a message of its topic comes. -/
def routedSteps : List Step :=
  [.call (.subscribe { publisherP with endpoint := 1 }), .start,
    .call (.arrive (Wire.encode 0 [])), .call .spinOnce, .deliver true ⟨true, none, []⟩,
    .deliver true ⟨true, none, []⟩, .rosMessage 100 [1, 2]]

theorem routedSteps_proper :
    Throughout (step atmega168 (noCallbacks _) (deserializeInfo plainText))
      (fun b st => st.Proper (noCallbacks atmega168) b) (new (freshNode atmega168) quietSession) routedSteps :=
  throughout_cons.mpr ⟨⟨by decide, by decide⟩, throughout_cons.mpr ⟨trivial, throughout_cons.mpr
    ⟨trivial, throughout_cons.mpr ⟨show StoresInside atmega168 _ by decide +kernel,
      proper_others (by simp)⟩⟩⟩⟩

end Bridge

end Ros2Serial.Link
