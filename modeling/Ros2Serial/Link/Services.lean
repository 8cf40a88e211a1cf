import Ros2Serial.Device.ServiceServer
import Ros2Serial.Link.Conversation

/-!
# A service of a node

ROS calls a service that a node has, by the way of the session: the request becomes a frame for the
subscriber of the service, the server of the node is called and publishes a response, and the
frame of this is what `response_handle` gets.  There are no numbers on the way, and responses can be
lost.

* `Hosts` says that a topic id is that of the only server with a name.  The frames with the id are
  then the requests for the service (`requests_step`).
* `Attentive` is a step that loses no request on the way to the server, and in which the program
  publishes nothing in the name of the server.
* `Served` is the invariant, which has both directions of the line.

`services_answered` follows a request to the node and back.
-/

namespace Ros2Serial.Link.Conversation

open Bytes PlainCdr Generator Device Host Runs

/-! ## Requests -/

/-- The requests for a service that a frame can have. -/
def requestsOf (name : String) (asked : List (String × List UInt8)) : List (List UInt8) :=
  (asked.filter fun entry => entry.1 = name ∧ entry.2.length ≤ 65527).map (·.2)

/-- The id is that of the node's server with this name, and of no other subscriber. -/
structure Hosts (text : CString → String) (nh : NodeHandle) (id : UInt16) (name : String) :
    Prop where
  hundred_le : 100 ≤ id.toNat
  own : ∀ kind e, HasSubscriber nh kind id e → kind = subscriberKind .server ∧ text e.topic = name
  only : ∀ id' e, HasSubscriber nh (subscriberKind .server) id' e → text e.topic = name → id' = id

section Requests

variable {cfg : NodeConfig} {callbacks : Callbacks cfg} {text : CString → String}
  {deserialize : List UInt8 → Option Host.TopicInfo} {nh nh' : NodeHandle} {b : Bridge}
  {id : UInt16} {name : String}

theorem Hosts.mono (h : Hosts text nh' id name) (hgrows : Grows nh nh') :
    Hosts text nh id name where
  hundred_le := h.hundred_le
  own kind e he := h.own kind e (he.mono hgrows)
  only id' e he := h.only id' e (he.mono hgrows)

theorem requestsOf_append (asked more : List (String × List UInt8)) :
    requestsOf name (asked ++ more) = requestsOf name asked ++ requestsOf name more := by
  rw [requestsOf, List.filter_append, List.map_append]
  rfl

/-- What a server writes a request as, if it is still there. -/
theorem startRequest_parts (srv : Nat) (request : List UInt8) (s : Host.Registry) :
    (s.startRequest srv request).written.map (fun w => partsOf w.frame) =
      s.written.map (fun w => partsOf w.frame) ++
        ((if s.isAlive srv then s.servers[srv]? else none).toList.filter
          fun _ => request.length ≤ 65527).map fun server => (server.topic_id.toNat, request) := by
  unfold Host.Registry.startRequest
  cases s.servers[srv]? with
  | none =>
    rw [ite_self]
    exact (List.append_nil _).symm
  | some server =>
    cases s.isAlive srv with
    | false => exact (List.append_nil _).symm
    | true =>
      refine (Duplex.writeMessage_parts _ _ _ _).trans (congrArg (_ ++ ·) ?_)
      by_cases hlength : request.length ≤ 65527 <;>
        simp [hlength]

/-- What a request of ROS is written as. -/
theorem rosRequest_parts (deserialize : List UInt8 → Option Host.TopicInfo)
    (service_type : String) (request : List UInt8) (t : TableSession) :
    (t.step deserialize (.rosRequest service_type request)).registry.written.map
        (fun w => partsOf w.frame) =
      t.registry.written.map (fun w => partsOf w.frame) ++
        ((requested t service_type).toList.filter fun _ => request.length ≤ 65527).map
          fun server => (server.topic_id.toNat, request) := by
  have hnone : t.registry.written.map (fun w => partsOf w.frame) =
      t.registry.written.map (fun w => partsOf w.frame) ++ [] := (List.append_nil _).symm
  unfold requested
  by_cases hstopped : (t.io_stopped || !t.registry.runs .ros) = true
  · have hsession : t.step deserialize (.rosRequest service_type request) = t := if_pos hstopped
    rw [hsession, if_pos hstopped]
    exact hnone
  · have hsession : t.step deserialize (.rosRequest service_type request) =
        { t with registry := t.registry.rosRequest service_type request } := if_neg hstopped
    rw [hsession, if_neg hstopped]
    dsimp only [Host.Registry.rosRequest]
    -- one split of the converter for the two matches on it
    rcases t.registry.converters.lookup service_type with _ | ⟨_ | _, _ | srv⟩
    · exact hnone
    · exact hnone
    · exact hnone
    · exact hnone
    · exact startRequest_parts srv request t.registry

/-- A frame that is for another subscriber, or for none. -/
theorem Hosts.not_meant {kind : Int} (h : Hosts text nh id name)
    (hkind : kind ≠ subscriberKind .server) {other : String} {topic_id : Nat}
    (hmeant : Meant text nh kind other topic_id) (hknown : topic_id ≠ 65535) :
    topic_id ≠ id.toNat := by
  rintro rfl
  rcases hmeant with hunknown | ⟨j, e, he, hown, -, hid⟩
  · exact hknown hunknown
  · exact hkind (h.own kind e ⟨⟨j, he⟩, hown, hid⟩).1

theorem Hosts.not_protocol (h : Hosts text nh id name) {frame : List UInt8}
    (hprotocol : OfProtocol frame) : Wire.topicOf frame ≠ id.toNat := by
  have hle := h.hundred_le
  rcases hprotocol with htopic | htopic
  · rw [htopic, Host.TopicInfo.ID_PUBLISHER]
    omega
  · rw [htopic, Host.TopicInfo.ID_TX_STOP]
    omega

/-- Only a request has the id of a server. -/
theorem Hosts.not_routed (h : Hosts text b.node id name) {st : Bridge.Step}
    (hst : ∀ type request, st ≠ .rosRequest type request) {frame : List UInt8}
    (hrouted : Bridge.Routed text b st frame) (hroom : Duplex.Room cfg frame) :
    Wire.topicOf frame ≠ id.toNat := by
  cases st with
  | rosMessage id' message =>
    obtain ⟨-, j, e, he, hkind, -, htopic⟩ := hrouted
    intro heq
    have hserver := (h.own _ e ⟨⟨j, he⟩, hkind, heq.symm.trans htopic⟩).1
    exact absurd hserver (by decide)
  | rosRequest type request => exact absurd rfl (hst type request)
  | deliver enabled outside =>
    rcases hrouted with hprotocol | ⟨received, -, ⟨-, htime, -⟩ | ⟨-, i, e, -, -, -, hmeant⟩⟩
    · exact h.not_protocol hprotocol
    · have hle := h.hundred_le
      rw [htime, Host.TopicInfo.ID_TIME]
      omega
    · exact h.not_meant (by decide) hmeant hroom.1
  | fail i error => exact h.not_protocol hrouted
  | stop => exact h.not_protocol hrouted
  | start => exact h.not_protocol hrouted
  | call c => exact hrouted.elim
  | lose => exact hrouted.elim
  | interrupt => exact hrouted.elim

/-- The server that gets a request is known to the node by its name. -/
theorem requested_known {t : TableSession} (h : Mirrors text nh t.registry) {type : String}
    {server : Host.ServiceServer} (hserver : requested t type = some server) :
    Known text nh .server server.service_name server.topic_id := by
  unfold requested at hserver
  split at hserver
  · cases hserver
  · split at hserver
    · rename_i srv _
      split at hserver
      · exact h.known .server srv _ _ (by rw [serviceInfo, hserver]; rfl)
      · cases hserver
    · cases hserver

/-- The requests of a step are the frames that it writes under the id of the server. -/
theorem requests_step (h : b.Sound cfg text) {st : Bridge.Step} {more : List Written}
    (hmore : (b.step cfg callbacks deserialize st).session.registry.written =
      b.session.registry.written ++ more)
    (hrouted : ∀ w ∈ more, Bridge.Routed text b st w.frame)
    (hroom : ∀ w ∈ more, Duplex.Room cfg w.frame) (hhosts : Hosts text b.node id name) :
    Duplex.payloadsOf id (more.map fun w => partsOf w.frame) =
      requestsOf name (askedBy b (.bridge st)) := by
  by_cases hst : ∃ type request, st = .rosRequest type request
  · obtain ⟨type, request, rfl⟩ := hst
    have hparts : more.map (fun w => partsOf w.frame) =
        ((requested b.session type).toList.filter fun _ => request.length ≤ 65527).map
          fun server => (server.topic_id.toNat, request) := by
      have happend := rosRequest_parts deserialize type request b.session
      have hwritten : (b.session.step deserialize (.rosRequest type request)).registry.written =
          b.session.registry.written ++ more := hmore
      rw [hwritten, List.map_append] at happend
      exact List.append_cancel_left happend
    rw [hparts, askedBy]
    cases hserver : requested b.session type with
    | none => rfl
    | some server =>
      by_cases hlength : request.length ≤ 65527
      · have hone : more.map (fun w => partsOf w.frame) = [(server.topic_id.toNat, request)] := by
          rw [hparts, hserver]
          simp [hlength]
        obtain ⟨w, hw, hframe⟩ : ∃ w ∈ more, partsOf w.frame = (server.topic_id.toNat, request) :=
          List.mem_map.mp (hone ▸ List.mem_singleton_self _)
        have htopic : Wire.topicOf w.frame = server.topic_id.toNat := congrArg Prod.fst hframe
        have hiff : server.topic_id = id ↔ server.service_name = name := by
          rcases requested_known h.reflects.mirrors hserver with hunset | ⟨e, he, hname⟩
          · refine absurd ?_ (hroom w hw).1
            rw [htopic, hunset]
            decide
          · rw [hname]
            exact ⟨fun heq => (hhosts.own _ e (heq ▸ he)).2, hhosts.only _ e he⟩
        by_cases hname : server.service_name = name <;>
          simp [hlength, requestsOf, Duplex.payloadsOf, UInt16.toNat_inj, hiff, hname]
      · simp [hlength, requestsOf, Duplex.payloadsOf]
  · have hother : ∀ type request, st ≠ .rosRequest type request :=
      fun type request heq => hst ⟨type, request, heq⟩
    have hnone : askedBy b (.bridge st) = [] := by
      cases st with
      | rosRequest type request => exact absurd rfl (hother type request)
      | _ => rfl
    have hfilter : (more.map fun w => partsOf w.frame).filter
        (fun frame => frame.1 = id.toNat) = [] := by
      refine List.filter_eq_nil_iff.mpr fun frame hframe => ?_
      obtain ⟨w, hw, rfl⟩ := List.mem_map.mp hframe
      have hne := hhosts.not_routed hother (hrouted w hw) (hroom w hw)
      exact fun heq => hne (of_decide_eq_true heq)
    rw [hnone, Duplex.payloadsOf, hfilter]
    rfl

end Requests

/-! ## Calls of the server -/

/-- The callbacks that are called are those whose branches are taken. -/
theorem calledWith_called (j : Nat) (events : List Event) :
    calledWith j (called events) = deliveredTo j (taken events) := by
  unfold calledWith called deliveredTo taken
  rw [List.filterMap_filterMap, List.filterMap_filterMap]
  refine List.filterMap_congr fun event _ => ?_
  cases event with
  | reset => rfl
  | read data reaction => rfl
  | access index => rfl
  | act branch messageIn =>
    cases branch with
    | publisher => rfl
    | time => rfl
    | parameterRequest => rfl
    | txStop => rfl
    | subscriber index =>
      by_cases hindex : 0 ≤ index
      · have hiff : index.toNat = j ↔ index = j := by omega
        simp [hindex, hiff]
      · have hne : index ≠ j := by omega
        simp [hindex, hne]

theorem calledWith_append (j : Nat) (us more : List Utterance) :
    calledWith j (us ++ more) = calledWith j us ++ calledWith j more := List.filterMap_append

theorem calledWith_step {cfg : NodeConfig} (callbacks : Callbacks cfg) (b : Bridge)
    (st : Bridge.Step) (j : Nat) :
    calledWith j (utterancesOf cfg callbacks b (.bridge st)) =
      deliveredTo j (taken (Duplex.eventsOf cfg callbacks b st)) := by
  cases st with
  | call c =>
    cases c with
    | publish id msg => rfl
    | log level t => rfl
    | _ => exact calledWith_called j _
  | _ => rfl

/-! ## The invariant -/

/-- No request is lost, and the program publishes nothing under the id of the responses. -/
def Attentive (cfg : NodeConfig) (callbacks : Callbacks cfg)
    (deserialize : List UInt8 → Option Host.TopicInfo) (pub : Int) (c : Conversation)
    (st : Duplex.Step) : Prop :=
  Duplex.Orderly cfg callbacks deserialize c.duplex st ∧ Proper callbacks c st ∧
    ∀ id msg, .publish id msg ∈ utterancesOf cfg callbacks c.duplex.bridge st →
      Aside pub (id, msg)

/-- What every attentive step keeps. -/
structure Served (cfg : NodeConfig) (text : CString → String)
    (deserializeLog : List UInt8 → Option Host.Log) (speech : Speech) (pub : Int)
    (c : Conversation) : Prop where
  duplex : c.duplex.Sound cfg text
  conversation : c.Sound cfg text deserializeLog speech
  called : ∀ j, calledWith j c.uttered = deliveredTo j (taken c.duplex.events)
  requests : ∀ id name, Hosts text c.duplex.bridge.node id name →
    Duplex.payloadsOf id c.duplex.frames = requestsOf name c.asked
  aside : ∀ id msg, .publish id msg ∈ c.uttered → Aside pub (id, msg)

section Invariant

variable {cfg : NodeConfig} {callbacks : Callbacks cfg} {text : CString → String}
  {deserialize : List UInt8 → Option Host.TopicInfo}
  {deserializeLog : List UInt8 → Option Host.Log} {speech : Speech} {pub : Int}
  {c : Conversation}

/-- The requests of a step are written behind the others. -/
theorem Served.requests_step (h : c.Served cfg text deserializeLog speech pub)
    (hcallbacks : callbacks.Proper) (hids : IdsFit cfg) {st : Duplex.Step}
    (horderly : Duplex.Orderly cfg callbacks deserialize c.duplex st) {id : UInt16} {name : String}
    (hhosts : Hosts text (c.duplex.step cfg callbacks deserialize st).bridge.node id name) :
    Duplex.payloadsOf id (c.duplex.step cfg callbacks deserialize st).frames =
      requestsOf name (c.asked ++ askedBy c.duplex.bridge st) := by
  rw [requestsOf_append]
  cases st with
  | carry n =>
    have hsame : Grows c.duplex.bridge.node
        (c.duplex.step cfg callbacks deserialize (.carry n)).bridge.node := .of_eq rfl rfl
    exact (h.requests id name (hhosts.mono hsame)).trans (List.append_nil _).symm
  | bridge st =>
    obtain ⟨hproper, -, -, -, hroom⟩ := horderly
    have hbefore := hhosts.mono
      (Duplex.step_grows hcallbacks h.duplex.bridge.enrolled hproper)
    have hstep : Writes (Bridge.Routed text c.duplex.bridge st) c.duplex.bridge.session.registry
        (c.duplex.bridge.step cfg callbacks deserialize st).session.registry :=
      Bridge.step_writes hids h.duplex.bridge st
    obtain ⟨more, hmore, hwrites⟩ := hstep
    have hframes : (c.duplex.step cfg callbacks deserialize (.bridge st)).frames =
        c.duplex.frames ++ more.map fun w => partsOf w.frame :=
      (congrArg (List.map fun w : Written => partsOf w.frame) hmore).trans List.map_append
    rw [hframes, Duplex.payloadsOf_append, h.requests id name hbefore]
    exact congrArg (_ ++ ·) (Conversation.requests_step h.duplex.bridge hmore
      (fun w hw => (hwrites w hw).2) (fun w hw => hroom w (hmore ▸ List.mem_append_right _ hw))
      hbefore)

theorem Served.step (hcallbacks : callbacks.Proper) (hspeak : callbacks.Speak speech)
    (hdeserializes : Deserializes text deserialize) (hids : IdsFit cfg)
    (h : c.Served cfg text deserializeLog speech pub) {st : Duplex.Step}
    (hattentive : Attentive cfg callbacks deserialize pub c st) :
    (c.step cfg callbacks deserialize deserializeLog st).Served cfg text deserializeLog speech
      pub := by
  obtain ⟨horderly, hproper, haside⟩ := hattentive
  refine ⟨Duplex.step_sound hcallbacks hdeserializes hids h.duplex horderly,
    step_sound hcallbacks hspeak hdeserializes hids h.conversation hproper, fun j => ?_,
    fun id name hhosts => h.requests_step hcallbacks hids horderly hhosts, fun id msg hmem => ?_⟩
  · refine (calledWith_append j _ _).trans ?_
    rw [h.called j]
    cases st with
    | carry n => exact List.append_nil _
    | bridge st =>
      rw [calledWith_step]
      exact (List.filterMap_append.symm.trans
        (congrArg (List.filterMap _) List.filterMap_append.symm))
  · rcases List.mem_append.mp hmem with hold | hnew
    · exact h.aside id msg hold
    · exact haside id msg hnew

/-! ## Runs -/

theorem new_served {nh : NodeHandle} (henrolled : Enrolled cfg nh)
    (hmode : nh.receiver.mode = .FIRST_FF) (htx : nh.hardware.tx = []) (hrx : nh.hardware.rx = [])
    {types : List String} {timeout threshold : Int} {ok : Bool} {t : TableSession}
    (hnew : TableSession.new types timeout threshold ok = some t) :
    (new nh t).Served cfg text deserializeLog speech pub := by
  have hduplex : (new nh t).duplex.Sound cfg text :=
    Duplex.new_sound henrolled hmode htx hrx hnew
  refine ⟨hduplex, new_sound henrolled htx hnew, fun _ => rfl, ?_,
    fun _ _ hmem => absurd hmem List.not_mem_nil⟩
  intro id name _
  obtain ⟨buffer, -, rfl⟩ := Option.map_eq_some_iff.mp hnew
  rfl

/-- The id of a server with a name of its own. -/
theorem Served.hosts (h : c.Served cfg text deserializeLog speech pub) (hids : IdsFit cfg) {j : Nat}
    {e : Endpoint} (he : Slots.Holds c.duplex.bridge.node.subscribers j e)
    (hkind : e.endpoint = subscriberKind .server)
    (honly : ∀ k x, Slots.Holds c.duplex.bridge.node.subscribers k x →
      x.endpoint = subscriberKind .server → text x.topic = text e.topic → k = j) :
    Hosts text c.duplex.bridge.node (UInt16.ofNat (topicField e.id)) (text e.topic) := by
  have henrolled := h.duplex.bridge.enrolled
  have hid := toNat_topicField e.id
  have hfield := (topicField_subscriber hids henrolled he).1
  refine ⟨by omega, ?_, ?_⟩
  · rintro kind x ⟨⟨k, hk⟩, hown, hxid⟩
    obtain rfl := subscriber_unique_of_topicField hids henrolled hk he (hxid.symm.trans hid)
    exact ⟨hown.symm.trans hkind, rfl⟩
  · rintro id' x ⟨⟨k, hk⟩, hown, hxid⟩ hname
    obtain rfl := honly k x hk hown hname
    obtain rfl := hk.unique he
    exact UInt16.toNat_inj.mp (hxid.trans hid.symm)

/-- The server was called with the first requests. -/
theorem Served.sent (h : c.Served cfg text deserializeLog speech pub) (hids : IdsFit cfg) {j : Nat}
    {e : Endpoint} (he : Slots.Holds c.duplex.bridge.node.subscribers j e)
    (hhosts : Hosts text c.duplex.bridge.node (UInt16.ofNat (topicField e.id)) (text e.topic))
    {Req : MessageDef} {vs : List Req.Val}
    (hvalues : List.Forall₂ (fun request v => (⟨Req, v⟩ : Msg).Encodes request)
      (requestsOf (text e.topic) c.asked) vs) :
    ∃ n, List.Forall₂ (Sent cfg Req) (calledWith j c.uttered) (vs.take n) := by
  obtain ⟨done, left, hframes, hserved, -⟩ := h.duplex.position
  have hid : (UInt16.ofNat (topicField e.id)).toNat = 100 + j :=
    (toNat_topicField e.id).trans (topicField_subscriber hids h.duplex.bridge.enrolled he).1
  have hroom : ∀ message ∈ done, message.2.length ≤ cfg.INPUT_SIZE := by
    intro message hmessage
    have hmem : message ∈ c.duplex.frames := hframes ▸ List.mem_append_left _ hmessage
    obtain ⟨w, hw, rfl⟩ := List.mem_map.mp hmem
    exact (h.duplex.written w hw).2.2
  have hsplit : messagesFor j (done ++ left) = messagesFor j done ++ messagesFor j left :=
    List.filter_append ..
  have hrequests : (messagesFor j (done ++ left)).map (·.2) =
      requestsOf (text e.topic) c.asked := by
    rw [← h.requests _ _ hhosts, hframes, Duplex.payloadsOf, hid]
    rfl
  rw [← hrequests, List.forall₂_map_left_iff, hsplit] at hvalues
  have hdone := List.forall₂_take (messagesFor j done).length hvalues
  rw [List.take_left] at hdone
  exact ⟨_, h.called j ▸ sent_of_serves hserved h.duplex.inputs hroom hdone⟩

/-- What the host gets as responses stands in what was published under the id of the server. -/
theorem responses_heard {nh : NodeHandle} {i : Nat} {p : Endpoint}
    (hp : Slots.Holds nh.publishers i p) {name : String}
    (honly : ∀ k x, Slots.Holds nh.publishers k x → x.endpoint = publisherKind .server →
      text x.topic = name → k = i) {heard : List Hearing} {ms : List (Int × Msg)}
    (hheard : List.SublistForall₂ (Heard cfg text nh) heard ms) :
    List.SublistForall₂ (fun response m => m.2.Encodes response) (responsesOf name heard)
      (ms.filter fun m => ¬ Aside p.id m) := by
  have hresponse : List.SublistForall₂
      (fun response (m : Int × Msg) => ¬ Aside p.id m ∧ m.2.Encodes response)
      (responsesOf name heard) ms := by
    refine Subsequence.filterMap_left ?_ hheard
    intro hearing m response hm hsome
    cases hm with
    | published he hencodes => cases hsome
    | logged hid hlog => cases hsome
    | tooLong hlong => cases hsome
    | @service kind x payload m hx hencodes =>
      cases kind with
      | client => cases hsome
      | server =>
        dsimp only at hsome
        split at hsome
        · rename_i hname
          obtain rfl := Option.some.inj hsome
          obtain ⟨⟨k, hk⟩, hkind, hid⟩ := hx
          obtain rfl := honly k x hk hkind hname
          obtain rfl := hp.unique hk
          exact ⟨fun haside => haside hid, hencodes⟩
        · cases hsome
  exact Subsequence.mono (fun _ _ h => h.2)
    (Subsequence.filter_right (fun _ _ h => decide_eq_true h.1) hresponse)

/-- A step in which the program neither publishes nor logs. -/
theorem attentive_of_orderly {st : Duplex.Step}
    (horderly : Duplex.Orderly cfg callbacks deserialize c.duplex st)
    (hquiet : ∀ call, st = .bridge (.call call) →
      (∀ id msg, call ≠ .publish id msg) ∧ ∀ level t, call ≠ .log level t) :
    Attentive cfg callbacks deserialize pub c st := by
  cases st with
  | carry n => exact ⟨horderly, trivial, fun _ _ hmem => absurd hmem List.not_mem_nil⟩
  | bridge st =>
    refine ⟨horderly, ⟨horderly.1, fun call hcall => ?_⟩, fun id msg hmem => ?_⟩
    · have hother := (hquiet call (congrArg _ hcall)).1
      cases call with
      | publish id msg => exact absurd rfl (hother id msg)
      | _ => trivial
    · cases st with
      | call call =>
        obtain ⟨hother, hlog⟩ := hquiet call rfl
        have hcalled :
            .publish id msg ∈ called (call.run cfg callbacks c.duplex.bridge.node).2 := by
          cases call with
          | publish id msg => exact absurd rfl (hother id msg)
          | log level t => exact absurd rfl (hlog level t)
          | _ => exact hmem
        exact absurd hcalled (publish_not_mem_called id msg _)
      | _ => cases hmem

end Invariant

/-! ### An echo -/

/-- The response is the request. -/
def echo : ServiceCallback textDef textDef := fun request resp nh => (request.getD resp, nh)

/-- The only primitive of a text is in front of it. -/
theorem text_whole (v : textDef.Val) : (⟨textDef, v⟩ : Msg).Whole atmega168 := by
  obtain ⟨⟨elems, hlength⟩, ⟨⟩⟩ := v
  obtain ⟨text, rfl⟩ := List.length_eq_one_iff.mp hlength
  have hitems : encapsulationItems ++ textDef.items (⟨[text], hlength⟩, ()) =
      [.prim .one 0x00, .prim .one 0x01, .octets [0x00, 0x00],
        .prim .four (text.val.length + 1), .octets (text.val ++ [0])] := rfl
  rw [Msg.Whole, Msg.items, hitems]
  simp [Straddles, Item.Straddles, Item.endPos, Width.bytes, padding, atmega168]

theorem echo_courteous : echo.Courteous atmega168 106 where
  keeps _ _ _ h := .refl h
  emits _ _ _ h := .refl h
  conveys _ _ _ _ := ⟨[], .of_tx rfl, List.forall_mem_nil _⟩
  whole _ _ _ := text_whole _

/-- A program with the service `p`, of the type `q`. -/
def echoCallbacks : Callbacks atmega168 :=
  serving exactPlatform echo_courteous (fun _ => ⟨⟨.construct textDef, textH, 106⟩, rfl⟩) 0
    (noCallbacks _)

def echoSpeech : Speech := serverSpeech atmega168 echo 106 0 noSpeech

def typedSession : TableSession := { quietSession with registry := Host.Registry.new ["q"] 2000 }

/-- The service is announced, and called with the text `h`. -/
def callingSteps : List Duplex.Step :=
  [.bridge (.call (.advertise { publisherP with endpoint := 2 })),
    .bridge (.call (.subscribe { publisherP with endpoint := 3 })), .bridge .start, .carry 8,
    .bridge (.call .spinOnce), .bridge (.deliver true ⟨true, none, []⟩),
    .bridge (.deliver true ⟨true, none, []⟩), .bridge (.deliver true ⟨true, none, []⟩),
    .bridge (.rosRequest "q" textPayload), .carry 40, .bridge (.call .spinOnce),
    .bridge (.deliver true ⟨true, none, []⟩)]

theorem callingSteps_attentive :
    Throughout (step atmega168 echoCallbacks (deserializeInfo Bridge.plainText)
        (deserializeLogWith Bridge.plainText))
      (Attentive atmega168 echoCallbacks (deserializeInfo Bridge.plainText) 106)
      (new (freshNode atmega168) typedSession) callingSteps := by
  have hcall : ∀ {c : Conversation} {st : Duplex.Step},
      (∀ call, st = .bridge (.call call) →
        (∀ id msg, call ≠ .publish id msg) ∧ ∀ level t, call ≠ .log level t) →
      Duplex.Orderly atmega168 echoCallbacks (deserializeInfo Bridge.plainText) c.duplex st →
      Attentive atmega168 echoCallbacks (deserializeInfo Bridge.plainText) 106 c st :=
    fun hquiet horderly => attentive_of_orderly horderly hquiet
  refine throughout_cons.mpr ⟨hcall (by simp) ⟨⟨by decide, by decide⟩, by simp, by decide,
    trivial, by decide⟩, ?_⟩
  refine throughout_cons.mpr ⟨hcall (by simp) ⟨⟨by decide, by decide⟩, by simp, by decide,
    trivial, by decide⟩, ?_⟩
  refine throughout_cons.mpr ⟨hcall (by simp) ⟨trivial, by simp, by decide, trivial,
    by decide +kernel⟩, ?_⟩
  refine throughout_cons.mpr ⟨hcall (by simp) trivial, ?_⟩
  refine throughout_cons.mpr ⟨hcall (by simp) ⟨show StoresInside atmega168 _ by decide +kernel,
    by simp, by decide +kernel, trivial, by decide +kernel⟩, ?_⟩
  refine throughout_cons.mpr ⟨hcall (by simp) ⟨trivial, by simp, by decide, trivial,
    by decide +kernel⟩, ?_⟩
  refine throughout_cons.mpr ⟨hcall (by simp) ⟨trivial, by simp, by decide, trivial,
    by decide +kernel⟩, ?_⟩
  refine throughout_cons.mpr ⟨hcall (by simp) ⟨trivial, by simp, by decide, trivial,
    by decide +kernel⟩, ?_⟩
  refine throughout_cons.mpr ⟨hcall (by simp) ⟨trivial, by simp, by decide, trivial,
    by decide +kernel⟩, ?_⟩
  refine throughout_cons.mpr ⟨hcall (by simp) trivial, ?_⟩
  refine throughout_cons.mpr ⟨hcall (by simp) ⟨show StoresInside atmega168 _ by decide +kernel,
    by simp, by decide +kernel, trivial, by decide +kernel⟩, ?_⟩
  refine throughout_cons.mpr ⟨hcall (by simp) ⟨trivial, by simp, by decide, trivial,
    by decide +kernel⟩, ?_⟩
  exact throughout_nil

end Ros2Serial.Link.Conversation
