import Ros2Serial.Host.Endpoints
import Ros2Serial.Lib.Runs

/-!
# What a session sends

`outgoing` is what a step hands to `write_message`, and `step_sends` says that
a step writes nothing else, and how it fails.  Two things that the device relies
on follow from it.

* Its topic ids.  The ids that a session sends under are its own or were announced,
  as long as no endpoint of a service is used before its `topic_id_` is set, or
  after it was dropped (`addressed_of_usesConfigured`).
* The size of its buffer.  `write_message` does not look at `buffer_size`.  A frame
  fits if and only if its payload does, and a payload that is too long for any frame
  is dropped in the one thread only (`respects_iff_throughout`).
-/

namespace Ros2Serial.Host

/-! ## What the device relies on -/

/-- The ids that are not announced: those of the host's own messages. -/
def ownIds : List Nat := [TopicInfo.ID_PUBLISHER, TopicInfo.ID_TIME, TopicInfo.ID_TX_STOP]

/-- The frame goes to an id of the host's own, or to one that was announced. -/
def Written.Addressed (w : Written) : Prop :=
  Wire.topicOf w.frame ∈ ownIds ∨ ∃ topic_id ∈ w.announced, Wire.topicOf w.frame = topic_id.toNat

/-- The payload is no longer than the buffer that was announced for the id. -/
def Written.Fits (w : Written) : Prop :=
  ∀ topic_id buffer_size, w.announced.lookup topic_id = some buffer_size →
    Wire.topicOf w.frame = topic_id.toNat →
      ((Wire.payloadOf w.frame).length : Int) ≤ buffer_size.toInt

/-- The payload is no longer than the buffer that was announced for the id. -/
def Unwritten.Fits (call : Unwritten) : Prop :=
  ∀ buffer_size, call.announced.lookup call.topic_id = some buffer_size →
    (call.length : Int) ≤ buffer_size.toInt

/-- It is not for a payload beyond the buffer that the session has failed. -/
def Fault.Fits : Fault → Prop
  | .thrown call | .endless _ call => call.Fits
  | .dangling _ => False

namespace Registry

open Runs

/-! ## What a step writes -/

/-- What the call of an entry of `callbacks_` hands to `write_message`. -/
def callOutgoing (s : Registry) (outside : Outside) : Handler → Option (List UInt8 × UInt16)
  | .handleTime => some (outside.time, UInt16.ofNat TopicInfo.ID_TIME)
  | .serviceClient srv => s.clients[srv]?.bind (ServiceClient.handle outside.answer)
  | _ => none

/-- What a request on the service of a converter hands to `write_message`. -/
def requestOutgoing (s : Registry) (request : List UInt8) :
    Converter → Option (List UInt8 × UInt16)
  | { service_server := some _, callback := some srv } =>
    if s.isAlive srv then s.servers[srv]?.map fun server => (server.startRequest request).2
    else none
  | _ => none

/-- What a step hands to `write_message`, and the id that it goes with, if the thread gets
there. -/
def handed (s : Registry) : Step → Option (List UInt8 × UInt16)
  | .message topic_id _ outside =>
    if s.active then (s.callbacks.lookup topic_id).bind (s.callOutgoing outside) else none
  | .requestTopics =>
    if s.active then some ([], UInt16.ofNat TopicInfo.ID_PUBLISHER) else none
  | .rosMessage topic_id message => (s.subscribers.lookup topic_id).map (Subscriber.handle message)
  | .rosRequest service_type request =>
    (s.converters.lookup service_type).bind (s.requestOutgoing request)
  | .stop => if s.active then some ([0], UInt16.ofNat TopicInfo.ID_TX_STOP) else none
  | .start => if s.active then none else some ([], UInt16.ofNat TopicInfo.ID_PUBLISHER)

/-- What a step hands to `write_message`, and the id that it goes with. -/
def outgoing (s : Registry) (st : Step) : Option (List UInt8 × UInt16) :=
  if s.runs st.thread then s.handed st else none

/-- The server that a request on the service of a converter calls, where the object is gone. -/
def destroyedServer (s : Registry) : Converter → Option Nat
  | { service_server := some _, callback := some srv } =>
    if s.isAlive srv then none else s.servers[srv]?.map fun _ => srv
  | _ => none

/-- The server that a step calls, where the object is gone. -/
def callsDestroyed (s : Registry) : Step → Option Nat
  | .rosRequest service_type _ =>
    if s.runs .ros then (s.converters.lookup service_type).bind s.destroyedServer else none
  | _ => none

/-- The frame of what is handed to `write_message`. -/
def framesOf (announced : AList fun _ : UInt16 => Int32) :
    Option (List UInt8 × UInt16) → List Written
  | none => []
  | some (message, topic_id) => (messageBuffer message topic_id.toNat).toList.map fun frame =>
    { frame := frame, announced := announced }

/-- What is announced when a step writes.  `stop` clears the tables first. -/
def announcedFor (s : Registry) : Step → AList fun _ : UInt16 => Int32
  | .stop => ∅
  | _ => s.announced

/-- How a step fails, if it does. -/
def failures (s : Registry) (st : Step) : List Fault :=
  match s.outgoing st with
  | some (message, topic_id) => writeFaults st.thread message topic_id (s.announcedFor st)
  | none => (s.callsDestroyed st).toList.map .dangling

/-- These frames are written, and these faults occur. -/
structure Sends (s s' : Registry) (frames : List Written) (faults : List Fault) : Prop where
  written : s'.written = s.written ++ frames
  faults : s'.faults = s.faults ++ faults

section Sends

variable (deserialize : List UInt8 → Option TopicInfo) (s : Registry)

theorem Sends.silent {s s' : Registry} (hwritten : s'.written = s.written)
    (hfaults : s'.faults = s.faults) : Sends s s' [] [] :=
  ⟨hwritten.trans (List.append_nil _).symm, hfaults.trans (List.append_nil _).symm⟩

/-- A call of `write_message`. -/
theorem writeMessage_sends (thread : Thread) (message : List UInt8) (topic_id : UInt16) :
    Sends s (s.writeMessage thread message topic_id)
      (framesOf s.announced (some (message, topic_id)))
      (writeFaults thread message topic_id s.announced) :=
  ⟨rfl, rfl⟩

theorem setup_sends {handler : TopicInfo → Registry → Registry}
    (h : ∀ topic_info, Sends s (handler topic_info s) [] []) (topic_info : Option TopicInfo) :
    Sends s (s.setup topic_info handler) [] [] :=
  setup_cases (P := fun s' => Sends s s' [] []) (.silent rfl rfl) fun info _ => h info

theorem createService_sends (kind : ServiceKind) (created : Bool) (topic_info : TopicInfo) :
    Sends s (s.createService kind created topic_info).1 [] [] := by
  refine .silent ?_ (createService_faults kind created topic_info s)
  by_cases hmem : topic_info.topic_name ∈ s.services kind
  · rw [createService_present hmem]
  · exact (createService_creates hmem created).topics.written

theorem setupServiceSubscriber_sends (kind : ServiceKind) (created : Bool)
    (topic_info : TopicInfo) :
    Sends s (s.setupServiceSubscriber kind created topic_info) [] [] := by
  have hcreate := createService_sends s kind created topic_info
  cases hconstructed : (s.createService kind created topic_info).2 with
  | true =>
    have hsets := setupServiceSubscriber_sets hconstructed
    exact ⟨hsets.written.trans hcreate.written, hsets.faults.trans hcreate.faults⟩
  | false =>
    rw [setupServiceSubscriber_thrown hconstructed]
    exact hcreate

/-- The handlers that write are those of the time and of the service clients. -/
theorem call_sends (handler : Handler) (stream : List UInt8) (outside : Outside) :
    Sends s (s.call deserialize handler stream outside)
      (framesOf s.announced (s.callOutgoing outside handler))
      (match s.callOutgoing outside handler with
        | some (message, topic_id) => writeFaults .io message topic_id s.announced
        | none => []) := by
  cases handler with
  | setupPublisher =>
    refine setup_sends s (fun topic_info => ?_) _
    unfold setupPublisher
    split <;> exact .silent rfl rfl
  | setupSubscriber =>
    refine setup_sends s (fun topic_info => ?_) _
    unfold setupSubscriber
    split <;> exact .silent rfl rfl
  | setupServiceClientPublisher | setupServiceServerPublisher =>
    exact setup_sends s (createService_sends s _ _) _
  | setupServiceClientSubscriber | setupServiceServerSubscriber =>
    exact setup_sends s (setupServiceSubscriber_sends s _ _) _
  | handleLog | publisher | serviceServer => exact .silent rfl rfl
  | handleTime => exact writeMessage_sends s _ _ _
  | serviceClient srv =>
    rw [callOutgoing, call, handleClient]
    cases s.clients[srv]?.bind (ServiceClient.handle outside.answer) with
    | none => exact .silent rfl rfl
    | some outgoing => exact writeMessage_sends s _ _ _

theorem startRequest_sends (srv : Nat) (request : List UInt8) (name : String) :
    Sends s (s.startRequest srv request)
      (framesOf s.announced (s.requestOutgoing request ⟨some name, some srv⟩))
      (match s.requestOutgoing request ⟨some name, some srv⟩ with
        | some (message, topic_id) => writeFaults .ros message topic_id s.announced
        | none => (s.destroyedServer ⟨some name, some srv⟩).toList.map .dangling) := by
  dsimp only [startRequest, requestOutgoing, destroyedServer]
  cases s.servers[srv]? with
  | none => cases s.isAlive srv <;> exact .silent rfl rfl
  | some server =>
    cases s.isAlive srv with
    | true => exact ⟨rfl, rfl⟩
    | false => exact ⟨(List.append_nil _).symm, rfl⟩

/-- What a step does, where its thread gets there. -/
theorem perform_sends (st : Step) (hruns : s.runs st.thread = true) :
    Sends s (s.perform deserialize st) (framesOf (s.announcedFor st) (s.outgoing st))
      (s.failures st) := by
  unfold failures outgoing
  rw [if_pos hruns]
  cases st with
  | message topic_id stream outside =>
    rw [perform, handed]
    by_cases hactive : s.active = true
    · rw [if_pos hactive, if_pos hactive]
      cases s.callbacks.lookup topic_id with
      | none => exact .silent rfl rfl
      | some handler => exact call_sends deserialize s handler stream outside
    · rw [if_neg hactive, if_neg hactive]
      exact .silent rfl rfl
  | requestTopics =>
    rw [perform, handed]
    by_cases hactive : s.active = true
    · rw [if_pos hactive, if_pos hactive]
      exact writeMessage_sends s _ _ _
    · rw [if_neg hactive, if_neg hactive]
      exact .silent rfl rfl
  | rosMessage topic_id message =>
    rw [perform, rosMessage, handed]
    cases s.subscribers.lookup topic_id with
    | none => exact .silent rfl rfl
    | some sub => exact writeMessage_sends s _ _ _
  | rosRequest service_type request =>
    have hros : s.runs .ros = true := hruns
    rw [perform, rosRequest, handed, callsDestroyed, if_pos hros]
    cases s.converters.lookup service_type with
    | none => exact .silent rfl rfl
    | some converter =>
      obtain ⟨_ | name, _ | srv⟩ := converter
      · exact .silent rfl rfl
      · exact .silent rfl rfl
      · exact .silent rfl rfl
      · exact startRequest_sends s srv request name
  | stop =>
    rw [perform, stop, handed]
    by_cases hactive : s.active = true
    · rw [if_pos hactive, if_pos hactive]
      exact ⟨rfl, rfl⟩
    · rw [if_neg hactive, if_neg hactive]
      exact .silent rfl rfl
  | start =>
    rw [perform, handed]
    by_cases hactive : s.active = true
    · rw [if_pos hactive, if_pos hactive]
      exact .silent rfl rfl
    · rw [if_neg hactive, if_neg hactive]
      exact ⟨rfl, rfl⟩

/-- A step writes what it hands to `write_message`, and fails there or in a call of a server
that is gone. -/
theorem step_sends (st : Step) :
    Sends s (s.step deserialize st) (framesOf (s.announcedFor st) (s.outgoing st))
      (s.failures st) := by
  rw [step]
  by_cases hruns : s.runs st.thread = true
  · rw [if_pos hruns]
    exact perform_sends deserialize s st hruns
  · have hnone : s.callsDestroyed st = none := by
      cases st with
      | rosRequest service_type request => exact if_neg hruns
      | _ => rfl
    rw [if_neg hruns, failures, outgoing, if_neg hruns, hnone]
    exact .silent rfl rfl

end Sends

/-- A frame that is written is that of what was handed over. -/
theorem mem_framesOf {announced : AList fun _ : UInt16 => Int32}
    {outgoing : Option (List UInt8 × UInt16)} {w : Written} :
    w ∈ framesOf announced outgoing ↔ ∃ message topic_id, outgoing = some (message, topic_id) ∧
      message.length ≤ 65527 ∧ w = ⟨Wire.encode topic_id.toNat message, announced⟩ := by
  cases outgoing with
  | none => simp [framesOf]
  | some handed =>
    obtain ⟨message, topic_id⟩ := handed
    rw [framesOf, List.mem_map]
    constructor
    · rintro ⟨frame, hframe, rfl⟩
      obtain ⟨hlength, rfl⟩ :=
        (messageBuffer_eq_some_iff topic_id.toNat_lt).mp (Option.mem_toList.mp hframe)
      exact ⟨message, topic_id, rfl, hlength, rfl⟩
    · rintro ⟨_, _, heq, hlength, rfl⟩
      obtain ⟨rfl, rfl⟩ := Prod.mk.inj (Option.some.inj heq)
      have hframe := (messageBuffer_eq_some_iff topic_id.toNat_lt).mpr ⟨hlength, rfl⟩
      exact ⟨_, Option.mem_toList.mpr hframe, rfl⟩

/-! ## Topic ids -/

/-- The step does not use an endpoint of a service before its topic id is set, nor one
that the session has dropped. -/
def usesConfigured (s : Registry) : Step → Bool
  | .message topic_id _ _ =>
    match s.callbacks.lookup topic_id with
    | some (.serviceClient srv) => s.topicId .client srv ≠ some (-1)
    | _ => true
  | .rosRequest service_type _ =>
    match s.converters.lookup service_type with
    | some { service_server := some name, callback := some srv } =>
      s.service_servers.lookup name = some srv && s.topicId .server srv ≠ some (-1)
    | _ => true
  | _ => true

/-- What the tables send under is announced, except for endpoints whose id is not set. -/
structure Announced (s : Registry) : Prop where
  subscribers : ∀ topic_id sub, s.subscribers.lookup topic_id = some sub →
    sub.topic_id ∈ s.announced
  services : ∀ kind name srv topic_id, (s.services kind).lookup name = some srv →
    s.topicId kind srv = some topic_id → topic_id = -1 ∨ topic_id ∈ s.announced

section Announced

variable {deserialize : List UInt8 → Option TopicInfo} {s s' : Registry}

theorem Announced.congr (h : s.Announced) (hsubscribers : s'.subscribers = s.subscribers)
    (hannounced : s'.announced = s.announced) (hservices : s'.services = s.services)
    (htopicId : ∀ kind srv, s'.topicId kind srv = s.topicId kind srv) : s'.Announced := by
  refine ⟨?_, ?_⟩
  · rw [hsubscribers, hannounced]
    exact h.subscribers
  · intro kind name srv topic_id hlookup hid
    rw [hannounced]
    rw [hservices] at hlookup
    rw [htopicId] at hid
    exact h.services kind name srv topic_id hlookup hid

/-- A new endpoint has no id yet. -/
theorem Creates.keepsAnnounced {kind : ServiceKind} {topic_info : TopicInfo} {constructed : Bool}
    (hcreates : Creates kind topic_info s s' constructed) (hheld : s.Held) (h : s.Announced) :
    s'.Announced := by
  refine ⟨?_, ?_⟩
  · rw [hcreates.topics.subscribers, hcreates.topics.announced]
    exact h.subscribers
  · intro other name srv topic_id hlookup hid
    rw [hcreates.topics.announced]
    have hold : (s.services other).lookup name = some srv →
        topic_id = -1 ∨ topic_id ∈ s.announced := by
      intro hlookup
      rw [hcreates.topicId other srv (hheld.made other name srv hlookup)] at hid
      exact h.services other name srv topic_id hlookup hid
    by_cases hother : other = kind
    · subst hother
      rw [hcreates.services] at hlookup
      split at hlookup
      · rename_i hconstructed
        by_cases hname : name = topic_info.topic_name
        · rw [hname, AList.lookup_insert] at hlookup
          rw [← Option.some.inj hlookup, hcreates.unset hconstructed] at hid
          exact Or.inl (Option.some.inj hid).symm
        · rw [AList.lookup_insert_ne hname] at hlookup
          exact hold hlookup
      · exact hold hlookup
    · rw [hcreates.others other hother] at hlookup
      exact hold hlookup

theorem createService_announced (hheld : s.Held) (h : s.Announced) (kind : ServiceKind)
    (created : Bool) (topic_info : TopicInfo) :
    (s.createService kind created topic_info).1.Announced := by
  by_cases hmem : topic_info.topic_name ∈ s.services kind
  · rw [createService_present hmem]
    exact h
  · exact (createService_creates hmem created).keepsAnnounced hheld h

/-- The id that an endpoint gets is announced. -/
theorem SetsTopicId.keepsAnnounced {kind : ServiceKind} {topic_info : TopicInfo}
    (hsets : SetsTopicId kind topic_info s s') (h : s.Announced) : s'.Announced := by
  have hmem : ∀ topic_id, topic_id ∈ s'.announced ↔
      topic_id = topic_info.topic_id ∨ topic_id ∈ s.announced := by
    intro topic_id
    rw [hsets.announced]
    exact AList.mem_insert _
  refine ⟨?_, ?_⟩
  · intro topic_id sub hlookup
    rw [hsets.subscribers] at hlookup
    exact (hmem _).mpr (Or.inr (h.subscribers topic_id sub hlookup))
  · intro other name srv topic_id hlookup hid
    rw [hsets.services] at hlookup
    rw [hsets.topicId] at hid
    split at hid
    · obtain ⟨_, -, rfl⟩ := Option.map_eq_some_iff.mp hid
      exact Or.inr ((hmem _).mpr (Or.inl rfl))
    · exact (h.services other name srv topic_id hlookup hid).imp_right
        fun hannounced => (hmem _).mpr (Or.inr hannounced)

theorem setupServiceSubscriber_announced (hheld : s.Held) (h : s.Announced) (kind : ServiceKind)
    (created : Bool) (topic_info : TopicInfo) :
    (s.setupServiceSubscriber kind created topic_info).Announced := by
  have hcreate := createService_announced hheld h kind created topic_info
  cases hconstructed : (s.createService kind created topic_info).2 with
  | true => exact (setupServiceSubscriber_sets hconstructed).keepsAnnounced hcreate
  | false =>
    rw [setupServiceSubscriber_thrown hconstructed]
    exact hcreate

theorem setupSubscriber_announced (h : s.Announced) (topic_info : TopicInfo) :
    (s.setupSubscriber true topic_info).Announced := by
  refine ⟨?_, ?_⟩
  · intro topic_id sub hlookup
    refine (AList.mem_insert _).mpr ?_
    by_cases hid : topic_id = topic_info.topic_id
    · subst hid
      have hsub := (AList.lookup_insert s.subscribers).symm.trans hlookup
      rw [← Option.some.inj hsub]
      exact Or.inl rfl
    · have hsub := (AList.lookup_insert_ne hid).symm.trans hlookup
      exact Or.inr (h.subscribers topic_id sub hsub)
  · intro kind name srv topic_id hlookup hid
    have hold := h.services kind name srv topic_id (by cases kind <;> exact hlookup)
      (by cases kind <;> exact hid)
    exact hold.imp_right fun hannounced => (AList.mem_insert _).mpr (Or.inr hannounced)

/-- The servers may change otherwise. -/
theorem topicId_congr (hclients : s'.clients = s.clients)
    (hservers : ∀ srv : Nat, s'.servers[srv]?.map ServiceServer.topic_id =
      s.servers[srv]?.map ServiceServer.topic_id) (kind : ServiceKind) (srv : Nat) :
    s'.topicId kind srv = s.topicId kind srv := by
  cases kind with
  | client =>
    unfold topicId
    rw [hclients]
  | server => exact hservers srv

theorem handleResponse_announced (h : s.Announced) (stream : List UInt8) (srv : Nat) :
    (s.handleResponse stream srv).Announced := by
  have hsame : ∀ server : ServiceServer,
      (server.responseHandle stream).topic_id = server.topic_id := by
    intro server
    unfold ServiceServer.responseHandle
    dsimp only
    split_ifs <;> rfl
  refine h.congr rfl rfl (funext fun kind => by cases kind <;> rfl) (topicId_congr rfl fun i => ?_)
  show (s.servers.modify srv _)[i]?.map _ = _
  rw [List.getElem?_modify]
  cases s.servers[i]? with
  | none => rfl
  | some server =>
    refine congrArg some ?_
    split
    · exact hsame server
    · rfl

theorem startRequest_announced (h : s.Announced) (srv : Nat) (request : List UInt8) :
    (s.startRequest srv request).Announced := by
  unfold startRequest
  split
  · exact h
  · rename_i server hserver
    split
    · refine h.congr rfl rfl (funext fun kind => by cases kind <;> rfl)
        (topicId_congr rfl fun i => ?_)
      show (s.servers.set srv _)[i]?.map _ = _
      by_cases hi : srv = i
      · subst hi
        rw [List.getElem?_set_self (List.getElem?_eq_some_iff.mp hserver).1, hserver]
        rfl
      · rw [List.getElem?_set_ne hi]
    · exact h.congr rfl rfl (funext fun kind => by cases kind <;> rfl)
        (topicId_congr rfl fun _ => rfl)

theorem Effect.announced {st : Step} (heffect : Effect deserialize s st s') (hheld : s.Held)
    (h : s.Announced) : s'.Announced := by
  have hframe : ∀ s' : Registry, s'.subscribers = s.subscribers → s'.announced = s.announced →
      s'.service_clients = s.service_clients → s'.service_servers = s.service_servers →
      s'.clients = s.clients → s'.servers = s.servers → s'.Announced := by
    intro s' hsubscribers hannounced hclients hservers hmade hmade'
    refine h.congr hsubscribers hannounced (funext fun kind => ?_) fun kind srv => ?_
    · cases kind with
      | client => exact hclients
      | server => exact hservers
    · unfold topicId
      rw [hmade, hmade']
  cases heffect with
  | none => exact h
  | setupPublisher =>
    unfold Registry.setupPublisher
    split
    · exact hframe _ rfl rfl rfl rfl rfl rfl
    · exact h
  | setupSubscriber topic_info =>
    rename_i topic_id stream outside
    cases outside.created with
    | true => exact setupSubscriber_announced h topic_info
    | false => exact h
  | setupServicePublisher kind => exact createService_announced hheld h kind _ _
  | setupServiceSubscriber kind => exact setupServiceSubscriber_announced hheld h kind _ _
  | handleTime => exact hframe _ rfl rfl rfl rfl rfl rfl
  | handleClient =>
    unfold Registry.handleClient
    split
    · exact h
    · exact hframe _ rfl rfl rfl rfl rfl rfl
  | handleResponse srv => exact handleResponse_announced h _ srv
  | requestTopics => exact hframe _ rfl rfl rfl rfl rfl rfl
  | rosMessage => exact hframe _ rfl rfl rfl rfl rfl rfl
  | rosRequest => exact startRequest_announced h _ _
  | stop hactive =>
    rw [Registry.stop, if_pos hactive]
    refine ⟨?_, ?_⟩
    · intro topic_id sub hlookup
      cases hlookup
    · intro kind name srv topic_id hlookup
      cases kind <;> cases hlookup
  | start => exact hframe _ rfl rfl rfl rfl rfl rfl

/-- The id of an endpoint in a table is announced, once it has been set. -/
theorem Announced.endpoint (h : s.Announced) {kind : ServiceKind} {name : String} {srv : Nat}
    {topic_id : UInt16} (hlookup : (s.services kind).lookup name = some srv)
    (hid : s.topicId kind srv = some topic_id) (hset : s.topicId kind srv ≠ some (-1)) :
    topic_id ∈ s.announced := by
  refine (h.services kind name srv topic_id hlookup hid).resolve_left ?_
  intro heq
  subst heq
  exact hset hid

/-- What the entries of `callbacks_` send. -/
theorem callOutgoing_addressed {id : UInt16} {handler : Handler} {outside : Outside}
    {message : List UInt8} {topic_id : UInt16} (hheld : s.Held) (h : s.Announced)
    (hentry : s.callbacks.lookup id = some handler)
    (huses : ∀ srv, handler = .serviceClient srv → s.topicId .client srv ≠ some (-1))
    (hout : s.callOutgoing outside handler = some (message, topic_id)) :
    topic_id.toNat ∈ ownIds ∨ topic_id ∈ s.announced := by
  cases handler with
  | handleTime =>
    obtain ⟨-, rfl⟩ := Prod.mk.inj (Option.some.inj hout)
    exact Or.inl (by decide)
  | serviceClient srv =>
    obtain ⟨client, hclient, hout⟩ := Option.bind_eq_some_iff.mp hout
    rw [ServiceClient.handle] at hout
    split at hout
    · cases hout
    · obtain ⟨response, -, heq⟩ := Option.map_eq_some_iff.mp hout
      obtain ⟨-, rfl⟩ := Prod.mk.inj heq
      obtain ⟨name, hname⟩ := hheld.bound .client id srv hentry
      refine Or.inr (h.endpoint hname ?_ (huses srv rfl))
      rw [topicId, hclient]
      rfl
  | _ => cases hout

/-- What a server sends that is stored under the name that its converter advertises. -/
theorem requestOutgoing_addressed {converter : Converter} {request message : List UInt8}
    {topic_id : UInt16} (h : s.Announced)
    (huses : ∀ name srv, converter = ⟨some name, some srv⟩ →
      s.service_servers.lookup name = some srv ∧ s.topicId .server srv ≠ some (-1))
    (hout : s.requestOutgoing request converter = some (message, topic_id)) :
    topic_id ∈ s.announced := by
  obtain ⟨_ | name, _ | srv⟩ := converter
  · cases hout
  · cases hout
  · cases hout
  · rw [requestOutgoing] at hout
    split at hout
    · obtain ⟨server, hserver, heq⟩ := Option.map_eq_some_iff.mp hout
      obtain ⟨-, rfl⟩ := Prod.mk.inj heq
      obtain ⟨hstored, hset⟩ := huses name srv rfl
      have hentry : (s.services .server).lookup name = some srv := hstored
      refine h.endpoint hentry ?_ hset
      rw [topicId, hserver]
      rfl
    · cases hout

/-- What is handed over goes to an id of the host's own, or to one that is announced. -/
theorem outgoing_addressed {st : Step} {message : List UInt8} {topic_id : UInt16} (hheld : s.Held)
    (h : s.Announced) (huses : s.usesConfigured st = true)
    (hout : s.outgoing st = some (message, topic_id)) :
    topic_id.toNat ∈ ownIds ∨ topic_id ∈ s.announcedFor st := by
  unfold outgoing at hout
  split at hout
  case isFalse => cases hout
  cases st with
  | message id stream outside =>
    rw [handed] at hout
    split at hout
    · obtain ⟨handler, hentry, hout⟩ := Option.bind_eq_some_iff.mp hout
      rw [usesConfigured, hentry] at huses
      refine callOutgoing_addressed hheld h hentry ?_ hout
      intro srv hsrv
      subst hsrv
      simpa using huses
    · cases hout
  | requestTopics =>
    rw [handed] at hout
    split at hout
    · obtain ⟨-, rfl⟩ := Prod.mk.inj (Option.some.inj hout)
      exact Or.inl (by decide)
    · cases hout
  | rosMessage id ros =>
    obtain ⟨sub, hsub, heq⟩ := Option.map_eq_some_iff.mp hout
    obtain ⟨-, rfl⟩ := Prod.mk.inj heq
    exact Or.inr (h.subscribers id sub hsub)
  | rosRequest service_type request =>
    obtain ⟨converter, hconverter, hout⟩ := Option.bind_eq_some_iff.mp hout
    rw [usesConfigured, hconverter] at huses
    refine Or.inr (requestOutgoing_addressed h ?_ hout)
    intro name srv hsrv
    subst hsrv
    simpa using huses
  | stop =>
    rw [handed] at hout
    split at hout
    · obtain ⟨-, rfl⟩ := Prod.mk.inj (Option.some.inj hout)
      exact Or.inl (by decide)
    · cases hout
  | start =>
    rw [handed] at hout
    split at hout
    · cases hout
    · obtain ⟨-, rfl⟩ := Prod.mk.inj (Option.some.inj hout)
      exact Or.inl (by decide)

theorem new_announced (types : List String) (timeout : Int) :
    (Registry.new types timeout).Announced := by
  refine ⟨?_, ?_⟩
  · intro topic_id sub hlookup
    cases hlookup
  · intro kind name srv topic_id hlookup
    cases kind <;> cases hlookup

/-- A session whose steps use configured endpoints sends under its own ids and under those
that the device has announced. -/
theorem addressed_of_usesConfigured (types : List String) (timeout : Int) {steps : List Step}
    (huses : Throughout (step deserialize) (fun s st => s.usesConfigured st = true)
      (Registry.new types timeout) steps) :
    Always (step deserialize) (fun s => ∀ w ∈ s.written, w.Addressed)
      (Registry.new types timeout) steps := by
  have hinv : Always (step deserialize)
      (fun s => (s.Held ∧ s.Announced) ∧ ∀ w ∈ s.written, w.Addressed)
      (Registry.new types timeout) steps := by
    refine Always.of_throughout ⟨⟨new_held types timeout, new_announced types timeout⟩, nofun⟩ ?_
      huses
    rintro s st ⟨⟨hheld, hannounced⟩, hwritten⟩ huses
    have heffect := step_effect deserialize s st
    refine ⟨⟨heffect.held hheld, heffect.announced hheld hannounced⟩, fun w hw => ?_⟩
    rw [(step_sends deserialize s st).written] at hw
    rcases List.mem_append.mp hw with hold | hnew
    · exact hwritten w hold
    · obtain ⟨message, topic_id, hout, -, rfl⟩ := mem_framesOf.mp hnew
      have htopic := Wire.topicOf_encode topic_id.toNat_lt message
      rcases outgoing_addressed hheld hannounced huses hout with hown | hmem
      · exact Or.inl (htopic.symm ▸ hown)
      · exact Or.inr ⟨topic_id, hmem, htopic⟩
  exact hinv.mono fun _ h => h.2

end Announced

/-- The setup frames of a service that the device calls. -/
def pingSetup (stream : List UInt8) : Option TopicInfo :=
  if stream = [0] then some ⟨125, "/ping", "std_srvs/srv/Trigger", 512⟩
  else if stream = [1] then some ⟨100, "/ping", "std_srvs/srv/Trigger", 512⟩
  else none

/-- The device sets up a client with both frames and calls the service. -/
def pingSteps : List Step :=
  [.start, .message 4 [0] ⟨true, none, []⟩, .message 5 [1] ⟨true, none, []⟩,
    .message 125 [] ⟨true, some [7], []⟩]

/-- The answer goes to the id of the subscriber. -/
theorem pingSteps_addressed :
    (∃ w ∈ (run (step pingSetup) (Registry.new ["std_srvs/srv/Trigger"] 2000) pingSteps).written,
        Wire.topicOf w.frame = 100) ∧
      Always (step pingSetup) (fun s => ∀ w ∈ s.written, w.Addressed)
        (Registry.new ["std_srvs/srv/Trigger"] 2000) pingSteps := by
  refine ⟨?_, addressed_of_usesConfigured ["std_srvs/srv/Trigger"] 2000 ?_⟩
  · have hwritten : (run (step pingSetup) (Registry.new ["std_srvs/srv/Trigger"] 2000)
        pingSteps).written.map Written.frame = [Wire.encode 0 [], Wire.encode 100 [7]] := by
      decide
    obtain ⟨w, hw, hframe⟩ := List.mem_map.mp
      (hwritten ▸ List.mem_cons_of_mem _ (List.mem_singleton_self _))
    refine ⟨w, hw, ?_⟩
    rw [hframe]
    decide
  · simp only [pingSteps, throughout_cons]
    exact ⟨by decide, by decide, by decide, by decide, throughout_nil⟩

/-- Where the setup frame of the subscriber is lost, the answer goes to the id 65535. -/
theorem lostSetup_not_addressed :
    ¬ ∀ (deserialize : List UInt8 → Option TopicInfo) (types : List String) (timeout : Int)
      (steps : List Step), Always (step deserialize) (fun s => ∀ w ∈ s.written, w.Addressed)
        (Registry.new types timeout) steps := by
  intro h
  have hall := (h pingSetup ["std_srvs/srv/Trigger"] 2000
    [.start, .message 4 [0] ⟨true, none, []⟩, .message 125 [] ⟨true, some [7], []⟩]).last
  have hwritten : (run (step pingSetup) (Registry.new ["std_srvs/srv/Trigger"] 2000)
      [.start, .message 4 [0] ⟨true, none, []⟩,
        .message 125 [] ⟨true, some [7], []⟩]).written.map (fun w => (w.frame, w.announced.keys)) =
      [(Wire.encode 0 [], []), (Wire.encode 65535 [7], [])] := by
    decide
  obtain ⟨w, hw, hpair⟩ := List.mem_map.mp
    (hwritten ▸ List.mem_cons_of_mem _ (List.mem_singleton_self _))
  obtain ⟨hframe, hkeys⟩ := Prod.mk.inj hpair
  rcases hall w hw with hown | ⟨topic_id, hmem, -⟩
  · rw [hframe] at hown
    revert hown
    decide
  · rw [AList.mem_keys, hkeys] at hmem
    cases hmem

/-! ## Buffer sizes -/

/-- `write_message` throws for the payload, and `read_body` catches the exception. -/
def isDropped (thread : Thread) (message : List UInt8) : Bool :=
  thread == .io && 65527 < message.length && message.length < 65536

/-- What the step hands to `write_message` is no longer than the buffer that was announced
for its id, or is dropped, and the step calls no server that is gone. -/
def withinBuffers (s : Registry) (st : Step) : Bool :=
  match s.outgoing st with
  | none => (s.callsDestroyed st).isNone
  | some (message, topic_id) =>
    match (s.announcedFor st).lookup topic_id with
    | none => true
    | some buffer_size =>
      (message.length : Int) ≤ buffer_size.toInt || isDropped st.thread message

/-- Nothing that was sent was longer than the buffer that was announced for it, and no
payload that was longer has led to a fault. -/
structure RespectsBuffers (s : Registry) : Prop where
  written : ∀ w ∈ s.written, w.Fits
  faults : ∀ fault ∈ s.faults, fault.Fits

/-- The faults of a payload: it is too long for a frame, and it is not dropped. -/
theorem mem_writeFaults {thread : Thread} {message : List UInt8} {topic_id : UInt16}
    {announced : AList fun _ : UInt16 => Int32} {fault : Fault} :
    fault ∈ writeFaults thread message topic_id announced ↔
      65527 < message.length ∧ isDropped thread message = false ∧
        fault = if message.length < 65536 then .thrown ⟨message.length, topic_id, announced⟩
          else .endless thread ⟨message.length, topic_id, announced⟩ := by
  unfold writeFaults isDropped
  rcases Nat.lt_or_ge 65527 message.length with hlong | hshort
  · have hbuffer : messageBuffer message topic_id.toNat = none := by
      cases hframe : messageBuffer message topic_id.toNat with
      | none => rfl
      | some frame =>
        have hlength := ((messageBuffer_eq_some_iff topic_id.toNat_lt).mp hframe).1
        omega
    rw [hbuffer]
    by_cases hends : message.length < 65536
    · rw [checksum, if_pos hends]
      cases thread <;> simp [hlong, hends]
    · rw [checksum, if_neg hends]
      cases thread <;> simp [hlong, hends]
  · rw [messageBuffer_eq hshort topic_id.toNat_lt, checksum, if_pos (by omega)]
    cases thread <;> simp [Nat.not_lt.mpr hshort]

/-- A payload that is dropped, or not too long for a frame, leads to no fault. -/
theorem writeFaults_eq_nil {thread : Thread} {message : List UInt8}
    (h : message.length ≤ 65527 ∨ isDropped thread message = true) (topic_id : UInt16)
    (announced : AList fun _ : UInt16 => Int32) :
    writeFaults thread message topic_id announced = [] := by
  refine List.eq_nil_iff_forall_not_mem.mpr fun fault hfault => ?_
  obtain ⟨hlong, hdropped, -⟩ := mem_writeFaults.mp hfault
  rcases h with hshort | h
  · omega
  · rw [h] at hdropped
    cases hdropped

/-- The frame and the faults of a payload fit if and only if the payload is within the
buffer, or is dropped. -/
theorem payload_fits_iff (thread : Thread) (message : List UInt8) (topic_id : UInt16)
    (announced : AList fun _ : UInt16 => Int32) :
    ((∀ w ∈ framesOf announced (some (message, topic_id)), w.Fits) ∧
        ∀ fault ∈ writeFaults thread message topic_id announced, fault.Fits) ↔
      ∀ buffer_size, announced.lookup topic_id = some buffer_size →
        (message.length : Int) ≤ buffer_size.toInt ∨ isDropped thread message = true := by
  constructor
  · rintro ⟨hframes, hfaults⟩ buffer_size hsize
    rcases Nat.lt_or_ge 65527 message.length with hlong | hshort
    · cases hdropped : isDropped thread message with
      | true => exact Or.inr rfl
      | false =>
        have hfits := hfaults _ (mem_writeFaults.mpr ⟨hlong, hdropped, rfl⟩)
        refine Or.inl ?_
        split at hfits
        · exact hfits buffer_size hsize
        · exact hfits buffer_size hsize
    · have hfits := hframes _ (mem_framesOf.mpr ⟨message, topic_id, rfl, hshort, rfl⟩) topic_id
        buffer_size hsize (Wire.topicOf_encode topic_id.toNat_lt message)
      rw [Wire.payloadOf_encode] at hfits
      exact Or.inl hfits
  · intro h
    constructor
    · intro w hw id buffer_size hsize hid
      obtain ⟨_, _, heq, hlength, rfl⟩ := mem_framesOf.mp hw
      obtain ⟨rfl, rfl⟩ := Prod.mk.inj (Option.some.inj heq)
      rw [Wire.topicOf_encode topic_id.toNat_lt] at hid
      obtain rfl := UInt16.toNat_inj.mp hid
      rw [Wire.payloadOf_encode]
      refine (h buffer_size hsize).resolve_right fun hdropped => ?_
      simp only [isDropped, Bool.and_eq_true, decide_eq_true_eq] at hdropped
      omega
    · intro fault hfault
      obtain ⟨-, hdropped, rfl⟩ := mem_writeFaults.mp hfault
      have hfits : Unwritten.Fits ⟨message.length, topic_id, announced⟩ :=
        fun buffer_size hsize => (h buffer_size hsize).resolve_right (by rw [hdropped]; decide)
      split
      · exact hfits
      · exact hfits

/-- The frames and the faults of a step fit if and only if it is within the buffers. -/
theorem sends_fits_iff (s : Registry) (st : Step) :
    ((∀ w ∈ framesOf (s.announcedFor st) (s.outgoing st), w.Fits) ∧
        ∀ fault ∈ s.failures st, fault.Fits) ↔ s.withinBuffers st = true := by
  unfold withinBuffers failures
  cases s.outgoing st with
  | none =>
    cases s.callsDestroyed st with
    | none => simp [framesOf]
    | some srv => simp [framesOf, Fault.Fits]
  | some handed =>
    obtain ⟨message, topic_id⟩ := handed
    rw [payload_fits_iff]
    dsimp only
    cases (s.announcedFor st).lookup topic_id with
    | none => simp
    | some buffer_size => simp

/-- A session respects the buffers of the device if and only if every payload that it hands
to `write_message` is within its buffer, or is dropped, and it calls no server that is gone. -/
theorem respects_iff_throughout (deserialize : List UInt8 → Option TopicInfo)
    (types : List String) (timeout : Int) (steps : List Step) :
    Always (step deserialize) RespectsBuffers (Registry.new types timeout) steps ↔
      Throughout (step deserialize) (fun s st => s.withinBuffers st = true)
        (Registry.new types timeout) steps := by
  refine always_iff_throughout (I := fun _ => True) trivial (fun _ _ _ => trivial)
    ⟨nofun, nofun⟩ ?_
  intro s st _ hrespects
  have hsends := step_sends deserialize s st
  rw [← sends_fits_iff]
  constructor
  · intro h
    refine ⟨fun w hw => h.written w ?_, fun fault hfault => h.faults fault ?_⟩
    · rw [hsends.written]
      exact List.mem_append_right _ hw
    · rw [hsends.faults]
      exact List.mem_append_right _ hfault
  · rintro ⟨hframes, hfaults⟩
    constructor
    · intro w hw
      rw [hsends.written] at hw
      exact (List.mem_append.mp hw).elim (hrespects.written w) (hframes w)
    · intro fault hfault
      rw [hsends.faults] at hfault
      exact (List.mem_append.mp hfault).elim (hrespects.faults fault) (hfaults fault)

/-- A subscriber with a buffer of two bytes. -/
def smallSetup (stream : List UInt8) : Option TopicInfo :=
  if stream = [0] then some ⟨100, "/led", "std_msgs/msg/Bool", 2⟩ else none

/-- A message of three bytes is written although the subscriber has room for two. -/
theorem longMessage_not_respected :
    ¬ ∀ (deserialize : List UInt8 → Option TopicInfo) (types : List String) (timeout : Int)
      (steps : List Step), Always (step deserialize) RespectsBuffers
        (Registry.new types timeout) steps := by
  intro h
  have hall := (h smallSetup [] 2000
    [.start, .message 1 [0] ⟨true, none, []⟩, .rosMessage 100 [1, 2, 3]]).last
  have hwritten : (run (step smallSetup) (Registry.new [] 2000)
      [.start, .message 1 [0] ⟨true, none, []⟩, .rosMessage 100 [1, 2, 3]]).written.map
        (fun w => (w.frame, w.announced.lookup 100)) =
      [(Wire.encode 0 [], none), (Wire.encode 100 [1, 2, 3], some 2)] := by
    decide
  obtain ⟨w, hw, hpair⟩ := List.mem_map.mp
    (hwritten ▸ List.mem_cons_of_mem _ (List.mem_singleton_self _))
  obtain ⟨hframe, hsize⟩ := Prod.mk.inj hpair
  have hfits := hall.written w hw 100 2 hsize (by rw [hframe]; decide)
  rw [hframe] at hfits
  revert hfits
  decide

end Registry

end Ros2Serial.Host
