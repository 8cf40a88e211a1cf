import Mathlib.Data.List.AList
import Ros2Serial.Host.Session
import Ros2Serial.Host.TopicHandlers

/-!
# The tables of a session

The setup handlers of `session.h` and what they keep: `callbacks_`,
`subscribers_`, `service_clients_`, `service_servers_`, and the converters of
`services_map_`, which the session shares with nobody but does not clear.

`step` is one event for the session as a whole: a message with a good checksum,
a message or a request from ROS, a stop or a start.

* A handler ends with `set_sync_timeout`, which stops the session where ROS has
  shut down.  That is a `stop` after the step.
* The requests for the topics that `countUnrecognised` sends are steps of their
  own.
* A server that is dropped from the tables stays in `servers`, for a converter
  may still be bound to it.  The object is gone, though, and a call of it is a
  fault.
* Two threads call `write_message`: that of the `io_service`, and that of
  `rclcpp::spin`, where no exception is caught.  Where a call does not return, or
  ends the node, the faults say so, and the thread takes no more steps.  The
  `io_service` runs the writes of both.
* `announced` and the copies of it in `written` and `faults` are not in the code.
  They record which topic ids the device has announced as a subscriber in this
  session, and the buffer size that it announced with them.
-/

namespace Ros2Serial.Host

/-! ## State -/

/-- The device announces a client or a server of a service. -/
inductive ServiceKind
  | client
  | server
  deriving DecidableEq, Repr

/-- What is bound to an entry of `callbacks_`. -/
inductive Handler
  | setupPublisher
  | setupSubscriber
  | handleLog
  | handleTime
  | setupServiceClientPublisher
  | setupServiceClientSubscriber
  | setupServiceServerPublisher
  | setupServiceServerSubscriber
  /-- `Publisher::handle`. -/
  | publisher
  /-- `ServiceClient::handle`. -/
  | serviceClient (srv : Nat)
  /-- `ServiceServer::response_handle`. -/
  | serviceServer (srv : Nat)
  deriving DecidableEq, Repr

/-- A frame that was handed to `write_buffer`, and what was announced then. -/
structure Written where
  frame : List UInt8
  announced : AList fun _ : UInt16 => Int32

/-- The threads of the node. -/
inductive Thread
  /-- `io_service_.run`. -/
  | io
  /-- `rclcpp::spin`. -/
  | ros
  deriving DecidableEq, Repr

/-- A call of `write_message` that did not return, and what was announced then. -/
structure Unwritten where
  length : Nat
  topic_id : UInt16
  announced : AList fun _ : UInt16 => Int32

/-- What the session does not recover from. -/
inductive Fault
  /-- The exception of `check_space` leaves `rclcpp::spin`, and the node ends. -/
  | thrown (call : Unwritten)
  /-- The loop of `checksum` does not end. -/
  | endless (thread : Thread) (call : Unwritten)
  /-- A converter calls a `ServiceServer` that is gone. -/
  | dangling (srv : Nat)

/-- A loop in the thread of ROS leaves the other one alone. -/
def Fault.sparesIo : Fault → Bool
  | .endless .ros _ => true
  | _ => false

structure Registry where
  active : Bool
  callbacks : AList fun _ : UInt16 => Handler
  subscribers : AList fun _ : UInt16 => Subscriber
  service_clients : AList fun _ : String => Nat
  service_servers : AList fun _ : String => Nat
  /-- `services_map_`. -/
  converters : AList fun _ : String => Converter
  /-- Every `ServiceClient` that was made. -/
  clients : List ServiceClient
  /-- Every `ServiceServer` that was made. -/
  servers : List ServiceServer
  services_no_response_timeout_ms : Int
  announced : AList fun _ : UInt16 => Int32
  written : List Written
  faults : List Fault

/-- What ROS does when a handler calls it. -/
structure Outside where
  /-- `create_generic_publisher` and its like do not throw. -/
  created : Bool
  /-- The serialized response of a service that is called, if it comes in time. -/
  answer : Option (List UInt8)
  /-- The serialized time. -/
  time : List UInt8
  deriving DecidableEq, Repr

/-- A session that was not started, with the types of its `services_map_`. -/
def Registry.new (types : List String) (timeout : Int) : Registry where
  active := false
  callbacks := ∅
  subscribers := ∅
  service_clients := ∅
  service_servers := ∅
  converters := types.foldr (fun type converters => converters.insert type Converter.new) ∅
  clients := []
  servers := []
  services_no_response_timeout_ms := timeout
  announced := ∅
  written := []
  faults := []

namespace Registry

/-- How `write_message` fails, if it does.  `read_body` catches the exception, and goes on. -/
def writeFaults (thread : Thread) (message : List UInt8) (topic_id : UInt16)
    (announced : AList fun _ : UInt16 => Int32) : List Fault :=
  let call : Unwritten := ⟨message.length, topic_id, announced⟩
  match checksum message, messageBuffer message topic_id.toNat, thread with
  | none, _, thread => [.endless thread call]
  | some _, none, .ros => [.thrown call]
  | some _, none, .io => []
  | some _, some _, _ => []

/-- `write_message`. -/
def writeMessage (thread : Thread) (message : List UInt8) (topic_id : UInt16) (s : Registry) :
    Registry :=
  { s with
    written := s.written ++ (messageBuffer message topic_id.toNat).toList.map fun frame =>
      { frame := frame, announced := s.announced }
    faults := s.faults ++ writeFaults thread message topic_id s.announced }

section Write

variable {thread : Thread} {message : List UInt8} {topic_id : UInt16} {s s' : Registry}

/-- A message for which there is a frame is written without a fault. -/
theorem writeMessage_faults (h : (messageBuffer message topic_id.toNat).isSome = true) :
    (s.writeMessage thread message topic_id).faults = s.faults := by
  obtain ⟨frame, hframe⟩ := Option.isSome_iff_exists.mp h
  obtain ⟨hlength, -⟩ := (messageBuffer_eq_some_iff topic_id.toNat_lt).mp hframe
  have hsum : checksum message = some (UInt8.ofNat (Bytes.byteSum message)) := if_pos (by omega)
  have hnone : writeFaults thread message topic_id s.announced = [] := by
    unfold writeFaults
    rw [hsum, hframe]
  show s.faults ++ writeFaults thread message topic_id s.announced = s.faults
  rw [hnone, List.append_nil]

/-- So is a short one. -/
theorem writeMessage_faults_short (h : message.length ≤ 65527) :
    (s.writeMessage thread message topic_id).faults = s.faults :=
  writeMessage_faults (by rw [messageBuffer_eq h topic_id.toNat_lt]; rfl)

end Write

/-! ## Setup handlers -/

/-- `setup_publisher`. -/
def setupPublisher (created : Bool) (topic_info : TopicInfo) (s : Registry) : Registry :=
  if created then { s with callbacks := s.callbacks.insert topic_info.topic_id .publisher } else s

/-- `setup_subscriber`. -/
def setupSubscriber (created : Bool) (topic_info : TopicInfo) (s : Registry) : Registry :=
  if created then
    { s with
      subscribers := s.subscribers.insert topic_info.topic_id (Subscriber.new topic_info)
      announced := s.announced.insert topic_info.topic_id topic_info.buffer_size }
  else s

/-- `new ServiceClient`, which is `none` where the constructor throws. -/
def newServiceClient (created : Bool) (topic_info : TopicInfo) (s : Registry) :
    Registry × Option Nat :=
  let found : Bool := topic_info.message_type ∈ s.converters
  if found && !created then (s, none)
  else
    ({ s with clients := s.clients ++ [ServiceClient.new topic_info found] },
      some s.clients.length)

/-- `new ServiceServer`.  The converter is bound to the object before the
constructor may throw. -/
def newServiceServer (created : Bool) (topic_info : TopicInfo) (s : Registry) :
    Registry × Option Nat :=
  let srv := s.servers.length
  let s := { s with servers := s.servers ++
    [ServiceServer.new topic_info buffer_max s.services_no_response_timeout_ms] }
  match s.converters.lookup topic_info.message_type with
  | none => (s, some srv)
  | some converter =>
    let converter := converter.startServer created topic_info.topic_name srv
    ({ s with converters := s.converters.insert topic_info.message_type converter },
      if created then some srv else none)

/-- `service_clients_` or `service_servers_`. -/
def services (s : Registry) : ServiceKind → AList fun _ : String => Nat
  | .client => s.service_clients
  | .server => s.service_servers

/-- The entries that a setup handler of a service makes for a new endpoint. -/
def register (kind : ServiceKind) (topic_info : TopicInfo) (srv : Nat) (s : Registry) : Registry :=
  match kind with
  | .client =>
    { s with
      service_clients := s.service_clients.insert topic_info.topic_name srv
      callbacks := s.callbacks.insert topic_info.topic_id (.serviceClient srv) }
  | .server =>
    { s with
      service_servers := s.service_servers.insert topic_info.topic_name srv
      callbacks := s.callbacks.insert topic_info.topic_id (.serviceServer srv) }

/-- What the setup handlers of a service begin with: the endpoint is made unless
the table has its name.  The flag is `false` where the constructor throws. -/
def createService (kind : ServiceKind) (created : Bool) (topic_info : TopicInfo) (s : Registry) :
    Registry × Bool :=
  if topic_info.topic_name ∈ s.services kind then (s, true)
  else
    let (s, srv) :=
      match kind with
      | .client => s.newServiceClient created topic_info
      | .server => s.newServiceServer created topic_info
    match srv with
    | none => (s, false)
    | some srv => (s.register kind topic_info srv, true)

/-- `setTopicId`, on the endpoint in the table. -/
def setTopicId (kind : ServiceKind) (topic_info : TopicInfo) (s : Registry) : Registry :=
  match kind, (s.services kind).lookup topic_info.topic_name with
  | .client, some srv =>
    { s with clients := s.clients.modify srv (ServiceClient.setTopicId topic_info.topic_id) }
  | .server, some srv =>
    { s with servers := s.servers.modify srv (ServiceServer.setTopicId topic_info.topic_id) }
  | _, none => s

/-- The setup handler for the publisher of a service. -/
def setupServicePublisher (kind : ServiceKind) (created : Bool) (topic_info : TopicInfo)
    (s : Registry) : Registry :=
  (s.createService kind created topic_info).1

/-- The setup handler for the subscriber of a service. -/
def setupServiceSubscriber (kind : ServiceKind) (created : Bool) (topic_info : TopicInfo)
    (s : Registry) : Registry :=
  let (s, constructed) := s.createService kind created topic_info
  if constructed then
    let s := s.setTopicId kind topic_info
    { s with announced := s.announced.insert topic_info.topic_id topic_info.buffer_size }
  else s

/-- `setup_service_client_publisher`. -/
def setupServiceClientPublisher : Bool → TopicInfo → Registry → Registry :=
  setupServicePublisher .client

/-- `setup_service_client_subscriber`. -/
def setupServiceClientSubscriber : Bool → TopicInfo → Registry → Registry :=
  setupServiceSubscriber .client

/-- `setup_service_server_publisher`. -/
def setupServiceServerPublisher : Bool → TopicInfo → Registry → Registry :=
  setupServicePublisher .server

/-- `setup_service_server_subscriber`. -/
def setupServiceServerSubscriber : Bool → TopicInfo → Registry → Registry :=
  setupServiceSubscriber .server

/-! ## The other handlers -/

/-- `handle_time`. -/
def handleTime (time : List UInt8) (s : Registry) : Registry :=
  s.writeMessage .io time (UInt16.ofNat TopicInfo.ID_TIME)

/-- `ServiceClient::handle`. -/
def handleClient (answer : Option (List UInt8)) (srv : Nat) (s : Registry) : Registry :=
  match s.clients[srv]?.bind (ServiceClient.handle answer) with
  | none => s
  | some (response, topic_id) => s.writeMessage .io response topic_id

/-- `ServiceServer::response_handle`. -/
def handleResponse (stream : List UInt8) (srv : Nat) (s : Registry) : Registry :=
  { s with servers := s.servers.modify srv (ServiceServer.responseHandle stream) }

/-- A setup handler, where its message can be deserialized. -/
def setup (topic_info : Option TopicInfo) (handler : TopicInfo → Registry → Registry)
    (s : Registry) : Registry :=
  match topic_info with
  | none => s
  | some topic_info => handler topic_info s

section Steps

variable (deserialize : List UInt8 → Option TopicInfo)

/-- The call of an entry of `callbacks_`. -/
def call (handler : Handler) (stream : List UInt8) (outside : Outside) (s : Registry) : Registry :=
  match handler with
  | .setupPublisher => s.setup (deserialize stream) (setupPublisher outside.created)
  | .setupSubscriber => s.setup (deserialize stream) (setupSubscriber outside.created)
  | .handleLog => s
  | .handleTime => s.handleTime outside.time
  | .setupServiceClientPublisher =>
    s.setup (deserialize stream) (setupServiceClientPublisher outside.created)
  | .setupServiceClientSubscriber =>
    s.setup (deserialize stream) (setupServiceClientSubscriber outside.created)
  | .setupServiceServerPublisher =>
    s.setup (deserialize stream) (setupServiceServerPublisher outside.created)
  | .setupServiceServerSubscriber =>
    s.setup (deserialize stream) (setupServiceServerSubscriber outside.created)
  | .publisher => s
  | .serviceClient srv => s.handleClient outside.answer srv
  | .serviceServer srv => s.handleResponse stream srv

/-! ## Steps -/

/-- `Subscriber::handle`, of the subscriber in the table. -/
def rosMessage (topic_id : UInt16) (message : List UInt8) (s : Registry) : Registry :=
  match s.subscribers.lookup topic_id with
  | none => s
  | some sub =>
    let (buffer, topic_id) := sub.handle message
    s.writeMessage .ros buffer topic_id

/-- The server is in the table, which keeps the object. -/
def isAlive (srv : Nat) (s : Registry) : Bool :=
  s.service_servers.entries.any fun entry => entry.2 == srv

/-- `service_callback` of a server, up to its loop.  The converter has a plain pointer to
the object. -/
def startRequest (srv : Nat) (request : List UInt8) (s : Registry) : Registry :=
  match s.servers[srv]? with
  | none => s
  | some server =>
    if s.isAlive srv then
      let (server, request, topic_id) := server.startRequest request
      writeMessage .ros request topic_id { s with servers := s.servers.set srv server }
    else { s with faults := s.faults ++ [.dangling srv] }

/-- `Converter::service_callback`, where the converter advertises a service. -/
def rosRequest (service_type : String) (request : List UInt8) (s : Registry) : Registry :=
  match s.converters.lookup service_type with
  | some { service_server := some _, callback := some srv } => s.startRequest srv request
  | _ => s

/-- `request_topics`. -/
def requestTopics (s : Registry) : Registry :=
  s.writeMessage .io [] (UInt16.ofNat TopicInfo.ID_PUBLISHER)

theorem requestTopics_faults (s : Registry) : s.requestTopics.faults = s.faults :=
  writeMessage_faults_short (by decide)

def stop (s : Registry) : Registry :=
  if s.active then
    writeMessage .io [0] (UInt16.ofNat TopicInfo.ID_TX_STOP)
      { s with
        active := false, callbacks := ∅, subscribers := ∅, service_clients := ∅
        service_servers := ∅, announced := ∅ }
  else s

theorem stop_faults (s : Registry) : s.stop.faults = s.faults := by
  rw [stop]
  split
  · exact writeMessage_faults_short (by decide)
  · rfl

/-- The entries of `callbacks_` that `start` makes. -/
def setupHandlers : List (Nat × Handler) :=
  [(TopicInfo.ID_PUBLISHER, .setupPublisher), (TopicInfo.ID_SUBSCRIBER, .setupSubscriber),
    (TopicInfo.ID_LOG, .handleLog), (TopicInfo.ID_TIME, .handleTime),
    (TopicInfo.ID_SERVICE_CLIENT + TopicInfo.ID_PUBLISHER, .setupServiceClientPublisher),
    (TopicInfo.ID_SERVICE_CLIENT + TopicInfo.ID_SUBSCRIBER, .setupServiceClientSubscriber),
    (TopicInfo.ID_SERVICE_SERVER + TopicInfo.ID_PUBLISHER, .setupServiceServerPublisher),
    (TopicInfo.ID_SERVICE_SERVER + TopicInfo.ID_SUBSCRIBER, .setupServiceServerSubscriber)]

def start (s : Registry) : Registry :=
  requestTopics
    { s with
      active := true
      callbacks := setupHandlers.foldl
        (fun callbacks entry => callbacks.insert (UInt16.ofNat entry.1) entry.2) s.callbacks }

theorem start_faults (s : Registry) : s.start.faults = s.faults := requestTopics_faults _

/-- What happens to a session. -/
inductive Step
  /-- `read_body` has a message with a good checksum. -/
  | message (topic_id : UInt16) (stream : List UInt8) (outside : Outside)
  /-- The threshold for unrecognised topics is exceeded. -/
  | requestTopics
  /-- A message on the ROS topic of the subscriber with this id. -/
  | rosMessage (topic_id : UInt16) (message : List UInt8)
  /-- A request on the service that the converter of this type advertises. -/
  | rosRequest (service_type : String) (request : List UInt8)
  | stop
  | start
  deriving DecidableEq, Repr

/-- The thread that takes the step. -/
def Step.thread : Step → Thread
  | .rosMessage _ _ | .rosRequest _ _ => .ros
  | _ => .io

/-- The thread goes on.  What ROS writes is sent by the other thread. -/
def runs (s : Registry) : Thread → Bool
  | .io => s.faults.all Fault.sparesIo
  | .ros => s.faults.isEmpty

theorem runs_congr {s s' : Registry} (h : s'.faults = s.faults) : s'.runs = s.runs := by
  funext thread
  cases thread <;> simp only [runs, h]

/-- What happens in a step, where it is possible. -/
def perform (s : Registry) : Step → Registry
  | .message topic_id stream outside =>
    if s.active then
      match s.callbacks.lookup topic_id with
      | none => s
      | some handler => s.call deserialize handler stream outside
    else s
  | .requestTopics => if s.active then s.requestTopics else s
  | .rosMessage topic_id message => s.rosMessage topic_id message
  | .rosRequest service_type request => s.rosRequest service_type request
  | .stop => s.stop
  | .start => if s.active then s else s.start

/-- A step, which does nothing where its thread does not get there. -/
def step (s : Registry) (st : Step) : Registry :=
  if s.runs st.thread then s.perform deserialize st else s

/-- In a session without a fault every step is taken. -/
theorem step_of_faults {s : Registry} (h : s.faults = []) (st : Step) :
    s.step deserialize st = s.perform deserialize st := by
  have hruns : s.runs st.thread = true := by
    cases st.thread <;> simp [runs, h]
  rw [step, if_pos hruns]

/-! ## What a step can do -/

/-- The setup handler for the publisher of a service. -/
def publisherHandler : ServiceKind → Handler
  | .client => .setupServiceClientPublisher
  | .server => .setupServiceServerPublisher

/-- The setup handler for the subscriber of a service. -/
def subscriberHandler : ServiceKind → Handler
  | .client => .setupServiceClientSubscriber
  | .server => .setupServiceServerSubscriber

/-- What a step can do, and when. -/
inductive Effect (s : Registry) : Step → Registry → Prop
  | none (st : Step) : Effect s st s
  | setupPublisher {topic_id : UInt16} {stream : List UInt8} {outside : Outside}
      (topic_info : TopicInfo) :
      Effect s (.message topic_id stream outside) (s.setupPublisher outside.created topic_info)
  | setupSubscriber {topic_id : UInt16} {stream : List UInt8} {outside : Outside}
      (topic_info : TopicInfo) :
      Effect s (.message topic_id stream outside) (s.setupSubscriber outside.created topic_info)
  | setupServicePublisher (kind : ServiceKind) {topic_id : UInt16} {stream : List UInt8}
      {outside : Outside} {topic_info : TopicInfo} (hactive : s.active = true)
      (hentry : s.callbacks.lookup topic_id = some (publisherHandler kind))
      (hinfo : deserialize stream = some topic_info) :
      Effect s (.message topic_id stream outside)
        (s.setupServicePublisher kind outside.created topic_info)
  | setupServiceSubscriber (kind : ServiceKind) {topic_id : UInt16} {stream : List UInt8}
      {outside : Outside} {topic_info : TopicInfo} (hactive : s.active = true)
      (hentry : s.callbacks.lookup topic_id = some (subscriberHandler kind))
      (hinfo : deserialize stream = some topic_info) :
      Effect s (.message topic_id stream outside)
        (s.setupServiceSubscriber kind outside.created topic_info)
  | handleTime {topic_id : UInt16} {stream : List UInt8} {outside : Outside}
      (hentry : s.callbacks.lookup topic_id = some .handleTime) :
      Effect s (.message topic_id stream outside) (s.handleTime outside.time)
  | handleClient {topic_id : UInt16} {stream : List UInt8} {outside : Outside} {srv : Nat}
      (hentry : s.callbacks.lookup topic_id = some (.serviceClient srv)) :
      Effect s (.message topic_id stream outside) (s.handleClient outside.answer srv)
  | handleResponse {topic_id : UInt16} {stream : List UInt8} {outside : Outside} (srv : Nat) :
      Effect s (.message topic_id stream outside) (s.handleResponse stream srv)
  | requestTopics : Effect s .requestTopics s.requestTopics
  | rosMessage {topic_id : UInt16} {sub : Subscriber}
      (hsub : s.subscribers.lookup topic_id = some sub) (message : List UInt8) :
      Effect s (.rosMessage topic_id message) (s.writeMessage .ros message sub.topic_id)
  | rosRequest {service_type : String} {converter : Converter} {name : String} {srv : Nat}
      (hconverter : s.converters.lookup service_type = some converter)
      (hname : converter.service_server = some name) (hsrv : converter.callback = some srv)
      (request : List UInt8) :
      Effect s (.rosRequest service_type request) (s.startRequest srv request)
  | stop (hactive : s.active = true) : Effect s .stop s.stop
  | start (hinactive : s.active = false) : Effect s .start s.start

/-- A setup handler does nothing, or has deserialized its message. -/
theorem setup_cases {P : Registry → Prop} {topic_info : Option TopicInfo}
    {handler : TopicInfo → Registry → Registry} {s : Registry} (hnone : P s)
    (hsome : ∀ info, topic_info = some info → P (handler info s)) :
    P (s.setup topic_info handler) := by
  cases topic_info with
  | none => exact hnone
  | some info => exact hsome info rfl

theorem call_effect {s : Registry} {topic_id : UInt16} {handler : Handler}
    (hactive : s.active = true) (hentry : s.callbacks.lookup topic_id = some handler)
    (stream : List UInt8) (outside : Outside) :
    Effect deserialize s (.message topic_id stream outside)
      (s.call deserialize handler stream outside) := by
  cases handler with
  | handleLog => exact .none _
  | publisher => exact .none _
  | handleTime => exact .handleTime hentry
  | serviceClient srv => exact .handleClient hentry
  | serviceServer srv => exact .handleResponse srv
  | setupPublisher => exact setup_cases (.none _) fun info _ => .setupPublisher info
  | setupSubscriber => exact setup_cases (.none _) fun info _ => .setupSubscriber info
  | setupServiceClientPublisher =>
    exact setup_cases (.none _) fun info hinfo =>
      .setupServicePublisher .client hactive hentry hinfo
  | setupServiceClientSubscriber =>
    exact setup_cases (.none _) fun info hinfo =>
      .setupServiceSubscriber .client hactive hentry hinfo
  | setupServiceServerPublisher =>
    exact setup_cases (.none _) fun info hinfo =>
      .setupServicePublisher .server hactive hentry hinfo
  | setupServiceServerSubscriber =>
    exact setup_cases (.none _) fun info hinfo =>
      .setupServiceSubscriber .server hactive hentry hinfo

theorem perform_effect (s : Registry) (st : Step) :
    Effect deserialize s st (s.perform deserialize st) := by
  cases st with
  | message topic_id stream outside =>
    rw [perform]
    split
    · rename_i hactive
      split
      · exact .none _
      · rename_i hentry
        exact call_effect deserialize hactive hentry stream outside
    · exact .none _
  | requestTopics =>
    rw [perform]
    split
    · exact .requestTopics
    · exact .none _
  | rosMessage topic_id message =>
    rw [perform, rosMessage]
    split
    · exact .none _
    · rename_i hsub
      exact .rosMessage hsub message
  | rosRequest service_type request =>
    rw [perform, rosRequest]
    split
    · rename_i hconverter
      exact .rosRequest hconverter rfl rfl request
    · exact .none _
  | stop =>
    rw [perform]
    by_cases hactive : s.active = true
    · exact .stop hactive
    · rw [stop, if_neg hactive]
      exact .none _
  | start =>
    rw [perform]
    split
    · exact .none _
    · rename_i hinactive
      exact .start (Bool.not_eq_true _ ▸ hinactive)

theorem step_effect (s : Registry) (st : Step) : Effect deserialize s st (s.step deserialize st) := by
  rw [step]
  split
  · exact perform_effect deserialize s st
  · exact .none _

end Steps

end Registry

end Ros2Serial.Host
