import Ros2Serial.Host.Endpoints
import Ros2Serial.Lib.Runs

/-!
# A session with all of its tables

`Session.lean` has the chain of reads of `session.h`, and `Registry.lean` the tables that
hold endpoints.  A `TableSession` has both, with the two tables that are left:
`publishers_`, and `topics_names_`, which is there for the log.

* `topics_names_[topic_id]` stands among the arguments of `RCLCPP_WARN`.  They are
  evaluated only where the logger is enabled for warnings, and then the operator enters
  an empty name for an id that the table does not have.
* What `deserialize_message` and the constructors of the endpoints throw is a
  `std::exception`.  It leaves the setup handler, except where the handler catches it, and
  `read_body` goes on.
* A read of Asio may end at any time and with any error, also after `stop` has closed the
  socket.
* Where `write_message` throws, the rest of the handler is left out, and where it does not
  return, the thread does not go on.

`step_proceeds` connects the two halves: whatever happens to the session, its `Registry`
takes steps of `Registry.step`.
-/

namespace Ros2Serial.Host

open Runs

/-! ## State -/

/-- `Publisher`: a ROS publisher of a topic. -/
structure Publisher where
  topic_name : String
  message_type : String
  deriving DecidableEq, Repr

/-- The constructor. -/
def Publisher.new (topic_info : TopicInfo) : Publisher where
  topic_name := topic_info.topic_name
  message_type := topic_info.message_type

structure TableSession where
  /-- `active_`, and the tables with endpoints. -/
  registry : Registry
  publishers : AList fun _ : UInt16 => Publisher
  topics_names : AList fun _ : UInt16 => String
  async_read_buffer : AsyncReadBuffer Continuation
  unrecognised_topics : Nat
  unrecognised_topic_retry_threshold : Int
  /-- What `rclcpp::ok()` returns. -/
  ok : Bool
  /-- `io_service_.stop()` was called. -/
  io_stopped : Bool

namespace TableSession

/-- The constructor, with the types of `services_map_` and the parameters. -/
def new (types : List String) (timeout threshold : Int) (ok : Bool) : Option TableSession :=
  (AsyncReadBuffer.new Continuation buffer_max).map fun buffer =>
    { registry := Registry.new types timeout, publishers := ∅, topics_names := ∅
      async_read_buffer := buffer, unrecognised_topics := 0
      unrecognised_topic_retry_threshold := threshold, ok := ok, io_stopped := false }

/-! ## Stopping -/

def stop (t : TableSession) : TableSession :=
  if t.registry.active then
    { t with registry := t.registry.stop, publishers := ∅, topics_names := ∅ }
  else t

def shutdown (t : TableSession) : TableSession := { t.stop with io_stopped := true }

/-- `set_sync_timeout`. -/
def setSyncTimeout (t : TableSession) : TableSession := if t.ok then t else t.shutdown

/-- `attempt_sync`, with `request_topics`. -/
def attemptSync (t : TableSession) : TableSession :=
  setSyncTimeout { t with registry := t.registry.requestTopics }

/-! ## Setup handlers -/

/-- `setup_publisher`.  It catches what the constructor throws. -/
def setupPublisher (created : Bool) (topic_info : TopicInfo) (t : TableSession) : TableSession :=
  if created then
    setSyncTimeout
      { t with
        registry := t.registry.setupPublisher created topic_info
        publishers := t.publishers.insert topic_info.topic_id (Publisher.new topic_info)
        topics_names := t.topics_names.insert topic_info.topic_id topic_info.topic_name }
  else t

/-- `setup_subscriber`.  It catches what the constructor throws, and goes on. -/
def setupSubscriber (created : Bool) (topic_info : TopicInfo) (t : TableSession) : TableSession :=
  setSyncTimeout { t with registry := t.registry.setupSubscriber created topic_info }

/-- What the setup handlers of a service begin with.  A new endpoint has its name entered
as well. -/
def createService (kind : ServiceKind) (created : Bool) (topic_info : TopicInfo)
    (t : TableSession) : TableSession × Bool :=
  let (registry, constructed) := t.registry.createService kind created topic_info
  let entered : Bool := topic_info.topic_name ∉ t.registry.services kind && constructed
  ({ t with
      registry := registry
      topics_names :=
        if entered then t.topics_names.insert topic_info.topic_id topic_info.topic_name
        else t.topics_names },
    constructed)

/-- The setup handler for the publisher of a service. -/
def setupServicePublisher (kind : ServiceKind) (created : Bool) (topic_info : TopicInfo)
    (t : TableSession) : TableSession :=
  let (t, constructed) := t.createService kind created topic_info
  if constructed then t.setSyncTimeout else t

/-- The setup handler for the subscriber of a service. -/
def setupServiceSubscriber (kind : ServiceKind) (created : Bool) (topic_info : TopicInfo)
    (t : TableSession) : TableSession :=
  let (t, constructed) := t.createService kind created topic_info
  if constructed then
    let registry := t.registry.setTopicId kind topic_info
    setSyncTimeout
      { t with registry :=
          { registry with
            announced := registry.announced.insert topic_info.topic_id topic_info.buffer_size } }
  else t

/-- A setup handler, where its message can be deserialized. -/
def setup (topic_info : Option TopicInfo) (handler : TopicInfo → TableSession → TableSession)
    (t : TableSession) : TableSession :=
  match topic_info with
  | none => t
  | some topic_info => handler topic_info t

/-- `handle_time`, whose last call is not reached if `write_message` throws, or does not
return. -/
def handleTime (time : List UInt8) (t : TableSession) : TableSession :=
  let t' := { t with registry := t.registry.handleTime time }
  if (messageBuffer time TopicInfo.ID_TIME).isSome then t'.setSyncTimeout else t'

section Steps

variable (deserialize : List UInt8 → Option TopicInfo)

/-- The call of an entry of `callbacks_`, with the `catch` around it. -/
def call (handler : Handler) (stream : List UInt8) (outside : Outside) (t : TableSession) :
    TableSession :=
  match handler with
  | .setupPublisher => t.setup (deserialize stream) (setupPublisher outside.created)
  | .setupSubscriber => t.setup (deserialize stream) (setupSubscriber outside.created)
  | .handleLog => t
  | .handleTime => t.handleTime outside.time
  | .setupServiceClientPublisher =>
    t.setup (deserialize stream) (setupServicePublisher .client outside.created)
  | .setupServiceClientSubscriber =>
    t.setup (deserialize stream) (setupServiceSubscriber .client outside.created)
  | .setupServiceServerPublisher =>
    t.setup (deserialize stream) (setupServicePublisher .server outside.created)
  | .setupServiceServerSubscriber =>
    t.setup (deserialize stream) (setupServiceSubscriber .server outside.created)
  | .publisher => t
  | .serviceClient srv => { t with registry := t.registry.handleClient outside.answer srv }
  | .serviceServer srv => { t with registry := t.registry.handleResponse stream srv }

/-! ## Receiving -/

/-- `read_failed`, where `read_sync_header` is given. -/
def readFailed (readSyncHeader : TableSession → TableSession) (error : ErrorCode)
    (t : TableSession) : TableSession :=
  if error = .no_buffer_space then readSyncHeader t else t.stop

/-- `async_read_buffer_.read`, with its calls of `read_failed`, down to a depth. -/
def readDepth : Nat → Nat → Continuation → TableSession → TableSession
  | depth, requested_bytes, callback, t =>
    let (buffer, error) := t.async_read_buffer.read requested_bytes (some callback)
    let t := { t with async_read_buffer := buffer }
    match error with
    | none => t
    | some error =>
      match depth with
      | 0 => t
      | depth + 1 => t.readFailed (readDepth depth 1 .readSyncFirst) error

/-- `async_read_buffer_.read`. -/
def read (requested_bytes : Nat) (callback : Continuation) (t : TableSession) : TableSession :=
  t.readDepth 2 requested_bytes callback

/-- `read_sync_header`. -/
def readSyncHeader (t : TableSession) : TableSession := t.read 1 .readSyncFirst

/-- `read_sync_first`. -/
def readSyncFirst (stream : SimpleCdr) (t : TableSession) : TableSession :=
  let (sync, _) := stream.getUint8
  if sync = 0xff then t.read 1 .readSyncSecond else t.readSyncHeader

/-- `read_sync_second`. -/
def readSyncSecond (stream : SimpleCdr) (t : TableSession) : TableSession :=
  let (sync, _) := stream.getUint8
  if sync = 0xfe then t.read 5 .readIdLength else t.readSyncHeader

/-- `read_id_length`. -/
def readIdLength (stream : SimpleCdr) (t : TableSession) : TableSession :=
  let (length, stream) := stream.getUint16
  let (length_checksum, stream) := stream.getUint8
  let csl := checksum16 length
  if length_checksum.toNat + csl.toNat ≠ 0xff then t.readSyncHeader
  else
    let (topic_id, _) := stream.getUint16
    t.read (length + 1) (.readBody topic_id)

/-- `topics_names_[topic_id]` among the arguments of `RCLCPP_WARN`. -/
def warnTopicName (enabled : Bool) (topic_id : UInt16) (t : TableSession) : TableSession :=
  if enabled && topic_id ∉ t.topics_names then
    { t with topics_names := t.topics_names.insert topic_id "" }
  else t

/-- The threshold for messages on topics that nobody has registered. -/
def countUnrecognised (t : TableSession) : TableSession :=
  if t.unrecognised_topic_retry_threshold > 0 then
    let t := { t with unrecognised_topics := t.unrecognised_topics + 1 }
    if (t.unrecognised_topics : Int) ≥ t.unrecognised_topic_retry_threshold then
      { t.attemptSync with unrecognised_topics := 0 }
    else t
  else t

/-- A message on a topic that nobody has registered.  The size of `topics_names_` is
compared with the id. -/
def unrecognised (enabled : Bool) (topic_id : Nat) (t : TableSession) : TableSession :=
  let t :=
    if t.topics_names.keys.length > topic_id then t.warnTopicName enabled (UInt16.ofNat topic_id)
    else t
  t.countUnrecognised

/-- A message with a good checksum: `callbacks_` is looked up. -/
def lookup (enabled : Bool) (outside : Outside) (topic_id : Nat) (payload : List UInt8)
    (t : TableSession) : TableSession :=
  match t.registry.callbacks.lookup (UInt16.ofNat topic_id) with
  | some handler => t.call deserialize handler payload outside
  | none => t.unrecognised enabled topic_id

/-- `read_body`.  Where a loop of `checksum` does not end, nothing else happens. -/
def readBody (enabled : Bool) (outside : Outside) (stream : SimpleCdr) (topic_id : Nat)
    (t : TableSession) : TableSession :=
  if !t.registry.active then t
  else
    match checksum stream.buffer with
    | none => t
    | some sum =>
      let msg_checksum := sum + checksum16 topic_id
      if msg_checksum ≠ 0xff then (t.warnTopicName enabled (UInt16.ofNat topic_id)).readSyncHeader
      else
        let t := t.lookup deserialize enabled outside topic_id
          (stream.buffer.take (stream.buffer.length - 1))
        if t.registry.runs .io then t.readSyncHeader else t

/-- A posted callback runs. -/
def resume (enabled : Bool) (outside : Outside) (stream : SimpleCdr) (t : TableSession) :
    Continuation → TableSession
  | .readSyncFirst => t.readSyncFirst stream
  | .readSyncSecond => t.readSyncSecond stream
  | .readIdLength => t.readIdLength stream
  | .readBody topic_id => t.readBody deserialize enabled outside stream topic_id

/-- The callback of an `async_read`, with `error_callback_`. -/
def completeRead (op : AsyncRead) (result : Except ErrorCode (List UInt8)) (t : TableSession) :
    TableSession :=
  let (buffer, error) := t.async_read_buffer.complete op result
  let t := { t with async_read_buffer := buffer }
  match error with
  | none => t
  | some error => t.readFailed readSyncHeader error

/-- `start`. -/
def start (t : TableSession) : TableSession :=
  readSyncHeader (setSyncTimeout { t with registry := t.registry.start })

/-! ## Steps -/

/-- What happens to a session. -/
inductive Step
  /-- Asio completes a read. -/
  | arrive (i : Nat) (bytes : List UInt8)
  /-- A read fails. -/
  | fail (i : Nat) (error : ErrorCode)
  /-- The next callback in the queue of the `io_service` runs.  The logger is enabled for
  warnings, or it is not. -/
  | run (enabled : Bool) (outside : Outside)
  /-- A message on the ROS topic of the subscriber with this id. -/
  | rosMessage (topic_id : UInt16) (message : List UInt8)
  /-- A request on the service that the converter of this type advertises. -/
  | rosRequest (service_type : String) (request : List UInt8)
  /-- The synchronisation timer expires, a write fails, or the owner stops the
  session. -/
  | stop
  /-- ROS shuts down. -/
  | interrupt
  /-- The owner starts the session, again after a stop. -/
  | start

/-- The thread that takes the step. -/
def Step.thread : Step → Thread
  | .rosMessage _ _ | .rosRequest _ _ => .ros
  | _ => .io

/-- A step, which does nothing where it is not possible. -/
def step (t : TableSession) (st : Step) : TableSession :=
  if t.io_stopped || !t.registry.runs st.thread then t
  else
    match st with
    | .arrive i bytes =>
      match t.async_read_buffer.pending[i]? with
      | none => t
      | some op =>
        if op.transferAtLeast ≤ bytes.length ∧ bytes.length ≤ op.headroom then
          t.completeRead op (.ok bytes)
        else t
    | .fail i error =>
      match t.async_read_buffer.pending[i]? with
      | none => t
      | some op => t.completeRead op (.error error)
    | .run enabled outside =>
      match t.async_read_buffer.next with
      | none => t
      | some (callback, bytes, buffer) =>
        resume deserialize enabled outside { buffer := bytes, offset := 0 }
          { t with async_read_buffer := buffer } callback
    | .rosMessage topic_id message =>
      { t with registry := t.registry.rosMessage topic_id message }
    | .rosRequest service_type request =>
      { t with registry := t.registry.rosRequest service_type request }
    | .stop => t.stop
    | .interrupt => { t with ok := false }
    | .start => if t.registry.active then t else t.start

end Steps

/-! ## Rules -/

section Rules

variable {P : TableSession → Prop} {t : TableSession}

/-- A read that is started changes the buffer, and may stop the session. -/
theorem readDepth_keeps (hbuffer : ∀ t buffer, P t → P { t with async_read_buffer := buffer })
    (hstop : ∀ t, P t → P t.stop) (h : P t) (depth n : Nat) (callback : Continuation) :
    P (t.readDepth depth n callback) := by
  induction depth generalizing n callback t with
  | zero =>
    rw [readDepth]
    dsimp only
    split <;> exact hbuffer t _ h
  | succ depth ih =>
    have hread := hbuffer t (t.async_read_buffer.read n (some callback)).1 h
    rw [readDepth]
    dsimp only
    split
    · exact hread
    · unfold readFailed
      split
      · exact ih hread 1 .readSyncFirst
      · exact hstop _ hread

/-- And so does a read that has ended, with its bytes or with an error. -/
theorem completeRead_keeps (hbuffer : ∀ t buffer, P t → P { t with async_read_buffer := buffer })
    (hstop : ∀ t, P t → P t.stop) (h : P t) (op : AsyncRead)
    (result : Except ErrorCode (List UInt8)) : P (t.completeRead op result) := by
  have hread := hbuffer t (t.async_read_buffer.complete op result).1 h
  unfold completeRead
  dsimp only
  split
  · exact hread
  · unfold readFailed
    split
    · exact readDepth_keeps hbuffer hstop hread 2 1 .readSyncFirst
    · exact hstop _ hread

/-- A message on a topic that nobody has registered is counted, may leave a name, and may lead
to a request of topics. -/
theorem unrecognised_keeps (hcount : ∀ t n, P t → P { t with unrecognised_topics := n })
    (hnames : ∀ t names, P t → P { t with topics_names := names })
    (hsync : ∀ t, P t → P t.attemptSync) (h : P t) (enabled : Bool) (topic_id : Nat) :
    P (t.unrecognised enabled topic_id) := by
  have hcounted : ∀ t, P t → P t.countUnrecognised := by
    intro t h
    have hnext := hcount t (t.unrecognised_topics + 1) h
    unfold countUnrecognised
    split
    · dsimp only
      split
      · exact hcount _ 0 (hsync _ hnext)
      · exact hnext
    · exact h
  unfold unrecognised
  dsimp only
  split
  · unfold warnTopicName
    split
    · exact hcounted _ (hnames t _ h)
    · exact hcounted t h
  · exact hcounted t h

end Rules

/-! ## What a step keeps -/

/-- The read buffer does not shrink, and the tables with endpoints take steps of their
own. -/
structure Proceeds (deserialize : List UInt8 → Option TopicInfo) (t t' : TableSession) : Prop where
  capacity : t.async_read_buffer.mem.length ≤ t'.async_read_buffer.mem.length
  registry : ∃ steps, t'.registry = Runs.run (Registry.step deserialize) t.registry steps

section Proceeds

variable {deserialize : List UInt8 → Option TopicInfo} {t t' t'' : TableSession}

theorem Proceeds.refl (t : TableSession) : Proceeds deserialize t t :=
  ⟨Nat.le_refl _, [], rfl⟩

theorem Proceeds.trans (h : Proceeds deserialize t t') (h' : Proceeds deserialize t' t'') :
    Proceeds deserialize t t'' := by
  obtain ⟨steps, hsteps⟩ := h.registry
  obtain ⟨more, hmore⟩ := h'.registry
  refine ⟨Nat.le_trans h.capacity h'.capacity, steps ++ more, ?_⟩
  rw [hmore, hsteps, Runs.run_append]

/-- Another buffer of at least the same size. -/
theorem Proceeds.of_buffer (hregistry : t'.registry = t.registry)
    (hcapacity : t.async_read_buffer.mem.length ≤ t'.async_read_buffer.mem.length) :
    Proceeds deserialize t t' :=
  ⟨hcapacity, [], hregistry⟩

/-- One step of the tables, with the same buffer. -/
theorem Proceeds.of_step (st : Registry.Step)
    (hregistry : t'.registry = t.registry.step deserialize st)
    (hbuffer : t'.async_read_buffer = t.async_read_buffer) : Proceeds deserialize t t' :=
  ⟨Nat.le_of_eq (by rw [hbuffer]), [st], hregistry⟩

/-- The thread of the `io_service` goes on from the one to the other. -/
def Continues (deserialize : List UInt8 → Option TopicInfo) (t t' : TableSession) : Prop :=
  t.registry.runs .io = true → Proceeds deserialize t t' ∧ t'.registry.runs .io = true

theorem Continues.refl (t : TableSession) : Continues deserialize t t :=
  fun hruns => ⟨.refl t, hruns⟩

theorem Continues.trans (h : Continues deserialize t t') (h' : Continues deserialize t' t'') :
    Continues deserialize t t'' := by
  intro hruns
  obtain ⟨hfirst, hruns'⟩ := h hruns
  obtain ⟨hmore, hruns''⟩ := h' hruns'
  exact ⟨hfirst.trans hmore, hruns''⟩

theorem Continues.of_buffer (hregistry : t'.registry = t.registry)
    (hcapacity : t.async_read_buffer.mem.length ≤ t'.async_read_buffer.mem.length) :
    Continues deserialize t t' :=
  fun hruns => ⟨.of_buffer hregistry hcapacity, by rw [hregistry, hruns]⟩

/-- A step without a fault. -/
theorem Continues.of_perform (st : Registry.Step) (hio : st.thread = .io)
    (hregistry : t'.registry = t.registry.perform deserialize st)
    (hfaults : t'.registry.faults = t.registry.faults)
    (hbuffer : t'.async_read_buffer = t.async_read_buffer) : Continues deserialize t t' := by
  intro hruns
  refine ⟨.of_step st ?_ hbuffer, by rw [Registry.runs_congr hfaults, hruns]⟩
  rw [hregistry, Registry.step, hio, if_pos hruns]

theorem stop_continues (t : TableSession) : Continues deserialize t t.stop := by
  unfold stop
  split
  · exact .of_perform .stop rfl rfl (Registry.stop_faults t.registry) rfl
  · exact .refl t

theorem shutdown_continues (t : TableSession) : Continues deserialize t t.shutdown :=
  (stop_continues t).trans (.of_buffer rfl (Nat.le_refl _))

theorem setSyncTimeout_continues (t : TableSession) : Continues deserialize t t.setSyncTimeout := by
  unfold setSyncTimeout
  split
  · exact .refl t
  · exact shutdown_continues t

theorem attemptSync_continues (hactive : t.registry.active = true) :
    Continues deserialize t t.attemptSync := by
  have hrequest : t.registry.requestTopics = t.registry.perform deserialize .requestTopics := by
    rw [Registry.perform, if_pos hactive]
  have hfirst : Continues deserialize t { t with registry := t.registry.requestTopics } :=
    .of_perform .requestTopics rfl hrequest (Registry.requestTopics_faults t.registry) rfl
  exact hfirst.trans (setSyncTimeout_continues _)

/-- `t'` is the session after a handler, which may have called `set_sync_timeout` last. -/
def Ends (t : TableSession) (registry : Registry) (t' : TableSession) : Prop :=
  ∃ ended : TableSession, ended.registry = registry ∧
    ended.async_read_buffer = t.async_read_buffer ∧
      (t' = ended ∨ registry.faults = t.registry.faults ∧ t' = ended.setSyncTimeout)

theorem Ends.of_eq {registry : Registry} (hregistry : t'.registry = registry)
    (hbuffer : t'.async_read_buffer = t.async_read_buffer) : t.Ends registry t' :=
  ⟨t', hregistry, hbuffer, Or.inl rfl⟩

theorem Ends.of_sync {registry : Registry} (hregistry : t'.registry = registry)
    (hfaults : registry.faults = t.registry.faults)
    (hbuffer : t'.async_read_buffer = t.async_read_buffer) : t.Ends registry t'.setSyncTimeout :=
  ⟨t', hregistry, hbuffer, Or.inr ⟨hfaults, rfl⟩⟩

theorem setupServicePublisher_ends (kind : ServiceKind) (created : Bool) (topic_info : TopicInfo)
    (t : TableSession) :
    t.Ends (t.registry.setupServicePublisher kind created topic_info)
      (t.setupServicePublisher kind created topic_info) := by
  unfold setupServicePublisher
  dsimp only
  split
  · exact .of_sync rfl (Registry.createService_faults kind created topic_info t.registry) rfl
  · exact .of_eq rfl rfl

theorem setupServiceSubscriber_ends (kind : ServiceKind) (created : Bool) (topic_info : TopicInfo)
    (t : TableSession) :
    t.Ends (t.registry.setupServiceSubscriber kind created topic_info)
      (t.setupServiceSubscriber kind created topic_info) := by
  have hflag : (t.createService kind created topic_info).2 =
    (t.registry.createService kind created topic_info).2 := rfl
  have hfaults := Registry.setupServiceSubscriber_faults kind created topic_info t.registry
  unfold Registry.setupServiceSubscriber at hfaults
  unfold setupServiceSubscriber Registry.setupServiceSubscriber
  dsimp only at hfaults ⊢
  rw [hflag]
  cases hconstructed : (t.registry.createService kind created topic_info).2 with
  | true =>
    rw [hconstructed] at hfaults
    exact .of_sync rfl hfaults rfl
  | false => exact .of_eq rfl rfl

theorem handleTime_ends (time : List UInt8) (t : TableSession) :
    t.Ends (t.registry.handleTime time) (t.handleTime time) := by
  unfold handleTime
  dsimp only
  split
  · rename_i hreturns
    exact .of_sync rfl (Registry.writeMessage_faults hreturns) rfl
  · exact .of_eq rfl rfl

/-- The handlers do what those of `Registry` do. -/
theorem call_ends (handler : Handler) (stream : List UInt8) (outside : Outside)
    (t : TableSession) :
    t.Ends (t.registry.call deserialize handler stream outside)
      (t.call deserialize handler stream outside) := by
  have hsetup : ∀ {f : TopicInfo → Registry → Registry} {g : TopicInfo → TableSession → TableSession},
      (∀ topic_info, t.Ends (f topic_info t.registry) (g topic_info t)) →
      t.Ends (t.registry.setup (deserialize stream) f) (t.setup (deserialize stream) g) := by
    intro f g h
    cases deserialize stream with
    | none => exact .of_eq rfl rfl
    | some topic_info => exact h topic_info
  cases handler with
  | setupPublisher =>
    apply hsetup
    intro topic_info
    cases hcreated : outside.created with
    | true => exact .of_sync rfl rfl rfl
    | false => exact .of_eq rfl rfl
  | setupSubscriber =>
    apply hsetup
    intro topic_info
    refine .of_sync rfl ?_ rfl
    cases outside.created with
    | true => rfl
    | false => rfl
  | handleLog => exact .of_eq rfl rfl
  | handleTime => exact handleTime_ends outside.time t
  | setupServiceClientPublisher => exact hsetup fun _ => setupServicePublisher_ends .client _ _ t
  | setupServiceClientSubscriber => exact hsetup fun _ => setupServiceSubscriber_ends .client _ _ t
  | setupServiceServerPublisher => exact hsetup fun _ => setupServicePublisher_ends .server _ _ t
  | setupServiceServerSubscriber => exact hsetup fun _ => setupServiceSubscriber_ends .server _ _ t
  | publisher => exact .of_eq rfl rfl
  | serviceClient srv => exact .of_eq rfl rfl
  | serviceServer srv => exact .of_eq rfl rfl

/-- A message with a good checksum is a step of the tables, and a stop may follow. -/
theorem call_proceeds {topic_id : UInt16} {handler : Handler} (hactive : t.registry.active = true)
    (hruns : t.registry.runs .io = true)
    (hentry : t.registry.callbacks.lookup topic_id = some handler) (stream : List UInt8)
    (outside : Outside) :
    Proceeds deserialize t (t.call deserialize handler stream outside) := by
  have hends : t.Ends (t.registry.call deserialize handler stream outside)
      (t.call deserialize handler stream outside) := call_ends handler stream outside t
  obtain ⟨ended, hregistry, hbuffer, hcall⟩ := hends
  have hstep : t.registry.call deserialize handler stream outside =
      t.registry.step deserialize (.message topic_id stream outside) := by
    have hthread : t.registry.runs (Registry.Step.message topic_id stream outside).thread = true :=
      hruns
    simp only [Registry.step, if_pos hthread, Registry.perform, if_pos hactive, hentry]
  have hended : Proceeds deserialize t ended :=
    .of_step (.message topic_id stream outside) (hregistry.trans hstep) hbuffer
  rcases hcall with hcall | ⟨hfaults, hcall⟩
  · rw [hcall]
    exact hended
  · have hruns' : ended.registry.runs .io = true := by
      rw [Registry.runs_congr (hregistry ▸ hfaults), hruns]
    rw [hcall]
    exact hended.trans (setSyncTimeout_continues ended hruns').1

theorem warnTopicName_continues (enabled : Bool) (topic_id : UInt16) (t : TableSession) :
    Continues deserialize t (t.warnTopicName enabled topic_id) := by
  unfold warnTopicName
  split
  · exact .of_buffer rfl (Nat.le_refl _)
  · exact .refl t

theorem countUnrecognised_continues (hactive : t.registry.active = true) :
    Continues deserialize t t.countUnrecognised := by
  have hcount : Continues deserialize t { t with unrecognised_topics := t.unrecognised_topics + 1 } :=
    .of_buffer rfl (Nat.le_refl _)
  unfold countUnrecognised
  split
  · dsimp only
    split
    · exact (hcount.trans (attemptSync_continues hactive)).trans (.of_buffer rfl (Nat.le_refl _))
    · exact hcount
  · exact .refl t

theorem unrecognised_continues (hactive : t.registry.active = true) (enabled : Bool)
    (topic_id : Nat) : Continues deserialize t (t.unrecognised enabled topic_id) := by
  have hwarn : ∀ enabled id, (t.warnTopicName enabled id).registry = t.registry := by
    intro enabled id
    unfold warnTopicName
    split
    · rfl
    · rfl
  unfold unrecognised
  dsimp only
  split
  · refine (warnTopicName_continues enabled (UInt16.ofNat topic_id) t).trans ?_
    apply countUnrecognised_continues
    rw [hwarn, hactive]
  · exact countUnrecognised_continues hactive

theorem lookup_proceeds (hactive : t.registry.active = true)
    (hruns : t.registry.runs .io = true) (enabled : Bool) (outside : Outside)
    (topic_id : Nat) (payload : List UInt8) :
    Proceeds deserialize t (t.lookup deserialize enabled outside topic_id payload) := by
  unfold lookup
  split
  · rename_i handler hentry
    exact call_proceeds hactive hruns hentry payload outside
  · exact (unrecognised_continues hactive enabled topic_id hruns).1

theorem readFailed_continues {readSyncHeader : TableSession → TableSession}
    (h : ∀ t, Continues deserialize t (readSyncHeader t)) (error : ErrorCode) (t : TableSession) :
    Continues deserialize t (t.readFailed readSyncHeader error) := by
  unfold readFailed
  split
  · exact h t
  · exact stop_continues t

theorem readDepth_continues (depth n : Nat) (callback : Continuation) (t : TableSession) :
    Continues deserialize t (t.readDepth depth n callback) := by
  induction depth generalizing n callback t with
  | zero =>
    have hread := t.async_read_buffer.le_read_mem n (some callback)
    rw [readDepth]
    dsimp only
    split
    · exact .of_buffer rfl hread
    · exact .of_buffer rfl hread
  | succ depth ih =>
    have hread := t.async_read_buffer.le_read_mem n (some callback)
    have hbuffer : Continues deserialize t
        { t with async_read_buffer := (t.async_read_buffer.read n (some callback)).1 } :=
      .of_buffer rfl hread
    rw [readDepth]
    dsimp only
    split
    · exact hbuffer
    · exact hbuffer.trans (readFailed_continues (ih 1 .readSyncFirst) _ _)

theorem read_continues (n : Nat) (callback : Continuation) (t : TableSession) :
    Continues deserialize t (t.read n callback) := readDepth_continues 2 n callback t

theorem readSyncHeader_continues (t : TableSession) : Continues deserialize t t.readSyncHeader :=
  read_continues 1 .readSyncFirst t

theorem readBody_proceeds (hruns : t.registry.runs .io = true) (enabled : Bool)
    (outside : Outside) (stream : SimpleCdr) (topic_id : Nat) :
    Proceeds deserialize t (t.readBody deserialize enabled outside stream topic_id) := by
  unfold readBody
  split
  · exact .refl t
  · rename_i hactive
    have hactive' : t.registry.active = true := by simpa using hactive
    split
    · exact .refl t
    · dsimp only
      split
      · exact (((warnTopicName_continues enabled _ t).trans (readSyncHeader_continues _)) hruns).1
      · have hlookup : Proceeds deserialize t (t.lookup deserialize enabled outside topic_id
            (stream.buffer.take (stream.buffer.length - 1))) :=
          lookup_proceeds hactive' hruns enabled outside topic_id _
        split
        · rename_i hruns'
          exact hlookup.trans (readSyncHeader_continues _ hruns').1
        · exact hlookup

theorem resume_proceeds (enabled : Bool) (outside : Outside) (stream : SimpleCdr)
    (callback : Continuation) (t : TableSession) (hruns : t.registry.runs .io = true) :
    Proceeds deserialize t (t.resume deserialize enabled outside stream callback) := by
  cases callback with
  | readSyncFirst =>
    show Proceeds deserialize t (t.readSyncFirst stream)
    unfold readSyncFirst
    dsimp only
    split
    · exact (read_continues 1 .readSyncSecond t hruns).1
    · exact (readSyncHeader_continues t hruns).1
  | readSyncSecond =>
    show Proceeds deserialize t (t.readSyncSecond stream)
    unfold readSyncSecond
    dsimp only
    split
    · exact (read_continues 5 .readIdLength t hruns).1
    · exact (readSyncHeader_continues t hruns).1
  | readIdLength =>
    show Proceeds deserialize t (t.readIdLength stream)
    unfold readIdLength
    dsimp only
    split
    · exact (readSyncHeader_continues t hruns).1
    · exact (read_continues _ _ t hruns).1
  | readBody topic_id => exact readBody_proceeds hruns enabled outside stream topic_id

theorem completeRead_continues (op : AsyncRead) (result : Except ErrorCode (List UInt8))
    (t : TableSession) : Continues deserialize t (t.completeRead op result) := by
  have hbuffer : Continues deserialize t
      { t with async_read_buffer := (t.async_read_buffer.complete op result).1 } :=
    .of_buffer rfl (t.async_read_buffer.le_complete_mem op result)
  unfold completeRead
  dsimp only
  split
  · exact hbuffer
  · exact hbuffer.trans (readFailed_continues readSyncHeader_continues _ _)

theorem start_continues (hinactive : ¬ t.registry.active = true) :
    Continues deserialize t t.start := by
  have hstart : t.registry.start = t.registry.perform deserialize .start := by
    rw [Registry.perform, if_neg hinactive]
  have hfirst : Continues deserialize t { t with registry := t.registry.start } :=
    .of_perform .start rfl hstart (Registry.start_faults t.registry) rfl
  exact (hfirst.trans (setSyncTimeout_continues _)).trans (readSyncHeader_continues _)

/-- Whatever happens to a session, its tables with endpoints take steps of `Registry.step`. -/
theorem step_proceeds (t : TableSession) (st : Step) :
    Proceeds deserialize t (t.step deserialize st) := by
  unfold step
  split
  · exact .refl t
  rename_i hgoes
  have hruns : t.registry.runs st.thread = true := by
    simp only [Bool.or_eq_true, Bool.not_eq_true', not_or, Bool.not_eq_false] at hgoes
    exact hgoes.2
  cases st with
  | arrive i bytes =>
    dsimp only
    split
    · exact .refl t
    · split
      · exact (completeRead_continues _ _ t hruns).1
      · exact .refl t
  | fail i error =>
    dsimp only
    split
    · exact .refl t
    · exact (completeRead_continues _ _ t hruns).1
  | run enabled outside =>
    dsimp only
    split
    · exact .refl t
    · rename_i callback bytes buffer hnext
      have hbuffer : Proceeds deserialize t { t with async_read_buffer := buffer } :=
        .of_buffer rfl (Nat.le_of_eq (by rw [AsyncReadBuffer.next_eq hnext]))
      exact hbuffer.trans (resume_proceeds enabled outside _ callback _ hruns)
  | rosMessage topic_id message =>
    exact .of_step (.rosMessage topic_id message) (if_pos hruns).symm rfl
  | rosRequest service_type request =>
    exact .of_step (.rosRequest service_type request) (if_pos hruns).symm rfl
  | stop => exact (stop_continues t hruns).1
  | interrupt => exact .of_buffer rfl (Nat.le_refl _)
  | start =>
    dsimp only
    split
    · exact .refl t
    · rename_i hinactive
      exact (start_continues hinactive hruns).1

/-- So do the tables of a run. -/
theorem run_proceeds (t : TableSession) (steps : List Step) :
    Proceeds deserialize t (Runs.run (step deserialize) t steps) := by
  induction steps generalizing t with
  | nil => exact .refl t
  | cons st steps ih => exact (step_proceeds t st).trans (ih (t.step deserialize st))

/-- In every run the tables are about endpoints that were made, and the entries of
`callbacks_` for endpoints are about those in the tables. -/
theorem run_held {types : List String} {timeout threshold : Int} {ok : Bool}
    (hnew : new types timeout threshold ok = some t) (steps : List Step) :
    (Runs.run (step deserialize) t steps).registry.Held := by
  have hfirst : t.registry = Registry.new types timeout := by
    unfold new at hnew
    obtain ⟨buffer, -, ht⟩ := Option.map_eq_some_iff.mp hnew
    rw [← ht]
  have hrun : Proceeds deserialize t (Runs.run (step deserialize) t steps) := run_proceeds t steps
  obtain ⟨tableSteps, htables⟩ := hrun.registry
  rw [htables, hfirst]
  have hheld : Always (Registry.step deserialize) Registry.Held (Registry.new types timeout)
      tableSteps := by
    apply Always.of_step (Registry.new_held types timeout)
    intro s st h
    exact (Registry.step_effect deserialize s st).held h
  exact hheld.last

end Proceeds

end TableSession

end Ros2Serial.Host
