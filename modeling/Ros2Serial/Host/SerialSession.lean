import Ros2Serial.Host.Session
import Ros2Serial.Lib.Runs

/-!
# `SerialSession`

The session on a serial port, which `check_connection` starts again whenever it
finds it stopped (`serial_session.h`), with the handlers that Asio has for it.

A step runs one handler, in any order, or is an event outside.

* A handler that has not run yet is in one of the lists of the state, with the
  number of the session in which it was armed or queued.  Where only the order
  of the handlers matters, it is not said when a handler becomes ready: the
  result of a read or a write comes with the step that runs its handler.  A
  read that was issued on an open port may have had its bytes before the port
  was closed.
* A wait of `sync_timer_` ends in a step of its own.  From then on `cancel`
  does not reach it.
* `require_check_timer_` has a handler that does nothing, and is left out.
* What an entry in `callbacks_` does with a message comes with the step that
  runs `read_body`: it may write, call `set_sync_timeout`, and make entries.
* A message of a ROS callback is written where its `write_buffer` runs.
* `read` on a serial port does not fail with `ENOBUFS`.
-/

namespace Ros2Serial.Host

open Bytes

/-! ## Handlers -/

/-- An `async_read`: the session that issued it, and whether the port was open. -/
structure PortRead where
  session : Nat
  opened : Bool
  deriving DecidableEq, Repr

inductive WaitState
  | waiting
  /-- The handler is queued, with no error, since so many calls of `set_sync_timeout`. -/
  | expired (timeouts : Nat)
  /-- The handler is queued, with `operation_aborted`. -/
  | cancelled
  deriving DecidableEq, Repr

/-- A wait of `sync_timer_`: the session that armed it, and which call of
`set_sync_timeout` that was. -/
structure SyncWait where
  session : Nat
  armed : Nat
  state : WaitState
  deriving DecidableEq, Repr

/-- `sync_timer_.cancel()`, for one wait. -/
def SyncWait.cancel (wait : SyncWait) : SyncWait :=
  if wait.state = .waiting then { wait with state := .cancelled } else wait

/-- What a topic's entry in `callbacks_` does. -/
inductive Effect
  | write (message : List UInt8) (topic_id : Nat)
  | setSyncTimeout
  | enter (topic_id : Nat)
  deriving DecidableEq, Repr

structure SerialSession where
  session : Session
  /-- The port is open. -/
  port : Bool
  /-- How many sessions were started. -/
  sessions : Nat
  /-- The reads that `async_read_buffer` has pending, in its order. -/
  reads : List PortRead
  /-- The callbacks that it has posted, in its order, by their sessions. -/
  posted : List Nat
  /-- The writes whose `write_completion_cb` has not run, by their sessions. -/
  writes : List Nat
  waits : List SyncWait
  /-- The wait of `timer_`, by its session. -/
  check : Option Nat
  /-- The calls of `set_sync_timeout`. -/
  timeouts : Nat
  /-- The calls of `stop`. -/
  stops : Nat
  /-- The calls of `AsyncReadBuffer::read`. -/
  readCalls : Nat
  /-- Those that were made while an operation was pending. -/
  overlaps : Nat
  /-- What the buffer offered to the first read of the session. -/
  leftover : List UInt8
  /-- The bytes that the reads of the session have got since. -/
  arrived : List UInt8
  /-- What the read handlers were given since. -/
  handed : List (Continuation × List UInt8)
  deriving DecidableEq, Repr

/-- The bytes between the indices, if a read is accepted. -/
def AsyncReadBuffer.offered {κ : Type} (b : AsyncReadBuffer κ) : List UInt8 :=
  if b.read_requested_bytes = 0 then slice b.mem b.read_index (b.write_index - b.read_index)
  else []

/-- The constructor.  Its call of `check_connection` is the first step. -/
def SerialSession.new (threshold : Int) (ok : Bool) : Option SerialSession :=
  (Session.new threshold ok).map fun session =>
    { session := session, port := false, sessions := 0, reads := [], posted := [], writes := []
      waits := [], check := some 0, timeouts := 0, stops := 0, readCalls := 0, overlaps := 0
      leftover := [], arrived := [], handed := [] }

/-- A session that was constructed while ROS is up. -/
def newSession : SerialSession where
  session :=
    { active := false
      async_read_buffer :=
        { mem := List.replicate buffer_max 0, write_index := 0, read_index := 0
          read_success_callback := none, read_requested_bytes := 0, count := 0
          pending := [], posted := [] }
      callbacks := [], unrecognised_topics := 0, unrecognised_topic_retry_threshold := 1
      ok := true, io_stopped := false, written := [], lookups := [] }
  port := false
  sessions := 0
  reads := []
  posted := []
  writes := []
  waits := []
  check := some 0
  timeouts := 0
  stops := 0
  readCalls := 0
  overlaps := 0
  leftover := []
  arrived := []
  handed := []

theorem newSession_eq : SerialSession.new 1 true = some newSession := rfl

namespace SerialSession

/-! ## Sending and stopping -/

/-- `write_message`, with the `async_write` that it starts. -/
def writeMessage (message : List UInt8) (topic_id : Nat) (l : SerialSession) : SerialSession :=
  { l with
    session := l.session.writeMessage message topic_id
    writes := l.writes ++ (messageBuffer message topic_id).toList.map fun _ => l.sessions }

/-- `stop`, of an active session. -/
def stopActive (l : SerialSession) : SerialSession :=
  let l := { l with
    session := { l.session with active := false, callbacks := [] }
    waits := l.waits.map SyncWait.cancel }
  let l := l.writeMessage [0] TopicInfo.ID_TX_STOP
  { l with port := false }

/-- `stop`. -/
def stop (l : SerialSession) : SerialSession :=
  let l := { l with stops := l.stops + 1 }
  if l.session.active then l.stopActive else l

/-- `shutdown`. -/
def shutdown (l : SerialSession) : SerialSession :=
  let l := if l.session.active then l.stop else l
  { l with session := { l.session with io_stopped := true } }

/-- `set_sync_timeout`. -/
def setSyncTimeout (l : SerialSession) : SerialSession :=
  let l := { l with timeouts := l.timeouts + 1 }
  if l.session.ok then
    { l with
      waits := l.waits.map SyncWait.cancel ++
        [{ session := l.sessions, armed := l.timeouts, state := .waiting }] }
  else l.shutdown

/-- `attempt_sync`. -/
def attemptSync (l : SerialSession) : SerialSession :=
  (l.writeMessage [] TopicInfo.ID_PUBLISHER).setSyncTimeout

/-! ## Receiving -/

/-- The buffer after a call of its functions, with the reads that this call has issued and
the callbacks that it has posted. -/
def setBuffer (buffer : AsyncReadBuffer Continuation) (l : SerialSession) : SerialSession :=
  let old := l.session.async_read_buffer
  { l with
    session := { l.session with async_read_buffer := buffer }
    reads := l.reads ++
      List.replicate (buffer.pending.length - old.pending.length) ⟨l.sessions, l.port⟩
    posted := l.posted ++ List.replicate (buffer.posted.length - old.posted.length) l.sessions }

/-- `read_failed`, where `read_sync_header` is given. -/
def readFailed (readSyncHeader : SerialSession → SerialSession) (error : ErrorCode)
    (l : SerialSession) : SerialSession :=
  if error = .no_buffer_space then readSyncHeader l else l.stop

/-- An operation of the buffer has not called its handler. -/
def Busy (l : SerialSession) : Prop :=
  l.session.async_read_buffer.read_requested_bytes ≠ 0 ∨ l.session.async_read_buffer.pending ≠ []

instance (l : SerialSession) : Decidable l.Busy := inferInstanceAs (Decidable (_ ∨ _))

/-- A call of `read` is counted. -/
def countRead (l : SerialSession) : SerialSession :=
  { l with
    readCalls := l.readCalls + 1
    overlaps := if l.Busy then l.overlaps + 1 else l.overlaps }

/-- `async_read_buffer_.read`, with its calls of `read_failed`, down to a depth. -/
def readDepth : Nat → Nat → Continuation → SerialSession → SerialSession
  | depth, requested_bytes, callback, l =>
    let (buffer, error) := l.session.async_read_buffer.read requested_bytes (some callback)
    let l := l.countRead.setBuffer buffer
    match error with
    | none => l
    | some error =>
      match depth with
      | 0 => l
      | depth + 1 => l.readFailed (readDepth depth 1 .readSyncFirst) error

/-- `async_read_buffer_.read`. -/
def read (requested_bytes : Nat) (callback : Continuation) (l : SerialSession) : SerialSession :=
  l.readDepth 2 requested_bytes callback

/-- `read_sync_header`. -/
def readSyncHeader (l : SerialSession) : SerialSession := l.read 1 .readSyncFirst

/-- `read_sync_first`. -/
def readSyncFirst (stream : SimpleCdr) (l : SerialSession) : SerialSession :=
  let (sync, _) := stream.getUint8
  if sync = 0xff then l.read 1 .readSyncSecond else l.readSyncHeader

/-- `read_sync_second`. -/
def readSyncSecond (stream : SimpleCdr) (l : SerialSession) : SerialSession :=
  let (sync, _) := stream.getUint8
  if sync = 0xfe then l.read 5 .readIdLength else l.readSyncHeader

/-- `read_id_length`. -/
def readIdLength (stream : SimpleCdr) (l : SerialSession) : SerialSession :=
  let (length, stream) := stream.getUint16
  let (length_checksum, stream) := stream.getUint8
  let csl := checksum16 length
  if length_checksum.toNat + csl.toNat ≠ 0xff then l.readSyncHeader
  else
    let (topic_id, _) := stream.getUint16
    l.read (length + 1) (.readBody topic_id)

/-- The threshold for messages on topics that nobody has registered. -/
def countUnrecognised (l : SerialSession) : SerialSession :=
  if l.session.unrecognised_topic_retry_threshold > 0 then
    let l := { l with session.unrecognised_topics := l.session.unrecognised_topics + 1 }
    if (l.session.unrecognised_topics : Int) ≥ l.session.unrecognised_topic_retry_threshold then
      let l := l.attemptSync
      { l with session.unrecognised_topics := 0 }
    else l
  else l

def perform (l : SerialSession) : Effect → SerialSession
  | .write message topic_id => l.writeMessage message topic_id
  | .setSyncTimeout => l.setSyncTimeout
  | .enter topic_id => { l with session.callbacks := l.session.callbacks ++ [topic_id] }

/-- A message with a good checksum: `callbacks_` is looked up, and its entry has effects. -/
def lookup (effects : List Effect) (topic_id : Nat) (payload : List UInt8) (l : SerialSession) :
    SerialSession :=
  let l := { l with session.lookups := l.session.lookups ++ [(topic_id, payload)] }
  if topic_id ∈ l.session.callbacks then effects.foldl perform l else l.countUnrecognised

/-- `read_body`.  Where the loop of `checksum` does not end, nothing else happens. -/
def readBody (effects : List Effect) (stream : SimpleCdr) (topic_id : Nat) (l : SerialSession) :
    SerialSession :=
  if !l.session.active then l
  else
    match checksum stream.buffer with
    | none => l
    | some sum =>
      let msg_checksum := sum + checksum16 topic_id
      let l :=
        if msg_checksum ≠ 0xff then l
        else l.lookup effects topic_id (stream.buffer.take (stream.buffer.length - 1))
      l.readSyncHeader

/-- A posted callback runs. -/
def resume (effects : List Effect) (stream : SimpleCdr) (l : SerialSession) :
    Continuation → SerialSession
  | .readSyncFirst => l.readSyncFirst stream
  | .readSyncSecond => l.readSyncSecond stream
  | .readIdLength => l.readIdLength stream
  | .readBody topic_id => l.readBody effects stream topic_id

/-! ## Starting -/

/-- `start`. -/
def start (l : SerialSession) : SerialSession :=
  let callbacks := [TopicInfo.ID_PUBLISHER, TopicInfo.ID_SUBSCRIBER, TopicInfo.ID_LOG,
    TopicInfo.ID_TIME, TopicInfo.ID_SERVICE_CLIENT + TopicInfo.ID_PUBLISHER,
    TopicInfo.ID_SERVICE_CLIENT + TopicInfo.ID_SUBSCRIBER,
    TopicInfo.ID_SERVICE_SERVER + TopicInfo.ID_PUBLISHER,
    TopicInfo.ID_SERVICE_SERVER + TopicInfo.ID_SUBSCRIBER]
  let l := { l with
    session := { l.session with active := true, callbacks := l.session.callbacks ++ callbacks }
    sessions := l.sessions + 1
    leftover := l.session.async_read_buffer.offered, arrived := [], handed := [] }
  l.attemptSync.readSyncHeader

/-- `attempt_connection`, where `open` succeeds or fails. -/
def attemptConnection (opens : Bool) (l : SerialSession) : SerialSession :=
  if opens then start { l with port := true } else l

/-- The first part of `check_connection`. -/
def connect (opens : Bool) (l : SerialSession) : SerialSession :=
  if !l.session.active then l.attemptConnection opens else l

/-- "Every second, check again if the connection should be reinitialized, if the ROS node is
still up." -/
def checkAgain (l : SerialSession) : SerialSession :=
  if l.session.ok then { l with check := some l.sessions } else l.shutdown

/-- `check_connection`, whose wait is over. -/
def checkConnection (opens : Bool) (l : SerialSession) : SerialSession :=
  (connect opens { l with check := none }).checkAgain

end SerialSession

/-! ## Steps -/

inductive LoopStep
  /-- `check_connection`, with what `open` would do. -/
  | check (opens : Bool)
  /-- `AsyncReadBuffer::callback`, for a pending read. -/
  | read (i : Nat) (result : Except ErrorCode (List UInt8))
  /-- The callback that was posted first, with what the entry in `callbacks_` does. -/
  | run (effects : List Effect)
  /-- `write_completion_cb`. -/
  | written (i : Nat) (error : Option ErrorCode)
  /-- A wait of `sync_timer_` is over. -/
  | expire (i : Nat)
  /-- `sync_timeout`. -/
  | timeout (i : Nat)
  /-- `write_buffer`, for a message of a ROS callback. -/
  | send (message : List UInt8) (topic_id : Nat)
  /-- ROS shuts down. -/
  | interrupt
  deriving DecidableEq, Repr

namespace SerialSession

/-- What Asio may report of a read: the bytes that it was asked for, if the port was open, or
an error, and `operation_aborted` only when the port was closed. -/
def Reports (l : SerialSession) (op : AsyncRead) (issued : PortRead) :
    Except ErrorCode (List UInt8) → Prop
  | .ok bytes =>
    issued.opened = true ∧ op.transferAtLeast ≤ bytes.length ∧ bytes.length ≤ op.headroom
  | .error error =>
    error ≠ .no_buffer_space ∧
      (error = .operation_aborted → ¬ (l.port = true ∧ issued.session = l.sessions))

instance (l : SerialSession) (op : AsyncRead) (issued : PortRead)
    (result : Except ErrorCode (List UInt8)) : Decidable (l.Reports op issued result) :=
  match result with
  | .ok _ => inferInstanceAs (Decidable (_ ∧ _ ∧ _))
  | .error _ => inferInstanceAs (Decidable (_ ∧ _))

/-- The callback of an `async_read`, with `error_callback_`. -/
def completeRead (i : Nat) (op : AsyncRead) (issued : PortRead)
    (result : Except ErrorCode (List UInt8)) (l : SerialSession) : SerialSession :=
  let pending := l.session.async_read_buffer.pending.eraseIdx i
  let (buffer, error) := l.session.async_read_buffer.complete op result
  let l := { l with
    session.async_read_buffer.pending := pending
    reads := l.reads.eraseIdx i
    arrived := if issued.session = l.sessions then l.arrived ++ result.toOption.getD []
      else l.arrived }
  let l := l.setBuffer { buffer with pending := pending }
  match error with
  | none => l
  | some error => l.readFailed readSyncHeader error

/-- A posted callback leaves the queue. -/
def takePosted (callback : Continuation) (bytes : List UInt8)
    (buffer : AsyncReadBuffer Continuation) (l : SerialSession) : SerialSession :=
  { l with
    session := { l.session with async_read_buffer := buffer }
    posted := l.posted.tail, handed := l.handed ++ [(callback, bytes)] }

/-- `sync_timeout`. -/
def syncTimeout (wait : SyncWait) (l : SerialSession) : SerialSession :=
  match wait.state with
  | .expired _ => l.stop
  | _ => l

/-- A step, which does nothing where it is not possible. -/
def step (l : SerialSession) (st : LoopStep) : SerialSession :=
  if l.session.io_stopped then l
  else
    match st with
    | .check opens => if l.check.isSome then l.checkConnection opens else l
    | .read i result =>
      match l.session.async_read_buffer.pending[i]?, l.reads[i]? with
      | some op, some issued =>
        if l.Reports op issued result then l.completeRead i op issued result else l
      | _, _ => l
    | .run effects =>
      match l.session.async_read_buffer.next with
      | none => l
      | some (callback, bytes, buffer) =>
        (l.takePosted callback bytes buffer).resume effects { buffer := bytes, offset := 0 } callback
    | .written i error =>
      match l.writes[i]? with
      | none => l
      | some _ =>
        let l := { l with writes := l.writes.eraseIdx i }
        if error.isSome then l.stop else l
    | .expire i =>
      match l.waits[i]? with
      | none => l
      | some wait =>
        if wait.state = .waiting then
          { l with waits := l.waits.set i { wait with state := .expired l.timeouts } }
        else l
    | .timeout i =>
      match l.waits[i]? with
      | none => l
      | some wait =>
        if wait.state = .waiting then l
        else { l with waits := l.waits.eraseIdx i }.syncTimeout wait
    | .send message topic_id => l.writeMessage message topic_id
    | .interrupt => { l with session.ok := false }

end SerialSession

end Ros2Serial.Host
