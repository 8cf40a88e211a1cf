import Ros2Serial.Host.AsyncReadBuffer
import Ros2Serial.Host.SimpleCdr

/-!
# `Session`

The host's end of the link (`session.h`): the chain of callbacks that takes the
stream apart into frames, and what can happen to a session in between.

* `error_callback_` is `read_failed`, which calls `read` again.  `readDepth`
  is `read` down to a depth of such calls, and depth 2 is enough
  (`readDepth_eq`).
* What the callbacks of the topics do with a message is a parameter, as far as
  it does not concern the read buffer.  They may write frames, stop the session
  and change `callbacks_`.
* `lookups` is not in the code.  It records what `read_body` looks up in
  `callbacks_`.
* The timers, and whether `rclcpp::ok()` holds, belong to the environment.  A
  timer that expires stops the session, as does a failed write.
-/

namespace Ros2Serial.Host

/-! ## State -/

namespace TopicInfo

def ID_PUBLISHER : Nat := 0
def ID_SUBSCRIBER : Nat := 1
def ID_SERVICE_SERVER : Nat := 2
def ID_SERVICE_CLIENT : Nat := 4
def ID_LOG : Nat := 7
def ID_TIME : Nat := 10
def ID_TX_STOP : Nat := 11

end TopicInfo

/-- What is bound to a `read`. -/
inductive Continuation
  | readSyncFirst
  | readSyncSecond
  | readIdLength
  | readBody (topic_id : Nat)
  deriving DecidableEq, Repr

structure Session where
  active : Bool
  async_read_buffer : AsyncReadBuffer Continuation
  /-- The keys of `callbacks_`. -/
  callbacks : List Nat
  unrecognised_topics : Nat
  unrecognised_topic_retry_threshold : Int
  /-- What `rclcpp::ok()` returns. -/
  ok : Bool
  /-- `io_service_.stop()` was called. -/
  io_stopped : Bool
  /-- The frames that `write_message` has dispatched. -/
  written : List (List UInt8)
  lookups : List (Nat × List UInt8)
  deriving DecidableEq, Repr

/-- `buffer_max`. -/
def buffer_max : Nat := 8192 - 1

/-- What a topic's entry in `callbacks_` does with a message. -/
structure Handlers where
  run : (topic_id : Nat) → (payload : List UInt8) → Session → Session
  keeps : ∀ topic_id payload s,
    (run topic_id payload s).async_read_buffer = s.async_read_buffer ∧
      (run topic_id payload s).lookups = s.lookups

/-- Handlers that do nothing. -/
def noHandlers : Handlers where
  run _ _ s := s
  keeps _ _ _ := ⟨rfl, rfl⟩

/-- The constructor, with the value of the parameter
`unrecognised_topic_retry_threshold`. -/
def Session.new (threshold : Int) (ok : Bool) : Option Session :=
  (AsyncReadBuffer.new Continuation buffer_max).map fun buffer =>
    { active := false, async_read_buffer := buffer, callbacks := [], unrecognised_topics := 0
      unrecognised_topic_retry_threshold := threshold, ok := ok, io_stopped := false
      written := [], lookups := [] }

namespace Session

/-! ## Sending and stopping -/

/-- `write_message`.  It throws if the frame does not fit its buffer. -/
def writeMessage (message : List UInt8) (topic_id : Nat) (s : Session) : Session :=
  { s with written := s.written ++ (messageBuffer message topic_id).toList }

def stop (s : Session) : Session :=
  if s.active then writeMessage [0] TopicInfo.ID_TX_STOP { s with active := false, callbacks := [] }
  else s

def shutdown (s : Session) : Session := { s.stop with io_stopped := true }

/-- `set_sync_timeout`. -/
def setSyncTimeout (s : Session) : Session := if s.ok then s else s.shutdown

/-- `attempt_sync`, with `request_topics`. -/
def attemptSync (s : Session) : Session := setSyncTimeout (writeMessage [] TopicInfo.ID_PUBLISHER s)

/-! ## Receiving -/

/-- `read_failed`, where `read_sync_header` is given. -/
def readFailed (readSyncHeader : Session → Session) (error : ErrorCode) (s : Session) : Session :=
  if error = .no_buffer_space then readSyncHeader s else s.stop

/-- `async_read_buffer_.read`, with its calls of `read_failed`, down to a depth. -/
def readDepth : Nat → Nat → Continuation → Session → Session
  | depth, requested_bytes, callback, s =>
    let (buffer, error) := s.async_read_buffer.read requested_bytes (some callback)
    let s := { s with async_read_buffer := buffer }
    match error with
    | none => s
    | some error =>
      match depth with
      | 0 => s
      | depth + 1 => s.readFailed (readDepth depth 1 .readSyncFirst) error

/-- `async_read_buffer_.read`. -/
def read (requested_bytes : Nat) (callback : Continuation) (s : Session) : Session :=
  s.readDepth 2 requested_bytes callback

/-- `read_sync_header`. -/
def readSyncHeader (s : Session) : Session := s.read 1 .readSyncFirst

/-- `read_sync_first`. -/
def readSyncFirst (stream : SimpleCdr) (s : Session) : Session :=
  let (sync, _) := stream.getUint8
  if sync = 0xff then s.read 1 .readSyncSecond else s.readSyncHeader

/-- `read_sync_second`. -/
def readSyncSecond (stream : SimpleCdr) (s : Session) : Session :=
  let (sync, _) := stream.getUint8
  if sync = 0xfe then s.read 5 .readIdLength else s.readSyncHeader

/-- `read_id_length`. -/
def readIdLength (stream : SimpleCdr) (s : Session) : Session :=
  let (length, stream) := stream.getUint16
  let (length_checksum, stream) := stream.getUint8
  let csl := checksum16 length
  if length_checksum.toNat + csl.toNat ≠ 0xff then s.readSyncHeader
  else
    let (topic_id, _) := stream.getUint16
    s.read (length + 1) (.readBody topic_id)

/-- The threshold for messages on topics that nobody has registered. -/
def countUnrecognised (s : Session) : Session :=
  if s.unrecognised_topic_retry_threshold > 0 then
    let s := { s with unrecognised_topics := s.unrecognised_topics + 1 }
    if (s.unrecognised_topics : Int) ≥ s.unrecognised_topic_retry_threshold then
      { s.attemptSync with unrecognised_topics := 0 }
    else s
  else s

/-- A message with a good checksum: `callbacks_` is looked up. -/
def lookup (handlers : Handlers) (topic_id : Nat) (payload : List UInt8) (s : Session) : Session :=
  let s := { s with lookups := s.lookups ++ [(topic_id, payload)] }
  if topic_id ∈ s.callbacks then handlers.run topic_id payload s else s.countUnrecognised

/-- `read_body`.  It is `none` where the loop of `checksum` does not end. -/
def readBody (handlers : Handlers) (stream : SimpleCdr) (topic_id : Nat) (s : Session) :
    Option Session :=
  if !s.active then some s
  else do
    let sum ← checksum stream.buffer
    let msg_checksum := sum + checksum16 topic_id
    let s :=
      if msg_checksum ≠ 0xff then s
      else s.lookup handlers topic_id (stream.buffer.take (stream.buffer.length - 1))
    some s.readSyncHeader

/-- A posted callback runs. -/
def resume (handlers : Handlers) (stream : SimpleCdr) (s : Session) :
    Continuation → Option Session
  | .readSyncFirst => some (s.readSyncFirst stream)
  | .readSyncSecond => some (s.readSyncSecond stream)
  | .readIdLength => some (s.readIdLength stream)
  | .readBody topic_id => s.readBody handlers stream topic_id

/-- The callback of an `async_read`, with `error_callback_`. -/
def completeRead (op : AsyncRead) (result : Except ErrorCode (List UInt8)) (s : Session) : Session :=
  let (buffer, error) := s.async_read_buffer.complete op result
  let s := { s with async_read_buffer := buffer }
  match error with
  | none => s
  | some error => s.readFailed readSyncHeader error

/-- `start`. -/
def start (s : Session) : Session :=
  let callbacks := [TopicInfo.ID_PUBLISHER, TopicInfo.ID_SUBSCRIBER, TopicInfo.ID_LOG,
    TopicInfo.ID_TIME, TopicInfo.ID_SERVICE_CLIENT + TopicInfo.ID_PUBLISHER,
    TopicInfo.ID_SERVICE_CLIENT + TopicInfo.ID_SUBSCRIBER,
    TopicInfo.ID_SERVICE_SERVER + TopicInfo.ID_PUBLISHER,
    TopicInfo.ID_SERVICE_SERVER + TopicInfo.ID_SUBSCRIBER]
  let s := { s with active := true, callbacks := s.callbacks ++ callbacks }
  s.attemptSync.readSyncHeader

end Session

/-! ## Runs -/

/-- What happens to a session. -/
inductive SessionStep
  /-- Asio completes a read. -/
  | arrive (bytes : List UInt8)
  /-- A read fails. -/
  | fail (error : ErrorCode)
  /-- The next callback in the queue of the `io_service` runs. -/
  | run
  /-- A ROS callback writes a message. -/
  | write (message : List UInt8) (topic_id : Nat)
  /-- The synchronisation timer expires, a write fails, or the owner stops the
  session. -/
  | stop
  /-- ROS shuts down. -/
  | interrupt
  /-- The owner starts the session, again after a stop. -/
  | start
  deriving DecidableEq, Repr

/-- A step, where it is possible.  Asio completes a read with at least the bytes
that it was asked for and at most the bytes that there is room for. -/
def Session.step (handlers : Handlers) (s : Session) (st : SessionStep) : Option Session :=
  if s.io_stopped then none
  else
    match st with
    | .arrive bytes =>
      match s.async_read_buffer.pending with
      | [] => none
      | op :: _ =>
        if op.transferAtLeast ≤ bytes.length ∧ bytes.length ≤ op.headroom then
          some (s.completeRead op (.ok bytes))
        else none
    | .fail error =>
      match s.async_read_buffer.pending with
      | [] => none
      | op :: _ => some (s.completeRead op (.error error))
    | .run =>
      match s.async_read_buffer.next with
      | none => none
      | some (callback, bytes, buffer) =>
        Session.resume handlers { buffer := bytes, offset := 0 }
          { s with async_read_buffer := buffer } callback
    | .write message topic_id => some (s.writeMessage message topic_id)
    | .stop => some s.stop
    | .interrupt => some { s with ok := false }
    | .start => if s.active then none else some s.start

/-- A run. -/
def Session.exec (handlers : Handlers) (s : Session) (steps : List SessionStep) : Option Session :=
  steps.foldlM (Session.step handlers) s

/-- A state of a session that was constructed and started. -/
def Session.Reachable (handlers : Handlers) (s : Session) : Prop :=
  ∃ threshold ok s₀ steps, Session.new threshold ok = some s₀ ∧
    s₀.exec handlers (.start :: steps) = some s

/-- The bytes that arrive in a step. -/
def SessionStep.arrived : SessionStep → List UInt8
  | .arrive bytes => bytes
  | _ => []

/-! ## Nested reads -/

namespace Session

/-- A read is rejected while another one is outstanding, and the session stops. -/
theorem readDepth_busy {s : Session} (h : s.async_read_buffer.read_requested_bytes ≠ 0)
    (depth n : Nat) (callback : Continuation) :
    ∃ buffer, s.readDepth (depth + 1) n callback = stop { s with async_read_buffer := buffer } := by
  refine ⟨(s.async_read_buffer.read n (some callback)).1, ?_⟩
  have herror : (s.async_read_buffer.read n (some callback)).2 =
      some .operation_not_permitted := by
    simp only [AsyncReadBuffer.read, if_pos h]
  rw [readDepth.eq_def]
  dsimp only
  rw [herror]
  rfl

/-- A request beyond the capacity leaves the buffer with an outstanding read. -/
theorem readDepth_oversize {s : Session} (hn : s.async_read_buffer.mem.length < n)
    (depth : Nat) (callback : Continuation) :
    ∃ buffer, s.readDepth (depth + 2) n callback = stop { s with async_read_buffer := buffer } := by
  by_cases hbusy : s.async_read_buffer.read_requested_bytes = 0
  · have hread : s.async_read_buffer.read n (some callback) =
        ({ s.async_read_buffer with
            count := 0, read_success_callback := some callback, read_requested_bytes := n },
          some .no_buffer_space) := by
      simp only [AsyncReadBuffer.read, hbusy, ne_eq, not_true_eq_false, if_false,
        Option.isNone_some, Bool.false_eq_true, gt_iff_lt, if_pos hn]
    obtain ⟨buffer, hretry⟩ := readDepth_busy
      (s := { s with async_read_buffer := { s.async_read_buffer with
        count := 0, read_success_callback := some callback, read_requested_bytes := n } })
      (show n ≠ 0 by omega) depth 1 .readSyncFirst
    refine ⟨buffer, ?_⟩
    rw [readDepth.eq_def]
    dsimp only
    rw [hread]
    exact hretry
  · exact readDepth_busy hbusy (depth + 1) n callback

end Session

end Ros2Serial.Host
