import Ros2Serial.Device.Node

/-!
# `spinOnce`

The receiving half of the node handle.  `spinOnce` is split where its data is
split.

* `Receiver.step` is the state machine on `mode_`, `bytes_`, `topic_`,
  `index_`, `checksum_` and `message_in`, one byte at a time.  Its `Reaction`
  tells which branch was taken.
* `react` is what the branches do besides, to the clock, the configuration and
  the output; `dispatch` is the chain behind a good checksum.
* `spinLoop` and `spinOnce` put them together.  Their trace of `Event`s lists
  every byte that was read, every index that was used on `subscribers`, and
  every branch of the chain that was taken with the content of `message_in`.

`int` has 32 bits here, as on the STM32.  That matters for `checksum_` only,
which grows with every byte in front of a frame, and which is reset before
anything depends on it.

A store outside `message_in` is in the trace and changes nothing.  In C++ it is
undefined, so a run says something about the code up to the first such store.
There is none if all headers fit (`storesInside_of_headersFit`), and results
about longer runs ask that every `spinOnce` in them stores inside.
-/

namespace Ros2Serial.Device

open Bytes Ucdr Generator

/-! ## The state machine -/

/-- `PROTOCOL_VER`. -/
def PROTOCOL_VER : UInt8 := 0xfe

/-- The branch that a byte took. -/
inductive Reaction
  /-- Nothing but the state machine variables changed. -/
  | quiet
  /-- The first `ff` of a frame. -/
  | sync
  /-- Another byte between two frames. -/
  | skip
  /-- A wrong protocol version. -/
  | version
  /-- A header with a valid topic, and the length that it announces. -/
  | header (bytes : Int)
  /-- A header with a topic that is not valid. -/
  | invalidTopic
  /-- A store to `message_in[index]`. -/
  | store (index : Int)
  /-- A good checksum. -/
  | message (topic : Int)
  deriving DecidableEq, Repr

/-- The result of an addition of two `int`s, as the hardware wraps it. -/
def wrapInt (n : Int) : Int := n.bmod (2 ^ 32)

/-- `isTopicValid`. -/
def NodeConfig.isTopicValid (cfg : NodeConfig) (topic : Int) : Bool :=
  0 ≤ topic && topic < cfg.MAX_SUBSCRIBERS + 100

/-- `message_in[index] = data`. -/
def storeAt (messageIn : List UInt8) (index : Int) (data : UInt8) : List UInt8 :=
  if 0 ≤ index then messageIn.set index.toNat data else messageIn

/-- `checksum_ % 256 == 255`.  The remainder of C++ has the sign of the
dividend. -/
def Receiver.checksumGood (r : Receiver) : Bool := r.checksum.tmod 256 = 255

/-- The state machine of the loop in `spinOnce`, for one byte. -/
def Receiver.step (cfg : NodeConfig) (data : UInt8) (r : Receiver) : Receiver × Reaction :=
  let r := { r with checksum := wrapInt (r.checksum + data.toNat) }
  match r.mode with
  | .MESSAGE =>
    let bytes := r.bytes - 1
    ({ r with
        messageIn := storeAt r.messageIn r.index data
        index := r.index + 1
        bytes := bytes
        mode := if bytes = 0 then .MSG_CHECKSUM else .MESSAGE },
      .store r.index)
  | .FIRST_FF =>
    if data = 0xff then ({ r with mode := .PROTOCOL_VER }, .sync) else (r, .skip)
  | .PROTOCOL_VER =>
    if data = PROTOCOL_VER then ({ r with mode := .SIZE_L }, .quiet)
    else ({ r with mode := .FIRST_FF }, .version)
  | .SIZE_L =>
    ({ r with bytes := data.toNat, index := 0, mode := .SIZE_H, checksum := data.toNat }, .quiet)
  | .SIZE_H =>
    ({ r with bytes := r.bytes + data.toNat * 256, mode := .SIZE_CHECKSUM }, .quiet)
  | .SIZE_CHECKSUM =>
    if r.checksumGood then ({ r with mode := .TOPIC_L }, .quiet)
    else ({ r with mode := .FIRST_FF }, .quiet)
  | .TOPIC_L => ({ r with topic := data.toNat, mode := .TOPIC_H, checksum := data.toNat }, .quiet)
  | .TOPIC_H =>
    let r := { r with topic := r.topic + data.toNat * 256 }
    if cfg.isTopicValid r.topic then
      ({ r with mode := if r.bytes = 0 then .MSG_CHECKSUM else .MESSAGE }, .header r.bytes)
    else ({ r with mode := .FIRST_FF }, .invalidTopic)
  | .MSG_CHECKSUM =>
    ({ r with mode := .FIRST_FF }, if r.checksumGood then .message r.topic else .quiet)

/-! ## The branches -/

def SPIN_OK : Int := 0
def SPIN_ERR : Int := -1
def SPIN_TIMEOUT : Int := -2

/-- The branches of the chain behind a good checksum. -/
inductive Branch
  | publisher
  | time
  | parameterRequest
  | txStop
  | subscriber (index : Int)
  deriving DecidableEq, Repr

/-- What a trace shows of a run. -/
inductive Event
  /-- A message has timed out. -/
  | reset
  /-- A byte was read. -/
  | read (data : UInt8) (reaction : Reaction)
  /-- `subscribers[index]` was read. -/
  | access (index : Int)
  /-- A branch was taken, with this content of `message_in`. -/
  | act (branch : Branch) (messageIn : List UInt8)
  deriving DecidableEq, Repr

/-- What no function of a node changes, except the loop of `spinOnce`: the
state machine, the bytes that have not been read, and the subscribers that are
registered. -/
structure Keeps (cfg : NodeConfig) (nh nh' : NodeHandle) : Prop where
  receiver : nh'.receiver = nh.receiver
  rx : nh'.hardware.rx = nh.hardware.rx
  subscribers : ∀ (i : Nat) (e : Endpoint),
    nh.subscribers[i]? = some (some e) → nh'.subscribers[i]? = some (some e)
  initialised : nh'.Initialised cfg

/-- The callbacks of the subscribers.  They deserialize the message and call
code of the user, which may use the node but does not spin it. -/
structure Callbacks (cfg : NodeConfig) where
  run : Nat → NodeHandle → NodeHandle
  keeps : ∀ i nh, nh.Initialised cfg → Keeps cfg nh (run i nh)

/-- `subscribers[index]`. -/
def NodeHandle.subscriberAt (nh : NodeHandle) (index : Int) : Option Endpoint :=
  if 0 ≤ index then nh.subscribers.getD index.toNat none else none

/-- `ucdr_reset_buffer` and `deserialize_encapsulation` on the input buffer. -/
def openInput (nh : NodeHandle) : NodeHandle :=
  { nh with
    inputCdr := (deserializeEncapsulation nh.receiver.messageIn (resetBuffer nh.inputCdr)).1 }

/-- The node, the trace, and the value of a `return` in the loop. -/
structure Outcome where
  nh : NodeHandle
  events : List Event
  result : Option Int

/-- The chain behind a good checksum. -/
def dispatch (cfg : NodeConfig) (callbacks : Callbacks cfg) (c_time : UInt32) (topic : Int)
    (nh : NodeHandle) : Outcome :=
  let messageIn := nh.receiver.messageIn
  if topic = TopicInfo.ID_PUBLISHER then
    let nh := negotiateTopics cfg (requestSyncTime cfg nh)
    { nh := { nh with lastSyncTime := c_time, lastSyncReceiveTime := c_time }
      events := [.act .publisher messageIn], result := some SPIN_ERR }
  else if topic = TopicInfo.ID_TIME then
    { nh := syncTime (openInput nh), events := [.act .time messageIn], result := none }
  else if topic = TopicInfo.ID_PARAMETER_REQUEST then
    { nh := { nh with paramReceived := true }
      events := [.act .parameterRequest messageIn], result := none }
  else if topic = TopicInfo.ID_TX_STOP then
    { nh := { nh with configured := false }
      events := [.act .txStop messageIn], result := none }
  else if cfg.isTopicValid topic then
    let index := topic - 100
    match nh.subscriberAt index with
    | some _ =>
      { nh := callbacks.run index.toNat (openInput nh)
        events := [.access index, .act (.subscriber index) messageIn], result := none }
    | none => { nh := nh, events := [.access index], result := none }
  else { nh := nh, events := [], result := none }

/-- What the branches of the loop do besides the step. -/
def react (cfg : NodeConfig) (callbacks : Callbacks cfg) (c_time : UInt32) (reaction : Reaction)
    (nh : NodeHandle) : Outcome :=
  match reaction with
  | .sync =>
    { nh := { nh with lastMsgTimeoutTime := c_time + 20 }, events := [], result := none }
  | .skip =>
    let (t, hardware) := nh.hardware.time
    let nh := { nh with hardware := hardware }
    if t - c_time > 2000 then
      { nh := { nh with configured := false }, events := [], result := some SPIN_TIMEOUT }
    else { nh := nh, events := [], result := none }
  | .version =>
    { nh := if nh.configured then nh else requestSyncTime cfg nh, events := [], result := none }
  | .invalidTopic =>
    { nh := { nh with configured := false }, events := [], result := none }
  | .message topic => dispatch cfg callbacks c_time topic nh
  | .quiet | .header _ | .store _ => { nh := nh, events := [], result := none }

/-- The body of the loop, for one byte. -/
def handle (cfg : NodeConfig) (callbacks : Callbacks cfg) (c_time : UInt32) (data : UInt8)
    (nh : NodeHandle) : Outcome :=
  let (receiver, reaction) := nh.receiver.step cfg data
  let outcome := react cfg callbacks c_time reaction { nh with receiver := receiver }
  { outcome with events := .read data reaction :: outcome.events }

/-- The check at the top of the loop. -/
def spinExpired (c_time : UInt32) (nh : NodeHandle) : NodeHandle × Bool :=
  if nh.spinTimeout > 0 then
    let (t, hardware) := nh.hardware.time
    ({ nh with hardware := hardware }, t - c_time > nh.spinTimeout)
  else (nh, false)

/-- The loop, on the bytes that there are to read. -/
def spinLoop (cfg : NodeConfig) (callbacks : Callbacks cfg) (c_time : UInt32) :
    List UInt8 → NodeHandle → Outcome
  | [], nh =>
    let (nh, expired) := spinExpired c_time nh
    { nh := nh, events := [], result := if expired then some SPIN_TIMEOUT else none }
  | data :: rest, nh =>
    let (nh, expired) := spinExpired c_time nh
    if expired then { nh := nh, events := [], result := some SPIN_TIMEOUT }
    else
      let first := handle cfg callbacks c_time data
        { nh with hardware := { nh.hardware with rx := rest } }
      match first.result with
      | some _ => first
      | none =>
        let more := spinLoop cfg callbacks c_time rest first.nh
        { more with events := first.events ++ more.events }

/-- "Restart if timed out": without an answer to the synchronisation for too long,
the topics have to be negotiated again. -/
def restartIfTimedOut (c_time : UInt32) (nh : NodeHandle) : NodeHandle :=
  if c_time - nh.lastSyncReceiveTime > 4400 then { nh with configured := false } else nh

/-- "Reset if message has timed out". -/
def resetIfTimedOut (c_time : UInt32) (nh : NodeHandle) : NodeHandle × List Event :=
  if nh.receiver.mode ≠ .FIRST_FF ∧ c_time > nh.lastMsgTimeoutTime then
    ({ nh with receiver := { nh.receiver with mode := .FIRST_FF } }, [.reset])
  else (nh, [])

/-- "Occasionally sync time". -/
def occasionallySync (cfg : NodeConfig) (c_time : UInt32) (nh : NodeHandle) : NodeHandle :=
  if nh.configured && c_time - nh.lastSyncTime > 2000 then
    { requestSyncTime cfg nh with lastSyncTime := c_time }
  else nh

/-- `spinOnce`: the node, the trace, and the returned code. -/
def spinOnce (cfg : NodeConfig) (callbacks : Callbacks cfg) (nh : NodeHandle) :
    NodeHandle × List Event × Int :=
  let (c_time, hardware) := nh.hardware.time
  let nh := restartIfTimedOut c_time { nh with hardware := hardware }
  let (nh, reset) := resetIfTimedOut c_time nh
  let outcome := spinLoop cfg callbacks c_time nh.hardware.rx nh
  match outcome.result with
  | some code => (outcome.nh, reset ++ outcome.events, code)
  | none => (occasionallySync cfg c_time outcome.nh, reset ++ outcome.events, SPIN_OK)

end Ros2Serial.Device
