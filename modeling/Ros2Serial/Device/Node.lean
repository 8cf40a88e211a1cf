import Ros2Serial.Generator.Replay

/-!
# The node handle

`NodeHandle_` of `ros/node_handle.h` with `cdr.h`, `publisher.h` and
`subscriber.h`: the state of a node, and everything that it sends.
`SpinOnce.lean` has what it receives.

* The template arguments are a `NodeConfig`.
* `int` is an unbounded integer here, with the casts of the source as explicit
  remainders.  The receiver's `checksum_` is the exception, see
  `SpinOnce.lean`.
* `Hardware` holds the bytes that have arrived and are not read yet, the
  buffers that were written, and the readings of the millisecond clock in the
  order in which the program takes them.
* A message is a definition with a value, and what the virtual
  `cdr_serialize` writes is the generated code for it.

`publish` calls itself through `logerror` when a message is too large for
`message_out`.  It returns only if the report of that fits, so a `NodeConfig`
has an `OUTPUT_SIZE` of at least 77.  The typedefs of `ros.h` start at 150.
-/

namespace Ros2Serial.Device

open Bytes PlainCdr Ucdr Generator

/-! ## Configuration and state -/

/-- The template arguments of `NodeHandle_`. -/
structure NodeConfig where
  MAX_SUBSCRIBERS : Nat
  MAX_PUBLISHERS : Nat
  INPUT_SIZE : Nat
  OUTPUT_SIZE : Nat
  logFits : 77 ≤ OUTPUT_SIZE

/-- `NodeHandle` of `ros.h` on an ATmega8 or ATmega168. -/
def atmega168 : NodeConfig := ⟨6, 6, 150, 150, by decide⟩

/-- `NodeHandle` of `ros.h` on every other board. -/
def defaultBoard : NodeConfig := ⟨25, 25, 512, 512, by decide⟩

/-- A message: its class, and the values of its fields. -/
structure Msg where
  definition : MessageDef
  value : definition.Val

def Msg.items (msg : Msg) : List Item := msg.definition.items msg.value

def Msg.cdrSerialize (msg : Msg) (cdr : Cdr) : Cdr := msg.definition.cdrSerialize msg.value cdr

theorem Msg.cdrSerialize_eq_writeItems (msg : Msg) (cdr : Cdr) :
    msg.cdrSerialize cdr = writeItems msg.items cdr :=
  msg.definition.cdrSerialize_eq_writeItems msg.value cdr

/-- What an endpoint tells about itself. -/
structure Endpoint where
  id : Int
  topic : CString
  type : CString
  md5 : CString
  endpoint : Int

/-- The board: unread bytes, written buffers, and the clock with the number of
readings taken. -/
structure Hardware where
  rx : List UInt8
  tx : List (List UInt8)
  clock : Nat → UInt32
  readings : Nat

/-- `hardware_.time()`. -/
def Hardware.time (h : Hardware) : UInt32 × Hardware :=
  (h.clock h.readings, { h with readings := h.readings + 1 })

/-- `hardware_.write(data, length)`. -/
def Hardware.write (data : List UInt8) (h : Hardware) : Hardware := { h with tx := h.tx ++ [data] }

inductive Mode
  | FIRST_FF
  | PROTOCOL_VER
  | SIZE_L
  | SIZE_H
  | SIZE_CHECKSUM
  | TOPIC_L
  | TOPIC_H
  | MESSAGE
  | MSG_CHECKSUM
  deriving DecidableEq, Repr

/-- The state machine variables of `spinOnce`, with the buffer it fills. -/
structure Receiver where
  mode : Mode
  bytes : Int
  topic : Int
  index : Int
  checksum : Int
  messageIn : List UInt8
  deriving DecidableEq, Repr

structure NodeHandle where
  hardware : Hardware
  rtTime : UInt32
  secOffset : UInt32
  nsecOffset : UInt32
  spinTimeout : UInt32
  receiver : Receiver
  messageOut : List UInt8
  outputCdr : Buffer
  inputCdr : Buffer
  publishers : List (Option Endpoint)
  subscribers : List (Option Endpoint)
  configured : Bool
  lastSyncTime : UInt32
  lastSyncReceiveTime : UInt32
  lastMsgTimeoutTime : UInt32
  paramReceived : Bool

/-- `initNode()`. -/
def initNode (cfg : NodeConfig) (nh : NodeHandle) : NodeHandle :=
  { nh with
    receiver := { nh.receiver with mode := .FIRST_FF, bytes := 0, index := 0, topic := 0 }
    outputCdr := initBuffer 7 (cfg.OUTPUT_SIZE - 7)
    inputCdr := initBuffer 0 cfg.INPUT_SIZE }

/-- The members of a node before `initNode()`, with their initialisers.  The CDR
buffers have none. -/
def construct (cfg : NodeConfig) (hardware : Hardware) : NodeHandle where
  hardware := hardware
  rtTime := 0
  secOffset := 0
  nsecOffset := 0
  spinTimeout := 0
  receiver :=
    { mode := .FIRST_FF, bytes := 0, topic := 0, index := 0, checksum := 0
      messageIn := List.replicate cfg.INPUT_SIZE 0 }
  messageOut := List.replicate cfg.OUTPUT_SIZE 0
  outputCdr := initBuffer 0 0
  inputCdr := initBuffer 0 0
  publishers := List.replicate cfg.MAX_PUBLISHERS none
  subscribers := List.replicate cfg.MAX_SUBSCRIBERS none
  configured := false
  lastSyncTime := 0
  lastSyncReceiveTime := 0
  lastMsgTimeoutTime := 0
  paramReceived := false

/-- What the constructor and `initNode()` establish, and every member function
keeps: the arrays have their size, and the CDR buffers lie over them. -/
structure NodeHandle.Initialised (cfg : NodeConfig) (nh : NodeHandle) : Prop where
  messageIn : nh.receiver.messageIn.length = cfg.INPUT_SIZE
  messageOut : nh.messageOut.length = cfg.OUTPUT_SIZE
  outputInit : nh.outputCdr.init = 7
  outputFinal : nh.outputCdr.final = cfg.OUTPUT_SIZE
  outputOrigin : nh.outputCdr.origin = 0
  inputInit : nh.inputCdr.init = 0
  inputFinal : nh.inputCdr.final = cfg.INPUT_SIZE
  inputOrigin : nh.inputCdr.origin = 0
  publishers : nh.publishers.length = cfg.MAX_PUBLISHERS
  subscribers : nh.subscribers.length = cfg.MAX_SUBSCRIBERS

theorem initNode_initialised {cfg : NodeConfig} {nh : NodeHandle}
    (hin : nh.receiver.messageIn.length = cfg.INPUT_SIZE)
    (hout : nh.messageOut.length = cfg.OUTPUT_SIZE)
    (hpub : nh.publishers.length = cfg.MAX_PUBLISHERS)
    (hsub : nh.subscribers.length = cfg.MAX_SUBSCRIBERS) : (initNode cfg nh).Initialised cfg where
  messageIn := hin
  messageOut := hout
  outputInit := rfl
  outputFinal := by
    have := cfg.logFits
    simp only [initNode, initBuffer]
    omega
  outputOrigin := rfl
  inputInit := rfl
  inputFinal := by simp [initNode, initBuffer]
  inputOrigin := rfl
  publishers := hpub
  subscribers := hsub

theorem construct_initialised (cfg : NodeConfig) (hardware : Hardware) :
    (initNode cfg (construct cfg hardware)).Initialised cfg :=
  initNode_initialised (List.length_replicate ..) (List.length_replicate ..)
    (List.length_replicate ..) (List.length_replicate ..)

/-- A board with nothing to read and a clock that stands still. -/
def idleHardware : Hardware where
  rx := []
  tx := []
  clock _ := 0
  readings := 0

/-! ## `TopicInfo`, `Log` and `Time` -/

namespace TopicInfo

def ID_PUBLISHER : Int := 0
def ID_SUBSCRIBER : Int := 1
def ID_SERVICE_SERVER : Int := 2
def ID_SERVICE_CLIENT : Int := 4
def ID_PARAMETER_REQUEST : Int := 6
def ID_LOG : Int := 7
def ID_TIME : Int := 10
def ID_TX_STOP : Int := 11

end TopicInfo

/-- `rosserial_msgs/msg/TopicInfo.msg`. -/
def topicInfoDef : MessageDef :=
  .cons "topic_id" (.primitive .uint16) .single <|
  .cons "topic_name" .string .single <|
  .cons "message_type" .string .single <|
  .cons "md5sum" .string .single <|
  .cons "buffer_size" (.primitive .int32) .single .nil

/-- `rosserial_msgs/msg/Log.msg`. -/
def logDef : MessageDef :=
  .cons "level" (.primitive .uint8) .single <| .cons "msg" .string .single .nil

/-- `builtin_interfaces/msg/Time.msg`. -/
def timeDef : MessageDef :=
  .cons "sec" (.primitive .int32) .single <| .cons "nanosec" (.primitive .uint32) .single .nil

/-- A field without brackets. -/
def one (cls : DataClass) (v : cls.Val) :
    {elems : List cls.Val // ArraySize.single.Admits elems.length} :=
  ⟨[v], rfl⟩

/-- `topic_id` is a `uint16_t` and `buffer_size` an `int32_t`. -/
def topicInfo (e : Endpoint) (bufferSize : Nat) : Msg where
  definition := topicInfoDef
  value :=
    let id : Fin (256 ^ 2) := ⟨(e.id % 65536).toNat, by omega⟩
    let size : Fin (256 ^ 4) := ⟨bufferSize % 2 ^ 32, by omega⟩
    (one (.primitive .uint16) id, one .string e.topic,
      one .string e.type, one .string e.md5,
      one (.primitive .int32) size, ())

def logMsg (level : Fin 256) (text : CString) : Msg where
  definition := logDef
  value := (one (.primitive .uint8) level, one .string text, ())

def timeMsg (sec nanosec : UInt32) : Msg where
  definition := timeDef
  value :=
    let sec : Fin (256 ^ 4) := ⟨sec.toNat, sec.toNat_lt⟩
    let nanosec : Fin (256 ^ 4) := ⟨nanosec.toNat, nanosec.toNat_lt⟩
    (one (.primitive .int32) sec, one (.primitive .uint32) nanosec, ())

/-! ## `cdr.h` -/

/-- `serialize_encapsulation`. -/
def serializeEncapsulation (cdr : Cdr) : Cdr :=
  arrayToBuffer [0x00, 0x00] (serialize .one 0x01 (serialize .one 0x00 cdr))

/-- The items of the encapsulation: `00 01 00 00`. -/
def encapsulationItems : List Item :=
  [.prim .one 0x00, .prim .one 0x01, .octets [0x00, 0x00]]

theorem serializeEncapsulation_eq_writeItems (cdr : Cdr) :
    serializeEncapsulation cdr = writeItems encapsulationItems cdr := by
  simp only [encapsulationItems, writeItems_cons, writeItems_nil, writeItem,
    serializeEncapsulation]

/-- `deserialize_encapsulation`.  `dummy` and `encapsulation` are initialised
to 0. -/
def deserializeEncapsulation (mem : List UInt8) (ub : Buffer) : Buffer × Int :=
  let (ub, dummy) := deserialize mem .one ub
  if dummy.getD 0 ≠ 0x00 then (ub, -1)
  else
    let (ub, _) := deserialize mem .one ub
    let (ub, _) := bufferToArray mem 2 ub
    (ub, 4)

/-! ## Publishing -/

/-- The low and the high byte of `(uint16_t)n` or `(int16_t)n`, as stored in a
`uint8_t`. -/
def lowByte (n : Int) : UInt8 := UInt8.ofNat (n % 65536 % 256).toNat

def highByte (n : Int) : UInt8 := UInt8.ofNat (n % 65536 / 256).toNat

/-- The text that `publish` reports when a message is dropped. -/
def droppedText : CString :=
  ⟨"Message from device dropped: message larger than buffer.".toList.map
    fun c => UInt8.ofNat c.toNat, by decide, by decide⟩

/-- `rosserial_msgs::msg::Log::ERROR`. -/
def Log.ERROR : Fin 256 := 3

/-- `publish`, down to the given depth of calls through `logerror`.  Depth 1 is
enough for every message, because the report of a dropped message fits
(`publishDepth_of_le`). -/
def publishDepth (cfg : NodeConfig) : Nat → Int → Msg → NodeHandle → NodeHandle × Int
  | depth, id, msg, nh =>
    if 100 ≤ id && !nh.configured then (nh, 0)
    else
      let cdr : Cdr := { ub := resetBuffer nh.outputCdr, mem := nh.messageOut }
      let cdr := msg.cdrSerialize (serializeEncapsulation cdr)
      let l := bufferLength cdr.ub
      let lo := lowByte l
      let hi := highByte l
      let header := [0xff, 0xfe, lo, hi,
        UInt8.ofNat (255 - (lo.toNat + hi.toNat) % 256), lowByte id, highByte id]
      let out := overwrite cdr.mem 0 header
      let nh := { nh with outputCdr := cdr.ub, messageOut := out }
      let l := l + 7
      let chk := byteSum (slice out 5 (l - 5))
      if l < cfg.OUTPUT_SIZE then
        let out := overwrite out l [UInt8.ofNat (255 - chk % 256)]
        ({ nh with messageOut := out, hardware := nh.hardware.write (out.take (l + 1)) }, l + 1)
      else
        match depth with
        | 0 => (nh, -1)
        | depth + 1 =>
          let (nh, _) := publishDepth cfg depth TopicInfo.ID_LOG (logMsg Log.ERROR droppedText) nh
          (nh, -1)

/-- `publish`. -/
def publish (cfg : NodeConfig) (id : Int) (msg : Msg) (nh : NodeHandle) : NodeHandle × Int :=
  publishDepth cfg 1 id msg nh

/-- `log`. -/
def log (cfg : NodeConfig) (level : Fin 256) (text : CString) (nh : NodeHandle) : NodeHandle :=
  (publish cfg TopicInfo.ID_LOG (logMsg level text) nh).1

/-! ## Time -/

/-- `requestSyncTime`. -/
def requestSyncTime (cfg : NodeConfig) (nh : NodeHandle) : NodeHandle :=
  let (nh, _) := publish cfg TopicInfo.ID_TIME (timeMsg 0x78563412 0x78563412) nh
  let (t, hardware) := nh.hardware.time
  { nh with rtTime := t, hardware := hardware }

/-- `normalizeSecNSec`. -/
def normalizeSecNSec (sec nsec : UInt32) : UInt32 × UInt32 :=
  (sec + nsec / 1000000000, nsec % 1000000000)

/-- `setNow`. -/
def setNow (sec nanosec : UInt32) (nh : NodeHandle) : NodeHandle :=
  let (ms, hardware) := nh.hardware.time
  let (secOffset, nsecOffset) := normalizeSecNSec (sec - ms / 1000 - 1)
    (nanosec - ms % 1000 * 1000000 + 1000000000)
  { nh with hardware := hardware, secOffset := secOffset, nsecOffset := nsecOffset }

/-- `now`. -/
def now (nh : NodeHandle) : (UInt32 × UInt32) × NodeHandle :=
  let (ms, hardware) := nh.hardware.time
  (normalizeSecNSec (ms / 1000 + nh.secOffset) (ms % 1000 * 1000000 + nh.nsecOffset),
    { nh with hardware := hardware })

/-- `syncTime`.  `Time` has no array, so the platform of the generated code is
of no account. -/
def syncTime (nh : NodeHandle) : NodeHandle :=
  let (t, hardware) := nh.hardware.time
  let offset := t - nh.rtTime
  let (_, run) := timeDef.cdrDeserialize exactPlatform nh.receiver.messageIn
    ⟨timeDef.construct, Decoder.start nh.inputCdr⟩
  let sec := UInt32.ofNat (run.this "sec").asValue + offset / 1000
  let nanosec := UInt32.ofNat (run.this "nanosec").asValue + offset % 1000 * 1000000
  let nh := setNow sec nanosec { nh with hardware := hardware, inputCdr := run.dec.ub }
  let (t, hardware) := nh.hardware.time
  { nh with hardware := hardware, lastSyncReceiveTime := t }

/-! ## Topic management -/

/-- The first empty slot is filled.  The new entry gets the given id. -/
def fillSlot (base : Int) (e : Endpoint) : List (Option Endpoint) → Option (List (Option Endpoint))
  | [] => none
  | none :: rest => some (some { e with id := base } :: rest)
  | some x :: rest => (fillSlot (base + 1) e rest).map (some x :: ·)

/-- `advertise`. -/
def advertise (cfg : NodeConfig) (p : Endpoint) (nh : NodeHandle) : NodeHandle × Bool :=
  match fillSlot (100 + cfg.MAX_SUBSCRIBERS) p nh.publishers with
  | some publishers => ({ nh with publishers := publishers }, true)
  | none => (nh, false)

/-- `subscribe`. -/
def subscribe (s : Endpoint) (nh : NodeHandle) : NodeHandle × Bool :=
  match fillSlot 100 s nh.subscribers with
  | some subscribers => ({ nh with subscribers := subscribers }, true)
  | none => (nh, false)

/-- One of the two loops of `negotiateTopics`: a `TopicInfo` for each slot that
is not empty. -/
def announce (cfg : NodeConfig) (bufferSize : Nat) :
    List (Option Endpoint) → NodeHandle → NodeHandle
  | [], nh => nh
  | none :: rest, nh => announce cfg bufferSize rest nh
  | some e :: rest, nh =>
    announce cfg bufferSize rest (publish cfg e.endpoint (topicInfo e bufferSize) nh).1

/-- `negotiateTopics`. -/
def negotiateTopics (cfg : NodeConfig) (nh : NodeHandle) : NodeHandle :=
  let nh := announce cfg cfg.OUTPUT_SIZE nh.publishers nh
  let nh := announce cfg cfg.INPUT_SIZE nh.subscribers nh
  { nh with configured := true }

end Ros2Serial.Device
