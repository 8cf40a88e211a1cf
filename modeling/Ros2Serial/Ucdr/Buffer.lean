import Ros2Serial.Lib.Bytes
import Ros2Serial.Lib.PlainCdr

/-!
# The Micro-CDR buffer

`ucdrBuffer` of `ros_lib/ucdr/microcdr.h` and the functions of `common.c`,
`types/basic.c` and `types/array.c` that the node handle and the generated
messages call.

A pointer is an index into the memory that the buffer was initialised over,
and that memory is passed beside the buffer.  `endianness` is left out: it is
always the machine's, `UCDR_LITTLE_ENDIANNESS`, so `memcpy` of a value writes
its little-endian bytes.  `on_full_buffer` is left out as well: nothing in the
repository installs a handler, so a full buffer always sets `error`.
-/

namespace Ros2Serial.Ucdr

open Bytes PlainCdr

/-- `ucdrBuffer`.  `init`, `final` and `iterator` are indices into the memory
the buffer was initialised over. -/
structure Buffer where
  init : Nat
  final : Nat
  iterator : Nat
  origin : Nat
  offset : Nat
  lastDataSize : Nat
  error : Bool
  deriving DecidableEq, Repr

/-- A buffer with the memory its pointers point into. -/
structure Cdr where
  ub : Buffer
  mem : List UInt8
  deriving DecidableEq, Repr

/-! ## `common.c` -/

/-- `ucdr_init_buffer`, through `ucdr_init_buffer_origin_offset_endian` with
origin and offset 0. -/
def initBuffer (data size : Nat) : Buffer where
  init := data
  final := data + size
  iterator := data
  origin := 0
  offset := 0
  lastDataSize := 0
  error := false

/-- `ucdr_reset_buffer`, through `ucdr_reset_buffer_offset` with offset 0. -/
def resetBuffer (ub : Buffer) : Buffer :=
  { ub with iterator := ub.init, offset := ub.origin, lastDataSize := 0, error := false }

/-- `ucdr_check_buffer_available_for`. -/
def checkBufferAvailableFor (ub : Buffer) (bytes : Nat) : Bool :=
  !ub.error && ub.iterator + bytes ≤ ub.final

/-- `ucdr_check_final_buffer_behavior`.  The flag is the returned `!ub->error`. -/
def checkFinalBufferBehavior (ub : Buffer) : Buffer × Bool :=
  let ub := if !ub.error && ub.final ≤ ub.iterator then { ub with error := true } else ub
  (ub, !ub.error)

/-- `ucdr_buffer_remaining`. -/
def bufferRemaining (ub : Buffer) : Nat := ub.final - ub.iterator

/-- `ucdr_buffer_length`. -/
def bufferLength (ub : Buffer) : Nat := ub.iterator - ub.init

/-- `ucdr_check_final_buffer_behavior_array`. -/
def checkFinalBufferBehaviorArray (ub : Buffer) (bytes : Nat) : Buffer × Nat :=
  let ub :=
    if !ub.error && ub.final ≤ ub.iterator && 0 < bytes then { ub with error := true } else ub
  (ub, if ub.error then 0 else min bytes (bufferRemaining ub))

/-- `ucdr_buffer_alignment`.  The offset is cut to 32 bits before the division. -/
def bufferAlignment (ub : Buffer) (dataSize : Nat) : Nat :=
  if dataSize > ub.lastDataSize then
    (dataSize - ub.offset % 2 ^ 32 % dataSize) &&& (dataSize - 1)
  else 0

/-- The loop `while (0 < (n = ucdr_check_final_buffer_behavior_array(ub, remaining)))`
of `ucdr_advance_buffer`, `ucdr_array_to_buffer` and `ucdr_buffer_to_array`,
with the number of bytes it moves over.  Every round but the last moves at
least one byte, so `remaining + 1` rounds are enough. -/
def fillLoop : Nat → Buffer → Nat → Buffer × Nat
  | 0, ub, _ => (ub, 0)
  | fuel + 1, ub, remaining =>
    let (ub, n) := checkFinalBufferBehaviorArray ub remaining
    if n = 0 then (ub, 0)
    else
      let (ub, moved) :=
        fillLoop fuel { ub with iterator := ub.iterator + n, offset := ub.offset + n }
          (remaining - n)
      (ub, n + moved)

/-- `ucdr_advance_buffer`. -/
def advanceBuffer (ub : Buffer) (size : Nat) : Buffer :=
  let ub :=
    if checkBufferAvailableFor ub size then
      { ub with iterator := ub.iterator + size, offset := ub.offset + size }
    else (fillLoop (size + 1) ub size).1
  { ub with lastDataSize := 1 }

/-! ## `types/basic.c` -/

/-- `UCDR_SERIALIZE_BYTE_1`. -/
def serializeByte1 (value : Nat) (c : Cdr) : Cdr :=
  let (ub, ok) := checkFinalBufferBehavior c.ub
  if ok then
    { ub := { ub with
        iterator := ub.iterator + 1, offset := ub.offset + 1, lastDataSize := 1 }
      mem := overwrite c.mem ub.iterator (LittleEndian.encode 1 value) }
  else { c with ub := ub }

/-- `UCDR_SERIALIZE_BYTE_N`. -/
def serializeByteN (size value : Nat) (c : Cdr) : Cdr :=
  let alignment := bufferAlignment c.ub size
  let lastDataSize := c.ub.lastDataSize
  let ub := advanceBuffer c.ub alignment
  let bytes := LittleEndian.encode size value
  if checkBufferAvailableFor ub size then
    { ub := { ub with
        iterator := ub.iterator + size, offset := ub.offset + size, lastDataSize := size }
      mem := overwrite c.mem ub.iterator bytes }
  else if ub.iterator < ub.final then
    let firstSlot := ub.iterator
    let firstSlotSize := ub.final - ub.iterator
    let (ub, ok) := checkFinalBufferBehavior
      { ub with iterator := ub.iterator + firstSlotSize, offset := ub.offset + firstSlotSize }
    if ok then
      { ub := { ub with
          iterator := ub.iterator + (size - firstSlotSize)
          offset := ub.offset + (size - firstSlotSize)
          lastDataSize := size }
        mem := overwrite (overwrite c.mem firstSlot (bytes.take firstSlotSize)) ub.iterator
          (bytes.drop firstSlotSize) }
    else
      { c with ub := { ub with
          iterator := ub.iterator - firstSlotSize
          offset := ub.offset - firstSlotSize
          lastDataSize := lastDataSize } }
  else
    let (ub, ok) := checkFinalBufferBehavior ub
    if ok then
      { ub := { ub with
          iterator := ub.iterator + size, offset := ub.offset + size, lastDataSize := size }
        mem := overwrite c.mem ub.iterator bytes }
    else { c with ub := ub }

/-- `ucdr_serialize_T` for a primitive type `T` of the given width. -/
def serialize (w : Width) (value : Nat) (c : Cdr) : Cdr :=
  match w with
  | .one => serializeByte1 value c
  | w => serializeByteN w.bytes value c

/-- `UCDR_DESERIALIZE_BYTE_1`.  `none` when `*value` is left as it was. -/
def deserializeByte1 (mem : List UInt8) (ub : Buffer) : Buffer × Option Nat :=
  let (ub, ok) := checkFinalBufferBehavior ub
  if ok then
    ({ ub with iterator := ub.iterator + 1, offset := ub.offset + 1, lastDataSize := 1 },
      some (LittleEndian.decode (slice mem ub.iterator 1)))
  else (ub, none)

/-- `UCDR_DESERIALIZE_BYTE_N`.  `none` when `*value` is left as it was. -/
def deserializeByteN (mem : List UInt8) (size : Nat) (ub : Buffer) : Buffer × Option Nat :=
  let alignment := bufferAlignment ub size
  let lastDataSize := ub.lastDataSize
  let ub := advanceBuffer ub alignment
  if checkBufferAvailableFor ub size then
    ({ ub with iterator := ub.iterator + size, offset := ub.offset + size, lastDataSize := size },
      some (LittleEndian.decode (slice mem ub.iterator size)))
  else if ub.iterator < ub.final then
    let firstSlot := ub.iterator
    let firstSlotSize := ub.final - ub.iterator
    let (ub, ok) := checkFinalBufferBehavior
      { ub with iterator := ub.iterator + firstSlotSize, offset := ub.offset + firstSlotSize }
    if ok then
      ({ ub with
          iterator := ub.iterator + (size - firstSlotSize)
          offset := ub.offset + (size - firstSlotSize)
          lastDataSize := size },
        some (LittleEndian.decode
          (slice mem firstSlot firstSlotSize ++ slice mem ub.iterator (size - firstSlotSize))))
    else
      ({ ub with
          iterator := ub.iterator - firstSlotSize
          offset := ub.offset - firstSlotSize
          lastDataSize := lastDataSize }, none)
  else
    let (ub, ok) := checkFinalBufferBehavior ub
    if ok then
      ({ ub with
          iterator := ub.iterator + size, offset := ub.offset + size, lastDataSize := size },
        some (LittleEndian.decode (slice mem ub.iterator size)))
    else (ub, none)

/-- `ucdr_deserialize_T` for a primitive type `T` of the given width. -/
def deserialize (mem : List UInt8) (w : Width) (ub : Buffer) : Buffer × Option Nat :=
  match w with
  | .one => deserializeByte1 mem ub
  | w => deserializeByteN mem w.bytes ub

/-! ## `types/array.c`, `types/sequence.c` and `types/string.c` -/

/-- `ucdr_array_to_buffer` with elements of one byte, which is
`ucdr_serialize_array_char` and `ucdr_serialize_array_uint8_t`. -/
def arrayToBuffer (array : List UInt8) (c : Cdr) : Cdr :=
  let size := array.length
  let c' : Cdr :=
    if checkBufferAvailableFor c.ub size then
      { ub := { c.ub with iterator := c.ub.iterator + size, offset := c.ub.offset + size }
        mem := overwrite c.mem c.ub.iterator array }
    else
      let (ub, moved) := fillLoop (size + 1) c.ub size
      { ub := ub, mem := overwrite c.mem c.ub.iterator (array.take moved) }
  { c' with ub := { c'.ub with lastDataSize := 1 } }

/-- `ucdr_buffer_to_array` with elements of one byte, which is
`ucdr_deserialize_array_uint8_t`: the new buffer and the bytes copied. -/
def bufferToArray (mem : List UInt8) (size : Nat) (ub : Buffer) : Buffer × List UInt8 :=
  let (ub', moved) :=
    if checkBufferAvailableFor ub size then
      ({ ub with iterator := ub.iterator + size, offset := ub.offset + size }, size)
    else fillLoop (size + 1) ub size
  ({ ub' with lastDataSize := 1 }, slice mem ub.iterator moved)

/-- `ucdr_serialize_string`, through `ucdr_serialize_sequence_char`: the length
with the terminator, then the characters and the terminator. -/
def serializeString (string : List UInt8) (c : Cdr) : Cdr :=
  let length := string.length + 1
  arrayToBuffer (string ++ [0]) (serialize .four length c)

/-- The call that writes one item of a layout. -/
def writeItem : Item → Cdr → Cdr
  | .prim w value => serialize w value
  | .octets bytes => arrayToBuffer bytes

/-- The calls that write a layout, one after another.  No caller looks at the
returned flags. -/
def writeItems (items : List Item) (c : Cdr) : Cdr := items.foldl (fun c it => writeItem it c) c

@[simp] theorem writeItems_nil (c : Cdr) : writeItems [] c = c := rfl

@[simp] theorem writeItems_cons (it : Item) (rest : List Item) (c : Cdr) :
    writeItems (it :: rest) c = writeItems rest (writeItem it c) := rfl

theorem writeItems_append (xs ys : List Item) (c : Cdr) :
    writeItems (xs ++ ys) c = writeItems ys (writeItems xs c) := by
  simp [writeItems]

end Ros2Serial.Ucdr
