import Ros2Serial.Wire.Frame

/-!
# `SimpleCdr` and `write_message`

The host's byte streams (`simplecdr.h`), the checksums of `session.h`, and the
frame that `Session::write_message` builds with them.

A stream is the bytes behind its pointer with an offset.  `operator<<` checks
the space and throws, which is `none` here.  `operator>>` does not check, and
nothing in `session.h` reads more than there is.

`messageBuffer_eq_some_iff` says that the result is a frame, up to the longest
payload whose frame a `uint16_t` can count, and that there is none beyond it.
-/

namespace Ros2Serial.Host

open Bytes

/-! ## Streams -/

/-- `SimpleCdr`: the `size_` bytes behind `buffer_`, and `offset_`. -/
structure SimpleCdr where
  buffer : List UInt8
  offset : Nat
  deriving DecidableEq, Repr

/-- `check_space`, and then the bytes. -/
def SimpleCdr.put (bytes : List UInt8) (stream : SimpleCdr) : Option SimpleCdr :=
  if stream.buffer.length - stream.offset < bytes.length then none
  else
    some { buffer := overwrite stream.buffer stream.offset bytes
           offset := stream.offset + bytes.length }

/-- `operator<<(const uint8_t&)`. -/
def SimpleCdr.putUint8 (value : UInt8) (stream : SimpleCdr) : Option SimpleCdr :=
  stream.put [value]

/-- `operator<<(const uint16_t&)`. -/
def SimpleCdr.putUint16 (value : Nat) (stream : SimpleCdr) : Option SimpleCdr :=
  stream.put [UInt8.ofNat (value % 256), UInt8.ofNat (value / 256)]

/-- `operator>>(uint8_t&)`. -/
def SimpleCdr.getUint8 (stream : SimpleCdr) : UInt8 × SimpleCdr :=
  (stream.buffer.getD stream.offset 0, { stream with offset := stream.offset + 1 })

/-- `operator>>(uint16_t&)`. -/
def SimpleCdr.getUint16 (stream : SimpleCdr) : Nat × SimpleCdr :=
  let (low, stream) := stream.getUint8
  let (high, stream) := stream.getUint8
  (low.toNat + 256 * high.toNat, stream)

/-! ## Checksums -/

/-- `checksum(SimpleCdr&)` and `checksum(Buffer&)`.  The counter of the loop is a
`uint16_t`, so that the loop does not end for 65536 bytes or more. -/
def checksum (bytes : List UInt8) : Option UInt8 :=
  if bytes.length < 65536 then some (UInt8.ofNat (byteSum bytes)) else none

/-- `checksum(uint16_t)`. -/
def checksum16 (val : Nat) : UInt8 := UInt8.ofNat (val / 256 + val)

/-- The sum of the two bytes of a 16-bit number. -/
theorem checksum16_eq (n : Nat) :
    checksum16 n = UInt8.ofNat ((Wire.lo n).toNat + (Wire.hi n).toNat) := by
  have hmod : (n / 256 + n) % 256 = ((Wire.lo n).toNat + (Wire.hi n).toNat) % 256 := by
    simp only [Wire.lo_toNat, Wire.hi_toNat]
    omega
  apply UInt8.toNat_inj.mp
  simpa [checksum16] using hmod

/-- What `255 - sum` is in a `uint8_t`. -/
theorem complement_eq (sum : Nat) : 255 - UInt8.ofNat sum = Wire.complement sum := by
  apply UInt8.toNat_inj.mp
  rw [Wire.complement_toNat, UInt8.toNat_sub, UInt8.toNat_ofNat']
  simp only [UInt8.reduceToNat]
  omega

/-! ## Frames -/

/-- The buffer that `write_message` hands to `write_buffer`. -/
def messageBuffer (message : List UInt8) (topic_id : Nat) : Option (List UInt8) := do
  let length := (8 + message.length) % 65536
  let sum ← checksum message
  let msg_checksum := 255 - (sum + checksum16 topic_id)
  let stream : SimpleCdr := { buffer := List.replicate length 0, offset := 0 }
  let msg_len_checksum := 255 - checksum16 (message.length % 65536)
  let stream ← stream.putUint16 0xfeff
  let stream ← stream.putUint16 (message.length % 65536)
  let stream ← stream.putUint8 msg_len_checksum
  let stream ← stream.putUint16 topic_id
  let stream ← stream.put message
  let stream ← stream.putUint8 msg_checksum
  some stream.buffer

/-- A stream of which the first bytes are written, and `n` are left. -/
def SimpleCdr.written (done : List UInt8) (n : Nat) : SimpleCdr where
  buffer := done ++ List.replicate n 0
  offset := done.length

/-- Writing goes on behind what is written. -/
theorem SimpleCdr.put_written (done bytes : List UInt8) (n : Nat) :
    (SimpleCdr.written done (bytes.length + n)).put bytes =
      some (SimpleCdr.written (done ++ bytes) n) := by
  have hroom : ¬ (done ++ List.replicate (bytes.length + n) (0 : UInt8)).length - done.length <
      bytes.length := by
    simp
  rw [SimpleCdr.put, SimpleCdr.written, if_neg hroom]
  simp [SimpleCdr.written, overwrite, List.drop_append]

/-- `write_message` builds a frame. -/
theorem messageBuffer_eq {message : List UInt8} {topic_id : Nat} (hlength : message.length ≤ 65527)
    (htopic : topic_id < 65536) :
    messageBuffer message topic_id = some (Wire.encode topic_id message) := by
  have hmod : message.length % 65536 = message.length := Nat.mod_eq_of_lt (by omega)
  have hstart : ({ buffer := List.replicate ((8 + message.length) % 65536) 0, offset := 0 } :
      SimpleCdr) = SimpleCdr.written [] (2 + (2 + (1 + (2 + (message.length + (1 + 0)))))) := by
    rw [show (8 + message.length) % 65536 = 2 + (2 + (1 + (2 + (message.length + (1 + 0)))))
      by omega]
    rfl
  have hsync : SimpleCdr.putUint16 0xfeff = SimpleCdr.put [0xff, 0xfe] := rfl
  have hput16 : ∀ n < 65536, SimpleCdr.putUint16 n = SimpleCdr.put [Wire.lo n, Wire.hi n] := by
    intro n hn
    funext stream
    rw [SimpleCdr.putUint16, Wire.lo, Wire.hi, Nat.mod_eq_of_lt (show n / 256 < 256 by omega)]
  have hlengthsum : 255 - checksum16 message.length = Wire.lengthChecksum message.length := by
    rw [checksum16_eq, complement_eq, Wire.lengthChecksum]
  have hmessage : 255 - (UInt8.ofNat (byteSum message) + checksum16 topic_id) =
      Wire.messageChecksum topic_id message := by
    rw [checksum16_eq, ← UInt8.ofNat_add, complement_eq, Wire.messageChecksum, Nat.add_comm]
  simp only [messageBuffer, checksum, if_pos (show message.length < 65536 by omega), hmod, hstart,
    hlengthsum, hmessage, hsync, hput16 topic_id htopic, hput16 message.length (by omega),
    SimpleCdr.putUint8, Option.bind_eq_bind, Option.bind_some]
  have h2 : ∀ (done : List UInt8) (x y : UInt8) (n : Nat),
      (SimpleCdr.written done (2 + n)).put [x, y] = some (SimpleCdr.written (done ++ [x, y]) n) :=
    fun done x y n => SimpleCdr.put_written done [x, y] n
  have h1 : ∀ (done : List UInt8) (x : UInt8) (n : Nat),
      (SimpleCdr.written done (1 + n)).put [x] = some (SimpleCdr.written (done ++ [x]) n) :=
    fun done x n => SimpleCdr.put_written done [x] n
  simp only [h2, h1, SimpleCdr.put_written, Option.bind_some]
  simp [SimpleCdr.written, Wire.encode, Wire.header]

/-- A write that succeeds stays inside the buffer. -/
theorem SimpleCdr.put_eq_some {stream stream' : SimpleCdr} {bytes : List UInt8}
    (h : stream.put bytes = some stream') (hoffset : stream.offset ≤ stream.buffer.length) :
    stream'.offset = stream.offset + bytes.length ∧
      stream'.buffer.length = stream.buffer.length ∧ stream'.offset ≤ stream'.buffer.length := by
  unfold put at h
  split at h
  · cases h
  · obtain rfl := Option.some.inj h
    have hlength := overwrite_length
      (show stream.offset + bytes.length ≤ stream.buffer.length by omega)
    dsimp only
    omega

/-- The longest payload that `write_message` takes.  With more, the buffer is too short for
the header, or the loop of the checksum does not end. -/
theorem length_le_of_messageBuffer {message frame : List UInt8} {topic_id : Nat}
    (h : messageBuffer message topic_id = some frame) : message.length ≤ 65527 := by
  unfold messageBuffer checksum at h
  split at h
  · rename_i hlength
    simp only [SimpleCdr.putUint16, SimpleCdr.putUint8, Option.bind_eq_bind, Option.bind_some,
      Option.bind_eq_some_iff] at h
    obtain ⟨s₁, h₁, s₂, h₂, s₃, h₃, s₄, h₄, s₅, h₅, s₆, h₆, -⟩ := h
    have h₁ := SimpleCdr.put_eq_some h₁ (Nat.zero_le _)
    have h₂ := SimpleCdr.put_eq_some h₂ h₁.2.2
    have h₃ := SimpleCdr.put_eq_some h₃ h₂.2.2
    have h₄ := SimpleCdr.put_eq_some h₄ h₃.2.2
    have h₅ := SimpleCdr.put_eq_some h₅ h₄.2.2
    have h₆ := SimpleCdr.put_eq_some h₆ h₅.2.2
    simp only [List.length_cons, List.length_nil, List.length_replicate] at h₁ h₂ h₃ h₄ h₅ h₆
    omega
  · cases h

theorem messageBuffer_eq_some_iff {message frame : List UInt8} {topic_id : Nat}
    (htopic : topic_id < 65536) :
    messageBuffer message topic_id = some frame ↔
      message.length ≤ 65527 ∧ frame = Wire.encode topic_id message := by
  constructor
  · intro h
    have hlength := length_le_of_messageBuffer h
    rw [messageBuffer_eq hlength htopic] at h
    exact ⟨hlength, (Option.some.inj h).symm⟩
  · rintro ⟨hlength, rfl⟩
    exact messageBuffer_eq hlength htopic

end Ros2Serial.Host
