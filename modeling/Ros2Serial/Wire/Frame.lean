import Ros2Serial.Lib.Bytes

/-!
# The frame format

Both directions of the link carry the same frames:

`ff fe`, the payload length, its checksum, the topic id, the payload, and a
checksum over topic id and payload.

Numbers are 16-bit little-endian.  A checksum is what the sum of the covered
bytes lacks to 255, modulo 256, so a receiver that adds it to that sum gets
255 (`sum_complement`).

`encode` is the format itself.  The device writes it in `publish` and the host
in `write_message`; each has its own theorem that says so.
-/

namespace Ros2Serial.Wire

open Bytes

/-- The low byte of a 16-bit number. -/
def lo (n : Nat) : UInt8 := UInt8.ofNat (n % 256)

/-- The high byte of a 16-bit number. -/
def hi (n : Nat) : UInt8 := UInt8.ofNat (n / 256 % 256)

/-- The checksum byte of a sum. -/
def complement (sum : Nat) : UInt8 := UInt8.ofNat (255 - sum % 256)

/-- The checksum of the length field. -/
def lengthChecksum (length : Nat) : UInt8 := complement ((lo length).toNat + (hi length).toNat)

/-- The checksum of topic id and payload. -/
def messageChecksum (topic : Nat) (payload : List UInt8) : UInt8 :=
  complement ((lo topic).toNat + (hi topic).toNat + byteSum payload)

/-- The seven bytes in front of the payload. -/
def header (topic length : Nat) : List UInt8 :=
  [0xff, 0xfe, lo length, hi length, lengthChecksum length, lo topic, hi topic]

/-- A frame. -/
def encode (topic : Nat) (payload : List UInt8) : List UInt8 :=
  header topic payload.length ++ payload ++ [messageChecksum topic payload]

@[simp] theorem header_length (topic length : Nat) : (header topic length).length = 7 := rfl

@[simp] theorem encode_length (topic : Nat) (payload : List UInt8) :
    (encode topic payload).length = payload.length + 8 := by
  simp [encode]
  omega

@[simp] theorem lo_toNat (n : Nat) : (lo n).toNat = n % 256 := by
  simp [lo]

@[simp] theorem hi_toNat (n : Nat) : (hi n).toNat = n / 256 % 256 := by
  simp [hi]

/-- The two bytes of a 16-bit number give the number back. -/
theorem lo_add_hi {n : Nat} (h : n < 65536) : (lo n).toNat + 256 * (hi n).toNat = n := by
  simp only [lo_toNat, hi_toNat]
  omega

@[simp] theorem complement_toNat (sum : Nat) : (complement sum).toNat = 255 - sum % 256 := by
  rw [complement, UInt8.toNat_ofNat']
  omega

/-- The test that a receiver makes: a sum and its checksum add up to 255. -/
theorem sum_complement (sum : Nat) : (sum + (complement sum).toNat) % 256 = 255 := by
  rw [complement_toNat]
  omega

/-- No other byte passes the test. -/
theorem sum_eq_iff {sum : Nat} {b : UInt8} : (sum + b.toNat) % 256 = 255 ↔ b = complement sum := by
  have hb := b.toNat_lt
  rw [← UInt8.toNat_inj, complement_toNat]
  omega

/-- The frames of a list of topics and payloads, one after the other. -/
def encodeAll (frames : List (Nat × List UInt8)) : List UInt8 :=
  frames.flatMap fun frame => encode frame.1 frame.2

@[simp] theorem encodeAll_nil : encodeAll [] = [] := rfl

@[simp] theorem encodeAll_cons (topic : Nat) (payload : List UInt8)
    (frames : List (Nat × List UInt8)) :
    encodeAll ((topic, payload) :: frames) = encode topic payload ++ encodeAll frames := rfl

theorem encodeAll_append (frames more : List (Nat × List UInt8)) :
    encodeAll (frames ++ more) = encodeAll frames ++ encodeAll more :=
  List.flatMap_append

/-- A payload with its checksum. -/
def body (topic : Nat) (payload : List UInt8) : List UInt8 :=
  payload ++ [messageChecksum topic payload]

/-- The first bytes of a frame, and the others. -/
theorem encodeAll_cons_eq (topic : Nat) (payload : List UInt8)
    (frames : List (Nat × List UInt8)) :
    encodeAll ((topic, payload) :: frames) =
      [0xff] ++ ([0xfe] ++ ((header topic payload.length).drop 2 ++
        (body topic payload ++ encodeAll frames))) := by
  simp [encode, header, body]

/-- The topic field of a frame. -/
def topicOf (frame : List UInt8) : Nat :=
  (frame.getD 5 0).toNat + 256 * (frame.getD 6 0).toNat

/-- The payload of a frame, which lies between the header and the checksum. -/
def payloadOf (frame : List UInt8) : List UInt8 := (frame.drop 7).dropLast

@[simp] theorem payloadOf_encode (topic : Nat) (payload : List UInt8) :
    payloadOf (encode topic payload) = payload := by
  simp [payloadOf, encode, header]

theorem topicOf_encode {topic : Nat} (h : topic < 65536) (payload : List UInt8) :
    topicOf (encode topic payload) = topic := by
  simpa [topicOf, encode, header] using lo_add_hi h

end Ros2Serial.Wire
