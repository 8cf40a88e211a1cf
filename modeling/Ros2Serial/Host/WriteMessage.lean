import Ros2Serial.Host.SimpleCdr

/-!
# The loop of `write_message`

`checksum(Buffer&)` counts the bytes with a `uint16_t` and compares it with
`size()`.  With 65536 bytes or more the counter never gets there: after 65535
it starts again.  `writeMessage` is the function with its loop, and the fuel
bounds the number of tests.  It ends with a frame that is dispatched, or with
the exception of `check_space`.

`exact_iff` says for which payloads the function ends and dispatches what it
should.
-/

namespace Ros2Serial.Host

open Bytes

/-! ## The function with its loop -/

/-- The loop of `checksum(Buffer&)`, from a count on. -/
def checksumLoop (stream : List UInt8) : Nat → UInt16 → UInt8 → Option UInt8
  | 0, _, _ => none
  | fuel + 1, i, sum =>
    if i.toNat < stream.length then checksumLoop stream fuel (i + 1) (sum + stream.getD i.toNat 0)
    else some sum

/-- How `write_message` ends. -/
inductive WriteOutcome
  | dispatched (frame : List UInt8)
  | thrown
  deriving DecidableEq, Repr

/-- The stream that `write_message` fills, when it has the sum of the payload. -/
def messageStream (sum : UInt8) (message : List UInt8) (topic_id : Nat) : Option SimpleCdr := do
  let length := (8 + message.length) % 65536
  let msg_checksum := 255 - (sum + checksum16 topic_id)
  let stream : SimpleCdr := { buffer := List.replicate length 0, offset := 0 }
  let msg_len_checksum := 255 - checksum16 (message.length % 65536)
  let stream ← stream.putUint16 0xfeff
  let stream ← stream.putUint16 (message.length % 65536)
  let stream ← stream.putUint8 msg_len_checksum
  let stream ← stream.putUint16 topic_id
  let stream ← stream.put message
  stream.putUint8 msg_checksum

/-- `write_message`.  It is `none` where the loop has not ended. -/
def writeMessage (fuel : Nat) (message : List UInt8) (topic_id : UInt16) : Option WriteOutcome := do
  let sum ← checksumLoop message fuel 0 0
  match messageStream sum message topic_id.toNat with
  | some stream => some (.dispatched stream.buffer)
  | none => some .thrown

/-! ## The loop -/

section Loop

variable {stream : List UInt8}

/-- As long as the counter cannot start again, the loop ends with the sum of the bytes. -/
theorem checksumLoop_eq (hlength : stream.length < 65536) {i : UInt16} {left : Nat}
    (hleft : i.toNat + left = stream.length) (sum : UInt8) :
    checksumLoop stream (left + 1) i sum =
      some (sum + UInt8.ofNat (byteSum (stream.drop i.toNat))) := by
  induction left generalizing i sum with
  | zero =>
    have hend : stream.drop i.toNat = [] := List.drop_eq_nil_of_le (by omega)
    rw [checksumLoop, if_neg (by omega), hend]
    simp
  | succ left ih =>
    have hi : i.toNat < stream.length := by omega
    have hnext : (i + 1).toNat = i.toNat + 1 := by
      rw [UInt16.toNat_add, show (1 : UInt16).toNat = 1 from rfl]
      omega
    have hget : stream.getD i.toNat 0 = stream[i.toNat] := by simp [List.getD, hi]
    rw [checksumLoop, if_pos hi, ih (by omega), hnext, hget, List.drop_eq_getElem_cons hi,
      byteSum_cons, UInt8.ofNat_add, UInt8.ofNat_toNat, UInt8.add_assoc]

/-- More fuel makes no difference to a loop that has ended. -/
theorem checksumLoop_mono {fuel more : Nat} (hle : fuel ≤ more) {i : UInt16} {sum result : UInt8}
    (h : checksumLoop stream fuel i sum = some result) :
    checksumLoop stream more i sum = some result := by
  induction fuel generalizing more i sum with
  | zero => cases h
  | succ fuel ih =>
    cases more with
    | zero => omega
    | succ more =>
      rw [checksumLoop] at h ⊢
      by_cases hi : i.toNat < stream.length
      · rw [if_pos hi] at h ⊢
        exact ih (by omega) h
      · rw [if_neg hi] at h ⊢
        exact h

/-- The counter is always below the length, and the loop does not end. -/
theorem checksumLoop_eq_none (hlength : 65536 ≤ stream.length) (fuel : Nat) (i : UInt16)
    (sum : UInt8) : checksumLoop stream fuel i sum = none := by
  induction fuel generalizing i sum with
  | zero => rfl
  | succ fuel ih =>
    have hi := i.toNat_lt
    rw [checksumLoop, if_pos (by omega)]
    exact ih _ _

/-- The loop ends with what `checksum` says, or does not end. -/
theorem exists_checksumLoop_iff {sum : UInt8} :
    (∃ fuel, checksumLoop stream fuel 0 0 = some sum) ↔ checksum stream = some sum := by
  rw [checksum]
  split
  · rename_i hlength
    have hleft : (0 : UInt16).toNat + stream.length = stream.length := Nat.zero_add _
    have hloop := checksumLoop_eq hlength hleft 0
    simp only [UInt8.zero_add] at hloop
    constructor
    · rintro ⟨fuel, h⟩
      rw [← checksumLoop_mono (Nat.le_max_left fuel _) h]
      exact (checksumLoop_mono (Nat.le_max_right fuel _) hloop).symm
    · rintro h
      exact ⟨_, hloop.trans h⟩
  · rename_i hlength
    constructor
    · rintro ⟨fuel, h⟩
      rw [checksumLoop_eq_none (by omega)] at h
      cases h
    · intro h
      cases h

end Loop

/-! ## What is dispatched -/

section Dispatch

variable {message : List UInt8} {topic_id : UInt16}

theorem messageBuffer_eq_map {sum : UInt8} (hsum : checksum message = some sum) (topic_id : Nat) :
    messageBuffer message topic_id = (messageStream sum message topic_id).map SimpleCdr.buffer := by
  simp only [messageBuffer, messageStream, hsum, Option.bind_eq_bind, Option.bind_some,
    Option.map_eq_bind, Option.bind_assoc, Function.comp_def]

/-- Behind the loop, `write_message` dispatches a frame, or throws. -/
theorem writeMessage_eq {fuel : Nat} {sum : UInt8}
    (hloop : checksumLoop message fuel 0 0 = some sum) :
    writeMessage fuel message topic_id =
      some ((messageBuffer message topic_id.toNat).elim .thrown .dispatched) := by
  rw [messageBuffer_eq_map (exists_checksumLoop_iff.mp ⟨fuel, hloop⟩), writeMessage, hloop]
  cases hstream : messageStream sum message topic_id.toNat with
  | some stream => simp [hstream]
  | none => simp [hstream]

/-- `write_message` ends where its loop does. -/
theorem exists_writeMessage_iff :
    (∃ fuel written, writeMessage fuel message topic_id = some written) ↔
      message.length < 65536 := by
  constructor
  · rintro ⟨fuel, written, h⟩
    by_contra hlength
    rw [writeMessage, checksumLoop_eq_none (by omega)] at h
    cases h
  · intro hlength
    obtain ⟨fuel, hloop⟩ := exists_checksumLoop_iff.mpr (if_pos hlength : checksum message = _)
    exact ⟨fuel, _, writeMessage_eq hloop⟩

/-- What `write_message` dispatches is the frame of its payload, and nothing else. -/
theorem writeMessage_eq_dispatched {fuel : Nat} {frame : List UInt8}
    (h : writeMessage fuel message topic_id = some (.dispatched frame)) :
    message.length ≤ 65527 ∧ frame = Wire.encode topic_id.toNat message := by
  cases hloop : checksumLoop message fuel 0 0 with
  | none =>
    rw [writeMessage, hloop] at h
    cases h
  | some sum =>
    rw [writeMessage_eq hloop] at h
    refine (messageBuffer_eq_some_iff topic_id.toNat_lt).mp ?_
    cases hframe : messageBuffer message topic_id.toNat with
    | none =>
      rw [hframe] at h
      cases h
    | some frame' =>
      rw [hframe] at h
      obtain rfl := WriteOutcome.dispatched.inj (Option.some.inj h)
      rfl

/-- A payload that is not too long is dispatched when `write_message` ends. -/
theorem writeMessage_short (hlength : message.length ≤ 65527) {fuel : Nat} {written : WriteOutcome}
    (h : writeMessage fuel message topic_id = some written) :
    written = .dispatched (Wire.encode topic_id.toNat message) := by
  cases hloop : checksumLoop message fuel 0 0 with
  | none =>
    rw [writeMessage, hloop] at h
    cases h
  | some sum =>
    rw [writeMessage_eq hloop, messageBuffer_eq hlength topic_id.toNat_lt] at h
    exact (Option.some.inj h).symm

/-- `write_message` ends, with the frame of the payload where the payload is short enough and
with nothing where it is not, and a frame that it dispatches is always that of the payload. -/
structure Exact (message : List UInt8) (topic_id : UInt16) : Prop where
  ends : ∃ fuel written, writeMessage fuel message topic_id = some written
  short : message.length ≤ 65527 → ∀ fuel written,
    writeMessage fuel message topic_id = some written →
      written = .dispatched (Wire.encode topic_id.toNat message)
  long : 65527 < message.length → ∀ fuel frame,
    writeMessage fuel message topic_id ≠ some (.dispatched frame)
  frame : ∀ fuel frame, writeMessage fuel message topic_id = some (.dispatched frame) →
    frame = Wire.encode topic_id.toNat message

end Dispatch

/-- `write_message` is exact for every payload over which the counter of its loop gets. -/
theorem exact_iff (message : List UInt8) (topic_id : UInt16) :
    Exact message topic_id ↔ message.length < 65536 := by
  constructor
  · exact fun h => exists_writeMessage_iff.mp h.ends
  · intro hlength
    refine ⟨exists_writeMessage_iff.mpr hlength, ?_, ?_, ?_⟩
    · exact fun hshort fuel written => writeMessage_short hshort
    · intro hlong fuel frame h
      have hshort := (writeMessage_eq_dispatched h).1
      omega
    · exact fun fuel frame h => (writeMessage_eq_dispatched h).2

/-- With 65536 bytes the loop of the checksum goes on for ever. -/
theorem largeMessage_not_exact : ¬ Exact (List.replicate 65536 0) 125 := by
  intro h
  have hlength := exists_writeMessage_iff.mp h.ends
  rw [List.length_replicate] at hlength
  omega

end Ros2Serial.Host
