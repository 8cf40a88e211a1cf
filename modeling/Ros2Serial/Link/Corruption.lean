import Ros2Serial.Link.Decoders

/-!
# A frame with one wrong byte

A byte of a frame that is replaced by another one is found by one of its two
checksums.  Each is the complement of a sum, so the bytes that it covers and the
checksum itself add up to 255 modulo 256, and with one wrong byte they do not.  The
checksum of the length comes first: where the length is wrong nobody looks at the
rest, and where it is right the frame ends where it should.

So a frame with one wrong byte is not the beginning of any frame
(`Corrupts.not_encode`).  Both decoders report only what is in the stream
(`dispatched_genuine`), and neither reports anything that starts with it.
-/

namespace Ros2Serial.Link

open Bytes Device Host

/-! ## Sums with one wrong byte -/

section Sums

variable {bytes : List UInt8} {i : Nat} {b : UInt8}

theorem byteSum_set (hi : i < bytes.length) (b : UInt8) :
    byteSum (bytes.set i b) + bytes[i].toNat = byteSum bytes + b.toNat := by
  induction bytes generalizing i with
  | nil => exact absurd hi (Nat.not_lt_zero i)
  | cons x bytes ih =>
    cases i with
    | zero =>
      simp only [List.set_cons_zero, byteSum_cons, List.getElem_cons_zero]
      omega
    | succ i =>
      have hrest := ih (Nat.lt_of_succ_lt_succ hi)
      simp only [List.set_cons_succ, byteSum_cons, List.getElem_cons_succ]
      omega

/-- Another byte makes another sum, modulo 256 too. -/
theorem byteSum_set_ne (hi : i < bytes.length) (hb : bytes[i] ≠ b) :
    byteSum (bytes.set i b) % 256 ≠ byteSum bytes % 256 := by
  have hset := byteSum_set hi b
  have hne : bytes[i].toNat ≠ b.toNat := fun h => hb (UInt8.toNat_inj.mp h)
  have hold := bytes[i].toNat_lt
  have hnew := b.toNat_lt
  omega

end Sums

/-! ## The two checksums of a frame -/

/-- The length of a frame and its checksum. -/
def lengthBytes (frame : List UInt8) : List UInt8 := (frame.drop 2).take 3

/-- The bytes of a frame that the last one covers, with the last one. -/
def messageBytes (frame : List UInt8) : List UInt8 := frame.drop 5

theorem lengthBytes_encode (topic : Nat) (payload : List UInt8) :
    lengthBytes (Wire.encode topic payload) = [Wire.lo payload.length, Wire.hi payload.length,
      Wire.lengthChecksum payload.length] := rfl

theorem messageBytes_encode (topic : Nat) (payload : List UInt8) :
    messageBytes (Wire.encode topic payload) =
      Wire.lo topic :: Wire.hi topic :: (payload ++ [Wire.messageChecksum topic payload]) := rfl

theorem lengthBytes_sum (topic : Nat) (payload : List UInt8) :
    byteSum (lengthBytes (Wire.encode topic payload)) % 256 = 255 := by
  have hsum := Wire.sum_complement
    ((Wire.lo payload.length).toNat + (Wire.hi payload.length).toNat)
  rw [lengthBytes_encode, Wire.lengthChecksum]
  simp only [byteSum_cons, byteSum_nil]
  omega

theorem messageBytes_sum (topic : Nat) (payload : List UInt8) :
    byteSum (messageBytes (Wire.encode topic payload)) % 256 = 255 := by
  have hsum := Wire.sum_complement
    ((Wire.lo topic).toNat + (Wire.hi topic).toNat + byteSum payload)
  rw [messageBytes_encode, Wire.messageChecksum]
  simp only [byteSum_cons, byteSum_append, byteSum_nil]
  omega

/-- The length of a frame is in its length field. -/
theorem length_eq_of_lengthBytes {topic topic' : Nat} {payload payload' : List UInt8}
    (hlength : payload.length < 65536) (hlength' : payload'.length < 65536)
    (h : lengthBytes (Wire.encode topic payload) = lengthBytes (Wire.encode topic' payload')) :
    payload.length = payload'.length := by
  rw [lengthBytes_encode, lengthBytes_encode] at h
  obtain ⟨hlo, hhi, -⟩ : Wire.lo payload.length = Wire.lo payload'.length ∧
      Wire.hi payload.length = Wire.hi payload'.length ∧ _ := by
    simpa only [List.cons.injEq] using h
  rw [← Wire.lo_add_hi hlength, ← Wire.lo_add_hi hlength', hlo, hhi]

/-! ## One wrong byte -/

/-- One byte of the frame, behind the two sync bytes, is replaced by another one. -/
def Corrupts (frame corrupted : List UInt8) : Prop :=
  ∃ (i : Nat) (b : UInt8) (hi : i < frame.length),
    2 ≤ i ∧ frame[i] ≠ b ∧ corrupted = frame.set i b

section Corrupts

variable {topic topic' : Nat} {payload payload' corrupted after after' : List UInt8}

/-- The two fields of a stream that begins with these bytes. -/
theorem lengthBytes_append {bytes : List UInt8} (h : 5 ≤ bytes.length) (more : List UInt8) :
    lengthBytes (bytes ++ more) = lengthBytes bytes := by
  have hroom : 3 ≤ (bytes.drop 2).length := by
    rw [List.length_drop]
    omega
  rw [lengthBytes, List.drop_append_of_le_length (by omega), List.take_append_of_le_length hroom,
    lengthBytes]

/-- A frame with one wrong byte is not the beginning of a frame. -/
theorem Corrupts.not_encode (h : Corrupts (Wire.encode topic payload) corrupted)
    (hlength : payload.length < 65536) (hlength' : payload'.length < 65536) :
    corrupted ++ after ≠ Wire.encode topic' payload' ++ after' := by
  intro hstream
  obtain ⟨i, b, hi, htwo, hb, rfl⟩ := h
  have hlen : ((Wire.encode topic payload).set i b).length = payload.length + 8 := by
    rw [List.length_set, Wire.encode_length]
  have hlen' : (Wire.encode topic' payload').length = payload'.length + 8 :=
    Wire.encode_length topic' payload'
  -- both streams begin with the same length and checksum of the length
  have hfield := congrArg lengthBytes hstream
  rw [lengthBytes_append (by omega), lengthBytes_append (by omega)] at hfield
  rcases Nat.lt_or_ge i 5 with hinside | hbehind
  · -- the wrong byte is one of the three
    have hset : lengthBytes ((Wire.encode topic payload).set i b) =
        (lengthBytes (Wire.encode topic payload)).set (i - 2) b := by
      rw [lengthBytes, List.drop_set, if_neg (by omega), List.take_set, lengthBytes]
    have hroom : i - 2 < (lengthBytes (Wire.encode topic payload)).length := by
      show i - 2 < 3
      omega
    have hwrong : byteSum ((lengthBytes (Wire.encode topic payload)).set (i - 2) b) % 256 ≠
        byteSum (lengthBytes (Wire.encode topic payload)) % 256 := by
      refine byteSum_set_ne hroom ?_
      have hget : (lengthBytes (Wire.encode topic payload))[i - 2]? =
          (Wire.encode topic payload)[i]? := by
        rw [lengthBytes, List.getElem?_take, if_pos (by omega), List.getElem?_drop]
        congr 1
        omega
      rw [List.getElem?_eq_getElem hroom, List.getElem?_eq_getElem hi, Option.some.injEq] at hget
      rw [hget]
      exact hb
    rw [← hset, hfield, lengthBytes_sum, lengthBytes_sum] at hwrong
    exact hwrong rfl
  · -- the lengths agree, so the two frames end at the same place
    have hsame : lengthBytes ((Wire.encode topic payload).set i b) =
        lengthBytes (Wire.encode topic payload) := by
      rw [lengthBytes, List.drop_set, if_neg (by omega), List.take_set,
        List.set_eq_of_length_le (by simp only [List.length_take]; omega), lengthBytes]
    have hpayload := length_eq_of_lengthBytes hlength hlength' (hsame.symm.trans hfield)
    have hframe := (List.append_inj hstream (by omega)).1
    have hset : messageBytes ((Wire.encode topic payload).set i b) =
        (messageBytes (Wire.encode topic payload)).set (i - 5) b := by
      rw [messageBytes, List.drop_set, if_neg (by omega), messageBytes]
    have hwrong : byteSum ((messageBytes (Wire.encode topic payload)).set (i - 5) b) % 256 ≠
        byteSum (messageBytes (Wire.encode topic payload)) % 256 := by
      refine byteSum_set_ne (by rw [messageBytes, List.length_drop]; omega) ?_
      simp only [messageBytes, List.getElem_drop, Nat.add_sub_cancel' hbehind]
      exact hb
    rw [← hset, hframe, messageBytes_sum, messageBytes_sum] at hwrong
    exact hwrong rfl

/-- No frame in a stream starts where a frame with one wrong byte does. -/
theorem Corrupts.not_encodedIn (h : Corrupts (Wire.encode topic payload) corrupted)
    (hlength : payload.length < 65536) {before : List UInt8} {dispatch : Wire.Dispatch}
    (hencoded : dispatch.EncodedIn 0 (before ++ corrupted ++ after)) :
    dispatch.start ≠ before.length := by
  intro hstart
  obtain ⟨before', after', hstream, hstart', -⟩ := hencoded.range
  rw [Nat.zero_add] at hstart'
  rw [List.append_assoc, List.append_assoc] at hstream
  have hsplit := (List.append_inj hstream (hstart.symm.trans hstart')).2
  exact h.not_encode hlength hencoded.length hsplit

end Corrupts

/-- Neither end acts on a message that it has begun to read at the first byte of a frame of
which one byte, behind the two sync bytes, is replaced by another one.  It does not matter
what stands in front of the frame and behind it, nor whether the session is stopped and the
node times out on the way. -/
theorem corruption_detected {topic : Nat} {payload corrupted : List UInt8}
    (hlength : payload.length < 65536) (hcorrupts : Corrupts (Wire.encode topic payload) corrupted)
    (before after : List UInt8) :
    (∀ (handlers : Handlers) (s s' : Session) (unread : List UInt8) (steps : List SessionStep),
      s.AtBoundary unread → (∀ st ∈ steps, st ≠ .start) → s.exec handlers steps = some s' →
      unread ++ steps.flatMap SessionStep.arrived = before ++ corrupted ++ after →
      s'.lookups = s.lookups ++ Wire.frames (s.reports handlers steps) ∧
        ∀ dispatch ∈ Wire.dispatches (s.reports handlers steps),
          dispatch.start ≠ before.length) ∧
    ∀ (cfg : NodeConfig) (callbacks : Callbacks cfg) (nh : NodeHandle) (calls : List Call),
      nh.Initialised cfg → nh.receiver.mode = .FIRST_FF →
      nh.hardware.rx ++ calls.flatMap Call.arrived = before ++ corrupted ++ after →
      let reported := reports cfg nh.receiver (run cfg callbacks nh calls).2
      Acted cfg nh.Registered (taken (run cfg callbacks nh calls).2) (Wire.frames reported) ∧
        ∀ dispatch ∈ Wire.dispatches reported, dispatch.start ≠ before.length := by
  constructor
  · intro handlers s s' unread steps h hsteps hexec hstream
    obtain ⟨hlookups, hgenuine⟩ := h.exec_genuine hsteps hexec
    rw [hstream] at hgenuine
    exact ⟨hlookups, fun dispatch hdispatch =>
      hcorrupts.not_encodedIn hlength (hgenuine.encoded dispatch hdispatch)⟩
  · intro cfg callbacks nh calls hinit hmode hstream
    refine ⟨run_acted callbacks hinit hmode calls, ?_⟩
    have hgenuine := (Wire.genuine (devicePolicy cfg) 0 0
      (inputs (run cfg callbacks nh calls).2)).append (run cfg callbacks nh calls).1.hardware.rx
    rw [bytesOf_inputs, ← (run_spins callbacks hinit calls).rx, hstream] at hgenuine
    rw [Device.reports_eq hmode hinit.messageIn, dispatches_cut]
    intro dispatch hdispatch
    -- what the node has of a payload may be shorter, but it starts where the payload does
    obtain ⟨whole, hwhole, rfl⟩ := List.mem_map.mp hdispatch
    show whole.start ≠ before.length
    exact hcorrupts.not_encodedIn hlength (hgenuine.encoded whole hwhole)

/-- A disconnection, with the topic of a message about the time, and the disconnection
itself. -/
def brokenTopic : List UInt8 := (Wire.encode 11 []).set 5 0x0a ++ Wire.encode 11 []

/-- Of the two, both ends act on the second one. -/
theorem brokenTopic_detected :
    (∃ s s' : Session, s'.lookups = [(11, [])] ∧
      ∀ dispatch ∈ Wire.dispatches (s.reports noHandlers (runOn brokenTopic 8)),
        dispatch.start ≠ 0) ∧
    taken (run atmega168 (noCallbacks _) (freshNode atmega168) (spinOn brokenTopic)).2 ≠ [] ∧
    ∀ dispatch ∈ Wire.dispatches (reports atmega168 (freshNode atmega168).receiver
        (run atmega168 (noCallbacks _) (freshNode atmega168) (spinOn brokenTopic)).2),
      dispatch.start ≠ 0 := by
  have hcorrupts : Corrupts (Wire.encode 11 []) ((Wire.encode 11 []).set 5 0x0a) :=
    ⟨5, 0x0a, by decide, by decide, by decide, rfl⟩
  have hdetected := corruption_detected (by decide) hcorrupts [] (Wire.encode 11 [])
  have hsteps := runOn_undisturbed brokenTopic 8
  obtain ⟨s, s', hreads, -, -, -, hlooked, -⟩ := exists_runOn brokenTopic 8 [(11, [])] []
    (by decide +kernel)
  have hdevice := spinOn_reads brokenTopic (by decide +kernel)
  refine ⟨⟨s, s', hlooked, ?_⟩, by decide +kernel, ?_⟩
  · exact (hdetected.1 noHandlers s s' [] (runOn brokenTopic 8) hreads.boundary
      (fun st hst => (hsteps st hst).2.2) hreads.exec hreads.stream).2
  · exact (hdetected.2 atmega168 (noCallbacks _) (freshNode atmega168) (spinOn brokenTopic)
      hdevice.initialised hdevice.mode hdevice.stream).2

end Ros2Serial.Link
