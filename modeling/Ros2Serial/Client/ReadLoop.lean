import Ros2Serial.Client.WriteThread
import Ros2Serial.Wire.Search

/-!
# The read loop of the Python client

`run` reads a frame in six calls of `tryRead`, which collects the bytes that it was asked for
from whatever the port returns, or raises.  It gives the messages with good checksums to
`callbacks`.

* An event of the model is one of `port.read`, with as many bytes as the port returns, an
  `IOError`, or a call of `flushInput` from `requestTopics` or `txStopRequest`, which other
  threads make at any time.
* A length is unpacked as a signed number.  `tryRead` of a negative number never returns, as
  `bytes_remaining` does not come to 0, and raises when its time is over.
* `dispatched` lists the messages for which `callbacks[topic_id]` was evaluated.  An exception
  of a callback that is no `KeyError` ends `run`, which is the end of a run of the model.

The loop is a decoder of the frame format (`clientPolicy`), however the bytes are split
(`run_dispatched`).
-/

namespace Ros2Serial.Client

open Bytes

/-! ## Reading a frame -/

/-- `struct.unpack("<h", ...)`. -/
def unpackShort (l h : UInt8) : Int :=
  if Wire.word l h < 32768 then Wire.word l h else Wire.word l h - 65536

/-- The calls of `tryRead`, with what the calls before have returned. -/
inductive ReadStep
  | syncflag
  | protocol
  | messageLength
  | topicId (msg_length : Int)
  | data (msg_length : Int) (topic_id_header : List UInt8)
  | dataChecksum (topic_id_header msg : List UInt8)
  deriving DecidableEq, Repr

/-- What `tryRead` is called with. -/
def ReadStep.length : ReadStep → Int
  | .syncflag | .protocol | .dataChecksum _ _ => 1
  | .messageLength => 3
  | .topicId _ => 2
  | .data msg_length _ => msg_length

/-- Behind a `tryRead` that has returned: the next call, and the message for `callbacks`. -/
def ReadStep.returned (result : List UInt8) :
    ReadStep → ReadStep × Option (Nat × List UInt8)
  | .syncflag => (if result ≠ [0xff] then .syncflag else .protocol, none)
  | .protocol => (if result ≠ [0xfe] then .syncflag else .messageLength, none)
  | .messageLength =>
    let msg_length := unpackShort (result.getD 0 0) (result.getD 1 0)
    (if byteSum result % 256 ≠ 255 then .syncflag else .topicId msg_length, none)
  | .topicId msg_length => (.data msg_length result, none)
  | .data _ topic_id_header => (.dataChecksum topic_id_header result, none)
  | .dataChecksum topic_id_header msg =>
    let topic_id := Wire.word (topic_id_header.getD 0 0) (topic_id_header.getD 1 0)
    (.syncflag,
      if byteSum (topic_id_header ++ msg ++ result) % 256 = 255 then some (topic_id, msg) else none)

/-- The part of a client that reads. -/
structure ReadLoop where
  /-- The bytes that the port has received and not returned. -/
  port : List UInt8
  read_step : ReadStep
  /-- `result` of the call of `tryRead`. -/
  result : List UInt8
  dispatched : List (Nat × List UInt8)
  deriving DecidableEq, Repr

namespace ReadLoop

/-- A client whose port is open. -/
def new : ReadLoop where
  port := []
  read_step := .syncflag
  result := []
  dispatched := []

/-- `tryRead` is called. -/
def enter (read_step : ReadStep) (r : ReadLoop) : ReadLoop :=
  -- `tryRead(0)` returns at once
  let read_step := if read_step.length = 0 then (read_step.returned []).1 else read_step
  { r with read_step := read_step, result := [] }

/-- `port.read` has returned these bytes. -/
def received (bytes : List UInt8) (r : ReadLoop) : ReadLoop :=
  let result := r.result ++ bytes
  if (result.length : Int) ≠ r.read_step.length then { r with result := result }
  else
    let (read_step, message) := r.read_step.returned result
    enter read_step { r with dispatched := r.dispatched ++ message.toList }

inductive Event
  /-- The device sends. -/
  | arrive (bytes : List UInt8)
  /-- `port.read` returns so many bytes, and a callback raises a `KeyError`, or there is none
  for the topic, or not. -/
  | read (n : Nat) (keyError : Bool)
  /-- `tryRead` raises. -/
  | fail
  /-- Another `flushInput`. -/
  | flush
  deriving DecidableEq, Repr

/-- `port.read(bytes_remaining)` returns no more than it is asked for. -/
def returnedBytes (n : Nat) (r : ReadLoop) : List UInt8 :=
  r.port.take (min n (r.read_step.length - r.result.length).toNat)

def step (r : ReadLoop) : Event → ReadLoop
  | .arrive bytes => { r with port := r.port ++ bytes }
  | .read n keyError =>
    let bytes := r.returnedBytes n
    let r' := received bytes { r with port := r.port.drop bytes.length }
    -- the handler of a `KeyError` calls `requestTopics`
    if keyError && r'.dispatched ≠ r.dispatched then { r' with port := [] } else r'
  | .fail => { r with port := [], read_step := .syncflag, result := [] }
  | .flush => { r with port := [] }

/-- What an event reads.  Behind an exception reading begins again. -/
def read (r : ReadLoop) : Event → List (Option UInt8)
  | .read n _ => (r.returnedBytes n).map some
  | .fail => [none]
  | .arrive _ | .flush => []

/-- What was read on the way. -/
def inputs (r : ReadLoop) : List Event → List (Option UInt8)
  | [] => []
  | event :: events => r.read event ++ (r.step event).inputs events

/-- The state after some events. -/
def run (r : ReadLoop) (events : List Event) : ReadLoop := Runs.run step r events

end ReadLoop

/-! ## The loop as a decoder -/

/-- How the client treats the frame format. -/
def clientPolicy : Wire.Policy where
  topicFirst := false
  verdict _ length := if length < 32768 then .read else .halt

/-- Where the loop is, in the terms of the decoder. -/
inductive Stands : ReadStep → List UInt8 → Wire.Stage → Prop
  | syncflag : Stands .syncflag [] .first
  | protocol : Stands .protocol [] .second
  | sizeL : Stands .messageLength [] .sizeL
  | sizeH (l : UInt8) : Stands .messageLength [l] (.sizeH l)
  | sizeChecksum (l h : UInt8) : Stands .messageLength [l, h] (.sizeChecksum l h)
  | topicL (l h : UInt8) :
      Stands (.topicId (unpackShort l h)) [] (.topicL l h (Wire.wordChecksum l h))
  | topicH (l h t : UInt8) :
      Stands (.topicId (unpackShort l h)) [t] (.topicH l h (Wire.wordChecksum l h) t)
  | data {length : Nat} (t t' : UInt8) {done : List UInt8} (hdone : done.length < length) :
      Stands (.data length [t, t']) done (.body (Wire.word t t') length done)
  | negative {msg_length : Int} (topic_id_header : List UInt8) (hnegative : msg_length < 0) :
      Stands (.data msg_length topic_id_header) [] .halted
  | dataChecksum (t t' : UInt8) (msg : List UInt8) :
      Stands (.dataChecksum [t, t'] msg) [] (.body (Wire.word t t') msg.length msg)

/-- The loop and the decoder stand at the same place. -/
def Tracks (r : ReadLoop) (d : Wire.Decoder) : Prop := Stands r.read_step r.result d.stage

section Decoder

open ReadLoop

variable {r : ReadLoop} {d : Wire.Decoder}

theorem Stands.length_ne {read_step : ReadStep} {result : List UInt8} {stage : Wire.Stage}
    (h : Stands read_step result stage) : (result.length : Int) ≠ read_step.length := by
  cases h <;> simp [ReadStep.length] <;> omega

/-- The checksum of a length. -/
theorem byteSum_length_iff (l h c : UInt8) :
    byteSum [l, h, c] % 256 = 255 ↔ c = Wire.wordChecksum l h := by
  rw [Wire.wordChecksum, ← Wire.sum_eq_iff]
  simp [Nat.add_assoc]

/-- The checksum of a message. -/
theorem byteSum_message_iff (t t' b : UInt8) (msg : List UInt8) :
    byteSum ([t, t'] ++ msg ++ [b]) % 256 = 255 ↔
      b = Wire.messageChecksum (Wire.word t t') msg := by
  rw [Wire.messageChecksum, Wire.lo_word, Wire.hi_word, ← Wire.sum_eq_iff]
  simp [Nat.add_assoc]

/-- A call of `tryRead` for some bytes. -/
theorem enter_of_ne {read_step : ReadStep} (h : read_step.length ≠ 0) (r : ReadLoop) :
    enter read_step r = { r with read_step := read_step, result := [] } := by
  rw [enter, if_neg h]

/-- Some bytes are still missing. -/
theorem received_more {bytes : List UInt8}
    (h : ((r.result ++ bytes).length : Int) ≠ r.read_step.length) :
    received bytes r = { r with result := r.result ++ bytes } := by
  rw [received, if_pos h]

/-- The last bytes. -/
theorem received_last {bytes : List UInt8} {read_step : ReadStep}
    {message : Option (Nat × List UInt8)}
    (h : ((r.result ++ bytes).length : Int) = r.read_step.length)
    (hreturned : r.read_step.returned (r.result ++ bytes) = (read_step, message)) :
    received bytes r =
      enter read_step { r with dispatched := r.dispatched ++ message.toList } := by
  rw [received, if_neg (not_not_intro h), hreturned]

/-- The next call of `tryRead` behind a header. -/
theorem enter_data (l h t t' : UInt8) (pos start : Nat) (r : ReadLoop) :
    Tracks (enter (.data (unpackShort l h) [t, t']) r)
      ⟨pos, start, clientPolicy.afterHeader (Wire.word t t') (Wire.word l h)⟩ := by
  have hlt := Wire.word_lt l h
  by_cases hsmall : Wire.word l h < 32768
  · have hlength : unpackShort l h = Wire.word l h := if_pos hsmall
    have hstage : clientPolicy.afterHeader (Wire.word t t') (Wire.word l h) =
        .body (Wire.word t t') (Wire.word l h) [] := by
      simp [Wire.Policy.afterHeader, clientPolicy, hsmall]
    rw [hlength, hstage]
    rcases Nat.eq_zero_or_pos (Wire.word l h) with hzero | hpos
    · rw [hzero]
      exact .dataChecksum t t' []
    · have hne : (ReadStep.data (Wire.word l h) [t, t']).length ≠ 0 := by
        simpa [ReadStep.length] using Nat.pos_iff_ne_zero.mp hpos
      rw [enter_of_ne hne]
      exact .data t t' hpos
  · have hlength : unpackShort l h = Wire.word l h - 65536 := if_neg hsmall
    have hnegative : (Wire.word l h : Int) - 65536 < 0 := by omega
    have hstage : clientPolicy.afterHeader (Wire.word t t') (Wire.word l h) = .halted := by
      simp [Wire.Policy.afterHeader, clientPolicy, hsmall]
    have hne : (ReadStep.data (Wire.word l h - 65536) [t, t']).length ≠ 0 := Int.ne_of_lt hnegative
    rw [hlength, hstage, enter_of_ne hne]
    exact .negative [t, t'] hnegative

/-- One byte. -/
theorem received_singleton (h : Tracks r d) (hmore : (r.result.length : Int) < r.read_step.length)
    (b : UInt8) :
    Tracks (received [b] r) (clientPolicy.read d b).1 ∧
      (received [b] r).dispatched = r.dispatched ++ Wire.frames (clientPolicy.read d b).2 := by
  obtain ⟨port, read_step, result, dispatched⟩ := r
  obtain ⟨pos, start, stage⟩ := d
  have hsame : dispatched ++ (none : Option (Nat × List UInt8)).toList =
    dispatched ++ Wire.frames [] := rfl
  unfold Tracks at h ⊢
  dsimp only at h hmore
  cases h with
  | syncflag =>
    by_cases hb : b = 0xff
    · have hd : clientPolicy.read ⟨pos, start, .first⟩ b = (⟨pos + 1, pos, .second⟩, []) := by
        simp [Wire.Policy.read, hb]
      have hreturned : ReadStep.syncflag.returned [b] = (.protocol, none) := by
        simp [ReadStep.returned, hb]
      rw [received_last rfl hreturned, hd]
      exact ⟨.protocol, hsame⟩
    · have hd : clientPolicy.read ⟨pos, start, .first⟩ b = (⟨pos + 1, start, .first⟩, []) := by
        simp [Wire.Policy.read, hb]
      have hreturned : ReadStep.syncflag.returned [b] = (.syncflag, none) := by
        simp [ReadStep.returned, hb]
      rw [received_last rfl hreturned, hd]
      exact ⟨.syncflag, hsame⟩
  | protocol =>
    by_cases hb : b = 0xfe
    · have hd : clientPolicy.read ⟨pos, start, .second⟩ b = (⟨pos + 1, start, .sizeL⟩, []) := by
        simp [Wire.Policy.read, hb]
      have hreturned : ReadStep.protocol.returned [b] = (.messageLength, none) := by
        simp [ReadStep.returned, hb]
      rw [received_last rfl hreturned, hd]
      exact ⟨.sizeL, hsame⟩
    · have hd : clientPolicy.read ⟨pos, start, .second⟩ b = (⟨pos + 1, start, .first⟩, []) := by
        simp [Wire.Policy.read, hb]
      have hreturned : ReadStep.protocol.returned [b] = (.syncflag, none) := by
        simp [ReadStep.returned, hb]
      rw [received_last rfl hreturned, hd]
      exact ⟨.syncflag, hsame⟩
  | sizeL => exact ⟨.sizeH b, (List.append_nil _).symm⟩
  | sizeH l => exact ⟨.sizeChecksum l b, (List.append_nil _).symm⟩
  | sizeChecksum l h =>
    have hsum := byteSum_length_iff l h b
    by_cases hb : b = Wire.wordChecksum l h
    · have hd : clientPolicy.read ⟨pos, start, .sizeChecksum l h⟩ b =
          (⟨pos + 1, start, .topicL l h (Wire.wordChecksum l h)⟩, []) := by
        simp [Wire.Policy.read, hb]
      have hreturned : ReadStep.messageLength.returned [l, h, b] =
          (.topicId (unpackShort l h), none) :=
        congrArg (·, none) (if_neg (not_not_intro (hsum.mpr hb)))
      rw [received_last rfl hreturned, hd]
      exact ⟨.topicL l h, hsame⟩
    · have hd : clientPolicy.read ⟨pos, start, .sizeChecksum l h⟩ b =
          (⟨pos + 1, start, .first⟩, [.badLength (pos + 1)]) := by
        simp [Wire.Policy.read, hb, clientPolicy]
      have hreturned : ReadStep.messageLength.returned [l, h, b] = (.syncflag, none) :=
        congrArg (·, none) (if_pos (mt hsum.mp hb))
      rw [received_last rfl hreturned, hd]
      exact ⟨.syncflag, hsame⟩
  | topicL l h => exact ⟨.topicH l h b, (List.append_nil _).symm⟩
  | topicH l h t =>
    have hd : clientPolicy.read ⟨pos, start, .topicH l h (Wire.wordChecksum l h) t⟩ b =
        (⟨pos + 1, start, clientPolicy.afterHeader (Wire.word t b) (Wire.word l h)⟩, []) := by
      simp [Wire.Policy.read]
    have hreturned : (ReadStep.topicId (unpackShort l h)).returned [t, b] =
        (.data (unpackShort l h) [t, b], none) := rfl
    rw [received_last rfl hreturned, hd]
    exact ⟨enter_data l h t b (pos + 1) start _, hsame⟩
  | @data length t t' _ hdone =>
    have hd : clientPolicy.read ⟨pos, start, .body (Wire.word t t') length result⟩ b =
        (⟨pos + 1, start, .body (Wire.word t t') length (result ++ [b])⟩, []) := by
      simp [Wire.Policy.read, hdone]
    have hlength : (result ++ [b]).length = result.length + 1 := by simp
    rw [hd]
    rcases Nat.lt_or_ge (result.length + 1) length with hlt | hge
    · have hne : ((result ++ [b]).length : Int) ≠ (ReadStep.data length [t, t']).length := by
        rw [hlength]
        exact Int.ne_of_lt (Int.ofNat_lt.mpr hlt)
      rw [received_more hne]
      exact ⟨.data t t' (hlength ▸ hlt), (List.append_nil _).symm⟩
    · obtain rfl : length = (result ++ [b]).length := by omega
      have hreturned : (ReadStep.data (result ++ [b]).length [t, t']).returned (result ++ [b]) =
          (.dataChecksum [t, t'] (result ++ [b]), none) := rfl
      rw [received_last rfl hreturned]
      exact ⟨.dataChecksum t t' (result ++ [b]), hsame⟩
  | negative topic_id_header hnegative =>
    exact absurd hmore (Int.not_lt.mpr (Int.le_of_lt hnegative))
  | dataChecksum t t' msg =>
    have hsum := byteSum_message_iff t t' b msg
    by_cases hb : b = Wire.messageChecksum (Wire.word t t') msg
    · have hd : clientPolicy.read ⟨pos, start, .body (Wire.word t t') msg.length msg⟩ b =
          (⟨pos + 1, start, .first⟩, [.frame ⟨start, pos + 1, Wire.word t t', msg⟩]) := by
        simp [Wire.Policy.read, hb]
      have hreturned : (ReadStep.dataChecksum [t, t'] msg).returned [b] =
          (.syncflag, some (Wire.word t t', msg)) :=
        congrArg (ReadStep.syncflag, ·) (if_pos (hsum.mpr hb))
      rw [received_last rfl hreturned, hd]
      exact ⟨.syncflag, rfl⟩
    · have hd : clientPolicy.read ⟨pos, start, .body (Wire.word t t') msg.length msg⟩ b =
          (⟨pos + 1, start, .first⟩, []) := by
        simp [Wire.Policy.read, hb]
      have hreturned : (ReadStep.dataChecksum [t, t'] msg).returned [b] = (.syncflag, none) :=
        congrArg (ReadStep.syncflag, ·) (if_neg (mt hsum.mp hb))
      rw [received_last rfl hreturned, hd]
      exact ⟨.syncflag, hsame⟩

/-- As many bytes as `port.read` returns. -/
theorem received_feed (h : Tracks r d) {bytes : List UInt8}
    (hroom : ((r.result.length + bytes.length : Nat) : Int) ≤ r.read_step.length ∨ bytes = []) :
    Tracks (received bytes r) (clientPolicy.feed d bytes).1 ∧
      (received bytes r).dispatched =
        r.dispatched ++ Wire.frames (clientPolicy.feed d bytes).2 := by
  induction bytes generalizing r d with
  | nil =>
    have hne : ((r.result ++ []).length : Int) ≠ r.read_step.length := by
      rw [List.append_nil]
      exact Stands.length_ne h
    have hsame : received [] r = r := by
      rw [received_more hne, List.append_nil]
    rw [hsame]
    exact ⟨h, (List.append_nil _).symm⟩
  | cons b bytes ih =>
    have hroom : ((r.result.length + (b :: bytes).length : Nat) : Int) ≤ r.read_step.length :=
      hroom.resolve_right (List.cons_ne_nil b bytes)
    rw [List.length_cons] at hroom
    have hmore : (r.result.length : Int) < r.read_step.length := by omega
    obtain ⟨hfirst, hdispatched⟩ := received_singleton h hmore b
    rw [Wire.Policy.feed_cons]
    rcases bytes with _ | ⟨b', bytes⟩
    · rw [Wire.Policy.feed_nil, List.append_nil]
      exact ⟨hfirst, hdispatched⟩
    · -- the first of several bytes is not the last one that is asked for
      rw [List.length_cons] at hroom
      have hne : ((r.result ++ [b]).length : Int) ≠ r.read_step.length := by
        rw [List.length_append, List.length_singleton]
        omega
      have hsplit : received (b :: b' :: bytes) r = received (b' :: bytes) (received [b] r) := by
        rw [received_more hne, received, received]
        simp only [List.append_assoc, List.singleton_append]
        rfl
      have hrest : (((received [b] r).result.length + (b' :: bytes).length : Nat) : Int) ≤
          (received [b] r).read_step.length := by
        rw [received_more hne]
        simp only [List.length_append, List.length_cons, List.length_nil]
        omega
      obtain ⟨htracks, hall⟩ := ih hfirst (Or.inl hrest)
      rw [hsplit]
      refine ⟨htracks, ?_⟩
      rw [hall, hdispatched, Wire.frames_append, List.append_assoc]

/-- The part of the input buffer that `port.read` returns. -/
theorem returnedBytes_room (r : ReadLoop) (n : Nat) :
    ((r.result.length + (r.returnedBytes n).length : Nat) : Int) ≤ r.read_step.length ∨
      r.returnedBytes n = [] := by
  have hlength : (r.returnedBytes n).length ≤ (r.read_step.length - r.result.length).toNat := by
    rw [returnedBytes, List.length_take]
    omega
  by_cases hroom : (r.result.length : Int) ≤ r.read_step.length
  · exact Or.inl (by omega)
  · exact Or.inr (List.eq_nil_of_length_eq_zero (by omega))

/-- What happens to the input buffer makes no difference to where the loop stands. -/
theorem received_port (bytes : List UInt8) (r : ReadLoop) (port : List UInt8) :
    received bytes { r with port := port } = { received bytes r with port := port } := by
  unfold received enter
  dsimp only
  split <;> rfl

/-- One event. -/
theorem step_tracks (h : Tracks r d) (event : Event) :
    Tracks (r.step event) (clientPolicy.decoder.final d (r.read event)) ∧
      (r.step event).dispatched =
        r.dispatched ++ Wire.frames (clientPolicy.decoder.output d (r.read event)) := by
  have hsame : r.dispatched = r.dispatched ++ Wire.frames [] := (List.append_nil _).symm
  cases event with
  | arrive bytes => exact ⟨h, hsame⟩
  | flush => exact ⟨h, hsame⟩
  | fail => exact ⟨.syncflag, hsame⟩
  | read n keyError =>
    obtain ⟨htracks, hdispatched⟩ := received_feed h (returnedBytes_room r n)
    unfold ReadLoop.step
    dsimp only
    rw [received_port]
    split
    · exact ⟨htracks, hdispatched⟩
    · exact ⟨htracks, hdispatched⟩

/-- A run. -/
theorem run_tracks (h : Tracks r d) (events : List Event) :
    Tracks (r.run events) (clientPolicy.decoder.final d (r.inputs events)) ∧
      (r.run events).dispatched =
        r.dispatched ++ Wire.frames (clientPolicy.decoder.output d (r.inputs events)) := by
  induction events generalizing r d with
  | nil => exact ⟨h, (List.append_nil _).symm⟩
  | cons event events ih =>
    obtain ⟨hfirst, hdispatched⟩ := step_tracks h event
    obtain ⟨htracks, hall⟩ := ih hfirst
    rw [ReadLoop.inputs, Transducer.final_append, Transducer.output_append, Wire.frames_append,
      ← List.append_assoc, ← hdispatched]
    exact ⟨htracks, hall⟩

end Decoder

/-! ## Runs of a new client -/

namespace ReadLoop

theorem new_tracks : Tracks new (Wire.searching 0 0) := .syncflag

/-- The messages are those that the decoder reports. -/
theorem run_dispatched (events : List Event) :
    (new.run events).dispatched =
      Wire.frames (clientPolicy.decoder.output (Wire.searching 0 0) (new.inputs events)) :=
  (run_tracks new_tracks events).2

/-- However the bytes are split, and whatever times out or is flushed on the way, the messages
that `callbacks` get are frames in the bytes that were read, as they were encoded, in order
and without a byte in common. -/
theorem run_genuine (events : List Event) :
    ∃ dispatches : List Wire.Dispatch,
      Wire.Genuine 0 (Wire.bytesOf (new.inputs events)) dispatches ∧
      (new.run events).dispatched = dispatches.map fun dispatch =>
        (dispatch.topic, dispatch.payload) :=
  ⟨_, Wire.genuine clientPolicy 0 0 (new.inputs events), run_dispatched events⟩

end ReadLoop

end Ros2Serial.Client
