import Ros2Serial.Device.Trace

/-!
# From the stream to the branches

What the state machine of `spinOnce` makes of a stream of frames, however it is
split over the calls.

`Position` ties the variables of the state machine to the part of a frame that
has been read, and names what is left.  A byte brings the machine to the next
position, and the last byte of a frame is a good checksum with the payload in
`message_in` (`Position.step`).  Along a trace without timeouts every frame is
acted on once, in order (`Position.follows`).
-/

namespace Ros2Serial.Device

open Bytes

/-! ## Positions in a frame -/

/-- A frame that the device acts on: its payload fits `message_in`. -/
structure Fits (cfg : NodeConfig) (frame : Nat × List UInt8) : Prop where
  topic : frame.1 < 65536
  valid : cfg.isTopicValid frame.1 = true
  input : frame.2.length ≤ cfg.INPUT_SIZE
  length : frame.2.length < 65536

/-- The sum of the two bytes of a topic id. -/
def topicSum (topic : Nat) : Nat := (Wire.lo topic).toNat + (Wire.hi topic).toNat

/-- The receiver, in front of the given bytes, acts on the frames. -/
inductive Position (r : Receiver) : List (Nat × List UInt8) → List UInt8 → Prop
  | first {frames : List (Nat × List UInt8)} (hmode : r.mode = .FIRST_FF) :
      Position r frames (Wire.encodeAll frames)
  | version {topic : Nat} {payload : List UInt8} {frames : List (Nat × List UInt8)}
      (hmode : r.mode = .PROTOCOL_VER) :
      Position r ((topic, payload) :: frames)
        (0xfe :: ((Wire.header topic payload.length).drop 2 ++
          (Wire.body topic payload ++ Wire.encodeAll frames)))
  | sizeL {topic : Nat} {payload : List UInt8} {frames : List (Nat × List UInt8)}
      (hmode : r.mode = .SIZE_L) :
      Position r ((topic, payload) :: frames)
        (Wire.lo payload.length :: ((Wire.header topic payload.length).drop 3 ++
          (Wire.body topic payload ++ Wire.encodeAll frames)))
  | sizeH {topic : Nat} {payload : List UInt8} {frames : List (Nat × List UInt8)}
      (hmode : r.mode = .SIZE_H) (hindex : r.index = 0)
      (hbytes : r.bytes = (Wire.lo payload.length).toNat)
      (hsum : r.checksum = (Wire.lo payload.length).toNat) :
      Position r ((topic, payload) :: frames)
        (Wire.hi payload.length :: ((Wire.header topic payload.length).drop 4 ++
          (Wire.body topic payload ++ Wire.encodeAll frames)))
  | sizeChecksum {topic : Nat} {payload : List UInt8} {frames : List (Nat × List UInt8)}
      (hmode : r.mode = .SIZE_CHECKSUM) (hindex : r.index = 0)
      (hbytes : r.bytes = payload.length)
      (hsum : r.checksum =
        ((Wire.lo payload.length).toNat + (Wire.hi payload.length).toNat : Nat)) :
      Position r ((topic, payload) :: frames)
        (Wire.lengthChecksum payload.length :: ((Wire.header topic payload.length).drop 5 ++
          (Wire.body topic payload ++ Wire.encodeAll frames)))
  | topicL {topic : Nat} {payload : List UInt8} {frames : List (Nat × List UInt8)}
      (hmode : r.mode = .TOPIC_L) (hindex : r.index = 0) (hbytes : r.bytes = payload.length) :
      Position r ((topic, payload) :: frames)
        (Wire.lo topic :: ((Wire.header topic payload.length).drop 6 ++
          (Wire.body topic payload ++ Wire.encodeAll frames)))
  | topicH {topic : Nat} {payload : List UInt8} {frames : List (Nat × List UInt8)}
      (hmode : r.mode = .TOPIC_H) (hindex : r.index = 0) (hbytes : r.bytes = payload.length)
      (htopic : r.topic = (Wire.lo topic).toNat) (hsum : r.checksum = (Wire.lo topic).toNat) :
      Position r ((topic, payload) :: frames)
        (Wire.hi topic :: (Wire.body topic payload ++ Wire.encodeAll frames))
  | message {topic : Nat} {done left : List UInt8} {data : UInt8}
      {frames : List (Nat × List UInt8)} (hmode : r.mode = .MESSAGE)
      (hindex : r.index = done.length) (hbytes : r.bytes = left.length + 1)
      (htopic : r.topic = topic) (hsum : r.checksum = (topicSum topic + byteSum done : Nat))
      (hdone : r.messageIn.take done.length = done) :
      Position r ((topic, done ++ data :: left) :: frames)
        (data :: (left ++ (Wire.messageChecksum topic (done ++ data :: left) ::
          Wire.encodeAll frames)))
  | checksum {topic : Nat} {payload : List UInt8} {frames : List (Nat × List UInt8)}
      (hmode : r.mode = .MSG_CHECKSUM) (htopic : r.topic = topic)
      (hsum : r.checksum = (topicSum topic + byteSum payload : Nat))
      (hdone : r.messageIn.take payload.length = payload) :
      Position r ((topic, payload) :: frames)
        (Wire.messageChecksum topic payload :: Wire.encodeAll frames)

/-! ## One byte -/

theorem wrapInt_natCast {n : Nat} (h : n < 2 ^ 31) : wrapInt n = n := by
  rw [wrapInt]
  exact Int.bmod_eq_of_le (by omega) (by omega)

/-- The test of a checksum, on a sum that has not wrapped. -/
theorem Receiver.checksumGood_iff {r : Receiver} {n : Nat} (h : r.checksum = n) :
    r.checksumGood = true ↔ n % 256 = 255 := by
  rw [checksumGood, h, decide_eq_true_iff, Int.tmod_eq_emod_of_nonneg (Int.natCast_nonneg n)]
  omega

/-- The test of a checksum, when its byte has been added to the sum. -/
theorem Receiver.checksumGood_of_add {r : Receiver} {n : Nat} {data : UInt8}
    (h : r.checksum = n) (hn : n < 2 ^ 30) (hgood : (n + data.toNat) % 256 = 255) (r' : Receiver)
    (hr' : r'.checksum = wrapInt (r.checksum + data.toNat)) : r'.checksumGood = true := by
  have hdata := data.toNat_lt
  refine (checksumGood_iff ?_).mpr hgood
  rw [hr', h, ← Int.natCast_add, wrapInt_natCast (by omega)]

/-- The sum over a frame stays far below the limit of an `int`. -/
theorem sum_lt (topic : Nat) {payload : List UInt8} (h : payload.length < 65536) :
    topicSum topic + byteSum payload < 2 ^ 30 := by
  have hlo := (Wire.lo topic).toNat_lt
  have hhi := (Wire.hi topic).toNat_lt
  have hsum := byteSum_le payload
  rw [topicSum]
  omega

/-- With a part of the payload in `message_in`, the rest of it comes next, or the
checksum if there is no rest. -/
theorem Position.payload {r : Receiver} (topic : Nat) (done left : List UInt8)
    (frames : List (Nat × List UInt8)) (hindex : r.index = done.length)
    (hbytes : r.bytes = left.length) (htopic : r.topic = topic)
    (hsum : r.checksum = (topicSum topic + byteSum done : Nat))
    (hdone : r.messageIn.take done.length = done) :
    Position { r with mode := if r.bytes = 0 then .MSG_CHECKSUM else .MESSAGE }
      ((topic, done ++ left) :: frames)
      (left ++ Wire.messageChecksum topic (done ++ left) :: Wire.encodeAll frames) := by
  cases left with
  | nil =>
    rw [if_pos (by simpa using hbytes), List.append_nil]
    exact .checksum rfl htopic hsum hdone
  | cons data left =>
    rw [if_neg (by rw [hbytes, List.length_cons]; omega)]
    exact .message rfl hindex (by simpa using hbytes) htopic hsum hdone

section Step

variable {cfg : NodeConfig} {r : Receiver} {topic : Nat} {payload : List UInt8}
  {frames : List (Nat × List UInt8)}

/-- Storing the next byte of a payload, where there is room for it. -/
theorem storeAt_take {messageIn done : List UInt8} (data : UInt8)
    (hdone : messageIn.take done.length = done) (hroom : done.length < messageIn.length) :
    (storeAt messageIn done.length data).take (done ++ [data]).length = done ++ [data] := by
  rw [storeAt, if_pos (Int.natCast_nonneg _), Int.toNat_natCast, List.length_append,
    List.length_singleton, List.take_add_one, List.take_set_of_le (Nat.le_refl _), hdone]
  simp [hroom]

/-- The checksum behind a frame is good. -/
theorem topicSum_good (topic : Nat) (payload : List UInt8) :
    (topicSum topic + byteSum payload + (Wire.messageChecksum topic payload).toNat) % 256 = 255 :=
  Wire.sum_complement _

/-- What a byte of a frame does: no message is complete, or the first one is. -/
def Advances (cfg : NodeConfig) (r : Receiver) (data : UInt8) (frames : List (Nat × List UInt8))
    (stream : List UInt8) : Prop :=
  ((∀ topic, (r.step cfg data).2 ≠ .message topic) ∧ Position (r.step cfg data).1 frames stream) ∨
    ∃ topic payload left, frames = (topic, payload) :: left ∧
      (r.step cfg data).2 = .message topic ∧
      (r.step cfg data).1.messageIn.take payload.length = payload ∧
      Position (r.step cfg data).1 left stream

/-- The high byte of the length. -/
theorem advances_sizeH (hmode : r.mode = .SIZE_H) (hindex : r.index = 0)
    (hbytes : r.bytes = (Wire.lo payload.length).toNat)
    (hsum : r.checksum = (Wire.lo payload.length).toNat) (hlength : payload.length < 65536) :
    Advances cfg r (Wire.hi payload.length) ((topic, payload) :: frames)
      (Wire.lengthChecksum payload.length :: ((Wire.header topic payload.length).drop 5 ++
        (Wire.body topic payload ++ Wire.encodeAll frames))) := by
  have hsize := Wire.lo_add_hi hlength
  have hlo := (Wire.lo payload.length).toNat_lt
  have hhi := (Wire.hi payload.length).toNat_lt
  refine Or.inl ?_
  simp only [Receiver.step, hmode, hsum, hbytes]
  refine ⟨by simp, .sizeChecksum rfl hindex ?_ ?_⟩
  · dsimp only
    omega
  · dsimp only
    rw [← Int.natCast_add, wrapInt_natCast (by omega)]

/-- The checksum of the length. -/
theorem advances_sizeChecksum (hmode : r.mode = .SIZE_CHECKSUM) (hindex : r.index = 0)
    (hbytes : r.bytes = payload.length)
    (hsum : r.checksum = ((Wire.lo payload.length).toNat + (Wire.hi payload.length).toNat : Nat)) :
    Advances cfg r (Wire.lengthChecksum payload.length) ((topic, payload) :: frames)
      ((Wire.header topic payload.length).drop 5 ++
        (Wire.body topic payload ++ Wire.encodeAll frames)) := by
  have hsmall : (Wire.lo payload.length).toNat + (Wire.hi payload.length).toNat < 2 ^ 30 := by
    have hlo := (Wire.lo payload.length).toNat_lt
    have hhi := (Wire.hi payload.length).toNat_lt
    omega
  have hgood := Receiver.checksumGood_of_add hsum hsmall (Wire.sum_complement _ : _ % 256 = 255)
  rw [← Wire.lengthChecksum] at hgood
  refine Or.inl ?_
  simp only [Receiver.step, hmode, hgood, if_true]
  exact ⟨by simp, .topicL rfl hindex hbytes⟩

/-- The high byte of the topic id. -/
theorem advances_topicH (hmode : r.mode = .TOPIC_H) (hindex : r.index = 0)
    (hbytes : r.bytes = payload.length) (htopic : r.topic = (Wire.lo topic).toNat)
    (hsum : r.checksum = (Wire.lo topic).toNat) (hfit : Fits cfg (topic, payload)) :
    Advances cfg r (Wire.hi topic) ((topic, payload) :: frames)
      (Wire.body topic payload ++ Wire.encodeAll frames) := by
  have hlo := (Wire.lo topic).toNat_lt
  have hhi := (Wire.hi topic).toNat_lt
  have hsplit := Wire.lo_add_hi hfit.topic
  have htopic' : r.topic + (Wire.hi topic).toNat * 256 = topic := by
    dsimp only at hsplit
    omega
  have hvalid : cfg.isTopicValid topic = true := hfit.valid
  have hsum' : wrapInt (r.checksum + (Wire.hi topic).toNat) =
      (topicSum topic + byteSum [] : Nat) := by
    rw [hsum, ← Int.natCast_add, wrapInt_natCast (by omega)]
    rfl
  refine Or.inl ?_
  simp only [Receiver.step, hmode, htopic', hvalid, if_true]
  rw [Wire.body, List.append_assoc]
  exact ⟨by simp, Position.payload (r := { r with
    topic := topic, checksum := wrapInt (r.checksum + (Wire.hi topic).toNat) })
    topic [] payload frames hindex hbytes rfl hsum' rfl⟩

/-- A byte of the payload. -/
theorem advances_message {done left : List UInt8} {data : UInt8} (hmode : r.mode = .MESSAGE)
    (hindex : r.index = done.length) (hbytes : r.bytes = left.length + 1) (htopic : r.topic = topic)
    (hsum : r.checksum = (topicSum topic + byteSum done : Nat))
    (hdone : r.messageIn.take done.length = done) (hfit : Fits cfg (topic, done ++ data :: left))
    (hinput : r.messageIn.length = cfg.INPUT_SIZE) :
    Advances cfg r data ((topic, done ++ data :: left) :: frames)
      (left ++ (Wire.messageChecksum topic (done ++ data :: left) :: Wire.encodeAll frames)) := by
  have hroom : done.length < r.messageIn.length := by
    have := hfit.input
    simp only [List.length_append, List.length_cons] at this
    omega
  have hstored := storeAt_take data hdone hroom
  have hsmall := sum_lt topic (show done.length < 65536 by
    have := hfit.length
    simp only [List.length_append, List.length_cons] at this
    omega)
  have hdata := data.toNat_lt
  have hsum' : wrapInt (r.checksum + data.toNat) =
      (topicSum topic + byteSum (done ++ [data]) : Nat) := by
    rw [hsum, ← Int.natCast_add, wrapInt_natCast (by omega), byteSum_append, Nat.add_assoc]
    rfl
  have hnext := Position.payload (r := { r with
    messageIn := storeAt r.messageIn r.index data, index := r.index + 1, bytes := r.bytes - 1
    checksum := wrapInt (r.checksum + data.toNat) }) topic (done ++ [data]) left frames
    (by simp [hindex]) (by simp [hbytes]) htopic hsum' (by rw [hindex]; exact hstored)
  rw [List.append_assoc, List.singleton_append] at hnext
  refine Or.inl ?_
  simp only [Receiver.step, hmode]
  exact ⟨by simp, hnext⟩

/-- The checksum of the frame. -/
theorem advances_checksum (hmode : r.mode = .MSG_CHECKSUM) (htopic : r.topic = topic)
    (hsum : r.checksum = (topicSum topic + byteSum payload : Nat))
    (hdone : r.messageIn.take payload.length = payload) (hlength : payload.length < 65536) :
    Advances cfg r (Wire.messageChecksum topic payload) ((topic, payload) :: frames)
      (Wire.encodeAll frames) := by
  have hgood := Receiver.checksumGood_of_add hsum (sum_lt topic hlength)
    (topicSum_good topic payload)
  refine Or.inr ⟨topic, payload, frames, rfl, ?_, ?_, ?_⟩
  · simp only [Receiver.step, hmode, hgood, if_true, htopic]
  · simpa only [Receiver.step, hmode] using hdone
  · simp only [Receiver.step, hmode]
    exact .first rfl

/-- A byte brings the machine to the next position. -/
theorem Position.step {data : UInt8} {stream : List UInt8} (h : Position r frames (data :: stream))
    (hfits : ∀ frame ∈ frames, Fits cfg frame) (hinput : r.messageIn.length = cfg.INPUT_SIZE) :
    Advances cfg r data frames stream := by
  generalize hall : data :: stream = all at h
  cases h with
  | first hmode =>
    cases frames with
    | nil => cases hall
    | cons frame frames =>
      obtain ⟨topic, payload⟩ := frame
      rw [Wire.encodeAll_cons_eq] at hall
      obtain ⟨rfl, rfl⟩ := List.cons.inj hall
      refine Or.inl ?_
      simp only [Receiver.step, hmode, if_true]
      exact ⟨by simp, .version rfl⟩
  | version hmode =>
    obtain ⟨rfl, rfl⟩ := List.cons.inj hall
    refine Or.inl ?_
    simp only [Receiver.step, hmode, PROTOCOL_VER, if_true]
    exact ⟨by simp, .sizeL rfl⟩
  | sizeL hmode =>
    obtain ⟨rfl, rfl⟩ := List.cons.inj hall
    refine Or.inl ?_
    simp only [Receiver.step, hmode]
    exact ⟨by simp, .sizeH rfl rfl rfl rfl⟩
  | sizeH hmode hindex hbytes hsum =>
    obtain ⟨rfl, rfl⟩ := List.cons.inj hall
    exact advances_sizeH hmode hindex hbytes hsum (hfits _ List.mem_cons_self).length
  | sizeChecksum hmode hindex hbytes hsum =>
    obtain ⟨rfl, rfl⟩ := List.cons.inj hall
    exact advances_sizeChecksum hmode hindex hbytes hsum
  | topicL hmode hindex hbytes =>
    obtain ⟨rfl, rfl⟩ := List.cons.inj hall
    refine Or.inl ?_
    simp only [Receiver.step, hmode]
    exact ⟨by simp, .topicH rfl hindex hbytes rfl rfl⟩
  | topicH hmode hindex hbytes htopic hsum =>
    obtain ⟨rfl, rfl⟩ := List.cons.inj hall
    exact advances_topicH hmode hindex hbytes htopic hsum (hfits _ List.mem_cons_self)
  | message hmode hindex hbytes htopic hsum hdone =>
    obtain ⟨rfl, rfl⟩ := List.cons.inj hall
    exact advances_message hmode hindex hbytes htopic hsum hdone (hfits _ List.mem_cons_self)
      hinput
  | checksum hmode htopic hsum hdone =>
    obtain ⟨rfl, rfl⟩ := List.cons.inj hall
    exact advances_checksum hmode htopic hsum hdone (hfits _ List.mem_cons_self).length

end Step

/-! ## Traces -/

/-- The branches that a trace has taken, with the content of `message_in`. -/
def taken (events : List Event) : List (Branch × List UInt8) :=
  events.filterMap fun
    | .act branch messageIn => some (branch, messageIn)
    | _ => none

/-- The branch of a topic. -/
def branchOf (topic : Int) : Branch := (specialBranch topic).getD (.subscriber (topic - 100))

/-- The branch is that of the frame's topic, and `message_in` starts with the
frame's payload. -/
def Serves (act : Branch × List UInt8) (frame : Nat × List UInt8) : Prop :=
  act.1 = branchOf frame.1 ∧ act.2.take frame.2.length = frame.2

/-- The topic has a branch: one of its own, or that of a subscriber. -/
def Handled (registered : Int → Prop) (topic : Int) : Prop :=
  (specialBranch topic).isSome ∨ registered (topic - 100)

section Follows

variable {cfg : NodeConfig} {registered : Int → Prop}

theorem Acts.taken_silent {messageIn : List UInt8} {reaction : Reaction} {acts : List Event}
    (h : Acts cfg registered messageIn reaction acts)
    (hsilent : ∀ topic, reaction ≠ .message topic) : taken acts = [] := by
  cases h with
  | silent => rfl
  | special | invalid | subscriber | empty => exact absurd rfl (hsilent _)

theorem Acts.taken_message {messageIn : List UInt8} {topic : Int} {acts : List Event}
    (h : Acts cfg registered messageIn (.message topic) acts)
    (hvalid : cfg.isTopicValid topic = true) (hhandled : Handled registered topic) :
    taken acts = [(branchOf topic, messageIn)] := by
  cases h with
  | silent hsilent => exact absurd rfl (hsilent topic)
  | special hspecial => simp [taken, branchOf, hspecial]
  | invalid hspecial hinvalid =>
    rw [hvalid] at hinvalid
    cases hinvalid
  | subscriber hspecial => simp [taken, branchOf, hspecial]
  | empty hspecial _ hempty =>
    rcases hhandled with hsome | hregistered
    · rw [hspecial] at hsome
      cases hsome
    · exact absurd hregistered hempty

/-- The bytes of a trace without timeouts are frames that are acted on, in order,
and the part of a frame that the machine has read. -/
theorem Position.follows {r r' : Receiver} {events : List Event} {stream : List UInt8}
    {frames : List (Nat × List UInt8)} (h : Follows cfg registered r events r')
    (hreset : .reset ∉ events) (hposition : Position r frames (bytesRead events ++ stream))
    (hfits : ∀ frame ∈ frames, Fits cfg frame)
    (hhandled : ∀ frame ∈ frames, Handled registered frame.1)
    (hinput : r.messageIn.length = cfg.INPUT_SIZE) :
    ∃ done left, frames = done ++ left ∧ List.Forall₂ Serves (taken events) done ∧
      Position r' left stream := by
  induction h generalizing frames with
  | nil r => exact ⟨[], frames, rfl, .nil, hposition⟩
  | reset => exact absurd List.mem_cons_self hreset
  | read hacts _ ih =>
    rename_i r _ data acts events _
    have hbytes : bytesRead (.read data (r.step cfg data).2 :: (acts ++ events)) =
        data :: bytesRead events := by
      have happend : bytesRead (acts ++ events) = bytesRead events := by
        rw [bytesRead_append, hacts.bytesRead, List.nil_append]
      exact congrArg (data :: ·) happend
    have htaken : taken (.read data (r.step cfg data).2 :: (acts ++ events)) =
        taken acts ++ taken events := by
      simp [taken]
    have hreset' : .reset ∉ events := fun hmem =>
      hreset (List.mem_cons_of_mem _ (List.mem_append_right _ hmem))
    have hinput' : (r.step cfg data).1.messageIn.length = cfg.INPUT_SIZE :=
      (Receiver.step_messageIn_length data r).trans hinput
    rw [hbytes] at hposition
    rw [htaken]
    rcases hposition.step hfits hinput with ⟨hsilent, hnext⟩ |
      ⟨topic, payload, left, rfl, hmessage, hpayload, hnext⟩
    · rw [hacts.taken_silent hsilent]
      exact ih hreset' hnext hfits hhandled hinput'
    · rw [hmessage] at hacts
      have hact := hacts.taken_message (hfits _ List.mem_cons_self).valid
        (hhandled _ List.mem_cons_self)
      obtain ⟨done, left, rfl, hserved, hlast⟩ := ih hreset' hnext
        (fun frame hframe => hfits frame (List.mem_cons_of_mem _ hframe))
        (fun frame hframe => hhandled frame (List.mem_cons_of_mem _ hframe)) hinput'
      rw [hact]
      exact ⟨(topic, payload) :: done, left, rfl, .cons ⟨rfl, hpayload⟩ hserved, hlast⟩

/-- Frames that come later change nothing for the receiver. -/
theorem Position.extend {r : Receiver} {frames : List (Nat × List UInt8)} {stream : List UInt8}
    (h : Position r frames stream) (more : List (Nat × List UInt8)) :
    Position r (frames ++ more) (stream ++ Wire.encodeAll more) := by
  have hmore : ∀ frames, Wire.encodeAll frames ++ Wire.encodeAll more =
      Wire.encodeAll (frames ++ more) := fun frames => (Wire.encodeAll_append frames more).symm
  cases h <;> simp only [List.cons_append, List.append_assoc, hmore]
  case first hmode => exact .first hmode
  case version hmode => exact .version hmode
  case sizeL hmode => exact .sizeL hmode
  case sizeH hmode hindex hbytes hsum => exact .sizeH hmode hindex hbytes hsum
  case sizeChecksum hmode hindex hbytes hsum => exact .sizeChecksum hmode hindex hbytes hsum
  case topicL hmode hindex hbytes => exact .topicL hmode hindex hbytes
  case topicH hmode hindex hbytes htopic hsum => exact .topicH hmode hindex hbytes htopic hsum
  case message hmode hindex hbytes htopic hsum hdone =>
    exact .message hmode hindex hbytes htopic hsum hdone
  case checksum hmode htopic hsum hdone => exact .checksum hmode htopic hsum hdone

/-- At the end of the stream no frame is left. -/
theorem Position.done {r : Receiver} {frames : List (Nat × List UInt8)} (h : Position r frames []) :
    frames = [] := by
  generalize hall : ([] : List UInt8) = all at h
  cases h with
  | first =>
    cases frames with
    | nil => rfl
    | cons frame frames =>
      rw [Wire.encodeAll_cons_eq] at hall
      cases hall
  | _ => cases hall

end Follows

end Ros2Serial.Device
