import Ros2Serial.Device.Frames
import Ros2Serial.Lib.Runs

/-!
# The width of `int`

`checksum_` is an `int`.  It grows with every byte that is read, and starts again
with the low bytes of the length and of the topic only.  `SpinOnce.lean` has the
state machine for an `int` of 32 bits; here it is for any of the targets, with all
of its variables in such an `int`.

* `IntWidth` is the width, and `Receiver.stepOn` the state machine.  With 32 bits it
  is the machine of `SpinOnce.lean` (`run_wide`).
* A `Summed` machine has the sum of the bytes beside it, as a number.  As long as
  that sum stays in the range of `int`, it is what `checksum_` has (`Exact`).
* `checksums_sound_iff` says that this is also what it takes: the verdicts are right
  and nothing overflows, in every run in which no sum of bytes leaves the range.

A payload of 129 bytes can be too much for 16 bits, and noise in front of a frame
for any width.
-/

namespace Ros2Serial.Device

open Bytes Runs

/-! ## The state machine -/

/-- The width of `int`: 16 bits on the AVR boards of `ros.h`, and 32 bits elsewhere. -/
inductive IntWidth
  | avr
  | arm
  deriving DecidableEq, Repr

namespace IntWidth

def bits : IntWidth → Nat
  | avr => 16
  | arm => 32

/-- The greatest `int`. -/
def max (width : IntWidth) : Nat := 2 ^ (width.bits - 1) - 1

/-- The value is an `int`. -/
def Fits (width : IntWidth) (n : Int) : Prop := -2 ^ (width.bits - 1) ≤ n ∧ n ≤ width.max

/-- A result, as the hardware wraps it. -/
def wrap (width : IntWidth) (n : Int) : Int := n.bmod (2 ^ width.bits)

instance (width : IntWidth) (n : Int) : Decidable (width.Fits n) :=
  inferInstanceAs (Decidable (_ ∧ _))

theorem wrap_of_fits {width : IntWidth} {n : Int} (h : width.Fits n) : width.wrap n = n := by
  cases width <;>
  · simp only [Fits, max, bits] at h
    exact Int.bmod_eq_of_le (by simp only [bits]; omega) (by simp only [bits]; omega)

/-- What an `int` of any width has, one of 32 bits has too. -/
theorem wrapInt_of_fits {width : IntWidth} {n : Int} (h : width.Fits n) : wrapInt n = n := by
  unfold wrapInt
  cases width <;>
  · simp only [Fits, max, bits] at h
    exact Int.bmod_eq_of_le (by omega) (by omega)

theorem fits_of_le {width : IntWidth} {n : Int} (h : 0 ≤ n) (hle : n ≤ width.max) :
    width.Fits n := by
  refine ⟨?_, hle⟩
  have hpow : (0 : Int) ≤ 2 ^ (width.bits - 1) := Int.pow_nonneg (by decide)
  omega

end IntWidth

/-- The state machine of the loop in `spinOnce`, for one byte, with an `int` of this
width. -/
def Receiver.stepOn (width : IntWidth) (cfg : NodeConfig) (data : UInt8) (r : Receiver) :
    Receiver × Reaction :=
  let r := { r with checksum := width.wrap (r.checksum + data.toNat) }
  match r.mode with
  | .MESSAGE =>
    let bytes := width.wrap (r.bytes - 1)
    ({ r with
        messageIn := storeAt r.messageIn r.index data
        index := width.wrap (r.index + 1)
        bytes := bytes
        mode := if bytes = 0 then .MSG_CHECKSUM else .MESSAGE },
      .store r.index)
  | .FIRST_FF =>
    if data = 0xff then ({ r with mode := .PROTOCOL_VER }, .sync) else (r, .skip)
  | .PROTOCOL_VER =>
    if data = PROTOCOL_VER then ({ r with mode := .SIZE_L }, .quiet)
    else ({ r with mode := .FIRST_FF }, .version)
  | .SIZE_L =>
    ({ r with bytes := data.toNat, index := 0, mode := .SIZE_H, checksum := data.toNat }, .quiet)
  | .SIZE_H =>
    ({ r with
        bytes := width.wrap (r.bytes + width.wrap (data.toNat * 256))
        mode := .SIZE_CHECKSUM }, .quiet)
  | .SIZE_CHECKSUM =>
    if r.checksumGood then ({ r with mode := .TOPIC_L }, .quiet)
    else ({ r with mode := .FIRST_FF }, .quiet)
  | .TOPIC_L => ({ r with topic := data.toNat, mode := .TOPIC_H, checksum := data.toNat }, .quiet)
  | .TOPIC_H =>
    let r := { r with topic := width.wrap (r.topic + width.wrap (data.toNat * 256)) }
    if cfg.isTopicValid r.topic then
      ({ r with mode := if r.bytes = 0 then .MSG_CHECKSUM else .MESSAGE }, .header r.bytes)
    else ({ r with mode := .FIRST_FF }, .invalidTopic)
  | .MSG_CHECKSUM =>
    ({ r with mode := .FIRST_FF }, if r.checksumGood then .message r.topic else .quiet)

/-- What the state machine computes with a byte, apart from the sum, is in range. -/
structure Receiver.InRange (width : IntWidth) (data : UInt8) (r : Receiver) : Prop where
  bytes : r.mode = .MESSAGE → width.Fits (r.bytes - 1)
  index : r.mode = .MESSAGE → width.Fits (r.index + 1)
  size : r.mode = .SIZE_H →
    width.Fits ((data.toNat : Int) * 256) ∧ width.Fits (r.bytes + data.toNat * 256)
  topic : r.mode = .TOPIC_H →
    width.Fits ((data.toNat : Int) * 256) ∧ width.Fits (r.topic + data.toNat * 256)

section Width

variable {width : IntWidth} {cfg : NodeConfig} {r : Receiver} {data : UInt8}

/-- Where nothing overflows, the width does not matter. -/
theorem Receiver.InRange.stepOn_eq (h : r.InRange width data)
    (hsum : width.wrap (r.checksum + data.toNat) = wrapInt (r.checksum + data.toNat)) :
    r.stepOn width cfg data = r.step cfg data := by
  unfold Receiver.stepOn Receiver.step
  rw [hsum]
  cases hmode : r.mode with
  | MESSAGE =>
    have hbytes := IntWidth.wrap_of_fits (h.bytes hmode)
    have hindex := IntWidth.wrap_of_fits (h.index hmode)
    simp only [hbytes, hindex]
  | SIZE_H =>
    obtain ⟨hshift, hsize⟩ := h.size hmode
    simp only [IntWidth.wrap_of_fits hshift, IntWidth.wrap_of_fits hsize]
  | TOPIC_H =>
    obtain ⟨hshift, htopic⟩ := h.topic hmode
    simp only [IntWidth.wrap_of_fits hshift, IntWidth.wrap_of_fits htopic]
  | _ => rfl

/-! ## 32 bits -/

/-- What the variables of the state machine have in every run. -/
structure Receiver.Small (r : Receiver) : Prop where
  bytes : 0 ≤ r.bytes
  index : 0 ≤ r.index
  size : r.index + r.bytes ≤ 65535
  topic : 0 ≤ r.topic ∧ r.topic ≤ 65535
  lowSize : r.mode = .SIZE_H → r.bytes ≤ 255 ∧ r.index = 0
  lowTopic : r.mode = .TOPIC_H → r.topic ≤ 255
  message : r.mode = .MESSAGE → 0 < r.bytes

theorem Receiver.Small.inRange (h : r.Small) (data : UInt8) : r.InRange .arm data := by
  have hdata := data.toNat_lt
  obtain ⟨hbytes, hindex, hsize, htopic, hlowSize, hlowTopic, hmessage⟩ := h
  constructor
  all_goals
    intro hmode
    simp only [IntWidth.Fits, IntWidth.max, IntWidth.bits]
    omega

theorem Receiver.Small.timeout (h : r.Small) : Receiver.Small { r with mode := .FIRST_FF } :=
  ⟨h.bytes, h.index, h.size, h.topic, Mode.noConfusion, Mode.noConfusion, Mode.noConfusion⟩

theorem Receiver.Small.step (h : r.Small) (data : UInt8) : (r.step cfg data).1.Small := by
  have hdata := data.toNat_lt
  obtain ⟨hbytes, hindex, hsize, htopic, hlowSize, hlowTopic, hmessage⟩ := h
  unfold Receiver.step
  cases hmode : r.mode with
  | MESSAGE =>
    have hleft := hmessage hmode
    dsimp only
    refine ⟨by dsimp only; omega, by dsimp only; omega, by dsimp only; omega, htopic, ?_, ?_, ?_⟩
    all_goals
      dsimp only
      split
    all_goals
      intro h
      first | omega | cases h
  | FIRST_FF | PROTOCOL_VER | SIZE_CHECKSUM =>
    dsimp only
    split <;> exact ⟨hbytes, hindex, hsize, htopic, by simp, by simp, by simp⟩
  | SIZE_L =>
    refine ⟨by dsimp only; omega, by dsimp only; omega, by dsimp only; omega, htopic, ?_, by simp,
      by simp⟩
    intro _
    dsimp only
    omega
  | SIZE_H =>
    obtain ⟨hlow, hzero⟩ := hlowSize hmode
    exact ⟨by dsimp only; omega, hindex, by dsimp only; omega, htopic, by simp, by simp, by simp⟩
  | TOPIC_L =>
    refine ⟨hbytes, hindex, hsize, by dsimp only; omega, by simp, ?_, by simp⟩
    intro _
    dsimp only
    omega
  | TOPIC_H =>
    have hlow := hlowTopic hmode
    dsimp only
    split
    · refine ⟨hbytes, hindex, hsize, by dsimp only; omega, ?_, ?_, ?_⟩
      all_goals
        dsimp only
        split
      all_goals
        intro h
        first | omega | cases h
    · exact ⟨hbytes, hindex, hsize, by dsimp only; omega, by simp, by simp, by simp⟩
  | MSG_CHECKSUM => exact ⟨hbytes, hindex, hsize, htopic, by simp, by simp, by simp⟩

/-- With 32 bits, this is the machine of `SpinOnce.lean`. -/
theorem Receiver.Small.stepOn_wide (h : r.Small) (data : UInt8) :
    r.stepOn .arm cfg data = r.step cfg data := (h.inRange data).stepOn_eq rfl

end Width

/-! ## Sums -/

/-- The state machine with an `int` of some width, and the sum of the bytes since `checksum_`
was set last. -/
structure Summed where
  receiver : Receiver
  sum : Nat

/-- The machine reads a byte, or drops what it has of a frame. -/
def Summed.step (width : IntWidth) (cfg : NodeConfig) (s : Summed) : Option UInt8 → Summed
  | none => { s with receiver := { s.receiver with mode := .FIRST_FF } }
  | some data =>
    { receiver := (s.receiver.stepOn width cfg data).1
      sum :=
        if s.receiver.mode = .SIZE_L ∨ s.receiver.mode = .TOPIC_L then data.toNat
        else s.sum + data.toNat }

/-- What a byte has to keep: `checksum_ += data` does not overflow, and a test of the checksum
has the verdict of the sum. -/
structure Summed.Sound (width : IntWidth) (cfg : NodeConfig) (data : UInt8) (s : Summed) :
    Prop where
  noOverflow : width.Fits (s.receiver.checksum + data.toNat)
  size : s.receiver.mode = .SIZE_CHECKSUM →
    ((s.receiver.stepOn width cfg data).1.mode = .TOPIC_L ↔ (s.sum + data.toNat) % 256 = 255)
  message : s.receiver.mode = .MSG_CHECKSUM →
    ((s.receiver.stepOn width cfg data).2 = .message s.receiver.topic ↔
      (s.sum + data.toNat) % 256 = 255)

/-- The sum of the bytes stays in the range of `int`. -/
def Summed.Bounded (width : IntWidth) (data : UInt8) (s : Summed) : Prop :=
  s.sum + data.toNat ≤ width.max

/-- `checksum_` is the sum. -/
def Summed.Exact (s : Summed) : Prop := s.receiver.checksum = s.sum

/-- The machine of `SpinOnce.lean` reads a byte, or drops what it has of a frame. -/
def Receiver.read (cfg : NodeConfig) (r : Receiver) : Option UInt8 → Receiver
  | none => { r with mode := .FIRST_FF }
  | some data => (r.step cfg data).1

/-- With 32 bits, every run is one of the machine of `SpinOnce.lean`. -/
theorem Receiver.Small.run_wide {cfg : NodeConfig} {s : Summed} (h : s.receiver.Small)
    (inputs : List (Option UInt8)) :
    (Runs.run (Summed.step .arm cfg) s inputs).receiver =
      Runs.run (Receiver.read cfg) s.receiver inputs := by
  induction inputs generalizing s with
  | nil => rfl
  | cons input rest ih =>
    rw [run_cons, run_cons]
    cases input with
    | none => exact ih h.timeout
    | some data =>
      have hstep : (s.step .arm cfg (some data)).receiver = s.receiver.read cfg (some data) :=
        congrArg Prod.fst (h.stepOn_wide data)
      rw [← hstep]
      refine ih ?_
      rw [hstep]
      exact h.step data

section Sums

variable {width : IntWidth} {cfg : NodeConfig} {s : Summed} {data : UInt8}

theorem Summed.Exact.fits_iff (h : s.Exact) :
    width.Fits (s.receiver.checksum + data.toNat) ↔ s.Bounded width data := by
  unfold Summed.Exact at h
  unfold Summed.Bounded
  rw [h]
  constructor
  · intro hfits
    have hle := hfits.2
    omega
  · intro hle
    exact IntWidth.fits_of_le (by omega) (by omega)

/-- A byte is added to `checksum_`, or is what it has. -/
theorem Receiver.stepOn_checksum (width : IntWidth) (cfg : NodeConfig) (data : UInt8)
    (r : Receiver) : (r.stepOn width cfg data).1.checksum =
      if r.mode = .SIZE_L ∨ r.mode = .TOPIC_L then (data.toNat : Int)
      else width.wrap (r.checksum + data.toNat) := by
  unfold Receiver.stepOn
  cases hmode : r.mode with
  | SIZE_L | TOPIC_L | MESSAGE | SIZE_H | MSG_CHECKSUM => simp
  | FIRST_FF | PROTOCOL_VER | SIZE_CHECKSUM | TOPIC_H =>
    dsimp only
    split <;> simp

/-- `checksum_` as a test finds it. -/
def Receiver.tested (width : IntWidth) (data : UInt8) (r : Receiver) : Receiver :=
  { r with checksum := width.wrap (r.checksum + data.toNat) }

theorem Receiver.stepOn_size (width : IntWidth) (cfg : NodeConfig) (data : UInt8) {r : Receiver}
    (hmode : r.mode = .SIZE_CHECKSUM) :
    (r.stepOn width cfg data).1.mode = .TOPIC_L ↔ (r.tested width data).checksumGood = true := by
  unfold Receiver.stepOn Receiver.tested
  simp only [hmode]
  split
  · rename_i hgood
    exact iff_of_true rfl hgood
  · rename_i hbad
    exact iff_of_false Mode.noConfusion hbad

theorem Receiver.stepOn_message (width : IntWidth) (cfg : NodeConfig) (data : UInt8)
    {r : Receiver} (hmode : r.mode = .MSG_CHECKSUM) :
    (r.stepOn width cfg data).2 = .message r.topic ↔ (r.tested width data).checksumGood = true := by
  unfold Receiver.stepOn Receiver.tested
  simp only [hmode]
  split
  · rename_i hgood
    exact iff_of_true rfl hgood
  · rename_i hbad
    exact iff_of_false Reaction.noConfusion hbad

/-- A byte that is added in range keeps the sum in `checksum_`. -/
theorem Summed.Exact.step (h : s.Exact) (hfits : width.Fits (s.receiver.checksum + data.toNat)) :
    (s.step width cfg (some data)).Exact := by
  show (s.receiver.stepOn width cfg data).1.checksum =
    ((if s.receiver.mode = .SIZE_L ∨ s.receiver.mode = .TOPIC_L then data.toNat
      else s.sum + data.toNat : Nat) : Int)
  rw [Receiver.stepOn_checksum, IntWidth.wrap_of_fits hfits]
  unfold Summed.Exact at h
  split
  · rfl
  · omega

/-- The tests of an exact sum are right. -/
theorem Summed.Exact.sound (h : s.Exact) (hfits : width.Fits (s.receiver.checksum + data.toNat)) :
    s.Sound width cfg data := by
  have hsum : (s.receiver.tested width data).checksum = (s.sum + data.toNat : Nat) := by
    show width.wrap _ = _
    unfold Summed.Exact at h
    rw [IntWidth.wrap_of_fits hfits]
    omega
  have hgood := Receiver.checksumGood_iff hsum
  exact ⟨hfits, fun hmode => (Receiver.stepOn_size width cfg data hmode).trans hgood,
    fun hmode => (Receiver.stepOn_message width cfg data hmode).trans hgood⟩

end Sums

/-! ## Frames -/

/-- A target: its `int`, and the template arguments of the node, which are of this type. -/
structure Target where
  width : IntWidth
  cfg : NodeConfig
  inputSize : cfg.INPUT_SIZE ≤ width.max
  topics : cfg.MAX_SUBSCRIBERS + 100 ≤ width.max

/-- A mode in which nothing but the sum is computed. -/
theorem Receiver.inRange_of_mode {width : IntWidth} {data : UInt8} {r : Receiver}
    (hmessage : r.mode ≠ .MESSAGE) (hsize : r.mode ≠ .SIZE_H) (htopic : r.mode ≠ .TOPIC_H) :
    r.InRange width data :=
  ⟨fun h => absurd h hmessage, fun h => absurd h hmessage, fun h => absurd h hsize,
    fun h => absurd h htopic⟩

/-- What is computed in a frame that the device acts on is in range. -/
theorem Position.inRange (target : Target) {r : Receiver} {frame : Nat × List UInt8}
    {data : UInt8} {stream : List UInt8} (h : Position r [frame] (data :: stream))
    (hfit : Device.Fits target.cfg frame) : r.InRange target.width data := by
  have hinput := target.inputSize
  have htopics := target.topics
  have hlength := hfit.input
  have hvalid := isTopicValid_iff.mp hfit.valid
  generalize hall : data :: stream = all at h
  generalize hframes : [frame] = frames at h
  cases h with
  | first hmode | version hmode | sizeL hmode | sizeChecksum hmode | topicL hmode
    | checksum hmode =>
    apply Receiver.inRange_of_mode <;> rw [hmode] <;> exact Mode.noConfusion
  | sizeH hmode hindex hbytes hsum =>
    obtain ⟨rfl, -⟩ := List.cons.inj hall
    obtain ⟨rfl, -⟩ := List.cons.inj hframes
    have hsplit := Wire.lo_add_hi hfit.length
    dsimp only at hlength hsplit
    refine ⟨by simp [hmode], by simp [hmode], fun _ => ⟨?_, ?_⟩, by simp [hmode]⟩
    · apply IntWidth.fits_of_le <;> omega
    · apply IntWidth.fits_of_le <;> omega
  | topicH hmode hindex hbytes htopic hsum =>
    obtain ⟨rfl, -⟩ := List.cons.inj hall
    obtain ⟨rfl, -⟩ := List.cons.inj hframes
    have hsplit := Wire.lo_add_hi hfit.topic
    dsimp only at hvalid hsplit
    refine ⟨by simp [hmode], by simp [hmode], by simp [hmode], fun _ => ⟨?_, ?_⟩⟩
    · apply IntWidth.fits_of_le <;> omega
    · apply IntWidth.fits_of_le <;> omega
  | message hmode hindex hbytes htopic hsum hdone =>
    obtain ⟨rfl, -⟩ := List.cons.inj hframes
    rw [List.length_append, List.length_cons] at hlength
    refine ⟨fun _ => ?_, fun _ => ?_, by simp [hmode], by simp [hmode]⟩
    · apply IntWidth.fits_of_le <;> omega
    · apply IntWidth.fits_of_le <;> omega

/-- Where no frame is expected, nothing is left. -/
theorem Position.stream_eq_nil {r : Receiver} {stream : List UInt8} (h : Position r [] stream) :
    stream = [] := by
  generalize hframes : ([] : List (Nat × List UInt8)) = frames at h
  cases h with
  | first =>
    subst hframes
    rfl
  | _ => cases hframes

/-- A frame that the device acts on is accepted with its last byte, if the sums stay in
range. -/
theorem Position.accepted (target : Target) {s : Summed} {frame : Nat × List UInt8}
    {init : List UInt8} {last : UInt8} (h : Position s.receiver [frame] (init ++ [last]))
    (hfit : Device.Fits target.cfg frame) (hexact : s.Exact)
    (hinput : s.receiver.messageIn.length = target.cfg.INPUT_SIZE)
    (hbounded : Throughout (Summed.step target.width target.cfg)
      (fun s input => ∀ data ∈ input, s.Bounded target.width data) s
      ((init ++ [last]).map some)) :
    ((Runs.run (Summed.step target.width target.cfg) s (init.map some)).receiver.stepOn
      target.width target.cfg last).2 = .message frame.1 := by
  induction init generalizing s with
  | nil =>
    obtain ⟨hfirst, -⟩ := throughout_cons.mp hbounded
    have hfits := hexact.fits_iff.mpr (hfirst last rfl)
    have hstep : s.receiver.stepOn target.width target.cfg last =
        s.receiver.step target.cfg last := (h.inRange target hfit).stepOn_eq
      ((IntWidth.wrap_of_fits hfits).trans (IntWidth.wrapInt_of_fits hfits).symm)
    show (s.receiver.stepOn target.width target.cfg last).2 = _
    rw [hstep]
    rcases h.step (by simpa using hfit) hinput with
      ⟨-, hnext⟩ | ⟨topic, payload, left, hframe, hmessage, -⟩
    · cases hnext.done
    · obtain ⟨rfl, -⟩ := List.cons.inj hframe
      exact hmessage
  | cons data init ih =>
    obtain ⟨hfirst, hmore⟩ := throughout_cons.mp hbounded
    have hfits := hexact.fits_iff.mpr (hfirst data rfl)
    have hstep : s.receiver.stepOn target.width target.cfg data =
        s.receiver.step target.cfg data := (h.inRange target hfit).stepOn_eq
      ((IntWidth.wrap_of_fits hfits).trans (IntWidth.wrapInt_of_fits hfits).symm)
    have hnext : Position (s.receiver.step target.cfg data).1 [frame] (init ++ [last]) := by
      rcases h.step (by simpa using hfit) hinput with ⟨-, hnext⟩ | ⟨_, _, left, hframe, -, -, hnext⟩
      · exact hnext
      · -- the frame would be complete in front of its last byte
        obtain ⟨-, rfl⟩ := List.cons.inj hframe
        have hnil := hnext.stream_eq_nil
        simp at hnil
    refine ih ?_ (hexact.step hfits) ?_ hmore
    · show Position (s.receiver.stepOn target.width target.cfg data).1 _ _
      rw [hstep]
      exact hnext
    · show (s.receiver.stepOn target.width target.cfg data).1.messageIn.length = _
      rw [hstep, Receiver.step_messageIn_length]
      exact hinput

/-! ## Runs -/

/-- What a run has to keep: every byte is added and tested as its sum is, and a frame that is
read from its first byte on, for a valid topic and with a payload that fits, is accepted. -/
structure ChecksumsSound (target : Target) (s : Summed) (inputs : List (Option UInt8)) : Prop where
  bytes : Throughout (Summed.step target.width target.cfg)
    (fun s input => ∀ data ∈ input, s.Sound target.width target.cfg data) s inputs
  frames : ∀ (before : List (Option UInt8)) (frame : Nat × List UInt8),
    before ++ (Wire.encode frame.1 frame.2).map some <+: inputs → Device.Fits target.cfg frame →
    (Runs.run (Summed.step target.width target.cfg) s before).receiver.mode = .FIRST_FF →
    ((Runs.run (Summed.step target.width target.cfg) s
        (before ++ (Wire.header frame.1 frame.2.length ++ frame.2).map some)).receiver.stepOn
      target.width target.cfg (Wire.messageChecksum frame.1 frame.2)).2 = .message frame.1

/-- The state machine after `initNode()`. -/
def Summed.start (cfg : NodeConfig) : Summed where
  receiver := (freshNode cfg).receiver
  sum := 0

/-- `message_in` keeps its size. -/
theorem Receiver.stepOn_messageIn_length (width : IntWidth) (cfg : NodeConfig) (data : UInt8)
    (r : Receiver) : (r.stepOn width cfg data).1.messageIn.length = r.messageIn.length := by
  unfold Receiver.stepOn
  cases hmode : r.mode with
  | MESSAGE =>
    dsimp only
    unfold storeAt
    split
    · exact List.length_set ..
    · rfl
  | SIZE_L | TOPIC_L | SIZE_H | MSG_CHECKSUM => rfl
  | FIRST_FF | PROTOCOL_VER | SIZE_CHECKSUM | TOPIC_H =>
    dsimp only
    split <;> rfl

/-- The checksums of a run are sound if and only if no sum of the bytes since `checksum_` was
set last leaves the range of `int`. -/
theorem checksums_sound_iff (target : Target) (inputs : List (Option UInt8)) :
    ChecksumsSound target (Summed.start target.cfg) inputs ↔
      Throughout (Summed.step target.width target.cfg)
        (fun s input => ∀ data ∈ input, s.Bounded target.width data)
        (Summed.start target.cfg) inputs := by
  have hstart : (Summed.start target.cfg).Exact := rfl
  constructor
  · intro h
    have hexact : Always (Summed.step target.width target.cfg) Summed.Exact
        (Summed.start target.cfg) inputs := by
      refine Always.of_throughout hstart (fun s input hs hsound => ?_) h.bytes
      cases input with
      | none => exact hs
      | some data => exact hs.step (hsound data rfl).noOverflow
    exact Throughout.of_always hexact h.bytes fun s input hs hsound data hdata =>
      hs.fits_iff.mp (hsound data hdata).noOverflow
  · intro h
    have hexact : Always (Summed.step target.width target.cfg)
        (fun s => s.Exact ∧ s.receiver.messageIn.length = target.cfg.INPUT_SIZE)
        (Summed.start target.cfg) inputs := by
      refine Always.of_throughout ⟨hstart, List.length_replicate ..⟩
        (fun s input hs hbounded => ?_) h
      cases input with
      | none => exact hs
      | some data =>
        refine ⟨hs.1.step (hs.1.fits_iff.mpr (hbounded data rfl)), ?_⟩
        show (s.receiver.stepOn target.width target.cfg data).1.messageIn.length = _
        rw [Receiver.stepOn_messageIn_length]
        exact hs.2
    refine ⟨?_, ?_⟩
    · exact Throughout.of_always hexact h fun s input hs hbounded data hdata =>
        hs.1.sound (hs.1.fits_iff.mpr (hbounded data hdata))
    · intro before frame hprefix hfit hmode
      obtain ⟨hbefore, hinput⟩ := hexact before ((List.prefix_append _ _).trans hprefix)
      rw [run_append]
      refine Position.accepted target ?_ hfit hbefore hinput ?_
      · have hposition := @Position.first _ [frame] hmode
        rw [Wire.encodeAll_cons, Wire.encodeAll_nil, List.append_nil] at hposition
        exact hposition
      · intro done input hdone
        have hlater := h (before ++ done) input
        rw [run_append] at hlater
        refine hlater ?_
        rw [List.append_assoc]
        exact ((List.prefix_append_right_inj before).mpr hdone).trans hprefix

/-- An ATmega168. -/
def avrTarget : Target where
  width := .avr
  cfg := atmega168
  inputSize := by decide
  topics := by decide

/-- 150 bytes `ff` for the first subscriber: `message_in` has room for them, but their sum is
more than an `int` of 16 bits has. -/
theorem longPayload_not_sound :
    ¬ ChecksumsSound avrTarget (Summed.start avrTarget.cfg)
      ((Wire.encode 100 (List.replicate 150 0xff)).map some) := by
  intro h
  have hlength : (List.replicate 150 (0xff : UInt8)).length = 150 := List.length_replicate
  have haccepted := h.frames [] (100, List.replicate 150 0xff) List.prefix_rfl
    ⟨by decide, by decide, hlength.le, by rw [hlength]; decide⟩ rfl
  revert haccepted
  decide +kernel

end Ros2Serial.Device
