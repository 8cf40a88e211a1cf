import Ros2Serial.Lib.Transducer
import Ros2Serial.Wire.Frame

/-!
# Decoders of the frame format

What a decoder of the frame format does with a stream of any bytes, one byte
after the other.  Both ends of the link have one, and they differ in two ways,
which make up a `Policy`: whether the topic id is read before the checksum of
the length is tested, and what happens to a header with a good one.

A decoder reports the frames that it accepts, with their place in the stream,
and where it starts to search again after a wrong checksum of a length.  Between
two bytes it can be told to drop what it has of a frame and to search again;
that is the input `none`.

Whatever the policy, a frame that is reported is in the stream, as it was
encoded, between the first byte of its search and the last byte that was read,
and no two reports share a byte (`genuine`).
-/

namespace Ros2Serial.Wire

open Bytes

/-! ## Reports -/

/-- A frame that is acted on: the positions of its first byte and of the byte behind it,
its topic, and its payload. -/
structure Dispatch where
  start : Nat
  stop : Nat
  topic : Nat
  payload : List UInt8
  deriving DecidableEq, Repr

inductive Report
  | frame (dispatch : Dispatch)
  /-- A length had a wrong checksum, and the search goes on at this position. -/
  | badLength (resume : Nat)
  deriving DecidableEq, Repr

def Report.dispatch? : Report → Option Dispatch
  | .frame dispatch => some dispatch
  | .badLength _ => none

def Report.resume? : Report → Option Nat
  | .frame _ => none
  | .badLength resume => some resume

def dispatches (reports : List Report) : List Dispatch := reports.filterMap Report.dispatch?

/-- The positions at which the search goes on after a wrong checksum of a length. -/
def resumes (reports : List Report) : List Nat := reports.filterMap Report.resume?

/-- The topics and payloads of the frames that are acted on. -/
def frames (reports : List Report) : List (Nat × List UInt8) :=
  (dispatches reports).map fun dispatch => (dispatch.topic, dispatch.payload)

@[simp] theorem dispatches_append (xs ys : List Report) :
    dispatches (xs ++ ys) = dispatches xs ++ dispatches ys := List.filterMap_append

@[simp] theorem resumes_append (xs ys : List Report) :
    resumes (xs ++ ys) = resumes xs ++ resumes ys := List.filterMap_append

@[simp] theorem frames_append (xs ys : List Report) :
    frames (xs ++ ys) = frames xs ++ frames ys := by
  simp [frames]

/-! ## Decoders -/

/-- What becomes of a header with a good checksum. -/
inductive Verdict
  | read
  | skip
  | halt
  deriving DecidableEq, Repr

structure Policy where
  /-- The topic id is read before the checksum of the length is tested. -/
  topicFirst : Bool
  /-- What becomes of a header with this topic and length. -/
  verdict : Nat → Nat → Verdict

/-- How much of a frame has been read. -/
inductive Stage
  | first
  | second
  | sizeL
  | sizeH (l : UInt8)
  | sizeChecksum (l h : UInt8)
  | topicL (l h c : UInt8)
  | topicH (l h c t : UInt8)
  | body (topic length : Nat) (done : List UInt8)
  | halted
  deriving DecidableEq, Repr

/-- The position in the stream, the position of the last `ff` that started a frame, and
the stage. -/
structure Decoder where
  pos : Nat
  start : Nat
  stage : Stage
  deriving DecidableEq, Repr

/-- The number with these bytes. -/
def word (l h : UInt8) : Nat := l.toNat + 256 * h.toNat

/-- The checksum of the length with these bytes. -/
def wordChecksum (l h : UInt8) : UInt8 := complement (l.toNat + h.toNat)

/-- The stage behind a header. -/
def Policy.afterHeader (policy : Policy) (topic length : Nat) : Stage :=
  match policy.verdict topic length with
  | .read => .body topic length []
  | .skip => .first
  | .halt => .halted

/-- One byte. -/
def Policy.read (policy : Policy) (d : Decoder) (b : UInt8) : Decoder × List Report :=
  let next := { d with pos := d.pos + 1 }
  match d.stage with
  | .first => if b = 0xff then ({ next with start := d.pos, stage := .second }, []) else (next, [])
  | .second => ({ next with stage := if b = 0xfe then .sizeL else .first }, [])
  | .sizeL => ({ next with stage := .sizeH b }, [])
  | .sizeH l => ({ next with stage := .sizeChecksum l b }, [])
  | .sizeChecksum l h =>
    if policy.topicFirst || b = wordChecksum l h then ({ next with stage := .topicL l h b }, [])
    else ({ next with stage := .first }, [.badLength next.pos])
  | .topicL l h c => ({ next with stage := .topicH l h c b }, [])
  | .topicH l h c t =>
    if c = wordChecksum l h then ({ next with stage := policy.afterHeader (word t b) (word l h) }, [])
    else ({ next with stage := .first }, [.badLength next.pos])
  | .body topic length done =>
    if done.length < length then ({ next with stage := .body topic length (done ++ [b]) }, [])
    else
      ({ next with stage := .first },
        if b = messageChecksum topic done then [.frame ⟨d.start, next.pos, topic, done⟩] else [])
  | .halted => (next, [])

/-- The decoder with a policy. -/
def Policy.decoder (policy : Policy) : Transducer Decoder (Option UInt8) Report where
  step d
    | none => ({ d with stage := .first }, [])
    | some b => policy.read d b

/-- The decoder that searches at a position. -/
def searching (pos start : Nat) : Decoder := ⟨pos, start, .first⟩

/-- The bytes among the inputs. -/
def bytesOf (inputs : List (Option UInt8)) : List UInt8 := inputs.filterMap id

@[simp] theorem bytesOf_map_some (bytes : List UInt8) : bytesOf (bytes.map some) = bytes := by
  simp [bytesOf]

@[simp] theorem bytesOf_append (xs ys : List (Option UInt8)) :
    bytesOf (xs ++ ys) = bytesOf xs ++ bytesOf ys := List.filterMap_append

theorem word_lt (l h : UInt8) : word l h < 65536 := by
  have hl := l.toNat_lt
  have hh := h.toNat_lt
  rw [word]
  omega

@[simp] theorem lo_word (l h : UInt8) : lo (word l h) = l := by
  apply UInt8.toNat_inj.mp
  have hl := l.toNat_lt
  rw [lo_toNat, word]
  omega

@[simp] theorem hi_word (l h : UInt8) : hi (word l h) = h := by
  apply UInt8.toNat_inj.mp
  have hl := l.toNat_lt
  have hh := h.toNat_lt
  rw [hi_toNat, word]
  omega

theorem word_lo_hi {n : Nat} (h : n < 65536) : word (lo n) (hi n) = n := lo_add_hi h

theorem lengthChecksum_word (l h : UInt8) : lengthChecksum (word l h) = wordChecksum l h := by
  rw [lengthChecksum, lo_word, hi_word, wordChecksum]

/-- The bytes of a header whose checksum is that of its length. -/
theorem header_word (l h t t' : UInt8) :
    header (word t t') (word l h) = [0xff, 0xfe, l, h, wordChecksum l h, t, t'] := by
  simp only [header, lo_word, hi_word, lengthChecksum_word]

/-! ## Reported frames are genuine -/

/-- The bytes from `start` to `stop`, in a stream that begins at `origin`, are the frame. -/
structure Dispatch.EncodedIn (dispatch : Dispatch) (origin : Nat) (stream : List UInt8) : Prop where
  topic : dispatch.topic < 65536
  length : dispatch.payload.length < 65536
  range : ∃ before after,
    stream = before ++ encode dispatch.topic dispatch.payload ++ after ∧
      dispatch.start = origin + before.length ∧
      dispatch.stop = dispatch.start + (encode dispatch.topic dispatch.payload).length

/-- The frames are in the stream, one behind the other. -/
structure Genuine (origin : Nat) (stream : List UInt8) (dispatched : List Dispatch) : Prop where
  encoded : ∀ dispatch ∈ dispatched, dispatch.EncodedIn origin stream
  disjoint : dispatched.Pairwise fun earlier later => earlier.stop ≤ later.start

theorem Dispatch.EncodedIn.append {dispatch : Dispatch} {origin : Nat} {stream : List UInt8}
    (h : dispatch.EncodedIn origin stream) (more : List UInt8) :
    dispatch.EncodedIn origin (stream ++ more) := by
  obtain ⟨before, after, rfl, hstart, hstop⟩ := h.range
  exact ⟨h.topic, h.length, before, after ++ more, by simp only [List.append_assoc], hstart, hstop⟩

theorem Genuine.append {origin : Nat} {stream : List UInt8} {dispatched : List Dispatch}
    (h : Genuine origin stream dispatched) (more : List UInt8) :
    Genuine origin (stream ++ more) dispatched :=
  ⟨fun dispatch hdispatch => (h.encoded dispatch hdispatch).append more, h.disjoint⟩

/-- A frame is no longer than the stream. -/
theorem Dispatch.EncodedIn.le_length {dispatch : Dispatch} {origin : Nat} {stream : List UInt8}
    (h : dispatch.EncodedIn origin stream) :
    (encode dispatch.topic dispatch.payload).length ≤ stream.length := by
  obtain ⟨before, after, rfl, -⟩ := h.range
  simp only [List.length_append]
  omega

/-- The bytes of a frame that have been read. -/
def Stage.taken : Stage → List UInt8
  | .first | .halted => []
  | .second => [0xff]
  | .sizeL => [0xff, 0xfe]
  | .sizeH l => [0xff, 0xfe, l]
  | .sizeChecksum l h => [0xff, 0xfe, l, h]
  | .topicL l h c => [0xff, 0xfe, l, h, c]
  | .topicH l h c t => [0xff, 0xfe, l, h, c, t]
  | .body topic length done => header topic length ++ done

/-- The numbers of a body come from a header. -/
def Stage.Sound : Stage → Prop
  | .body topic length done => topic < 65536 ∧ length < 65536 ∧ done.length ≤ length
  | _ => True

/-- The decoder is in a frame, which began at `start`, behind all frames that were
reported. -/
structure InFrame (origin : Nat) (d : Decoder) (stream : List UInt8) (reports : List Report) :
    Prop where
  sound : d.stage.Sound
  taken : ∃ before, stream = before ++ d.stage.taken ∧ d.start = origin + before.length
  behind : ∀ dispatch ∈ dispatches reports, dispatch.stop ≤ d.start

/-- What the state of a decoder says about the stream that was read, and the reports that
were made. -/
structure Tracks (origin : Nat) (d : Decoder) (stream : List UInt8) (reports : List Report) :
    Prop where
  pos : d.pos = origin + stream.length
  inFrame : d.stage = .first ∨ d.stage = .halted ∨ InFrame origin d stream reports
  genuine : Genuine origin stream (dispatches reports)
  behind : ∀ dispatch ∈ dispatches reports, dispatch.stop ≤ d.pos

section Track

variable {policy : Policy} {origin : Nat} {d : Decoder} {stream : List UInt8}
  {reports : List Report}

/-- A byte that is not reported. -/
theorem Tracks.quiet (h : Tracks origin d stream reports) (b : UInt8) {d' : Decoder}
    {out : List Report} (hpos : d'.pos = d.pos + 1) (hout : dispatches out = [])
    (hframe : d'.stage = .first ∨ d'.stage = .halted ∨
      InFrame origin d' (stream ++ [b]) reports) :
    Tracks origin d' (stream ++ [b]) (reports ++ out) := by
  have hreports : dispatches (reports ++ out) = dispatches reports := by
    rw [dispatches_append, hout, List.append_nil]
  refine ⟨?_, ?_, ?_, ?_⟩
  · rw [hpos, h.pos, List.length_append, List.length_singleton]
    omega
  · rcases hframe with hfirst | hhalted | hin
    · exact Or.inl hfirst
    · exact Or.inr (Or.inl hhalted)
    · exact Or.inr (Or.inr ⟨hin.sound, hin.taken, hreports ▸ hin.behind⟩)
  · rw [hreports]
    exact h.genuine.append [b]
  · intro dispatch hdispatch
    have hbehind := h.behind dispatch (hreports ▸ hdispatch)
    omega

/-- The next byte of a frame. -/
theorem InFrame.next (h : InFrame origin d stream reports) (b : UInt8) {d' : Decoder}
    (hsound : d'.stage.Sound) (htaken : d'.stage.taken = d.stage.taken ++ [b])
    (hstart : d'.start = d.start) : InFrame origin d' (stream ++ [b]) reports := by
  obtain ⟨before, rfl, hbefore⟩ := h.taken
  refine ⟨hsound, ⟨before, ?_, hstart.trans hbefore⟩, hstart ▸ h.behind⟩
  rw [htaken, List.append_assoc]

theorem Tracks.frame (h : Tracks origin d stream reports) (hfirst : d.stage ≠ .first)
    (hhalted : d.stage ≠ .halted) : InFrame origin d stream reports :=
  (h.inFrame.resolve_left hfirst).resolve_left hhalted

/-- A byte inside a frame. -/
theorem Tracks.inside (h : Tracks origin d stream reports) (b : UInt8) {stage : Stage}
    (hfirst : d.stage ≠ .first) (hhalted : d.stage ≠ .halted) (hsound : stage.Sound)
    (htaken : stage.taken = d.stage.taken ++ [b]) :
    Tracks origin ⟨d.pos + 1, d.start, stage⟩ (stream ++ [b]) (reports ++ []) :=
  h.quiet b rfl rfl (Or.inr (Or.inr ((h.frame hfirst hhalted).next b hsound htaken rfl)))

/-- The last byte of a frame with a good checksum. -/
theorem Tracks.report (h : Tracks origin d stream reports) {topic length : Nat}
    {done : List UInt8} (hstage : d.stage = .body topic length done)
    (hfull : ¬ done.length < length) {d' : Decoder} (hpos : d'.pos = d.pos + 1)
    (hfirst : d'.stage = .first) :
    Tracks origin d' (stream ++ [messageChecksum topic done])
      (reports ++ [.frame ⟨d.start, d.pos + 1, topic, done⟩]) := by
  have hin := h.frame (by simp [hstage]) (by simp [hstage])
  obtain ⟨before, hstream, hstart⟩ := hin.taken
  have hsound := hin.sound
  rw [hstage] at hsound hstream
  obtain ⟨htopic, hlength, hle⟩ := hsound
  obtain rfl : done.length = length := by omega
  have hencoded : stream ++ [messageChecksum topic done] =
      before ++ encode topic done ++ [] := by
    simp only [hstream, Stage.taken, encode, List.append_assoc, List.append_nil]
  have hlen := congrArg List.length hstream
  simp only [Stage.taken, List.length_append, header_length] at hlen
  have hdispatches : dispatches (reports ++ [.frame ⟨d.start, d.pos + 1, topic, done⟩]) =
      dispatches reports ++ [⟨d.start, d.pos + 1, topic, done⟩] := by
    rw [dispatches_append]
    rfl
  refine ⟨?_, Or.inl hfirst, ?_, ?_⟩
  · rw [hpos, h.pos, List.length_append, List.length_singleton]
    omega
  · rw [hdispatches]
    refine ⟨?_, ?_⟩
    · intro dispatch hdispatch
      rcases List.mem_append.mp hdispatch with hold | hnew
      · exact (h.genuine.encoded dispatch hold).append _
      · obtain rfl := List.mem_singleton.mp hnew
        refine ⟨htopic, hlength, before, [], hencoded, hstart, ?_⟩
        have hpos' := h.pos
        dsimp only
        rw [encode_length]
        omega
    · refine List.pairwise_append.mpr ⟨h.genuine.disjoint, List.pairwise_singleton _ _, ?_⟩
      intro earlier hearlier later hlater
      obtain rfl := List.mem_singleton.mp hlater
      exact hin.behind earlier hearlier
  · rw [hdispatches]
    intro dispatch hdispatch
    rcases List.mem_append.mp hdispatch with hold | hnew
    · have hbehind := h.behind dispatch hold
      omega
    · obtain rfl := List.mem_singleton.mp hnew
      exact Nat.le_of_eq hpos.symm

theorem Policy.afterHeader_cases (policy : Policy) (topic length : Nat) :
    policy.afterHeader topic length = .first ∨ policy.afterHeader topic length = .halted ∨
      policy.afterHeader topic length = .body topic length [] := by
  rw [Policy.afterHeader]
  split
  · exact Or.inr (Or.inr rfl)
  · exact Or.inl rfl
  · exact Or.inr (Or.inl rfl)

/-- One byte. -/
theorem Tracks.read (h : Tracks origin d stream reports) (b : UInt8) :
    Tracks origin (policy.read d b).1 (stream ++ [b]) (reports ++ (policy.read d b).2) := by
  unfold Policy.read
  cases hstage : d.stage with
  | first =>
    dsimp only
    split
    · rename_i hb
      refine h.quiet b rfl rfl (Or.inr (Or.inr ⟨trivial, ⟨stream, ?_, h.pos⟩, h.behind⟩))
      rw [hb]
      rfl
    · exact h.quiet b rfl rfl (Or.inl rfl)
  | second =>
    dsimp only
    by_cases hb : b = 0xfe
    · rw [if_pos hb]
      exact h.inside b (by simp [hstage]) (by simp [hstage]) trivial
        (by simp [hstage, Stage.taken, hb])
    · rw [if_neg hb]
      exact h.quiet b rfl rfl (Or.inl rfl)
  | sizeL =>
    exact h.inside b (by simp [hstage]) (by simp [hstage]) trivial
      (by simp [hstage, Stage.taken])
  | sizeH l =>
    exact h.inside b (by simp [hstage]) (by simp [hstage]) trivial
      (by simp [hstage, Stage.taken])
  | sizeChecksum l hh =>
    dsimp only
    split
    · exact h.inside b (by simp [hstage]) (by simp [hstage]) trivial
        (by simp [hstage, Stage.taken])
    · exact h.quiet b rfl rfl (Or.inl rfl)
  | topicL l hh c =>
    exact h.inside b (by simp [hstage]) (by simp [hstage]) trivial
      (by simp [hstage, Stage.taken])
  | topicH l hh c t =>
    dsimp only
    split
    · rename_i hc
      rcases policy.afterHeader_cases (word t b) (word l hh) with hnext | hnext | hnext
      · exact h.quiet b rfl rfl (Or.inl hnext)
      · exact h.quiet b rfl rfl (Or.inr (Or.inl hnext))
      · rw [hnext]
        exact h.inside b (by simp [hstage]) (by simp [hstage])
          ⟨word_lt t b, word_lt l hh, Nat.zero_le _⟩ (by simp [hstage, Stage.taken, header_word, hc])
    · exact h.quiet b rfl rfl (Or.inl rfl)
  | body topic length done =>
    dsimp only
    by_cases hmore : done.length < length
    · rw [if_pos hmore]
      have hsound := (h.frame (by simp [hstage]) (by simp [hstage])).sound
      rw [hstage] at hsound
      refine h.inside b (by simp [hstage]) (by simp [hstage]) ⟨hsound.1, hsound.2.1, ?_⟩
        (by simp [hstage, Stage.taken])
      rw [List.length_append, List.length_singleton]
      exact hmore
    · rw [if_neg hmore]
      by_cases hb : b = messageChecksum topic done
      · rw [if_pos hb, hb]
        exact h.report hstage hmore rfl rfl
      · rw [if_neg hb]
        exact h.quiet b rfl rfl (Or.inl rfl)
  | halted =>
    exact h.quiet b rfl rfl (Or.inr (Or.inl rfl))

/-- The frames that a decoder reports are genuine, whatever it reads and whenever it is
told to search again. -/
theorem genuine (policy : Policy) (pos start : Nat) (inputs : List (Option UInt8)) :
    Genuine pos (bytesOf inputs)
      (dispatches (policy.decoder.output (searching pos start) inputs)) := by
  have htracks : Tracks pos (policy.decoder.final (searching pos start) inputs) (bytesOf inputs)
      (policy.decoder.output (searching pos start) inputs) := by
    refine policy.decoder.history
      (I := fun d inputs reports => Tracks pos d (bytesOf inputs) reports) ?_ ?_ inputs
    · exact ⟨rfl, Or.inl rfl, ⟨nofun, List.Pairwise.nil⟩, nofun⟩
    · intro d inputs reports input h
      cases input with
      | none =>
        have hbytes : bytesOf (inputs ++ [none]) = bytesOf inputs := by
          rw [bytesOf_append]
          exact List.append_nil _
        rw [hbytes]
        have hsame : reports ++ (policy.decoder.step d none).2 = reports := List.append_nil _
        rw [hsame]
        exact ⟨h.pos, Or.inl rfl, h.genuine, h.behind⟩
      | some b =>
        rw [bytesOf_append]
        exact h.read b
  exact htracks.genuine

end Track

end Ros2Serial.Wire
