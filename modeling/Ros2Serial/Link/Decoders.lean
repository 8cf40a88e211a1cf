import Mathlib.Data.List.Infix
import Ros2Serial.Device.Decoding
import Ros2Serial.Host.Decoding

/-!
# The two decoders on any stream

What both ends of the link make of a stream that need not be one of frames.

Both are decoders of the frame format (`decoder_simulates` for the state machine of
`spinOnce`, `Live.exec` for the callbacks of a session), so what is known of these
holds of runs.  Only frames that are in the stream are acted on
(`dispatched_genuine`).  A frame behind other bytes is found if these do not end
with an odd number of `ff` (`resynchronises_iff`), and the two ends agree as long as
no length has a wrong checksum (`decoders_agree_iff`).
-/

namespace Ros2Serial.Link

open Device Host

/-! ## Runs on a stream -/

/-- A node that waits for a frame reads the stream, without a timeout. -/
structure DeviceReads (cfg : NodeConfig) (callbacks : Callbacks cfg) (nh : NodeHandle)
    (calls : List Call) (stream : List UInt8) : Prop where
  initialised : nh.Initialised cfg
  mode : nh.receiver.mode = .FIRST_FF
  stream : nh.hardware.rx ++ calls.flatMap Call.arrived = stream
  read : (run cfg callbacks nh calls).1.hardware.rx = []
  noReset : .reset ∉ (run cfg callbacks nh calls).2

/-- A session that waits for a frame reads the stream, without a read that fails. -/
structure HostReads (handlers : Handlers) (s s' : Session) (unread : List UInt8)
    (steps : List SessionStep) (stream : List UInt8) : Prop where
  boundary : s.AtBoundary unread
  undisturbed : ∀ st ∈ steps, st.Undisturbed
  exec : s.exec handlers steps = some s'
  stream : unread ++ steps.flatMap SessionStep.arrived = stream
  quiet : s'.async_read_buffer.next = none

section Cut

variable {size : Nat} {reported : List Wire.Report} {origin : Nat} {stream : List UInt8}

theorem resumes_cut : Wire.resumes (reported.map (cut size)) = Wire.resumes reported := by
  rw [Wire.resumes, Wire.resumes, List.filterMap_map]
  refine List.filterMap_congr fun report _ => ?_
  cases report <;> rfl

theorem dispatches_cut :
    Wire.dispatches (reported.map (cut size)) = (Wire.dispatches reported).map fun dispatch =>
      { dispatch with payload := dispatch.payload.take size } := by
  rw [Wire.dispatches, Wire.dispatches, List.filterMap_map, List.map_filterMap]
  refine List.filterMap_congr fun report _ => ?_
  cases report <;> rfl

theorem frames_map_cut :
    Wire.frames (reported.map (cut size)) =
      (Wire.frames reported).map fun frame => (frame.1, frame.2.take size) := by
  rw [Wire.frames, Wire.frames, dispatches_cut, List.map_map, List.map_map]
  rfl

/-- Where the payloads have room, nothing is cut off. -/
theorem frames_cut (h : ∀ dispatch ∈ Wire.dispatches reported, dispatch.payload.length ≤ size) :
    Wire.frames (reported.map (cut size)) = Wire.frames reported := by
  rw [frames_map_cut, Wire.frames, List.map_map]
  refine List.map_congr_left fun dispatch hdispatch => ?_
  simp only [Function.comp_apply, List.take_of_length_le (h dispatch hdispatch)]

end Cut

/-- The reports of a node that reads a stream. -/
theorem DeviceReads.reports_eq {cfg : NodeConfig} {callbacks : Callbacks cfg} {nh : NodeHandle}
    {calls : List Call} {stream : List UInt8} (h : DeviceReads cfg callbacks nh calls stream) :
    reports cfg nh.receiver (run cfg callbacks nh calls).2 =
      ((devicePolicy cfg).feed (Wire.searching 0 0) stream).2.map (cut cfg.INPUT_SIZE) := by
  have hspins := run_spins callbacks h.initialised calls
  have hbytes : bytesRead (run cfg callbacks nh calls).2 = stream := by
    have hrx := hspins.rx
    rw [h.stream, h.read, List.append_nil] at hrx
    exact hrx.symm
  rw [Device.reports_eq h.mode h.initialised.messageIn, inputs_of_no_reset h.noReset, hbytes]
  rfl

/-- The branches of a node that reads a stream are those of its frames. -/
theorem run_acted {cfg : NodeConfig} (callbacks : Callbacks cfg) {nh : NodeHandle}
    (hinit : nh.Initialised cfg) (hmode : nh.receiver.mode = .FIRST_FF) (calls : List Call) :
    Acted cfg nh.Registered (taken (run cfg callbacks nh calls).2)
      (Wire.frames (reports cfg nh.receiver (run cfg callbacks nh calls).2)) :=
  (run_spins callbacks hinit calls).follows.acted (d := ⟨0, 0, nh.receiver⟩)
    (a := Wire.searching 0 0) ⟨rfl, rfl, .first hmode, hinit.messageIn⟩ rfl

/-! ## Only frames of the stream are acted on -/

/-- The frames that a session looks up, and those whose payload fits `message_in` that a
node acts on, are the bytes of the stream from the first byte of the search to the last byte
that was read, as the format encodes them, and the places of two frames are disjoint.  The
session may be stopped and its reads may fail; the node may time out. -/
theorem dispatched_genuine :
    (∀ (handlers : Handlers) (s s' : Session) (unread : List UInt8) (steps : List SessionStep),
      s.AtBoundary unread → (∀ st ∈ steps, st ≠ .start) → s.exec handlers steps = some s' →
      s'.lookups = s.lookups ++ Wire.frames (s.reports handlers steps) ∧
        Wire.Genuine 0 (unread ++ steps.flatMap SessionStep.arrived)
          (Wire.dispatches (s.reports handlers steps))) ∧
    ∀ (cfg : NodeConfig) (callbacks : Callbacks cfg) (nh : NodeHandle) (calls : List Call),
      nh.Initialised cfg → nh.receiver.mode = .FIRST_FF →
      let reported := reports cfg nh.receiver (run cfg callbacks nh calls).2
      Acted cfg nh.Registered (taken (run cfg callbacks nh calls).2) (Wire.frames reported) ∧
        (∀ dispatch ∈ Wire.dispatches reported,
          dispatch.stop ≤ dispatch.start + (cfg.INPUT_SIZE + 8) →
          dispatch.EncodedIn 0 (nh.hardware.rx ++ calls.flatMap Call.arrived)) ∧
        (Wire.dispatches reported).Pairwise fun earlier later => earlier.stop ≤ later.start := by
  refine ⟨fun handlers s s' unread steps h hsteps hexec => h.exec_genuine hsteps hexec, ?_⟩
  intro cfg callbacks nh calls hinit hmode
  have hgenuine := (Wire.genuine (devicePolicy cfg) 0 0
    (inputs (run cfg callbacks nh calls).2)).append (run cfg callbacks nh calls).1.hardware.rx
  rw [bytesOf_inputs, ← (run_spins callbacks hinit calls).rx] at hgenuine
  refine ⟨run_acted callbacks hinit hmode calls, ?_, ?_⟩
  · rw [Device.reports_eq hmode hinit.messageIn, dispatches_cut]
    intro dispatch hdispatch hstop
    obtain ⟨whole, hwhole, rfl⟩ := List.mem_map.mp hdispatch
    have hencoded := hgenuine.encoded whole hwhole
    obtain ⟨-, -, -, -, hlength⟩ := hencoded.range
    rw [Wire.encode_length] at hlength
    have hfit : whole.payload.take cfg.INPUT_SIZE = whole.payload :=
      List.take_of_length_le (by dsimp only at hstop; omega)
    rw [hfit]
    exact hencoded
  · rw [Device.reports_eq hmode hinit.messageIn, dispatches_cut, List.pairwise_map]
    exact hgenuine.disjoint

/-- A byte that is no frame, and a disconnection. -/
def noisyStream : List UInt8 := 0x01 :: Wire.encode 11 []

/-- A stray `ff`, and a disconnection. -/
def strayStream : List UInt8 := 0xff :: Wire.encode 11 []

/-- A node gets a stream before it spins. -/
def spinOn (stream : List UInt8) : List Call := [.arrive stream, .spinOnce]

/-- A session gets a stream, and runs its callbacks. -/
def runOn (stream : List UInt8) (callbacks : Nat) : List SessionStep :=
  .arrive stream :: List.replicate callbacks .run

theorem runOn_undisturbed (stream : List UInt8) (callbacks : Nat) :
    ∀ st ∈ runOn stream callbacks, st.Undisturbed ∧ st ≠ .stop ∧ st ≠ .start := by
  intro st hst
  rcases List.mem_cons.mp hst with rfl | hrun
  · exact ⟨trivial, by simp, by simp⟩
  · rw [List.eq_of_mem_replicate hrun]
    exact ⟨trivial, by simp, by simp⟩

theorem runOn_arrived (stream : List UInt8) (callbacks : Nat) :
    (runOn stream callbacks).flatMap SessionStep.arrived = stream := by
  rw [runOn, List.flatMap_cons]
  simp [SessionStep.arrived]

/-- What a run of a started session comes to. -/
structure Ran where
  active : Bool × Bool
  quiet : Bool
  lookups : List (Nat × List UInt8) × List (Nat × List UInt8)
  resumes : List Nat
  deriving DecidableEq

/-- A new session on a stream that arrives in one read. -/
def ranOn (stream : List UInt8) (callbacks : Nat) : Option Ran := do
  let s ← Session.new 1 true
  let s' ← s.start.exec noHandlers (runOn stream callbacks)
  some { active := (s.start.active, s'.active), quiet := s'.async_read_buffer.next.isNone
         lookups := (s.start.lookups, s'.lookups)
         resumes := Wire.resumes (s.start.reports noHandlers (runOn stream callbacks)) }

theorem exists_runOn (stream : List UInt8) (callbacks : Nat) (looked : List (Nat × List UInt8))
    (resumed : List Nat)
    (h : ranOn stream callbacks = some ⟨(true, true), true, ([], looked), resumed⟩) :
    ∃ s s' : Session, HostReads noHandlers s s' [] (runOn stream callbacks) stream ∧
      s.active = true ∧ s'.active = true ∧ s.lookups = [] ∧ s'.lookups = looked ∧
      Wire.resumes (s.reports noHandlers (runOn stream callbacks)) = resumed := by
  unfold ranOn at h
  simp only [Option.bind_eq_bind, Option.bind_eq_some_iff] at h
  obtain ⟨s, hnew, s', hexec, hview⟩ := h
  simp only [Option.some.injEq, Ran.mk.injEq, Prod.mk.injEq, Option.isNone_iff_eq_none] at hview
  obtain ⟨⟨hactive, hactive'⟩, hnone, ⟨hempty, hlooked⟩, hresumes⟩ := hview
  have hsteps := runOn_undisturbed stream callbacks
  exact ⟨s.start, s', ⟨Session.start_atBoundary hnew, fun st hst => (hsteps st hst).1, hexec,
    by rw [runOn_arrived, List.nil_append], hnone⟩, hactive, hactive', hempty, hlooked, hresumes⟩

theorem spinOn_reads (stream : List UInt8)
    (h : (run atmega168 (noCallbacks _) (freshNode atmega168) (spinOn stream)).1.hardware.rx = [] ∧
      .reset ∉ (run atmega168 (noCallbacks _) (freshNode atmega168) (spinOn stream)).2) :
    DeviceReads atmega168 (noCallbacks _) (freshNode atmega168) (spinOn stream) stream where
  initialised := construct_initialised atmega168 idleHardware
  mode := rfl
  stream := by simp [spinOn, Call.arrived, freshNode, initNode, construct, idleHardware]
  read := h.1
  noReset := h.2

theorem noisyStream_runs :
    ∃ s s' : Session, HostReads noHandlers s s' [] (runOn noisyStream 5) noisyStream ∧
      s.active = true ∧ s'.active = true ∧ s.lookups = [] ∧ s'.lookups = [(11, [])] ∧
      Wire.resumes (s.reports noHandlers (runOn noisyStream 5)) = [] :=
  exists_runOn _ _ _ _ (by decide +kernel)

theorem noisyStream_reads :
    DeviceReads atmega168 (noCallbacks _) (freshNode atmega168) (spinOn noisyStream) noisyStream :=
  spinOn_reads noisyStream (by decide +kernel)

/-- A session looks up a frame behind a byte that is none, which has its place in the
stream. -/
theorem noisyStream_genuine :
    ∃ s s' : Session, s'.lookups = s.lookups ++ [(11, [])] ∧
      Wire.Genuine 0 noisyStream (Wire.dispatches (s.reports noHandlers (runOn noisyStream 5))) ∧
      ∀ dispatch ∈ Wire.dispatches (reports atmega168 (freshNode atmega168).receiver
          (run atmega168 (noCallbacks _) (freshNode atmega168) (spinOn noisyStream)).2),
        dispatch.stop ≤ dispatch.start + (atmega168.INPUT_SIZE + 8) →
        dispatch.EncodedIn 0 noisyStream := by
  obtain ⟨s, s', hreads, -, -, hempty, hlooked, -⟩ := noisyStream_runs
  have hsteps := runOn_undisturbed noisyStream 5
  obtain ⟨-, hgenuine⟩ := dispatched_genuine.1 noHandlers s s' [] (runOn noisyStream 5)
    hreads.boundary (fun st hst => (hsteps st hst).2.2) hreads.exec
  obtain ⟨-, hencoded, -⟩ := dispatched_genuine.2 atmega168 (noCallbacks _) (freshNode atmega168)
    (spinOn noisyStream) (construct_initialised atmega168 idleHardware) rfl
  have hdevice := noisyStream_reads
  rw [hreads.stream] at hgenuine
  rw [hdevice.stream] at hencoded
  exact ⟨s, s', by rw [hlooked, hempty]; rfl, hgenuine, hencoded⟩

/-! ## A frame behind other bytes -/

section Noise

variable {noise : List UInt8} {topic : Nat} {payload : List UInt8}

/-- The node acts on a frame behind the noise if and only if the noise ends with an even
number of `ff`. -/
theorem device_resynchronises (hnoise : ¬ [0xff, 0xfe] <:+: noise) {cfg : NodeConfig}
    {callbacks : Callbacks cfg} {nh : NodeHandle} {calls : List Call}
    (hfits : Device.Fits cfg (topic, payload)) (hhandled : Handled nh.Registered topic)
    (hreads : DeviceReads cfg callbacks nh calls (noise ++ Wire.encode topic payload)) :
    Wire.frames (reports cfg nh.receiver (run cfg callbacks nh calls).2) = [(topic, payload)] ∧
        List.Forall₂ Serves (taken (run cfg callbacks nh calls).2) [(topic, payload)] ↔
      Even (Wire.trailing noise) := by
  have hread : (devicePolicy cfg).verdict topic payload.length = .read := if_pos hfits.valid
  have hframes := (devicePolicy cfg).frames_noise hnoise hfits.topic hfits.length hread 0 0
  have hacted := run_acted callbacks hreads.initialised hreads.mode calls
  rw [hreads.reports_eq] at hacted ⊢
  by_cases heven : Even (Wire.trailing noise)
  · rw [if_pos heven] at hframes
    have hroom : ∀ dispatch ∈ Wire.dispatches ((devicePolicy cfg).feed (Wire.searching 0 0)
        (noise ++ Wire.encode topic payload)).2, dispatch.payload.length ≤ cfg.INPUT_SIZE := by
      intro dispatch hdispatch
      have hmem : (dispatch.topic, dispatch.payload) ∈ [(topic, payload)] :=
        hframes ▸ List.mem_map_of_mem hdispatch
      rw [(Prod.mk.inj (List.mem_singleton.mp hmem)).2]
      exact hfits.input
    rw [frames_cut hroom, hframes] at hacted ⊢
    refine iff_of_true ⟨rfl, hacted.all fun frame hframe => ?_⟩ heven
    rw [List.mem_singleton.mp hframe]
    exact ⟨hfits.valid, hhandled⟩
  · -- every frame that is found lies inside this one, and is shorter
    rw [if_neg heven] at hframes
    refine iff_of_false (fun hacts => ?_) heven
    obtain ⟨dispatch, hdispatch, hframe⟩ := List.mem_map.mp
      (hacts.1 ▸ List.mem_singleton_self (topic, payload) :
        (topic, payload) ∈ Wire.frames (((devicePolicy cfg).feed (Wire.searching 0 0)
          (noise ++ Wire.encode topic payload)).2.map (cut cfg.INPUT_SIZE)))
    rw [dispatches_cut] at hdispatch
    obtain ⟨whole, hwhole, rfl⟩ := List.mem_map.mp hdispatch
    have hshort := hframes _ (List.mem_map_of_mem hwhole)
    have hlength := congrArg List.length (Prod.mk.inj hframe).2
    simp only [List.length_take] at hlength
    dsimp only at hshort
    omega

/-- So does the session. -/
theorem session_resynchronises (hnoise : ¬ [0xff, 0xfe] <:+: noise) {handlers : Handlers}
    {s s' : Session} {unread : List UInt8} {steps : List SessionStep}
    (hfits : Host.Fits (topic, payload)) (hactive : s.active = true)
    (hstop : ∀ st ∈ steps, st ≠ .stop)
    (hreads : HostReads handlers s s' unread steps (noise ++ Wire.encode topic payload)) :
    s'.lookups = s.lookups ++ [(topic, payload)] ↔ Even (Wire.trailing noise) := by
  have hmax : buffer_max = 8191 := rfl
  obtain ⟨htopic, hlength⟩ := hfits
  dsimp only at htopic hlength
  have hframes := hostPolicy.frames_noise hnoise htopic
    (show payload.length < 65536 by omega) (if_pos hlength) 0 0
  obtain ⟨hlookups, hpre, -, hall⟩ :=
    hreads.boundary.exec_reports hreads.undisturbed hreads.exec hreads.quiet
  rw [hreads.stream] at hpre hall
  have hframesBefore : Wire.frames (s.reports handlers steps) <+:
      Wire.frames (hostPolicy.feed (Wire.searching 0 0)
        (noise ++ Wire.encode topic payload)).2 := by
    obtain ⟨more, hmore⟩ := hpre
    rw [← hmore, Wire.frames_append]
    exact List.prefix_append _ _
  rw [hlookups]
  by_cases heven : Even (Wire.trailing noise)
  · rw [if_pos heven] at hframes
    refine iff_of_true ?_ heven
    by_cases hnil : Wire.frames (s.reports handlers steps) = []
    · rw [hall hstop hactive hnil, hframes]
    · rw [hframes] at hframesBefore
      rw [hframesBefore.eq_of_length_le (List.length_pos_of_ne_nil hnil)]
  · rw [if_neg heven] at hframes
    refine iff_of_false (fun hlooked => ?_) heven
    rw [List.append_cancel_left hlooked] at hframesBefore
    exact Nat.lt_irrefl _ (hframes _ (hframesBefore.subset (List.mem_singleton_self _)))

end Noise

/-- Behind bytes without the pair `ff fe`, the node and the session act on a frame, once and
on nothing else, if and only if these bytes end with an even number of `ff`. -/
theorem resynchronises_iff {noise : List UInt8} (hnoise : ¬ [0xff, 0xfe] <:+: noise) (topic : Nat)
    (payload : List UInt8) :
    (∀ (cfg : NodeConfig) (callbacks : Callbacks cfg) (nh : NodeHandle) (calls : List Call),
      Device.Fits cfg (topic, payload) → Handled nh.Registered topic →
      DeviceReads cfg callbacks nh calls (noise ++ Wire.encode topic payload) →
      (Wire.frames (reports cfg nh.receiver (run cfg callbacks nh calls).2) = [(topic, payload)] ∧
          List.Forall₂ Serves (taken (run cfg callbacks nh calls).2) [(topic, payload)] ↔
        Even (Wire.trailing noise))) ∧
    ∀ (handlers : Handlers) (s s' : Session) (unread : List UInt8) (steps : List SessionStep),
      Host.Fits (topic, payload) → s.active = true → (∀ st ∈ steps, st ≠ .stop) →
      HostReads handlers s s' unread steps (noise ++ Wire.encode topic payload) →
      (s'.lookups = s.lookups ++ [(topic, payload)] ↔ Even (Wire.trailing noise)) := by
  constructor
  · intro cfg callbacks nh calls hfits hhandled hreads
    exact device_resynchronises hnoise hfits hhandled hreads
  · intro handlers s s' unread steps hfits hactive hstop hreads
    exact session_resynchronises hnoise hfits hactive hstop hreads

theorem disconnection_fits : Device.Fits atmega168 (11, []) ∧ Host.Fits (11, []) ∧
    Handled (freshNode atmega168).Registered (11 : Nat) := by
  exact ⟨⟨by decide, by decide, by decide, by decide⟩, ⟨by decide, by decide⟩,
    Or.inl (by decide)⟩

/-- A byte that is no frame does no harm. -/
theorem noisyStream_resynchronises :
    ∃ s s' : Session, HostReads noHandlers s s' [] (runOn noisyStream 5) noisyStream ∧
      s'.lookups = s.lookups ++ [(11, [])] ∧
      Wire.frames (reports atmega168 (freshNode atmega168).receiver
        (run atmega168 (noCallbacks _) (freshNode atmega168) (spinOn noisyStream)).2) =
          [(11, [])] := by
  obtain ⟨s, s', hreads, hactive, -⟩ := noisyStream_runs
  have hdevice := noisyStream_reads
  obtain ⟨hfits, hfits', hhandled⟩ := disconnection_fits
  have heven : Even (Wire.trailing [0x01]) := by decide
  have hnoise : ¬ [0xff, 0xfe] <:+: [(0x01 : UInt8)] := by decide
  obtain ⟨hnode, hsession⟩ := resynchronises_iff hnoise 11 []
  have hsteps := runOn_undisturbed noisyStream 5
  exact ⟨s, s', hreads,
    (hsession noHandlers s s' [] _ hfits' hactive (fun st hst => (hsteps st hst).2.1) hreads).mpr
      heven, ((hnode atmega168 _ _ _ hfits hhandled hdevice).mpr heven).1⟩

/-- A stray `ff` in front of a frame costs the frame, on both sides. -/
theorem strayByte_not_resynchronises :
    (¬ ∀ (noise : List UInt8) (topic : Nat) (payload : List UInt8) (cfg : NodeConfig)
      (callbacks : Callbacks cfg) (nh : NodeHandle) (calls : List Call),
      ¬ [0xff, 0xfe] <:+: noise → Device.Fits cfg (topic, payload) →
      Handled nh.Registered topic →
      DeviceReads cfg callbacks nh calls (noise ++ Wire.encode topic payload) →
      Wire.frames (reports cfg nh.receiver (run cfg callbacks nh calls).2) = [(topic, payload)] ∧
        List.Forall₂ Serves (taken (run cfg callbacks nh calls).2) [(topic, payload)]) ∧
    ¬ ∀ (noise : List UInt8) (topic : Nat) (payload : List UInt8) (handlers : Handlers)
      (s s' : Session) (unread : List UInt8) (steps : List SessionStep),
      ¬ [0xff, 0xfe] <:+: noise → Host.Fits (topic, payload) → s.active = true →
      (∀ st ∈ steps, st ≠ .stop) →
      HostReads handlers s s' unread steps (noise ++ Wire.encode topic payload) →
      s'.lookups = s.lookups ++ [(topic, payload)] := by
  obtain ⟨hfits, hfits', hhandled⟩ := disconnection_fits
  constructor
  · intro h
    have hdevice := spinOn_reads strayStream (by decide +kernel)
    have hframes := (h [0xff] 11 [] atmega168 _ _ _ (by decide) hfits hhandled hdevice).1
    have hnone : Wire.frames (reports atmega168 (freshNode atmega168).receiver
        (run atmega168 (noCallbacks _) (freshNode atmega168) (spinOn strayStream)).2) = [] := by
      decide +kernel
    rw [hnone] at hframes
    cases hframes
  · intro h
    obtain ⟨s, s', hreads, hactive, -, hempty, hlooked, -⟩ :=
      exists_runOn strayStream 9 [] []
        (by decide +kernel)
    have hsteps := runOn_undisturbed strayStream 9
    have hlookups := h [0xff] 11 [] noHandlers s s' [] _ (by decide) hfits' hactive
      (fun st hst => (hsteps st hst).2.1) hreads
    rw [hlooked, hempty] at hlookups
    cases hlookups

/-! ## Agreement -/

/-- Every header with a good checksum of the length that there is anywhere in the stream has
a topic that is valid for the device, and a length that fits both buffers.  The host's holds
a payload together with its checksum. -/
def CandidatesFit (cfg : NodeConfig) (stream : List UInt8) : Prop :=
  ∀ topic length, topic < 65536 → length < 65536 → Wire.header topic length <:+: stream →
    cfg.isTopicValid topic = true ∧ length ≤ cfg.INPUT_SIZE ∧ length + 1 ≤ buffer_max

/-- What `CandidatesFit` asks of the bytes from a position on. -/
def candidateFits (cfg : NodeConfig) : List UInt8 → Bool
  | a :: b :: l :: h :: c :: t :: t' :: _ =>
    !(a = 0xff && b = 0xfe && c = Wire.wordChecksum l h) ||
      (cfg.isTopicValid (Wire.word t t') && Wire.word l h ≤ cfg.INPUT_SIZE &&
        Wire.word l h + 1 ≤ buffer_max)
  | _ => true

theorem candidatesFit_of_tails {cfg : NodeConfig} {stream : List UInt8}
    (h : ∀ rest ∈ stream.tails, candidateFits cfg rest = true) : CandidatesFit cfg stream := by
  rintro topic length htopic hlength ⟨before, after, rfl⟩
  have hrest := h (Wire.header topic length ++ after) ((List.mem_tails _ _).mpr
    ⟨before, by rw [List.append_assoc]⟩)
  have hsum : Wire.lengthChecksum length = Wire.wordChecksum (Wire.lo length) (Wire.hi length) :=
    rfl
  simp only [Wire.header, List.cons_append, candidateFits, hsum, Wire.word_lo_hi htopic,
    Wire.word_lo_hi hlength, decide_true, Bool.and_self, Bool.not_true, Bool.false_or,
    Bool.and_eq_true, decide_eq_true_eq] at hrest
  exact ⟨hrest.1.1, hrest.1.2, hrest.2⟩

/-- A frame of the stream has a header in it. -/
theorem header_within {dispatch : Wire.Dispatch} {origin : Nat} {stream : List UInt8}
    (h : dispatch.EncodedIn origin stream) :
    Wire.header dispatch.topic dispatch.payload.length <:+: stream := by
  obtain ⟨before, after, rfl, -⟩ := h.range
  refine ⟨before, dispatch.payload ++ [Wire.messageChecksum dispatch.topic dispatch.payload] ++
    after, ?_⟩
  simp only [Wire.encode, List.append_assoc]

/-- The node and the session, on one stream, act on the same frames and go on at the same
positions after wrong checksums of a length, if and only if the search meets no such
checksum. -/
theorem decoders_agree_iff {cfg : NodeConfig} {callbacks : Callbacks cfg} {nh : NodeHandle}
    {calls : List Call} {handlers : Handlers} {s s' : Session} {unread stream : List UInt8}
    {steps : List SessionStep} (hfit : CandidatesFit cfg stream)
    (hdevice : DeviceReads cfg callbacks nh calls stream)
    (hhost : HostReads handlers s s' unread steps stream) (hactive : s'.active = true) :
    s'.lookups = s.lookups ++
          Wire.frames (reports cfg nh.receiver (run cfg callbacks nh calls).2) ∧
        Wire.resumes (s.reports handlers steps) =
          Wire.resumes (reports cfg nh.receiver (run cfg callbacks nh calls).2) ↔
      ¬ Wire.MeetsBadLength stream := by
  have hread : (devicePolicy cfg).ReadsAll stream := fun topic length htopic hlength hheader =>
    if_pos (hfit topic length htopic hlength hheader).1
  have hread' : hostPolicy.ReadsAll stream := fun topic length htopic hlength hheader =>
    if_pos (hfit topic length htopic hlength hheader).2.2
  have hagree := Wire.agree_iff (devicePolicy cfg) hostPolicy rfl rfl hread hread' 0 0
  obtain ⟨hlookups, -, hreports, -⟩ :=
    hhost.boundary.exec_reports hhost.undisturbed hhost.exec hhost.quiet
  rw [hhost.stream] at hreports
  have hroom : ∀ dispatch ∈ Wire.dispatches
      ((devicePolicy cfg).feed (Wire.searching 0 0) stream).2,
      dispatch.payload.length ≤ cfg.INPUT_SIZE := by
    intro dispatch hdispatch
    have hencoded := (Wire.genuine (devicePolicy cfg) 0 0 (stream.map some)).encoded dispatch
      hdispatch
    rw [Wire.bytesOf_map_some] at hencoded
    exact (hfit _ _ hencoded.topic hencoded.length (header_within hencoded)).2.1
  rw [← hagree, hlookups, hreports hactive, hdevice.reports_eq, resumes_cut, frames_cut hroom]
  constructor
  · rintro ⟨hframes, hresumes⟩
    exact ⟨(List.append_cancel_left hframes).symm, hresumes.symm⟩
  · rintro ⟨hframes, hresumes⟩
    exact ⟨by rw [hframes], hresumes.symm⟩

/-- Where both sides find the frame, the search has met no wrong checksum. -/
theorem noisyStream_agree : ¬ Wire.MeetsBadLength noisyStream := by
  obtain ⟨s, s', hreads, -, hactive, hempty, hlooked, hresumes⟩ := noisyStream_runs
  have hdevice := noisyStream_reads
  refine (decoders_agree_iff (candidatesFit_of_tails (by decide)) hdevice hreads hactive).mp
    ⟨?_, ?_⟩
  · rw [hlooked, hempty]
    decide
  · rw [hresumes]
    decide

/-- A header whose length has a wrong checksum, and a disconnection. -/
def brokenStream : List UInt8 := [0xff, 0xfe, 0x00, 0x00, 0x00] ++ Wire.encode 11 []

/-- The host loses the frame that the device finds. -/
theorem brokenStream_not_agree :
    ¬ ∀ (cfg : NodeConfig) (callbacks : Callbacks cfg) (nh : NodeHandle) (calls : List Call)
      (handlers : Handlers) (s s' : Session) (unread stream : List UInt8)
      (steps : List SessionStep), CandidatesFit cfg stream →
      DeviceReads cfg callbacks nh calls stream → HostReads handlers s s' unread steps stream →
      s'.active = true →
      s'.lookups = s.lookups ++
          Wire.frames (reports cfg nh.receiver (run cfg callbacks nh calls).2) ∧
        Wire.resumes (s.reports handlers steps) =
          Wire.resumes (reports cfg nh.receiver (run cfg callbacks nh calls).2) := by
  intro h
  obtain ⟨s, s', hreads, -, hactive, hempty, hlooked, -⟩ :=
    exists_runOn brokenStream 9 [] [7]
      (by decide +kernel)
  have hdevice := spinOn_reads brokenStream (by decide +kernel)
  have hlookups := (h atmega168 _ _ _ noHandlers s s' [] brokenStream _
    (candidatesFit_of_tails (by decide)) hdevice hreads hactive).1
  have hframes : Wire.frames (reports atmega168 (freshNode atmega168).receiver
      (run atmega168 (noCallbacks _) (freshNode atmega168) (spinOn brokenStream)).2) =
        [(11, [])] := by
    decide
  rw [hlooked, hempty, hframes] at hlookups
  cases hlookups

end Ros2Serial.Link
