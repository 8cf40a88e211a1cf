import Ros2Serial.Host.Frames
import Ros2Serial.Wire.Search

/-!
# A session as a decoder

The callbacks of a session are a decoder of the frame format, on a stream of any
bytes: the topic id is read before the checksum of the length is tested, and a
length that the read buffer cannot hold ends the session (`hostPolicy`).

A session reads in groups of 1, 1, 5 and length + 1 bytes.  `reports` follows a run
with two positions in the stream that the code does not have: that of the next byte,
and that of the last `ff` that `read_sync_first` took for the start of a frame.  What
it reports of a body is what `read_body` has looked up.

A session is live, and the callback that comes next belongs to the stage of the
decoder, or it is stalled, and no callback and no read is left.  A run of a live
session makes the steps of the decoder (`Live.exec`).  A read that fails makes it
search again.
-/

namespace Ros2Serial.Host

/-! ## Reports of a run -/

/-- How a session treats the frame format. -/
def hostPolicy : Wire.Policy where
  topicFirst := true
  verdict _ length := if length + 1 ≤ buffer_max then .read else .halt

/-- What a callback reports, with the bytes that it got and the frames that it looked up. -/
def callbackReports (pos start : Nat) (callback : Continuation) (bytes : List UInt8)
    (looked : List (Nat × List UInt8)) : List Wire.Report :=
  match callback with
  | .readSyncFirst | .readSyncSecond => []
  | .readIdLength =>
    let stream : SimpleCdr := { buffer := bytes, offset := 0 }
    let (length, stream) := stream.getUint16
    let (length_checksum, _) := stream.getUint8
    if length_checksum.toNat + (checksum16 length).toNat ≠ 0xff then
      [.badLength (pos + bytes.length)]
    else []
  | .readBody _ =>
    looked.map fun frame => .frame ⟨start, pos + bytes.length, frame.1, frame.2⟩

/-- What a step from `s` to `s'` reports, and the positions after it. -/
def observe (pos start : Nat) (s s' : Session) (st : SessionStep) :
    List Wire.Report × Nat × Nat :=
  match st, s.async_read_buffer.next with
  | .run, some (callback, bytes, _) =>
    (callbackReports pos start callback bytes (s'.lookups.drop s.lookups.length),
      pos + bytes.length, if callback = .readSyncFirst ∧ bytes = [0xff] then pos else start)
  | _, _ => ([], pos, start)

/-- The reports of a run, from a position in the stream. -/
def Session.reportsFrom (handlers : Handlers) :
    Nat → Nat → Session → List SessionStep → List Wire.Report
  | _, _, _, [] => []
  | pos, start, s, st :: steps =>
    match s.step handlers st with
    | none => []
    | some s' =>
      let (reports, pos, start) := observe pos start s s' st
      reports ++ reportsFrom handlers pos start s' steps

/-- The reports of a run of a session that waits for its first byte. -/
def Session.reports (handlers : Handlers) (s : Session) (steps : List SessionStep) :
    List Wire.Report := s.reportsFrom handlers 0 0 steps

/-! ## One callback -/

namespace Session

/-- The callback and the number of its bytes that belong to a stage. -/
inductive Continues : Continuation → Nat → Wire.Stage → Prop
  | first : Continues .readSyncFirst 1 .first
  | second : Continues .readSyncSecond 1 .second
  | idLength : Continues .readIdLength 5 .sizeL
  | body {topic length : Nat} (htopic : topic < 65536) (hlength : length + 1 ≤ buffer_max) :
      Continues (.readBody topic) (length + 1) (.body topic length [])

theorem Continues.le_max {callback : Continuation} {n : Nat} {stage : Wire.Stage}
    (h : Continues callback n stage) : n ≤ buffer_max := by
  have hmax : buffer_max = 8191 := rfl
  cases h with
  | body _ hlength => exact hlength
  | _ => omega

/-- The next callback is that of the decoder's stage, and it gets the first of the unread
bytes and of those that arrive. -/
structure Live (s : Session) (d : Wire.Decoder) (unread : List UInt8) : Prop where
  capacity : s.async_read_buffer.mem.length = buffer_max
  next : ∃ callback n, Continues callback n d.stage ∧ s.async_read_buffer.Wants callback n unread

/-- No callback and no read is left. -/
structure Stalled (s : Session) : Prop where
  pending : s.async_read_buffer.pending = []
  posted : s.async_read_buffer.posted = []

section Callback

variable {s : Session} {unread : List UInt8} {d : Wire.Decoder}

theorem Live.congr {s' : Session} (h : s.Live d unread)
    (hbuffer : s'.async_read_buffer = s.async_read_buffer) : s'.Live d unread :=
  ⟨hbuffer ▸ h.capacity, hbuffer ▸ h.next⟩

theorem Stalled.congr {s' : Session} (h : s.Stalled)
    (hbuffer : s'.async_read_buffer = s.async_read_buffer) : s'.Stalled :=
  ⟨hbuffer ▸ h.pending, hbuffer ▸ h.posted⟩

/-- The read of a stage is accepted. -/
theorem read_live (hidle : s.async_read_buffer.Idle unread)
    (hcapacity : s.async_read_buffer.mem.length = buffer_max) {callback : Continuation} {n : Nat}
    (hcontinues : Continues callback n d.stage) :
    (s.read n callback).Live d unread ∧ (s.read n callback).lookups = s.lookups ∧
      (s.read n callback).active = s.active := by
  obtain ⟨buffer, hread, hwants, hmem⟩ := hidle.read callback (hcapacity ▸ hcontinues.le_max)
  rw [read_accepted hread]
  exact ⟨⟨hmem.trans hcapacity, callback, n, hcontinues, hwants⟩, rfl, rfl⟩

theorem readDepth_of_error {depth n : Nat} {callback : Continuation} {error : ErrorCode}
    {buffer : AsyncReadBuffer Continuation}
    (h : s.async_read_buffer.read n (some callback) = (buffer, some error)) :
    s.readDepth (depth + 1) n callback =
      readFailed (readDepth depth 1 .readSyncFirst) error { s with async_read_buffer := buffer } := by
  rw [readDepth.eq_def]
  dsimp only
  rw [h]

/-- A request beyond the capacity leaves a session with nothing to do. -/
theorem read_oversize (hidle : s.async_read_buffer.Idle unread) {n : Nat}
    (hn : s.async_read_buffer.mem.length < n) (callback : Continuation) :
    (s.read n callback).Stalled ∧ (s.read n callback).active = false ∧
      (s.read n callback).lookups = s.lookups := by
  have hread : s.async_read_buffer.read n (some callback) =
      ({ s.async_read_buffer with
          count := 0, read_success_callback := some callback, read_requested_bytes := n },
        some .no_buffer_space) := by
    simp only [AsyncReadBuffer.read, hidle.requested, ne_eq, not_true_eq_false, if_false,
      Option.isNone_some, Bool.false_eq_true, gt_iff_lt, if_pos hn]
  have hbusy : AsyncReadBuffer.read 1 (some Continuation.readSyncFirst) { s.async_read_buffer with
      count := 0, read_success_callback := some callback, read_requested_bytes := n } =
      ({ s.async_read_buffer with
          count := 1, read_success_callback := some callback, read_requested_bytes := n },
        some .operation_not_permitted) := by
    have hne : n ≠ 0 := by omega
    simp only [AsyncReadBuffer.read, hne, ne_eq, not_false_eq_true, if_true]
    rfl
  have hstop : s.read n callback = stop { s with async_read_buffer := { s.async_read_buffer with
      count := 1, read_success_callback := some callback, read_requested_bytes := n } } := by
    rw [Session.read, readDepth_of_error hread, readFailed, if_pos rfl,
      readDepth_of_error (s := { s with async_read_buffer := { s.async_read_buffer with
        count := 0, read_success_callback := some callback, read_requested_bytes := n } }) hbusy]
    rfl
  rw [hstop]
  obtain ⟨hbuffer, hlookups⟩ := stop_keeps { s with async_read_buffer := { s.async_read_buffer with
      count := 1, read_success_callback := some callback, read_requested_bytes := n } }
  exact ⟨⟨by rw [hbuffer]; exact hidle.pending, by rw [hbuffer]; exact hidle.posted⟩,
    stop_inactive _, hlookups⟩

/-- What a part of a run makes of a session that the decoder `d` describes: `inputs` bring
it to `d'`.  If it is `calm`, no read fails, and if it is `unstopped` besides, a session that is
active stays so until it has looked up a frame or met a length that is too large. -/
structure Decodes (calm unstopped : Prop) (s s' : Session) (d d' : Wire.Decoder)
    (inputs : List (Option UInt8)) (reports : List Wire.Report) : Prop where
  run : hostPolicy.decoder.run d inputs = (d', reports)
  lookups : s'.lookups = s.lookups ++ Wire.frames reports
  bytes : calm → inputs = (Wire.bytesOf inputs).map some
  active : calm → unstopped → s.active = true →
    s'.active = true ∨ Wire.frames reports ≠ [] ∨ d'.stage = .halted

/-- A stalled session that no failed read has stalled. -/
def StalledBy (calm : Prop) (s : Session) (d : Wire.Decoder) : Prop :=
  s.Stalled ∧ (calm → d.stage = .halted ∨ s.active = false)

/-- The next read is accepted. -/
theorem read_decodes (calm unstopped : Prop) (hidle : s.async_read_buffer.Idle unread)
    (hcapacity : s.async_read_buffer.mem.length = buffer_max) {callback : Continuation} {n : Nat}
    {d' : Wire.Decoder} (hcontinues : Continues callback n d'.stage) {bytes : List UInt8}
    {reports : List Wire.Report} (hfeed : hostPolicy.feed d bytes = (d', reports))
    (hreports : Wire.frames reports = []) :
    Decodes calm unstopped s (s.read n callback) d d' (bytes.map some) reports ∧
      (s.read n callback).Live d' unread := by
  obtain ⟨hlive, hlookups, hactive⟩ := read_live hidle hcapacity hcontinues
  refine ⟨⟨hfeed, ?_, fun _ => ?_, fun _ _ h => Or.inl (hactive.trans h)⟩, hlive⟩
  · rw [hlookups, hreports, List.append_nil]
  · rw [Wire.bytesOf_map_some]

/-- The test of the checksum of a length. -/
theorem lengthChecksum_test (l h c : UInt8) :
    c.toNat + (checksum16 (l.toNat + 256 * h.toNat)).toNat ≠ 0xff ↔ c ≠ Wire.wordChecksum l h := by
  have hc := c.toNat_lt
  have hl := l.toNat_lt
  have hh := h.toNat_lt
  have hsum : (checksum16 (l.toNat + 256 * h.toNat)).toNat = (l.toNat + h.toNat) % 256 := by
    rw [checksum16_eq, UInt8.toNat_ofNat']
    simp only [Wire.lo_toNat, Wire.hi_toNat]
    omega
  rw [hsum, ne_eq, ne_eq, not_iff_not, ← UInt8.toNat_inj, Wire.wordChecksum, Wire.complement_toNat]
  omega

/-- The test of the checksum of a message. -/
theorem messageChecksum_test (topic : Nat) (payload : List UInt8) (b : UInt8) :
    UInt8.ofNat (Bytes.byteSum (payload ++ [b])) + checksum16 topic = 0xff ↔
      b = Wire.messageChecksum topic payload := by
  have hb := b.toNat_lt
  rw [checksum16_eq, ← UInt8.ofNat_add, ← UInt8.toNat_inj, UInt8.toNat_ofNat', Bytes.byteSum_append,
    Bytes.byteSum_cons, Bytes.byteSum_nil, Wire.messageChecksum, ← Wire.sum_eq_iff]
  simp only [UInt8.reduceToNat]
  omega

/-- The header that `read_id_length` gets. -/
theorem readIdLength_eq (l h c t t' : UInt8) :
    s.readIdLength { buffer := [l, h, c, t, t'], offset := 0 } =
      if c ≠ Wire.wordChecksum l h then s.readSyncHeader
      else s.read (Wire.word l h + 1) (.readBody (Wire.word t t')) := by
  simp only [readIdLength, SimpleCdr.getUint16, SimpleCdr.getUint8, List.getD_cons_zero,
    List.getD_cons_succ, lengthChecksum_test]
  rfl

theorem callbackReports_idLength (pos start : Nat) (l h c t t' : UInt8)
    (looked : List (Nat × List UInt8)) :
    callbackReports pos start .readIdLength [l, h, c, t, t'] looked =
      if c ≠ Wire.wordChecksum l h then [.badLength (pos + 5)] else [] := by
  simp only [callbackReports, SimpleCdr.getUint16, SimpleCdr.getUint8, List.getD_cons_zero,
    List.getD_cons_succ, lengthChecksum_test]
  rfl

/-- The body that `read_body` gets. -/
theorem readBody_eq (handlers : Handlers) (hactive : s.active = true) (topic : Nat)
    {payload : List UInt8} (b : UInt8) (hlength : payload.length + 1 ≤ buffer_max) :
    s.readBody handlers { buffer := payload ++ [b], offset := 0 } topic =
      some (if b = Wire.messageChecksum topic payload then
        (s.lookup handlers topic payload).readSyncHeader else s.readSyncHeader) := by
  have hmax : buffer_max = 8191 := rfl
  have hlen : (payload ++ [b]).length < 65536 := by
    rw [List.length_append, List.length_singleton]
    omega
  have hpayload : (payload ++ [b]).take ((payload ++ [b]).length - 1) = payload := by
    simp
  simp only [readBody, hactive, Bool.not_true, Bool.false_eq_true, if_false, checksum, if_pos hlen,
    Option.bind_eq_bind, Option.bind_some, hpayload, ne_eq, messageChecksum_test]
  by_cases hb : b = Wire.messageChecksum topic payload
  · rw [if_neg (not_not_intro hb), if_pos hb]
  · rw [if_pos hb, if_neg hb]

/-- A callback takes its bytes through the decoder, which stands where the next callback
will read, or it leaves the session stalled. -/
def Takes (calm unstopped : Prop) (s s' : Session) (d : Wire.Decoder) (callback : Continuation)
    (bytes unread : List UInt8) : Prop :=
  ∃ inputs d' rest, bytes ++ unread = Wire.bytesOf inputs ++ rest ∧
    Decodes calm unstopped s s' d d' inputs
      (callbackReports d.pos d.start callback bytes (s'.lookups.drop s.lookups.length)) ∧
    (s'.Live d' rest ∧ d'.pos = d.pos + bytes.length ∧
        d'.start = (if callback = .readSyncFirst ∧ bytes = [0xff] then d.pos else d.start) ∨
      s'.StalledBy calm d')

section Takes

variable {calm unstopped : Prop} {pos start : Nat}

/-- A callback that looks up nothing and reads on. -/
theorem takes_read (hidle : s.async_read_buffer.Idle unread)
    (hcapacity : s.async_read_buffer.mem.length = buffer_max) {callback next : Continuation}
    {n : Nat} {d' : Wire.Decoder} (hcontinues : Continues next n d'.stage) {bytes : List UInt8}
    {reports : List Wire.Report} (hfeed : hostPolicy.feed d bytes = (d', reports))
    (hframes : Wire.frames reports = [])
    (hreports : callbackReports d.pos d.start callback bytes [] = reports)
    (hpos : d'.pos = d.pos + bytes.length)
    (hstart : d'.start = if callback = .readSyncFirst ∧ bytes = [0xff] then d.pos else d.start) :
    Takes calm unstopped s (s.read n next) d callback bytes unread := by
  obtain ⟨hdecodes, hlive⟩ := read_decodes calm unstopped hidle hcapacity hcontinues hfeed hframes
  have hlooked : (s.read n next).lookups.drop s.lookups.length = [] := by
    rw [hdecodes.lookups, hframes, List.append_nil, List.drop_length]
  refine ⟨bytes.map some, d', unread, by rw [Wire.bytesOf_map_some], ?_,
    Or.inl ⟨hlive, hpos, hstart⟩⟩
  rw [hlooked, hreports]
  exact hdecodes

theorem readSyncFirst_takes (hidle : s.async_read_buffer.Idle unread)
    (hcapacity : s.async_read_buffer.mem.length = buffer_max) (b : UInt8) :
    Takes calm unstopped s (s.readSyncFirst { buffer := [b], offset := 0 }) ⟨pos, start, .first⟩
      .readSyncFirst [b] unread := by
  by_cases hb : b = 0xff
  · subst hb
    have hfeed : hostPolicy.feed ⟨pos, start, .first⟩ [0xff] = (⟨pos + 1, pos, .second⟩, []) := rfl
    exact takes_read hidle hcapacity .second hfeed rfl rfl rfl rfl
  · have hstep : s.readSyncFirst { buffer := [b], offset := 0 } = s.read 1 .readSyncFirst :=
      if_neg hb
    have hne : ¬ (Continuation.readSyncFirst = .readSyncFirst ∧ [b] = [0xff]) := by
      simp [hb]
    have hfeed : hostPolicy.feed ⟨pos, start, .first⟩ [b] = (⟨pos + 1, start, .first⟩, []) := by
      simp [Wire.Policy.feed_cons, Wire.Policy.read, hb]
    rw [hstep]
    exact takes_read hidle hcapacity .first hfeed rfl rfl rfl (if_neg hne).symm

theorem readSyncSecond_takes (hidle : s.async_read_buffer.Idle unread)
    (hcapacity : s.async_read_buffer.mem.length = buffer_max) (b : UInt8) :
    Takes calm unstopped s (s.readSyncSecond { buffer := [b], offset := 0 }) ⟨pos, start, .second⟩
      .readSyncSecond [b] unread := by
  by_cases hb : b = 0xfe
  · subst hb
    have hfeed : hostPolicy.feed ⟨pos, start, .second⟩ [0xfe] = (⟨pos + 1, start, .sizeL⟩, []) :=
      rfl
    exact takes_read hidle hcapacity .idLength hfeed rfl rfl rfl rfl
  · have hstep : s.readSyncSecond { buffer := [b], offset := 0 } = s.read 1 .readSyncFirst :=
      if_neg hb
    have hfeed : hostPolicy.feed ⟨pos, start, .second⟩ [b] = (⟨pos + 1, start, .first⟩, []) := by
      simp [Wire.Policy.feed_cons, Wire.Policy.read, hb]
    rw [hstep]
    exact takes_read hidle hcapacity .first hfeed rfl rfl rfl rfl

/-- A good header is read on, unless its length is beyond the capacity. -/
theorem readIdLength_takes (hidle : s.async_read_buffer.Idle unread)
    (hcapacity : s.async_read_buffer.mem.length = buffer_max) (l h c t t' : UInt8) :
    Takes calm unstopped s (s.readIdLength { buffer := [l, h, c, t, t'], offset := 0 })
      ⟨pos, start, .sizeL⟩ .readIdLength [l, h, c, t, t'] unread := by
  rw [readIdLength_eq]
  by_cases hc : c = Wire.wordChecksum l h
  · rw [if_neg (not_not_intro hc)]
    have hquiet : callbackReports pos start .readIdLength [l, h, c, t, t'] [] = [] := by
      rw [callbackReports_idLength, if_neg (not_not_intro hc)]
    have hfeed := hostPolicy.feed_header l h t t' pos start
    rw [← hc] at hfeed
    by_cases hfit : Wire.word l h + 1 ≤ buffer_max
    · have hstage : hostPolicy.afterHeader (Wire.word t t') (Wire.word l h) =
          .body (Wire.word t t') (Wire.word l h) [] := by
        simp only [Wire.Policy.afterHeader, hostPolicy, if_pos hfit]
      rw [hstage] at hfeed
      exact takes_read hidle hcapacity (.body (Wire.word_lt t t') hfit) hfeed rfl hquiet rfl rfl
    · have hstage : hostPolicy.afterHeader (Wire.word t t') (Wire.word l h) = .halted := by
        simp only [Wire.Policy.afterHeader, hostPolicy, if_neg hfit]
      rw [hstage] at hfeed
      obtain ⟨hstalled, -, hlookups⟩ := read_oversize hidle (n := Wire.word l h + 1)
        (by omega) (.readBody (Wire.word t t'))
      refine ⟨_, ⟨pos + 5, start, .halted⟩, unread, by rw [Wire.bytesOf_map_some], ?_,
        Or.inr ⟨hstalled, fun _ => Or.inl rfl⟩⟩
      rw [hlookups, List.drop_length, hquiet]
      exact ⟨hfeed, hlookups.trans (List.append_nil _).symm,
        fun _ => by rw [Wire.bytesOf_map_some], fun _ _ _ => Or.inr (Or.inr rfl)⟩
  · have hbad : callbackReports pos start .readIdLength [l, h, c, t, t'] [] =
        [.badLength (pos + 5)] := by
      rw [callbackReports_idLength, if_pos hc]
    have hfeed : hostPolicy.feed ⟨pos, start, .sizeL⟩ [l, h, c, t, t'] =
        (⟨pos + 5, start, .first⟩, [.badLength (pos + 5)]) := by
      simp [Wire.Policy.feed_cons, Wire.Policy.read, hostPolicy, hc]
    rw [if_pos hc]
    exact takes_read hidle hcapacity .first hfeed rfl hbad rfl rfl

/-- A body is looked up if its checksum is good. -/
theorem readBody_takes {handlers : Handlers} {s' : Session} (hidle : s.async_read_buffer.Idle unread)
    (hcapacity : s.async_read_buffer.mem.length = buffer_max) {topic : Nat} {payload : List UInt8}
    (b : UInt8) (hlength : payload.length + 1 ≤ buffer_max)
    (hresume : s.readBody handlers { buffer := payload ++ [b], offset := 0 } topic = some s') :
    Takes calm unstopped s s' ⟨pos, start, .body topic payload.length []⟩ (.readBody topic)
      (payload ++ [b]) unread := by
  have hne : ¬ (Continuation.readBody topic = .readSyncFirst ∧ payload ++ [b] = [0xff]) := by
    simp
  have hpos : pos + payload.length + 1 = pos + (payload ++ [b]).length := by
    rw [List.length_append, List.length_singleton, Nat.add_assoc]
  by_cases hactive : s.active = true
  · rw [readBody_eq handlers hactive topic b hlength] at hresume
    obtain rfl := Option.some.inj hresume
    have hfeed := hostPolicy.feed_body topic payload b pos start
    by_cases hb : b = Wire.messageChecksum topic payload
    · rw [if_pos hb] at hfeed
      rw [if_pos hb]
      obtain ⟨hbuffer, hlooked⟩ := lookup_keeps handlers topic payload s
      obtain ⟨hlive, hlookups, -⟩ := read_live (s := s.lookup handlers topic payload)
        (d := Wire.searching (pos + payload.length + 1) start) (hbuffer ▸ hidle)
        (hbuffer ▸ hcapacity) .first
      have hall : (s.lookup handlers topic payload).readSyncHeader.lookups =
          s.lookups ++ [(topic, payload)] := hlookups.trans hlooked
      have hreports : callbackReports pos start (.readBody topic) (payload ++ [b])
          ((s.lookup handlers topic payload).readSyncHeader.lookups.drop s.lookups.length) =
            [.frame ⟨start, pos + payload.length + 1, topic, payload⟩] := by
        rw [hall, List.drop_left, hpos]
        rfl
      refine ⟨(payload ++ [b]).map some, _, unread, by rw [Wire.bytesOf_map_some], ?_,
        Or.inl ⟨hlive, hpos, (if_neg hne).symm⟩⟩
      rw [hreports]
      exact ⟨hfeed, hall, fun _ => by rw [Wire.bytesOf_map_some],
        fun _ _ _ => Or.inr (Or.inl (List.cons_ne_nil _ _))⟩
    · rw [if_neg hb] at hfeed
      rw [if_neg hb]
      exact takes_read hidle hcapacity .first hfeed rfl rfl hpos (if_neg hne).symm
  · have hstay : s.readBody handlers { buffer := payload ++ [b], offset := 0 } topic = some s := by
      simp [readBody, hactive]
    rw [hstay] at hresume
    obtain rfl := Option.some.inj hresume
    refine ⟨[], ⟨pos, start, .body topic payload.length []⟩, payload ++ [b] ++ unread, rfl, ?_,
      Or.inr ⟨⟨hidle.pending, hidle.posted⟩, fun _ => Or.inr (Bool.not_eq_true _ ▸ hactive)⟩⟩
    rw [List.drop_length]
    exact ⟨rfl, (List.append_nil _).symm, fun _ => rfl, fun _ _ h => absurd h hactive⟩

end Takes

/-- A callback takes its bytes through the decoder, unless it is `read_body` in a session
that has stopped. -/
theorem resume_decodes (calm unstopped : Prop) {handlers : Handlers} {s' : Session}
    {callback : Continuation} {bytes : List UInt8} (hidle : s.async_read_buffer.Idle unread)
    (hcapacity : s.async_read_buffer.mem.length = buffer_max)
    (hcontinues : Continues callback bytes.length d.stage)
    (hresume : s.resume handlers { buffer := bytes, offset := 0 } callback = some s') :
    Takes calm unstopped s s' d callback bytes unread := by
  obtain ⟨pos, start, stage⟩ := d
  generalize hn : bytes.length = n at hcontinues
  cases hcontinues with
  | first =>
    obtain ⟨b, rfl⟩ := List.length_eq_one_iff.mp hn
    obtain rfl := Option.some.inj hresume
    exact readSyncFirst_takes hidle hcapacity b
  | second =>
    obtain ⟨b, rfl⟩ := List.length_eq_one_iff.mp hn
    obtain rfl := Option.some.inj hresume
    exact readSyncSecond_takes hidle hcapacity b
  | idLength =>
    rcases bytes with _ | ⟨l, _ | ⟨h, _ | ⟨c, _ | ⟨t, _ | ⟨t', _ | ⟨x, bytes⟩⟩⟩⟩⟩⟩ <;>
      simp at hn
    obtain rfl := Option.some.inj hresume
    exact readIdLength_takes hidle hcapacity l h c t t'
  | @body topic length _ hlength =>
    obtain ⟨payload, b, rfl⟩ : ∃ payload b, bytes = payload ++ [b] := by
      refine (List.eq_nil_or_concat' bytes).resolve_left ?_
      intro heq
      subst heq
      simp at hn
    obtain rfl : payload.length = length := by simpa using hn
    exact readBody_takes hidle hcapacity b hlength hresume

/-- A step that neither reads nor looks up. -/
theorem Decodes.stay {calm unstopped : Prop} {s' : Session} (hlookups : s'.lookups = s.lookups)
    (hactive : calm → unstopped → s'.active = s.active) :
    Decodes calm unstopped s s' d d [] [] where
  run := rfl
  lookups := hlookups.trans (List.append_nil _).symm
  bytes _ := rfl
  active hcalm hunstopped h := Or.inl ((hactive hcalm hunstopped).trans h)

/-- One part of a run after another. -/
theorem Decodes.trans {calm unstopped calm' unstopped' : Prop} {m s' : Session}
    {d₁ d' : Wire.Decoder} {inputs inputs' : List (Option UInt8)}
    {reports reports' : List Wire.Report} (h : Decodes calm unstopped s m d d₁ inputs reports)
    (h' : Decodes calm' unstopped' m s' d₁ d' inputs' reports')
    (hhalted : d₁.stage = .halted → d'.stage = .halted) :
    Decodes (calm ∧ calm') (unstopped ∧ unstopped') s s' d d' (inputs ++ inputs')
      (reports ++ reports') where
  run := by
    have hfinal : hostPolicy.decoder.final d inputs = d₁ := congrArg Prod.fst h.run
    have houtput : hostPolicy.decoder.output d inputs = reports := congrArg Prod.snd h.run
    have hfinal' : hostPolicy.decoder.final d₁ inputs' = d' := congrArg Prod.fst h'.run
    have houtput' : hostPolicy.decoder.output d₁ inputs' = reports' := congrArg Prod.snd h'.run
    have happend := hostPolicy.decoder.final_append d inputs inputs'
    have happend' := hostPolicy.decoder.output_append d inputs inputs'
    rw [hfinal, hfinal'] at happend
    rw [hfinal, houtput, houtput'] at happend'
    exact Prod.ext happend happend'
  lookups := by rw [h'.lookups, h.lookups, Wire.frames_append, List.append_assoc]
  bytes hcalm := by
    rw [Wire.bytesOf_append, List.map_append, ← h.bytes hcalm.1, ← h'.bytes hcalm.2]
  active hcalm hunstopped hactive := by
    rw [Wire.frames_append]
    rcases h.active hcalm.1 hunstopped.1 hactive with hm | hlooked | hstage
    · rcases h'.active hcalm.2 hunstopped.2 hm with hs' | hlooked | hstage
      · exact Or.inl hs'
      · exact Or.inr (Or.inl fun hnil => hlooked (List.append_eq_nil_iff.mp hnil).2)
      · exact Or.inr (Or.inr hstage)
    · exact Or.inr (Or.inl fun hnil => hlooked (List.append_eq_nil_iff.mp hnil).1)
    · exact Or.inr (Or.inr (hhalted hstage))

end Callback

/-! ## Steps and runs -/

section Steps

variable {handlers : Handlers} {s s' : Session} {st : SessionStep} {unread : List UInt8}
  {d : Wire.Decoder}

/-- A read fails. -/
theorem Live.fail (h : s.Live d unread) {error : ErrorCode}
    (hstep : s.step handlers (.fail error) = some s') :
    s'.lookups = s.lookups ∧ (s'.Live { d with stage := .first } unread ∨ s'.Stalled) := by
  obtain ⟨callback, n, -, hwants⟩ := h.next
  simp only [Session.step] at hstep
  split at hstep
  · cases hstep
  · split at hstep
    · cases hstep
    · rename_i op ops hpending
      obtain rfl := Option.some.inj hstep
      cases hwants with
      | delivers hdelivers =>
        rw [hdelivers.pending] at hpending
        cases hpending
      | awaits hawaits =>
        -- what arrived before is still unread
        obtain ⟨buffer, hcomplete, hidle, hmem⟩ :=
          hawaits.fail (hpending ▸ List.mem_cons_self) error
        unfold completeRead
        rw [hcomplete]
        by_cases haborted : error = .operation_aborted
        · rw [if_pos haborted]
          exact ⟨rfl, Or.inr ⟨hidle.pending, hidle.posted⟩⟩
        · rw [if_neg haborted]
          dsimp only
          unfold readFailed
          split
          · obtain ⟨hlive, hlookups, -⟩ := read_live (s := { s with async_read_buffer := buffer })
              (d := { d with stage := .first }) hidle (hmem.trans h.capacity) .first
            exact ⟨hlookups, Or.inl hlive⟩
          · obtain ⟨hbuffer, hlookups⟩ := stop_keeps { s with async_read_buffer := buffer }
            exact ⟨hlookups, Or.inr ⟨hbuffer ▸ hidle.pending, hbuffer ▸ hidle.posted⟩⟩

/-- Bytes arrive. -/
theorem Live.arrive (h : s.Live d unread) {bytes : List UInt8}
    (hstep : s.step handlers (.arrive bytes) = some s') :
    s'.Live d (unread ++ bytes) ∧ s'.lookups = s.lookups ∧ s'.active = s.active := by
  obtain ⟨callback, n, hcontinues, hwants⟩ := h.next
  simp only [Session.step] at hstep
  split at hstep
  · cases hstep
  · split at hstep
    · cases hstep
    · rename_i op ops hpending
      split at hstep
      · rename_i hcount
        obtain rfl := Option.some.inj hstep
        obtain ⟨buffer, hcomplete, hwants', hmem⟩ :=
          hwants.complete (hpending ▸ List.mem_cons_self) hcount.1 hcount.2
        have hread : s.completeRead op (.ok bytes) = { s with async_read_buffer := buffer } := by
          simp only [completeRead, hcomplete]
        rw [hread]
        exact ⟨⟨hmem.trans h.capacity, callback, n, hcontinues, hwants'⟩, rfl, rfl⟩
      · cases hstep

/-- A callback runs. -/
theorem Live.run (calm unstopped : Prop) (h : s.Live d unread)
    (hstep : s.step handlers .run = some s') :
    ∃ callback bytes buffer left, s.async_read_buffer.next = some (callback, bytes, buffer) ∧
      unread = bytes ++ left ∧ Takes calm unstopped s s' d callback bytes left := by
  obtain ⟨callback, n, hcontinues, hwants⟩ := h.next
  simp only [Session.step] at hstep
  split at hstep
  · cases hstep
  · split at hstep
    · cases hstep
    · rename_i callback' bytes buffer hnext
      have hn : n < 2 ^ 32 := Nat.lt_of_le_of_lt hcontinues.le_max (by decide)
      obtain ⟨rfl, rfl, hmem, left, rfl, hidle⟩ := hwants.next hn hnext
      obtain ⟨inputs, d', rest, hstream, hdecodes, hstate⟩ := resume_decodes calm unstopped
        (s := { s with async_read_buffer := buffer }) hidle (hmem.trans h.capacity) hcontinues
        hstep
      exact ⟨_, bytes, buffer, left, hnext, rfl, inputs, d', rest, hstream,
        ⟨hdecodes.run, hdecodes.lookups, hdecodes.bytes, hdecodes.active⟩, hstate⟩

/-- A step of a live session. -/
theorem Live.step (h : s.Live d unread) (hst : st ≠ .start)
    (hstep : s.step handlers st = some s') :
    ∃ inputs d' rest, unread ++ st.arrived = Wire.bytesOf inputs ++ rest ∧
      Decodes st.Undisturbed (st ≠ .stop) s s' d d' inputs (observe d.pos d.start s s' st).1 ∧
      (s'.Live d' rest ∧ d'.pos = (observe d.pos d.start s s' st).2.1 ∧
          d'.start = (observe d.pos d.start s s' st).2.2 ∨
        s'.StalledBy st.Undisturbed d') := by
  cases st with
  | start => exact absurd rfl hst
  | fail error =>
    obtain ⟨hlookups, hstate⟩ := h.fail hstep
    refine ⟨[none], { d with stage := .first }, unread, List.append_nil _,
      ⟨rfl, hlookups.trans (List.append_nil _).symm, False.elim, False.elim⟩, ?_⟩
    rcases hstate with hlive | hstalled
    · exact Or.inl ⟨hlive, rfl, rfl⟩
    · exact Or.inr ⟨hstalled, False.elim⟩
  | arrive bytes =>
    obtain ⟨hlive, hlookups, hactive⟩ := h.arrive hstep
    exact ⟨[], d, unread ++ bytes, rfl, .stay hlookups fun _ _ => hactive,
      Or.inl ⟨hlive, rfl, rfl⟩⟩
  | run =>
    obtain ⟨callback, bytes, buffer, left, hnext, rfl, hresume⟩ :=
      h.run SessionStep.run.Undisturbed (SessionStep.run ≠ .stop) hstep
    obtain ⟨inputs, d', rest, hstream, hdecodes, hstate⟩ := hresume
    refine ⟨inputs, d', rest, (List.append_nil _).trans hstream, ?_, ?_⟩
    · simp only [observe, hnext]
      exact hdecodes
    · simp only [observe, hnext]
      exact hstate
  | write message topic_id =>
    simp only [Session.step] at hstep
    split at hstep
    · cases hstep
    · obtain rfl := Option.some.inj hstep
      exact ⟨[], d, unread, List.append_nil _, .stay rfl fun _ _ => rfl,
        Or.inl ⟨h.congr rfl, rfl, rfl⟩⟩
  | stop =>
    simp only [Session.step] at hstep
    split at hstep
    · cases hstep
    · obtain rfl := Option.some.inj hstep
      obtain ⟨hbuffer, hlookups⟩ := stop_keeps s
      exact ⟨[], d, unread, List.append_nil _, .stay hlookups fun _ h => absurd rfl h,
        Or.inl ⟨h.congr hbuffer, rfl, rfl⟩⟩
  | interrupt =>
    simp only [Session.step] at hstep
    split at hstep
    · cases hstep
    · obtain rfl := Option.some.inj hstep
      exact ⟨[], d, unread, List.append_nil _, .stay rfl fun _ _ => rfl,
        Or.inl ⟨h.congr rfl, rfl, rfl⟩⟩

/-- A stalled session reads and reports nothing. -/
theorem Stalled.step (h : s.Stalled) (hst : st ≠ .start) (hstep : s.step handlers st = some s') :
    s'.Stalled ∧ s'.lookups = s.lookups ∧ st.arrived = [] ∧
      (∀ pos start, observe pos start s s' st = ([], pos, start)) ∧
      (s.active = false → s'.active = false) ∧ (st ≠ .stop → s'.active = s.active) := by
  have hnext : s.async_read_buffer.next = none := by
    rw [AsyncReadBuffer.next, h.posted]
  simp only [Session.step, h.pending, hnext] at hstep
  split at hstep
  · cases hstep
  · cases st with
    | start => exact absurd rfl hst
    | fail error => cases hstep
    | arrive bytes => cases hstep
    | run => cases hstep
    | write message topic_id =>
      obtain rfl := Option.some.inj hstep
      exact ⟨h.congr rfl, rfl, rfl, fun _ _ => rfl, id, fun _ => rfl⟩
    | stop =>
      obtain rfl := Option.some.inj hstep
      obtain ⟨hbuffer, hlookups⟩ := stop_keeps s
      exact ⟨h.congr hbuffer, hlookups, rfl, fun _ _ => rfl, fun _ => stop_inactive s,
        fun hne => absurd rfl hne⟩
    | interrupt =>
      obtain rfl := Option.some.inj hstep
      exact ⟨h.congr rfl, rfl, rfl, fun _ _ => rfl, id, fun _ => rfl⟩

theorem Decodes.mono {calm unstopped calm' unstopped' : Prop} {d' : Wire.Decoder}
    {inputs : List (Option UInt8)} {reports : List Wire.Report}
    (h : Decodes calm unstopped s s' d d' inputs reports) (hcalm : calm' → calm)
    (hunstopped : unstopped' → unstopped) : Decodes calm' unstopped' s s' d d' inputs reports :=
  ⟨h.run, h.lookups, fun hc => h.bytes (hcalm hc),
    fun hc hu => h.active (hcalm hc) (hunstopped hu)⟩

theorem Continues.not_halted {callback : Continuation} {n : Nat} {stage : Wire.Stage}
    (h : Continues callback n stage) : stage ≠ .halted := by
  cases h <;> simp

/-- A run of a stalled session. -/
theorem Stalled.exec {steps : List SessionStep} (h : s.Stalled)
    (hsteps : ∀ st ∈ steps, st ≠ .start) (hexec : s.exec handlers steps = some s') :
    s'.Stalled ∧ s'.lookups = s.lookups ∧ steps.flatMap SessionStep.arrived = [] ∧
      (∀ pos start, s.reportsFrom handlers pos start steps = []) ∧
      (s.active = false → s'.active = false) ∧
      ((∀ st ∈ steps, st ≠ .stop) → s'.active = s.active) := by
  induction steps generalizing s with
  | nil =>
    obtain rfl : s = s' := Option.some.inj hexec
    exact ⟨h, rfl, rfl, fun _ _ => rfl, id, fun _ => rfl⟩
  | cons st steps ih =>
    obtain ⟨m, hstep, hexec⟩ := exec_cons hexec
    obtain ⟨hm, hlookups, harrived, hobserve, hinactive, hactive⟩ :=
      h.step (hsteps st List.mem_cons_self) hstep
    obtain ⟨hs', hlookups', harrived', hreports, hinactive', hactive'⟩ :=
      ih hm (fun st hst => hsteps st (List.mem_cons_of_mem _ hst)) hexec
    refine ⟨hs', hlookups'.trans hlookups, ?_, fun pos start => ?_, hinactive' ∘ hinactive,
      fun hstop => ?_⟩
    · rw [List.flatMap_cons, harrived, harrived', List.append_nil]
    · simp only [reportsFrom, hstep, hobserve, hreports, List.append_nil]
    · rw [hactive' fun st hst => hstop st (List.mem_cons_of_mem _ hst),
        hactive (hstop st List.mem_cons_self)]

/-- A run of a live session that is not started again makes the steps of the decoder. -/
theorem Live.exec {steps : List SessionStep} (h : s.Live d unread)
    (hsteps : ∀ st ∈ steps, st ≠ .start) (hexec : s.exec handlers steps = some s') :
    ∃ inputs d' rest,
      unread ++ steps.flatMap SessionStep.arrived = Wire.bytesOf inputs ++ rest ∧
      Decodes (∀ st ∈ steps, st.Undisturbed) (∀ st ∈ steps, st ≠ .stop) s s' d d' inputs
        (s.reportsFrom handlers d.pos d.start steps) ∧
      (s'.Live d' rest ∨ s'.StalledBy (∀ st ∈ steps, st.Undisturbed) d') := by
  induction steps generalizing s d unread with
  | nil =>
    obtain rfl : s = s' := Option.some.inj hexec
    exact ⟨[], d, unread, List.append_nil _, .stay rfl fun _ _ => rfl, Or.inl h⟩
  | cons st steps ih =>
    obtain ⟨m, hstep, hexec⟩ := exec_cons hexec
    have hrest : ∀ st ∈ steps, st ≠ .start := fun st hst =>
      hsteps st (List.mem_cons_of_mem _ hst)
    obtain ⟨inputs, d₁, rest, hstream, hfirst, hstate⟩ :=
      h.step (hsteps st List.mem_cons_self) hstep
    have hcalm : (∀ st' ∈ st :: steps, st'.Undisturbed) →
        st.Undisturbed ∧ ∀ st' ∈ steps, st'.Undisturbed := fun h =>
      ⟨h st List.mem_cons_self, fun st' hst' => h st' (List.mem_cons_of_mem _ hst')⟩
    have hunstopped : (∀ st' ∈ st :: steps, st' ≠ .stop) →
        st ≠ .stop ∧ ∀ st' ∈ steps, st' ≠ .stop := fun h =>
      ⟨h st List.mem_cons_self, fun st' hst' => h st' (List.mem_cons_of_mem _ hst')⟩
    have hreports : s.reportsFrom handlers d.pos d.start (st :: steps) =
        (observe d.pos d.start s m st).1 ++ m.reportsFrom handlers
          (observe d.pos d.start s m st).2.1 (observe d.pos d.start s m st).2.2 steps := by
      simp only [reportsFrom, hstep]
    rw [hreports]
    rcases hstate with ⟨hlive, hpos, hstart⟩ | ⟨hstalled, hwhy⟩
    · obtain ⟨inputs', d', rest', hstream', hmore, hstate'⟩ := ih hlive hrest hexec
      rw [hpos, hstart] at hmore
      obtain ⟨callback, n, hcontinues, -⟩ := hlive.next
      refine ⟨inputs ++ inputs', d', rest', ?_,
        (hfirst.trans hmore fun hhalted => absurd hhalted hcontinues.not_halted).mono hcalm
          hunstopped, ?_⟩
      · rw [List.flatMap_cons, ← List.append_assoc, hstream, List.append_assoc, hstream',
          Wire.bytesOf_append, List.append_assoc]
      · exact hstate'.imp id fun hstalled => ⟨hstalled.1, fun h => hstalled.2 (hcalm h).2⟩
    · obtain ⟨hs', hlookups, harrived, hnone, hinactive, hactive⟩ := hstalled.exec hrest hexec
      rw [hnone]
      have hmore : Decodes (∀ st' ∈ steps, st'.Undisturbed) (∀ st' ∈ steps, st' ≠ .stop) m s'
          d₁ d₁ [] [] := .stay hlookups fun _ => hactive
      refine ⟨inputs ++ [], d₁, rest, ?_, (hfirst.trans hmore id).mono hcalm hunstopped,
        Or.inr ⟨hs', fun h => (hwhy (hcalm h).1).imp id hinactive⟩⟩
      rw [List.flatMap_cons, harrived, List.append_nil, hstream, List.append_nil]

/-- A session that waits for its first byte. -/
theorem AtBoundary.live (h : s.AtBoundary unread) : s.Live (Wire.searching 0 0) unread :=
  ⟨h.capacity, _, _, .first, h.waits⟩

/-- A callback that waits has not got all of its bytes. -/
theorem Live.short (h : s.Live d unread) (hnone : s.async_read_buffer.next = none) :
    ∃ callback n, Continues callback n d.stage ∧ unread.length < n := by
  obtain ⟨callback, n, hcontinues, hwants⟩ := h.next
  rcases hwants.progress with ⟨-, -, hshort⟩ | hsome
  · exact ⟨callback, n, hcontinues, hshort⟩
  · rw [hnone] at hsome
    cases hsome

/-- The bytes that a waiting callback has got make no report. -/
theorem Continues.quiet {callback : Continuation} {n : Nat} (h : Continues callback n d.stage)
    {bytes : List UInt8} (hshort : bytes.length < n) : (hostPolicy.feed d bytes).2 = [] := by
  obtain ⟨pos, start, stage⟩ := d
  cases h with
  | first | second =>
    obtain rfl : bytes = [] := List.eq_nil_of_length_eq_zero (by omega)
    rfl
  | idLength => exact hostPolicy.feed_partial_header rfl hshort
  | body _ hlength =>
    rw [hostPolicy.feed_payload [] bytes (by rw [List.length_nil]; omega)]

/-- What a run without failing reads reports, when no callback is left to run: what the
decoder reports of the stream, as long as the session is active or has not looked up
anything. -/
theorem AtBoundary.exec_reports {steps : List SessionStep} (h : s.AtBoundary unread)
    (hsteps : ∀ st ∈ steps, st.Undisturbed) (hexec : s.exec handlers steps = some s')
    (hnone : s'.async_read_buffer.next = none) :
    s'.lookups = s.lookups ++ Wire.frames (s.reports handlers steps) ∧
      s.reports handlers steps <+: (hostPolicy.feed (Wire.searching 0 0)
        (unread ++ steps.flatMap SessionStep.arrived)).2 ∧
      (s'.active = true → s.reports handlers steps = (hostPolicy.feed (Wire.searching 0 0)
        (unread ++ steps.flatMap SessionStep.arrived)).2) ∧
      ((∀ st ∈ steps, st ≠ .stop) → s.active = true →
        Wire.frames (s.reports handlers steps) = [] →
        s.reports handlers steps = (hostPolicy.feed (Wire.searching 0 0)
          (unread ++ steps.flatMap SessionStep.arrived)).2) := by
  obtain ⟨inputs, d', rest, hstream, hdecodes, hstate⟩ := h.live.exec
    (fun st hst hstart => by subst hstart; exact hsteps _ hst) hexec
  have hfeed : hostPolicy.feed (Wire.searching 0 0) (Wire.bytesOf inputs) =
      (d', s.reports handlers steps) := by
    rw [Wire.Policy.feed, ← hdecodes.bytes hsteps]
    exact hdecodes.run
  rw [hstream, Wire.Policy.feed_append, hfeed]
  dsimp only
  have hhalted : d'.stage = .halted → (hostPolicy.feed d' rest).2 = [] := by
    intro hstage
    obtain ⟨pos, start, stage⟩ := d'
    dsimp only at hstage
    subst hstage
    exact hostPolicy.feed_halted rest
  have hall : s'.active = true → (hostPolicy.feed d' rest).2 = [] := by
    intro hactive
    rcases hstate with hlive | ⟨-, hwhy⟩
    · obtain ⟨callback, n, hcontinues, hshort⟩ := hlive.short hnone
      exact hcontinues.quiet hshort
    · rcases hwhy hsteps with hstage | hinactive
      · exact hhalted hstage
      · rw [hinactive] at hactive
        cases hactive
  refine ⟨hdecodes.lookups, List.prefix_append _ _, fun hactive => ?_, fun hstop hbefore hnil => ?_⟩
  · rw [hall hactive, List.append_nil]
  · rcases hdecodes.active hsteps hstop hbefore with hactive | hlooked | hstage
    · rw [hall hactive, List.append_nil]
    · exact absurd hnil hlooked
    · rw [hhalted hstage, List.append_nil]

/-- The frames that a session looks up are in the stream, as they were encoded, and no two
of them share a byte. -/
theorem AtBoundary.exec_genuine {steps : List SessionStep} (h : s.AtBoundary unread)
    (hsteps : ∀ st ∈ steps, st ≠ .start) (hexec : s.exec handlers steps = some s') :
    s'.lookups = s.lookups ++ Wire.frames (s.reports handlers steps) ∧
      Wire.Genuine 0 (unread ++ steps.flatMap SessionStep.arrived)
        (Wire.dispatches (s.reports handlers steps)) := by
  obtain ⟨inputs, d', rest, hstream, hdecodes, -⟩ := h.live.exec hsteps hexec
  have houtput : hostPolicy.decoder.output (Wire.searching 0 0) inputs = s.reports handlers steps :=
    congrArg Prod.snd hdecodes.run
  refine ⟨hdecodes.lookups, ?_⟩
  rw [hstream, ← houtput]
  exact (Wire.genuine hostPolicy 0 0 inputs).append rest

end Steps

end Session

end Ros2Serial.Host
