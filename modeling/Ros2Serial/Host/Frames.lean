import Ros2Serial.Host.Session

/-!
# From the stream to the frames

What a session makes of a stream of frames, however it arrives: it looks up
the topics and payloads of the frames, in order, and it stays in step.

`Position` says where in a frame the next callback begins to read.  `Receives`
is the invariant of a run: the session looks up these frames when this stream
arrives.  A step of an active session takes frames off it and adds them to
`lookups` (`Receives.step`), and so does a run (`exec_lookups`).
-/

namespace Ros2Serial.Host

/-! ## Positions in a frame -/

/-- The next callback, the number of bytes that it gets, the frames that are to
be looked up, and the stream from the first of these bytes on. -/
inductive Position : Continuation → Nat → List (Nat × List UInt8) → List UInt8 → Prop
  | first (frames : List (Nat × List UInt8)) :
      Position .readSyncFirst 1 frames (Wire.encodeAll frames)
  | second (topic : Nat) (payload : List UInt8) (frames : List (Nat × List UInt8)) :
      Position .readSyncSecond 1 ((topic, payload) :: frames)
        ([0xfe] ++ ((Wire.header topic payload.length).drop 2 ++
          (Wire.body topic payload ++ Wire.encodeAll frames)))
  | idLength (topic : Nat) (payload : List UInt8) (frames : List (Nat × List UInt8)) :
      Position .readIdLength 5 ((topic, payload) :: frames)
        ((Wire.header topic payload.length).drop 2 ++
          (Wire.body topic payload ++ Wire.encodeAll frames))
  | body (topic : Nat) (payload : List UInt8) (frames : List (Nat × List UInt8)) :
      Position (.readBody topic) (payload.length + 1) ((topic, payload) :: frames)
        (Wire.body topic payload ++ Wire.encodeAll frames)

/-- Where no frame is left, nothing is left to read, and otherwise the bytes of
the next callback are part of a frame. -/
theorem Position.enough {callback : Continuation} {n : Nat} {frames : List (Nat × List UInt8)}
    {stream : List UInt8} (h : Position callback n frames stream) (hframes : frames ≠ []) :
    n ≤ stream.length := by
  cases h with
  | first =>
    obtain ⟨⟨topic, payload⟩, rest, rfl⟩ := List.exists_cons_of_ne_nil hframes
    rw [Wire.encodeAll_cons_eq]
    simp
  | second => simp
  | idLength => simp
  | body => simp [Wire.body]

/-- A frame that a session can receive. -/
def Fits (frame : Nat × List UInt8) : Prop :=
  frame.1 < 65536 ∧ frame.2.length + 1 ≤ buffer_max

/-- No callback asks for more than the buffer holds. -/
theorem Position.le_max {callback : Continuation} {n : Nat} {frames : List (Nat × List UInt8)}
    {stream : List UInt8} (h : Position callback n frames stream)
    (hfits : ∀ frame ∈ frames, Fits frame) : n ≤ buffer_max := by
  have hmax : buffer_max = 8191 := rfl
  cases h with
  | first | second | idLength => omega
  | body topic payload frames => exact (hfits (topic, payload) List.mem_cons_self).2

/-! ## Checksums of a frame -/

theorem lengthChecksum_good {length : Nat} :
    (Wire.lengthChecksum length).toNat + (checksum16 length).toNat = 0xff := by
  rw [checksum16_eq, Wire.lengthChecksum, Wire.complement_toNat, UInt8.toNat_ofNat']
  omega

theorem body_checksum (topic : Nat) {payload : List UInt8}
    (hlength : payload.length + 1 ≤ buffer_max) :
    ∃ sum, checksum (Wire.body topic payload) = some sum ∧ sum + checksum16 topic = 0xff := by
  have hlen : (Wire.body topic payload).length < 65536 := by
    simp only [Wire.body, List.length_append, List.length_singleton, buffer_max] at hlength ⊢
    omega
  refine ⟨UInt8.ofNat (Bytes.byteSum (Wire.body topic payload)), if_pos hlen, ?_⟩
  rw [checksum16_eq, ← UInt8.ofNat_add]
  apply UInt8.toNat_inj.mp
  have hgood := Wire.sum_complement
    ((Wire.lo topic).toNat + (Wire.hi topic).toNat + Bytes.byteSum payload)
  rw [UInt8.toNat_ofNat', Wire.body, Bytes.byteSum_append, Bytes.byteSum_cons, Bytes.byteSum_nil,
    Wire.messageChecksum]
  simp only [UInt8.reduceToNat]
  omega

/-! ## Steps that keep a session active -/

namespace Session

theorem stop_inactive (s : Session) : s.stop.active = false := by
  simp only [stop]
  split
  · rfl
  · exact Bool.not_eq_true _ ▸ ‹¬ s.active = true›

/-- A session that is active after a read was active before it. -/
theorem readDepth_active {depth n : Nat} {callback : Continuation} {s : Session}
    (h : (s.readDepth depth n callback).active = true) : s.active = true := by
  induction depth generalizing s n callback with
  | zero =>
    rw [readDepth.eq_def] at h
    dsimp only at h
    split at h <;> exact h
  | succ depth ih =>
    rw [readDepth.eq_def] at h
    dsimp only at h
    split at h
    · exact h
    · rw [readFailed] at h
      split at h
      · exact (ih h : _)
      · rw [stop_inactive] at h
        cases h

theorem resume_active {handlers : Handlers} {stream : SimpleCdr} {callback : Continuation}
    {s s' : Session} (hresume : s.resume handlers stream callback = some s')
    (h : s'.active = true) : s.active = true := by
  cases callback with
  | readSyncFirst =>
    obtain rfl := Option.some.inj hresume
    simp only [readSyncFirst] at h
    split at h <;> exact readDepth_active h
  | readSyncSecond =>
    obtain rfl := Option.some.inj hresume
    simp only [readSyncSecond] at h
    split at h <;> exact readDepth_active h
  | readIdLength =>
    obtain rfl := Option.some.inj hresume
    simp only [readIdLength] at h
    split at h <;> exact readDepth_active h
  | readBody topic_id =>
    by_contra hinactive
    simp only [resume, readBody, Bool.not_eq_true _ ▸ hinactive, Bool.not_false, if_true]
      at hresume
    rw [← Option.some.inj hresume] at h
    exact hinactive h

theorem completeRead_active {op : AsyncRead} {result : Except ErrorCode (List UInt8)} {s : Session}
    (h : (s.completeRead op result).active = true) : s.active = true := by
  simp only [completeRead, readFailed] at h
  split at h
  · exact h
  · split at h
    · have hbefore := readDepth_active h
      exact hbefore
    · rw [stop_inactive] at h
      cases h

/-- A session that is active after a step, other than a start, was active before
it. -/
theorem step_active {handlers : Handlers} {s s' : Session} {st : SessionStep} (hst : st ≠ .start)
    (hstep : s.step handlers st = some s') (h : s'.active = true) : s.active = true := by
  simp only [step] at hstep
  split at hstep
  · cases hstep
  · cases st with
    | start => exact absurd rfl hst
    | arrive bytes =>
      dsimp only at hstep
      split at hstep
      · cases hstep
      · split at hstep
        · obtain rfl := Option.some.inj hstep
          exact completeRead_active h
        · cases hstep
    | fail error =>
      dsimp only at hstep
      split at hstep
      · cases hstep
      · obtain rfl := Option.some.inj hstep
        exact completeRead_active h
    | run =>
      dsimp only at hstep
      split at hstep
      · cases hstep
      · have hbefore := resume_active hstep h
        exact hbefore
    | write message topic_id =>
      obtain rfl := Option.some.inj hstep
      exact h
    | stop =>
      obtain rfl := Option.some.inj hstep
      rw [stop_inactive] at h
      cases h
    | interrupt =>
      obtain rfl := Option.some.inj hstep
      exact h

/-! ## One callback -/

section Callback

variable {s : Session} {unread stream : List UInt8}

theorem read_accepted {n : Nat} {callback : Continuation} {buffer : AsyncReadBuffer Continuation}
    (h : s.async_read_buffer.read n (some callback) = (buffer, none)) :
    s.read n callback = { s with async_read_buffer := buffer } := by
  rw [read, readDepth.eq_def]
  dsimp only
  rw [h]

/-- The session looks up these frames when this stream arrives. -/
structure Receives (s : Session) (frames : List (Nat × List UInt8)) (stream : List UInt8) : Prop where
  capacity : s.async_read_buffer.mem.length = buffer_max
  next : ∃ callback n rest, s.async_read_buffer.Wants callback n rest ∧
    Position callback n frames (rest ++ stream)

/-- The read of the next position is accepted. -/
theorem read_receives (hidle : s.async_read_buffer.Idle unread)
    (hcapacity : s.async_read_buffer.mem.length = buffer_max) {n : Nat} (hn : n ≤ buffer_max)
    {callback : Continuation} {frames : List (Nat × List UInt8)}
    (hposition : Position callback n frames (unread ++ stream)) :
    (s.read n callback).Receives frames stream ∧ (s.read n callback).lookups = s.lookups := by
  obtain ⟨buffer, hread, hwants, hmem⟩ := hidle.read callback (hcapacity ▸ hn)
  rw [read_accepted hread]
  exact ⟨⟨hmem.trans hcapacity, callback, n, unread, hwants, hposition⟩, rfl⟩

/-- A header with a good checksum starts the read of a body. -/
theorem readIdLength_header {topic length : Nat} (hlength : length < 65536)
    (htopic : topic < 65536) :
    s.readIdLength { buffer := (Wire.header topic length).drop 2, offset := 0 } =
      s.read (length + 1) (.readBody topic) := by
  have hgood : ¬ (Wire.lengthChecksum length).toNat + (checksum16 length).toNat ≠ 0xff :=
    not_not_intro lengthChecksum_good
  simp only [readIdLength, SimpleCdr.getUint16, SimpleCdr.getUint8, Wire.header,
    List.drop_succ_cons, List.drop_zero, List.getD_cons_zero, List.getD_cons_succ,
    Wire.lo_add_hi hlength, Wire.lo_add_hi htopic, if_neg hgood]

theorem stop_keeps (s : Session) :
    s.stop.async_read_buffer = s.async_read_buffer ∧ s.stop.lookups = s.lookups := by
  rw [stop]
  split <;> exact ⟨rfl, rfl⟩

theorem attemptSync_keeps (s : Session) :
    s.attemptSync.async_read_buffer = s.async_read_buffer ∧
      s.attemptSync.lookups = s.lookups := by
  rw [attemptSync, setSyncTimeout]
  split
  · exact ⟨rfl, rfl⟩
  · exact stop_keeps (writeMessage [] TopicInfo.ID_PUBLISHER s)

theorem countUnrecognised_keeps (s : Session) :
    s.countUnrecognised.async_read_buffer = s.async_read_buffer ∧
      s.countUnrecognised.lookups = s.lookups := by
  rw [countUnrecognised]
  dsimp only
  split
  · split
    · exact attemptSync_keeps { s with unrecognised_topics := s.unrecognised_topics + 1 }
    · exact ⟨rfl, rfl⟩
  · exact ⟨rfl, rfl⟩

theorem lookup_keeps (handlers : Handlers) (topic : Nat) (payload : List UInt8) (s : Session) :
    (s.lookup handlers topic payload).async_read_buffer = s.async_read_buffer ∧
      (s.lookup handlers topic payload).lookups = s.lookups ++ [(topic, payload)] := by
  rw [lookup]
  dsimp only
  split
  · exact handlers.keeps topic payload _
  · exact countUnrecognised_keeps _

/-- A body with a good checksum is looked up, without the checksum. -/
theorem readBody_body (handlers : Handlers) (hactive : s.active = true) (topic : Nat)
    {payload : List UInt8} (hlength : payload.length + 1 ≤ buffer_max) :
    s.readBody handlers { buffer := Wire.body topic payload, offset := 0 } topic =
      some (s.lookup handlers topic payload).readSyncHeader := by
  obtain ⟨sum, hsum, hgood⟩ := body_checksum topic hlength
  have hpayload : (Wire.body topic payload).take ((Wire.body topic payload).length - 1) = payload := by
    simp [Wire.body]
  simp only [readBody, hactive, Bool.not_true, Bool.false_eq_true, if_false, Option.bind_eq_bind,
    hsum, Option.bind_some, hgood, ne_eq, not_true_eq_false, hpayload]

/-- The session has looked up the first of the frames, and receives the rest. -/
def Proceeds (s s' : Session) (frames : List (Nat × List UInt8)) (stream : List UInt8) : Prop :=
  ∃ looked left, frames = looked ++ left ∧ s'.lookups = s.lookups ++ looked ∧
    s'.Receives left stream

/-- A callback that gets its bytes brings the session to the next position. -/
theorem resume_proceeds {handlers : Handlers} (hactive : s.active = true)
    (hidle : s.async_read_buffer.Idle unread)
    (hcapacity : s.async_read_buffer.mem.length = buffer_max) {callback : Continuation}
    {bytes : List UInt8} {frames : List (Nat × List UInt8)} (hfits : ∀ frame ∈ frames, Fits frame)
    (hposition : Position callback bytes.length frames (bytes ++ (unread ++ stream)))
    {s' : Session}
    (hresume : s.resume handlers { buffer := bytes, offset := 0 } callback = some s') :
    s.Proceeds s' frames stream := by
  have hmax : buffer_max = 8191 := rfl
  generalize hn : bytes.length = n at hposition
  generalize hall : bytes ++ (unread ++ stream) = all at hposition
  cases hposition with
  | first =>
    cases frames with
    | nil =>
      have hnil := congrArg List.length hall
      simp only [Wire.encodeAll_nil, List.length_append, List.length_nil, hn] at hnil
      omega
    | cons frame frames =>
      obtain ⟨topic, payload⟩ := frame
      rw [Wire.encodeAll_cons_eq] at hall
      obtain ⟨rfl, hrest⟩ := List.append_inj hall hn
      obtain rfl := Option.some.inj hresume
      obtain ⟨hreceives, hlookups⟩ := read_receives hidle hcapacity (n := 1) (by omega)
        (hrest ▸ Position.second topic payload frames)
      exact ⟨[], _, rfl, by rw [List.append_nil]; exact hlookups, hreceives⟩
  | second topic payload frames =>
    obtain ⟨rfl, hrest⟩ := List.append_inj hall hn
    obtain rfl := Option.some.inj hresume
    obtain ⟨hreceives, hlookups⟩ := read_receives hidle hcapacity (n := 5) (by omega)
      (hrest ▸ Position.idLength topic payload frames)
    exact ⟨[], _, rfl, by rw [List.append_nil]; exact hlookups, hreceives⟩
  | idLength topic payload frames =>
    obtain ⟨htopic, hlength⟩ := hfits (topic, payload) List.mem_cons_self
    obtain ⟨rfl, hrest⟩ := List.append_inj hall hn
    rw [resume, readIdLength_header (by dsimp only at hlength; omega) htopic] at hresume
    obtain rfl := Option.some.inj hresume
    obtain ⟨hreceives, hlookups⟩ := read_receives hidle hcapacity hlength
      (hrest ▸ Position.body topic payload frames)
    exact ⟨[], _, rfl, by rw [List.append_nil]; exact hlookups, hreceives⟩
  | body topic payload frames =>
    obtain ⟨-, hlength⟩ := hfits (topic, payload) List.mem_cons_self
    obtain ⟨rfl, hrest⟩ := List.append_inj hall (by rw [hn]; simp [Wire.body])
    rw [resume, readBody_body handlers hactive topic hlength] at hresume
    obtain rfl := Option.some.inj hresume
    obtain ⟨hbuffer, hlooked⟩ := lookup_keeps handlers topic payload s
    obtain ⟨hreceives, hlookups⟩ := read_receives (hbuffer ▸ hidle) (hbuffer ▸ hcapacity)
      (n := 1) (by omega) (hrest ▸ Position.first frames)
    exact ⟨[(topic, payload)], frames, rfl, hlookups.trans hlooked, hreceives⟩

end Callback

/-! ## Steps and runs -/

section Steps

variable {handlers : Handlers} {s s' : Session} {frames : List (Nat × List UInt8)}
  {stream later : List UInt8}

theorem Receives.congr (h : s.Receives frames stream)
    (hbuffer : s'.async_read_buffer = s.async_read_buffer) : s'.Receives frames stream :=
  ⟨hbuffer ▸ h.capacity, hbuffer ▸ h.next⟩

theorem Receives.stay (h : s'.Receives frames stream) (hlookups : s'.lookups = s.lookups) :
    s.Proceeds s' frames stream :=
  ⟨[], frames, rfl, by rw [List.append_nil, hlookups], h⟩

/-- Asio completes a read with the first bytes of the stream. -/
theorem Receives.arrive {bytes : List UInt8} (h : s.Receives frames (bytes ++ later))
    {op : AsyncRead} (hop : op ∈ s.async_read_buffer.pending)
    (hlo : op.transferAtLeast ≤ bytes.length) (hhi : bytes.length ≤ op.headroom) :
    s.Proceeds (s.completeRead op (.ok bytes)) frames later := by
  obtain ⟨callback, n, rest, hwants, hposition⟩ := h.next
  obtain ⟨buffer, hcomplete, hwants', hmem⟩ := hwants.complete hop hlo hhi
  rw [← List.append_assoc] at hposition
  simp only [completeRead, hcomplete]
  exact Receives.stay ⟨hmem.trans h.capacity, callback, n, rest ++ bytes, hwants', hposition⟩ rfl

/-- The next callback runs. -/
theorem Receives.run (h : s.Receives frames stream) (hfits : ∀ frame ∈ frames, Fits frame)
    (hactive : s.active = true) {callback : Continuation} {bytes : List UInt8}
    {buffer : AsyncReadBuffer Continuation}
    (hnext : s.async_read_buffer.next = some (callback, bytes, buffer))
    (hresume : resume handlers { buffer := bytes, offset := 0 }
      { s with async_read_buffer := buffer } callback = some s') :
    s.Proceeds s' frames stream := by
  obtain ⟨callback', n, rest, hwants, hposition⟩ := h.next
  have hn : n < 2 ^ 32 := Nat.lt_of_le_of_lt (hposition.le_max hfits) (by decide)
  obtain ⟨rfl, rfl, hmem, unread, rfl, hidle⟩ := hwants.next hn hnext
  rw [List.append_assoc] at hposition
  exact resume_proceeds (s := { s with async_read_buffer := buffer }) hactive hidle
    (hmem.trans h.capacity) hfits hposition hresume

end Steps

end Session

/-- Reads do not fail, and the session is not started again. -/
def SessionStep.Undisturbed : SessionStep → Prop
  | .fail _ | .start => False
  | _ => True

namespace Session

section Runs

variable {handlers : Handlers} {s s' : Session} {frames : List (Nat × List UInt8)}
  {later : List UInt8}

/-- A step of a session that stays active. -/
theorem Receives.step {st : SessionStep} (h : s.Receives frames (st.arrived ++ later))
    (hfits : ∀ frame ∈ frames, Fits frame) (hst : st.Undisturbed)
    (hstep : s.step handlers st = some s') (hactive : s'.active = true) :
    s.Proceeds s' frames later := by
  have hbefore := step_active (by rintro rfl; exact hst) hstep hactive
  simp only [Session.step] at hstep
  split at hstep
  · cases hstep
  · cases st with
    | start => exact hst.elim
    | fail error => exact hst.elim
    | arrive bytes =>
      dsimp only at hstep
      split at hstep
      · cases hstep
      · rename_i op ops hpending
        split at hstep
        · rename_i hcount
          obtain rfl := Option.some.inj hstep
          exact h.arrive (hpending ▸ List.mem_cons_self) hcount.1 hcount.2
        · cases hstep
    | run =>
      dsimp only at hstep
      split at hstep
      · cases hstep
      · exact h.run hfits hbefore ‹_› hstep
    | write message topic_id =>
      obtain rfl := Option.some.inj hstep
      have hkept : (s.writeMessage message topic_id).Receives frames later := h.congr rfl
      exact hkept.stay rfl
    | stop =>
      obtain rfl := Option.some.inj hstep
      exact (h.congr (stop_keeps s).1).stay (stop_keeps s).2
    | interrupt =>
      obtain rfl := Option.some.inj hstep
      have hkept : Receives { s with ok := false } frames later := h.congr rfl
      exact hkept.stay rfl

theorem exec_cons {st : SessionStep} {steps : List SessionStep}
    (h : s.exec handlers (st :: steps) = some s') :
    ∃ m, s.step handlers st = some m ∧ m.exec handlers steps = some s' := by
  rw [exec, List.foldlM_cons] at h
  exact Option.bind_eq_some_iff.mp h

theorem exec_active {steps : List SessionStep} (hsteps : ∀ st ∈ steps, st.Undisturbed)
    (hexec : s.exec handlers steps = some s') (hactive : s'.active = true) : s.active = true := by
  induction steps generalizing s with
  | nil =>
    obtain rfl : s = s' := Option.some.inj hexec
    exact hactive
  | cons st steps ih =>
    obtain ⟨m, hstep, hexec⟩ := exec_cons hexec
    have hst := hsteps st List.mem_cons_self
    exact step_active (by rintro rfl; exact hst) hstep
      (ih (fun st hst => hsteps st (List.mem_cons_of_mem _ hst)) hexec)

/-- A run of a session that stays active. -/
theorem Receives.exec {steps : List SessionStep}
    (h : s.Receives frames (steps.flatMap SessionStep.arrived ++ later))
    (hfits : ∀ frame ∈ frames, Fits frame) (hsteps : ∀ st ∈ steps, st.Undisturbed)
    (hexec : s.exec handlers steps = some s') (hactive : s'.active = true) :
    s.Proceeds s' frames later := by
  induction steps generalizing s frames with
  | nil =>
    obtain rfl : s = s' := Option.some.inj hexec
    exact Receives.stay h rfl
  | cons st steps ih =>
    obtain ⟨m, hstep, hexec⟩ := exec_cons hexec
    have hrest : ∀ st ∈ steps, st.Undisturbed := fun st hst =>
      hsteps st (List.mem_cons_of_mem _ hst)
    rw [List.flatMap_cons, List.append_assoc] at h
    obtain ⟨looked, left, rfl, hlooked, hm⟩ := h.step hfits (hsteps st List.mem_cons_self) hstep
      (exec_active hrest hexec hactive)
    obtain ⟨looked', left', rfl, hlooked', hs'⟩ := ih hm
      (fun frame hframe => hfits frame (List.mem_append_right _ hframe)) hrest hexec
    exact ⟨looked ++ looked', left', (List.append_assoc ..).symm,
      by rw [hlooked', hlooked, List.append_assoc], hs'⟩

/-- The session waits for a frame: the next bytes that `read_sync_first` and the
callbacks after it get are the unread ones, and those that arrive. -/
structure AtBoundary (s : Session) (unread : List UInt8) : Prop where
  capacity : s.async_read_buffer.mem.length = buffer_max
  waits : s.async_read_buffer.Wants .readSyncFirst 1 unread

/-- A session that was started waits for the first frame. -/
theorem start_atBoundary {threshold : Int} {ok : Bool} (h : Session.new threshold ok = some s) :
    s.start.AtBoundary [] := by
  obtain ⟨buffer, hnew, rfl⟩ := Option.map_eq_some_iff.mp h
  obtain ⟨hidle, hcapacity⟩ := AsyncReadBuffer.new_idle hnew
  simp only [start]
  generalize hs : attemptSync _ = s
  have hbuffer : s.async_read_buffer = buffer := by
    rw [← hs]
    exact (attemptSync_keeps _).1
  subst hbuffer
  obtain ⟨buffer, hread, hwants, hmem⟩ :=
    hidle.read (n := 1) .readSyncFirst (by rw [hcapacity]; decide)
  rw [readSyncHeader, read_accepted hread]
  exact ⟨hmem.trans hcapacity, hwants⟩

/-- A session that stays active looks up the frames that arrive, in order, and
has looked up all of them when all bytes have arrived and no callback is left to
run.  Until then it reads on. -/
theorem exec_lookups {unread : List UInt8} {steps : List SessionStep} (h : s.AtBoundary unread)
    (hstream : unread ++ steps.flatMap SessionStep.arrived ++ later = Wire.encodeAll frames)
    (hfits : ∀ frame ∈ frames, Fits frame) (hsteps : ∀ st ∈ steps, st.Undisturbed)
    (hexec : s.exec handlers steps = some s') (hactive : s'.active = true) :
    ∃ looked left, frames = looked ++ left ∧ s'.lookups = s.lookups ++ looked ∧
      (s'.async_read_buffer.next = none →
        s'.async_read_buffer.pending ≠ [] ∧ (later = [] → left = [])) := by
  have hreceives : s.Receives frames (steps.flatMap SessionStep.arrived ++ later) :=
    ⟨h.capacity, _, _, unread, h.waits, by
      rw [← List.append_assoc, hstream]
      exact .first frames⟩
  obtain ⟨looked, left, hframes, hlookups, hleft⟩ :=
    hreceives.exec hfits hsteps hexec hactive
  refine ⟨looked, left, hframes, hlookups, fun hnone => ?_⟩
  obtain ⟨callback, n, rest, hwants, hposition⟩ := hleft.next
  rcases hwants.progress with ⟨hpending, -, hshort⟩ | hsome
  · refine ⟨hpending, fun hlater => ?_⟩
    by_contra hmore
    have henough := hposition.enough hmore
    rw [hlater, List.append_nil] at henough
    omega
  · rw [hnone] at hsome
    cases hsome

end Runs

end Session

end Ros2Serial.Host
