import Ros2Serial.Host.Frames
import Ros2Serial.Link.Relay

/-!
# The reads behind a frame

A `Bridge` hands whole frames to its session.  In the code a frame gets there through four
read handlers, each of which issues the next read, and its bytes arrive in any pieces.

* The handlers of messages leave the read buffer alone, and read nothing from it
  (`lookup_withBuffer`).
* `Reads` says that a `TableSession` is where a `Bridge` is.  It has the tables of the
  session there, and its chain of reads stands at the start of the next frame, or in it.
* When bytes arrive it stays there (`Reads.arrive`).  When the next callback runs, it stays
  there or receives the frame (`Reads.run`), and this is what `Bridge.receive` does.

So a session that listens receives the frames of a stream one after the other
(`reads_received`).
-/

namespace Ros2Serial.Host.TableSession

/-! ## Another buffer -/

/-- The session, with another buffer. -/
def withBuffer (buffer : AsyncReadBuffer Continuation) (t : TableSession) : TableSession :=
  { t with async_read_buffer := buffer }

section WithBuffer

variable (buffer : AsyncReadBuffer Continuation) (t : TableSession)

theorem stop_withBuffer : (t.withBuffer buffer).stop = t.stop.withBuffer buffer := by
  rw [stop, stop, apply_ite (withBuffer buffer)]
  rfl

theorem shutdown_withBuffer : (t.withBuffer buffer).shutdown = t.shutdown.withBuffer buffer := by
  rw [shutdown, stop_withBuffer]
  rfl

theorem setSyncTimeout_withBuffer :
    (t.withBuffer buffer).setSyncTimeout = t.setSyncTimeout.withBuffer buffer := by
  rw [setSyncTimeout, setSyncTimeout, shutdown_withBuffer, apply_ite (withBuffer buffer)]
  rfl

theorem setSyncTimeout_buffer : t.setSyncTimeout.async_read_buffer = t.async_read_buffer := by
  have hsame : t.setSyncTimeout = t.setSyncTimeout.withBuffer t.async_read_buffer :=
    setSyncTimeout_withBuffer t.async_read_buffer t
  rw [hsame]
  rfl

theorem attemptSync_withBuffer :
    (t.withBuffer buffer).attemptSync = t.attemptSync.withBuffer buffer :=
  setSyncTimeout_withBuffer buffer { t with registry := t.registry.requestTopics }

theorem setup_withBuffer {handler : TopicInfo → TableSession → TableSession}
    (h : ∀ topic_info, handler topic_info (t.withBuffer buffer) =
      (handler topic_info t).withBuffer buffer) (topic_info : Option TopicInfo) :
    (t.withBuffer buffer).setup topic_info handler =
      (t.setup topic_info handler).withBuffer buffer := by
  cases topic_info with
  | none => rfl
  | some topic_info => exact h topic_info

theorem setupPublisher_withBuffer (created : Bool) (topic_info : TopicInfo) :
    (t.withBuffer buffer).setupPublisher created topic_info =
      (t.setupPublisher created topic_info).withBuffer buffer := by
  cases created with
  | true =>
    exact setSyncTimeout_withBuffer buffer
      { t with
        registry := t.registry.setupPublisher true topic_info
        publishers := t.publishers.insert topic_info.topic_id (Publisher.new topic_info)
        topics_names := t.topics_names.insert topic_info.topic_id topic_info.topic_name }
  | false => rfl

theorem setupSubscriber_withBuffer (created : Bool) (topic_info : TopicInfo) :
    (t.withBuffer buffer).setupSubscriber created topic_info =
      (t.setupSubscriber created topic_info).withBuffer buffer :=
  setSyncTimeout_withBuffer buffer
    { t with registry := t.registry.setupSubscriber created topic_info }

theorem setupServicePublisher_withBuffer (kind : ServiceKind) (created : Bool)
    (topic_info : TopicInfo) :
    (t.withBuffer buffer).setupServicePublisher kind created topic_info =
      (t.setupServicePublisher kind created topic_info).withBuffer buffer := by
  have hcreate : (t.withBuffer buffer).createService kind created topic_info =
      ((t.createService kind created topic_info).1.withBuffer buffer,
        (t.createService kind created topic_info).2) := rfl
  simp only [setupServicePublisher, hcreate, setSyncTimeout_withBuffer,
    apply_ite (withBuffer buffer)]

theorem setupServiceSubscriber_withBuffer (kind : ServiceKind) (created : Bool)
    (topic_info : TopicInfo) :
    (t.withBuffer buffer).setupServiceSubscriber kind created topic_info =
      (t.setupServiceSubscriber kind created topic_info).withBuffer buffer := by
  have hcreate : (t.withBuffer buffer).createService kind created topic_info =
      ((t.createService kind created topic_info).1.withBuffer buffer,
        (t.createService kind created topic_info).2) := rfl
  rw [setupServiceSubscriber, setupServiceSubscriber, hcreate]
  dsimp only
  rw [apply_ite (withBuffer buffer), ← setSyncTimeout_withBuffer]
  rfl

theorem handleTime_withBuffer (time : List UInt8) :
    (t.withBuffer buffer).handleTime time = (t.handleTime time).withBuffer buffer := by
  have hsync := setSyncTimeout_withBuffer buffer { t with registry := t.registry.handleTime time }
  unfold handleTime
  dsimp only
  rw [apply_ite (withBuffer buffer), ← hsync]
  rfl

theorem countUnrecognised_withBuffer :
    (t.withBuffer buffer).countUnrecognised = t.countUnrecognised.withBuffer buffer := by
  let counted := { t with unrecognised_topics := t.unrecognised_topics + 1 }
  have hsync : { (counted.withBuffer buffer).attemptSync with unrecognised_topics := 0 } =
      withBuffer buffer { counted.attemptSync with unrecognised_topics := 0 } := by
    rw [attemptSync_withBuffer]
    rfl
  unfold countUnrecognised
  dsimp only
  rw [apply_ite (withBuffer buffer), apply_ite (withBuffer buffer), ← hsync]
  rfl

theorem unrecognised_withBuffer (enabled : Bool) (topic_id : Nat) :
    (t.withBuffer buffer).unrecognised enabled topic_id =
      (t.unrecognised enabled topic_id).withBuffer buffer := by
  have hwarn : (t.withBuffer buffer).warnTopicName enabled (UInt16.ofNat topic_id) =
      (t.warnTopicName enabled (UInt16.ofNat topic_id)).withBuffer buffer := by
    rw [warnTopicName, warnTopicName, apply_ite (withBuffer buffer)]
    rfl
  rw [unrecognised, unrecognised, hwarn, ← countUnrecognised_withBuffer,
    apply_ite (withBuffer buffer)]
  rfl

variable (deserialize : List UInt8 → Option TopicInfo)

theorem call_withBuffer (handler : Handler) (stream : List UInt8) (outside : Outside) :
    (t.withBuffer buffer).call deserialize handler stream outside =
      (t.call deserialize handler stream outside).withBuffer buffer := by
  cases handler with
  | setupPublisher => exact setup_withBuffer buffer t (setupPublisher_withBuffer buffer t _) _
  | setupSubscriber => exact setup_withBuffer buffer t (setupSubscriber_withBuffer buffer t _) _
  | handleLog => rfl
  | handleTime => exact handleTime_withBuffer buffer t _
  | setupServiceClientPublisher =>
    exact setup_withBuffer buffer t (setupServicePublisher_withBuffer buffer t _ _) _
  | setupServiceClientSubscriber =>
    exact setup_withBuffer buffer t (setupServiceSubscriber_withBuffer buffer t _ _) _
  | setupServiceServerPublisher =>
    exact setup_withBuffer buffer t (setupServicePublisher_withBuffer buffer t _ _) _
  | setupServiceServerSubscriber =>
    exact setup_withBuffer buffer t (setupServiceSubscriber_withBuffer buffer t _ _) _
  | publisher => rfl
  | serviceClient srv => rfl
  | serviceServer srv => rfl

/-- What a message does to the tables does not depend on the buffer, and leaves it as it is. -/
theorem lookup_withBuffer (enabled : Bool) (outside : Outside) (topic_id : Nat)
    (payload : List UInt8) :
    (t.withBuffer buffer).lookup deserialize enabled outside topic_id payload =
      (t.lookup deserialize enabled outside topic_id payload).withBuffer buffer := by
  have hcallbacks : (t.withBuffer buffer).registry = t.registry := rfl
  rw [lookup, lookup, hcallbacks]
  cases t.registry.callbacks.lookup (UInt16.ofNat topic_id) with
  | none => exact unrecognised_withBuffer buffer t enabled topic_id
  | some handler => exact call_withBuffer buffer t deserialize handler payload outside

end WithBuffer

/-! ## One callback -/

section Callback

variable {deserialize : List UInt8 → Option TopicInfo} {t : TableSession}
  {unread : List UInt8} {n : Nat}

/-- A read that the buffer accepts. -/
theorem read_accepted (hidle : t.async_read_buffer.Idle unread)
    (hn : n ≤ t.async_read_buffer.mem.length) (callback : Continuation) :
    ∃ buffer, t.read n callback = t.withBuffer buffer ∧ buffer.Wants callback n unread ∧
      buffer.mem.length = t.async_read_buffer.mem.length := by
  obtain ⟨buffer, hread, hwants, hmem⟩ := hidle.read callback hn
  refine ⟨buffer, ?_, hwants, hmem⟩
  rw [read, readDepth, hread]
  rfl

/-- A read that it refuses for its size.  The read of a new frame is refused as well. -/
theorem read_refused (hidle : t.async_read_buffer.Idle unread)
    (hn : t.async_read_buffer.mem.length < n) (callback : Continuation) :
    ∃ buffer, t.read n callback = t.stop.withBuffer buffer := by
  have hread : t.async_read_buffer.read n (some callback) =
      ({ t.async_read_buffer with
          count := 0, read_success_callback := some callback, read_requested_bytes := n },
        some .no_buffer_space) := by
    simp only [AsyncReadBuffer.read, hidle.requested, ne_eq, not_true_eq_false, if_false,
      Option.isNone_some, Bool.false_eq_true, gt_iff_lt, if_pos hn]
  have hagain : AsyncReadBuffer.read 1 (some Continuation.readSyncFirst)
      { t.async_read_buffer with
        count := 0, read_success_callback := some callback, read_requested_bytes := n } =
      ({ t.async_read_buffer with
          count := 1, read_success_callback := some callback, read_requested_bytes := n },
        some .operation_not_permitted) := by
    simp only [AsyncReadBuffer.read, if_pos (show n ≠ 0 by omega)]
    rfl
  refine ⟨{ t.async_read_buffer with
    count := 1, read_success_callback := some callback, read_requested_bytes := n }, ?_⟩
  rw [read, readDepth, hread]
  dsimp only
  rw [readFailed, if_pos rfl, readDepth]
  dsimp only
  rw [hagain]
  exact stop_withBuffer _ t

/-- A header with a good checksum starts the read of a body. -/
theorem readIdLength_header {topic length : Nat} (hlength : length < 65536)
    (htopic : topic < 65536) :
    t.readIdLength { buffer := (Wire.header topic length).drop 2, offset := 0 } =
      t.read (length + 1) (.readBody topic) := by
  simp only [readIdLength, SimpleCdr.getUint16, SimpleCdr.getUint8, Wire.header,
    List.drop_succ_cons, List.drop_zero, List.getD_cons_zero, List.getD_cons_succ,
    Wire.lo_add_hi hlength, Wire.lo_add_hi htopic, lengthChecksum_good, ne_eq,
    not_true_eq_false, if_false]

/-- A body with a good checksum is looked up, and a new frame is read, if the thread goes on. -/
theorem readBody_body (hactive : t.registry.active = true) (enabled : Bool) (outside : Outside)
    (topic : Nat) {payload : List UInt8} (hlength : payload.length + 1 ≤ buffer_max) :
    t.readBody deserialize enabled outside { buffer := Wire.body topic payload, offset := 0 }
        topic =
      if (t.lookup deserialize enabled outside topic payload).registry.runs .io then
        (t.lookup deserialize enabled outside topic payload).readSyncHeader
      else t.lookup deserialize enabled outside topic payload := by
  obtain ⟨sum, hsum, hgood⟩ := body_checksum topic hlength
  have hpayload : (Wire.body topic payload).take ((Wire.body topic payload).length - 1) =
      payload := by
    simp [Wire.body]
  simp only [readBody, hactive, Bool.not_true, Bool.false_eq_true, if_false, hsum, hgood, ne_eq,
    not_true_eq_false, hpayload]

end Callback

end Ros2Serial.Host.TableSession

namespace Ros2Serial.Link

open Device Host Runs

namespace Bridge

/-! ## Where the session is -/

section Reads

variable {deserialize : List UInt8 → Option Host.TopicInfo} {b : Bridge}
  {frames : List (Nat × List UInt8)} {stream later : List UInt8} {t : TableSession}

/-- The session is where the bridge is: it has the same tables, and receives these frames when
this stream arrives. -/
structure Reads (b : Bridge) (frames : List (Nat × List UInt8)) (stream : List UInt8)
    (t : TableSession) : Prop where
  same : t = b.session.withBuffer t.async_read_buffer
  capacity : t.async_read_buffer.mem.length = buffer_max
  next : ∃ callback n rest, t.async_read_buffer.Wants callback n rest ∧ n ≤ buffer_max ∧
    Position callback n frames (rest ++ stream)

/-- The fields of the header can hold the topic and the length. -/
def HasHeader (frame : Nat × List UInt8) : Prop := frame.1 < 65536 ∧ frame.2.length < 65536

/-- The frames that were received, each with what is outside of the host then. -/
inductive Received (deserialize : List UInt8 → Option Host.TopicInfo) :
    Bridge → List (Nat × List UInt8) → Bridge → Prop
  | nil (b : Bridge) : Received deserialize b [] b
  | cons (enabled : Bool) (outside : Outside) (frame : Nat × List UInt8)
      {frames : List (Nat × List UInt8)} {b b' : Bridge}
      (h : Received deserialize (receive deserialize enabled outside frame.1 frame.2 b) frames b') :
      Received deserialize b (frame :: frames) b'

theorem stop_inactive (t : TableSession) : t.stop.registry.active = false := by
  have hregistry : t.registry.stop.active = false := by
    rw [Registry.stop]
    split
    · rfl
    · exact Bool.not_eq_true _ ▸ ‹¬ t.registry.active = true›
  rw [TableSession.stop]
  split
  · exact hregistry
  · exact Bool.not_eq_true _ ▸ ‹¬ t.registry.active = true›

theorem listens_withBuffer (buffer : AsyncReadBuffer Continuation) (t : TableSession) :
    listens (t.withBuffer buffer) = listens t := rfl

theorem listens_goes (h : listens t = true) :
    (t.io_stopped || !t.registry.runs .io) = false := by
  simp only [listens, Bool.and_eq_true, Bool.not_eq_true'] at h
  rw [h.1.1, h.1.2]
  rfl

/-- A read that goes on with the chain. -/
theorem Reads.of_read (hsame : t = b.session.withBuffer t.async_read_buffer)
    (hcapacity : t.async_read_buffer.mem.length = buffer_max) {unread : List UInt8}
    (hidle : t.async_read_buffer.Idle unread) {callback : Continuation} {n : Nat}
    (hn : n ≤ buffer_max) (hposition : Position callback n frames (unread ++ stream)) :
    Reads b frames stream (t.read n callback) := by
  obtain ⟨buffer, hread, hwants, hmem⟩ :=
    TableSession.read_accepted hidle (hcapacity ▸ hn) callback
  rw [hread]
  refine ⟨?_, hmem.trans hcapacity, callback, n, unread, hwants, hn, hposition⟩
  rw [hsame]
  rfl

/-- A session that has just been started waits for the first frame. -/
theorem start_reads {types : List String} {timeout threshold : Int} {ok : Bool}
    (hnew : TableSession.new types timeout threshold ok = some t) (nh : NodeHandle)
    (frames : List (Nat × List UInt8)) :
    Reads (new nh t.start) frames (Wire.encodeAll frames) t.start := by
  obtain ⟨buffer, hbuffer, rfl⟩ := Option.map_eq_some_iff.mp hnew
  obtain ⟨hidle, hcapacity⟩ := AsyncReadBuffer.new_idle hbuffer
  rw [TableSession.start]
  generalize hready : TableSession.setSyncTimeout _ = ready
  have hkept : ready.async_read_buffer = buffer := by
    rw [← hready]
    exact TableSession.setSyncTimeout_buffer _
  subst hkept
  obtain ⟨buffer, hread, hwants, hmem⟩ :=
    TableSession.read_accepted (n := 1) hidle (by rw [hcapacity]; decide) .readSyncFirst
  rw [TableSession.readSyncHeader, hread]
  exact ⟨rfl, hmem.trans hcapacity, _, _, [], hwants, by decide, .first frames⟩

/-- Bytes arrive. -/
theorem Reads.arrive {bytes : List UInt8} (h : Reads b frames (bytes ++ later) t)
    (hlistens : listens t = true) {i : Nat} {op : AsyncRead}
    (hop : t.async_read_buffer.pending[i]? = some op)
    (hcount : op.transferAtLeast ≤ bytes.length ∧ bytes.length ≤ op.headroom) :
    Reads b frames later (t.step deserialize (.arrive i bytes)) := by
  obtain ⟨callback, n, rest, hwants, hn, hposition⟩ := h.next
  obtain ⟨buffer, hcomplete, hwants', hmem⟩ :=
    hwants.complete (List.mem_of_getElem? hop) hcount.1 hcount.2
  have hstep : t.step deserialize (.arrive i bytes) = t.withBuffer buffer := by
    have hthread : (TableSession.Step.arrive i bytes).thread = .io := rfl
    rw [TableSession.step, hthread, listens_goes hlistens]
    simp only [Bool.false_eq_true, if_false, hop, if_pos hcount, TableSession.completeRead,
      hcomplete]
    rfl
  rw [hstep]
  refine ⟨?_, hmem.trans h.capacity, callback, n, rest ++ bytes, hwants', hn, ?_⟩
  · rw [h.same]
    rfl
  · rw [List.append_assoc]
    exact hposition

/-- What the bridge is after the next frame, and the session with it. -/
def ReadsNext (deserialize : List UInt8 → Option Host.TopicInfo) (enabled : Bool)
    (outside : Outside) (b : Bridge) (frames : List (Nat × List UInt8)) (stream : List UInt8)
    (t' : TableSession) : Prop :=
  ∃ frame left, frames = frame :: left ∧
    t' = (receive deserialize enabled outside frame.1 frame.2 b).session.withBuffer
      t'.async_read_buffer ∧
    (listens t' = true →
      Reads (receive deserialize enabled outside frame.1 frame.2 b) left stream t')

/-- The next callback gets its bytes.  A header that asks for too much ends in a stop, and a body
is looked up: these are the frames that the bridge receives. -/
theorem Reads.resume (hsame : t = b.session.withBuffer t.async_read_buffer)
    (hcapacity : t.async_read_buffer.mem.length = buffer_max) (hlistens : listens t = true)
    {unread bytes : List UInt8} (hidle : t.async_read_buffer.Idle unread)
    (hsize : bytes.length ≤ buffer_max)
    (hframes : ∀ frame ∈ frames, HasHeader frame) {callback : Continuation}
    (hposition : Position callback bytes.length frames (bytes ++ (unread ++ stream)))
    (enabled : Bool) (outside : Outside) :
    Reads b frames stream
        (t.resume deserialize enabled outside { buffer := bytes, offset := 0 } callback) ∨
      ReadsNext deserialize enabled outside b frames stream
        (t.resume deserialize enabled outside { buffer := bytes, offset := 0 } callback) := by
  have hmax : buffer_max = 8191 := rfl
  have hsession : listens b.session = true := by
    rw [hsame] at hlistens
    exact hlistens
  generalize hn : bytes.length = n at hposition hsize
  generalize hall : bytes ++ (unread ++ stream) = all at hposition
  cases hposition with
  | first =>
    cases frames with
    | nil =>
      have hnil := congrArg List.length hall
      simp only [Wire.encodeAll_nil, List.length_append, List.length_nil, hn] at hnil
      omega
    | cons frame frames =>
      obtain ⟨topic, payload⟩ := frame
      rw [Wire.encodeAll_cons_eq] at hall
      obtain ⟨rfl, hrest⟩ := List.append_inj hall hn
      exact Or.inl (.of_read hsame hcapacity hidle (n := 1) (by omega)
        (hrest ▸ Position.second topic payload frames))
  | second topic payload frames =>
    obtain ⟨rfl, hrest⟩ := List.append_inj hall hn
    exact Or.inl (.of_read hsame hcapacity hidle (n := 5) (by omega)
      (hrest ▸ Position.idLength topic payload frames))
  | idLength topic payload frames =>
    obtain ⟨htopic, hlength⟩ := hframes (topic, payload) List.mem_cons_self
    obtain ⟨rfl, hrest⟩ := List.append_inj hall hn
    rw [TableSession.resume, TableSession.readIdLength_header hlength htopic]
    rcases Nat.lt_or_ge payload.length buffer_max with hshort | hlong
    · exact Or.inl (.of_read hsame hcapacity hidle hshort
        (hrest ▸ Position.body topic payload frames))
    · -- the read is refused, and the session stops
      obtain ⟨buffer, hread⟩ := TableSession.read_refused hidle
        (show t.async_read_buffer.mem.length < payload.length + 1 by omega) (.readBody topic)
      have hreceive : (receive deserialize enabled outside topic payload b).session =
          b.session.stop := by
        rw [receive, hsession, if_neg (Nat.not_lt.mpr hlong)]
        rfl
      have hstopped : (t.read (payload.length + 1) (.readBody topic)) =
          b.session.stop.withBuffer buffer := by
        rw [hread, hsame, TableSession.stop_withBuffer]
        rfl
      rw [hstopped]
      refine Or.inr ⟨(topic, payload), frames, rfl, by rw [hreceive]; rfl, fun hagain => ?_⟩
      rw [listens_withBuffer, listens, stop_inactive, Bool.and_false] at hagain
      cases hagain
  | body topic payload frames =>
    obtain ⟨rfl, hrest⟩ := List.append_inj hall (by rw [hn]; simp [Wire.body])
    have hlookup : t.lookup deserialize enabled outside topic payload =
        (b.session.lookup deserialize enabled outside topic payload).withBuffer
          t.async_read_buffer := by
      rw [← TableSession.lookup_withBuffer, ← hsame]
    have hreceive : (receive deserialize enabled outside topic payload b).session =
        b.session.lookup deserialize enabled outside topic payload := by
      simp only [receive, hsession, Bool.not_true, Bool.false_eq_true, if_false,
        if_pos (show payload.length < buffer_max from hsize)]
    have hactive : t.registry.active = true := (Bool.and_eq_true _ _ ▸ hlistens).2
    rw [TableSession.resume, TableSession.readBody_body hactive enabled outside topic hsize,
      hlookup, ← hreceive]
    refine Or.inr ⟨(topic, payload), frames, rfl, ?_⟩
    split
    · generalize hlooked : (receive deserialize enabled outside topic payload b).session.withBuffer
        t.async_read_buffer = looked
      have hnext : Reads (receive deserialize enabled outside topic payload b) frames stream
          (looked.read 1 .readSyncFirst) := by
        have hbuffer : looked.async_read_buffer = t.async_read_buffer := by
          rw [← hlooked]
          rfl
        refine .of_read ?_ (hbuffer ▸ hcapacity) (hbuffer ▸ hidle) (by omega) ?_
        · rw [hbuffer]
          exact hlooked.symm
        · rw [hrest]
          exact .first frames
      exact ⟨hnext.same, fun _ => hnext⟩
    · rename_i hdead
      refine ⟨rfl, fun hagain => absurd ?_ hdead⟩
      simp only [listens, Bool.and_eq_true] at hagain
      exact hagain.1.2

/-- The next callback runs, if there is one. -/
theorem Reads.run (h : Reads b frames stream t) (hlistens : listens t = true)
    (hframes : ∀ frame ∈ frames, HasHeader frame) (enabled : Bool) (outside : Outside) :
    Reads b frames stream (t.step deserialize (.run enabled outside)) ∨
      ReadsNext deserialize enabled outside b frames stream
        (t.step deserialize (.run enabled outside)) := by
  have hthread : (TableSession.Step.run enabled outside).thread = .io := rfl
  rw [TableSession.step, hthread, listens_goes hlistens]
  simp only [Bool.false_eq_true, if_false]
  split
  · exact Or.inl h
  · rename_i callback bytes buffer hnext
    obtain ⟨callback', n, rest, hwants, hn, hposition⟩ := h.next
    have hn32 : n < 2 ^ 32 := Nat.lt_of_le_of_lt hn (by decide)
    obtain ⟨rfl, rfl, hmem, unread, rfl, hidle⟩ := hwants.next hn32 hnext
    rw [List.append_assoc] at hposition
    refine Reads.resume (t := t.withBuffer buffer) ?_ (hmem.trans h.capacity) hlistens hidle hn
      hframes hposition enabled outside
    rw [h.same]
    rfl

/-! ## Runs -/

/-- The bytes that arrive in a step. -/
def arrived : TableSession.Step → List UInt8
  | .arrive _ bytes => bytes
  | _ => []

/-- The session listens, and bytes arrive for a read that is pending, or the next callback runs. -/
def Feeds (t : TableSession) (st : TableSession.Step) : Prop :=
  listens t = true ∧
    match st with
    | .arrive i bytes => ∃ op, t.async_read_buffer.pending[i]? = some op ∧
        op.transferAtLeast ≤ bytes.length ∧ bytes.length ≤ op.headroom
    | .run _ _ => True
    | _ => False

/-- However the frames arrive, the session receives them as the bridge does, one after the
other. -/
theorem Reads.exec {steps : List TableSession.Step}
    (h : Reads b frames (steps.flatMap arrived ++ later) t)
    (hframes : ∀ frame ∈ frames, HasHeader frame)
    (hfeeds : Throughout (TableSession.step deserialize) Feeds t steps) :
    ∃ received left b', frames = received ++ left ∧ Received deserialize b received b' ∧
      Runs.run (TableSession.step deserialize) t steps = b'.session.withBuffer
        (Runs.run (TableSession.step deserialize) t steps).async_read_buffer ∧
      (listens b'.session = true →
        Reads b' left later (Runs.run (TableSession.step deserialize) t steps)) := by
  induction steps generalizing b frames t with
  | nil => exact ⟨[], frames, b, rfl, .nil b, h.same, fun _ => h⟩
  | cons st steps ih =>
    obtain ⟨⟨hlistens, hfeed⟩, hmore⟩ := throughout_cons.mp hfeeds
    rw [run_cons]
    cases st with
    | arrive i bytes =>
      obtain ⟨op, hop, hcount⟩ := hfeed
      rw [List.flatMap_cons, List.append_assoc] at h
      exact ih (h.arrive hlistens hop hcount) hframes hmore
    | run enabled outside =>
      rcases h.run hlistens hframes enabled outside with hstays | ⟨frame, left, rfl, hsame, hreads⟩
      · exact ih hstays hframes hmore
      · cases steps with
        | nil =>
          refine ⟨[frame], left, _, rfl, .cons enabled outside frame (.nil _), hsame,
            fun hagain => hreads ?_⟩
          rw [hsame]
          exact hagain
        | cons st steps =>
          have hagain := (throughout_cons.mp hmore).1.1
          obtain ⟨received, left', b', rfl, hreceived, hend⟩ := ih (hreads hagain)
            (fun frame hframe => hframes frame (List.mem_cons_of_mem _ hframe)) hmore
          exact ⟨frame :: received, left', b', rfl, .cons enabled outside frame hreceived, hend⟩
    | fail i error => exact hfeed.elim
    | rosMessage topic_id message => exact hfeed.elim
    | rosRequest service_type request => exact hfeed.elim
    | stop => exact hfeed.elim
    | interrupt => exact hfeed.elim
    | start => exact hfeed.elim

/-- So a session that was started receives the frames of a stream in order, and has received all
of them when all their bytes have arrived and no callback is left to run. -/
theorem reads_received {types : List String} {timeout threshold : Int} {ok : Bool}
    (hnew : TableSession.new types timeout threshold ok = some t) (nh : NodeHandle)
    {steps : List TableSession.Step} (hframes : ∀ frame ∈ frames, HasHeader frame)
    (hstream : steps.flatMap arrived ++ later = Wire.encodeAll frames)
    (hfeeds : Throughout (TableSession.step deserialize) Feeds t.start steps) :
    ∃ received left b', frames = received ++ left ∧
      Received deserialize (new nh t.start) received b' ∧
      Runs.run (TableSession.step deserialize) t.start steps = b'.session.withBuffer
        (Runs.run (TableSession.step deserialize) t.start steps).async_read_buffer ∧
      (listens b'.session = true → later = [] →
        (Runs.run (TableSession.step deserialize) t.start steps).async_read_buffer.next = none →
          left = []) := by
  have hstart : Reads (new nh t.start) frames (steps.flatMap arrived ++ later) t.start :=
    hstream ▸ start_reads hnew nh frames
  obtain ⟨received, left, b', hsplit, hreceived, hsame, hreads⟩ := hstart.exec hframes hfeeds
  refine ⟨received, left, b', hsplit, hreceived, hsame, fun hlistens hlater hnone => ?_⟩
  obtain ⟨callback, n, rest, hwants, -, hposition⟩ := (hreads hlistens).next
  rcases hwants.progress with ⟨-, -, hshort⟩ | hsome
  · by_contra hleft
    have henough := hposition.enough hleft
    rw [hlater, List.append_nil] at henough
    omega
  · rw [hnone] at hsome
    cases hsome

end Reads

end Bridge

end Ros2Serial.Link
