import Ros2Serial.Host.Tables

/-!
# Rejected frames

A frame is rejected for the checksum of its length, for the checksum of its message, or
because it is a setup frame without an endpoint: its `TopicInfo` cannot be deserialized,
or a constructor throws.  `read_id_length` and `read_body` then go on with
`read_sync_header`.

`Untouched` says that the six tables are as before, and that the next header is requested.
Three things are in the way.  The warning about a bad checksum enters an empty name in
`topics_names_` for an id that is not there.  `setup_subscriber` calls `set_sync_timeout`
also where its constructor has thrown, and that stops the session when ROS has shut down.
And a read is refused while another one is outstanding, which stops the session as well.
A run spares its tables if and only if it keeps clear of them (`untouched_iff`).
-/

namespace Ros2Serial.Host

open Runs

/-! ## The next header -/

namespace AsyncReadBuffer

/-- One more byte is requested, for `read_sync_first`: Asio has a new read for it, or the
buffer has the byte, and the callback is posted. -/
def RequestsHeader (b b' : AsyncReadBuffer Continuation) : Prop :=
  (∃ op, b'.pending = b.pending ++ [op] ∧ b'.read_success_callback = some .readSyncFirst ∧
      b'.read_requested_bytes = 1) ∨
    ∃ start, b'.posted = b.posted ++ [{ callback := .readSyncFirst, start := start, size := 1 }]

theorem not_requestsHeader {b b' : AsyncReadBuffer Continuation} (hpending : b'.pending = b.pending)
    (hposted : b'.posted = b.posted) : ¬ b.RequestsHeader b' := by
  have hlonger : ∀ {α : Type} {x : α} {xs : List α}, xs ≠ xs ++ [x] := by
    intro α x xs heq
    have hlength := congrArg List.length heq
    rw [List.length_append] at hlength
    simp at hlength
  rintro (⟨op, hop, -⟩ | ⟨start, hstart⟩)
  · exact hlonger (hpending.symm.trans hop)
  · exact hlonger (hposted.symm.trans hstart)

/-- A buffer without an outstanding read accepts the request, whatever its indices are. -/
theorem read_header {b : AsyncReadBuffer Continuation} (hfree : b.read_requested_bytes = 0)
    (hmem : 1 ≤ b.mem.length) :
    ∃ b', b.read 1 (some .readSyncFirst) = (b', none) ∧ b.RequestsHeader b' := by
  have hfits : ¬ 1 > b.mem.length := Nat.not_lt.mpr hmem
  simp only [AsyncReadBuffer.read, hfree, ne_eq, not_true_eq_false, if_false, Option.isNone_some,
    Bool.false_eq_true, if_neg hfits]
  generalize hasked : ({ b with
    count := 0, read_success_callback := some Continuation.readSyncFirst
    read_requested_bytes := 1 } : AsyncReadBuffer Continuation) = asked
  have hcallback : asked.read_success_callback = some .readSyncFirst := by rw [← hasked]
  have hrequested : asked.read_requested_bytes = 1 := by rw [← hasked]
  have hpending : asked.pending = b.pending := by rw [← hasked]
  have hposted : asked.posted = b.posted := by rw [← hasked]
  split
  · -- the byte is not there, and Asio has to read it
    obtain ⟨hrequested', hcallback', -, hpending'⟩ :=
      makeRoom_keeps (toSigned (sizeSub 1 asked.bytesAvailable)).toNat asked
    refine ⟨_, rfl, Or.inl ⟨_, congrArg (· ++ [_]) (hpending'.trans hpending), ?_, ?_⟩⟩
    · exact hcallback'.trans hcallback
    · exact hrequested'.trans hrequested
  · refine ⟨_, rfl, Or.inr ⟨asked.read_index, ?_⟩⟩
    unfold callSuccessCallback
    dsimp only
    rw [hcallback, hrequested, hposted]
    split
    · rfl
    · rfl

/-- Any other buffer refuses it. -/
theorem read_busy {b : AsyncReadBuffer Continuation} (hbusy : b.read_requested_bytes ≠ 0)
    (n : Nat) (callback : Continuation) :
    ∃ b', b.read n (some callback) = (b', some .operation_not_permitted) ∧
      b'.pending = b.pending ∧ b'.posted = b.posted := by
  unfold AsyncReadBuffer.read
  rw [if_pos hbusy]
  dsimp only
  split
  · exact ⟨_, rfl, rfl, rfl⟩
  · exact ⟨_, rfl, rfl, rfl⟩

end AsyncReadBuffer

namespace TableSession

/-- The six tables are the same. -/
structure SameTables (t t' : TableSession) : Prop where
  callbacks : t'.registry.callbacks = t.registry.callbacks
  publishers : t'.publishers = t.publishers
  subscribers : t'.registry.subscribers = t.registry.subscribers
  service_clients : t'.registry.service_clients = t.registry.service_clients
  service_servers : t'.registry.service_servers = t.registry.service_servers
  topics_names : t'.topics_names = t.topics_names

theorem SameTables.refl (t : TableSession) : t.SameTables t := ⟨rfl, rfl, rfl, rfl, rfl, rfl⟩

theorem sameTables_setBuffer {t t' : TableSession} {buffer : AsyncReadBuffer Continuation} :
    SameTables { t with async_read_buffer := buffer } t' ↔ t.SameTables t' := by
  constructor
  · intro h
    exact ⟨h.callbacks, h.publishers, h.subscribers, h.service_clients, h.service_servers,
      h.topics_names⟩
  · intro h
    exact ⟨h.callbacks, h.publishers, h.subscribers, h.service_clients, h.service_servers,
      h.topics_names⟩

/-- `read_sync_header` after a rejected frame leaves the tables alone and requests the next
header if and only if no read is outstanding. -/
theorem readSyncHeader_spares_iff {t t' : TableSession} {b : AsyncReadBuffer Continuation}
    (hbuffer : t'.async_read_buffer = b) (hmem : 1 ≤ b.mem.length) :
    t.SameTables t'.readSyncHeader ∧ b.RequestsHeader t'.readSyncHeader.async_read_buffer ↔
      b.read_requested_bytes = 0 ∧ t.SameTables t' := by
  subst hbuffer
  by_cases hfree : t'.async_read_buffer.read_requested_bytes = 0
  · obtain ⟨buffer, hread, hrequests⟩ := AsyncReadBuffer.read_header hfree hmem
    have hheader : t'.readSyncHeader = { t' with async_read_buffer := buffer } := by
      rw [readSyncHeader, read, readDepth]
      dsimp only
      rw [hread]
    rw [hheader]
    constructor
    · rintro ⟨hsame, -⟩
      exact ⟨hfree, hsame.callbacks, hsame.publishers, hsame.subscribers, hsame.service_clients,
        hsame.service_servers, hsame.topics_names⟩
    · rintro ⟨-, hsame⟩
      exact ⟨⟨hsame.callbacks, hsame.publishers, hsame.subscribers, hsame.service_clients,
        hsame.service_servers, hsame.topics_names⟩, hrequests⟩
  · obtain ⟨buffer, hread, hpending, hposted⟩ :=
      AsyncReadBuffer.read_busy hfree 1 .readSyncFirst
    have hheader : t'.readSyncHeader.async_read_buffer = buffer := by
      rw [readSyncHeader, read, readDepth]
      dsimp only
      rw [hread]
      show (stop { t' with async_read_buffer := buffer }).async_read_buffer = buffer
      unfold stop
      split
      · rfl
      · rfl
    rw [hheader]
    constructor
    · rintro ⟨-, hrequests⟩
      exact absurd hrequests (AsyncReadBuffer.not_requestsHeader hpending hposted)
    · rintro ⟨hzero, -⟩
      exact absurd hzero hfree

/-! ## What is rejected -/

/-- The checksum of the length does not fit it. -/
def BadLength (bytes : List UInt8) : Prop :=
  let stream : SimpleCdr := { buffer := bytes, offset := 0 }
  let (length, stream) := stream.getUint16
  let (length_checksum, _) := stream.getUint8
  length_checksum.toNat + (checksum16 length).toNat ≠ 0xff

/-- The checksum of the message does not fit it. -/
def BadChecksum (topic_id : Nat) (bytes : List UInt8) : Prop :=
  ∃ sum, checksum bytes = some sum ∧ sum + checksum16 topic_id ≠ 0xff

/-- The checksum of the message fits it. -/
def GoodChecksum (topic_id : Nat) (bytes : List UInt8) : Prop :=
  ∃ sum, checksum bytes = some sum ∧ sum + checksum16 topic_id = 0xff

section Steps

variable (deserialize : List UInt8 → Option TopicInfo)

/-- The handler is one of the six for setup frames, and it makes no endpoint: the message
cannot be deserialized, or the constructor throws. -/
def Refuses (handler : Handler) (stream : List UInt8) (outside : Outside) (t : TableSession) :
    Prop :=
  match handler with
  | .setupPublisher | .setupSubscriber =>
    ∀ _topic_info ∈ deserialize stream, outside.created = false
  | .setupServiceClientPublisher | .setupServiceClientSubscriber =>
    ∀ topic_info ∈ deserialize stream,
      (t.registry.createService .client outside.created topic_info).2 = false
  | .setupServiceServerPublisher | .setupServiceServerSubscriber =>
    ∀ topic_info ∈ deserialize stream,
      (t.registry.createService .server outside.created topic_info).2 = false
  | .handleLog | .handleTime | .publisher | .serviceClient _ | .serviceServer _ => False

/-- The callback rejects the frame. -/
inductive Rejection (t : TableSession) (outside : Outside) (bytes : List UInt8) :
    Continuation → Prop
  | badLength (h : BadLength bytes) : Rejection t outside bytes .readIdLength
  | badChecksum {topic_id : Nat} (h : BadChecksum topic_id bytes) :
      Rejection t outside bytes (.readBody topic_id)
  | badSetup {topic_id : Nat} {handler : Handler} (h : GoodChecksum topic_id bytes)
      (hentry : t.registry.callbacks.lookup (UInt16.ofNat topic_id) = some handler)
      (hrefuses : t.Refuses deserialize handler (bytes.take (bytes.length - 1)) outside) :
      Rejection t outside bytes (.readBody topic_id)

/-- No read is outstanding when the callback runs.  `read_body` runs in an active session;
if it warns, `topics_names_` has the topic, and if `setup_subscriber` has a message, ROS is
up. -/
def Harmless (enabled : Bool) (bytes : List UInt8) (t : TableSession) (callback : Continuation) :
    Prop :=
  t.async_read_buffer.read_requested_bytes = 0 ∧
    match callback with
    | .readBody topic_id =>
      t.registry.active = true ∧
        (BadChecksum topic_id bytes → enabled = true → UInt16.ofNat topic_id ∈ t.topics_names) ∧
        (GoodChecksum topic_id bytes →
          t.registry.callbacks.lookup (UInt16.ofNat topic_id) = some .setupSubscriber →
          (deserialize (bytes.take (bytes.length - 1))).isSome → t.ok = true)
    | .readSyncFirst | .readSyncSecond | .readIdLength => True

/-- A callback runs in the step, and rejects its frame. -/
def Rejects (t : TableSession) : Step → Prop
  | .run _ outside =>
    t.io_stopped = false ∧ t.registry.runs .io = true ∧
      ∃ posted ∈ t.async_read_buffer.next, t.Rejection deserialize outside posted.2.1 posted.1
  | _ => False

/-- A step that rejects a frame leaves the tables as they are, and the next header is
requested. -/
def Untouched (t : TableSession) (st : Step) : Prop :=
  t.Rejects deserialize st →
    t.SameTables (t.step deserialize st) ∧
      ∀ posted ∈ t.async_read_buffer.next,
        posted.2.2.RequestsHeader (t.step deserialize st).async_read_buffer

/-- A step that rejects a frame does no harm. -/
def Spared (t : TableSession) : Step → Prop
  | .run enabled outside =>
    t.Rejects deserialize (.run enabled outside) →
      ∀ posted ∈ t.async_read_buffer.next,
        t.Harmless deserialize enabled posted.2.1 posted.1
  | _ => True

end Steps

/-! ## One rejected frame -/

section Rejection

variable {deserialize : List UInt8 → Option TopicInfo} {t : TableSession}

theorem GoodChecksum.not_bad {topic_id : Nat} {bytes : List UInt8}
    (h : GoodChecksum topic_id bytes) : ¬ BadChecksum topic_id bytes := by
  rintro ⟨sum, hsum, hbad⟩
  obtain ⟨sum', hsum', hgood⟩ := h
  rw [hsum] at hsum'
  cases hsum'
  exact hbad hgood

/-- The warning leaves the names alone if and only if it has no new one to enter. -/
theorem warnTopicName_same_iff (enabled : Bool) (topic_id : UInt16) (t : TableSession) :
    t.SameTables (t.warnTopicName enabled topic_id) ↔
      (enabled = true → topic_id ∈ t.topics_names) := by
  unfold warnTopicName
  by_cases henters : (enabled && decide (topic_id ∉ t.topics_names)) = true
  · rw [if_pos henters]
    simp only [Bool.and_eq_true, decide_eq_true_eq] at henters
    obtain ⟨henabled, habsent⟩ := henters
    constructor
    · intro hsame
      have hnames : t.topics_names.insert topic_id "" = t.topics_names := hsame.topics_names
      intro _
      rw [← hnames]
      exact (AList.mem_insert _).mpr (Or.inl rfl)
    · intro hmem
      exact absurd (hmem henabled) habsent
  · rw [if_neg henters]
    refine iff_of_true (SameTables.refl t) ?_
    intro henabled
    subst henabled
    simpa using henters

/-- A session that is stopped with an entry in `callbacks_` loses it. -/
theorem not_same_shutdown {topic_id : UInt16} {handler : Handler}
    (hactive : t.registry.active = true)
    (hentry : t.registry.callbacks.lookup topic_id = some handler) :
    ¬ t.SameTables t.shutdown := by
  intro hsame
  have hcallbacks : t.shutdown.registry.callbacks = ∅ := by
    unfold shutdown stop Registry.stop
    rw [if_pos hactive, if_pos hactive]
    rfl
  rw [← hsame.callbacks, hcallbacks, AList.lookup_empty] at hentry
  cases hentry

/-- Where the constructor of an endpoint throws, nothing is entered. -/
theorem createService_thrown {kind : ServiceKind} {created : Bool} {topic_info : TopicInfo}
    (h : (t.registry.createService kind created topic_info).2 = false) :
    t.SameTables (t.createService kind created topic_info).1 := by
  have habsent : topic_info.topic_name ∉ t.registry.services kind := by
    intro hpresent
    rw [Registry.createService_present hpresent] at h
    cases h
  have hcreates := Registry.createService_creates habsent created
  rw [h] at hcreates
  have hservices : (t.registry.createService kind created topic_info).1.services =
      t.registry.services := by
    funext other
    by_cases hother : other = kind
    · subst hother
      exact hcreates.services
    · exact hcreates.others other hother
  refine ⟨hcreates.callbacks, rfl, hcreates.topics.subscribers, congrFun hservices .client,
    congrFun hservices .server, ?_⟩
  unfold createService
  dsimp only
  rw [h, Bool.and_false, if_neg Bool.false_ne_true]

/-- The tables and the buffer are the same, and nothing has failed. -/
def Unchanged (t t' : TableSession) : Prop :=
  t.SameTables t' ∧ t'.async_read_buffer = t.async_read_buffer ∧
    t'.registry.faults = t.registry.faults

theorem Unchanged.refl (t : TableSession) : t.Unchanged t := ⟨SameTables.refl t, rfl, rfl⟩

theorem setupServicePublisher_thrown {kind : ServiceKind} {created : Bool}
    {topic_info : TopicInfo} (h : (t.registry.createService kind created topic_info).2 = false) :
    t.Unchanged (t.setupServicePublisher kind created topic_info) := by
  have hflag : (t.createService kind created topic_info).2 = false := h
  unfold setupServicePublisher
  dsimp only
  rw [hflag, if_neg Bool.false_ne_true]
  exact ⟨createService_thrown h, rfl, Registry.createService_faults kind created topic_info _⟩

theorem setupServiceSubscriber_thrown {kind : ServiceKind} {created : Bool}
    {topic_info : TopicInfo} (h : (t.registry.createService kind created topic_info).2 = false) :
    t.Unchanged (t.setupServiceSubscriber kind created topic_info) := by
  have hflag : (t.createService kind created topic_info).2 = false := h
  unfold setupServiceSubscriber
  dsimp only
  rw [hflag, if_neg Bool.false_ne_true]
  exact ⟨createService_thrown h, rfl, Registry.createService_faults kind created topic_info _⟩

/-- A setup handler that changes nothing for any message that it may have. -/
theorem setup_unchanged {topic_info : Option TopicInfo}
    {handler : TopicInfo → TableSession → TableSession}
    (h : ∀ info ∈ topic_info, t.Unchanged (handler info t)) :
    t.Unchanged (t.setup topic_info handler) := by
  cases topic_info with
  | none => exact Unchanged.refl t
  | some info => exact h info rfl

/-- A handler that refuses changes nothing, unless it is `setup_subscriber` with a
message. -/
theorem Refuses.call_unchanged {handler : Handler} {stream : List UInt8} {outside : Outside}
    (h : t.Refuses deserialize handler stream outside)
    (hother : handler = .setupSubscriber → (deserialize stream).isSome = false) :
    t.Unchanged (t.call deserialize handler stream outside) := by
  cases handler with
  | setupPublisher =>
    apply setup_unchanged
    intro info hinfo
    have hthrows : outside.created = false := h info hinfo
    rw [hthrows]
    exact Unchanged.refl t
  | setupSubscriber =>
    apply setup_unchanged
    intro info hinfo
    have hnone := hother rfl
    rw [Option.mem_def.mp hinfo] at hnone
    cases hnone
  | setupServiceClientPublisher =>
    exact setup_unchanged fun info hinfo => setupServicePublisher_thrown (h info hinfo)
  | setupServiceClientSubscriber =>
    exact setup_unchanged fun info hinfo => setupServiceSubscriber_thrown (h info hinfo)
  | setupServiceServerPublisher =>
    exact setup_unchanged fun info hinfo => setupServicePublisher_thrown (h info hinfo)
  | setupServiceServerSubscriber =>
    exact setup_unchanged fun info hinfo => setupServiceSubscriber_thrown (h info hinfo)
  | handleLog => exact h.elim
  | handleTime => exact h.elim
  | publisher => exact h.elim
  | serviceClient srv => exact h.elim
  | serviceServer srv => exact h.elim

/-- `setup_subscriber`, whose constructor has thrown, calls `set_sync_timeout`. -/
theorem Refuses.call_subscriber {stream : List UInt8} {outside : Outside}
    (h : t.Refuses deserialize .setupSubscriber stream outside)
    (hsome : (deserialize stream).isSome = true) :
    t.call deserialize .setupSubscriber stream outside = t.setSyncTimeout := by
  obtain ⟨info, hinfo⟩ := Option.isSome_iff_exists.mp hsome
  have hthrows : outside.created = false := h info hinfo
  show t.setup (deserialize stream) (setupSubscriber outside.created) = t.setSyncTimeout
  rw [hinfo, hthrows]
  rfl

theorem setSyncTimeout_same_iff {topic_id : UInt16} {handler : Handler}
    (hactive : t.registry.active = true)
    (hentry : t.registry.callbacks.lookup topic_id = some handler) :
    t.SameTables t.setSyncTimeout ↔ t.ok = true := by
  unfold setSyncTimeout
  split
  · rename_i hok
    exact iff_of_true (SameTables.refl t) hok
  · rename_i hdown
    exact iff_of_false (not_same_shutdown hactive hentry) hdown

theorem setSyncTimeout_keeps (t : TableSession) :
    t.setSyncTimeout.async_read_buffer = t.async_read_buffer ∧
      t.setSyncTimeout.registry.faults = t.registry.faults := by
  unfold setSyncTimeout shutdown stop
  split
  · exact ⟨rfl, rfl⟩
  · split
    · exact ⟨rfl, Registry.stop_faults t.registry⟩
    · exact ⟨rfl, rfl⟩

theorem warnTopicName_buffer (enabled : Bool) (topic_id : UInt16) (t : TableSession) :
    (t.warnTopicName enabled topic_id).async_read_buffer = t.async_read_buffer := by
  unfold warnTopicName
  split
  · rfl
  · rfl

section Body

variable {enabled : Bool} {outside : Outside} {bytes : List UInt8} {topic_id : Nat}

theorem readBody_inactive (hinactive : ¬ t.registry.active = true) :
    t.readBody deserialize enabled outside { buffer := bytes, offset := 0 } topic_id = t := by
  unfold readBody
  rw [Bool.not_eq_true] at hinactive
  rw [hinactive]
  rfl

theorem readBody_bad (hactive : t.registry.active = true) (h : BadChecksum topic_id bytes) :
    t.readBody deserialize enabled outside { buffer := bytes, offset := 0 } topic_id =
      (t.warnTopicName enabled (UInt16.ofNat topic_id)).readSyncHeader := by
  obtain ⟨sum, hsum, hbad⟩ := h
  unfold readBody
  simp only [hactive, hsum, Bool.not_true, Bool.false_eq_true, if_false]
  rw [if_pos hbad]

theorem readBody_good (hactive : t.registry.active = true) (h : GoodChecksum topic_id bytes)
    {handler : Handler}
    (hentry : t.registry.callbacks.lookup (UInt16.ofNat topic_id) = some handler)
    (hruns : (t.call deserialize handler (bytes.take (bytes.length - 1)) outside).registry.runs
      .io = true) :
    t.readBody deserialize enabled outside { buffer := bytes, offset := 0 } topic_id =
      (t.call deserialize handler (bytes.take (bytes.length - 1)) outside).readSyncHeader := by
  obtain ⟨sum, hsum, hgood⟩ := h
  unfold readBody
  simp only [hactive, hsum, Bool.not_true, Bool.false_eq_true, if_false]
  rw [if_neg (not_not.mpr hgood), lookup, hentry]
  exact if_pos hruns

/-- Whether a handler that refuses leaves the tables alone. -/
theorem Refuses.call_same_iff {handler : Handler} {stream : List UInt8}
    (h : t.Refuses deserialize handler stream outside) (hactive : t.registry.active = true)
    (hentry : t.registry.callbacks.lookup (UInt16.ofNat topic_id) = some handler) :
    t.SameTables (t.call deserialize handler stream outside) ↔
      (handler = .setupSubscriber → (deserialize stream).isSome = true → t.ok = true) := by
  by_cases hthrown : handler = .setupSubscriber ∧ (deserialize stream).isSome = true
  · obtain ⟨hhandler, hsome⟩ := hthrown
    subst hhandler
    rw [h.call_subscriber hsome, setSyncTimeout_same_iff hactive hentry]
    exact ⟨fun hok _ _ => hok, fun hok => hok rfl hsome⟩
  · refine iff_of_true (h.call_unchanged ?_).1 fun hhandler hsome => absurd ⟨hhandler, hsome⟩ hthrown
    intro hhandler
    rw [← Bool.not_eq_true]
    exact fun hsome => hthrown ⟨hhandler, hsome⟩

theorem Refuses.call_keeps {handler : Handler} {stream : List UInt8}
    (h : t.Refuses deserialize handler stream outside) :
    (t.call deserialize handler stream outside).async_read_buffer = t.async_read_buffer ∧
      (t.call deserialize handler stream outside).registry.faults = t.registry.faults := by
  by_cases hthrown : handler = .setupSubscriber ∧ (deserialize stream).isSome = true
  · obtain ⟨hhandler, hsome⟩ := hthrown
    subst hhandler
    rw [h.call_subscriber hsome]
    exact setSyncTimeout_keeps t
  · refine (h.call_unchanged ?_).2
    intro hhandler
    rw [← Bool.not_eq_true]
    exact fun hsome => hthrown ⟨hhandler, hsome⟩

/-- A callback that rejects its frame leaves the tables alone and requests the next header if
and only if nothing is in its way. -/
theorem Rejection.resume_iff (enabled : Bool) {callback : Continuation}
    (h : t.Rejection deserialize outside bytes callback) (hruns : t.registry.runs .io = true)
    (hmem : 1 ≤ t.async_read_buffer.mem.length) :
    t.SameTables (t.resume deserialize enabled outside { buffer := bytes, offset := 0 } callback) ∧
        t.async_read_buffer.RequestsHeader
          (t.resume deserialize enabled outside { buffer := bytes, offset := 0 }
            callback).async_read_buffer ↔
      t.Harmless deserialize enabled bytes callback := by
  have hstuck : ¬ t.async_read_buffer.RequestsHeader t.async_read_buffer :=
    AsyncReadBuffer.not_requestsHeader rfl rfl
  cases h with
  | badLength hbad =>
    have hresume : t.readIdLength { buffer := bytes, offset := 0 } = t.readSyncHeader := by
      unfold readIdLength
      exact if_pos hbad
    show t.SameTables (t.readIdLength _) ∧
      t.async_read_buffer.RequestsHeader (t.readIdLength _).async_read_buffer ↔ _
    rw [hresume, readSyncHeader_spares_iff rfl hmem]
    exact and_congr_right fun _ => iff_of_true (SameTables.refl t) trivial
  | @badChecksum topic_id hbad =>
    show t.SameTables (t.readBody deserialize enabled outside _ topic_id) ∧
      t.async_read_buffer.RequestsHeader
        (t.readBody deserialize enabled outside _ topic_id).async_read_buffer ↔ _
    by_cases hactive : t.registry.active = true
    · rw [readBody_bad hactive hbad,
        readSyncHeader_spares_iff (warnTopicName_buffer enabled _ t) hmem, warnTopicName_same_iff]
      refine and_congr_right fun _ => ?_
      constructor
      · intro hnames
        exact ⟨hactive, fun _ => hnames, fun hgood => absurd hbad hgood.not_bad⟩
      · rintro ⟨-, hnames, -⟩
        exact hnames hbad
    · rw [readBody_inactive hactive]
      exact iff_of_false (fun hboth => hstuck hboth.2) fun hharmless => hactive hharmless.2.1
  | @badSetup topic_id handler hgood hentry hrefuses =>
    show t.SameTables (t.readBody deserialize enabled outside _ topic_id) ∧
      t.async_read_buffer.RequestsHeader
        (t.readBody deserialize enabled outside _ topic_id).async_read_buffer ↔ _
    by_cases hactive : t.registry.active = true
    · obtain ⟨hbuffer, hfaults⟩ := hrefuses.call_keeps
      rw [readBody_good hactive hgood hentry (by rw [Registry.runs_congr hfaults, hruns]),
        readSyncHeader_spares_iff hbuffer hmem, hrefuses.call_same_iff hactive hentry]
      refine and_congr_right fun _ => ?_
      constructor
      · intro hok
        refine ⟨hactive, fun hbad => absurd hbad hgood.not_bad, ?_⟩
        intro _ hsubscriber hsome
        rw [hentry] at hsubscriber
        exact hok (Option.some.inj hsubscriber) hsome
      · rintro ⟨-, -, hok⟩ hhandler hsome
        subst hhandler
        exact hok hgood hentry hsome
    · rw [readBody_inactive hactive]
      exact iff_of_false (fun hboth => hstuck hboth.2) fun hharmless => hactive hharmless.2.1

end Body

/-! ## Runs -/

/-- What a callback rejects does not depend on the buffer. -/
theorem Rejection.setBuffer {outside : Outside} {bytes : List UInt8} {callback : Continuation}
    (h : t.Rejection deserialize outside bytes callback)
    (buffer : AsyncReadBuffer Continuation) :
    Rejection deserialize { t with async_read_buffer := buffer } outside bytes callback := by
  cases h with
  | badLength hbad => exact .badLength hbad
  | badChecksum hbad => exact .badChecksum hbad
  | @badSetup topic_id handler hgood hentry hrefuses =>
    refine .badSetup hgood hentry ?_
    cases handler with
    | _ => exact hrefuses

/-- A step leaves the tables untouched if and only if it does no harm. -/
theorem untouched_iff_spared (hmem : 1 ≤ t.async_read_buffer.mem.length) (st : Step) :
    t.Untouched deserialize st ↔ t.Spared deserialize st := by
  cases st with
  | run enabled outside =>
    unfold Untouched Spared
    refine forall_congr' fun hrejects => ?_
    obtain ⟨hrunning, hruns, ⟨callback, bytes, buffer⟩, hnext, hrejection⟩ := hrejects
    have hnext' : t.async_read_buffer.next = some (callback, bytes, buffer) := hnext
    have hstep : t.step deserialize (.run enabled outside) =
        resume deserialize enabled outside { buffer := bytes, offset := 0 }
          { t with async_read_buffer := buffer } callback := by
      have hgoes : ¬ (t.io_stopped || !t.registry.runs
          (Step.run enabled outside).thread) = true := by
        rw [hrunning, show (Step.run enabled outside).thread = .io from rfl, hruns]
        decide
      unfold step
      rw [if_neg hgoes]
      dsimp only
      rw [hnext']
    have htaken := AsyncReadBuffer.next_eq hnext'
    have hbuffer : 1 ≤ buffer.mem.length := by
      rw [htaken]
      exact hmem
    have hharmless : Harmless deserialize enabled bytes { t with async_read_buffer := buffer }
        callback ↔ t.Harmless deserialize enabled bytes callback := by
      rw [htaken]
      exact Iff.rfl
    have hiff := (hrejection.setBuffer buffer).resume_iff enabled hruns hbuffer
    rw [hstep, hnext']
    simp only [Option.mem_def, Option.some.injEq, forall_eq']
    rw [← hharmless, ← hiff]
    exact and_congr_left fun _ => sameTables_setBuffer.symm
  | arrive i bytes => exact iff_of_true (fun h => h.elim) trivial
  | fail i error => exact iff_of_true (fun h => h.elim) trivial
  | rosMessage topic_id message => exact iff_of_true (fun h => h.elim) trivial
  | rosRequest service_type request => exact iff_of_true (fun h => h.elim) trivial
  | stop => exact iff_of_true (fun h => h.elim) trivial
  | interrupt => exact iff_of_true (fun h => h.elim) trivial
  | start => exact iff_of_true (fun h => h.elim) trivial

theorem new_mem {types : List String} {timeout threshold : Int} {ok : Bool}
    (hnew : new types timeout threshold ok = some t) :
    t.async_read_buffer.mem.length = buffer_max := by
  unfold new at hnew
  obtain ⟨buffer, hbuffer, ht⟩ := Option.map_eq_some_iff.mp hnew
  subst ht
  exact (AsyncReadBuffer.new_idle hbuffer).2

end Rejection

end TableSession

/-- Every rejected frame of a run leaves the tables untouched and is followed by the next
header, if and only if every rejection of the run does no harm. -/
theorem untouched_iff (deserialize : List UInt8 → Option TopicInfo) {types : List String}
    {timeout threshold : Int} {ok : Bool} {t : TableSession}
    (hnew : TableSession.new types timeout threshold ok = some t)
    (steps : List TableSession.Step) :
    Throughout (TableSession.step deserialize) (TableSession.Untouched deserialize) t steps ↔
      Throughout (TableSession.step deserialize) (TableSession.Spared deserialize) t steps := by
  apply throughout_congr (P := fun t => 1 ≤ t.async_read_buffer.mem.length)
  · rw [TableSession.new_mem hnew]
    decide
  · intro t st hmem
    exact TableSession.untouched_iff_spared hmem st
  · intro t st hmem _
    have hstep : TableSession.Proceeds deserialize t (t.step deserialize st) :=
      TableSession.step_proceeds t st
    exact Nat.le_trans hmem hstep.capacity

/-! ## A log message with a bad checksum -/

/-- A session that was constructed without services, while ROS is up. -/
def quietSession : TableSession where
  registry := Registry.new [] 2000
  publishers := ∅
  topics_names := ∅
  async_read_buffer :=
    { mem := List.replicate buffer_max 0, write_index := 0, read_index := 0
      read_success_callback := none, read_requested_bytes := 0, count := 0
      pending := [], posted := [] }
  unrecognised_topics := 0
  unrecognised_topic_retry_threshold := 1
  ok := true
  io_stopped := false

theorem quietSession_eq : TableSession.new [] 2000 1 true = some quietSession := rfl

/-- A callback runs, with the logger enabled. -/
def warningRun : TableSession.Step := .run true ⟨true, none, []⟩

/-- The session is started, and the frame is read up to its last byte. -/
def corruptedLog : List TableSession.Step :=
  [.start, .arrive 0 [0xff, 0xfe, 0x00, 0x00, 0xff, 0x07, 0x00, 0x00], warningRun, warningRun,
    warningRun]

theorem corruptedLog_untouched_iff :
    Throughout (TableSession.step fun _ => none) (TableSession.Untouched fun _ => none) quietSession
        (corruptedLog ++ [warningRun]) ↔
      Throughout (TableSession.step fun _ => none) (TableSession.Spared fun _ => none) quietSession
        (corruptedLog ++ [warningRun]) :=
  untouched_iff (fun _ => none) quietSession_eq (corruptedLog ++ [warningRun])

/-- `read_body` enters the id of the frame in `topics_names_`, with an empty name. -/
theorem corruptedLog_not_untouched :
    ¬ ∀ (deserialize : List UInt8 → Option TopicInfo) (types : List String)
      (timeout threshold : Int) (ok : Bool) (t : TableSession) (steps : List TableSession.Step),
      TableSession.new types timeout threshold ok = some t →
      Throughout (TableSession.step deserialize) (TableSession.Untouched deserialize) t steps := by
  intro h
  have huntouched := h (fun _ => none) [] 2000 1 true quietSession (corruptedLog ++ [warningRun])
    quietSession_eq corruptedLog warningRun List.prefix_rfl
  generalize hbefore : Runs.run (TableSession.step fun _ => none) quietSession corruptedLog = before
    at huntouched
  have hnext : before.async_read_buffer.next.map (fun posted => (posted.1, posted.2.1)) =
      some (.readBody 7, [0x00]) ∧ before.io_stopped = false ∧
        before.registry.runs .io = true := by
    rw [← hbefore]
    decide +kernel
  have hnames : before.topics_names.lookup 7 = none ∧
      (before.step (fun _ => none) warningRun).topics_names.lookup 7 = some "" := by
    rw [← hbefore]
    decide +kernel
  obtain ⟨⟨callback, bytes, buffer⟩, hposted, hframe⟩ := Option.map_eq_some_iff.mp hnext.1
  obtain ⟨hcallback, hbytes⟩ := Prod.mk.inj hframe
  have hbad : TableSession.BadChecksum 7 [0x00] := ⟨0x00, rfl, by decide⟩
  have hrejection : before.Rejection (fun _ => none) ⟨true, none, []⟩ bytes callback := by
    subst hcallback hbytes
    exact .badChecksum hbad
  have hsame := (huntouched ⟨hnext.2.1, hnext.2.2, (callback, bytes, buffer), hposted, hrejection⟩).1
  rw [hsame.topics_names, hnames.1] at hnames
  cases hnames.2

end Ros2Serial.Host
