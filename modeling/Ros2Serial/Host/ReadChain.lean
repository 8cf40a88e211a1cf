import Ros2Serial.Host.Oversize
import Ros2Serial.Host.SerialSession
import Ros2Serial.Lib.Requests

/-!
# The chain of reads

Every read handler issues the next read, so that there is one chain of reads,
and it takes the bytes of the port in their order.  `Consistent` says so of a
`SerialSession`, and every step keeps it, as long as a session is started only
while nothing is left of the chain of the one before (`Consistent.step`).

A header for a frame that the buffer cannot hold leaves a request behind that
nothing serves.  Whether there may have been one (`oversize`), and whether the
sessions are started with an empty buffer (`clean`), are parameters of the
invariant.
-/

namespace Ros2Serial.Host

open Bytes Requests

/-! ## The next request -/

/-- The read that a read handler issues when it is given these bytes. -/
def requestAfter (stream : SimpleCdr) : Continuation → Continuation × Nat
  | .readSyncFirst =>
    let (sync, _) := stream.getUint8
    if sync = 0xff then (.readSyncSecond, 1) else (.readSyncFirst, 1)
  | .readSyncSecond =>
    let (sync, _) := stream.getUint8
    if sync = 0xfe then (.readIdLength, 5) else (.readSyncFirst, 1)
  | .readIdLength =>
    let (length, stream) := stream.getUint16
    let (length_checksum, stream) := stream.getUint8
    if length_checksum.toNat + (checksum16 length).toNat ≠ 0xff then (.readSyncFirst, 1)
    else (.readBody stream.getUint16.1, length + 1)
  | .readBody _ => (.readSyncFirst, 1)

/-- The read that is issued when the handlers have been given this. -/
def expected (handed : List (Continuation × List UInt8)) : Continuation × Nat :=
  match handed.getLast? with
  | none => (.readSyncFirst, 1)
  | some (callback, bytes) => requestAfter { buffer := bytes, offset := 0 } callback

@[simp] theorem expected_nil : expected [] = (.readSyncFirst, 1) := rfl

@[simp] theorem expected_append (handed : List (Continuation × List UInt8))
    (callback : Continuation) (bytes : List UInt8) :
    expected (handed ++ [(callback, bytes)]) =
      requestAfter { buffer := bytes, offset := 0 } callback := by
  simp [expected]

/-- Only a header can ask for more than the buffer can hold. -/
theorem requestAfter_le {callback : Continuation} {bytes : List UInt8}
    (h : callback = .readIdLength → ¬ OversizeHeader buffer_max bytes) :
    (requestAfter { buffer := bytes, offset := 0 } callback).2 ≤ buffer_max := by
  cases callback with
  | readSyncFirst =>
    simp only [requestAfter]
    split <;> exact Nat.le_of_ble_eq_true rfl
  | readSyncSecond =>
    simp only [requestAfter]
    split <;> exact Nat.le_of_ble_eq_true rfl
  | readIdLength =>
    simp only [requestAfter]
    split
    · exact Nat.le_of_ble_eq_true rfl
    · rename_i hgood
      exact Nat.le_of_not_lt fun hlong => h rfl ⟨not_not.mp hgood, hlong⟩
  | readBody topic_id => exact Nat.le_of_ble_eq_true rfl

namespace SerialSession

/-! ## Functions that do not read -/

/-- The reads, and what was given to their handlers, are the same, and no session is started. -/
structure SameReads (l l' : SerialSession) : Prop where
  active : l'.session.active = true → l.session.active = true ∧ l'.port = l.port
  buffer : l'.session.async_read_buffer = l.session.async_read_buffer
  sessions : l'.sessions = l.sessions
  reads : l'.reads = l.reads
  posted : l'.posted = l.posted
  check : l'.check = l.check
  readCalls : l'.readCalls = l.readCalls
  overlaps : l'.overlaps = l.overlaps
  leftover : l'.leftover = l.leftover
  arrived : l'.arrived = l.arrived
  handed : l'.handed = l.handed

section SameReads

variable {l l' l'' : SerialSession}

theorem SameReads.refl (l : SerialSession) : SameReads l l :=
  ⟨fun h => ⟨h, rfl⟩, rfl, rfl, rfl, rfl, rfl, rfl, rfl, rfl, rfl, rfl⟩

theorem SameReads.trans (h : SameReads l l') (h' : SameReads l' l'') : SameReads l l'' :=
  ⟨fun hactive => ⟨(h.active (h'.active hactive).1).1,
      (h'.active hactive).2.trans (h.active (h'.active hactive).1).2⟩,
    h'.buffer.trans h.buffer, h'.sessions.trans h.sessions, h'.reads.trans h.reads,
    h'.posted.trans h.posted, h'.check.trans h.check, h'.readCalls.trans h.readCalls,
    h'.overlaps.trans h.overlaps, h'.leftover.trans h.leftover, h'.arrived.trans h.arrived,
    h'.handed.trans h.handed⟩

theorem writeMessage_sameReads (message : List UInt8) (topic_id : Nat) (l : SerialSession) :
    SameReads l (l.writeMessage message topic_id) :=
  ⟨fun h => ⟨h, rfl⟩, rfl, rfl, rfl, rfl, rfl, rfl, rfl, rfl, rfl, rfl⟩

theorem stop_sameReads (l : SerialSession) : SameReads l l.stop := by
  rw [stop]
  split
  · exact ⟨fun h => absurd h Bool.false_ne_true, rfl, rfl, rfl, rfl, rfl, rfl, rfl, rfl, rfl, rfl⟩
  · exact ⟨fun h => ⟨h, rfl⟩, rfl, rfl, rfl, rfl, rfl, rfl, rfl, rfl, rfl, rfl⟩

theorem shutdown_sameReads (l : SerialSession) : SameReads l l.shutdown := by
  have h : SameReads l (if l.session.active then l.stop else l) := by
    split
    · exact stop_sameReads l
    · exact SameReads.refl l
  exact h.trans ⟨fun h => ⟨h, rfl⟩, rfl, rfl, rfl, rfl, rfl, rfl, rfl, rfl, rfl, rfl⟩

theorem setSyncTimeout_sameReads (l : SerialSession) : SameReads l l.setSyncTimeout := by
  rw [setSyncTimeout]
  split
  · exact ⟨fun h => ⟨h, rfl⟩, rfl, rfl, rfl, rfl, rfl, rfl, rfl, rfl, rfl, rfl⟩
  · have hcount : SameReads l { l with timeouts := l.timeouts + 1 } :=
      ⟨fun h => ⟨h, rfl⟩, rfl, rfl, rfl, rfl, rfl, rfl, rfl, rfl, rfl, rfl⟩
    exact hcount.trans (shutdown_sameReads _)

theorem attemptSync_sameReads (l : SerialSession) : SameReads l l.attemptSync :=
  (writeMessage_sameReads [] TopicInfo.ID_PUBLISHER l).trans (setSyncTimeout_sameReads _)

theorem perform_sameReads (l : SerialSession) (effect : Effect) :
    SameReads l (l.perform effect) := by
  cases effect with
  | write message topic_id => exact writeMessage_sameReads message topic_id l
  | setSyncTimeout => exact setSyncTimeout_sameReads l
  | enter topic_id => exact ⟨fun h => ⟨h, rfl⟩, rfl, rfl, rfl, rfl, rfl, rfl, rfl, rfl, rfl, rfl⟩

theorem performAll_sameReads (effects : List Effect) (l : SerialSession) :
    SameReads l (effects.foldl perform l) := by
  induction effects generalizing l with
  | nil => exact SameReads.refl l
  | cons effect effects ih => exact (perform_sameReads l effect).trans (ih _)

theorem countUnrecognised_sameReads (l : SerialSession) : SameReads l l.countUnrecognised := by
  rw [countUnrecognised]
  split
  · dsimp only
    split
    · have hcount : SameReads l
          { l with session.unrecognised_topics := l.session.unrecognised_topics + 1 } :=
        ⟨fun h => ⟨h, rfl⟩, rfl, rfl, rfl, rfl, rfl, rfl, rfl, rfl, rfl, rfl⟩
      exact (hcount.trans (attemptSync_sameReads _)).trans
        ⟨fun h => ⟨h, rfl⟩, rfl, rfl, rfl, rfl, rfl, rfl, rfl, rfl, rfl, rfl⟩
    · exact ⟨fun h => ⟨h, rfl⟩, rfl, rfl, rfl, rfl, rfl, rfl, rfl, rfl, rfl, rfl⟩
  · exact SameReads.refl l

theorem lookup_sameReads (effects : List Effect) (topic_id : Nat) (payload : List UInt8)
    (l : SerialSession) : SameReads l (l.lookup effects topic_id payload) := by
  have hlookup : SameReads l
      { l with session.lookups := l.session.lookups ++ [(topic_id, payload)] } :=
    ⟨fun h => ⟨h, rfl⟩, rfl, rfl, rfl, rfl, rfl, rfl, rfl, rfl, rfl, rfl⟩
  rw [lookup]
  dsimp only
  split
  · exact hlookup.trans (performAll_sameReads effects _)
  · exact hlookup.trans (countUnrecognised_sameReads _)

end SameReads

/-! ## The invariant -/

/-- Where the chain stands: the bytes of the port that no handler has been given are `rest`. -/
inductive Phase (oversize : Prop) (b : AsyncReadBuffer Continuation)
    (handed : List (Continuation × List UInt8)) (rest : List UInt8) : Prop
  /-- There is no chain. -/
  | idle (h : b.Idle rest)
  /-- The chain has one read. -/
  | wants {callback : Continuation} {n : Nat} (h : b.Wants callback n rest)
      (hexpected : expected handed = (callback, n)) (hn : n ≤ buffer_max)
  /-- There is a request that was refused for its size. -/
  | stuck (h : oversize) (hrequested : b.read_requested_bytes ≠ 0) (hpending : b.pending = [])
      (hposted : b.posted = [])

/-- What holds of the handlers, wherever the chain stands. -/
structure Tagged (oversize clean : Prop) (l : SerialSession) : Prop where
  capacity : l.session.async_read_buffer.mem.length = buffer_max
  reads : l.reads.length = l.session.async_read_buffer.pending.length
  posted : l.posted.length = l.session.async_read_buffer.posted.length
  readsBy : ∀ issued ∈ l.reads, issued.session = l.sessions
  postedBy : ∀ session ∈ l.posted, session = l.sessions
  check : ∀ session ∈ l.check, session = l.sessions
  overlaps : oversize ∨ l.overlaps = 0
  leftover : clean → l.leftover = []
  follows : Follows expected l.handed

/-- The bytes of the port, with those that were left over, are those that the handlers were
given and `rest`. -/
def Streams (l : SerialSession) (rest : List UInt8) : Prop :=
  l.leftover ++ l.arrived = l.handed.flatMap Prod.snd ++ rest

structure Consistent (oversize clean : Prop) (l : SerialSession) : Prop where
  tagged : l.Tagged oversize clean
  stream : ∃ rest, l.Streams rest ∧ Phase oversize l.session.async_read_buffer l.handed rest

/-- Nothing is left of a chain. -/
def Quiet (l : SerialSession) : Prop :=
  l.session.async_read_buffer.pending = [] ∧ l.session.async_read_buffer.posted = []

instance (l : SerialSession) : Decidable l.Quiet := inferInstanceAs (Decidable (_ ∧ _))

section Reads

variable {oversize clean : Prop} {l l' : SerialSession} {rest : List UInt8}
  {b : AsyncReadBuffer Continuation}

theorem SameReads.tagged (h : SameReads l l') (ht : l.Tagged oversize clean) :
    l'.Tagged oversize clean := by
  refine ⟨?_, ?_, ?_, ?_, ?_, ?_, ?_, ?_, ?_⟩
  · rw [h.buffer]; exact ht.capacity
  · rw [h.reads, h.buffer]; exact ht.reads
  · rw [h.posted, h.buffer]; exact ht.posted
  · rw [h.reads, h.sessions]; exact ht.readsBy
  · rw [h.posted, h.sessions]; exact ht.postedBy
  · rw [h.check, h.sessions]; exact ht.check
  · rw [h.overlaps]; exact ht.overlaps
  · rw [h.leftover]; exact ht.leftover
  · rw [h.handed]; exact ht.follows

theorem SameReads.streams (h : SameReads l l') (hs : l.Streams rest) : l'.Streams rest := by
  rw [Streams, h.leftover, h.arrived, h.handed]
  exact hs

theorem SameReads.consistent (h : SameReads l l') (hc : l.Consistent oversize clean) :
    l'.Consistent oversize clean := by
  obtain ⟨rest, hstreams, hphase⟩ := hc.stream
  refine ⟨h.tagged hc.tagged, rest, h.streams hstreams, ?_⟩
  rw [h.buffer, h.handed]
  exact hphase

theorem not_busy (h : l.session.async_read_buffer.Idle rest) : ¬ l.Busy := by
  rintro (hrequested | hpending)
  · exact hrequested h.requested
  · exact hpending h.pending

theorem Tagged.reads_eq_nil (ht : l.Tagged oversize clean)
    (hpending : l.session.async_read_buffer.pending = []) : l.reads = [] := by
  apply List.length_eq_zero_iff.mp
  rw [ht.reads, hpending]
  rfl

theorem Tagged.posted_eq_nil (ht : l.Tagged oversize clean)
    (hposted : l.session.async_read_buffer.posted = []) : l.posted = [] := by
  apply List.length_eq_zero_iff.mp
  rw [ht.posted, hposted]
  rfl

/-- The buffer after a call of its functions that found no pending read and no posted
callback. -/
theorem Tagged.setBuffer (ht : l.Tagged oversize clean)
    (hpending : l.session.async_read_buffer.pending = [])
    (hposted : l.session.async_read_buffer.posted = []) (hmem : b.mem.length = buffer_max) :
    (l.setBuffer b).Tagged oversize clean := by
  have hreads := ht.reads_eq_nil hpending
  have hnone := ht.posted_eq_nil hposted
  refine ⟨hmem, ?_, ?_, ?_, ?_, ht.check, ht.overlaps, ht.leftover, ht.follows⟩
  · simp [SerialSession.setBuffer, hreads, hpending]
  · simp [SerialSession.setBuffer, hnone, hposted]
  · intro issued hissued
    simp only [SerialSession.setBuffer, hreads, List.nil_append, List.mem_replicate] at hissued
    rw [hissued.2]
    rfl
  · intro session hsession
    simp only [SerialSession.setBuffer, hnone, List.nil_append, List.mem_replicate] at hsession
    exact hsession.2

theorem Tagged.countRead (ht : l.Tagged oversize clean) (h : oversize ∨ ¬ l.Busy) :
    l.countRead.Tagged oversize clean := by
  refine ⟨ht.capacity, ht.reads, ht.posted, ht.readsBy, ht.postedBy, ht.check, ?_, ht.leftover,
    ht.follows⟩
  rcases h with h | h
  · exact Or.inl h
  · rw [SerialSession.countRead, if_neg h]
    exact ht.overlaps

/-- A read that the buffer accepts. -/
theorem read_eq (hidle : l.session.async_read_buffer.Idle rest) (callback : Continuation) {n : Nat}
    (hn : n ≤ l.session.async_read_buffer.mem.length) :
    ∃ b, l.read n callback = l.countRead.setBuffer b ∧ b.Wants callback n rest ∧
      b.mem.length = l.session.async_read_buffer.mem.length := by
  obtain ⟨b, hread, hwants, hmem⟩ := hidle.read callback hn
  refine ⟨b, ?_, hwants, hmem⟩
  rw [read, readDepth, hread]

/-- A read that it refuses for its size.  The request stays, so that the read of a new frame is
refused as well, and the session stops. -/
theorem read_oversize (hidle : l.session.async_read_buffer.Idle rest) (callback : Continuation)
    {n : Nat} (hn : l.session.async_read_buffer.mem.length < n) :
    ∃ b, l.read n callback =
        (((l.countRead.setBuffer b).countRead.setBuffer { b with count := 1 })).stop ∧
      b.pending = [] ∧ b.posted = [] ∧ b.read_requested_bytes ≠ 0 ∧
      b.mem.length = l.session.async_read_buffer.mem.length := by
  have hread : l.session.async_read_buffer.read n (some callback) =
      ({ l.session.async_read_buffer with
          count := 0, read_success_callback := some callback, read_requested_bytes := n },
        some .no_buffer_space) := by
    simp only [AsyncReadBuffer.read, hidle.requested, ne_eq, not_true_eq_false, if_false,
      Option.isNone_some, Bool.false_eq_true, gt_iff_lt, if_pos hn]
  have hagain : AsyncReadBuffer.read 1 (some Continuation.readSyncFirst)
      { l.session.async_read_buffer with
        count := 0, read_success_callback := some callback, read_requested_bytes := n } =
      ({ l.session.async_read_buffer with
          count := 1, read_success_callback := some callback, read_requested_bytes := n },
        some .operation_not_permitted) := by
    simp only [AsyncReadBuffer.read, if_pos (show n ≠ 0 by omega)]
    rfl
  refine ⟨{ l.session.async_read_buffer with
    count := 0, read_success_callback := some callback, read_requested_bytes := n }, ?_,
    hidle.pending, hidle.posted, by dsimp only; omega, rfl⟩
  rw [read, readDepth, hread]
  dsimp only
  rw [readFailed, if_pos rfl, readDepth]
  have hbuffer : ∀ b, ((l.countRead).setBuffer b).session.async_read_buffer = b := fun b => rfl
  rw [hbuffer, hagain]
  rfl

/-- A read after what the handlers were given. -/
theorem Consistent.read (ht : l.Tagged oversize clean)
    (hidle : l.session.async_read_buffer.Idle rest) (hstreams : l.Streams rest)
    {callback : Continuation} {n : Nat}
    (hexpected : expected l.handed = (callback, n)) (hsize : oversize ∨ n ≤ buffer_max) :
    (l.read n callback).Consistent oversize clean := by
  have hcount := ht.countRead (Or.inr (not_busy hidle))
  rcases Nat.lt_or_ge buffer_max n with hlong | hshort
  · have hallowed := hsize.resolve_right (Nat.not_le_of_lt hlong)
    obtain ⟨b, heq, hpending, hposted, hrequested, hmem⟩ :=
      read_oversize hidle callback (ht.capacity ▸ hlong)
    rw [heq]
    refine (stop_sameReads _).consistent ⟨?_, rest, hstreams, ?_⟩
    · have hfirst := hcount.setBuffer hidle.pending hidle.posted (hmem.trans ht.capacity)
      exact (hfirst.countRead (Or.inl hallowed)).setBuffer hpending hposted
        (hmem.trans ht.capacity)
    · exact .stuck hallowed hrequested hpending hposted
  · obtain ⟨b, heq, hwants, hmem⟩ := read_eq hidle callback (ht.capacity ▸ hshort)
    rw [heq]
    exact ⟨hcount.setBuffer hidle.pending hidle.posted (hmem.trans ht.capacity), rest, hstreams,
      .wants hwants hexpected hshort⟩

/-- A read while there is a request that was refused.  The fourth one resets the buffer. -/
theorem Consistent.read_stuck (ht : l.Tagged oversize clean) (hoversize : oversize)
    (hrequested : l.session.async_read_buffer.read_requested_bytes ≠ 0)
    (hpending : l.session.async_read_buffer.pending = [])
    (hposted : l.session.async_read_buffer.posted = []) (hstreams : l.Streams [])
    (n : Nat) (callback : Continuation) : (l.read n callback).Consistent oversize clean := by
  have hset : ∀ b : AsyncReadBuffer Continuation, b.mem = l.session.async_read_buffer.mem →
      (l.countRead.setBuffer b).Tagged oversize clean := fun b hmem =>
    (ht.countRead (Or.inl hoversize)).setBuffer hpending hposted (hmem ▸ ht.capacity)
  have hread : l.read n callback =
      (l.countRead.setBuffer (l.session.async_read_buffer.read n (some callback)).1).stop := by
    have herror : (l.session.async_read_buffer.read n (some callback)).2 =
        some .operation_not_permitted := by
      simp only [AsyncReadBuffer.read, if_pos hrequested]
    rw [SerialSession.read, readDepth]
    dsimp only
    rw [herror]
    rfl
  rw [hread]
  refine (stop_sameReads _).consistent ?_
  by_cases hcount : l.session.async_read_buffer.count + 1 > 3
  · have hreset : (l.session.async_read_buffer.read n (some callback)).1 =
        AsyncReadBuffer.reset { l.session.async_read_buffer with
          count := l.session.async_read_buffer.count + 1, read_requested_bytes := 0 } := by
      simp only [AsyncReadBuffer.read, if_pos hrequested, if_pos hcount]
    rw [hreset]
    refine ⟨hset _ rfl, [], hstreams, .idle ⟨⟨?_, Nat.le_refl _, Nat.zero_le _, ?_⟩, rfl, hpending,
      hposted⟩⟩
    · show l.session.async_read_buffer.mem.length < 2 ^ 63
      rw [ht.capacity]
      decide
    · exact slice_zero _ _
  · have hkeep : (l.session.async_read_buffer.read n (some callback)).1 =
        { l.session.async_read_buffer with count := l.session.async_read_buffer.count + 1 } := by
      simp only [AsyncReadBuffer.read, if_pos hrequested, if_neg hcount]
    rw [hkeep]
    exact ⟨hset _ rfl, [], hstreams, .stuck hoversize hrequested hpending hposted⟩

/-- The read of a new frame. -/
theorem Consistent.readSyncHeader (ht : l.Tagged oversize clean)
    (hidle : l.session.async_read_buffer.Idle rest) (hstreams : l.Streams rest)
    (hexpected : expected l.handed = (.readSyncFirst, 1)) :
    l.readSyncHeader.Consistent oversize clean :=
  Consistent.read ht hidle hstreams hexpected (Or.inr (by decide))

end Reads

/-! ## Steps -/

section Steps

variable {oversize clean : Prop} {l : SerialSession} {rest : List UInt8}

/-- The handlers of a header issue the read that follows from its bytes. -/
theorem resume_eq (l : SerialSession) (effects : List Effect) {callback : Continuation}
    (stream : SimpleCdr) (hbody : ∀ topic_id, callback ≠ .readBody topic_id) :
    l.resume effects stream callback =
      l.read (requestAfter stream callback).2 (requestAfter stream callback).1 := by
  cases callback with
  | readSyncFirst =>
    simp only [resume, readSyncFirst, requestAfter]
    split <;> rfl
  | readSyncSecond =>
    simp only [resume, readSyncSecond, requestAfter]
    split <;> rfl
  | readIdLength =>
    simp only [resume, readIdLength, requestAfter]
    split <;> rfl
  | readBody topic_id => exact absurd rfl (hbody topic_id)

/-- So the chain goes on, unless the session has stopped when `read_body` runs. -/
theorem Consistent.resume (ht : l.Tagged oversize clean)
    (hidle : l.session.async_read_buffer.Idle rest) (hstreams : l.Streams rest)
    {callback : Continuation} {stream : SimpleCdr}
    (hexpected : expected l.handed = requestAfter stream callback)
    (hsize : oversize ∨ (requestAfter stream callback).2 ≤ buffer_max) (effects : List Effect) :
    (l.resume effects stream callback).Consistent oversize clean := by
  by_cases hbody : ∀ topic_id, callback ≠ .readBody topic_id
  · rw [resume_eq l effects stream hbody]
    exact Consistent.read ht hidle hstreams hexpected hsize
  · obtain ⟨topic_id, hcallback⟩ := not_forall.mp hbody
    obtain rfl := not_not.mp hcallback
    have hstay : l.Consistent oversize clean := ⟨ht, rest, hstreams, .idle hidle⟩
    have hnext : ∀ l', SameReads l l' → l'.readSyncHeader.Consistent oversize clean := by
      intro l' hsame
      refine Consistent.readSyncHeader (hsame.tagged ht) ?_ (hsame.streams hstreams) ?_
      · rw [hsame.buffer]
        exact hidle
      · rw [hsame.handed, hexpected]
        rfl
    rw [SerialSession.resume, readBody]
    split
    · exact hstay
    · split
      · exact hstay
      · dsimp only
        split
        · exact hnext l (SameReads.refl l)
        · exact hnext _ (lookup_sameReads effects topic_id _ l)

/-- A read whose handler has not run is the one that the chain waits for. -/
theorem Consistent.pending (h : l.Consistent oversize clean) {i : Nat} {op : AsyncRead}
    {issued : PortRead} (hop : l.session.async_read_buffer.pending[i]? = some op)
    (hissued : l.reads[i]? = some issued) :
    i = 0 ∧ l.session.async_read_buffer.pending = [op] ∧ l.reads = [issued] ∧
      l.session.async_read_buffer.posted = [] ∧ ∃ callback n rest,
        l.session.async_read_buffer.Awaits callback n rest ∧ l.Streams rest ∧
          expected l.handed = (callback, n) ∧ n ≤ buffer_max := by
  obtain ⟨ht, rest, hstreams, hphase⟩ := h
  have hsome : l.session.async_read_buffer.pending ≠ [] := by
    intro hnil
    rw [hnil] at hop
    cases hop
  cases hphase with
  | idle h => exact absurd h.pending hsome
  | stuck h hrequested hpending hposted => exact absurd hpending hsome
  | wants h hexpected hn =>
    cases h with
    | delivers h => exact absurd h.pending hsome
    | awaits h =>
      rename_i callback n
      have hreads := ht.reads
      rw [h.pending] at hop hreads
      obtain ⟨only, hreads⟩ := List.length_eq_one_iff.mp hreads
      rw [hreads] at hissued
      have hzero : i = 0 := by
        have hlt := (List.getElem?_eq_some_iff.mp hop).1
        rw [List.length_singleton] at hlt
        omega
      subst hzero
      obtain rfl := Option.some.inj hop
      obtain rfl := Option.some.inj hissued
      exact ⟨rfl, h.pending, hreads, h.posted, callback, n, rest, h, hstreams, hexpected, hn⟩

/-- The pending read, when it is over with these bytes. -/
def finished (bytes : List UInt8) (l : SerialSession) : SerialSession :=
  { l with
    session.async_read_buffer.pending := [], reads := [], arrived := l.arrived ++ bytes }

theorem Tagged.finished (ht : l.Tagged oversize clean) (bytes : List UInt8) :
    (l.finished bytes).Tagged oversize clean :=
  ⟨ht.capacity, rfl, ht.posted, fun _ h => absurd h List.not_mem_nil, ht.postedBy, ht.check,
    ht.overlaps, ht.leftover, ht.follows⟩

theorem Streams.finished (hs : l.Streams rest) (bytes : List UInt8) :
    (l.finished bytes).Streams (rest ++ bytes) := by
  show l.leftover ++ (l.arrived ++ bytes) = l.handed.flatMap Prod.snd ++ (rest ++ bytes)
  rw [← List.append_assoc, hs, List.append_assoc]

/-- The handler of the only pending read. -/
theorem completeRead_eq {op : AsyncRead} {issued : PortRead}
    (hpending : l.session.async_read_buffer.pending = [op]) (hreads : l.reads = [issued])
    (hcurrent : issued.session = l.sessions) {result : Except ErrorCode (List UInt8)}
    {b : AsyncReadBuffer Continuation} {error : Option ErrorCode}
    (hcomplete : l.session.async_read_buffer.complete op result = (b, error)) :
    l.completeRead 0 op issued result =
      error.elim id (readFailed SerialSession.readSyncHeader)
        ((l.finished (result.toOption.getD [])).setBuffer { b with pending := [] }) := by
  have herase : l.session.async_read_buffer.pending.eraseIdx 0 = [] := by rw [hpending]; rfl
  have hreads' : l.reads.eraseIdx 0 = [] := by rw [hreads]; rfl
  simp only [SerialSession.completeRead, hcomplete, herase, hreads', if_pos hcurrent]
  cases error with
  | none => rfl
  | some error => rfl

/-- The handler of a read leaves its bytes to the callback, or ends the chain. -/
theorem Consistent.completeRead (h : l.Consistent oversize clean) {i : Nat} {op : AsyncRead}
    {issued : PortRead} (hop : l.session.async_read_buffer.pending[i]? = some op)
    (hissued : l.reads[i]? = some issued) {result : Except ErrorCode (List UInt8)}
    (hresult : l.Reports op issued result) :
    (l.completeRead i op issued result).Consistent oversize clean := by
  obtain ⟨rfl, hpending, hreads, hposted, callback, n, rest, hawaits, hstreams, hexpected, hn⟩ :=
    h.pending hop hissued
  have hcurrent : issued.session = l.sessions :=
    h.tagged.readsBy issued (by rw [hreads]; exact List.mem_singleton_self issued)
  cases result with
  | error error =>
    obtain ⟨b, hcomplete, hidle, hmem⟩ :=
      hawaits.fail (by rw [hpending]; exact List.mem_singleton_self op) error
    have hover : ((l.finished []).setBuffer b).Consistent oversize clean :=
      ⟨(h.tagged.finished []).setBuffer rfl hposted (hmem.trans h.tagged.capacity), rest ++ [],
        hstreams.finished [], .idle (by rw [List.append_nil]; exact hidle)⟩
    rw [completeRead_eq hpending hreads hcurrent hcomplete,
      show { b with pending := [] } = b by rw [← hidle.pending]]
    split
    · exact hover
    · rw [Option.elim_some, readFailed, if_neg hresult.1]
      exact (stop_sameReads _).consistent hover
  | ok bytes =>
    obtain ⟨-, hlo, hhi⟩ := hresult
    obtain rfl := (List.cons.inj (hpending.symm.trans hawaits.pending)).1
    obtain ⟨b, hcomplete, hdelivers, hmem⟩ :=
      hawaits.complete hlo hhi (by rw [hpending]; exact List.mem_singleton_self _)
    rw [completeRead_eq hpending hreads hcurrent hcomplete,
      show { b with pending := [] } = b by rw [← hdelivers.pending]]
    refine ⟨(h.tagged.finished bytes).setBuffer rfl hposted (hmem.trans h.tagged.capacity), _,
      hstreams.finished bytes, .wants (.of_delivers hdelivers ?_) hexpected hn⟩
    have hshort := hawaits.short
    rw [List.length_append]
    dsimp only at hlo
    omega

/-- A posted callback runs. -/
theorem Consistent.run (h : l.Consistent oversize clean) {callback : Continuation}
    {bytes : List UInt8} {b : AsyncReadBuffer Continuation}
    (hnext : l.session.async_read_buffer.next = some (callback, bytes, b))
    (hsize : oversize ∨ ¬ l.session.ReceivesOversize) (effects : List Effect) :
    ((l.takePosted callback bytes b).resume effects { buffer := bytes, offset := 0 }
      callback).Consistent oversize clean := by
  obtain ⟨ht, rest, hstreams, hphase⟩ := h
  cases hphase with
  | idle h =>
    rw [AsyncReadBuffer.next, h.posted] at hnext
    cases hnext
  | stuck h hrequested hpending hposted =>
    rw [AsyncReadBuffer.next, hposted] at hnext
    cases hnext
  | wants h hexpected hn =>
    have hn32 : buffer_max < 2 ^ 32 := by decide
    obtain ⟨rfl, rfl, hmem, unread, rfl, hidle⟩ := h.next (by omega) hnext
    obtain ⟨hposted, hpending⟩ := AsyncReadBuffer.next_posted hnext
    have htaken : (l.takePosted callback bytes b).Tagged oversize clean := by
      refine ⟨hmem.trans ht.capacity, ?_, ?_, ht.readsBy, ?_, ht.check, ht.overlaps, ht.leftover,
        ht.follows.append hexpected⟩
      · show l.reads.length = b.pending.length
        rw [hpending, ht.reads]
      · show l.posted.tail.length = b.posted.length
        have hlength := ht.posted
        rw [List.length_tail]
        omega
      · exact fun session hsession => ht.postedBy session (List.mem_of_mem_tail hsession)
    have hstreams' : (l.takePosted callback bytes b).Streams unread := by
      show l.leftover ++ l.arrived =
        (l.handed ++ [(callback, bytes)]).flatMap Prod.snd ++ unread
      rw [hstreams, List.flatMap_append, List.append_assoc]
      simp
    refine Consistent.resume htaken hidle hstreams' (expected_append _ _ _) ?_ effects
    refine hsize.imp_right fun hnot => requestAfter_le ?_
    rintro rfl hoversize
    exact hnot ⟨bytes, b, hnext, ht.capacity ▸ hoversize⟩

/-- Where nothing is left of a chain, there is none, or there is a request that was refused. -/
theorem Consistent.phase (h : l.Consistent oversize clean) (hquiet : l.Quiet) :
    (∃ rest, l.session.async_read_buffer.Idle rest) ∨
      oversize ∧ l.session.async_read_buffer.read_requested_bytes ≠ 0 := by
  obtain ⟨-, rest, -, hphase⟩ := h
  cases hphase with
  | idle h => exact Or.inl ⟨rest, h⟩
  | stuck h hrequested hpending hposted => exact Or.inr ⟨h, hrequested⟩
  | wants h hexpected hn =>
    rcases h.progress with ⟨hpending, -, -⟩ | hnext
    · exact absurd hquiet.1 hpending
    · rw [AsyncReadBuffer.next, hquiet.2] at hnext
      cases hnext

/-- The session when it is started, before its first read. -/
theorem Consistent.opened (h : l.Consistent oversize clean) (hquiet : l.Quiet)
    (hclean : clean → l.session.async_read_buffer.offered = []) (hcheck : l.check = none)
    (callbacks : List Nat) :
    Tagged oversize clean { l with
      session := { l.session with active := true, callbacks := callbacks }
      sessions := l.sessions + 1
      leftover := l.session.async_read_buffer.offered, arrived := [], handed := [] } := by
  have hreads := h.tagged.reads_eq_nil hquiet.1
  have hposted := h.tagged.posted_eq_nil hquiet.2
  refine ⟨h.tagged.capacity, h.tagged.reads, h.tagged.posted, ?_, ?_, ?_, h.tagged.overlaps,
    hclean, follows_nil⟩
  · intro issued hissued
    rw [hreads] at hissued
    exact absurd hissued List.not_mem_nil
  · intro session hsession
    rw [hposted] at hsession
    exact absurd hsession List.not_mem_nil
  · intro session hsession
    rw [hcheck] at hsession
    cases hsession

/-- A session that is started while nothing is left of a chain has a new one. -/
theorem Consistent.start (h : l.Consistent oversize clean) (hquiet : l.Quiet)
    (hclean : clean → l.session.async_read_buffer.offered = []) (hcheck : l.check = none) :
    l.start.Consistent oversize clean := by
  have hopened := h.opened hquiet hclean hcheck
  rw [SerialSession.start]
  rcases h.phase hquiet with ⟨rest, hidle⟩ | ⟨hoversize, hrequested⟩
  · have hoffered : l.session.async_read_buffer.offered = rest := by
      rw [AsyncReadBuffer.offered, if_pos hidle.requested]
      exact hidle.holds.unread
    refine @Consistent.readSyncHeader oversize clean _ rest
      ((attemptSync_sameReads _).tagged (hopened _)) ?_ ((attemptSync_sameReads _).streams ?_) ?_
    · rw [(attemptSync_sameReads _).buffer]
      exact hidle
    · show l.session.async_read_buffer.offered ++ [] = [] ++ rest
      rw [List.append_nil, List.nil_append, hoffered]
    · rw [(attemptSync_sameReads _).handed]
      rfl
  · refine Consistent.read_stuck ((attemptSync_sameReads _).tagged (hopened _)) hoversize ?_ ?_ ?_
      ((attemptSync_sameReads _).streams ?_) 1 .readSyncFirst
    · rw [(attemptSync_sameReads _).buffer]
      exact hrequested
    · rw [(attemptSync_sameReads _).buffer]
      exact hquiet.1
    · rw [(attemptSync_sameReads _).buffer]
      exact hquiet.2
    · show l.session.async_read_buffer.offered ++ [] = [] ++ []
      rw [AsyncReadBuffer.offered, if_neg hrequested]

theorem Consistent.setCheck (h : l.Consistent oversize clean) {check : Option Nat}
    (hcheck : ∀ session ∈ check, session = l.sessions) :
    Consistent oversize clean { l with check := check } :=
  ⟨⟨h.tagged.capacity, h.tagged.reads, h.tagged.posted, h.tagged.readsBy, h.tagged.postedBy,
    hcheck, h.tagged.overlaps, h.tagged.leftover, h.tagged.follows⟩, h.stream⟩

/-- `check_connection`, where it starts no session before the chain is over. -/
theorem Consistent.checkConnection (h : l.Consistent oversize clean) {opens : Bool}
    (hquiet : opens = true → l.session.active = false → l.Quiet)
    (hclean : clean → opens = true → l.session.active = false →
      l.session.async_read_buffer.offered = []) :
    (l.checkConnection opens).Consistent oversize clean := by
  have hnone : Consistent oversize clean { l with check := none } :=
    h.setCheck fun session hsession => absurd hsession (Option.not_mem_none session)
  have hconnected : (connect opens { l with check := none }).Consistent oversize clean := by
    rw [connect]
    cases hactive : l.session.active with
    | true => exact hnone
    | false =>
      cases opens with
      | false => exact hnone
      | true =>
        have hstill := hquiet rfl hactive
        have hopen : Consistent oversize clean { l with check := none, port := true } :=
          SameReads.consistent (l := { l with check := none })
            ⟨fun h => absurd (hactive.symm.trans h) Bool.false_ne_true, rfl, rfl, rfl, rfl, rfl,
              rfl, rfl, rfl, rfl, rfl⟩ hnone
        exact hopen.start ⟨hstill.1, hstill.2⟩
          (fun h => hclean h rfl hactive) rfl
  rw [SerialSession.checkConnection, checkAgain]
  split
  · exact hconnected.setCheck fun session hsession => (Option.mem_some.mp hsession).symm
  · exact (shutdown_sameReads _).consistent hconnected

/-- Every step keeps the invariant, if it starts no session before the chain is over. -/
theorem Consistent.step (h : l.Consistent oversize clean) {st : LoopStep}
    (hquiet : st = .check true → l.session.active = false → l.Quiet)
    (hclean : clean → st = .check true → l.session.active = false →
      l.session.async_read_buffer.offered = [])
    (hsize : oversize ∨ ∀ effects, st = .run effects → ¬ l.session.ReceivesOversize) :
    (l.step st).Consistent oversize clean := by
  have hsame : ∀ {l'}, SameReads l l' → l'.Consistent oversize clean := fun hsame =>
    hsame.consistent h
  unfold SerialSession.step
  split
  · exact h
  · cases st with
    | check opens =>
      dsimp only
      split
      · exact h.checkConnection (fun hopens => hquiet (by rw [hopens]))
          fun h hopens => hclean h (by rw [hopens])
      · exact h
    | read i result =>
      dsimp only
      split
      · split
        · exact h.completeRead ‹_› ‹_› ‹_›
        · exact h
      · exact h
    | run effects =>
      dsimp only
      split
      · exact h
      · exact h.run ‹_› (hsize.imp_right fun hsize => hsize effects rfl) effects
    | written i error =>
      dsimp only
      split
      · exact h
      · have hwrites : SameReads l { l with writes := l.writes.eraseIdx i } :=
          ⟨fun h => ⟨h, rfl⟩, rfl, rfl, rfl, rfl, rfl, rfl, rfl, rfl, rfl, rfl⟩
        split
        · exact hsame (hwrites.trans (stop_sameReads _))
        · exact hsame hwrites
    | expire i =>
      dsimp only
      split
      · exact h
      · split
        · exact hsame ⟨fun h => ⟨h, rfl⟩, rfl, rfl, rfl, rfl, rfl, rfl, rfl, rfl, rfl, rfl⟩
        · exact h
    | timeout i =>
      dsimp only
      split
      · exact h
      · split
        · exact h
        · have hwaits : SameReads l { l with waits := l.waits.eraseIdx i } :=
            ⟨fun h => ⟨h, rfl⟩, rfl, rfl, rfl, rfl, rfl, rfl, rfl, rfl, rfl, rfl⟩
          rw [syncTimeout]
          split
          · exact hsame (hwaits.trans (stop_sameReads _))
          · exact hsame hwaits
    | send message topic_id => exact hsame (writeMessage_sameReads message topic_id l)
    | interrupt => exact hsame ⟨fun h => ⟨h, rfl⟩, rfl, rfl, rfl, rfl, rfl, rfl, rfl, rfl, rfl, rfl⟩

end Steps

/-- A new session has no chain. -/
theorem new_consistent {oversize clean : Prop} {threshold : Int} {ok : Bool} {l : SerialSession}
    (h : SerialSession.new threshold ok = some l) : l.Consistent oversize clean := by
  rw [SerialSession.new, Session.new] at h
  simp only [Option.map_eq_some_iff] at h
  obtain ⟨s, ⟨b, hb, rfl⟩, rfl⟩ := h
  obtain ⟨hidle, hmem⟩ := AsyncReadBuffer.new_idle hb
  refine ⟨⟨hmem, ?_, ?_, ?_, ?_, ?_, Or.inr rfl, fun _ => rfl, follows_nil⟩, [], rfl,
    .idle hidle⟩
  · exact (congrArg List.length hidle.pending).symm
  · exact (congrArg List.length hidle.posted).symm
  · exact fun issued hissued => absurd hissued List.not_mem_nil
  · exact fun session hsession => absurd hsession List.not_mem_nil
  · exact fun session hsession => (Option.mem_some.mp hsession).symm

end SerialSession

end Ros2Serial.Host
