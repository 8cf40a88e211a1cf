import Ros2Serial.Lib.Runs
import Ros2Serial.Wire.Frame

/-!
# The write thread of the Python client

Other threads put items on `write_queue`: `send` a topic id with a message,
`requestTopics` and `txStopRequest` the bytes of a frame.  `processWriteQueue`
takes them one after the other, and tries each until it is written or dropped.
The read loop of `run` goes on only while the write thread is alive.

Each step of the model is one call of `send`, `requestTopics`, `txStopRequest`
or `setSubscribeSize`, a shutdown of the node, one round of the outer loop of
`processWriteQueue`, or one of its inner loop, in which the port does what it
likes (`PortWrite`).  Threads interleave in any order of such steps.

`survives_iff` says in which runs the write thread handles every item: a message
that exceeds `buffer_in` ends it, since the text of the error names a variable
that is not there, and a length or a topic id above 32767 ends it, since both
are packed as signed numbers.  `handled_all` is its progress.
-/

namespace Ros2Serial.Client

open Bytes Runs

/-! ## Items and exceptions -/

/-- What stands on `write_queue`. -/
inductive Item
  | message (topic : UInt16) (msg : List UInt8)
  | raw (data : List UInt8)
  deriving DecidableEq, Repr

/-- What the write thread can raise; `other` is everything that has no `except` clause and is
not raised in `_send` itself. -/
inductive PyException
  | nameError
  | structError
  | serialTimeoutException
  | runtimeError
  | other
  deriving DecidableEq, Repr

/-- What a call of `port.write` does: it takes everything, or returns although it took nothing, as
`RosSerialServer` does without a connection, or raises after it took the first `sent` bytes. -/
inductive PortWrite
  | returns
  | ignores
  | raises (sent : Nat) (exc : PyException)
  deriving DecidableEq, Repr

/-! ## `_send` -/

/-- `struct.pack('<h', n)`. -/
def packShort (n : Int) : Except PyException (List UInt8) :=
  if -32768 ≤ n ∧ n ≤ 32767 then
    .ok [Wire.lo (n % 65536).toNat, Wire.hi (n % 65536).toNat]
  else
    .error .structError

/-- `header` and `protocol_ver`. -/
def sync : List UInt8 := [0xff, 0xfe]

/-- `_send`, up to the bytes that it gives to `_write`. -/
def _send (buffer_in : Int) (topic : UInt16) (msg_bytes : List UInt8) :
    Except PyException (List UInt8) :=
  let length : Int := msg_bytes.length
  if buffer_in > 0 ∧ length > buffer_in then
    -- the text of the error is formatted with `msg`, which no scope defines
    .error .nameError
  else do
    let length_bytes ← packShort length
    let length_checksum := 255 - byteSum length_bytes % 256
    let topic_bytes ← packShort topic.toNat
    let msg_checksum := 255 - byteSum (topic_bytes ++ msg_bytes) % 256
    .ok (sync ++ length_bytes ++ [UInt8.ofNat length_checksum] ++ topic_bytes ++ msg_bytes ++
      [UInt8.ofNat msg_checksum])

/-- What `processWriteQueue` gives to `_write` for an item. -/
def Item.toWrite (buffer_in : Int) : Item → Except PyException (List UInt8)
  | message topic msg => _send buffer_in topic msg
  | raw data => .ok data

/-! ## The client -/

/-- Where the write thread stands: at the head of its outer loop, in the inner loop with an
item, or at its end. -/
inductive WriteThread
  | waiting
  | holding (data : Item)
  | returned
  | raised (exc : PyException)
  deriving DecidableEq, Repr

/-- What became of an item. -/
inductive Handling
  | written
  | dropped
  deriving DecidableEq, Repr

/-- The part of a client that sends. -/
structure SerialClient where
  write_queue : List Item
  write_thread : WriteThread
  buffer_in : Int
  is_shutdown : Bool
  /-- Everything that was ever put on the queue. -/
  put : List Item
  /-- The items that the write thread is done with. -/
  handled : List (Item × Handling)
  /-- The bytes that the port took. -/
  stream : List UInt8
  deriving DecidableEq, Repr

namespace SerialClient

/-- `write_queue.put`. -/
def enqueue (data : Item) (s : SerialClient) : SerialClient :=
  { s with write_queue := s.write_queue ++ [data], put := s.put ++ [data] }

def send (topic : UInt16) (msg : List UInt8) : SerialClient → SerialClient :=
  enqueue (.message topic msg)

def requestTopics : SerialClient → SerialClient :=
  enqueue (.raw (sync ++ [0x00, 0x00, 0xff, 0x00, 0x00, 0xff]))

def txStopRequest : SerialClient → SerialClient :=
  enqueue (.raw (sync ++ [0x00, 0x00, 0xff, 0x0b, 0x00, 0xf4]))

/-- The first size that is not negative stays. -/
def setSubscribeSize (size : Int) (s : SerialClient) : SerialClient :=
  if s.buffer_in < 0 then { s with buffer_in := size } else s

/-- A client that `__init__` leaves, with the write thread that `run` launches. -/
def start : SerialClient :=
  requestTopics
    { write_queue := []
      write_thread := .waiting
      buffer_in := -1
      is_shutdown := false
      put := []
      handled := []
      stream := [] }

def isAlive (s : SerialClient) : Bool :=
  match s.write_thread with
  | .waiting | .holding _ => true
  | .returned | .raised _ => false

/-- The condition of the loop in `run`. -/
def runGuard (s : SerialClient) : Bool := s.isAlive && !s.is_shutdown

/-! ## `processWriteQueue` -/

/-- A round of the outer loop, up to the inner one. -/
def outerLoop (s : SerialClient) : SerialClient :=
  match s.write_thread with
  | .waiting =>
    if s.is_shutdown then
      { s with write_thread := .returned }
    else
      match s.write_queue with
      | [] => s
      | data :: rest => { s with write_thread := .holding data, write_queue := rest }
  | _ => s

/-- The `break` of the inner loop. -/
def done (data : Item) (how : Handling) (s : SerialClient) : SerialClient :=
  { s with write_thread := .waiting, handled := s.handled ++ [(data, how)] }

/-- The `except` clauses of the inner loop. -/
def except (data : Item) (exc : PyException) (s : SerialClient) : SerialClient :=
  match exc with
  | .serialTimeoutException => s
  | .runtimeError => s.done data .dropped
  | exc => { s with write_thread := .raised exc }

/-- The port takes bytes. -/
def take (bytes : List UInt8) (s : SerialClient) : SerialClient :=
  { s with stream := s.stream ++ bytes }

/-- A round of the inner loop. -/
def innerLoop (port : PortWrite) (s : SerialClient) : SerialClient :=
  match s.write_thread with
  | .holding data =>
    match data.toWrite s.buffer_in with
    | .error exc => s.except data exc
    | .ok bytes =>
      match port with
      | .returns => (s.take bytes).done data .written
      | .ignores => s.done data .written
      | .raises sent exc => (s.take (bytes.take sent)).except data exc
  | _ => s

end SerialClient

/-- What can happen next, in one of the threads. -/
inductive ClientStep
  | send (topic : UInt16) (msg : List UInt8)
  | requestTopics
  | txStopRequest
  | setSubscribeSize (size : Int)
  | shutdown
  | outerLoop
  | innerLoop (port : PortWrite)
  deriving DecidableEq, Repr

def SerialClient.step (s : SerialClient) : ClientStep → SerialClient
  | .send topic msg => s.send topic msg
  | .requestTopics => s.requestTopics
  | .txStopRequest => s.txStopRequest
  | .setSubscribeSize size => s.setSubscribeSize size
  | .shutdown => { s with is_shutdown := true }
  | .outerLoop => s.outerLoop
  | .innerLoop port => s.innerLoop port

/-! ## Which items `_send` encodes -/

namespace Item

/-- The bytes of an item on the wire. -/
def wire : Item → List UInt8
  | message topic msg => Wire.encode topic.toNat msg
  | raw data => data

/-- The items that `_send` can encode: the size check passes, and both numbers fit in 16 bits
with a sign. -/
def Sendable (buffer_in : Int) : Item → Prop
  | message topic msg =>
    ¬(buffer_in > 0 ∧ msg.length > buffer_in) ∧ msg.length ≤ 32767 ∧ topic.toNat ≤ 32767
  | raw _ => True

instance (buffer_in : Int) : (data : Item) → Decidable (data.Sendable buffer_in)
  | message _ _ => inferInstanceAs (Decidable (_ ∧ _ ∧ _))
  | raw _ => inferInstanceAs (Decidable True)

end Item

theorem packShort_natCast {n : Nat} (h : n ≤ 32767) :
    packShort n = .ok [Wire.lo n, Wire.hi n] := by
  have hmod : ((n : Int) % 65536).toNat = n := by omega
  rw [packShort, if_pos ⟨by omega, by omega⟩, hmod]

theorem packShort_of_gt {n : Nat} (h : 32767 < n) : packShort n = .error .structError := by
  rw [packShort, if_neg (by omega)]

/-- An item that can be encoded is written as one frame. -/
theorem toWrite_of_sendable {buffer_in : Int} {data : Item} (h : data.Sendable buffer_in) :
    data.toWrite buffer_in = .ok data.wire := by
  cases data with
  | raw data => rfl
  | message topic msg =>
    obtain ⟨hsize, hlength, htopic⟩ := h
    show _send buffer_in topic msg = _
    rw [_send, if_neg hsize, packShort_natCast hlength, packShort_natCast htopic]
    simp [bind, Except.bind, sync, Item.wire, Wire.encode, Wire.header, Wire.lengthChecksum,
      Wire.messageChecksum, Wire.complement, byteSum, Nat.add_assoc]

/-- The others raise, and what they raise has no `except` clause. -/
theorem toWrite_of_not_sendable {buffer_in : Int} {data : Item}
    (h : ¬data.Sendable buffer_in) :
    data.toWrite buffer_in = .error .nameError ∨
      data.toWrite buffer_in = .error .structError := by
  cases data with
  | raw data => exact absurd trivial h
  | message topic msg =>
    show _send buffer_in topic msg = _ ∨ _send buffer_in topic msg = _
    rw [_send]
    by_cases hsize : buffer_in > 0 ∧ (msg.length : Int) > buffer_in
    · rw [if_pos hsize]
      exact Or.inl rfl
    · rw [if_neg hsize]
      right
      by_cases hlength : msg.length ≤ 32767
      · have htopic : 32767 < topic.toNat := by
          by_contra hle
          exact h ⟨hsize, hlength, by omega⟩
        rw [packShort_natCast hlength, packShort_of_gt htopic]
        rfl
      · rw [packShort_of_gt (by omega)]
        rfl

/-! ## One step -/

/-- A write that keeps what is on the wire in whole frames, and that `processWriteQueue` can
deal with: one that returns took everything, and a failed one took nothing, and raises one of the
two exceptions with a clause. -/
def PortWrite.Harmless (bytes : List UInt8) : PortWrite → Prop
  | returns => True
  | ignores => bytes = []
  | raises sent exc =>
    bytes.take sent = [] ∧ (exc = .serialTimeoutException ∨ exc = .runtimeError)

instance (bytes : List UInt8) : (port : PortWrite) → Decidable (port.Harmless bytes)
  | .returns => inferInstanceAs (Decidable True)
  | .ignores => inferInstanceAs (Decidable (_ = _))
  | .raises _ _ => inferInstanceAs (Decidable (_ ∧ _))

namespace SerialClient

/-- The items that are not dealt with. -/
def pending (s : SerialClient) : List Item :=
  match s.write_thread with
  | .holding data => data :: s.write_queue
  | _ => s.write_queue

/-- The items that were written, in order. -/
def written (s : SerialClient) : List Item :=
  (s.handled.filter fun entry => entry.2 = .written).map Prod.fst

/-- The write thread deals with every item in order: nothing that it met has ended it, every
item is dealt with or still to come, and on the wire is each item that was written, once. -/
structure Survives (s : SerialClient) : Prop where
  not_raised : ∀ exc, s.write_thread ≠ .raised exc
  running : s.is_shutdown = false → s.runGuard = true
  in_order : s.handled.map Prod.fst ++ s.pending = s.put
  stream_eq : s.stream = s.written.flatMap Item.wire

/-- A step other than the attempt to write an item that cannot be encoded, or to a port that
fails in another way than the two that are provided for. -/
def Handles (s : SerialClient) : ClientStep → Prop
  | .innerLoop port =>
    match s.write_thread with
    | .holding data => data.Sendable s.buffer_in ∧ port.Harmless data.wire
    | _ => True
  | _ => True

variable {s : SerialClient}

theorem Survives.enqueue (h : s.Survives) (data : Item) : (s.enqueue data).Survives where
  not_raised := h.not_raised
  running := h.running
  in_order := by
    have hpending : (s.enqueue data).pending = s.pending ++ [data] := by
      cases hthread : s.write_thread <;> simp [pending, SerialClient.enqueue, hthread]
    show s.handled.map Prod.fst ++ (s.enqueue data).pending = s.put ++ [data]
    rw [hpending, ← List.append_assoc, h.in_order]
  stream_eq := h.stream_eq

theorem Survives.setSubscribeSize (h : s.Survives) (size : Int) :
    (s.setSubscribeSize size).Survives := by
  rw [SerialClient.setSubscribeSize]
  split
  · exact ⟨h.not_raised, h.running, h.in_order, h.stream_eq⟩
  · exact h

theorem Survives.shutdown (h : s.Survives) : { s with is_shutdown := true }.Survives where
  not_raised := h.not_raised
  running := fun hoff => absurd hoff Bool.true_eq_false.mp
  in_order := h.in_order
  stream_eq := h.stream_eq

/-- The outer loop ends at a shutdown only. -/
theorem Survives.outerLoop (h : s.Survives) : s.outerLoop.Survives := by
  rw [SerialClient.outerLoop]
  split
  next hthread =>
    have horder : s.handled.map Prod.fst ++ s.write_queue = s.put := by
      have := h.in_order
      rwa [pending, hthread] at this
    split
    next hdown =>
      refine ⟨by simp, ?_, horder, h.stream_eq⟩
      intro hup
      rw [hdown] at hup
      cases hup
    next hup =>
      split
      next => exact h
      next data rest hqueue =>
        refine ⟨by simp, ?_, ?_, h.stream_eq⟩
        · intro hoff
          have hon : s.is_shutdown = false := hoff
          simp [runGuard, isAlive, hon]
        · show s.handled.map Prod.fst ++ (data :: rest) = s.put
          rw [← hqueue, horder]
  next => exact h

theorem written_done (data : Item) (how : Handling) (s : SerialClient) :
    (s.done data how).written = s.written ++ if how = .written then [data] else [] := by
  cases how <;> simp [written, SerialClient.done]

/-- An item leaves the inner loop. -/
theorem Survives.done {data : Item} {how : Handling} {bytes : List UInt8} (h : s.Survives)
    (hthread : s.write_thread = .holding data)
    (hbytes : bytes = if how = .written then data.wire else []) :
    ((s.take bytes).done data how).Survives where
  not_raised := by simp [SerialClient.done]
  running := by
    intro hoff
    have hup : s.is_shutdown = false := hoff
    simp [runGuard, isAlive, SerialClient.done, SerialClient.take, hup]
  in_order := by
    have horder := h.in_order
    rw [pending, hthread] at horder
    show (s.handled ++ [(data, how)]).map Prod.fst ++ s.write_queue = s.put
    rw [← horder]
    simp
  stream_eq := by
    rw [written_done]
    show s.stream ++ bytes = (s.written ++ _).flatMap Item.wire
    rw [hbytes, h.stream_eq, List.flatMap_append]
    cases how <;> simp

theorem take_nil (s : SerialClient) : s.take [] = s := by
  simp [take]

/-- After a failed write the thread goes on if the exception has a clause, and what it wrote is
whole if it wrote nothing. -/
theorem survives_except_iff {data : Item} {bytes : List UInt8} {exc : PyException}
    (h : s.Survives) (hthread : s.write_thread = .holding data) :
    ((s.take bytes).except data exc).Survives ↔
      bytes = [] ∧ (exc = .serialTimeoutException ∨ exc = .runtimeError) := by
  have hwhole : ∀ s' : SerialClient, s'.Survives → s'.stream = s.stream ++ bytes →
      s'.written = s.written → bytes = [] := by
    intro s' h' hstream hwritten
    have heq := h'.stream_eq
    rw [hstream, hwritten, ← h.stream_eq] at heq
    exact List.append_right_eq_self.mp heq
  constructor
  · intro hafter
    cases exc with
    | serialTimeoutException => exact ⟨hwhole _ hafter rfl rfl, Or.inl rfl⟩
    | runtimeError =>
      refine ⟨hwhole _ hafter rfl ?_, Or.inr rfl⟩
      show ((s.take bytes).done data .dropped).written = _
      rw [written_done]
      exact List.append_nil _
    | nameError => exact absurd rfl (hafter.not_raised .nameError)
    | structError => exact absurd rfl (hafter.not_raised .structError)
    | other => exact absurd rfl (hafter.not_raised .other)
  · intro ⟨hbytes, hexc⟩
    rcases hexc with hexc | hexc
    · rw [hexc, hbytes, take_nil]
      exact h
    · rw [hexc]
      exact h.done hthread hbytes

/-- An item that the port has ignored counts as written, and is not on the wire. -/
theorem survives_ignored_iff {data : Item} (h : s.Survives)
    (hthread : s.write_thread = .holding data) :
    (s.done data .written).Survives ↔ data.wire = [] := by
  constructor
  · intro hafter
    have hwritten : (s.done data .written).written = s.written ++ [data] := by
      rw [written_done, if_pos rfl]
    have hstream : s.stream = (s.done data .written).written.flatMap Item.wire := hafter.stream_eq
    rw [hwritten] at hstream
    rw [List.flatMap_append, ← h.stream_eq, List.flatMap_singleton] at hstream
    exact List.append_right_eq_self.mp hstream.symm
  · intro hempty
    have hdone : ((s.take []).done data .written).Survives :=
      h.done hthread (by rw [if_pos rfl, hempty])
    rwa [take_nil] at hdone

/-- The inner loop keeps the thread alive if and only if the item can be encoded and the port
takes it, or fails in a way that is provided for. -/
theorem survives_innerLoop_iff {data : Item} {port : PortWrite} (h : s.Survives)
    (hthread : s.write_thread = .holding data) :
    (s.innerLoop port).Survives ↔ data.Sendable s.buffer_in ∧ port.Harmless data.wire := by
  by_cases hsend : data.Sendable s.buffer_in
  · simp only [hsend, true_and]
    rw [innerLoop, hthread]
    simp only [toWrite_of_sendable hsend]
    cases port with
    | returns => exact iff_of_true (h.done hthread rfl) trivial
    | ignores => exact survives_ignored_iff h hthread
    | raises sent exc => exact survives_except_iff h hthread
  · refine iff_of_false ?_ fun hboth => hsend hboth.1
    intro hafter
    rw [innerLoop, hthread] at hafter
    rcases toWrite_of_not_sendable hsend with herr | herr
    · simp only [herr] at hafter
      exact hafter.not_raised .nameError rfl
    · simp only [herr] at hafter
      exact hafter.not_raised .structError rfl

/-- What one step does to a client whose write thread is alive. -/
theorem survives_step_iff (h : s.Survives) (a : ClientStep) :
    (s.step a).Survives ↔ s.Handles a := by
  cases a with
  | send topic msg => exact iff_of_true (h.enqueue _) trivial
  | requestTopics => exact iff_of_true (h.enqueue _) trivial
  | txStopRequest => exact iff_of_true (h.enqueue _) trivial
  | setSubscribeSize size => exact iff_of_true (h.setSubscribeSize size) trivial
  | shutdown => exact iff_of_true h.shutdown trivial
  | outerLoop => exact iff_of_true h.outerLoop trivial
  | innerLoop port =>
    show (s.innerLoop port).Survives ↔ _
    cases hthread : s.write_thread with
    | holding data =>
      rw [survives_innerLoop_iff h hthread, Handles, hthread]
    | waiting => simp [innerLoop, Handles, hthread, h]
    | returned => simp [innerLoop, Handles, hthread, h]
    | raised exc => exact absurd hthread (h.not_raised exc)

theorem survives_start : start.Survives where
  not_raised := fun _ h => nomatch h
  running := fun _ => rfl
  in_order := rfl
  stream_eq := rfl

/-! ## Whole runs -/

/-- Rounds of both loops, with a port that takes everything. -/
def rounds : Nat → List ClientStep
  | 0 => []
  | n + 1 => .outerLoop :: .innerLoop .returns :: rounds n

theorem innerLoop_returns {data : Item} (hthread : s.write_thread = .holding data)
    (hsend : data.Sendable s.buffer_in) :
    s.innerLoop .returns = (s.take data.wire).done data .written := by
  rw [innerLoop, hthread]
  simp only [toWrite_of_sendable hsend]

/-- A round of both loops writes an item. -/
theorem round_eq {data : Item} {rest : List Item} (hthread : s.write_thread = .waiting)
    (hup : s.is_shutdown = false) (hqueue : s.write_queue = data :: rest)
    (hsend : data.Sendable s.buffer_in) :
    s.outerLoop.innerLoop .returns =
      { (s.take data.wire).done data .written with write_queue := rest } := by
  have houter : s.outerLoop = { s with write_thread := .holding data, write_queue := rest } := by
    simp [SerialClient.outerLoop, hthread, hup, hqueue]
  rw [houter]
  exact innerLoop_returns rfl hsend

/-- The write thread writes everything that is on the queue. -/
theorem run_rounds {items : List Item} (hthread : s.write_thread = .waiting)
    (hup : s.is_shutdown = false) (hqueue : s.write_queue = items)
    (hsend : ∀ item ∈ items, item.Sendable s.buffer_in) :
    (run step s (rounds items.length)).pending = [] ∧
      (run step s (rounds items.length)).handled =
        s.handled ++ items.map fun item => (item, .written) := by
  induction items generalizing s with
  | nil =>
    refine ⟨?_, (List.append_nil _).symm⟩
    show s.pending = []
    rw [pending, hthread]
    exact hqueue
  | cons data rest ih =>
    have hround := round_eq hthread hup hqueue (hsend data (List.mem_cons_self ..))
    have hmore := ih (s := s.outerLoop.innerLoop .returns) (by rw [hround]; rfl)
      (by rw [hround]; exact hup) (by rw [hround])
      (by rw [hround]; exact fun item hitem => hsend item (List.mem_cons_of_mem _ hitem))
    refine ⟨hmore.1, ?_⟩
    show (run step (s.outerLoop.innerLoop .returns) (rounds rest.length)).handled = _
    rw [hmore.2, hround]
    simp [SerialClient.done, SerialClient.take]

/-- A write thread that is alive, with items to come that can all be encoded, and a port that
works: they are written, in order. -/
theorem handled_all (h : s.Survives) (hup : s.is_shutdown = false)
    (hsend : ∀ item ∈ s.pending, item.Sendable s.buffer_in) :
    (run step s (.innerLoop .returns :: rounds s.write_queue.length)).pending = [] ∧
      (run step s (.innerLoop .returns :: rounds s.write_queue.length)).handled =
        s.handled ++ s.pending.map fun item => (item, .written) := by
  show (run step (s.innerLoop .returns) (rounds s.write_queue.length)).pending = [] ∧
    (run step (s.innerLoop .returns) (rounds s.write_queue.length)).handled = _
  cases hthread : s.write_thread with
  | waiting =>
    have hinner : s.innerLoop .returns = s := by rw [innerLoop, hthread]
    have hpending : s.pending = s.write_queue := by rw [pending, hthread]
    rw [hpending] at hsend ⊢
    rw [hinner]
    exact run_rounds hthread hup rfl hsend
  | holding data =>
    have hpending : s.pending = data :: s.write_queue := by rw [pending, hthread]
    rw [hpending] at hsend ⊢
    have hinner := innerLoop_returns hthread (hsend data (List.mem_cons_self ..))
    have hqueue : (s.innerLoop .returns).write_queue = s.write_queue := by rw [hinner]; rfl
    have hmore := run_rounds (by rw [hinner]; rfl) (by rw [hinner]; exact hup) hqueue
      (by rw [hinner]; exact fun item hitem => hsend item (List.mem_cons_of_mem _ hitem))
    refine ⟨hmore.1, ?_⟩
    rw [hmore.2, hinner]
    simp [SerialClient.done, SerialClient.take]
  | returned =>
    have halive := h.running hup
    simp [runGuard, isAlive, hthread] at halive
  | raised exc => exact absurd hthread (h.not_raised exc)

/-- The runs in which the write thread survives: whenever it tries to write an item, the item
can be encoded, and the port takes it or fails in a way that is provided for.  After such a
run, what is still to come is written as well, if it can be encoded and the port works. -/
theorem survives_iff (steps : List ClientStep) :
    (Always step Survives start steps ↔ Throughout step Handles start steps) ∧
      (Throughout step Handles start steps →
        (run step start steps).is_shutdown = false →
        (∀ item ∈ (run step start steps).pending,
          item.Sendable (run step start steps).buffer_in) →
        (run step start (steps ++ .innerLoop .returns ::
          rounds (run step start steps).write_queue.length)).pending = []) := by
  have hiff : Always step Survives start steps ↔ Throughout step Handles start steps :=
    always_iff_throughout (I := fun _ => True) trivial (fun _ _ _ => trivial) survives_start
      fun _ a _ h => survives_step_iff h a
  refine ⟨hiff, ?_⟩
  intro hthrough hup hsend
  rw [run_append]
  exact (handled_all (hiff.mpr hthrough).last hup hsend).1

/-- A port that takes everything, and a message longer than the buffer size that the device
has announced, or one with a topic id above 32767: the write thread ends, and `run` with
it. -/
theorem oversize_not_survives :
    (run step start [.outerLoop, .innerLoop .returns, .setSubscribeSize 2, .send 101 [1, 2, 3],
        .outerLoop, .innerLoop .returns]).write_thread = .raised .nameError ∧
      (run step start [.outerLoop, .innerLoop .returns, .setSubscribeSize 2,
        .send 101 [1, 2, 3], .outerLoop, .innerLoop .returns]).runGuard = false ∧
      (run step start [.outerLoop, .innerLoop .returns, .send 40000 [],
        .outerLoop, .innerLoop .returns]).write_thread = .raised .structError ∧
      ¬∀ steps : List ClientStep, (∀ port, .innerLoop port ∈ steps → port = .returns) →
        Always step Survives start steps := by
  refine ⟨by decide, by decide, by decide, ?_⟩
  intro hall
  have hrun := hall [.outerLoop, .innerLoop .returns, .send 40000 [], .outerLoop,
    .innerLoop .returns] (by simp)
  exact hrun.last.not_raised .structError (by decide)

end SerialClient

end Ros2Serial.Client
