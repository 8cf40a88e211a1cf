import Ros2Serial.Lib.Bytes

/-!
# `AsyncReadBuffer`

The read buffer of the host (`async_read_buffer.h`), and that it is a queue:
each callback gets the next bytes of the stream, however the stream is cut
into completed reads.

* `pending` holds the `async_read`s that Asio works on, and `posted` the
  callbacks that wait in the queue of the `io_service`.  A posted callback
  comes with a `SimpleCdr`, which is a pointer into `mem_`; its bytes are those
  that are there when the callback runs.
* An error of `read` or of Asio goes to `error_callback_`, as the last thing
  that the function does.  The functions return it.
* `size_t` has 64 bits.  A subtraction wraps, and `signed_size_t` reads the
  result as a signed number.  The length of a `SimpleCdr` has 32 bits.

A buffer is idle, or it waits for Asio, or it has a callback to run.  `Idle`,
`Awaits` and `Delivers` say what the unread bytes are in each of these states,
and there is one lemma for each way from one to the next.  `Wants` is either of
the last two: a callback that gets its bytes sooner or later.
-/

namespace Ros2Serial.Host

open Bytes

/-! ## The buffer -/

/-- The error codes that the code distinguishes. -/
inductive ErrorCode
  | operation_not_permitted
  | invalid_argument
  | no_buffer_space
  | operation_aborted
  | other (code : Nat)
  deriving DecidableEq, Repr

/-- An `async_read` into `mem_` from `start`, of at most `headroom` bytes. -/
structure AsyncRead where
  start : Nat
  headroom : Nat
  transferAtLeast : Nat
  deriving DecidableEq, Repr

/-- A callback with the `SimpleCdr` that it is bound to. -/
structure Posted (κ : Type) where
  callback : κ
  start : Nat
  size : Nat
  deriving DecidableEq, Repr

structure AsyncReadBuffer (κ : Type) where
  mem : List UInt8
  write_index : Nat
  read_index : Nat
  read_success_callback : Option κ
  read_requested_bytes : Nat
  /-- The static variable of `read`. -/
  count : Nat
  pending : List AsyncRead
  posted : List (Posted κ)
  deriving DecidableEq, Repr

variable {κ : Type}

/-- The constructor.  `mem_.resize` throws for more than a vector can hold. -/
def AsyncReadBuffer.new (κ : Type) (capacity : Nat) : Option (AsyncReadBuffer κ) :=
  if capacity < 2 ^ 63 then
    some { mem := List.replicate capacity 0, write_index := 0, read_index := 0
           read_success_callback := none, read_requested_bytes := 0, count := 0
           pending := [], posted := [] }
  else none

/-- `a - b` for `size_t`. -/
def sizeSub (a b : Nat) : Nat := (a + (2 ^ 64 - b)) % 2 ^ 64

/-- A `size_t` as a `signed_size_t`. -/
def toSigned (n : Nat) : Int := if n < 2 ^ 63 then n else n - 2 ^ 64

namespace AsyncReadBuffer

def reset (b : AsyncReadBuffer κ) : AsyncReadBuffer κ := { b with read_index := 0, write_index := 0 }

def bytesAvailable (b : AsyncReadBuffer κ) : Nat := sizeSub b.write_index b.read_index

def bytesHeadroom (b : AsyncReadBuffer κ) : Nat := sizeSub b.mem.length b.write_index

/-- `callSuccessCallback`. -/
def callSuccessCallback (b : AsyncReadBuffer κ) : AsyncReadBuffer κ :=
  let posted := b.read_success_callback.map fun callback =>
    { callback := callback, start := b.read_index, size := b.read_requested_bytes % 2 ^ 32 }
  let b := { b with
    read_index := b.read_index + b.read_requested_bytes
    posted := b.posted ++ posted.toList
    read_requested_bytes := 0
    read_success_callback := none }
  if b.bytesAvailable = 0 then b.reset else b

/-- "If we don't have enough headroom in the buffer, we'll have to shift what's
currently in there to make room." -/
def makeRoom (transfer_bytes : Nat) (b : AsyncReadBuffer κ) : AsyncReadBuffer κ :=
  if b.bytesHeadroom < transfer_bytes then
    { b with
      mem := overwrite b.mem 0 (slice b.mem b.read_index b.bytesAvailable)
      write_index := b.bytesAvailable
      read_index := 0 }
  else b

/-- `read`. -/
def read (requested_bytes : Nat) (callback : Option κ) (b : AsyncReadBuffer κ) :
    AsyncReadBuffer κ × Option ErrorCode :=
  if b.read_requested_bytes ≠ 0 then
    let b := { b with count := b.count + 1 }
    let b := if b.count > 3 then reset { b with read_requested_bytes := 0 } else b
    (b, some .operation_not_permitted)
  else if callback.isNone then (b, some .invalid_argument)
  else
    let b := { b with
      count := 0, read_success_callback := callback, read_requested_bytes := requested_bytes }
    if b.read_requested_bytes > b.mem.length then (b, some .no_buffer_space)
    else
      let transfer_bytes := toSigned (sizeSub b.read_requested_bytes b.bytesAvailable)
      if transfer_bytes > 0 then
        let b := b.makeRoom transfer_bytes.toNat
        let op : AsyncRead :=
          { start := b.write_index, headroom := b.bytesHeadroom
            transferAtLeast := transfer_bytes.toNat }
        ({ b with pending := b.pending ++ [op] }, none)
      else (b.callSuccessCallback, none)

/-- `callback`, which Asio calls when the pending read is done: with the bytes
that it has put into `mem_`, or with an error. -/
def complete (op : AsyncRead) (result : Except ErrorCode (List UInt8)) (b : AsyncReadBuffer κ) :
    AsyncReadBuffer κ × Option ErrorCode :=
  let b := { b with pending := b.pending.erase op }
  match result with
  | .error error =>
    ({ b with read_requested_bytes := 0, read_success_callback := none },
      if error = .operation_aborted then none else some error)
  | .ok bytes =>
    let b := { b with
      mem := overwrite b.mem op.start bytes, write_index := b.write_index + bytes.length }
    (b.callSuccessCallback, none)

/-- The next posted callback leaves the queue, with the bytes of its stream. -/
def next (b : AsyncReadBuffer κ) : Option (κ × List UInt8 × AsyncReadBuffer κ) :=
  match b.posted with
  | [] => none
  | p :: rest => some (p.callback, slice b.mem p.start p.size, { b with posted := rest })

/-! ## What the functions keep -/

/-- Making room moves bytes and indices only. -/
theorem makeRoom_keeps (n : Nat) (b : AsyncReadBuffer κ) :
    (b.makeRoom n).read_requested_bytes = b.read_requested_bytes ∧
      (b.makeRoom n).read_success_callback = b.read_success_callback ∧
      (b.makeRoom n).posted = b.posted ∧ (b.makeRoom n).pending = b.pending := by
  unfold makeRoom
  split
  · exact ⟨rfl, rfl, rfl, rfl⟩
  · exact ⟨rfl, rfl, rfl, rfl⟩

theorem le_makeRoom_mem (n : Nat) (b : AsyncReadBuffer κ) :
    b.mem.length ≤ (b.makeRoom n).mem.length := by
  unfold makeRoom
  split
  · exact le_overwrite_length _ _ _
  · exact Nat.le_refl _

theorem callSuccessCallback_mem (b : AsyncReadBuffer κ) : b.callSuccessCallback.mem = b.mem := by
  unfold callSuccessCallback
  dsimp only
  split
  · rfl
  · rfl

/-- The memory does not get shorter, even where the indices are beyond it. -/
theorem le_read_mem (n : Nat) (callback : Option κ) (b : AsyncReadBuffer κ) :
    b.mem.length ≤ (b.read n callback).1.mem.length := by
  unfold read
  dsimp only
  split
  · split
    · exact Nat.le_refl _
    · exact Nat.le_refl _
  split
  · exact Nat.le_refl _
  split
  · exact Nat.le_refl _
  split
  · exact le_makeRoom_mem _ { b with
      count := 0, read_success_callback := callback, read_requested_bytes := n }
  · exact Nat.le_of_eq (congrArg List.length (callSuccessCallback_mem { b with
      count := 0, read_success_callback := callback, read_requested_bytes := n }).symm)

theorem le_complete_mem (op : AsyncRead) (result : Except ErrorCode (List UInt8))
    (b : AsyncReadBuffer κ) : b.mem.length ≤ (b.complete op result).1.mem.length := by
  cases result with
  | error error => exact Nat.le_refl _
  | ok bytes =>
    show b.mem.length ≤ (callSuccessCallback _).mem.length
    rw [callSuccessCallback_mem]
    exact le_overwrite_length _ _ _

/-- The callback that runs leaves the queue, and nothing else changes. -/
theorem next_eq {b b' : AsyncReadBuffer κ} {callback : κ} {bytes : List UInt8}
    (h : b.next = some (callback, bytes, b')) : b' = { b with posted := b.posted.tail } := by
  unfold next at h
  split at h
  · cases h
  · rename_i hposted
    cases h
    rw [hposted]
    rfl

end AsyncReadBuffer

/-! ## The three states -/

namespace AsyncReadBuffer

/-- What holds of the indices in all states, with the bytes that are not read
yet. -/
structure Holds (b : AsyncReadBuffer κ) (unread : List UInt8) : Prop where
  capacity : b.mem.length < 2 ^ 63
  read_le : b.read_index ≤ b.write_index
  write_le : b.write_index ≤ b.mem.length
  unread : slice b.mem b.read_index (b.write_index - b.read_index) = unread

/-- Nothing is requested. -/
structure Idle (b : AsyncReadBuffer κ) (unread : List UInt8) : Prop where
  holds : b.Holds unread
  requested : b.read_requested_bytes = 0
  pending : b.pending = []
  posted : b.posted = []

/-- `n` bytes are requested, and Asio reads those that are missing. -/
structure Awaits (b : AsyncReadBuffer κ) (callback : κ) (n : Nat) (unread : List UInt8) : Prop where
  holds : b.Holds unread
  requested : b.read_requested_bytes = n
  callback : b.read_success_callback = some callback
  pending : b.pending =
    [{ start := b.write_index, headroom := b.mem.length - b.write_index
       transferAtLeast := n - unread.length }]
  posted : b.posted = []
  short : unread.length < n
  room : n - unread.length ≤ b.mem.length - b.write_index

/-- A callback for `chunk` waits in the queue. -/
structure Delivers (b : AsyncReadBuffer κ) (callback : κ) (chunk unread : List UInt8) : Prop where
  holds : b.Holds unread
  requested : b.read_requested_bytes = 0
  pending : b.pending = []
  posted : ∃ start, b.posted =
      [{ callback := callback, start := start, size := chunk.length % 2 ^ 32 }] ∧
    slice b.mem start chunk.length = chunk

theorem Holds.length {b : AsyncReadBuffer κ} {unread : List UInt8} (h : b.Holds unread) :
    unread.length = b.write_index - b.read_index := by
  have := h.read_le
  have := h.write_le
  rw [← h.unread, slice_length (by omega)]

theorem sizeSub_eq {a b : Nat} (h : b ≤ a) (ha : a < 2 ^ 63) : sizeSub a b = a - b := by
  simp only [sizeSub]
  omega

theorem Holds.bytesAvailable {b : AsyncReadBuffer κ} {unread : List UInt8} (h : b.Holds unread) :
    b.bytesAvailable = unread.length := by
  have := h.capacity
  have := h.write_le
  rw [AsyncReadBuffer.bytesAvailable, sizeSub_eq h.read_le (by omega), h.length]

theorem Holds.bytesHeadroom {b : AsyncReadBuffer κ} {unread : List UInt8} (h : b.Holds unread) :
    b.bytesHeadroom = b.mem.length - b.write_index :=
  sizeSub_eq h.write_le h.capacity

/-- Reading from the front leaves the rest unread. -/
theorem Holds.advance {b : AsyncReadBuffer κ} {unread : List UInt8} (h : b.Holds unread) {n : Nat}
    (hn : n ≤ unread.length) :
    slice b.mem b.read_index n = unread.take n ∧
      slice b.mem (b.read_index + n) (b.write_index - (b.read_index + n)) = unread.drop n := by
  have hlen := h.length
  have hread := h.read_le
  have hwrite := h.write_le
  have hsplit := slice_add b.mem b.read_index n (b.write_index - (b.read_index + n))
  rw [show n + (b.write_index - (b.read_index + n)) = b.write_index - b.read_index by omega,
    h.unread] at hsplit
  have hfirst : (slice b.mem b.read_index n).length = n := slice_length (by omega)
  rw [hsplit]
  exact ⟨(List.take_left' hfirst).symm, (List.drop_left' hfirst).symm⟩

/-- Serving a request from the buffer. -/
theorem Holds.callSuccessCallback {b : AsyncReadBuffer κ} {unread : List UInt8}
    (h : b.Holds unread) {callback : κ} (hcallback : b.read_success_callback = some callback)
    (hn : b.read_requested_bytes ≤ unread.length) (hpending : b.pending = [])
    (hposted : b.posted = []) :
    b.callSuccessCallback.Delivers callback (unread.take b.read_requested_bytes)
      (unread.drop b.read_requested_bytes) := by
  obtain ⟨hchunk, hrest⟩ := h.advance hn
  have hlen := h.length
  have hread := h.read_le
  have hwrite := h.write_le
  have hcapacity := h.capacity
  have hsize : (unread.take b.read_requested_bytes).length = b.read_requested_bytes := by
    simp [hn]
  have havailable : sizeSub b.write_index (b.read_index + b.read_requested_bytes) =
      b.write_index - (b.read_index + b.read_requested_bytes) :=
    sizeSub_eq (by omega) (by omega)
  have hdelivers : ∀ b' : AsyncReadBuffer κ, b'.mem = b.mem → b'.read_requested_bytes = 0 →
      b'.pending = b.pending → b'.posted = b.posted ++ [{
        callback := callback, start := b.read_index, size := b.read_requested_bytes % 2 ^ 32 }] →
      b'.Holds (unread.drop b.read_requested_bytes) →
      b'.Delivers callback (unread.take b.read_requested_bytes)
        (unread.drop b.read_requested_bytes) := by
    intro b' hmem hrequested hpend hpost hholds
    refine ⟨hholds, hrequested, hpend.trans hpending, b.read_index, ?_, ?_⟩
    · rw [hpost, hposted, hsize, List.nil_append]
    · rw [hmem, hsize, hchunk]
  simp only [AsyncReadBuffer.callSuccessCallback, AsyncReadBuffer.bytesAvailable, havailable,
    hcallback, Option.map_some, Option.toList_some]
  split
  · -- the buffer is drained, and the indices start afresh
    rename_i hdrained
    refine hdelivers _ rfl rfl rfl rfl ⟨hcapacity, Nat.le_refl _, Nat.zero_le _, ?_⟩
    have hnil : unread.drop b.read_requested_bytes = [] := List.drop_eq_nil_of_le (by omega)
    simp [reset, hnil]
  · exact hdelivers _ rfl rfl rfl rfl ⟨hcapacity, by dsimp only; omega, hwrite, hrest⟩

/-- Shifting the unread bytes to the front keeps them, and makes as much room
as there can be. -/
theorem Holds.makeRoom {b : AsyncReadBuffer κ} {unread : List UInt8} (h : b.Holds unread)
    {n : Nat} (hn : unread.length + n ≤ b.mem.length) :
    (b.makeRoom n).Holds unread ∧ (b.makeRoom n).mem.length = b.mem.length ∧
      n ≤ (b.makeRoom n).mem.length - (b.makeRoom n).write_index := by
  have hlen := h.length
  have hread := h.read_le
  have hwrite := h.write_le
  have hcapacity := h.capacity
  have hslice : slice b.mem b.read_index unread.length = unread := by rw [hlen, h.unread]
  have hmove : (overwrite b.mem 0 unread).length = b.mem.length := overwrite_length (by omega)
  simp only [AsyncReadBuffer.makeRoom, h.bytesHeadroom, h.bytesAvailable, hslice]
  split
  · refine ⟨⟨hmove ▸ hcapacity, Nat.zero_le _, by dsimp only; omega, ?_⟩, hmove, ?_⟩
    · exact slice_overwrite_self (Nat.zero_le _)
    · dsimp only
      omega
  · exact ⟨h, rfl, by omega⟩

/-- The number of bytes that a request lacks. -/
theorem Holds.transfer_bytes {b : AsyncReadBuffer κ} {unread : List UInt8} (h : b.Holds unread)
    {n : Nat} (hn : n ≤ b.mem.length) :
    toSigned (sizeSub n b.bytesAvailable) = (n : Int) - unread.length := by
  have hlen := h.length
  have hwrite := h.write_le
  have hcapacity := h.capacity
  rw [h.bytesAvailable, toSigned]
  rcases Nat.lt_or_ge n unread.length with hless | hmore
  · -- the difference wraps, and is read as a negative number
    have hwrap : sizeSub n unread.length = 2 ^ 64 - (unread.length - n) := by
      simp only [sizeSub]
      omega
    rw [hwrap, if_neg (by omega)]
    omega
  · rw [sizeSub_eq hmore (by omega), if_pos (by omega)]
    omega

theorem new_isSome (κ : Type) {capacity : Nat} (h : capacity < 2 ^ 63) :
    ∃ b, new κ capacity = some b :=
  ⟨_, if_pos h⟩

theorem new_idle {capacity : Nat} {b : AsyncReadBuffer κ}
    (h : new κ capacity = some b) : b.Idle [] ∧ b.mem.length = capacity := by
  rw [new] at h
  split at h
  · obtain rfl := Option.some.inj h
    refine ⟨⟨⟨?_, Nat.le_refl _, Nat.zero_le _, slice_zero _ _⟩, rfl, rfl, rfl⟩, ?_⟩
    · simpa using ‹capacity < 2 ^ 63›
    · simp
  · cases h

section Read

variable {b : AsyncReadBuffer κ} {unread : List UInt8}

/-- An idle buffer takes every request up to its capacity. -/
theorem Idle.read_eq (h : b.Idle unread) (callback : κ) {n : Nat} (hn : n ≤ b.mem.length) :
    b.read n (some callback) =
      let b := { b with
        count := 0, read_success_callback := some callback, read_requested_bytes := n }
      if unread.length < n then
        let b := b.makeRoom (n - unread.length)
        let op : AsyncRead :=
          { start := b.write_index, headroom := b.bytesHeadroom
            transferAtLeast := n - unread.length }
        ({ b with pending := b.pending ++ [op] }, none)
      else (b.callSuccessCallback, none) := by
  have htransfer := h.holds.transfer_bytes hn
  simp only [AsyncReadBuffer.read, h.requested, ne_eq, not_true_eq_false, if_false,
    Option.isNone_some, Bool.false_eq_true, gt_iff_lt, Nat.not_lt.mpr hn]
  have htransfer' : toSigned (sizeSub n (AsyncReadBuffer.bytesAvailable { b with
      count := 0, read_success_callback := some callback, read_requested_bytes := n })) =
      (n : Int) - unread.length := htransfer
  rw [htransfer', show ((n : Int) - unread.length).toNat = n - unread.length by omega]
  by_cases hshort : unread.length < n
  · rw [if_pos hshort, if_pos (by omega)]
  · rw [if_neg hshort, if_neg (by omega)]

/-- A request that the buffer can serve. -/
theorem Idle.read_ready (h : b.Idle unread) (callback : κ) {n : Nat} (hn : n ≤ unread.length) :
    ∃ b', b.read n (some callback) = (b', none) ∧
      b'.Delivers callback (unread.take n) (unread.drop n) ∧ b'.mem.length = b.mem.length := by
  have hlen := h.holds.length
  have hwrite := h.holds.write_le
  refine ⟨_, by rw [h.read_eq callback (by omega), if_neg (by omega)], ?_, ?_⟩
  · have hholds : AsyncReadBuffer.Holds { b with
        count := 0, read_success_callback := some callback, read_requested_bytes := n } unread :=
      ⟨h.holds.capacity, h.holds.read_le, h.holds.write_le, h.holds.unread⟩
    exact hholds.callSuccessCallback rfl hn h.pending h.posted
  · simp only [AsyncReadBuffer.callSuccessCallback]
    split <;> rfl

/-- A request for which bytes are missing. -/
theorem Idle.read_short (h : b.Idle unread) (callback : κ) {n : Nat} (hn : n ≤ b.mem.length)
    (hshort : unread.length < n) :
    ∃ b', b.read n (some callback) = (b', none) ∧ b'.Awaits callback n unread ∧
      b'.mem.length = b.mem.length := by
  have hholds : AsyncReadBuffer.Holds { b with
      count := 0, read_success_callback := some callback, read_requested_bytes := n } unread :=
    ⟨h.holds.capacity, h.holds.read_le, h.holds.write_le, h.holds.unread⟩
  have hfit : unread.length + (n - unread.length) ≤ b.mem.length := by omega
  obtain ⟨hroom, hmem, hheadroom⟩ := hholds.makeRoom hfit
  have hread := h.read_eq callback hn
  simp only [if_pos hshort] at hread
  obtain ⟨hrequested, hcallback, hposted, hpending⟩ := makeRoom_keeps (n - unread.length) { b with
    count := 0, read_success_callback := some callback, read_requested_bytes := n }
  refine ⟨_, hread, ⟨⟨hroom.capacity, hroom.read_le, hroom.write_le, hroom.unread⟩, hrequested,
    hcallback, ?_, hposted.trans h.posted, hshort, hheadroom⟩, hmem⟩
  dsimp only
  rw [hroom.bytesHeadroom, hpending.trans h.pending, List.nil_append]

/-- A read that fails leaves the buffer with the bytes that it had. -/
theorem Awaits.fail {callback : κ} {n : Nat} (h : b.Awaits callback n unread) {op : AsyncRead}
    (hop : op ∈ b.pending) (error : ErrorCode) :
    ∃ b', b.complete op (.error error) =
        (b', if error = .operation_aborted then none else some error) ∧
      b'.Idle unread ∧ b'.mem.length = b.mem.length := by
  obtain rfl := List.mem_singleton.mp (h.pending ▸ hop)
  refine ⟨_, rfl, ⟨⟨h.holds.capacity, h.holds.read_le, h.holds.write_le, h.holds.unread⟩, rfl, ?_,
    h.posted⟩, rfl⟩
  dsimp only
  rw [h.pending, List.erase_cons_head]

/-- A callback that runs is no longer posted. -/
theorem next_posted {b' : AsyncReadBuffer κ} {callback : κ} {bytes : List UInt8}
    (h : b.next = some (callback, bytes, b')) :
    b.posted.length = b'.posted.length + 1 ∧ b'.pending = b.pending := by
  rw [next] at h
  split at h
  · cases h
  · rename_i hposted
    simp only [Option.some.injEq, Prod.mk.injEq] at h
    obtain ⟨-, -, rfl⟩ := h
    rw [hposted]
    exact ⟨rfl, rfl⟩

/-- Asio completes the pending read with as many bytes as were asked for, or
more, up to the headroom. -/
theorem Awaits.complete {callback : κ} {n : Nat} (h : b.Awaits callback n unread)
    {bytes : List UInt8} (hlo : n - unread.length ≤ bytes.length)
    (hhi : bytes.length ≤ b.mem.length - b.write_index) {op : AsyncRead}
    (hop : op ∈ b.pending) :
    ∃ b', b.complete op (.ok bytes) = (b', none) ∧
      b'.Delivers callback ((unread ++ bytes).take n) ((unread ++ bytes).drop n) ∧
      b'.mem.length = b.mem.length := by
  have hread := h.holds.read_le
  have hwrite := h.holds.write_le
  have hcapacity := h.holds.capacity
  have hop' := List.mem_singleton.mp (h.pending ▸ hop)
  have hstart : op.start = b.write_index := by rw [hop']
  have hmem : (overwrite b.mem op.start bytes).length = b.mem.length :=
    overwrite_length (by omega)
  -- the new bytes lie behind the unread ones
  have hunread : slice (overwrite b.mem op.start bytes) b.read_index
      (b.write_index + bytes.length - b.read_index) = unread ++ bytes := by
    rw [show b.write_index + bytes.length - b.read_index =
        (b.write_index - b.read_index) + bytes.length by omega, slice_add,
      slice_overwrite_outside (by omega) (Or.inl (by omega)), h.holds.unread,
      show b.read_index + (b.write_index - b.read_index) = op.start by omega,
      slice_overwrite_self (by omega)]
  have hholds : AsyncReadBuffer.Holds { b with
      pending := b.pending.erase op, mem := overwrite b.mem op.start bytes
      write_index := b.write_index + bytes.length } (unread ++ bytes) :=
    ⟨hmem ▸ hcapacity, by dsimp only; omega, by dsimp only; omega, hunread⟩
  have hserve := hholds.callSuccessCallback h.callback
    (by rw [h.requested, List.length_append]; omega)
    (by rw [h.pending, hop', List.erase_cons_head]) h.posted
  refine ⟨_, rfl, ?_, ?_⟩
  · simpa only [h.requested] using hserve
  · simp only [AsyncReadBuffer.callSuccessCallback]
    split <;> exact hmem

/-- The callback gets its bytes, up to the length that a `SimpleCdr` can have. -/
theorem Delivers.next {callback : κ} {chunk : List UInt8} (h : b.Delivers callback chunk unread) :
    ∃ b', b.next = some (callback, chunk.take (chunk.length % 2 ^ 32), b') ∧ b'.Idle unread ∧
      b'.mem.length = b.mem.length := by
  obtain ⟨start, hposted, hchunk⟩ := h.posted
  refine ⟨{ b with posted := [] }, ?_, ⟨⟨h.holds.capacity, h.holds.read_le, h.holds.write_le,
    h.holds.unread⟩, h.requested, h.pending, rfl⟩, rfl⟩
  have htake := take_slice b.mem start (Nat.mod_le chunk.length (2 ^ 32))
  rw [hchunk] at htake
  simp only [AsyncReadBuffer.next, hposted, htake]

end Read

/-! ## A callback that gets its bytes -/

/-- The next callback gets the first `n` bytes of the unread ones, `rest`, and
of those that follow. -/
inductive Wants (b : AsyncReadBuffer κ) (callback : κ) : Nat → List UInt8 → Prop
  | awaits {n : Nat} {unread : List UInt8} (h : b.Awaits callback n unread) :
      Wants b callback n unread
  | delivers {chunk unread : List UInt8} (h : b.Delivers callback chunk unread) :
      Wants b callback chunk.length (chunk ++ unread)

section Wants

variable {b : AsyncReadBuffer κ} {callback : κ} {n : Nat} {rest : List UInt8}

/-- What a callback has of its bytes, once they are all there. -/
theorem Wants.of_delivers (h : b.Delivers callback (rest.take n) (rest.drop n))
    (hn : n ≤ rest.length) : b.Wants callback n rest := by
  have hwants := Wants.delivers h
  rwa [List.take_append_drop, List.length_take, Nat.min_eq_left hn] at hwants

theorem Wants.holds (h : b.Wants callback n rest) : ∃ unread, b.Holds unread := by
  cases h with
  | awaits h => exact ⟨_, h.holds⟩
  | delivers h => exact ⟨_, h.holds⟩

/-- A request is served from the buffer, or it waits for Asio. -/
theorem Idle.read (h : b.Idle rest) (callback : κ) (hn : n ≤ b.mem.length) :
    ∃ b', b.read n (some callback) = (b', none) ∧ b'.Wants callback n rest ∧
      b'.mem.length = b.mem.length := by
  rcases Nat.lt_or_ge rest.length n with hshort | hready
  · obtain ⟨b', hread, hawaits, hmem⟩ := h.read_short callback hn hshort
    exact ⟨b', hread, .awaits hawaits, hmem⟩
  · obtain ⟨b', hread, hdelivers, hmem⟩ := h.read_ready callback hready
    exact ⟨b', hread, .of_delivers hdelivers hready, hmem⟩

/-- The new bytes follow those that the buffer has. -/
theorem Wants.complete (h : b.Wants callback n rest) {op : AsyncRead} (hop : op ∈ b.pending)
    {bytes : List UInt8} (hlo : op.transferAtLeast ≤ bytes.length)
    (hhi : bytes.length ≤ op.headroom) :
    ∃ b', b.complete op (.ok bytes) = (b', none) ∧ b'.Wants callback n (rest ++ bytes) ∧
      b'.mem.length = b.mem.length := by
  cases h with
  | delivers h =>
    rw [h.pending] at hop
    exact absurd hop List.not_mem_nil
  | awaits h =>
    obtain rfl := List.mem_singleton.mp (h.pending ▸ hop)
    obtain ⟨b', hcomplete, hdelivers, hmem⟩ := h.complete hlo hhi hop
    have henough : n ≤ (rest ++ bytes).length := by
      rw [List.length_append]
      dsimp only at hlo
      omega
    exact ⟨b', hcomplete, .of_delivers hdelivers henough, hmem⟩

/-- The callback that runs gets its bytes, if their number has 32 bits. -/
theorem Wants.next (h : b.Wants callback n rest) (hn : n < 2 ^ 32) {callback' : κ}
    {bytes : List UInt8} {b' : AsyncReadBuffer κ} (hnext : b.next = some (callback', bytes, b')) :
    callback' = callback ∧ bytes.length = n ∧ b'.mem.length = b.mem.length ∧
      ∃ unread, rest = bytes ++ unread ∧ b'.Idle unread := by
  cases h with
  | awaits h =>
    rw [AsyncReadBuffer.next, h.posted] at hnext
    cases hnext
  | delivers h =>
    obtain ⟨b'', hnext', hidle, hmem⟩ := h.next
    rw [hnext', Nat.mod_eq_of_lt hn, List.take_length] at hnext
    simp only [Option.some.injEq, Prod.mk.injEq] at hnext
    obtain ⟨rfl, rfl, rfl⟩ := hnext
    exact ⟨rfl, rfl, hmem, _, rfl, hidle⟩

/-- A pending read has room for the bytes that it must transfer. -/
theorem Wants.room (h : b.Wants callback n rest) {op : AsyncRead} (hop : op ∈ b.pending) :
    0 < op.transferAtLeast ∧ op.transferAtLeast ≤ op.headroom ∧
      op.headroom = b.mem.length - b.write_index := by
  cases h with
  | delivers h =>
    rw [h.pending] at hop
    exact absurd hop List.not_mem_nil
  | awaits h =>
    have hshort := h.short
    have hroom := h.room
    obtain rfl := List.mem_singleton.mp (h.pending ▸ hop)
    dsimp only
    omega

/-- The callback waits for a read, and some of its bytes are missing, or it can
run. -/
theorem Wants.progress (h : b.Wants callback n rest) :
    (b.pending ≠ [] ∧ b.next = none ∧ rest.length < n) ∨ b.next.isSome := by
  cases h with
  | awaits h =>
    refine Or.inl ⟨?_, by rw [AsyncReadBuffer.next, h.posted], h.short⟩
    rw [h.pending]
    exact List.cons_ne_nil _ _
  | delivers h =>
    obtain ⟨b', hnext, -, -⟩ := h.next
    exact Or.inr (by rw [hnext]; rfl)

end Wants

end AsyncReadBuffer

end Ros2Serial.Host
