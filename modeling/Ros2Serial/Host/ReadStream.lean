import Ros2Serial.Host.AsyncReadBuffer

/-!
# Reading a stream request by request

A client of an `AsyncReadBuffer` that issues one request after another, each
after the callback of the one before has run, while Asio completes the pending
reads with any number of bytes that it may.

`exec_exact` says that the callbacks get the stream, cut where the requests
say, and that Asio always has room for the bytes that it must transfer.  A
`SimpleCdr` has a length of 32 bits, so that a request from 2 ^ 32 bytes on is
not answered in full.
-/

namespace Ros2Serial.Host

open Bytes

/-! ## The client -/

/-- A buffer, and what has gone in and come out. -/
structure Client where
  buffer : AsyncReadBuffer Unit
  requests : List Nat
  stream : List UInt8
  received : List (List UInt8)
  errors : List ErrorCode
  deriving DecidableEq

/-- A request, a completed read, or a callback that runs. -/
inductive ClientStep
  | read (n : Nat)
  | arrive (bytes : List UInt8)
  | run

/-- A client of a new buffer. -/
def Client.start (buffer : AsyncReadBuffer Unit) : Client where
  buffer := buffer
  requests := []
  stream := []
  received := []
  errors := []

/-- A step, where it is possible: a request follows the callback of the one
before, and Asio completes a read with at least the bytes that it was asked for
and at most the bytes that there is room for. -/
def Client.step (s : Client) : ClientStep → Option Client
  | .read n =>
    if 1 ≤ n ∧ n ≤ s.buffer.mem.length ∧ s.received.length = s.requests.length then
      let (buffer, error) := s.buffer.read n (some ())
      some { s with
        buffer := buffer, requests := s.requests ++ [n], errors := s.errors ++ error.toList }
    else none
  | .arrive bytes =>
    match s.buffer.pending with
    | [] => none
    | op :: _ =>
      if op.transferAtLeast ≤ bytes.length ∧ bytes.length ≤ op.headroom then
        let (buffer, error) := s.buffer.complete op (.ok bytes)
        some { s with
          buffer := buffer, stream := s.stream ++ bytes, errors := s.errors ++ error.toList }
      else none
  | .run =>
    match s.buffer.next with
    | none => none
    | some (_, bytes, buffer) =>
      some { s with buffer := buffer, received := s.received ++ [bytes] }

/-- A run. -/
def Client.exec (s : Client) (steps : List ClientStep) : Option Client :=
  steps.foldlM Client.step s

/-- The callbacks have received the stream, cut where the requests say.  The
indices are in order, no error was reported, a pending read has room for the
bytes that it must transfer, and a request that is not served waits for such a
read or has a callback to run. -/
structure Client.Exact (s : Client) : Prop where
  chunks : ∀ i, i < s.received.length → ∃ n, s.requests[i]? = some n ∧
    (s.requests.take i).sum + n ≤ s.stream.length ∧
    s.received[i]? = some (slice s.stream (s.requests.take i).sum n)
  served : s.received.length ≤ s.requests.length
  read_le : s.buffer.read_index ≤ s.buffer.write_index
  write_le : s.buffer.write_index ≤ s.buffer.mem.length
  room : ∀ op ∈ s.buffer.pending,
    0 < op.transferAtLeast ∧ op.transferAtLeast ≤ op.headroom ∧
      op.headroom = s.buffer.mem.length - s.buffer.write_index
  progress : s.received.length < s.requests.length →
    s.buffer.pending ≠ [] ∨ s.buffer.next.isSome
  errors : s.errors = []

/-! ## The invariant -/

/-- Where the buffer stands: the requests that are not served yet, at most one,
and the bytes of the stream from the next callback's on. -/
inductive Client.Phase (b : AsyncReadBuffer Unit) : List Nat → List UInt8 → Prop
  | idle {unread : List UInt8} (h : b.Idle unread) : Phase b [] unread
  | wants {n : Nat} {rest : List UInt8} (h : b.Wants () n rest) : Phase b [n] rest

/-- The served requests are as long as what the callbacks received, and this is
the first part of the stream. -/
structure Client.Fifo (s : Client) : Prop where
  errors : s.errors = []
  queue : ∃ waiting rest, Client.Phase s.buffer waiting rest ∧
    s.requests = s.received.map List.length ++ waiting ∧ s.stream = s.received.flatten ++ rest

section Phase

variable {b : AsyncReadBuffer Unit} {waiting : List Nat} {rest : List UInt8}

theorem Client.Phase.holds (h : Client.Phase b waiting rest) : ∃ unread, b.Holds unread := by
  cases h with
  | idle h => exact ⟨_, h.holds⟩
  | wants h => exact h.holds

/-- Bytes that arrive serve the open request. -/
theorem Client.Phase.arrive (h : Client.Phase b waiting rest) {op : AsyncRead}
    (hop : op ∈ b.pending) {bytes : List UInt8} (hlo : op.transferAtLeast ≤ bytes.length)
    (hhi : bytes.length ≤ op.headroom) :
    ∃ b', b.complete op (.ok bytes) = (b', none) ∧
      Client.Phase b' waiting (rest ++ bytes) := by
  cases h with
  | idle h =>
    rw [h.pending] at hop
    exact absurd hop List.not_mem_nil
  | wants h =>
    obtain ⟨b', hcomplete, hwants, -⟩ := h.complete hop hlo hhi
    exact ⟨b', hcomplete, .wants hwants⟩

/-- A callback that runs gets the bytes of its request. -/
theorem Client.Phase.run (h : Client.Phase b waiting rest) (hlt : ∀ n ∈ waiting, n < 2 ^ 32)
    {callback : Unit} {bytes : List UInt8} {b' : AsyncReadBuffer Unit}
    (hnext : b.next = some (callback, bytes, b')) :
    waiting = [bytes.length] ∧ ∃ unread, rest = bytes ++ unread ∧ Client.Phase b' [] unread := by
  cases h with
  | idle h =>
    rw [AsyncReadBuffer.next, h.posted] at hnext
    cases hnext
  | wants h =>
    obtain ⟨-, rfl, -, unread, hrest, hidle⟩ := h.next (hlt _ (List.mem_singleton_self _)) hnext
    exact ⟨rfl, unread, hrest, .idle hidle⟩

/-- A pending read has room for the bytes that it must transfer. -/
theorem Client.Phase.room (h : Client.Phase b waiting rest) {op : AsyncRead}
    (hop : op ∈ b.pending) :
    0 < op.transferAtLeast ∧ op.transferAtLeast ≤ op.headroom ∧
      op.headroom = b.mem.length - b.write_index := by
  cases h with
  | idle h =>
    rw [h.pending] at hop
    exact absurd hop List.not_mem_nil
  | wants h => exact h.room hop

/-- A request that is not served waits for a read, or has a callback to run. -/
theorem Client.Phase.progress (h : Client.Phase b waiting rest) (hwaiting : waiting ≠ []) :
    b.pending ≠ [] ∨ b.next.isSome := by
  cases h with
  | idle h => exact absurd rfl hwaiting
  | wants h => exact h.progress.imp_left And.left

end Phase

/-! ## Steps and runs -/

/-- Every step keeps the invariant, while the requests have 32 bits. -/
theorem Client.Fifo.step {s s' : Client} (h : s.Fifo) {st : ClientStep} (hstep : s.step st = some s')
    (hlt : ∀ n ∈ s'.requests, n < 2 ^ 32) : s'.Fifo := by
  obtain ⟨herrors, waiting, rest, hphase, hrequests, hstream⟩ := h
  cases st with
  | read n =>
    simp only [Client.step] at hstep
    split at hstep
    · rename_i hallowed
      obtain ⟨-, hcap, hserved⟩ := hallowed
      have hnone : waiting = [] := by
        rw [hrequests, List.length_append, List.length_map] at hserved
        exact List.length_eq_zero_iff.mp (by omega)
      subst hnone
      obtain ⟨hidle⟩ := hphase
      obtain ⟨b', hread, hwants, -⟩ := hidle.read () hcap
      rw [hread] at hstep
      obtain rfl := Option.some.inj hstep
      refine ⟨by simp [herrors], [n], rest, .wants hwants, ?_, hstream⟩
      rw [hrequests, List.append_nil]
    · cases hstep
  | arrive bytes =>
    simp only [Client.step] at hstep
    split at hstep
    · cases hstep
    · rename_i op _ hpending
      have hop : op ∈ s.buffer.pending := hpending ▸ List.mem_cons_self
      split at hstep
      · rename_i hcount
        obtain ⟨b', hcomplete, hphase'⟩ := hphase.arrive hop hcount.1 hcount.2
        rw [hcomplete] at hstep
        obtain rfl := Option.some.inj hstep
        refine ⟨by simp [herrors], waiting, rest ++ bytes, hphase', hrequests, ?_⟩
        simp only [hstream, List.append_assoc]
      · cases hstep
  | run =>
    simp only [Client.step] at hstep
    split at hstep
    · cases hstep
    · rename_i bytes b' hnext
      obtain rfl := Option.some.inj hstep
      have hlt' : ∀ n ∈ waiting, n < 2 ^ 32 := fun n hn =>
        hlt n (by simp only [hrequests, List.mem_append, hn, or_true])
      obtain ⟨hwaiting, unread, hrest, hphase'⟩ := hphase.run hlt' hnext
      refine ⟨herrors, [], unread, hphase', ?_, ?_⟩
      · simp only [hrequests, hwaiting, List.map_append, List.map_cons, List.map_nil,
          List.append_nil]
      · simp only [hstream, hrest, List.flatten_append, List.flatten_cons, List.flatten_nil,
          List.append_nil, List.append_assoc]

theorem Client.step_requests {s s' : Client} {st : ClientStep} (hstep : s.step st = some s') :
    ∀ n ∈ s.requests, n ∈ s'.requests := by
  intro n hn
  cases st <;> simp only [Client.step] at hstep <;> split at hstep
  · obtain rfl := Option.some.inj hstep
    exact List.mem_append_left _ hn
  · cases hstep
  · cases hstep
  · split at hstep
    · obtain rfl := Option.some.inj hstep
      exact hn
    · cases hstep
  · cases hstep
  · obtain rfl := Option.some.inj hstep
    exact hn

theorem Client.exec_cons {s s' : Client} {st : ClientStep} {steps : List ClientStep}
    (h : s.exec (st :: steps) = some s') : ∃ m, s.step st = some m ∧ m.exec steps = some s' := by
  rw [Client.exec, List.foldlM_cons] at h
  exact Option.bind_eq_some_iff.mp h

theorem Client.exec_requests {steps : List ClientStep} :
    ∀ {s s' : Client}, s.exec steps = some s' → ∀ n ∈ s.requests, n ∈ s'.requests := by
  induction steps with
  | nil =>
    intro s s' h n hn
    obtain rfl : s = s' := Option.some.inj h
    exact hn
  | cons st steps ih =>
    intro s s' h n hn
    obtain ⟨m, hstep, hexec⟩ := Client.exec_cons h
    exact ih hexec n (Client.step_requests hstep n hn)

/-- So does every run. -/
theorem Client.Fifo.exec {steps : List ClientStep} :
    ∀ {s s' : Client}, s.Fifo → s.exec steps = some s' → (∀ n ∈ s'.requests, n < 2 ^ 32) →
      s'.Fifo := by
  induction steps with
  | nil =>
    intro s s' h hexec _
    obtain rfl : s = s' := Option.some.inj hexec
    exact h
  | cons st steps ih =>
    intro s s' h hexec hlt
    obtain ⟨m, hstep, hexec⟩ := Client.exec_cons hexec
    exact ih (h.step hstep fun n hn => hlt n (Client.exec_requests hexec n hn)) hexec hlt

theorem Client.Fifo.exact {s : Client} (h : s.Fifo) : s.Exact := by
  obtain ⟨herrors, waiting, rest, hphase, hrequests, hstream⟩ := h
  obtain ⟨unread, hholds⟩ := hphase.holds
  refine ⟨?_, ?_, hholds.read_le, hholds.write_le, fun op hop => hphase.room hop, ?_, herrors⟩
  · intro i hi
    have htake : s.requests.take i = (s.received.map List.length).take i := by
      rw [hrequests, List.take_append_of_le_length (by simp; omega)]
    have hchunk := slice_flatten rest hi
    refine ⟨s.received[i].length, ?_, ?_, ?_⟩
    · rw [hrequests, List.getElem?_append_left (by simpa using hi)]
      simp [hi]
    · have hlen := congrArg List.length (flatten_split hi)
      simp only [List.length_append] at hlen
      rw [htake, hstream, List.length_append, hlen, List.map_take.symm, ← List.length_flatten]
      omega
    · rw [htake, hstream, hchunk, List.getElem?_eq_getElem hi]
  · rw [hrequests, List.length_append, List.length_map]
    omega
  · intro hopen
    refine hphase.progress fun hnone => ?_
    rw [hrequests, hnone, List.append_nil, List.length_map] at hopen
    exact Nat.lt_irrefl _ hopen

/-- Every run of a client whose requests have 32 bits is exact. -/
theorem exec_exact {capacity : Nat} {b : AsyncReadBuffer Unit} {steps : List ClientStep}
    {s : Client} (hnew : AsyncReadBuffer.new Unit capacity = some b)
    (hexec : (Client.start b).exec steps = some s) (hlt : ∀ n ∈ s.requests, n < 2 ^ 32) :
    s.Exact := by
  have hstart : (Client.start b).Fifo :=
    ⟨rfl, [], [], .idle (AsyncReadBuffer.new_idle hnew).1, rfl, rfl⟩
  exact (hstart.exec hexec hlt).exact

/-- The second read finds one byte in a full buffer of four. -/
theorem fullBuffer_exact :
    ∃ b s, AsyncReadBuffer.new Unit 4 = some b ∧
      (Client.start b).exec [.read 3, .arrive [1, 2, 3, 4], .run, .read 3, .arrive [5, 6, 7],
        .run] = some s ∧
      s.received = [[1, 2, 3], [4, 5, 6]] ∧ s.Exact := by
  obtain ⟨b, hnew⟩ : ∃ b, AsyncReadBuffer.new Unit 4 = some b := ⟨_, rfl⟩
  have hb : b = ⟨[0, 0, 0, 0], 0, 0, none, 0, 0, [], []⟩ := by
    rw [← Option.some.injEq, ← hnew]
    decide
  have hexec : (Client.start b).exec [.read 3, .arrive [1, 2, 3, 4], .run, .read 3,
      .arrive [5, 6, 7], .run] = some
      { buffer := ⟨[4, 5, 6, 7], 4, 3, none, 0, 0, [], []⟩, requests := [3, 3]
        stream := [1, 2, 3, 4, 5, 6, 7], received := [[1, 2, 3], [4, 5, 6]], errors := [] } := by
    rw [hb]
    decide
  exact ⟨b, _, hnew, hexec, rfl, exec_exact hnew hexec (by decide)⟩

/-- A request of a new buffer, served by one read. -/
theorem Client.exec_once {b : AsyncReadBuffer Unit} (h : b.Idle []) {n : Nat} (hpos : 1 ≤ n)
    (hn : n ≤ b.mem.length) {bytes : List UInt8} (hbytes : bytes.length = n) :
    ∃ s, (Client.start b).exec [.read n, .arrive bytes, .run] = some s ∧
      s.requests = [n] ∧ s.stream = bytes ∧ s.received = [bytes.take (n % 2 ^ 32)] := by
  obtain ⟨b₁, hread, hawaits, -⟩ := h.read_short () hn hpos
  have hlo : n - ([] : List UInt8).length ≤ bytes.length := by simp [hbytes]
  have hhi : bytes.length ≤ b₁.mem.length - b₁.write_index := by
    rw [hbytes]
    exact hawaits.room
  obtain ⟨b₂, hcomplete, hdelivers, -⟩ :=
    hawaits.complete hlo hhi (hawaits.pending ▸ List.mem_singleton_self _)
  rw [List.nil_append, ← hbytes, List.take_length] at hdelivers
  obtain ⟨b₃, hnext, -, -⟩ := hdelivers.next
  refine ⟨⟨b₃, [n], bytes, [bytes.take (n % 2 ^ 32)], []⟩, ?_, rfl, rfl, rfl⟩
  have h₁ : (Client.start b).step (.read n) = some ⟨b₁, [n], [], [], []⟩ := by
    simp only [Client.step, Client.start, hpos, hn, and_self, if_true, hread, List.length_nil,
      List.nil_append, Option.toList_none]
  have h₂ : Client.step ⟨b₁, [n], [], [], []⟩ (.arrive bytes) = some ⟨b₂, [n], bytes, [], []⟩ := by
    simp only [Client.step]
    rw [hawaits.pending]
    simp only [hlo, hhi, and_self, if_true]
    rw [hcomplete]
    rfl
  have h₃ : Client.step ⟨b₂, [n], bytes, [], []⟩ .run =
      some ⟨b₃, [n], bytes, [bytes.take (n % 2 ^ 32)], []⟩ := by
    simp only [Client.step, hnext, hbytes, List.nil_append]
  simp only [Client.exec, List.foldlM_cons, List.foldlM_nil, h₁, h₂, h₃, Option.bind_eq_bind,
    Option.bind_some]
  rfl

/-- A request for 2 ^ 32 bytes gets none of them. -/
theorem request32_not_exact :
    ¬ ∀ (capacity : Nat) (b : AsyncReadBuffer Unit) (steps : List ClientStep) (s : Client),
      AsyncReadBuffer.new Unit capacity = some b → (Client.start b).exec steps = some s →
        s.Exact := by
  intro hexact
  obtain ⟨b, hnew⟩ := AsyncReadBuffer.new_isSome Unit (show 2 ^ 32 < 2 ^ 63 by decide)
  obtain ⟨hidle, hmem⟩ := AsyncReadBuffer.new_idle hnew
  obtain ⟨s, hexec, hrequests, hstream, hreceived⟩ := Client.exec_once hidle
    (n := 2 ^ 32) (by decide) (Nat.le_of_eq hmem.symm) (List.length_replicate (a := (0 : UInt8)))
  obtain ⟨n, hn, hle, hchunk⟩ :=
    (hexact _ b _ s hnew hexec).chunks 0 (by rw [hreceived]; exact Nat.one_pos)
  rw [hrequests] at hn
  obtain rfl : 2 ^ 32 = n := Option.some.inj hn
  rw [hreceived] at hchunk
  have hlen := congrArg List.length (Option.some.inj hchunk)
  rw [slice_length (by simpa using hle), List.length_take] at hlen
  omega

end Ros2Serial.Host
