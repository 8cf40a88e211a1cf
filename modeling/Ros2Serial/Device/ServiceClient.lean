import Ros2Serial.Lib.Runs
import Mathlib.Data.List.Basic

/-!
# Calls of a service on the host

`ServiceClient::call` publishes a request and spins the node until the client's
`callback` has run.  The frames carry no number, and what `callback` has to go
by is a pointer to the response of the call that began last.

A frame is safe if the call that it answers is the only one that runs, and is
the one that began last.  As long as all are, `call` returns `true` with the
answer to its own request, and `callback` writes nothing but responses of calls
that run (`matched_of_inTime`).

* The calls are numbered here.  A call is running until it returns.  A second
  one can begin in between, in a callback that `spinOnce` runs.
* The host answers in order, but need not answer at all, and it may still have
  answers for requests from before the device has started.
* What `spinOnce` does besides is in the steps: it returns with a code, and the
  node loses and finds its connection.
-/

namespace Ros2Serial.Device

open Runs

/-! ## The client -/

/-- The members of `ServiceClient` that a call uses.  `ret` names the call whose
response it points to, and is `none` before the first call. -/
structure ServiceClient where
  ret : Option Nat
  waiting : Bool
  deriving DecidableEq, Repr

/-- The constructor. -/
def ServiceClient.new : ServiceClient where
  ret := none
  waiting := true

/-- `call`, from its check of the connection to its loop. -/
def ServiceClient.begin (call : Nat) (_client : ServiceClient) : ServiceClient where
  ret := some call
  waiting := true

/-- `callback`, after the response was deserialized into `*ret`. -/
def ServiceClient.callback (client : ServiceClient) : ServiceClient := { client with waiting := false }

/-- The loop of `call`, after `spinOnce` has returned.  It is `none` where it spins
again. -/
def ServiceClient.loop (connected : Bool) (code : Int) (client : ServiceClient) : Option Bool :=
  if code < 0 then some false
  else if client.waiting && connected then none
  else some (!client.waiting && connected)

namespace ServiceCalls

/-! ## Calls and frames -/

/-- A call has returned.  `answer` is the request whose answer was written last to its
response, if any was: `some none` stands for a request of an earlier start. -/
structure Returned where
  call : Nat
  result : Bool
  answer : Option (Option Nat)
  deriving DecidableEq, Repr

/-- `callback` has written to a response. -/
structure Write where
  target : Option Nat
  /-- The call that supplied it was running. -/
  running : Bool
  answer : Option Nat
  deriving DecidableEq, Repr

/-- A client, its node and the host. -/
structure State where
  client : ServiceClient
  connected : Bool
  /-- The calls that are running, from the innermost on. -/
  calls : List Nat
  /-- The number of the next call. -/
  next : Nat
  /-- The requests that the host has not answered, from the oldest on. -/
  pending : List (Option Nat)
  writes : List Write
  returned : List Returned
  deriving DecidableEq, Repr

/-- A device that has started, with some requests of an earlier start to be answered. -/
def new (stray : Nat) : State where
  client := .new
  connected := false
  calls := []
  next := 0
  pending := List.replicate stray none
  writes := []
  returned := []

inductive Step
  /-- `call` is called.  `publish` may drop the request. -/
  | call (sent : Bool)
  /-- `spinOnce` has the frame that answers the oldest request but some, which the host
  does not answer any more. -/
  | arrive (skipped : Nat)
  /-- `spinOnce` returns to the innermost call. -/
  | spun (code : Int)
  /-- The node loses or finds its connection. -/
  | connect (connected : Bool)
  deriving DecidableEq, Repr

/-- The request whose answer was written last to the response of a call. -/
def answerOf (call : Nat) (writes : List Write) : Option (Option Nat) :=
  ((writes.filter fun w => w.target = some call).getLast?).map Write.answer

/-- A call returns. -/
def finish (call : Nat) (calls : List Nat) (result : Bool) (s : State) : State :=
  { s with
    calls := calls
    returned := s.returned ++
      [{ call := call, result := result, answer := answerOf call s.writes }] }

/-- `call`, up to its loop. -/
def call (sent : Bool) (s : State) : State :=
  if s.connected then
    { s with
      client := s.client.begin s.next
      calls := s.next :: s.calls
      next := s.next + 1
      pending := if sent then s.pending ++ [some s.next] else s.pending }
  else finish s.next s.calls false { s with next := s.next + 1 }

/-- `callback`. -/
def arrive (request : Option Nat) (unanswered : List (Option Nat)) (s : State) : State :=
  { s with
    client := s.client.callback
    pending := unanswered
    writes := s.writes ++
      [{ target := s.client.ret, running := s.client.ret.any (· ∈ s.calls), answer := request }] }

/-- A step, which does nothing where it is not possible. -/
def step (s : State) : Step → State
  | .call sent => call sent s
  | .arrive skipped =>
    match s.pending.drop skipped with
    | [] => s
    | request :: unanswered => arrive request unanswered s
  | .spun code =>
    match s.calls with
    | [] => s
    | innermost :: calls =>
      match s.client.loop s.connected code with
      | none => s
      | some result => finish innermost calls result s
  | .connect connected => { s with connected := connected }

/-! ## Whose answer it is -/

/-- A call that returned `true` has the answer to its own request, and `callback` has
written to responses of running calls only. -/
structure Matched (s : State) : Prop where
  returned : ∀ r ∈ s.returned, r.result = true → r.answer = some (some r.call)
  writes : ∀ w ∈ s.writes, w.target.isSome ∧ w.running = true

/-- A frame comes in while the call that it answers is the only one that is running, and
began last. -/
def inTime (s : State) : Step → Bool
  | .arrive skipped =>
    match s.pending[skipped]? with
    | some request => request.isSome && s.calls = request.toList && s.client.ret = request
    | none => true
  | _ => true

/-- What `waiting` stands for: the only running call has its answer. -/
structure Settled (s : State) : Prop where
  matched : Matched s
  answered : s.client.waiting = false → ∀ call ∈ s.calls,
    s.calls = [call] ∧ answerOf call s.writes = some (some call)

section Steps

variable {s : State}

/-- The last write to a response is the one that counts. -/
theorem answerOf_append_self (call : Nat) (writes : List Write) (running : Bool)
    (answer : Option Nat) :
    answerOf call (writes ++ [⟨some call, running, answer⟩]) = some answer := by
  simp [answerOf, List.filter_append]

/-- A new call waits, and one that is not connected returns `false`. -/
theorem Settled.call (h : Settled s) (sent : Bool) : Settled (call sent s) := by
  unfold ServiceCalls.call
  split
  · exact ⟨⟨h.matched.returned, h.matched.writes⟩, nofun⟩
  · refine ⟨⟨?_, h.matched.writes⟩, h.answered⟩
    intro r hr hresult
    rcases List.mem_append.mp hr with hold | hnew
    · exact h.matched.returned r hold hresult
    · obtain rfl := List.mem_singleton.mp hnew
      cases hresult

/-- A frame in time is written to the response of its own call. -/
theorem Settled.arrive (h : Settled s) {call : Nat} (hcalls : s.calls = [call])
    (hret : s.client.ret = some call) (unanswered : List (Option Nat)) :
    Settled (arrive (some call) unanswered s) := by
  have hrunning : s.client.ret.any (· ∈ s.calls) = true := by
    rw [hret, hcalls]
    simp
  refine ⟨⟨h.matched.returned, ?_⟩, ?_⟩
  · intro w hw
    rcases List.mem_append.mp hw with hold | hnew
    · exact h.matched.writes w hold
    · obtain rfl := List.mem_singleton.mp hnew
      exact ⟨by rw [hret]; rfl, hrunning⟩
  · intro _ call' hmem
    have hmem' : call' ∈ s.calls := hmem
    rw [hcalls] at hmem'
    obtain rfl := List.mem_singleton.mp hmem'
    refine ⟨hcalls, ?_⟩
    show answerOf call' (s.writes ++ [_]) = _
    rw [hret]
    exact answerOf_append_self call' s.writes _ _

/-- A call that returns `true` was not waiting any more. -/
theorem Settled.spun (h : Settled s) {innermost : Nat} {calls : List Nat}
    (hcalls : s.calls = innermost :: calls) {code : Int} {result : Bool}
    (hloop : s.client.loop s.connected code = some result) :
    Settled (finish innermost calls result s) := by
  have hinnermost : innermost ∈ s.calls := hcalls ▸ List.mem_cons_self
  refine ⟨⟨?_, h.matched.writes⟩, ?_⟩
  · intro r hr hresult
    rcases List.mem_append.mp hr with hold | hnew
    · exact h.matched.returned r hold hresult
    · obtain rfl := List.mem_singleton.mp hnew
      obtain rfl : result = true := hresult
      unfold ServiceClient.loop at hloop
      split_ifs at hloop with hcode
      · cases hloop
      · have hdone : (!s.client.waiting && s.connected) = true := Option.some.inj hloop
        simp only [Bool.and_eq_true, Bool.not_eq_true'] at hdone
        exact (h.answered hdone.1 innermost hinnermost).2
  · intro hwaiting call hmem
    have hone := (h.answered hwaiting innermost hinnermost).1
    rw [hcalls] at hone
    obtain rfl : calls = [] := (List.cons.inj hone).2
    cases hmem

/-- A step in time keeps the calls and the answers matched. -/
theorem Settled.step (h : Settled s) {st : Step} (htime : inTime s st = true) :
    Settled (step s st) := by
  cases st with
  | call sent => exact h.call sent
  | arrive skipped =>
    rw [ServiceCalls.step]
    split
    · exact h
    · rename_i request unanswered hdrop
      have hrequest : s.pending[skipped]? = some request := by
        rw [← List.head?_drop, hdrop]
        rfl
      simp only [inTime, hrequest, Bool.and_eq_true, decide_eq_true_eq] at htime
      obtain ⟨⟨hsome, hcalls⟩, hret⟩ := htime
      obtain ⟨call, rfl⟩ := Option.isSome_iff_exists.mp hsome
      exact h.arrive hcalls hret unanswered
  | spun code =>
    rw [ServiceCalls.step]
    split
    · exact h
    · rename_i innermost calls hcalls
      split
      · exact h
      · rename_i result hloop
        exact h.spun hcalls hloop
  | connect connected => exact ⟨⟨h.matched.returned, h.matched.writes⟩, h.answered⟩

end Steps

/-- In every run in which the frames come in time, the calls return their own answers and
`callback` writes to responses of running calls. -/
theorem matched_of_inTime (stray : Nat) {steps : List Step}
    (htime : Throughout step (fun s st => inTime s st = true) (new stray) steps) :
    Always step Matched (new stray) steps := by
  have hstart : Settled (new stray) := ⟨⟨nofun, nofun⟩, nofun⟩
  exact (Always.of_throughout hstart (fun _ _ h htime => h.step htime) htime).mono
    fun _ h => h.matched

/-- A call that is answered while it spins. -/
theorem answeredCall_matched :
    (run step (new 0) [.connect true, .call true, .spun 0, .arrive 0, .spun 0]).returned =
        [⟨0, true, some (some 0)⟩] ∧
      Always step Matched (new 0) [.connect true, .call true, .spun 0, .arrive 0, .spun 0] := by
  refine ⟨by decide, matched_of_inTime 0 ?_⟩
  simp only [throughout_cons]
  exact ⟨by decide, by decide, by decide, by decide, by decide, throughout_nil⟩

/-- The answer to a call that has given up is the answer of the next call. -/
theorem lateAnswer_not_matched :
    ¬ ∀ (stray : Nat) (steps : List Step), Always step Matched (new stray) steps := by
  intro h
  have hall := (h 0 [.connect true, .call true, .spun (-2), .call true, .arrive 0, .spun 0]).last
  have hfinal : (run step (new 0) [.connect true, .call true, .spun (-2), .call true, .arrive 0,
      .spun 0]).returned = [⟨0, false, none⟩, ⟨1, true, some (some 0)⟩] := by
    decide
  have hanswer := hall.returned ⟨1, true, some (some 0)⟩ (by rw [hfinal]; decide) rfl
  revert hanswer
  decide

end ServiceCalls

end Ros2Serial.Device
