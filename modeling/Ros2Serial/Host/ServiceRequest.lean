import Ros2Serial.Host.TopicHandlers
import Ros2Serial.Lib.Runs

/-!
# Requests to a server on the device

A `ServiceServer` forwards the requests of ROS one by one and waits for each
response, while another thread takes the responses from the device.  The frames
carry no number.  The device answers in order, but may take longer than the
server waits, and need not answer at all.

What is returned is the response to the request itself, as long as no response
comes in while a later request waits (`answered_of_inTime`): the flag
`get_response_` does not say which request it is for.
-/

namespace Ros2Serial.Host

open Runs Bytes

/-! ## The exchange -/

/-- A request that `service_callback` waits for. -/
structure Serving where
  request : Nat
  waiting : ServiceServer.Waiting
  deriving DecidableEq, Repr

/-- What `service_callback` has returned for a request, which is `none` for `false`. -/
structure Returned where
  request : Nat
  response : Option (List UInt8)
  deriving DecidableEq, Repr

/-- A server and its device.  The requests are numbered here. -/
structure Exchange where
  server : ServiceServer
  serving : Option Serving
  /-- The number of the next request. -/
  next : Nat
  /-- The requests that the device has not answered, from the oldest on. -/
  pending : List Nat
  /-- The requests that it has answered, with the payloads. -/
  answers : List (Nat × List UInt8)
  returned : List Returned
  deriving DecidableEq, Repr

namespace Exchange

/-- A server that has its topic id. -/
def new (server : ServiceServer) : Exchange where
  server := server
  serving := none
  next := 0
  pending := []
  answers := []
  returned := []

inductive Step
  /-- `service_callback` is called.  ROS calls it for one request at a time. -/
  | start (serialized_request : List UInt8)
  /-- The device answers the oldest request but some, which it does not answer any more. -/
  | respond (skipped : Nat) (response : List UInt8)
  /-- `service_callback` goes on. -/
  | turn
  deriving DecidableEq, Repr

/-- `service_callback` up to its loop.  Where `write_message` throws, so does it. -/
def start (serialized_request : List UInt8) (s : Exchange) : Exchange :=
  let (server, request, topic_id) := s.server.startRequest serialized_request
  match messageBuffer request topic_id.toNat with
  | none => { s with server := server, next := s.next + 1 }
  | some _ =>
    { s with
      server := server
      serving := some { request := s.next, waiting := .test 0 }
      next := s.next + 1
      pending := s.pending ++ [s.next] }

/-- The response to a request comes in. -/
def respond (request : Nat) (unanswered : List Nat) (response : List UInt8) (s : Exchange) :
    Exchange :=
  { s with
    server := s.server.responseHandle response
    pending := unanswered
    answers := s.answers ++ [(request, response)] }

/-- `service_callback` goes on to its next interruption, or returns. -/
def turn (serving : Serving) (s : Exchange) : Exchange :=
  match s.server.wait serving.waiting with
  | .inl waiting => { s with serving := some { serving with waiting := waiting } }
  | .inr response =>
    { s with
      serving := none
      returned := s.returned ++ [{ request := serving.request, response := response }] }

/-- A step, which does nothing where it is not possible. -/
def step (s : Exchange) : Step → Exchange
  | .start serialized_request => if s.serving.isNone then s.start serialized_request else s
  | .respond skipped response =>
    match s.pending.drop skipped with
    | [] => s
    | request :: unanswered => s.respond request unanswered response
  | .turn =>
    match s.serving with
    | none => s
    | some serving => s.turn serving

/-! ## Whose response it is -/

/-- A response that is returned is the one to the request. -/
def Answered (s : Exchange) : Prop :=
  ∀ r ∈ s.returned, ∀ response, r.response = some response → (r.request, response) ∈ s.answers

/-- No response that would fill the buffer comes in while another request waits. -/
def inTime (s : Exchange) : Step → Bool
  | .respond skipped response =>
    match s.pending[skipped]?, s.serving with
    | some request, some serving =>
      serving.request = request || response = [] || response.length > s.server.capacity
    | _, _ => true
  | _ => true

/-- What the flag stands for: the response to the request that waits. -/
structure Matched (s : Exchange) : Prop where
  capacity : s.server.response_buffer.length = s.server.capacity
  flag : ∀ serving, s.serving = some serving → s.server.get_response = true →
    ∃ response, s.server.takeResponse = some response ∧ (serving.request, response) ∈ s.answers
  answered : s.Answered

section Steps

variable {s : Exchange}

/-- What `response_handle` does to the flag and the buffer. -/
theorem responseHandle_spec {srv : ServiceServer} (stream : List UInt8)
    (hcapacity : srv.response_buffer.length = srv.capacity) :
    (srv.responseHandle stream).response_buffer.length = (srv.responseHandle stream).capacity ∧
      (srv.responseHandle stream).capacity = srv.capacity ∧
      ((srv.responseHandle stream).get_response = true →
        stream ≠ [] ∧ stream.length ≤ srv.capacity ∧
          (srv.responseHandle stream).takeResponse = some stream) := by
  unfold ServiceServer.responseHandle
  split
  · exact ⟨hcapacity, rfl, nofun⟩
  · rename_i hroom
    dsimp only
    split
    · exact ⟨hcapacity, rfl, nofun⟩
    · rename_i hsome
      have hroom' : 0 + stream.length ≤ srv.response_buffer.length := by omega
      have hlength := overwrite_length hroom'
      refine ⟨hlength.trans hcapacity, rfl, fun _ => ⟨?_, by omega, ?_⟩⟩
      · intro heq
        subst heq
        exact hsome rfl
      · have hread : slice (overwrite srv.response_buffer 0 stream) 0 stream.length = stream :=
          slice_overwrite_self (Nat.zero_le _)
        rw [slice, List.drop_zero] at hread
        unfold ServiceServer.takeResponse
        dsimp only
        rw [if_neg hroom, hread]

/-- Answers are not forgotten. -/
theorem Answered.mono {s' : Exchange} (h : s.Answered) (hreturned : s'.returned = s.returned)
    (hanswers : ∀ answer ∈ s.answers, answer ∈ s'.answers) : s'.Answered := by
  intro r hr response hresponse
  rw [hreturned] at hr
  exact hanswers _ (h r hr response hresponse)

/-- A new request resets the flag. -/
theorem Matched.start (h : s.Matched) (request : List UInt8) : (s.start request).Matched := by
  unfold Exchange.start ServiceServer.startRequest
  dsimp only
  split
  · exact ⟨h.capacity, nofun, h.answered.mono rfl fun _ => id⟩
  · exact ⟨h.capacity, nofun, h.answered.mono rfl fun _ => id⟩

/-- A response that comes in sets the flag for the request that waits. -/
theorem Matched.respond (h : s.Matched) {request : Nat} {response : List UInt8}
    (htime : ∀ serving, s.serving = some serving → serving.request = request ∨ response = [] ∨
      response.length > s.server.capacity) (unanswered : List Nat) :
    (s.respond request unanswered response).Matched := by
  obtain ⟨hlength, hcapacity, hflag⟩ := responseHandle_spec response h.capacity
  have hanswered : (s.respond request unanswered response).Answered :=
    h.answered.mono rfl fun _ hmem => List.mem_append_left _ hmem
  refine ⟨hlength, fun serving hserving hset => ?_, hanswered⟩
  obtain ⟨hsome, hroom, htake⟩ := hflag hset
  have hown : serving.request = request :=
    (htime serving hserving).resolve_right fun hrejected =>
      hrejected.elim hsome fun hlong => Nat.not_lt_of_le hroom hlong
  exact ⟨response, htake, hown ▸ List.mem_append_right _ (List.mem_singleton_self _)⟩

/-- What `service_callback` returns is what the flag stands for. -/
theorem Matched.turn (h : s.Matched) {serving : Serving} (hserving : s.serving = some serving) :
    (s.turn serving).Matched := by
  have hreturn : ∀ response, s.server.wait serving.waiting = .inr response →
      ∀ bytes, response = some bytes → (serving.request, bytes) ∈ s.answers := by
    intro response hwait bytes hbytes
    subst hbytes
    cases hwaiting : serving.waiting with
    | test cnt_ms =>
      rw [hwaiting, ServiceServer.wait] at hwait
      split at hwait
      · rename_i hset
        obtain ⟨own, htake, hmem⟩ := h.flag serving hserving hset
        obtain rfl : own = bytes := Option.some.inj (htake.symm.trans (Sum.inr.inj hwait))
        exact hmem
      · cases hwait
    | sleep cnt_ms =>
      rw [hwaiting, ServiceServer.wait] at hwait
      split at hwait <;> cases hwait
  unfold Exchange.turn
  split
  · refine ⟨h.capacity, ?_, h.answered⟩
    intro serving' hserving' hset
    obtain rfl := Option.some.inj hserving'
    exact h.flag serving hserving hset
  · rename_i response hwait
    refine ⟨h.capacity, nofun, ?_⟩
    intro r hr bytes hbytes
    rcases List.mem_append.mp hr with hold | hnew
    · exact h.answered r hold bytes hbytes
    · obtain rfl := List.mem_singleton.mp hnew
      exact hreturn response hwait bytes hbytes

/-- A step that is in time keeps the flag and the buffer matched. -/
theorem Matched.step (h : s.Matched) {st : Step} (htime : s.inTime st = true) :
    (s.step st).Matched := by
  cases st with
  | start request =>
    rw [Exchange.step]
    split
    · exact h.start request
    · exact h
  | respond skipped response =>
    rw [Exchange.step]
    split
    · exact h
    · rename_i request unanswered hdrop
      refine h.respond (fun serving hserving => ?_) unanswered
      have hrequest : s.pending[skipped]? = some request := by
        rw [← List.head?_drop, hdrop]
        rfl
      simp only [inTime, hrequest, hserving, Bool.or_eq_true, decide_eq_true_eq] at htime
      exact or_assoc.mp htime
  | turn =>
    rw [Exchange.step]
    split
    · exact h
    · rename_i serving hserving
      exact h.turn hserving

end Steps

/-- `service_callback` returns the responses to its own requests, in every run in which the
responses come in time. -/
theorem answered_of_inTime (topic_info : TopicInfo) (capacity : Nat) (timeout : Int)
    (topic_id : UInt16) {steps : List Step}
    (htime : Throughout step (fun s st => s.inTime st = true)
      (new ((ServiceServer.new topic_info capacity timeout).setTopicId topic_id)) steps) :
    Always step Answered
      (new ((ServiceServer.new topic_info capacity timeout).setTopicId topic_id)) steps := by
  have hstart : (new ((ServiceServer.new topic_info capacity timeout).setTopicId topic_id)).Matched :=
    ⟨List.length_replicate, nofun, nofun⟩
  exact (Always.of_throughout hstart (fun _ _ h htime => h.step htime) htime).mono
    fun _ h => h.answered

/-- A service on the device. -/
def lamp : TopicInfo := ⟨100, "/lamp", "std_srvs/srv/SetBool", 512⟩

/-- A response that comes while the request waits. -/
theorem response_answered :
    (run step (new ((ServiceServer.new lamp 16 2000).setTopicId 100))
        [.start [1], .turn, .respond 0 [5], .turn, .turn]).returned = [⟨0, some [5]⟩] ∧
      Always step Answered (new ((ServiceServer.new lamp 16 2000).setTopicId 100))
        [.start [1], .turn, .respond 0 [5], .turn, .turn] := by
  refine ⟨by decide, answered_of_inTime lamp 16 2000 100 ?_⟩
  simp only [throughout_cons]
  exact ⟨by decide, by decide, by decide, by decide, by decide, throughout_nil⟩

/-- A response that comes too late is returned for the next request. -/
theorem lateResponse_not_answered :
    ¬ ∀ (topic_info : TopicInfo) (capacity : Nat) (timeout : Int) (topic_id : UInt16)
      (steps : List Step), Always step Answered
        (new ((ServiceServer.new topic_info capacity timeout).setTopicId topic_id)) steps := by
  intro h
  have hall := (h lamp 16 0 100 [.start [1], .turn, .turn, .turn, .turn, .start [0],
    .respond 0 [5], .turn]).last
  have hfinal : run step (new ((ServiceServer.new lamp 16 0).setTopicId 100))
      [.start [1], .turn, .turn, .turn, .turn, .start [0], .respond 0 [5], .turn] =
        { server := { (ServiceServer.new lamp 16 0).setTopicId 100 with
            response_buffer := [5, 0, 0, 0, 0, 0, 0, 0, 0, 0, 0, 0, 0, 0, 0, 0]
            buffer_len := 1, get_response := true }
          serving := none, next := 2, pending := [1], answers := [(0, [5])]
          returned := [⟨0, none⟩, ⟨1, some [5]⟩] } := by
    decide
  rw [hfinal] at hall
  have hmem := hall ⟨1, some [5]⟩ (by decide) [5] rfl
  revert hmem
  decide

end Exchange

end Ros2Serial.Host
