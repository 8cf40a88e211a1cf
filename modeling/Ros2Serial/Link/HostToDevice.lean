import Ros2Serial.Device.Frames
import Ros2Serial.Host.Session

/-!
# From the host to the device

What the host writes is what the device acts on.  `write_message` dispatches
one frame for each message (`writeAll_written`), and the state machine of a
device that suffers no timeout takes the branch of each frame of its stream
once (`Position.follows`).  `device_acts` puts them together, for every way in
which the frames are split over the calls of a run.
-/

namespace Ros2Serial.Link

open Device Host

/-! ## The host's side -/

/-- `write_message`, for each topic id with its message. -/
def writeAll (messages : List (Nat × List UInt8)) (s : Session) : Session :=
  messages.foldl (fun s message => s.writeMessage message.2 message.1) s

/-- The frames that the session has dispatched for the messages. -/
def framesFor (s : Session) (messages : List (Nat × List UInt8)) : List (List UInt8) :=
  (writeAll messages s).written.drop s.written.length

theorem writeAll_written {messages : List (Nat × List UInt8)}
    (h : ∀ message ∈ messages, message.1 < 65536 ∧ message.2.length ≤ 65527) (s : Session) :
    (writeAll messages s).written =
      s.written ++ messages.map fun message => Wire.encode message.1 message.2 := by
  induction messages generalizing s with
  | nil => exact (List.append_nil _).symm
  | cons message messages ih =>
    obtain ⟨htopic, hlength⟩ := h message List.mem_cons_self
    have hwrite : (s.writeMessage message.2 message.1).written =
        s.written ++ [Wire.encode message.1 message.2] := by
      rw [Session.writeMessage, messageBuffer_eq hlength htopic]
      rfl
    have hrest := ih (fun m hm => h m (List.mem_cons_of_mem _ hm))
      (s.writeMessage message.2 message.1)
    rw [hwrite, List.append_assoc] at hrest
    exact hrest

/-! ## The device's side -/

/-- The device has a branch for the topic: one of its own, or a subscriber. -/
def HasBranch (nh : NodeHandle) (topic : Int) : Prop :=
  topic ∈ [Device.TopicInfo.ID_PUBLISHER, Device.TopicInfo.ID_PARAMETER_REQUEST,
    Device.TopicInfo.ID_TIME, Device.TopicInfo.ID_TX_STOP] ∨ nh.Registered (topic - 100)

theorem HasBranch.handled {nh : NodeHandle} {topic : Int} (h : HasBranch nh topic) :
    Handled nh.Registered topic := by
  refine h.imp_left fun hmem => ?_
  simp only [List.mem_cons, List.not_mem_nil, or_false] at hmem
  rcases hmem with rfl | rfl | rfl | rfl <;> rfl

theorem HasBranch.valid {cfg : NodeConfig} {nh : NodeHandle} (hinit : nh.Initialised cfg)
    {topic : Int} (h : HasBranch nh topic) : cfg.isTopicValid topic = true := by
  rw [isTopicValid_iff]
  rcases h with hmem | ⟨hindex, e, he⟩
  · simp only [List.mem_cons, List.not_mem_nil, or_false] at hmem
    rcases hmem with rfl | rfl | rfl | rfl
    all_goals
      simp only [Device.TopicInfo.ID_PUBLISHER, Device.TopicInfo.ID_PARAMETER_REQUEST,
        Device.TopicInfo.ID_TIME, Device.TopicInfo.ID_TX_STOP]
      omega
  · have hlt := (List.getElem?_eq_some_iff.mp he).1
    rw [hinit.subscribers] at hlt
    omega

/-- The device acts on what the host has written: it takes the branches of the
messages, in order, with the payload in `message_in` each time.  At any time it
has acted on the first of them, and when all bytes have arrived and are read, on
all. -/
theorem device_acts {cfg : NodeConfig} {callbacks : Callbacks cfg} {nh : NodeHandle} {s : Session}
    {messages : List (Nat × List UInt8)} {calls : List Call} {later : List UInt8}
    (hinit : nh.Initialised cfg) (hmode : nh.receiver.mode = .FIRST_FF)
    (htopics : ∀ message ∈ messages, message.1 < 65536 ∧ HasBranch nh message.1)
    (hlengths : ∀ message ∈ messages, message.2.length ≤ min cfg.INPUT_SIZE 65527)
    (hstream : nh.hardware.rx ++ calls.flatMap Call.arrived ++ later =
      (framesFor s messages).flatten)
    (hreset : .reset ∉ (run cfg callbacks nh calls).2) :
    ∃ done left, messages = done ++ left ∧
      List.Forall₂ Serves (taken (run cfg callbacks nh calls).2) done ∧
      (later = [] → (run cfg callbacks nh calls).1.hardware.rx = [] → left = []) := by
  have hspins := run_spins callbacks hinit calls
  have hframes : (framesFor s messages).flatten = Wire.encodeAll messages := by
    have hwritten := writeAll_written (fun message hmessage =>
      ⟨(htopics message hmessage).1, by have := hlengths message hmessage; omega⟩) s
    rw [framesFor, hwritten, List.drop_left, Wire.encodeAll, List.flatMap_def]
  rw [hspins.rx, hframes, List.append_assoc] at hstream
  have hfits : ∀ message ∈ messages, Fits cfg message := by
    intro message hmessage
    have hlength := hlengths message hmessage
    obtain ⟨htopic, hbranch⟩ := htopics message hmessage
    exact ⟨htopic, hbranch.valid hinit, by omega, by omega⟩
  have hstart : Position nh.receiver messages
      (bytesRead (run cfg callbacks nh calls).2 ++
        ((run cfg callbacks nh calls).1.hardware.rx ++ later)) := by
    rw [hstream]
    exact .first hmode
  obtain ⟨done, left, hmessages, hserved, hlast⟩ := hstart.follows hspins.follows hreset hfits
    (fun message hmessage => (htopics message hmessage).2.handled) hinit.messageIn
  refine ⟨done, left, hmessages, hserved, fun hlater hrx => ?_⟩
  rw [hlater, hrx] at hlast
  exact hlast.done

/-- A subscriber of a topic `a`. -/
def subscriberA : Endpoint where
  id := 0
  endpoint := 1
  topic := ⟨[97], by decide, by decide⟩
  type := ⟨[98], by decide, by decide⟩
  md5 := ⟨[99], by decide, by decide⟩

def subscribedNode : NodeHandle := (subscribe subscriberA (freshNode atmega168)).1

/-- A topic request, a message for the subscriber, and a disconnection. -/
def requests : List (Nat × List UInt8) := [(0, []), (100, [1, 2, 3]), (11, [0])]

/-- The frames are cut in the first header.  The call that reads the topic request
returns after it. -/
def cutCalls : List Call :=
  [.arrive ((Wire.encodeAll requests).take 5), .spinOnce,
    .arrive ((Wire.encodeAll requests).drop 5), .spinOnce, .spinOnce]

set_option maxRecDepth 4000 in
theorem requests_acted :
    List.Forall₂ Serves (taken (run atmega168 (noCallbacks _) subscribedNode cutCalls).2)
      requests := by
  obtain ⟨buffer, hnew⟩ := AsyncReadBuffer.new_isSome Continuation
    (show buffer_max < 2 ^ 63 by decide)
  obtain ⟨s, -⟩ : ∃ s, Session.new 1 true = some s := ⟨_, by rw [Session.new, hnew]; rfl⟩
  have hinit := (subscribe_keeps (construct_initialised atmega168 idleHardware)
    subscriberA).initialised
  have hregistered : subscribedNode.Registered 0 := ⟨by decide, _, rfl⟩
  have htopics : ∀ message ∈ requests, message.1 < 65536 ∧ HasBranch subscribedNode message.1 := by
    intro message hmessage
    simp only [requests, List.mem_cons, List.not_mem_nil, or_false] at hmessage
    rcases hmessage with rfl | rfl | rfl
    · exact ⟨by decide, Or.inl (by decide)⟩
    · exact ⟨by decide, Or.inr hregistered⟩
    · exact ⟨by decide, Or.inl (by decide)⟩
  have hwritten := writeAll_written (show ∀ message ∈ requests,
    message.1 < 65536 ∧ message.2.length ≤ 65527 by decide) s
  have hstream : subscribedNode.hardware.rx ++ cutCalls.flatMap Call.arrived ++ [] =
      (framesFor s requests).flatten := by
    rw [framesFor, hwritten, List.drop_left]
    decide
  have hreset : .reset ∉ (run atmega168 (noCallbacks _) subscribedNode cutCalls).2 := by
    decide +kernel
  obtain ⟨done, left, hall, hserved, hdone⟩ :=
    device_acts hinit rfl htopics (by decide) hstream hreset
  rw [hdone rfl (by decide +kernel), List.append_nil] at hall
  rw [hall]
  exact hserved

end Ros2Serial.Link
