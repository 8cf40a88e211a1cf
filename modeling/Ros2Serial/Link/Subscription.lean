import Ros2Serial.Device.Subscription
import Ros2Serial.Link.Delivery

/-!
# Values that come from the host

A session writes messages for a node, which reads them in any number of calls.  Those
for one of its subscribers carry values of its type, and between them there are messages
for other subscribers and requests of the protocol.

* `message_in` holds each of them when the branch of the subscriber is taken
  (`sent_of_serves`).
* So `cb_` gets the values, in order, each of them once (`values_delivered`).
-/

namespace Ros2Serial.Link

open Bytes Generator Device Host

/-- What `message_in` holds each time that the branch of a subscriber is taken. -/
def deliveredTo (index : Nat) (acts : List (Branch × List UInt8)) : List (List UInt8) :=
  acts.filterMap fun act => if act.1 = .subscriber index then some act.2 else none

/-- The messages for a subscriber. -/
def messagesFor (index : Nat) (messages : List (Nat × List UInt8)) : List (Nat × List UInt8) :=
  messages.filter fun message => message.1 = 100 + index

theorem messagesFor_nil (index : Nat) : messagesFor index [] = [] := rfl

section Acts

variable {cfg : NodeConfig} {D : MessageDef} {index : Nat}

/-- The branch of a subscriber belongs to its topic. -/
theorem branchOf_eq_subscriber_iff {topic : Nat} :
    branchOf (topic : Int) = .subscriber index ↔ topic = 100 + index := by
  constructor
  · intro h
    unfold branchOf at h
    cases hspecial : specialBranch (topic : Int) with
    | none =>
      rw [hspecial, Option.getD_none, Branch.subscriber.injEq] at h
      omega
    | some branch =>
      rw [hspecial, Option.getD_some] at h
      subst h
      unfold specialBranch at hspecial
      split_ifs at hspecial <;> cases hspecial
  · rintro rfl
    exact branchOf_subscriber index

/-- The acts of a run, on messages that have room, and of which those for the subscriber are
values of its type. -/
theorem sent_of_serves {acts : List (Branch × List UInt8)} {messages : List (Nat × List UInt8)}
    (h : List.Forall₂ Serves acts messages)
    (hinputs : ∀ act ∈ acts, act.2.length = cfg.INPUT_SIZE)
    (hroom : ∀ message ∈ messages, message.2.length ≤ cfg.INPUT_SIZE) {vs : List D.Val}
    (hvalues : List.Forall₂ (fun message v => (⟨D, v⟩ : Msg).Encodes message.2)
      (messagesFor index messages) vs) :
    List.Forall₂ (Sent cfg D) (deliveredTo index acts) vs := by
  induction h generalizing vs with
  | nil =>
    cases hvalues
    exact .nil
  | @cons act message acts messages hserves _ ih =>
    obtain ⟨hbranch, hpayload⟩ := hserves
    have hfirst := hinputs act List.mem_cons_self
    have hfits := hroom message List.mem_cons_self
    have hmore : ∀ {vs : List D.Val},
        List.Forall₂ (fun message v => (⟨D, v⟩ : Msg).Encodes message.2)
          (messagesFor index messages) vs →
        List.Forall₂ (Sent cfg D) (deliveredTo index acts) vs :=
      ih (fun act hact => hinputs act (List.mem_cons_of_mem _ hact))
        (fun message hmessage => hroom message (List.mem_cons_of_mem _ hmessage))
    by_cases htopic : message.1 = 100 + index
    · have hsubscriber : act.1 = .subscriber index :=
        hbranch.trans (branchOf_eq_subscriber_iff.mpr htopic)
      have hact : deliveredTo index (act :: acts) = act.2 :: deliveredTo index acts :=
        List.filterMap_cons_some (if_pos hsubscriber)
      have hmessages : messagesFor index (message :: messages) =
          message :: messagesFor index messages :=
        List.filter_cons_of_pos (decide_eq_true htopic)
      rw [hmessages] at hvalues
      rw [hact]
      cases hvalues with
      | cons hv hrest =>
        have htake : act.2.take message.2.length = message.2.take cfg.INPUT_SIZE :=
          hpayload.trans (List.take_of_length_le hfits).symm
        exact .cons ⟨message.2, ⟨hfirst, htake⟩, hfits, hv⟩ (hmore hrest)
    · have hother : act.1 ≠ .subscriber index :=
        fun hsubscriber => htopic (branchOf_eq_subscriber_iff.mp (hbranch.symm.trans hsubscriber))
      have hact : deliveredTo index (act :: acts) = deliveredTo index acts :=
        List.filterMap_cons_none (if_neg hother)
      have hmessages : messagesFor index (message :: messages) = messagesFor index messages :=
        List.filter_cons_of_neg (by simpa using htopic)
      rw [hmessages] at hvalues
      rw [hact]
      exact hmore hvalues

/-- The values in the first messages have reached `cb_`, and all have when no message is left. -/
theorem values_served {P : Platform} (hP : P.Allocates) {reserved : String → Prop}
    (hD : D.Compiles reserved) (hinv : D.Invertible) {acts : List (Branch × List UInt8)}
    {done left : List (Nat × List UInt8)} (hserved : List.Forall₂ Serves acts done)
    (hinputs : ∀ act ∈ acts, act.2.length = cfg.INPUT_SIZE)
    (hroom : ∀ message ∈ done, message.2.length ≤ cfg.INPUT_SIZE) {vs : List D.Val}
    (hvalues : List.Forall₂ (fun message v => (⟨D, v⟩ : Msg).Encodes message.2)
      (messagesFor index (done ++ left)) vs) :
    (Device.Subscriber.construct D).values cfg P D (deliveredTo index acts) <+: vs.map some ∧
      (left = [] →
        (Device.Subscriber.construct D).values cfg P D (deliveredTo index acts) = vs.map some) := by
  have husable := Device.Subscriber.construct_usable (P := P) hD
  have hsplit : messagesFor index (done ++ left) =
      messagesFor index done ++ messagesFor index left := List.filter_append ..
  rw [hsplit] at hvalues
  have hdone := List.forall₂_take (messagesFor index done).length hvalues
  rw [List.take_left] at hdone
  have hsent := sent_of_serves hserved hinputs hroom hdone
  rw [husable.values_sent hP hD hinv hsent]
  refine ⟨(List.take_prefix _ vs).map some, fun hleft => ?_⟩
  have hlength := hvalues.length_eq
  rw [hleft, messagesFor_nil, List.append_nil] at hlength
  rw [hlength, List.take_length]

end Acts

/-- The values of a subscriber's type that are in the messages for it reach `cb_`, in order
and once each.  At any time those of the first messages have, and when all bytes have
arrived and are read, all have. -/
theorem values_delivered {cfg : NodeConfig} {callbacks : Callbacks cfg} {nh : NodeHandle}
    {s : Session} {messages : List (Nat × List UInt8)} {calls : List Call} {later : List UInt8}
    (hinit : nh.Initialised cfg) (hmode : nh.receiver.mode = .FIRST_FF)
    (htopics : ∀ message ∈ messages, message.1 < 65536 ∧ HasBranch nh message.1)
    (hlengths : ∀ message ∈ messages, message.2.length ≤ min cfg.INPUT_SIZE 65527)
    (hstream : nh.hardware.rx ++ calls.flatMap Call.arrived ++ later =
      (framesFor s messages).flatten)
    (hreset : .reset ∉ (run cfg callbacks nh calls).2) {P : Platform} (hP : P.Allocates)
    {reserved : String → Prop} {D : MessageDef} (hD : D.Compiles reserved) (hinv : D.Invertible)
    {index : Nat} {vs : List D.Val}
    (hvalues : List.Forall₂ (fun message v => (⟨D, v⟩ : Msg).Encodes message.2)
      (messagesFor index messages) vs) :
    (Device.Subscriber.construct D).values cfg P D
        (deliveredTo index (taken (run cfg callbacks nh calls).2)) <+: vs.map some ∧
      (later = [] → (run cfg callbacks nh calls).1.hardware.rx = [] →
        (Device.Subscriber.construct D).values cfg P D
          (deliveredTo index (taken (run cfg callbacks nh calls).2)) = vs.map some) := by
  have hspins := run_spins callbacks hinit calls
  have hwritten : framesFor s messages =
      messages.map fun message => Wire.encode message.1 message.2 := by
    have hall := writeAll_written (fun message hmessage =>
      ⟨(htopics message hmessage).1, by have := hlengths message hmessage; omega⟩) s
    rw [framesFor, hall, List.drop_left]
  rw [hspins.rx, hwritten, ← List.flatMap_def, List.append_assoc] at hstream
  have hfits : ∀ message ∈ messages, Fits cfg message := by
    intro message hmessage
    have hlength := hlengths message hmessage
    obtain ⟨htopic, hbranch⟩ := htopics message hmessage
    exact ⟨htopic, hbranch.valid hinit, by omega, by omega⟩
  have hstart : Position nh.receiver messages
      (bytesRead (run cfg callbacks nh calls).2 ++
        ((run cfg callbacks nh calls).1.hardware.rx ++ later)) := by
    rw [hstream]
    exact .first hmode
  obtain ⟨done, left, rfl, hserved, hlast⟩ := hstart.follows hspins.follows hreset hfits
    (fun message hmessage => (htopics message hmessage).2.handled) hinit.messageIn
  have hinputs : ∀ act ∈ taken (run cfg callbacks nh calls).2, act.2.length = cfg.INPUT_SIZE :=
    fun act hact => (taken_length hspins.follows act hact).trans hinit.messageIn
  have hroom : ∀ message ∈ done, message.2.length ≤ cfg.INPUT_SIZE := fun message hmessage =>
    (Nat.le_min.mp (hlengths message (List.mem_append_left _ hmessage))).1
  obtain ⟨hdelivered, hall⟩ := values_served hP hD hinv hserved hinputs hroom hvalues
  refine ⟨hdelivered, fun hlater hrx => hall ?_⟩
  rw [hlater, hrx] at hlast
  exact hlast.done

/-- The text `h`. -/
def textH : textDef.Val := (one .string ⟨[0x68], by decide, by decide⟩, ())

theorem textDef_invertible : textDef.Invertible := by
  simp [textDef, MessageDef.Invertible, DataClass.Invertible]

theorem textPayload_encodes : (⟨textDef, textH⟩ : Msg).Encodes textPayload := by
  have hlayout : PlainCdr.encode 0 (encapsulationItems ++ textDef.items textH) =
      textPayload.map some := by decide
  exact (congrArg (PlainCdr.Matches · textPayload) hlayout).mpr
    (PlainCdr.matches_map_some.mpr rfl)

/-- A topic request, the text, a disconnection, and the text again. -/
def textMessages : List (Nat × List UInt8) :=
  [(0, []), (100, textPayload), (11, [0]), (100, textPayload)]

def textCalls : List Call :=
  [.arrive ((Wire.encodeAll textMessages).take 20), .spinOnce, .spinOnce,
    .arrive ((Wire.encodeAll textMessages).drop 20), .spinOnce]

set_option maxRecDepth 4000 in
theorem textMessages_delivered :
    (Device.Subscriber.construct textDef).values atmega168 exactPlatform textDef
      (deliveredTo 0 (taken (run atmega168 (noCallbacks _) subscribedNode textCalls).2)) =
        [some textH, some textH] := by
  obtain ⟨buffer, hnew⟩ := AsyncReadBuffer.new_isSome Continuation
    (show buffer_max < 2 ^ 63 by decide)
  obtain ⟨s, -⟩ : ∃ s, Session.new 1 true = some s := ⟨_, by rw [Session.new, hnew]; rfl⟩
  have hinit := (subscribe_keeps (construct_initialised atmega168 idleHardware)
    subscriberA).initialised
  have hregistered : subscribedNode.Registered 0 := ⟨by decide, _, rfl⟩
  have htopics : ∀ message ∈ textMessages,
      message.1 < 65536 ∧ HasBranch subscribedNode message.1 := by
    intro message hmessage
    simp only [textMessages, List.mem_cons, List.not_mem_nil, or_false] at hmessage
    rcases hmessage with rfl | rfl | rfl | rfl
    · exact ⟨by decide, Or.inl (by decide)⟩
    · exact ⟨by decide, Or.inr hregistered⟩
    · exact ⟨by decide, Or.inl (by decide)⟩
    · exact ⟨by decide, Or.inr hregistered⟩
  have hwritten := writeAll_written (show ∀ message ∈ textMessages,
    message.1 < 65536 ∧ message.2.length ≤ 65527 by decide) s
  have hstream : subscribedNode.hardware.rx ++ textCalls.flatMap Call.arrived ++ [] =
      (framesFor s textMessages).flatten := by
    rw [framesFor, hwritten, List.drop_left]
    decide
  have hreset : .reset ∉ (run atmega168 (noCallbacks _) subscribedNode textCalls).2 := by
    decide +kernel
  have hvalues : List.Forall₂ (fun message v => (⟨textDef, v⟩ : Msg).Encodes message.2)
      (messagesFor 0 textMessages) [textH, textH] :=
    .cons textPayload_encodes (.cons textPayload_encodes .nil)
  exact (values_delivered hinit rfl htopics (by decide) hstream hreset exactPlatform_allocates
    textDef_compiles textDef_invertible hvalues).2 rfl (by decide +kernel)

end Ros2Serial.Link
