import Ros2Serial.Host.Endpoints
import Ros2Serial.Lib.Runs

/-!
# The order of the setup frames

A service has two topics, and the device announces each with a setup frame of
its own.  Either handler makes the endpoint if it comes first, and then enters
it in `callbacks_` under the id of its own frame.  Where ROS does not make what
the endpoint is made of, the handler throws and the tables stay as they are.

`IsSetUp` is what a session needs: the endpoint gets the messages of the topic
that the device publishes, and it sends under the id of the other one.  That is
so if and only if, from the first frame whose handler makes the endpoint on, the
publisher's frame comes first and the subscriber's among the others
(`isSetUp_iff`).
-/

namespace Ros2Serial.Host.Registry

open Runs

/-! ## The frames of one service -/

/-- The setup frames of a service. -/
inductive SetupFrame
  | publisher
  | subscriber
  deriving DecidableEq, Repr

/-- The message of a setup frame. -/
def SetupFrame.topicInfo (publisher subscriber : TopicInfo) : SetupFrame → TopicInfo
  | .publisher => publisher
  | .subscriber => subscriber

/-- The handler of a setup frame.  The flag is `false` where ROS throws when the constructor
of the endpoint asks it for a client or a server. -/
def setupService (kind : ServiceKind) (publisher subscriber : TopicInfo) (s : Registry)
    (frame : SetupFrame × Bool) : Registry :=
  match frame.1 with
  | .publisher => s.setupServicePublisher kind frame.2 publisher
  | .subscriber => s.setupServiceSubscriber kind frame.2 subscriber

/-- The handler of the frame can make the endpoint: there is no converter for the type, so
that ROS is not asked, or ROS does not throw. -/
def makesEndpoint (publisher subscriber : TopicInfo) (s : Registry) (frame : SetupFrame × Bool) :
    Bool :=
  !decide ((frame.1.topicInfo publisher subscriber).message_type ∈ s.converters) || frame.2

/-- The frames from the first one on whose handler can make the endpoint. -/
def fromEndpoint (publisher subscriber : TopicInfo) (s : Registry)
    (frames : List (SetupFrame × Bool)) : List SetupFrame :=
  (frames.dropWhile fun frame => !makesEndpoint publisher subscriber s frame).map Prod.fst

/-- The endpoint of the service is entered for the publisher's topic, not for the
subscriber's, and has the subscriber's id. -/
def IsSetUp (kind : ServiceKind) (publisher subscriber : TopicInfo) (before s : Registry) : Prop :=
  ∃ srv, (s.services kind).lookup publisher.topic_name = some srv ∧
    s.callbacks.lookup publisher.topic_id = some (serviceHandler kind srv) ∧
    s.callbacks.lookup subscriber.topic_id = before.callbacks.lookup subscriber.topic_id ∧
    s.topicId kind srv = some subscriber.topic_id

section Frames

variable {kind : ServiceKind} {publisher subscriber : TopicInfo} {s : Registry} {srv : Nat}

/-- An endpoint that is not in the table is made unless the constructor throws. -/
theorem createService_constructed {topic_info : TopicInfo}
    (habsent : topic_info.topic_name ∉ s.services kind) (created : Bool) :
    (s.createService kind created topic_info).2 =
      (!decide (topic_info.message_type ∈ s.converters) || created) := by
  unfold createService
  rw [if_neg habsent]
  cases kind with
  | client =>
    by_cases hmem : topic_info.message_type ∈ s.converters <;> cases created <;>
      simp [newServiceClient, hmem]
  | server =>
    unfold newServiceServer
    dsimp only
    cases hlookup : s.converters.lookup topic_info.message_type with
    | none => simp [AList.lookup_eq_none.mp hlookup]
    | some converter =>
      have hmem := AList.lookup_isSome.mp (Option.isSome_of_eq_some hlookup)
      cases created <;> simp [hmem]

/-- The types of the converters stay the same. -/
theorem createService_converters (created : Bool) (topic_info : TopicInfo) (type : String) :
    type ∈ (s.createService kind created topic_info).1.converters ↔ type ∈ s.converters := by
  by_cases hpresent : topic_info.topic_name ∈ s.services kind
  · rw [createService_present hpresent]
  · unfold createService
    rw [if_neg hpresent]
    cases kind with
    | client =>
      by_cases hmem : topic_info.message_type ∈ s.converters <;> cases created <;>
        simp [newServiceClient, register, hmem]
    | server =>
      unfold newServiceServer
      dsimp only
      cases hlookup : s.converters.lookup topic_info.message_type with
      | none => simp [register]
      | some converter =>
        have hmem := AList.lookup_isSome.mp (Option.isSome_of_eq_some hlookup)
        have hinsert : ∀ converter : Converter,
            type ∈ s.converters.insert topic_info.message_type converter ↔
              type ∈ s.converters := by
          intro converter
          rw [AList.mem_insert]
          exact ⟨fun h => h.elim (fun heq => heq ▸ hmem) id, Or.inr⟩
        cases created <;> simp [register, hinsert]

/-- A frame whose handler throws leaves the tables as they are. -/
theorem setupService_thrown (hname : subscriber.topic_name = publisher.topic_name)
    (habsent : publisher.topic_name ∉ s.services kind) {frame : SetupFrame × Bool}
    (hthrown : makesEndpoint publisher subscriber s frame = false) :
    (setupService kind publisher subscriber s frame).services kind = s.services kind ∧
      (setupService kind publisher subscriber s frame).callbacks = s.callbacks ∧
      ∀ type, type ∈ (setupService kind publisher subscriber s frame).converters ↔
        type ∈ s.converters := by
  obtain ⟨frame, created⟩ := frame
  have habsent' : (frame.topicInfo publisher subscriber).topic_name ∉ s.services kind := by
    cases frame with
    | publisher => exact habsent
    | subscriber => exact hname ▸ habsent
  have hflag : (s.createService kind created (frame.topicInfo publisher subscriber)).2 = false :=
    (createService_constructed habsent' created).trans hthrown
  have hstep : setupService kind publisher subscriber s (frame, created) =
      (s.createService kind created (frame.topicInfo publisher subscriber)).1 := by
    cases frame with
    | publisher => rfl
    | subscriber => exact setupServiceSubscriber_thrown hflag
  have hcreates := createService_creates habsent' created
  rw [hflag] at hcreates
  rw [hstep]
  exact ⟨hcreates.services, hcreates.callbacks, createService_converters created _⟩

/-- The frame that makes the endpoint enters it under its own id. -/
theorem setupService_first (hname : subscriber.topic_name = publisher.topic_name)
    (habsent : publisher.topic_name ∉ s.services kind) {frame : SetupFrame × Bool}
    (hmakes : makesEndpoint publisher subscriber s frame = true) :
    ((setupService kind publisher subscriber s frame).services kind).lookup publisher.topic_name =
        some (s.made kind) ∧
      (setupService kind publisher subscriber s frame).callbacks =
        s.callbacks.insert (frame.1.topicInfo publisher subscriber).topic_id
          (serviceHandler kind (s.made kind)) ∧
      (setupService kind publisher subscriber s frame).topicId kind (s.made kind) =
        some (if frame.1 = .subscriber then subscriber.topic_id else -1) := by
  obtain ⟨frame, created⟩ := frame
  cases frame with
  | publisher =>
    have hconstructed := (createService_constructed habsent created).trans hmakes
    have hcreates := createService_creates habsent created
    rw [hconstructed] at hcreates
    refine ⟨?_, hcreates.callbacks, hcreates.unset rfl⟩
    show (((s.createService kind created publisher).1.services kind).lookup _) = _
    rw [hcreates.services, if_pos rfl, AList.lookup_insert]
  | subscriber =>
    have habsent' : subscriber.topic_name ∉ s.services kind := hname ▸ habsent
    have hconstructed := (createService_constructed habsent' created).trans hmakes
    have hcreates := createService_creates habsent' created
    have hsets := setupServiceSubscriber_sets hconstructed
    rw [hconstructed] at hcreates
    have hlookup : ((s.createService kind created subscriber).1.services kind).lookup
        subscriber.topic_name = some (s.made kind) := by
      rw [hcreates.services, if_pos rfl, AList.lookup_insert]
    refine ⟨?_, ?_, ?_⟩
    · show ((s.setupServiceSubscriber kind created subscriber).services kind).lookup _ = _
      rw [hsets.services, ← hname]
      exact hlookup
    · show (s.setupServiceSubscriber kind created subscriber).callbacks = _
      rw [hsets.callbacks]
      exact hcreates.callbacks
    · show (s.setupServiceSubscriber kind created subscriber).topicId kind _ = _
      rw [hsets.topicId, if_pos ⟨rfl, hlookup⟩, hcreates.unset rfl]
      rfl

/-- A frame of a service whose endpoint is in the table sets the topic id at most. -/
theorem setupService_present (hname : subscriber.topic_name = publisher.topic_name)
    (hlookup : (s.services kind).lookup publisher.topic_name = some srv)
    (frame : SetupFrame × Bool) :
    (setupService kind publisher subscriber s frame).services = s.services ∧
      (setupService kind publisher subscriber s frame).callbacks = s.callbacks ∧
      (setupService kind publisher subscriber s frame).topicId kind srv =
        if frame.1 = .subscriber then (s.topicId kind srv).map fun _ => subscriber.topic_id
        else s.topicId kind srv := by
  have hmem : publisher.topic_name ∈ s.services kind :=
    AList.lookup_isSome.mp (Option.isSome_of_eq_some hlookup)
  obtain ⟨frame, created⟩ := frame
  cases frame with
  | publisher =>
    have hsame : setupService kind publisher subscriber s (.publisher, created) = s :=
      congrArg Prod.fst (createService_present hmem created)
    rw [hsame]
    exact ⟨rfl, rfl, rfl⟩
  | subscriber =>
    have hpresent : s.createService kind created subscriber = (s, true) :=
      createService_present (hname ▸ hmem) created
    have hsets := setupServiceSubscriber_sets (congrArg Prod.snd hpresent)
    rw [hpresent] at hsets
    refine ⟨hsets.services, hsets.callbacks, ?_⟩
    show (s.setupServiceSubscriber kind created subscriber).topicId kind srv = _
    rw [hsets.topicId, hname, if_pos ⟨rfl, hlookup⟩]
    rfl

/-- So do any number of them. -/
theorem run_setupService_present (hname : subscriber.topic_name = publisher.topic_name)
    (frames : List (SetupFrame × Bool)) {topic_id : UInt16}
    (hlookup : (s.services kind).lookup publisher.topic_name = some srv)
    (hid : s.topicId kind srv = some topic_id) :
    (run (setupService kind publisher subscriber) s frames).services = s.services ∧
      (run (setupService kind publisher subscriber) s frames).callbacks = s.callbacks ∧
      (run (setupService kind publisher subscriber) s frames).topicId kind srv =
        some (if .subscriber ∈ frames.map Prod.fst then subscriber.topic_id else topic_id) := by
  induction frames generalizing s topic_id with
  | nil => exact ⟨rfl, rfl, by simpa using hid⟩
  | cons frame frames ih =>
    obtain ⟨hservices, hcallbacks, htopicId⟩ := setupService_present hname hlookup frame
    rw [hid] at htopicId
    have hid' : (setupService kind publisher subscriber s frame).topicId kind srv =
        some (if frame.1 = .subscriber then subscriber.topic_id else topic_id) := by
      rw [htopicId]
      split <;> rfl
    obtain ⟨hservices', hcallbacks', htopicId'⟩ := ih (hservices ▸ hlookup) hid'
    rw [run_cons]
    refine ⟨hservices'.trans hservices, hcallbacks'.trans hcallbacks, ?_⟩
    rw [htopicId', List.map_cons]
    obtain ⟨frame, created⟩ := frame
    cases frame <;> simp

end Frames

/-! ## Any order of the frames -/

section Order

variable {kind : ServiceKind} {publisher subscriber : TopicInfo} {s : Registry}

/-- While the handlers throw there is no endpoint. -/
theorem not_isSetUp_of_absent {before : Registry}
    (habsent : publisher.topic_name ∉ s.services kind) :
    ¬ IsSetUp kind publisher subscriber before s := by
  rintro ⟨srv, hlookup, -⟩
  exact habsent (AList.lookup_isSome.mp (Option.isSome_of_eq_some hlookup))

/-- The frame that makes the endpoint decides. -/
theorem isSetUp_iff_first (hname : subscriber.topic_name = publisher.topic_name)
    (hid : publisher.topic_id ≠ subscriber.topic_id)
    (habsent : publisher.topic_name ∉ s.services kind)
    (hunentered : ∀ srv, s.callbacks.lookup subscriber.topic_id = some (serviceHandler kind srv) →
      srv ≠ s.made kind)
    {frame : SetupFrame × Bool} (frames : List (SetupFrame × Bool))
    (hmakes : makesEndpoint publisher subscriber s frame = true) :
    IsSetUp kind publisher subscriber s
        (run (setupService kind publisher subscriber) s (frame :: frames)) ↔
      frame.1 = .publisher ∧
        (.subscriber ∈ frames.map Prod.fst ∨ subscriber.topic_id = -1) := by
  obtain ⟨hlookup, hcallbacks, htopicId⟩ := setupService_first hname habsent hmakes
  obtain ⟨hservices', hcallbacks', htopicId'⟩ :=
    run_setupService_present hname frames hlookup htopicId
  obtain ⟨frame, created⟩ := frame
  rw [run_cons]
  constructor
  · rintro ⟨srv, hentry, -, hsame, hset⟩
    cases frame with
    | publisher =>
      refine ⟨rfl, ?_⟩
      rw [hservices', hlookup] at hentry
      obtain rfl := Option.some.inj hentry
      rw [htopicId'] at hset
      by_cases hsubscriber : .subscriber ∈ frames.map Prod.fst
      · exact Or.inl hsubscriber
      · rw [if_neg hsubscriber] at hset
        exact Or.inr (Option.some.inj hset).symm
    | subscriber =>
      -- The endpoint is entered under the subscriber's id, and it was not before.
      rw [hcallbacks', hcallbacks, SetupFrame.topicInfo, AList.lookup_insert] at hsame
      exact absurd rfl (hunentered _ hsame.symm)
  · rintro ⟨rfl, hsubscriber⟩
    refine ⟨s.made kind, ?_, ?_, ?_, ?_⟩
    · rw [hservices']
      exact hlookup
    · rw [hcallbacks', hcallbacks, SetupFrame.topicInfo, AList.lookup_insert]
    · rw [hcallbacks', hcallbacks, SetupFrame.topicInfo, AList.lookup_insert_ne hid.symm]
    · rw [htopicId']
      by_cases hmem : .subscriber ∈ frames.map Prod.fst
      · rw [if_pos hmem]
      · rw [if_neg hmem, hsubscriber.resolve_left hmem]
        rfl

theorem IsSetUp.congr {before before' : Registry} (hcallbacks : before'.callbacks = before.callbacks)
    (h : IsSetUp kind publisher subscriber before' s) :
    IsSetUp kind publisher subscriber before s := by
  obtain ⟨srv, hlookup, hentry, hsame, hset⟩ := h
  exact ⟨srv, hlookup, hentry, hcallbacks ▸ hsame, hset⟩

theorem fromEndpoint_congr {s' : Registry}
    (hconverters : ∀ type, type ∈ s'.converters ↔ type ∈ s.converters)
    (frames : List (SetupFrame × Bool)) :
    fromEndpoint publisher subscriber s' frames = fromEndpoint publisher subscriber s frames := by
  have hmakes : makesEndpoint publisher subscriber s' = makesEndpoint publisher subscriber s := by
    funext frame
    simp only [makesEndpoint, hconverters]
  rw [fromEndpoint, fromEndpoint, hmakes]

theorem setupService_held (h : s.Held) (frame : SetupFrame × Bool) :
    (setupService kind publisher subscriber s frame).Held := by
  obtain ⟨frame, created⟩ := frame
  cases frame with
  | publisher => exact createService_held h kind created publisher
  | subscriber => exact setupServiceSubscriber_held h kind created subscriber

/-- In tables that do not have the service, its setup frames set it up if and only if, from
the first one on that makes the endpoint, the publisher's comes first. -/
theorem Held.setUp_iff (h : s.Held) (hname : subscriber.topic_name = publisher.topic_name)
    (hid : publisher.topic_id ≠ subscriber.topic_id)
    (habsent : publisher.topic_name ∉ s.services kind) (frames : List (SetupFrame × Bool)) :
    IsSetUp kind publisher subscriber s
        (run (setupService kind publisher subscriber) s frames) ↔
      (fromEndpoint publisher subscriber s frames).head? = some .publisher ∧
        (.subscriber ∈ fromEndpoint publisher subscriber s frames ∨ subscriber.topic_id = -1) := by
  induction frames generalizing s with
  | nil =>
    refine iff_of_false (not_isSetUp_of_absent habsent) ?_
    rintro ⟨hhead, -⟩
    cases hhead
  | cons frame frames ih =>
    cases hmakes : makesEndpoint publisher subscriber s frame with
    | true =>
      have hunentered : ∀ srv,
          s.callbacks.lookup subscriber.topic_id = some (serviceHandler kind srv) →
            srv ≠ s.made kind := by
        intro srv hbefore
        obtain ⟨name, hlookup⟩ := h.bound kind subscriber.topic_id srv hbefore
        exact Nat.ne_of_lt (h.made kind name srv hlookup)
      have hfrom : fromEndpoint publisher subscriber s (frame :: frames) =
          frame.1 :: frames.map Prod.fst := by
        rw [fromEndpoint, List.dropWhile_cons_of_neg (by simp [hmakes]), List.map_cons]
      rw [isSetUp_iff_first hname hid habsent hunentered frames hmakes, hfrom, List.head?_cons,
        Option.some.injEq, List.mem_cons]
      refine and_congr_right fun hpublisher => ?_
      rw [hpublisher]
      simp
    | false =>
      obtain ⟨hservices, hcallbacks, hconverters⟩ := setupService_thrown hname habsent hmakes
      have hfrom : fromEndpoint publisher subscriber s (frame :: frames) =
          fromEndpoint publisher subscriber s frames := by
        rw [fromEndpoint, List.dropWhile_cons_of_pos (by simp [hmakes])]
        rfl
      have hheld : (setupService kind publisher subscriber s frame).Held :=
        setupService_held h frame
      have hrest := ih hheld (hservices ▸ habsent)
      rw [fromEndpoint_congr hconverters] at hrest
      rw [run_cons, hfrom, ← hrest]
      exact ⟨IsSetUp.congr hcallbacks.symm, IsSetUp.congr hcallbacks⟩

end Order

/-- In a session that does not know a service yet, its setup frames set it up if and only
if, from the first one on that makes the endpoint, the publisher's comes first. -/
theorem isSetUp_iff (deserialize : List UInt8 → Option TopicInfo) (types : List String)
    (timeout : Int) (steps : List Step) (kind : ServiceKind) (publisher subscriber : TopicInfo)
    (frames : List (SetupFrame × Bool)) (hname : subscriber.topic_name = publisher.topic_name)
    (hid : publisher.topic_id ≠ subscriber.topic_id)
    (habsent : publisher.topic_name ∉
      (run (step deserialize) (Registry.new types timeout) steps).services kind) :
    IsSetUp kind publisher subscriber (run (step deserialize) (Registry.new types timeout) steps)
        (run (setupService kind publisher subscriber)
          (run (step deserialize) (Registry.new types timeout) steps) frames) ↔
      (fromEndpoint publisher subscriber
          (run (step deserialize) (Registry.new types timeout) steps) frames).head? =
            some .publisher ∧
        (.subscriber ∈ fromEndpoint publisher subscriber
            (run (step deserialize) (Registry.new types timeout) steps) frames ∨
          subscriber.topic_id = -1) := by
  have hheld : (run (step deserialize) (Registry.new types timeout) steps).Held :=
    (Always.of_step (new_held types timeout)
      fun s st h => (step_effect deserialize s st).held h).last
  exact hheld.setUp_iff hname hid habsent frames

/-- The publisher and the subscriber of a service that the device serves. -/
def lampPublisher : TopicInfo := ⟨125, "/lamp", "std_srvs/srv/SetBool", 512⟩

/-- The subscriber of the same service. -/
def lampSubscriber : TopicInfo := ⟨100, "/lamp", "std_srvs/srv/SetBool", 512⟩

/-- ROS throws at the first two frames.  Then both come twice, with the publisher's first. -/
theorem lamp_isSetUp :
    IsSetUp .server lampPublisher lampSubscriber
        (run (step fun _ => none) (Registry.new ["std_srvs/srv/SetBool"] 2000) [.start])
        (run (setupService .server lampPublisher lampSubscriber)
          (run (step fun _ => none) (Registry.new ["std_srvs/srv/SetBool"] 2000) [.start])
          [(.publisher, false), (.subscriber, false), (.publisher, true), (.subscriber, true),
            (.publisher, true), (.subscriber, true)]) :=
  (isSetUp_iff (fun _ => none) ["std_srvs/srv/SetBool"] 2000 [.start] .server lampPublisher
    lampSubscriber [(.publisher, false), (.subscriber, false), (.publisher, true),
      (.subscriber, true), (.publisher, true), (.subscriber, true)] rfl (by decide)
    (by decide)).mpr (by decide)

/-- Where the publisher's frame is lost and sent again, no message of its topic reaches
the endpoint, though ROS makes whatever it is asked for. -/
theorem lostPublisher_not_isSetUp :
    ¬ ∀ (deserialize : List UInt8 → Option TopicInfo) (types : List String) (timeout : Int)
      (steps : List Step) (kind : ServiceKind) (publisher subscriber : TopicInfo)
      (frames : List (SetupFrame × Bool)), subscriber.topic_name = publisher.topic_name →
      publisher.topic_id ≠ subscriber.topic_id →
      publisher.topic_name ∉
        (run (step deserialize) (Registry.new types timeout) steps).services kind →
      (∀ frame ∈ frames, frame.2 = true) →
      .publisher ∈ frames.map Prod.fst → .subscriber ∈ frames.map Prod.fst →
      IsSetUp kind publisher subscriber
        (run (step deserialize) (Registry.new types timeout) steps)
        (run (setupService kind publisher subscriber)
          (run (step deserialize) (Registry.new types timeout) steps) frames) := by
  intro h
  obtain ⟨srv, -, hentry, -⟩ := h (fun _ => none) ["std_srvs/srv/SetBool"] 2000 [.start] .server
    lampPublisher lampSubscriber [(.subscriber, true), (.publisher, true), (.subscriber, true)] rfl
    (by decide) (by decide) (by decide) (by decide) (by decide)
  have hnone : (run (setupService .server lampPublisher lampSubscriber)
      (run (step fun _ => none) (Registry.new ["std_srvs/srv/SetBool"] 2000) [.start])
      [(.subscriber, true), (.publisher, true), (.subscriber, true)]).callbacks.lookup
        lampPublisher.topic_id = none := by
    decide
  rw [hnone] at hentry
  cases hentry

end Ros2Serial.Host.Registry
