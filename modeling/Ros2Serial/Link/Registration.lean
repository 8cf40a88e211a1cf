import Ros2Serial.Device.Registration
import Ros2Serial.Link.Delivery

/-!
# Frames for registered subscribers

The receive path turns the topic of a frame back into a slot by a subtraction.
In every state that registrations reach this is the inverse of what they have
assigned: the frame gets to the object that has its topic as id
(`registration_assigned`).
-/

namespace Ros2Serial.Link

open Device Slots

/-- A node with these tables reads a frame that has the id of a subscriber as its topic and for
which `message_in` has room, and calls this subscriber and no other. -/
def Dispatches (cfg : NodeConfig) (r : Registry) : Prop :=
  ∀ (callbacks : Callbacks cfg) (nh : NodeHandle) (calls : List Call) (j : Nat) (s : Address)
    (topic : Nat) (payload : List UInt8),
    Slots.Holds r.subscribers j s → (topic : Int) = (r.subscriber s).id → topic < 65536 →
    payload.length < 65536 → payload.length ≤ cfg.INPUT_SIZE →
    DeviceReads cfg callbacks (r.attach nh) calls (Wire.encode topic payload) →
    (taken (run cfg callbacks (r.attach nh) calls).2).map (fun act => r.callee act.1) = [some s]

/-- The ids are those of the slots, filled without gaps, and all different.  A registration
fails if and only if the table is full, and then changes nothing.  Frames get to the
subscriber with their topic. -/
structure Assigned (cfg : NodeConfig) (r : Registry) : Prop where
  numbered : r.Numbered cfg
  distinct : r.ids.Nodup
  advertise : ∀ p, ((r.advertise cfg p).2 = false ↔ Full r.publishers) ∧
    ((r.advertise cfg p).2 = false → (r.advertise cfg p).1 = r)
  subscribe : ∀ s, ((r.subscribe s).2 = false ↔ Full r.subscribers) ∧
    ((r.subscribe s).2 = false → (r.subscribe s).1 = r)
  dispatches : Dispatches cfg r

/-- The slot of a subscriber is registered in the node. -/
theorem attach_registered {r : Registry} {j : Nat} {s : Address} (h : Slots.Holds r.subscribers j s)
    (nh : NodeHandle) : (r.attach nh).Registered j := by
  refine ⟨Int.natCast_nonneg j, r.subscriber s, ?_⟩
  show (r.subscribers.map (Option.map r.subscriber))[j]? = _
  rw [List.getElem?_map, h]
  rfl

/-- The id of a subscriber leads back to its slot. -/
theorem Numbered.dispatches {cfg : NodeConfig} {r : Registry} (h : r.Numbered cfg) :
    Dispatches cfg r := by
  intro callbacks nh calls j s topic payload hslot hid htopic hlength _ hreads
  have hnumber := h.subscriberIds j s hslot
  have heq : topic = 100 + j := by
    dsimp only at hnumber
    omega
  subst heq
  obtain ⟨messageIn, htaken, -⟩ :=
    hreads.subscriber htopic hlength (attach_registered hslot nh)
  rw [htaken]
  have hcallee : r.callee (.subscriber (j : Nat)) = some s := by
    show (if 0 ≤ (j : Int) then r.subscribers.getD (j : Int).toNat none else none) = some s
    rw [if_pos (Int.natCast_nonneg j), Int.toNat_natCast, List.getD_eq_getElem?_getD, hslot]
    rfl
  rw [List.map_singleton, hcallee]

/-- In every state that registrations of different objects reach, the ids are assigned, and
they stay as they are whatever is registered later. -/
theorem registration_assigned (cfg : NodeConfig) (publisher : Address → PublisherObject)
    (subscriber : Address → Endpoint) (done more : List Registration)
    (h : Registration.Distinct (done ++ more)) :
    Assigned cfg (Registration.after cfg (Registry.start cfg publisher subscriber) done) ∧
      (Registration.after cfg (Registry.start cfg publisher subscriber) done).Extends
        (Registration.after cfg (Registry.start cfg publisher subscriber) (done ++ more)) := by
  obtain ⟨hpubs, hsubs⟩ := h
  rw [List.flatMap_append] at hpubs hsubs
  have hstart : (Registry.start cfg publisher subscriber).Registered cfg [] [] :=
    ⟨Registry.start_numbered cfg publisher subscriber,
      fun _ _ hp => absurd hp (not_holds_replicate _),
      fun _ _ hs => absurd hs (not_holds_replicate _)⟩
  obtain ⟨hdone, -⟩ := Registration.after_registered hstart
    (List.nodup_append.mp hpubs).1 (List.nodup_append.mp hsubs).1
  obtain ⟨-, hextends⟩ := Registration.after_registered hdone hpubs hsubs
  have hnumbered := hdone.numbered
  refine ⟨⟨hnumbered, hnumbered.ids_nodup, ?_, ?_, Numbered.dispatches hnumbered⟩, ?_⟩
  · intro p
    have hiff := Registry.advertise_eq_false_iff cfg p
      (Registration.after cfg (Registry.start cfg publisher subscriber) done)
    refine ⟨hiff, fun hfalse => ?_⟩
    rw [Registry.advertise_of_full (hiff.mp hfalse)]
  · intro s
    have hiff := Registry.subscribe_eq_false_iff s
      (Registration.after cfg (Registry.start cfg publisher subscriber) done)
    refine ⟨hiff, fun hfalse => ?_⟩
    rw [Registry.subscribe_of_full (hiff.mp hfalse)]
  · unfold Registration.after at hextends ⊢
    rw [Runs.run_append]
    exact hextends

/-- A publisher, a subscriber, a service client and a service server. -/
def fourCalls : List Registration :=
  [.advertise 0, .subscribe 0, .serviceClient ⟨1, 1⟩, .advertiseService ⟨2, 2⟩]

/-- They get the ids 100 to 102 and 106 to 108, and a frame with the topic 101 gets to the
client. -/
theorem fourCalls_assigned :
    Assigned atmega168 (Registration.after atmega168 Registry.bareNode fourCalls) ∧
      (Registration.after atmega168 Registry.bareNode fourCalls).ids =
        [106, 107, 108, 100, 101, 102] ∧
      (taken (run atmega168 (noCallbacks _)
          ((Registration.after atmega168 Registry.bareNode fourCalls).attach (freshNode atmega168))
          (spinOn (Wire.encode 101 [0x00]))).2).map (fun act =>
            (Registration.after atmega168 Registry.bareNode fourCalls).callee act.1) =
        [some 1] := by
  have hassigned := (registration_assigned atmega168
    (fun _ => ⟨Registry.unnamed TopicInfo.ID_PUBLISHER, false⟩)
    (fun _ => Registry.unnamed TopicInfo.ID_SUBSCRIBER) fourCalls [] (by decide)).1
  refine ⟨hassigned, by decide, ?_⟩
  refine hassigned.dispatches (noCallbacks _) (freshNode atmega168) _ 1 1 101 [0x00] rfl
    (by decide) (by decide) (by decide) (by decide) ?_
  constructor
  · have hinit := construct_initialised atmega168 idleHardware
    exact { hinit with publishers := by decide, subscribers := by decide }
  · rfl
  · show [] ++ (spinOn (Wire.encode 101 [0x00])).flatMap Call.arrived = _
    simp [spinOn, Call.arrived]
  · decide +kernel
  · decide +kernel

end Ros2Serial.Link
