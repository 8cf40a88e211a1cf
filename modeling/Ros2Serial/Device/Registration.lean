import Mathlib.Logic.Function.Basic
import Ros2Serial.Device.Negotiation
import Ros2Serial.Device.Trace
import Ros2Serial.Lib.Runs
import Ros2Serial.Lib.Slots

/-!
# Registration

`advertise`, `subscribe`, `advertiseService` and `serviceClient` on the objects
of a program.  The tables of a node hold pointers to these objects, and the id of
an endpoint is a member of its object.  `Node.lean` has the tables with the
objects in place of the pointers, and `attach` leads there
(`advertise_attach`, `subscribe_attach`).

* `Numbered` is the invariant: an id is that of the slot, and the tables have no
  gaps.
* `Extends` says that what was registered stays as it was.  Both need that an
  object is registered once (`Registration.after_registered`).
* A service is two registrations, and the second one is made whatever the first
  one returns.  Where one table is full and the other is not, half of the service
  is registered, and `false` is returned (`serviceRegistration_atomic_iff`).
-/

namespace Ros2Serial.Device

open Slots

/-! ## Objects and tables -/

/-- The address of an object. -/
abbrev Address := Nat

/-- A `Publisher`.  `nh` says whether `nh_` points to the node. -/
structure PublisherObject where
  info : Endpoint
  nh : Bool

/-- The two objects of a `ServiceServer` or a `ServiceClient`: the `Subscriber_`
that it is, and its member `pub`. -/
structure Service where
  subscriber : Address
  pub : Address
  deriving DecidableEq

/-- The tables of a node, and the objects. -/
structure Registry where
  publishers : List (Option Address)
  subscribers : List (Option Address)
  publisher : Address → PublisherObject
  subscriber : Address → Endpoint

namespace Registry

/-- `advertise`. -/
def advertise (cfg : NodeConfig) (p : Address) (r : Registry) : Registry × Bool :=
  match firstEmpty r.publishers with
  | some i =>
    let info := { (r.publisher p).info with id := i + 100 + cfg.MAX_SUBSCRIBERS }
    ({ r with
        publishers := r.publishers.set i (some p)
        publisher := Function.update r.publisher p { info := info, nh := true } }, true)
  | none => (r, false)

/-- `subscribe`. -/
def subscribe (s : Address) (r : Registry) : Registry × Bool :=
  match firstEmpty r.subscribers with
  | some i =>
    ({ r with
        subscribers := r.subscribers.set i (some s)
        subscriber := Function.update r.subscriber s { r.subscriber s with id := i + 100 } }, true)
  | none => (r, false)

/-- The body of `advertiseService` and of `serviceClient`. -/
def registerService (cfg : NodeConfig) (srv : Service) (r : Registry) : Registry × Bool :=
  let (r, v) := r.advertise cfg srv.pub
  let (r, w) := r.subscribe srv.subscriber
  (r, v && w)

/-- `advertiseService`. -/
def advertiseService (cfg : NodeConfig) (srv : Service) (r : Registry) : Registry × Bool :=
  r.registerService cfg srv

/-- `serviceClient`. -/
def serviceClient (cfg : NodeConfig) (srv : Service) (r : Registry) : Registry × Bool :=
  r.registerService cfg srv

/-- The tables of a node that was constructed, with the objects of a program.  Their ids
are not initialised. -/
def start (cfg : NodeConfig) (publisher : Address → PublisherObject)
    (subscriber : Address → Endpoint) : Registry where
  publishers := List.replicate cfg.MAX_PUBLISHERS none
  subscribers := List.replicate cfg.MAX_SUBSCRIBERS none
  publisher := publisher
  subscriber := subscriber

/-! ## The node with these tables -/

/-- What the slots of `publishers` point to. -/
def publisherTable (r : Registry) : List (Option Endpoint) :=
  r.publishers.map (Option.map fun p => (r.publisher p).info)

/-- What the slots of `subscribers` point to. -/
def subscriberTable (r : Registry) : List (Option Endpoint) :=
  r.subscribers.map (Option.map r.subscriber)

/-- The object whose `callback` a branch calls. -/
def callee (r : Registry) : Branch → Option Address
  | .subscriber index => if 0 ≤ index then r.subscribers.getD index.toNat none else none
  | _ => none

/-- A node with these tables. -/
def attach (r : Registry) (nh : NodeHandle) : NodeHandle :=
  { nh with publishers := r.publisherTable, subscribers := r.subscriberTable }

end Registry

/-- `fillSlot` in terms of the first empty slot. -/
theorem fillSlot_eq (base : Int) (e : Endpoint) (slots : List (Option Endpoint)) :
    fillSlot base e slots =
      (firstEmpty slots).map fun i => slots.set i (some { e with id := base + i }) := by
  induction slots generalizing base with
  | nil => rfl
  | cons slot rest ih =>
    unfold firstEmpty at ih ⊢
    cases slot with
    | none => simp [fillSlot, List.findIdx?_cons]
    | some x =>
      rw [fillSlot, ih, List.findIdx?_cons]
      cases rest.findIdx? Option.isNone with
      | none => rfl
      | some i =>
        have hbase : base + 1 + (i : Int) = base + ((i + 1 : Nat) : Int) := by omega
        simp [hbase]

/-- The pointers and the objects have the same empty slots. -/
theorem firstEmpty_map {α β : Type} (f : α → β) (slots : List (Option α)) :
    firstEmpty (slots.map (Option.map f)) = firstEmpty slots := by
  unfold firstEmpty
  rw [List.findIdx?_map]
  congr 1
  funext slot
  cases slot <;> rfl

/-- An object that is in no slot can change without a change of the table. -/
theorem map_update {β : Type} (f : Address → β) (a : Address) (b : β)
    {slots : List (Option Address)} (h : ∀ i, ¬ Slots.Holds slots i a) (i : Nat) :
    (slots.set i (some a)).map (Option.map (Function.update f a b)) =
      (slots.map (Option.map f)).set i (some b) := by
  rw [List.map_set, Option.map_some, Function.update_self]
  congr 1
  refine List.map_congr_left fun slot hslot => ?_
  cases slot with
  | none => rfl
  | some c =>
    obtain ⟨j, hj⟩ := List.mem_iff_getElem?.mp hslot
    have hne : c ≠ a := by
      intro heq
      exact h j (heq ▸ hj)
    rw [Option.map_some, Option.map_some, Function.update_of_ne hne]

namespace Registry

variable {cfg : NodeConfig} {r : Registry}

/-- `advertise` is what `Node.lean` has, for an object that is registered once. -/
theorem advertise_attach {p : Address} (h : ∀ i, ¬ Slots.Holds r.publishers i p) (nh : NodeHandle) :
    Device.advertise cfg (r.publisher p).info (r.attach nh) =
      ((r.advertise cfg p).1.attach nh, (r.advertise cfg p).2) := by
  have hslots : (r.attach nh).publishers = r.publishers.map (Option.map fun p =>
      (r.publisher p).info) := rfl
  unfold Device.advertise advertise
  rw [hslots, fillSlot_eq, firstEmpty_map]
  cases firstEmpty r.publishers with
  | none => rfl
  | some i =>
    have hid : (100 + cfg.MAX_SUBSCRIBERS : Int) + i = i + 100 + cfg.MAX_SUBSCRIBERS := by omega
    have htable := map_update (fun p => (r.publisher p).info) p
      { (r.publisher p).info with id := i + 100 + cfg.MAX_SUBSCRIBERS } h i
    have hupdate : ∀ object : PublisherObject,
        (fun q => (Function.update r.publisher p object q).info) =
          Function.update (fun q => (r.publisher q).info) p object.info := fun object => by
      funext q
      exact Function.apply_update (fun _ object => object.info) r.publisher p object q
    simp only [Option.map_some, attach, publisherTable, subscriberTable, hupdate, hid, htable]

/-- `subscribe` is what `Node.lean` has, for an object that is registered once. -/
theorem subscribe_attach {s : Address} (h : ∀ i, ¬ Slots.Holds r.subscribers i s)
    (nh : NodeHandle) :
    Device.subscribe (r.subscriber s) (r.attach nh) =
      ((r.subscribe s).1.attach nh, (r.subscribe s).2) := by
  have hslots : (r.attach nh).subscribers = r.subscribers.map (Option.map r.subscriber) := rfl
  unfold Device.subscribe subscribe
  rw [hslots, fillSlot_eq, firstEmpty_map]
  cases firstEmpty r.subscribers with
  | none => rfl
  | some i =>
    have hid : (100 : Int) + i = i + 100 := by omega
    have htable := map_update r.subscriber s { r.subscriber s with id := i + 100 } h i
    simp only [Option.map_some, attach, publisherTable, subscriberTable, hid, htable]

/-! ## One call -/

theorem advertise_of_full {p : Address} (h : Full r.publishers) :
    r.advertise cfg p = (r, false) := by
  unfold advertise
  rw [firstEmpty_eq_none_iff.mpr h]

theorem subscribe_of_full {s : Address} (h : Full r.subscribers) : r.subscribe s = (r, false) := by
  unfold subscribe
  rw [firstEmpty_eq_none_iff.mpr h]

/-- Otherwise the object gets the first empty slot, with its number. -/
theorem advertise_of_not_full (cfg : NodeConfig) (p : Address) (h : ¬ Full r.publishers) :
    ∃ i, firstEmpty r.publishers = some i ∧ r.advertise cfg p =
      ({ r with
          publishers := r.publishers.set i (some p)
          publisher := Function.update r.publisher p
            ⟨{ (r.publisher p).info with id := i + 100 + cfg.MAX_SUBSCRIBERS }, true⟩ }, true) := by
  rw [← firstEmpty_eq_none_iff] at h
  obtain ⟨i, hi⟩ := Option.ne_none_iff_exists'.mp h
  refine ⟨i, hi, ?_⟩
  unfold advertise
  rw [hi]

theorem subscribe_of_not_full (s : Address) (h : ¬ Full r.subscribers) :
    ∃ i, firstEmpty r.subscribers = some i ∧ r.subscribe s =
      ({ r with
          subscribers := r.subscribers.set i (some s)
          subscriber := Function.update r.subscriber s
            { r.subscriber s with id := i + 100 } }, true) := by
  rw [← firstEmpty_eq_none_iff] at h
  obtain ⟨i, hi⟩ := Option.ne_none_iff_exists'.mp h
  refine ⟨i, hi, ?_⟩
  unfold subscribe
  rw [hi]

theorem advertise_eq_false_iff (cfg : NodeConfig) (p : Address) (r : Registry) :
    (r.advertise cfg p).2 = false ↔ Full r.publishers := by
  by_cases h : Full r.publishers
  · rw [advertise_of_full h]
    exact iff_of_true rfl h
  · obtain ⟨i, _, heq⟩ := advertise_of_not_full cfg p h
    rw [heq]
    exact iff_of_false Bool.noConfusion h

theorem subscribe_eq_false_iff (s : Address) (r : Registry) :
    (r.subscribe s).2 = false ↔ Full r.subscribers := by
  by_cases h : Full r.subscribers
  · rw [subscribe_of_full h]
    exact iff_of_true rfl h
  · obtain ⟨i, _, heq⟩ := subscribe_of_not_full s h
    rw [heq]
    exact iff_of_false Bool.noConfusion h

/-- `advertise` leaves the subscribers alone. -/
theorem advertise_subscribers (cfg : NodeConfig) (p : Address) (r : Registry) :
    (r.advertise cfg p).1.subscribers = r.subscribers ∧
      (r.advertise cfg p).1.subscriber = r.subscriber := by
  unfold advertise
  cases firstEmpty r.publishers <;> exact ⟨rfl, rfl⟩

/-- `subscribe` leaves the publishers alone. -/
theorem subscribe_publishers (s : Address) (r : Registry) :
    (r.subscribe s).1.publishers = r.publishers ∧ (r.subscribe s).1.publisher = r.publisher := by
  unfold subscribe
  cases firstEmpty r.subscribers <;> exact ⟨rfl, rfl⟩

/-! ## Numbered tables -/

/-- The ids that are in use. -/
def ids (r : Registry) : List Int :=
  numbers (fun p => (r.publisher p).info.id) r.publishers ++
    numbers (fun s => (r.subscriber s).id) r.subscribers

/-- An endpoint has the id of its slot, and an empty slot has no entry behind it. -/
structure Numbered (cfg : NodeConfig) (r : Registry) : Prop where
  publisherIds : Numbers (100 + cfg.MAX_SUBSCRIBERS) (fun p => (r.publisher p).info.id) r.publishers
  subscriberIds : Numbers 100 (fun s => (r.subscriber s).id) r.subscribers
  publishersNoGaps : NoGaps r.publishers
  subscribersNoGaps : NoGaps r.subscribers
  subscribersLength : r.subscribers.length = cfg.MAX_SUBSCRIBERS

/-- What is registered stays in its slot, with its id. -/
structure Extends (r r' : Registry) : Prop where
  publishers : ∀ i p, Slots.Holds r.publishers i p →
    Slots.Holds r'.publishers i p ∧ (r'.publisher p).info.id = (r.publisher p).info.id
  subscribers : ∀ j s, Slots.Holds r.subscribers j s →
    Slots.Holds r'.subscribers j s ∧ (r'.subscriber s).id = (r.subscriber s).id

theorem Extends.refl (r : Registry) : r.Extends r :=
  ⟨fun _ _ h => ⟨h, rfl⟩, fun _ _ h => ⟨h, rfl⟩⟩

theorem Extends.trans {r' r'' : Registry} (h : r.Extends r') (h' : r'.Extends r'') :
    r.Extends r'' := by
  constructor
  · intro i p hp
    obtain ⟨hslot, hid⟩ := h.publishers i p hp
    obtain ⟨hslot', hid'⟩ := h'.publishers i p hslot
    exact ⟨hslot', hid'.trans hid⟩
  · intro j s hs
    obtain ⟨hslot, hid⟩ := h.subscribers j s hs
    obtain ⟨hslot', hid'⟩ := h'.subscribers j s hslot
    exact ⟨hslot', hid'.trans hid⟩

/-- The subscribers have the ids below those of the publishers. -/
theorem Numbered.ids_nodup (h : r.Numbered cfg) : r.ids.Nodup := by
  unfold ids
  refine List.nodup_append.mpr ⟨?_, ?_, ?_⟩
  · exact (numbers_pairwise h.publisherIds).imp fun hlt => Int.ne_of_lt hlt
  · exact (numbers_pairwise h.subscriberIds).imp fun hlt => Int.ne_of_lt hlt
  · intro p hp s hs
    have hpub := mem_numbers h.publisherIds hp
    have hsub := mem_numbers h.subscriberIds hs
    have hlength := h.subscribersLength
    omega

theorem start_numbered (cfg : NodeConfig) (publisher : Address → PublisherObject)
    (subscriber : Address → Endpoint) : (start cfg publisher subscriber).Numbered cfg where
  publisherIds _ _ h := absurd h (not_holds_replicate _)
  subscriberIds _ _ h := absurd h (not_holds_replicate _)
  publishersNoGaps := noGaps_replicate _
  subscribersNoGaps := noGaps_replicate _
  subscribersLength := List.length_replicate ..

/-- Only these objects are in the tables. -/
structure Registered (cfg : NodeConfig) (pubs subs : List Address) (r : Registry) : Prop where
  numbered : r.Numbered cfg
  publishers : ∀ i p, Slots.Holds r.publishers i p → p ∈ pubs
  subscribers : ∀ j s, Slots.Holds r.subscribers j s → s ∈ subs

section Steps

variable {pubs subs : List Address}

/-- `advertise` keeps the numbers, for an object that is not in the table. -/
theorem Registered.advertise (h : r.Registered cfg pubs subs) {p : Address} (hp : p ∉ pubs) :
    (r.advertise cfg p).1.Registered cfg (pubs ++ [p]) subs ∧
      r.Extends (r.advertise cfg p).1 := by
  have hfresh : ∀ i, ¬ Slots.Holds r.publishers i p := fun i hi => hp (h.publishers i p hi)
  by_cases hfull : Full r.publishers
  · rw [advertise_of_full hfull]
    refine ⟨⟨h.numbered, ?_, h.subscribers⟩, Extends.refl r⟩
    exact fun i q hq => List.mem_append_left _ (h.publishers i q hq)
  obtain ⟨i, hi, heq⟩ := advertise_of_not_full cfg p hfull
  rw [heq]
  obtain ⟨hnone, -⟩ := firstEmpty_spec hi
  have hother : ∀ (q : Address) (object : PublisherObject), q ≠ p →
      (Function.update r.publisher p object q).info.id = (r.publisher q).info.id := by
    intro q object hq
    rw [Function.update_of_ne hq]
  refine ⟨⟨⟨?_, h.numbered.subscriberIds, h.numbered.publishersNoGaps.set hi,
    h.numbered.subscribersNoGaps, h.numbered.subscribersLength⟩, ?_, h.subscribers⟩, ?_,
    fun _ _ hs => ⟨hs, rfl⟩⟩
  · refine h.numbered.publisherIds.set hnone hfresh ?_ fun q hq => hother q _ hq
    dsimp only
    rw [Function.update_self]
    show (i : Int) + 100 + cfg.MAX_SUBSCRIBERS = _
    omega
  · intro j q hq
    rcases (holds_set_iff hnone).mp hq with hold | ⟨_, rfl⟩
    · exact List.mem_append_left _ (h.publishers j q hold)
    · exact List.mem_append_right _ (List.mem_singleton_self _)
  · intro j q hq
    refine ⟨(holds_set_iff hnone).mpr (Or.inl hq), hother q _ ?_⟩
    intro hqp
    exact hfresh j (hqp ▸ hq)

/-- `subscribe` keeps the numbers, for an object that is not in the table. -/
theorem Registered.subscribe (h : r.Registered cfg pubs subs) {s : Address} (hs : s ∉ subs) :
    (r.subscribe s).1.Registered cfg pubs (subs ++ [s]) ∧ r.Extends (r.subscribe s).1 := by
  have hfresh : ∀ j, ¬ Slots.Holds r.subscribers j s := fun j hj => hs (h.subscribers j s hj)
  by_cases hfull : Full r.subscribers
  · rw [subscribe_of_full hfull]
    refine ⟨⟨h.numbered, h.publishers, ?_⟩, Extends.refl r⟩
    exact fun j t ht => List.mem_append_left _ (h.subscribers j t ht)
  obtain ⟨i, hi, heq⟩ := subscribe_of_not_full s hfull
  rw [heq]
  obtain ⟨hnone, -⟩ := firstEmpty_spec hi
  have hother : ∀ (t : Address) (object : Endpoint), t ≠ s →
      (Function.update r.subscriber s object t).id = (r.subscriber t).id := by
    intro t object ht
    rw [Function.update_of_ne ht]
  refine ⟨⟨⟨h.numbered.publisherIds, ?_, h.numbered.publishersNoGaps,
    h.numbered.subscribersNoGaps.set hi, ?_⟩, h.publishers, ?_⟩, fun _ _ hp => ⟨hp, rfl⟩, ?_⟩
  · refine h.numbered.subscriberIds.set hnone hfresh ?_ fun t ht => hother t _ ht
    dsimp only
    rw [Function.update_self]
    show (i : Int) + 100 = _
    omega
  · rw [List.length_set]
    exact h.numbered.subscribersLength
  · intro j t ht
    rcases (holds_set_iff hnone).mp ht with hold | ⟨_, rfl⟩
    · exact List.mem_append_left _ (h.subscribers j t hold)
    · exact List.mem_append_right _ (List.mem_singleton_self _)
  · intro j t ht
    refine ⟨(holds_set_iff hnone).mpr (Or.inl ht), hother t _ ?_⟩
    intro hts
    exact hfresh j (hts ▸ ht)

/-- A service is a publisher and a subscriber. -/
theorem Registered.registerService (h : r.Registered cfg pubs subs) {srv : Service}
    (hp : srv.pub ∉ pubs) (hs : srv.subscriber ∉ subs) :
    (r.registerService cfg srv).1.Registered cfg (pubs ++ [srv.pub]) (subs ++ [srv.subscriber]) ∧
      r.Extends (r.registerService cfg srv).1 := by
  obtain ⟨hpub, hextends⟩ := h.advertise hp
  obtain ⟨hsub, hextends'⟩ := hpub.subscribe hs
  exact ⟨hsub, hextends.trans hextends'⟩

end Steps

end Registry

/-! ## Runs -/

/-- A call that registers. -/
inductive Registration
  | advertise (p : Address)
  | subscribe (s : Address)
  | advertiseService (srv : Service)
  | serviceClient (srv : Service)

namespace Registration

/-- The `Publisher` that a call registers. -/
def publishers : Registration → List Address
  | .advertise p => [p]
  | .subscribe _ => []
  | .advertiseService srv | .serviceClient srv => [srv.pub]

/-- The `Subscriber_` that a call registers. -/
def subscribers : Registration → List Address
  | .advertise _ => []
  | .subscribe s => [s]
  | .advertiseService srv | .serviceClient srv => [srv.subscriber]

/-- The call. -/
def run (cfg : NodeConfig) (r : Registry) : Registration → Registry × Bool
  | .advertise p => r.advertise cfg p
  | .subscribe s => r.subscribe s
  | .advertiseService srv => r.advertiseService cfg srv
  | .serviceClient srv => r.serviceClient cfg srv

/-- The calls are on pairwise distinct objects. -/
def Distinct (calls : List Registration) : Prop :=
  (calls.flatMap publishers).Nodup ∧ (calls.flatMap subscribers).Nodup

instance (calls : List Registration) : Decidable (Distinct calls) :=
  inferInstanceAs (Decidable (_ ∧ _))

/-- The state after some calls. -/
def after (cfg : NodeConfig) (r : Registry) (calls : List Registration) : Registry :=
  Runs.run (fun r call => (run cfg r call).1) r calls

variable {cfg : NodeConfig} {r : Registry} {pubs subs : List Address}

/-- One call, on objects that are not in the tables. -/
theorem run_step (h : r.Registered cfg pubs subs) (call : Registration)
    (hpubs : ∀ p ∈ call.publishers, p ∉ pubs) (hsubs : ∀ s ∈ call.subscribers, s ∉ subs) :
    (run cfg r call).1.Registered cfg (pubs ++ call.publishers) (subs ++ call.subscribers) ∧
      r.Extends (run cfg r call).1 := by
  cases call with
  | advertise p =>
    have hstep := h.advertise (hpubs p (List.mem_singleton_self p))
    simpa only [publishers, subscribers, List.append_nil, run] using hstep
  | subscribe s =>
    have hstep := h.subscribe (hsubs s (List.mem_singleton_self s))
    simpa only [publishers, subscribers, List.append_nil, run] using hstep
  | advertiseService srv | serviceClient srv =>
    exact h.registerService (hpubs _ (List.mem_singleton_self _))
      (hsubs _ (List.mem_singleton_self _))

/-- A run of calls, on objects that are not in the tables. -/
theorem after_registered {calls : List Registration} (h : r.Registered cfg pubs subs)
    (hpubs : (pubs ++ calls.flatMap publishers).Nodup)
    (hsubs : (subs ++ calls.flatMap subscribers).Nodup) :
    (after cfg r calls).Registered cfg (pubs ++ calls.flatMap publishers)
        (subs ++ calls.flatMap subscribers) ∧ r.Extends (after cfg r calls) := by
  induction calls generalizing r pubs subs with
  | nil =>
    rw [List.flatMap_nil, List.append_nil, List.flatMap_nil, List.append_nil]
    exact ⟨h, Registry.Extends.refl r⟩
  | cons call rest ih =>
    rw [List.flatMap_cons, ← List.append_assoc] at hpubs hsubs ⊢
    rw [List.flatMap_cons, ← List.append_assoc]
    have hpub := (List.nodup_append.mp (List.nodup_append.mp hpubs).1).2.2
    have hsub := (List.nodup_append.mp (List.nodup_append.mp hsubs).1).2.2
    obtain ⟨hstep, hextends⟩ := run_step h call
      (fun p hp hmem => hpub p hmem p hp rfl) (fun s hs hmem => hsub s hmem s hs rfl)
    obtain ⟨hrest, hextends'⟩ := ih hstep hpubs hsubs
    exact ⟨hrest, hextends.trans hextends'⟩

end Registration

/-! ## Half a service -/

namespace Registry

/-- If the registration has returned `false`, then both tables are as they were, and so is
what `negotiateTopics` announces. -/
def Atomic (cfg : NodeConfig) (r : Registry) (outcome : Registry × Bool) : Prop :=
  outcome.2 = false →
    outcome.1.publishers = r.publishers ∧ outcome.1.subscribers = r.subscribers ∧
      ∀ nh, announcements cfg (outcome.1.attach nh) = announcements cfg (r.attach nh)

variable {cfg : NodeConfig} {r : Registry}

theorem registerService_eq_false_iff (cfg : NodeConfig) (srv : Service) (r : Registry) :
    (r.registerService cfg srv).2 = false ↔ Full r.publishers ∨ Full r.subscribers := by
  have hsubscribers := (advertise_subscribers cfg srv.pub r).1
  show ((r.advertise cfg srv.pub).2 && ((r.advertise cfg srv.pub).1.subscribe srv.subscriber).2) =
    false ↔ _
  rw [Bool.and_eq_false_iff, advertise_eq_false_iff, subscribe_eq_false_iff, hsubscribers]

/-- With one full table, the other half of the service is registered. -/
theorem registerService_half (srv : Service) :
    (Full r.publishers → ¬ Full r.subscribers →
      ∃ j, r.subscribers[j]? = some none ∧
        Slots.Holds (r.registerService cfg srv).1.subscribers j srv.subscriber) ∧
    (¬ Full r.publishers → Full r.subscribers →
      ∃ i, r.publishers[i]? = some none ∧
        Slots.Holds (r.registerService cfg srv).1.publishers i srv.pub) := by
  constructor
  · intro hpub hsub
    obtain ⟨j, hj, heq⟩ := subscribe_of_not_full srv.subscriber hsub
    obtain ⟨hnone, -⟩ := firstEmpty_spec hj
    refine ⟨j, hnone, ?_⟩
    show Slots.Holds ((r.advertise cfg srv.pub).1.subscribe srv.subscriber).1.subscribers j _
    rw [advertise_of_full hpub, heq]
    exact (holds_set_iff hnone).mpr (Or.inr ⟨rfl, rfl⟩)
  · intro hpub hsub
    obtain ⟨i, hi, heq⟩ := advertise_of_not_full cfg srv.pub hpub
    obtain ⟨hnone, -⟩ := firstEmpty_spec hi
    refine ⟨i, hnone, ?_⟩
    show Slots.Holds ((r.advertise cfg srv.pub).1.subscribe srv.subscriber).1.publishers i _
    rw [(subscribe_publishers srv.subscriber _).1, heq]
    exact (holds_set_iff hnone).mpr (Or.inr ⟨rfl, rfl⟩)

theorem registerService_atomic_iff (cfg : NodeConfig) (srv : Service) (r : Registry) :
    Atomic cfg r (r.registerService cfg srv) ↔ (Full r.publishers ↔ Full r.subscribers) := by
  unfold Atomic
  rw [registerService_eq_false_iff]
  obtain ⟨hsubscribed, hadvertised⟩ := @registerService_half cfg r srv
  constructor
  · intro h
    constructor
    · intro hpub
      by_contra hsub
      obtain ⟨j, hnone, hholds⟩ := hsubscribed hpub hsub
      rw [Slots.Holds, (h (Or.inl hpub)).2.1, hnone] at hholds
      cases hholds
    · intro hsub
      by_contra hpub
      obtain ⟨i, hnone, hholds⟩ := hadvertised hpub hsub
      rw [Slots.Holds, (h (Or.inr hsub)).1, hnone] at hholds
      cases hholds
  · intro hsame hfull
    have hpub : Full r.publishers := hfull.elim id hsame.mpr
    have hunchanged : r.registerService cfg srv = (r, false) := by
      unfold registerService
      simp only [advertise_of_full hpub, subscribe_of_full (hsame.mp hpub), Bool.and_false]
    rw [hunchanged]
    exact ⟨rfl, rfl, fun _ => rfl⟩

/-- A registration of a service is atomic if and only if both tables are full or both have an
empty slot. -/
theorem serviceRegistration_atomic_iff (cfg : NodeConfig) (srv : Service) (r : Registry) :
    (Atomic cfg r (r.advertiseService cfg srv) ↔ (Full r.publishers ↔ Full r.subscribers)) ∧
      (Atomic cfg r (r.serviceClient cfg srv) ↔ (Full r.publishers ↔ Full r.subscribers)) :=
  ⟨registerService_atomic_iff cfg srv r, registerService_atomic_iff cfg srv r⟩

/-- The empty name is a string. -/
theorem noName : (0 : UInt8) ∉ ([] : List UInt8) ∧ ([] : List UInt8).length + 1 < 2 ^ 32 :=
  ⟨List.not_mem_nil, by decide⟩

/-- An endpoint without names, that is not registered. -/
def unnamed (endpoint : Int) : Endpoint where
  id := 0
  topic := ⟨[], noName⟩
  type := ⟨[], noName⟩
  md5 := ⟨[], noName⟩
  endpoint := endpoint

/-- A node on an ATmega168, before any registration. -/
def bareNode : Registry :=
  start atmega168 (fun _ => ⟨unnamed TopicInfo.ID_PUBLISHER, false⟩)
    fun _ => unnamed TopicInfo.ID_SUBSCRIBER

/-- The same with six publishers. -/
def crowdedNode : Registry :=
  Registration.after atmega168 bareNode ((List.range 6).map .advertise)

/-- A service server finds no slot for its publisher, and its subscriber stays. -/
theorem crowdedNode_not_atomic :
    (crowdedNode.advertiseService atmega168 ⟨6, 6⟩).2 = false ∧
      ¬ Atomic atmega168 crowdedNode (crowdedNode.advertiseService atmega168 ⟨6, 6⟩) := by
  have hpub : Full crowdedNode.publishers := by decide
  have hsub : ¬ Full crowdedNode.subscribers := by decide
  refine ⟨(registerService_eq_false_iff atmega168 ⟨6, 6⟩ crowdedNode).mpr (Or.inl hpub), ?_⟩
  intro hatomic
  exact hsub (((registerService_atomic_iff atmega168 ⟨6, 6⟩ crowdedNode).mp hatomic).mp hpub)

end Registry

end Ros2Serial.Device
