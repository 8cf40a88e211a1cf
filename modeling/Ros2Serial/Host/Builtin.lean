import Ros2Serial.Host.SetupOrder
import Ros2Serial.Lib.Runs

/-!
# The handlers of the protocol

`start` enters eight handlers in `callbacks_`, those of `setupHandlers`.  A setup
handler enters the endpoint of its message in the same table, under the topic id of the
message, which may be any number of 16 bits.

`entered` says under which id a step enters something, if at all.  The handlers of the
protocol keep their entries if and only if it is never one of their own ids
(`protected_iff_throughout`).
-/

namespace Ros2Serial.Host.Registry

/-! ## What a step enters -/

/-- Every entry that `start` makes is there while the session is active. -/
def Protected (s : Registry) : Prop :=
  s.active = true → ∀ entry ∈ setupHandlers,
    s.callbacks.lookup (UInt16.ofNat entry.1) = some entry.2

/-- The ids of the entries that `start` makes. -/
def builtinIds : List UInt16 := setupHandlers.map fun entry => UInt16.ofNat entry.1

/-- The id of an endpoint that the setup handlers of a service enter: its name is new, and
its constructor does not throw. -/
def newEndpoint (kind : ServiceKind) (created : Bool) (s : Registry) (topic_info : TopicInfo) :
    Option UInt16 :=
  if topic_info.topic_name ∈ s.services kind then none
  else if topic_info.message_type ∈ s.converters ∧ created = false then none
  else some topic_info.topic_id

section Steps

variable (deserialize : List UInt8 → Option TopicInfo)

/-- The id that the entry of `callbacks_` for a message enters. -/
def handlerEntered (handler : Handler) (stream : List UInt8) (outside : Outside) (s : Registry) :
    Option UInt16 :=
  match handler with
  | .setupPublisher =>
    if outside.created then (deserialize stream).map TopicInfo.topic_id else none
  | .setupServiceClientPublisher | .setupServiceClientSubscriber =>
    (deserialize stream).bind (newEndpoint .client outside.created s)
  | .setupServiceServerPublisher | .setupServiceServerSubscriber =>
    (deserialize stream).bind (newEndpoint .server outside.created s)
  | _ => none

/-- The id under which a step enters an endpoint in `callbacks_`. -/
def entered (s : Registry) : Step → Option UInt16
  | .message topic_id stream outside =>
    if s.runs .io ∧ s.active then
      (s.callbacks.lookup topic_id).bind fun handler =>
        handlerEntered deserialize handler stream outside s
    else none
  | _ => none

/-- The step enters nothing under an id of the protocol. -/
def SparesBuiltin (s : Registry) (st : Step) : Prop :=
  ∀ id ∈ entered deserialize s st, id ∉ builtinIds

end Steps

/-! ## What a step does to `callbacks_` -/

/-- `s'` has the entries of `s` and, where there is an id, a new one that is no handler of
the protocol. -/
structure EntersAt (id : Option UInt16) (s s' : Registry) : Prop where
  active : s'.active = s.active
  callbacks : ∃ handler ∉ setupHandlers.map Prod.snd,
    s'.callbacks = id.elim s.callbacks fun id => s.callbacks.insert id handler

section Enters

variable {deserialize : List UInt8 → Option TopicInfo} {s s' : Registry} {topic_info : TopicInfo}

theorem EntersAt.same (hactive : s'.active = s.active) (hcallbacks : s'.callbacks = s.callbacks) :
    EntersAt none s s' :=
  ⟨hactive, .publisher, by decide, hcallbacks⟩

theorem createService_enters (kind : ServiceKind) (created : Bool) (topic_info : TopicInfo)
    (s : Registry) :
    EntersAt (s.newEndpoint kind created topic_info) s
      (s.createService kind created topic_info).1 := by
  unfold newEndpoint
  by_cases hpresent : topic_info.topic_name ∈ s.services kind
  · rw [if_pos hpresent, createService_present hpresent]
    exact .same rfl rfl
  · rw [if_neg hpresent]
    have hcreates := createService_creates hpresent created
    have hconstructed : (s.createService kind created topic_info).2 =
        !decide (topic_info.message_type ∈ s.converters ∧ created = false) := by
      rw [createService_constructed hpresent]
      cases created <;> simp
    have hcallbacks := hcreates.callbacks
    rw [hconstructed] at hcallbacks
    have hhandler : serviceHandler kind (s.made kind) ∉ setupHandlers.map Prod.snd := by
      cases kind <;> simp [serviceHandler, setupHandlers]
    refine ⟨hcreates.topics.active, _, hhandler, ?_⟩
    by_cases hthrows : topic_info.message_type ∈ s.converters ∧ created = false
    · rw [if_pos hthrows]
      simpa [hthrows] using hcallbacks
    · rw [if_neg hthrows]
      simpa [hthrows] using hcallbacks

theorem setupServiceSubscriber_enters (kind : ServiceKind) (created : Bool)
    (topic_info : TopicInfo) (s : Registry) :
    EntersAt (s.newEndpoint kind created topic_info) s
      (s.setupServiceSubscriber kind created topic_info) := by
  have henters := createService_enters kind created topic_info s
  cases hconstructed : (s.createService kind created topic_info).2 with
  | true =>
    have hsets := setupServiceSubscriber_sets hconstructed
    exact ⟨hsets.active.trans henters.active, by rw [hsets.callbacks]; exact henters.callbacks⟩
  | false =>
    rw [setupServiceSubscriber_thrown hconstructed]
    exact henters

/-- The entry for a message enters what it says. -/
theorem call_enters (handler : Handler) (stream : List UInt8) (outside : Outside) (s : Registry) :
    EntersAt (handlerEntered deserialize handler stream outside s) s
      (s.call deserialize handler stream outside) := by
  cases handler with
  | setupPublisher =>
    simp only [call, handlerEntered]
    cases deserialize stream with
    | none =>
      rw [Option.map_none, ite_self]
      exact .same rfl rfl
    | some topic_info =>
      simp only [setup, setupPublisher, Option.map_some]
      cases outside.created with
      | true => exact ⟨rfl, .publisher, by decide, rfl⟩
      | false => exact .same rfl rfl
  | setupSubscriber =>
    refine setup_cases (.same rfl rfl) fun topic_info _ => ?_
    unfold setupSubscriber
    split <;> exact .same rfl rfl
  | handleLog => exact .same rfl rfl
  | handleTime => exact .same rfl rfl
  | setupServiceClientPublisher =>
    simp only [call, handlerEntered]
    cases deserialize stream with
    | none => exact .same rfl rfl
    | some topic_info => exact createService_enters .client outside.created topic_info s
  | setupServiceClientSubscriber =>
    simp only [call, handlerEntered]
    cases deserialize stream with
    | none => exact .same rfl rfl
    | some topic_info => exact setupServiceSubscriber_enters .client outside.created topic_info s
  | setupServiceServerPublisher =>
    simp only [call, handlerEntered]
    cases deserialize stream with
    | none => exact .same rfl rfl
    | some topic_info => exact createService_enters .server outside.created topic_info s
  | setupServiceServerSubscriber =>
    simp only [call, handlerEntered]
    cases deserialize stream with
    | none => exact .same rfl rfl
    | some topic_info => exact setupServiceSubscriber_enters .server outside.created topic_info s
  | publisher => exact .same rfl rfl
  | serviceClient srv =>
    simp only [call, handleClient]
    split <;> exact .same rfl rfl
  | serviceServer srv => exact .same rfl rfl

/-- An entry displaces a handler of the protocol if and only if it has one of their ids. -/
theorem EntersAt.protected_iff {id : Option UInt16} (henters : EntersAt id s s')
    (hactive : s.active = true) (h : s.Protected) :
    s'.Protected ↔ ∀ id' ∈ id, id' ∉ builtinIds := by
  obtain ⟨handler, hhandler, hcallbacks⟩ := henters.callbacks
  have hbefore := h hactive
  cases id with
  | none =>
    refine iff_of_true (fun _ => ?_) fun id' hid => absurd hid (Option.not_mem_none id')
    rw [show s'.callbacks = s.callbacks from hcallbacks]
    exact hbefore
  | some id =>
    have hinsert : s'.callbacks = s.callbacks.insert id handler := hcallbacks
    constructor
    · intro hprotected id' hid' hbuiltin
      obtain rfl := Option.mem_some.mp hid'
      obtain ⟨entry, hentry, hid⟩ := List.mem_map.mp hbuiltin
      have hlookup := hprotected (henters.active.trans hactive) entry hentry
      rw [hinsert, hid, AList.lookup_insert, Option.some.injEq] at hlookup
      exact hhandler (hlookup ▸ List.mem_map_of_mem hentry)
    · intro hspares _ entry hentry
      have hne : UInt16.ofNat entry.1 ≠ id := by
        intro heq
        refine hspares id (Option.mem_some_self id) ?_
        exact heq ▸ List.mem_map_of_mem (f := fun entry => UInt16.ofNat entry.1) hentry
      rw [hinsert, AList.lookup_insert_ne hne]
      exact hbefore entry hentry

theorem Protected.congr (h : s.Protected) (hactive : s'.active = s.active)
    (hcallbacks : s'.callbacks = s.callbacks) : s'.Protected := by
  intro hactive'
  rw [hcallbacks]
  exact h (hactive ▸ hactive')

theorem start_protected (s : Registry) : s.start.Protected := by
  have hne : ∀ entry ∈ setupHandlers, ∀ other ∈ setupHandlers,
      UInt16.ofNat entry.1 = UInt16.ofNat other.1 → entry = other := by decide
  have hfold : ∀ (entries : List (Nat × Handler)) (callbacks : AList fun _ : UInt16 => Handler),
      (∀ entry ∈ entries, entry ∈ setupHandlers) →
      ∀ entry ∈ setupHandlers,
        (entry ∈ entries ∨ callbacks.lookup (UInt16.ofNat entry.1) = some entry.2) →
        (entries.foldl (fun callbacks entry => callbacks.insert (UInt16.ofNat entry.1) entry.2)
          callbacks).lookup (UInt16.ofNat entry.1) = some entry.2 := by
    intro entries
    induction entries with
    | nil =>
      intro callbacks _ entry _ hentry
      exact hentry.resolve_left List.not_mem_nil
    | cons first entries ih =>
      intro callbacks hentries entry hsetup hentry
      refine ih _ (fun entry hmem => hentries entry (List.mem_cons_of_mem _ hmem)) entry hsetup ?_
      have hfirst := hentries first List.mem_cons_self
      by_cases hid : UInt16.ofNat entry.1 = UInt16.ofNat first.1
      · obtain rfl := hne entry hsetup first hfirst hid
        exact Or.inr (AList.lookup_insert _)
      · rw [AList.lookup_insert_ne hid]
        refine hentry.imp (fun hmem => ?_) id
        exact (List.mem_cons.mp hmem).resolve_left fun heq => hid (by rw [heq])
  intro _ entry hentry
  exact hfold setupHandlers s.callbacks (fun _ hmem => hmem) entry hentry (Or.inl hentry)

/-- A step leaves the handlers of the protocol where they are if and only if it enters
nothing under their ids. -/
theorem step_protected_iff {st : Step} (h : s.Protected) :
    (s.step deserialize st).Protected ↔ s.SparesBuiltin deserialize st := by
  have hnone : ∀ {p : UInt16 → Prop}, ∀ id ∈ (none : Option UInt16), p id :=
    fun id hid => absurd hid (Option.not_mem_none id)
  by_cases hruns : s.runs st.thread = true
  case neg =>
    rw [step, if_neg hruns]
    refine iff_of_true h ?_
    cases st with
    | message topic_id stream outside =>
      have hnot : ¬ (s.runs .io = true ∧ s.active = true) := fun hboth => hruns hboth.1
      simp only [SparesBuiltin, entered, if_neg hnot]
      exact hnone
    | _ => exact hnone
  rw [step, if_pos hruns]
  cases st with
  | message topic_id stream outside =>
    simp only [perform, SparesBuiltin, entered]
    by_cases hactive : s.active = true
    · rw [if_pos hactive, if_pos ⟨hruns, hactive⟩]
      cases s.callbacks.lookup topic_id with
      | none => exact iff_of_true h hnone
      | some handler => exact (call_enters handler stream outside s).protected_iff hactive h
    · rw [if_neg hactive, if_neg fun hboth => hactive hboth.2]
      exact iff_of_true h hnone
  | requestTopics =>
    refine iff_of_true ?_ hnone
    rw [perform]
    split
    · exact h.congr rfl rfl
    · exact h
  | rosMessage topic_id message =>
    refine iff_of_true ?_ hnone
    rw [perform, rosMessage]
    split <;> exact h.congr rfl rfl
  | rosRequest service_type request =>
    refine iff_of_true ?_ hnone
    rw [perform, rosRequest]
    split
    · unfold startRequest
      split
      · exact h.congr rfl rfl
      · split <;> exact h.congr rfl rfl
    · exact h
  | stop =>
    refine iff_of_true ?_ hnone
    rw [perform, stop]
    split
    · intro hactive
      exact absurd hactive Bool.false_ne_true
    · exact h
  | start =>
    refine iff_of_true ?_ hnone
    rw [perform]
    split
    · exact h
    · exact start_protected s

end Enters

open Runs

/-- The handlers of the protocol keep their entries in every state of a run if and only if
no step of it enters an endpoint under one of their ids. -/
theorem protected_iff_throughout (deserialize : List UInt8 → Option TopicInfo)
    (types : List String) (timeout : Int) (steps : List Step) :
    Always (step deserialize) Protected (Registry.new types timeout) steps ↔
      Throughout (step deserialize) (SparesBuiltin deserialize) (Registry.new types timeout)
        steps :=
  always_iff_throughout (I := fun _ => True) trivial (fun _ _ _ => trivial)
    (fun hactive => absurd hactive Bool.false_ne_true) fun _ _ _ h => step_protected_iff h

/-- A device that announces a publisher under the id of the time. -/
def clockSetup (_ : List UInt8) : Option TopicInfo := some ⟨10, "/clock", "std_msgs/msg/Int32", 512⟩

/-- After that the session has no answer for requests of the time. -/
theorem clockSetup_not_protected :
    ¬ ∀ (deserialize : List UInt8 → Option TopicInfo) (types : List String) (timeout : Int)
      (steps : List Step),
      Always (step deserialize) Protected (Registry.new types timeout) steps := by
  intro h
  have hprotected := (h clockSetup [] 2000 [.start, .message 0 [] ⟨true, none, []⟩]).last
  have hlookup := hprotected (by decide) (TopicInfo.ID_TIME, .handleTime) (by decide)
  revert hlookup
  decide

end Ros2Serial.Host.Registry
