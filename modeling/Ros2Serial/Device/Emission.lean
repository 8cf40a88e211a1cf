import Ros2Serial.Device.NamedPort
import Ros2Serial.Device.ReceiveSafety
import Ros2Serial.Device.Registration

/-!
# What a node writes

Every frame that leaves a node is its own: a report, a request for the time, the
announcement of an endpoint in one of its tables, or a message of a publisher in its
table.

* `Enrolled` is the invariant of the two tables.  Every entry has the id of its slot and
  a kind of its table, and its `TopicInfo` fits `message_out`.
* `Own` says what a frame may be, in terms of the tables.  The tables only grow, so a
  frame that was own stays own (`Own.mono`).
* `Emits` says what a function of a node does to both.  `SpinRule` leads from the branches
  of `spinOnce` to all of it, and `run_emits` is the run, in which bytes of any kind arrive.

The callbacks of the subscribers may publish as they like, through publishers that are
registered (`Callbacks.Proper`).
-/

namespace Ros2Serial.Device

open Bytes Runs Slots Ucdr

/-! ## A rule for `spinOnce` -/

/-- What `spinOnce` changes outside of its branches: the state machine, the bytes that are left to
read, the clock, the flags and the times. -/
structure Quiet (nh nh' : NodeHandle) : Prop where
  messageIn : nh'.receiver.messageIn.length = nh.receiver.messageIn.length
  messageOut : nh'.messageOut = nh.messageOut
  outputCdr : nh'.outputCdr = nh.outputCdr
  inputCdr : nh'.inputCdr = nh.inputCdr
  publishers : nh'.publishers = nh.publishers
  subscribers : nh'.subscribers = nh.subscribers
  tx : nh'.hardware.tx = nh.hardware.tx

/-- The events that belong to no branch. -/
def Event.IsQuiet : Event → Prop
  | .reset => True
  | .read _ _ => True
  | .access _ => False
  | .act _ _ => False

theorem quiet_nil : ∀ e ∈ ([] : List Event), e.IsQuiet := fun _ he => absurd he List.not_mem_nil

/-- A relation between a node, a trace and the node after it, that follows from what `spinOnce` is
made of.  `P` is what a node needs, and keeps. -/
structure SpinRule (cfg : NodeConfig) (callbacks : Callbacks cfg) (P : NodeHandle → Prop)
    (R : NodeHandle → List Event → NodeHandle → Prop) : Prop where
  keep : ∀ {a b xs}, R a xs b → P b
  trans : ∀ {a b c xs ys}, R a xs b → R b ys c → R a (xs ++ ys) c
  quiet : ∀ {a b xs}, P a → Quiet a b → (∀ e ∈ xs, e.IsQuiet) → R a xs b
  sync : ∀ {a}, P a → R a [] (requestSyncTime cfg a)
  dispatch : ∀ {a} c_time topic, P a →
    R a (dispatch cfg callbacks c_time topic a).events (dispatch cfg callbacks c_time topic a).nh

namespace SpinRule

variable {cfg : NodeConfig} {callbacks : Callbacks cfg} {P : NodeHandle → Prop}
  {R : NodeHandle → List Event → NodeHandle → Prop} {nh : NodeHandle}

theorem react (rule : SpinRule cfg callbacks P R) (h : P nh) (c_time : UInt32)
    (reaction : Reaction) :
    R nh (react cfg callbacks c_time reaction nh).events
      (react cfg callbacks c_time reaction nh).nh := by
  cases reaction with
  | quiet => exact rule.quiet h ⟨rfl, rfl, rfl, rfl, rfl, rfl, rfl⟩ quiet_nil
  | header bytes => exact rule.quiet h ⟨rfl, rfl, rfl, rfl, rfl, rfl, rfl⟩ quiet_nil
  | store index => exact rule.quiet h ⟨rfl, rfl, rfl, rfl, rfl, rfl, rfl⟩ quiet_nil
  | sync => exact rule.quiet h ⟨rfl, rfl, rfl, rfl, rfl, rfl, rfl⟩ quiet_nil
  | skip =>
    simp only [Device.react]
    split <;> exact rule.quiet h ⟨rfl, rfl, rfl, rfl, rfl, rfl, rfl⟩ quiet_nil
  | version =>
    simp only [Device.react]
    split
    · exact rule.quiet h ⟨rfl, rfl, rfl, rfl, rfl, rfl, rfl⟩ quiet_nil
    · exact rule.sync h
  | invalidTopic => exact rule.quiet h ⟨rfl, rfl, rfl, rfl, rfl, rfl, rfl⟩ quiet_nil
  | message topic => exact rule.dispatch c_time topic h

/-- The loop takes a byte from `rx`, takes a step of the state machine, and reacts. -/
theorem handle (rule : SpinRule cfg callbacks P R) (h : P nh) (c_time : UInt32) (data : UInt8)
    (rest : List UInt8) :
    R nh
      (handle cfg callbacks c_time data
        { nh with hardware := { nh.hardware with rx := rest } }).events
      (handle cfg callbacks c_time data
        { nh with hardware := { nh.hardware with rx := rest } }).nh := by
  have hread : R nh [.read data (nh.receiver.step cfg data).2] { nh with
      receiver := (nh.receiver.step cfg data).1
      hardware := { nh.hardware with rx := rest } } := by
    refine rule.quiet h ⟨Receiver.step_messageIn_length data nh.receiver, rfl, rfl, rfl, rfl, rfl,
      rfl⟩ ?_
    intro e he
    rw [List.mem_singleton.mp he]
    trivial
  exact rule.trans hread (rule.react (rule.keep hread) c_time _)

theorem spinExpired (rule : SpinRule cfg callbacks P R) (h : P nh) (c_time : UInt32) :
    R nh [] (spinExpired c_time nh).1 := by
  unfold Device.spinExpired
  split <;> exact rule.quiet h ⟨rfl, rfl, rfl, rfl, rfl, rfl, rfl⟩ quiet_nil

theorem restartIfTimedOut (rule : SpinRule cfg callbacks P R) (h : P nh) (c_time : UInt32) :
    R nh [] (restartIfTimedOut c_time nh) := by
  unfold Device.restartIfTimedOut
  split <;> exact rule.quiet h ⟨rfl, rfl, rfl, rfl, rfl, rfl, rfl⟩ quiet_nil

theorem resetIfTimedOut (rule : SpinRule cfg callbacks P R) (h : P nh) (c_time : UInt32) :
    R nh (resetIfTimedOut c_time nh).2 (resetIfTimedOut c_time nh).1 := by
  unfold Device.resetIfTimedOut
  split
  · refine rule.quiet h ⟨rfl, rfl, rfl, rfl, rfl, rfl, rfl⟩ ?_
    intro e he
    rw [List.mem_singleton.mp he]
    trivial
  · exact rule.quiet h ⟨rfl, rfl, rfl, rfl, rfl, rfl, rfl⟩ quiet_nil

theorem occasionallySync (rule : SpinRule cfg callbacks P R) (h : P nh) (c_time : UInt32) :
    R nh [] (occasionallySync cfg c_time nh) := by
  unfold Device.occasionallySync
  split
  · have hsync := rule.sync h
    exact rule.trans hsync
      (rule.quiet (rule.keep hsync) ⟨rfl, rfl, rfl, rfl, rfl, rfl, rfl⟩ quiet_nil)
  · exact rule.quiet h ⟨rfl, rfl, rfl, rfl, rfl, rfl, rfl⟩ quiet_nil

theorem spinLoop (rule : SpinRule cfg callbacks P R) (c_time : UInt32) (rx : List UInt8)
    (h : P nh) :
    R nh (spinLoop cfg callbacks c_time rx nh).events (spinLoop cfg callbacks c_time rx nh).nh := by
  induction rx generalizing nh with
  | nil => exact rule.spinExpired h c_time
  | cons data rest ih =>
    have hexpired := rule.spinExpired h c_time
    have hhandle := rule.handle (rule.keep hexpired) c_time data rest
    have hfirst := rule.trans hexpired hhandle
    rw [Device.spinLoop]
    dsimp only
    split
    · exact hexpired
    · split
      · exact hfirst
      · exact rule.trans hfirst (ih (rule.keep hhandle))

theorem spinOnce (rule : SpinRule cfg callbacks P R) (h : P nh) :
    R nh (spinOnce cfg callbacks nh).2.1 (spinOnce cfg callbacks nh).1 := by
  obtain ⟨c_time, hc_time⟩ : ∃ c_time, nh.hardware.time.1 = c_time := ⟨_, rfl⟩
  have hclock : R nh [] { nh with hardware := nh.hardware.time.2 } :=
    rule.quiet h ⟨rfl, rfl, rfl, rfl, rfl, rfl, rfl⟩ quiet_nil
  have hrestart := rule.trans hclock (rule.restartIfTimedOut (rule.keep hclock) c_time)
  have hreset := rule.resetIfTimedOut (rule.keep hrestart) c_time
  have hloop := rule.spinLoop c_time (Device.resetIfTimedOut c_time (Device.restartIfTimedOut c_time
    { nh with hardware := nh.hardware.time.2 })).1.hardware.rx (rule.keep hreset)
  have hspin := rule.trans hrestart (rule.trans hreset hloop)
  simp only [Device.spinOnce, hc_time]
  split
  · exact hspin
  · have hlast := rule.trans hspin (rule.occasionallySync (rule.keep hloop) c_time)
    rwa [List.append_nil] at hlast

end SpinRule

/-! ## Tables -/

/-- The setup ids of the entries of `publishers`. -/
def publisherKinds : List Int :=
  [TopicInfo.ID_PUBLISHER, TopicInfo.ID_SERVICE_SERVER + TopicInfo.ID_PUBLISHER,
    TopicInfo.ID_SERVICE_CLIENT + TopicInfo.ID_PUBLISHER]

/-- The setup ids of the entries of `subscribers`. -/
def subscriberKinds : List Int :=
  [TopicInfo.ID_SUBSCRIBER, TopicInfo.ID_SERVICE_SERVER + TopicInfo.ID_SUBSCRIBER,
    TopicInfo.ID_SERVICE_CLIENT + TopicInfo.ID_SUBSCRIBER]

/-- A table: its entries have the ids of their slots, are of these kinds, and can be
announced. -/
structure Roster (cfg : NodeConfig) (base : Int) (kinds : List Int) (bufferSize : Nat)
    (slots : List (Option Endpoint)) : Prop where
  numbered : Slots.Numbers base Endpoint.id slots
  kind : ∀ i e, Slots.Holds slots i e → e.endpoint ∈ kinds
  fits : ∀ i e, Slots.Holds slots i e → InfoFits cfg (e, bufferSize)

/-- Both tables of a node that was initialised. -/
structure Enrolled (cfg : NodeConfig) (nh : NodeHandle) : Prop where
  initialised : nh.Initialised cfg
  publishers : Roster cfg (100 + cfg.MAX_SUBSCRIBERS) publisherKinds cfg.OUTPUT_SIZE nh.publishers
  subscribers : Roster cfg 100 subscriberKinds cfg.INPUT_SIZE nh.subscribers

/-- The length of a `TopicInfo` does not depend on the id, which is a field of two bytes. -/
theorem infoFits_id {cfg : NodeConfig} {e : Endpoint} {bufferSize : Nat} (id : Int) :
    InfoFits cfg ({ e with id := id }, bufferSize) ↔ InfoFits cfg (e, bufferSize) := Iff.rfl

/-- A table without entries. -/
theorem roster_replicate (cfg : NodeConfig) (base : Int) (kinds : List Int) (bufferSize n : Nat) :
    Roster cfg base kinds bufferSize (List.replicate n none) where
  numbered _ _ h := absurd h (not_holds_replicate n)
  kind _ _ h := absurd h (not_holds_replicate n)
  fits _ _ h := absurd h (not_holds_replicate n)

/-- `fillSlot` adds one entry. -/
theorem Roster.fillSlot {cfg : NodeConfig} {base : Int} {kinds : List Int} {bufferSize : Nat}
    {slots slots' : List (Option Endpoint)} {e : Endpoint}
    (h : Roster cfg base kinds bufferSize slots) (hkind : e.endpoint ∈ kinds)
    (hfits : InfoFits cfg (e, bufferSize)) (hfill : fillSlot base e slots = some slots') :
    Roster cfg base kinds bufferSize slots' ∧
      ∀ i x, Slots.Holds slots i x → Slots.Holds slots' i x := by
  rw [fillSlot_eq] at hfill
  obtain ⟨i, hi, rfl⟩ := Option.map_eq_some_iff.mp hfill
  have hnone := (firstEmpty_spec hi).1
  have hcases : ∀ j x, Slots.Holds (slots.set i (some { e with id := base + i })) j x →
      Slots.Holds slots j x ∨ j = i ∧ x = { e with id := base + i } :=
    fun j x hx => (holds_set_iff hnone).mp hx
  refine ⟨⟨?_, ?_, ?_⟩, fun j x hx => (holds_set_iff hnone).mpr (Or.inl hx)⟩
  · intro j x hx
    rcases hcases j x hx with hold | ⟨rfl, rfl⟩
    · exact h.numbered j x hold
    · rfl
  · intro j x hx
    rcases hcases j x hx with hold | ⟨rfl, rfl⟩
    · exact h.kind j x hold
    · exact hkind
  · intro j x hx
    rcases hcases j x hx with hold | ⟨rfl, rfl⟩
    · exact h.fits j x hold
    · exact (infoFits_id _).mpr hfits

/-- An id leads to one slot. -/
theorem Roster.unique {cfg : NodeConfig} {base : Int} {kinds : List Int} {bufferSize : Nat}
    {slots : List (Option Endpoint)} (h : Roster cfg base kinds bufferSize slots) {i j : Nat}
    {x y : Endpoint} (hx : Slots.Holds slots i x) (hy : Slots.Holds slots j y)
    (hid : x.id = y.id) : x = y := by
  have hxi := h.numbered i x hx
  have hyj := h.numbered j y hy
  obtain rfl : i = j := by omega
  exact hx.unique hy

theorem isSetup_of_mem {e : Endpoint}
    (h : e.endpoint ∈ publisherKinds ∨ e.endpoint ∈ subscriberKinds) : e.IsSetup := by
  simp only [publisherKinds, subscriberKinds, List.mem_cons, List.not_mem_nil, or_false] at h
  simp only [Endpoint.IsSetup, List.mem_cons, List.not_mem_nil, or_false]
  tauto

theorem initNode_enrolled (cfg : NodeConfig) (hardware : Hardware) :
    Enrolled cfg (initNode cfg (construct cfg hardware)) where
  initialised := construct_initialised cfg hardware
  publishers := roster_replicate ..
  subscribers := roster_replicate ..

/-! ## Frames -/

/-- What a frame of a node may be: its topic field with its payload. -/
inductive Own (cfg : NodeConfig) (nh : NodeHandle) : Nat × List UInt8 → Prop
  | report (payload : List UInt8) : Own cfg nh (topicField TopicInfo.ID_LOG, payload)
  | time (payload : List UInt8) : Own cfg nh (topicField TopicInfo.ID_TIME, payload)
  | publisher {i : Nat} {e : Endpoint} {payload : List UInt8}
      (he : Slots.Holds nh.publishers i e)
      (hinfo : (topicInfo e cfg.OUTPUT_SIZE).Encodes payload) :
      Own cfg nh (topicField e.endpoint, payload)
  | subscriber {i : Nat} {e : Endpoint} {payload : List UInt8}
      (he : Slots.Holds nh.subscribers i e)
      (hinfo : (topicInfo e cfg.INPUT_SIZE).Encodes payload) :
      Own cfg nh (topicField e.endpoint, payload)
  | message {i : Nat} {e : Endpoint} (he : Slots.Holds nh.publishers i e)
      (payload : List UInt8) : Own cfg nh (topicField e.id, payload)

/-- The tables of `nh'` have the entries of those of `nh`. -/
structure Grows (nh nh' : NodeHandle) : Prop where
  publishers : ∀ i e, Slots.Holds nh.publishers i e → Slots.Holds nh'.publishers i e
  subscribers : ∀ i e, Slots.Holds nh.subscribers i e → Slots.Holds nh'.subscribers i e

theorem Grows.of_eq {nh nh' : NodeHandle} (hpublishers : nh'.publishers = nh.publishers)
    (hsubscribers : nh'.subscribers = nh.subscribers) : Grows nh nh' :=
  ⟨fun _ _ h => hpublishers ▸ h, fun _ _ h => hsubscribers ▸ h⟩

theorem Grows.trans {a b c : NodeHandle} (h : Grows a b) (h' : Grows b c) : Grows a c :=
  ⟨fun i e he => h'.publishers i e (h.publishers i e he),
    fun i e he => h'.subscribers i e (h.subscribers i e he)⟩

theorem Own.mono {cfg : NodeConfig} {nh nh' : NodeHandle} {frame : Nat × List UInt8}
    (h : Own cfg nh frame) (hgrows : Grows nh nh') : Own cfg nh' frame := by
  cases h with
  | report payload => exact .report payload
  | time payload => exact .time payload
  | publisher he hinfo => exact .publisher (hgrows.publishers _ _ he) hinfo
  | subscriber he hinfo => exact .subscriber (hgrows.subscribers _ _ he) hinfo
  | message he payload => exact .message (hgrows.publishers _ _ he) payload

/-- A frame as it is written. -/
def frameOf (frame : Nat × List UInt8) : List UInt8 := Wire.encode frame.1 frame.2

/-- The frame is the node's own, and `message_out` can hold it. -/
structure Emitted (cfg : NodeConfig) (nh : NodeHandle) (frame : Nat × List UInt8) : Prop where
  own : Own cfg nh frame
  length_le : (frameOf frame).length ≤ cfg.OUTPUT_SIZE

theorem Emitted.mono {cfg : NodeConfig} {nh nh' : NodeHandle} {frame : Nat × List UInt8}
    (h : Emitted cfg nh frame) (hgrows : Grows nh nh') : Emitted cfg nh' frame :=
  ⟨h.own.mono hgrows, h.length_le⟩

/-- What a function of a node does: the tables grow, and frames of the node's own are
written behind those that were. -/
structure Emits (cfg : NodeConfig) (nh nh' : NodeHandle) : Prop where
  enrolled : Enrolled cfg nh'
  grows : Grows nh nh'
  tx : ∃ sent : List (Nat × List UInt8),
    nh'.hardware.tx = nh.hardware.tx ++ sent.map frameOf ∧ ∀ f ∈ sent, Emitted cfg nh' f

/-! ## One function at a time -/

section Functions

variable {cfg : NodeConfig} {nh : NodeHandle}

theorem Emits.refl (h : Enrolled cfg nh) : Emits cfg nh nh :=
  ⟨h, .of_eq rfl rfl, [], by simp, by simp⟩

theorem Emits.trans {a b c : NodeHandle} (h : Emits cfg a b) (h' : Emits cfg b c) :
    Emits cfg a c := by
  obtain ⟨sent, htx, hown⟩ := h.tx
  obtain ⟨more, htx', hown'⟩ := h'.tx
  refine ⟨h'.enrolled, h.grows.trans h'.grows, sent ++ more, ?_, ?_⟩
  · rw [htx', htx, List.map_append, List.append_assoc]
  · intro f hf
    rcases List.mem_append.mp hf with hsent | hmore
    · exact (hown f hsent).mono h'.grows
    · exact hown' f hmore

/-- A function that leaves the tables as they are, and writes what is given. -/
theorem Emits.of_tx {nh' : NodeHandle} (h : Enrolled cfg nh) (hinit : nh'.Initialised cfg)
    (hpublishers : nh'.publishers = nh.publishers)
    (hsubscribers : nh'.subscribers = nh.subscribers) {sent : List (Nat × List UInt8)}
    (htx : nh'.hardware.tx = nh.hardware.tx ++ sent.map frameOf)
    (hown : ∀ f ∈ sent, Emitted cfg nh f) : Emits cfg nh nh' := by
  have hgrows : Grows nh nh' := .of_eq hpublishers hsubscribers
  refine ⟨⟨hinit, ?_, ?_⟩, hgrows, sent, htx, fun f hf => (hown f hf).mono hgrows⟩
  · rw [hpublishers]
    exact h.publishers
  · rw [hsubscribers]
    exact h.subscribers

/-- A function that writes nothing. -/
theorem Emits.of_eq {nh' : NodeHandle} (h : Enrolled cfg nh) (hinit : nh'.Initialised cfg)
    (hpublishers : nh'.publishers = nh.publishers)
    (hsubscribers : nh'.subscribers = nh.subscribers)
    (htx : nh'.hardware.tx = nh.hardware.tx) : Emits cfg nh nh' :=
  have hnone : nh'.hardware.tx = nh.hardware.tx ++ List.map frameOf [] := by simp [htx]
  .of_tx h hinit hpublishers hsubscribers hnone (by simp)

/-- A function that changes the state machine, the clock, the flags and the times only. -/
theorem Emits.quiet {nh' : NodeHandle} (h : Enrolled cfg nh) (hquiet : Quiet nh nh') :
    Emits cfg nh nh' := by
  have hends : SameEnds nh.inputCdr nh'.inputCdr := hquiet.inputCdr ▸ SameEnds.refl _
  exact .of_eq h (h.initialised.congr hquiet.messageIn hquiet.messageOut hquiet.outputCdr hends
    hquiet.publishers hquiet.subscribers) hquiet.publishers hquiet.subscribers hquiet.tx

/-- The messages of an id are own frames. -/
def Publishable (cfg : NodeConfig) (nh : NodeHandle) (id : Int) : Prop :=
  ∀ payload, Own cfg nh (topicField id, payload)

/-- No frame is longer than `message_out`. -/
theorem publish_length_le (h : nh.Initialised cfg) (id : Int) (msg : Msg)
    {frames : List (List UInt8)}
    (htx : (publish cfg id msg nh).1.hardware.tx = nh.hardware.tx ++ frames) :
    ∀ frame ∈ frames, frame.length ≤ cfg.OUTPUT_SIZE := by
  by_cases hallowed : Allowed id nh
  · obtain ⟨frame, hsends, hlength, -⟩ := publish_sendsOne h hallowed msg
    rw [hsends.tx] at htx
    obtain rfl := List.append_cancel_left htx
    simpa using hlength
  · have hnothing : nh.hardware.tx ++ [] = nh.hardware.tx ++ frames := by
      rw [← htx, publish, publishDepth_of_not_allowed hallowed, List.append_nil]
    obtain rfl := List.append_cancel_left hnothing
    simp

theorem publish_emits (h : Enrolled cfg nh) {id : Int} (hid : Publishable cfg nh id) (msg : Msg) :
    Emits cfg nh (publish cfg id msg nh).1 := by
  obtain ⟨sent, hsends, htopics⟩ := publish_sends h.initialised id msg
  have hlength := publish_length_le h.initialised id msg hsends.tx
  obtain ⟨ub, out, heq⟩ := hsends.eq
  refine .of_tx h hsends.initialised (by rw [heq]; rfl) (by rw [heq]; rfl) hsends.tx ?_
  intro f hf
  refine ⟨?_, hlength _ (List.mem_map_of_mem hf)⟩
  obtain ⟨topic, payload⟩ := f
  rcases htopics _ hf with htopic | htopic
  · dsimp only at htopic
    rw [htopic]
    exact hid payload
  · dsimp only at htopic
    rw [htopic]
    exact .report payload

theorem requestSyncTime_emits (h : Enrolled cfg nh) : Emits cfg nh (requestSyncTime cfg nh) := by
  have hpublish := publish_emits h (fun payload => .time payload)
    (timeMsg 0x78563412 0x78563412)
  exact hpublish.trans (.of_eq hpublish.enrolled
    (requestSyncTime_keeps h.initialised).initialised rfl rfl rfl)

theorem exists_map_of_forall {α β : Type} {f : α → β} {P : α → Prop} {ys : List β}
    (h : ∀ y ∈ ys, ∃ x, y = f x ∧ P x) : ∃ xs : List α, ys = xs.map f ∧ ∀ x ∈ xs, P x := by
  induction ys with
  | nil => exact ⟨[], rfl, by simp⟩
  | cons y ys ih =>
    obtain ⟨x, hx, hfirst⟩ := h y List.mem_cons_self
    obtain ⟨xs, hmap, hrest⟩ := ih fun z hz => h z (List.mem_cons_of_mem _ hz)
    exact ⟨x :: xs, by rw [List.map_cons, hx, hmap], List.forall_mem_cons.mpr ⟨hfirst, hrest⟩⟩

/-- What one of the loops of `negotiateTopics` writes. -/
theorem announce_emits (h : Enrolled cfg nh) {base : Int} {kinds : List Int} {bufferSize : Nat}
    {slots : List (Option Endpoint)} (hroster : Roster cfg base kinds bufferSize slots)
    (hkinds : ∀ k ∈ kinds, k ∈ publisherKinds ∨ k ∈ subscriberKinds)
    (hown : ∀ i e payload, Slots.Holds slots i e → (topicInfo e bufferSize).Encodes payload →
      Own cfg nh (topicField e.endpoint, payload)) :
    Emits cfg nh (announce cfg bufferSize slots nh) := by
  have hslot : ∀ e, some e ∈ slots → ∃ i, Slots.Holds slots i e := fun e he =>
    List.mem_iff_getElem?.mp he
  have hsetup : ∀ e, some e ∈ slots → e.IsSetup := by
    intro e he
    obtain ⟨i, hi⟩ := hslot e he
    exact isSetup_of_mem (hkinds _ (hroster.kind i e hi))
  obtain ⟨frames, hsends, hall⟩ := announce_sends h.initialised bufferSize hsetup
  obtain ⟨ub, out, heq⟩ := hsends.eq
  have hframes : ∀ frame ∈ frames, ∃ f, frame = frameOf f ∧ Emitted cfg nh f := by
    intro frame hframe
    obtain ⟨entry, hentry, hsent⟩ := exists_of_forall₂ hall.flip hframe
    obtain ⟨e, he, rfl⟩ := List.mem_map.mp hentry
    obtain ⟨slot, hmem, hsome⟩ := List.mem_filterMap.mp he
    obtain rfl : slot = some e := hsome
    obtain ⟨i, hi⟩ := hslot e hmem
    obtain ⟨payload, rfl, hencodes⟩ := hsent.announces (hroster.fits i e hi)
    exact ⟨(topicField e.endpoint, payload), rfl, hown i e payload hi hencodes, hsent.length_le⟩
  obtain ⟨sent, hmap, hsent⟩ := exists_map_of_forall hframes
  refine .of_tx h hsends.initialised (by rw [heq]; rfl) (by rw [heq]; rfl) ?_ hsent
  rw [hsends.tx, hmap]

theorem negotiateTopics_emits (h : Enrolled cfg nh) : Emits cfg nh (negotiateTopics cfg nh) := by
  have hpublished := announce_emits h h.publishers (fun _ => Or.inl)
    fun i e payload he hinfo => .publisher he hinfo
  have hsubscribed := announce_emits hpublished.enrolled hpublished.enrolled.subscribers
    (fun _ => Or.inr) fun i e payload he hinfo => .subscriber he hinfo
  exact (hpublished.trans hsubscribed).trans (.of_eq hsubscribed.enrolled
    (negotiateTopics_keeps h.initialised).initialised rfl rfl rfl)

theorem advertise_emits (h : Enrolled cfg nh) {p : Endpoint} (hkind : p.endpoint ∈ publisherKinds)
    (hfits : InfoFits cfg (p, cfg.OUTPUT_SIZE)) : Emits cfg nh (advertise cfg p nh).1 := by
  have hinit := (advertise_keeps h.initialised p).initialised
  unfold advertise at hinit ⊢
  cases hfill : fillSlot (100 + cfg.MAX_SUBSCRIBERS) p nh.publishers with
  | none => exact .refl h
  | some slots =>
    rw [hfill] at hinit
    obtain ⟨hroster, hheld⟩ := h.publishers.fillSlot hkind hfits hfill
    exact ⟨⟨hinit, hroster, h.subscribers⟩, ⟨hheld, fun _ _ => id⟩, [], by simp, by simp⟩

theorem subscribe_emits (h : Enrolled cfg nh) {s : Endpoint}
    (hkind : s.endpoint ∈ subscriberKinds) (hfits : InfoFits cfg (s, cfg.INPUT_SIZE)) :
    Emits cfg nh (subscribe s nh).1 := by
  have hinit := (subscribe_keeps h.initialised s).initialised
  unfold subscribe at hinit ⊢
  cases hfill : fillSlot 100 s nh.subscribers with
  | none => exact .refl h
  | some slots =>
    rw [hfill] at hinit
    obtain ⟨hroster, hheld⟩ := h.subscribers.fillSlot hkind hfits hfill
    exact ⟨⟨hinit, h.publishers, hroster⟩, ⟨fun _ _ => id, hheld⟩, [], by simp, by simp⟩

/-! ## `spinOnce` -/

/-- The callbacks use the node as a program may: they write frames of the node's own. -/
def Callbacks.Proper (callbacks : Callbacks cfg) : Prop :=
  ∀ i nh, Enrolled cfg nh → Emits cfg nh (callbacks.run i nh)

variable {callbacks : Callbacks cfg}

theorem openInput_emits (h : Enrolled cfg nh) : Emits cfg nh (openInput nh) :=
  .of_eq h (openInput_keeps h.initialised).initialised rfl rfl rfl

theorem dispatch_emits (hcallbacks : callbacks.Proper) (h : Enrolled cfg nh) (c_time : UInt32)
    (topic : Int) : Emits cfg nh (dispatch cfg callbacks c_time topic nh).nh := by
  have hopen := openInput_emits h
  unfold dispatch
  dsimp only
  split
  · have hsync := requestSyncTime_emits h
    have hnegotiate := negotiateTopics_emits hsync.enrolled
    exact (hsync.trans hnegotiate).trans
      (.quiet hnegotiate.enrolled ⟨rfl, rfl, rfl, rfl, rfl, rfl, rfl⟩)
  split
  · exact hopen.trans (.of_eq hopen.enrolled
      (syncTime_keeps hopen.enrolled.initialised).initialised rfl rfl rfl)
  split
  · exact .quiet h ⟨rfl, rfl, rfl, rfl, rfl, rfl, rfl⟩
  split
  · exact .quiet h ⟨rfl, rfl, rfl, rfl, rfl, rfl, rfl⟩
  split
  · split
    · exact hopen.trans (hcallbacks _ _ hopen.enrolled)
    · exact .refl h
  · exact .refl h

theorem emits_rule (hcallbacks : callbacks.Proper) :
    SpinRule cfg callbacks (Enrolled cfg) fun nh _ nh' => Emits cfg nh nh' where
  keep h := h.enrolled
  trans h h' := h.trans h'
  quiet h hquiet _ := .quiet h hquiet
  sync h := requestSyncTime_emits h
  dispatch c_time topic h := dispatch_emits hcallbacks h c_time topic

/-! ## Runs -/

/-- What a program may call: it publishes through publishers that are registered, and
registers endpoints of the right kind, with names that can be announced.  When it spins, the
bytes that have arrived lead to no store outside `message_in`. -/
def Call.Proper {cfg : NodeConfig} (callbacks : Callbacks cfg) (nh : NodeHandle) : Call → Prop
  | .publish id _ => ∃ i e, Slots.Holds nh.publishers i e ∧ e.id = id
  | .advertise p => p.endpoint ∈ publisherKinds ∧ InfoFits cfg (p, cfg.OUTPUT_SIZE)
  | .subscribe s => s.endpoint ∈ subscriberKinds ∧ InfoFits cfg (s, cfg.INPUT_SIZE)
  | .spinOnce => StoresInside cfg (Device.spinOnce cfg callbacks nh).2.1
  | _ => True

theorem Call.run_emits (hcallbacks : callbacks.Proper) (h : Enrolled cfg nh) {call : Call}
    (hproper : call.Proper callbacks nh) : Emits cfg nh (callStep cfg callbacks nh call) := by
  have hinit := (call.run_spins callbacks h.initialised).initialised
  cases call with
  | spinOnce => exact (emits_rule hcallbacks).spinOnce h
  | publish id msg =>
    obtain ⟨i, e, he, rfl⟩ := hproper
    exact publish_emits h (fun payload => .message he payload) msg
  | log level text => exact publish_emits h (fun payload => .report payload) _
  | advertise p => exact advertise_emits h hproper.1 hproper.2
  | subscribe s => exact subscribe_emits h hproper.1 hproper.2
  | requestSyncTime => exact requestSyncTime_emits h
  | arrive bytes => exact .of_eq h hinit rfl rfl rfl
  | setNow sec nanosec => exact .of_eq h hinit rfl rfl rfl
  | now => exact .of_eq h hinit rfl rfl rfl
  | setSpinTimeout timeout => exact .of_eq h hinit rfl rfl rfl

/-- In a run of proper calls, all that a node writes is its own. -/
theorem run_emits (hcallbacks : callbacks.Proper) (h : Enrolled cfg nh) {calls : List Call}
    (hproper : Throughout (callStep cfg callbacks) (fun nh call => call.Proper callbacks nh) nh calls) :
    Emits cfg nh (run cfg callbacks nh calls).1 := by
  rw [run_eq_callStep]
  induction calls generalizing nh with
  | nil => exact .refl h
  | cons call rest ih =>
    obtain ⟨hfirst, hrest⟩ := throughout_cons.mp hproper
    have hcall := Call.run_emits hcallbacks h hfirst
    exact hcall.trans (ih hcall.enrolled hrest)

/-- All that a node has written since then are frames of its own: announcements of its endpoints,
messages of its publishers, requests of the time and reports, none longer than `message_out`. -/
theorem run_writes_own (hcallbacks : callbacks.Proper) (h : Enrolled cfg nh) {calls : List Call}
    (hproper : Throughout (callStep cfg callbacks) (fun nh call => call.Proper callbacks nh) nh calls) :
    ∃ sent : List (Nat × List UInt8),
      (run cfg callbacks nh calls).1.hardware.tx = nh.hardware.tx ++ sent.map frameOf ∧
        ∀ f ∈ sent, Emitted cfg (run cfg callbacks nh calls).1 f :=
  (run_emits hcallbacks h hproper).tx

end Functions

theorem noCallbacks_proper (cfg : NodeConfig) : (noCallbacks cfg).Proper := fun _ _ h => .refl h

/-- A publisher of a topic `p`. -/
def publisherP : Endpoint where
  id := 0
  endpoint := 0
  topic := ⟨[112], by decide, by decide⟩
  type := ⟨[113], by decide, by decide⟩
  md5 := ⟨[114], by decide, by decide⟩

/-- Its topic is requested, and then it sends. -/
def publishingCalls : List Call :=
  [.advertise publisherP, .arrive (Wire.encode 0 []), .spinOnce, .publish 106 (timeMsg 1 2)]

theorem publishingCalls_proper :
    Throughout (callStep atmega168 (noCallbacks _)) (fun nh call => call.Proper (noCallbacks atmega168) nh)
      (freshNode atmega168) publishingCalls := by
  have hfirst : (Call.advertise publisherP).Proper (noCallbacks atmega168) (freshNode atmega168) :=
    ⟨by decide, by decide⟩
  have hadvertised := Call.run_emits (noCallbacks_proper _) (initNode_enrolled _ _) hfirst
  have hslot : Slots.Holds (callStep atmega168 (noCallbacks _) (freshNode atmega168)
      (.advertise publisherP)).publishers 0 { publisherP with id := 106 } := rfl
  have harrived : Emits atmega168 _ (callStep atmega168 (noCallbacks _) _
      (.arrive (Wire.encode 0 []))) :=
    Call.run_emits (noCallbacks_proper _) hadvertised.enrolled trivial
  have hinside : Call.spinOnce.Proper (noCallbacks atmega168) (callStep atmega168 (noCallbacks _)
      (callStep atmega168 (noCallbacks _) (freshNode atmega168) (.advertise publisherP))
        (.arrive (Wire.encode 0 []))) :=
    show StoresInside atmega168 _ by decide +kernel
  have hspun : Emits atmega168 _ (callStep atmega168 (noCallbacks _) _ .spinOnce) :=
    Call.run_emits (noCallbacks_proper _) harrived.enrolled hinside
  have hkept := hspun.grows.publishers _ _ (harrived.grows.publishers _ _ hslot)
  exact throughout_cons.mpr ⟨hfirst, throughout_cons.mpr ⟨trivial, throughout_cons.mpr ⟨hinside,
    throughout_cons.mpr ⟨⟨0, _, hkept, rfl⟩, throughout_nil⟩⟩⟩⟩

theorem publishingCalls_own :
    ∃ sent : List (Nat × List UInt8),
      (run atmega168 (noCallbacks _) (freshNode atmega168) publishingCalls).1.hardware.tx =
          (freshNode atmega168).hardware.tx ++ sent.map frameOf ∧
        ∀ f ∈ sent, Emitted atmega168
          (run atmega168 (noCallbacks _) (freshNode atmega168) publishingCalls).1 f := by
  have henrolled : Enrolled atmega168 (freshNode atmega168) := initNode_enrolled _ _
  exact run_writes_own (noCallbacks_proper atmega168) henrolled publishingCalls_proper

end Ros2Serial.Device
