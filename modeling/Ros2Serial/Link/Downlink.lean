import Ros2Serial.Link.Routing
import Ros2Serial.Link.Subscription

/-!
# Messages from ROS

`Relay.lean` follows the messages of a node to ROS, and this module those of ROS to the node.  A
`Duplex` is a `Bridge` with the line from the host: the bytes that the session has written arrive
at the node in order, in pieces of any size, and no others do.

* `carried`, `events` and `posted` are not in the code.  They record how many bytes have arrived,
  the trace of the node, and what `Subscriber::handle` has been called with.
* A step is `Orderly` if the node times out in no frame, if a message of ROS is not too long for a
  frame, and if a frame that the host writes has room in `message_in` and is not for a service
  whose id the host does not know.
* `Sound` is the invariant.  The node stands somewhere in the stream, and has taken the branch of
  every frame before that place (`Position`).
* `posted_under` is the part of it that is about ROS: the frames with the id of a subscriber are
  the messages of its topic.

`rosMessages_delivered` puts them together with what a subscriber makes of a frame.
-/

namespace Ros2Serial.Link

open Bytes Generator Device Host Runs

/-! ## Frames -/

/-- The topic id of a frame with its payload. -/
def partsOf (frame : List UInt8) : Nat × List UInt8 := (Wire.topicOf frame, Wire.payloadOf frame)

theorem partsOf_encode (id : UInt16) (message : List UInt8) :
    partsOf (Wire.encode id.toNat message) = (id.toNat, message) := by
  rw [partsOf, Wire.topicOf_encode id.toNat_lt, Wire.payloadOf_encode]

theorem Framed.encode_partsOf {frame : List UInt8} (h : Framed frame) :
    Wire.encode (partsOf frame).1 (partsOf frame).2 = frame := by
  obtain ⟨id, message, -, rfl⟩ := h
  rw [partsOf_encode]

/-! ## The machine -/

/-- A node and its session, with the line from the host. -/
structure Duplex where
  bridge : Bridge
  /-- How many of the bytes that the host has written have arrived at the node. -/
  carried : Nat
  /-- What the node has done. -/
  events : List Event
  /-- The messages that `Subscriber::handle` was called with. -/
  posted : List (Host.Subscriber × List UInt8)

namespace Duplex

inductive Step
  /-- A step in which no bytes arrive at the node. -/
  | bridge (st : Bridge.Step)
  /-- The next bytes that the host has written arrive there. -/
  | carry (n : Nat)

/-- The frames that the host has written. -/
def frames (d : Duplex) : List (Nat × List UInt8) :=
  d.bridge.session.registry.written.map fun w => partsOf w.frame

/-- The bytes that have not arrived. -/
def onLine (d : Duplex) : List UInt8 :=
  (d.bridge.session.registry.written.flatMap (·.frame)).drop d.carried

/-- The messages that a step posts. -/
def postedBy (b : Bridge) : Bridge.Step → List (Host.Subscriber × List UInt8)
  | .rosMessage id message =>
    if b.session.io_stopped || !b.session.registry.runs .ros then []
    else ((b.session.registry.subscribers.lookup id).map (·, message)).toList
  | _ => []

section Steps

variable (cfg : NodeConfig) (callbacks : Callbacks cfg)
  (deserialize : List UInt8 → Option Host.TopicInfo)

/-- The events of a step. -/
def eventsOf (b : Bridge) : Bridge.Step → List Event
  | .call c => (c.run cfg callbacks b.node).2
  | _ => []

def step (d : Duplex) : Step → Duplex
  | .bridge st =>
    { bridge := d.bridge.step cfg callbacks deserialize st
      carried := d.carried
      events := d.events ++ eventsOf cfg callbacks d.bridge st
      posted := d.posted ++ postedBy d.bridge st }
  | .carry n =>
    { d with
      bridge := d.bridge.step cfg callbacks deserialize (.call (.arrive (d.onLine.take n)))
      carried := d.carried + (d.onLine.take n).length }

end Steps

/-- A node, and a session that was not started. -/
def new (nh : NodeHandle) (t : TableSession) : Duplex where
  bridge := .new nh t
  carried := 0
  events := []
  posted := []

/-- `message_in` has room for the frame, and the host knows whom it is for. -/
def Room (cfg : NodeConfig) (frame : List UInt8) : Prop :=
  Wire.topicOf frame ≠ 65535 ∧ (Wire.payloadOf frame).length ≤ cfg.INPUT_SIZE

instance (cfg : NodeConfig) (frame : List UInt8) : Decidable (Room cfg frame) :=
  inferInstanceAs (Decidable (_ ∧ _))

/-- A message of ROS is not too long for a frame. -/
def HasFrame : Bridge.Step → Prop
  | .rosMessage _ message => message.length ≤ 65527
  | _ => True

/-- The program calls what it may, no bytes arrive but those of the host, the node does not time
out, a message of ROS has a frame, and what the host has written has room. -/
def Orderly (cfg : NodeConfig) (callbacks : Callbacks cfg)
    (deserialize : List UInt8 → Option Host.TopicInfo) (d : Duplex) : Step → Prop
  | .bridge st =>
    st.Proper callbacks d.bridge ∧ (∀ bytes, st ≠ .call (.arrive bytes)) ∧
      .reset ∉ eventsOf cfg callbacks d.bridge st ∧ HasFrame st ∧
      ∀ w ∈ (d.bridge.step cfg callbacks deserialize st).session.registry.written,
        Room cfg w.frame
  | .carry _ => True

/-- The messages that were posted for a subscriber of the host. -/
def postedTo (sub : Host.Subscriber) (posted : List (Host.Subscriber × List UInt8)) :
    List (List UInt8) :=
  (posted.filter fun entry => entry.1 = sub).map (·.2)

/-- The messages that were posted under an id. -/
def postedUnder (id : UInt16) (posted : List (Host.Subscriber × List UInt8)) :
    List (List UInt8) :=
  (posted.filter fun entry => entry.1.topic_id = id).map (·.2)

/-- The payloads of the frames with an id. -/
def payloadsOf (id : UInt16) (frames : List (Nat × List UInt8)) : List (List UInt8) :=
  (frames.filter fun frame => frame.1 = id.toNat).map (·.2)

/-- An id that is neither of the protocol nor of a service. -/
def Plain (nh : NodeHandle) (id : UInt16) : Prop :=
  100 ≤ id.toNat ∧ ∀ kind e, ¬ HasSubscriber nh (subscriberKind kind) id e

/-! ## The invariant -/

/-- What every orderly step keeps. -/
structure Sound (cfg : NodeConfig) (text : CString → String) (d : Duplex) : Prop where
  bridge : d.bridge.Sound cfg text
  written : ∀ w ∈ d.bridge.session.registry.written, Framed w.frame ∧ Room cfg w.frame
  position : ∃ done left, d.frames = done ++ left ∧ List.Forall₂ Serves (taken d.events) done ∧
    Position d.bridge.node.receiver left (d.bridge.node.hardware.rx ++ d.onLine)
  inputs : ∀ act ∈ taken d.events, act.2.length = cfg.INPUT_SIZE
  carried : d.carried ≤ (d.bridge.session.registry.written.flatMap (·.frame)).length
  subscribed : ∀ entry ∈ d.posted, Subscribed text d.bridge.node entry.1.topic_id entry.1
  posted_under : ∀ id, Plain d.bridge.node id → payloadsOf id d.frames = postedUnder id d.posted

section Invariant

variable {cfg : NodeConfig} {callbacks : Callbacks cfg} {text : CString → String}
  {deserialize : List UInt8 → Option Host.TopicInfo} {d : Duplex}

theorem payloadsOf_append (id : UInt16) (frames more : List (Nat × List UInt8)) :
    payloadsOf id (frames ++ more) = payloadsOf id frames ++ payloadsOf id more := by
  rw [payloadsOf, List.filter_append, List.map_append]
  rfl

theorem postedUnder_append (id : UInt16) (posted more : List (Host.Subscriber × List UInt8)) :
    postedUnder id (posted ++ more) = postedUnder id posted ++ postedUnder id more := by
  rw [postedUnder, List.filter_append, List.map_append]
  rfl

theorem Plain.mono {nh nh' : NodeHandle} {id : UInt16} (h : Plain nh' id) (hgrows : Grows nh nh') :
    Plain nh id :=
  ⟨h.1, fun kind e he => h.2 kind e (he.mono hgrows)⟩

/-- A frame for a service, or for the protocol, has no plain id. -/
theorem not_plain_of_meant {nh : NodeHandle} {kind : ServiceKind} {name : String} {topic_id : Nat}
    (h : Meant text nh (subscriberKind kind) name topic_id) (hknown : topic_id ≠ 65535)
    {id : UInt16} (hplain : Plain nh id) : topic_id ≠ id.toNat := by
  rintro rfl
  rcases h with hunknown | ⟨j, e, he, hkind, -, hid⟩
  · exact hknown hunknown
  · exact hplain.2 kind e ⟨⟨j, he⟩, hkind, hid⟩

theorem not_plain_of_protocol {nh : NodeHandle} {frame : List UInt8} (h : OfProtocol frame)
    {id : UInt16} (hplain : Plain nh id) : Wire.topicOf frame ≠ id.toNat := by
  have hle := hplain.1
  rcases h with h | h
  · rw [h, Host.TopicInfo.ID_PUBLISHER]
    omega
  · rw [h, Host.TopicInfo.ID_TX_STOP]
    omega

/-- Only a message of a ROS topic has a plain id. -/
theorem routed_not_plain {b : Bridge} {st : Bridge.Step}
    (hst : ∀ id message, st ≠ .rosMessage id message) {frame : List UInt8}
    (h : Bridge.Routed text b st frame) (hroom : Room cfg frame) {id : UInt16}
    (hplain : Plain b.node id) : Wire.topicOf frame ≠ id.toNat := by
  cases st with
  | rosMessage id' message => exact absurd rfl (hst id' message)
  | rosRequest service_type request =>
    obtain ⟨-, srv, server, -, -, -, hmeant⟩ := h
    exact not_plain_of_meant hmeant hroom.1 hplain
  | deliver enabled outside =>
    rcases h with hprotocol | ⟨received, -, ⟨-, htime, -⟩ | ⟨-, i, e, -, -, -, hmeant⟩⟩
    · exact not_plain_of_protocol hprotocol hplain
    · have hle := hplain.1
      rw [htime, Host.TopicInfo.ID_TIME]
      omega
    · exact not_plain_of_meant hmeant hroom.1 hplain
  | fail i error => exact not_plain_of_protocol h hplain
  | stop => exact not_plain_of_protocol h hplain
  | start => exact not_plain_of_protocol h hplain
  | call c => exact h.elim
  | lose => exact h.elim
  | interrupt => exact h.elim

/-- What `write_message` writes: a frame, or nothing where the message is too long for one. -/
theorem writeMessage_parts (thread : Thread) (message : List UInt8) (id : UInt16)
    (r : Host.Registry) :
    (r.writeMessage thread message id).written.map (fun w => partsOf w.frame) =
      r.written.map (fun w => partsOf w.frame) ++
        if message.length ≤ 65527 then [(id.toNat, message)] else [] := by
  have hwritten : (r.writeMessage thread message id).written.map (fun w => partsOf w.frame) =
      r.written.map (fun w => partsOf w.frame) ++
        (messageBuffer message id.toNat).toList.map partsOf := by
    simp [Host.Registry.writeMessage, Function.comp_def]
  refine hwritten.trans (congrArg (_ ++ ·) ?_)
  split
  · rename_i hlength
    rw [messageBuffer_eq hlength id.toNat_lt]
    simp [partsOf_encode]
  · rename_i hlength
    have hnone : messageBuffer message id.toNat = none := by
      cases hframe : messageBuffer message id.toNat with
      | none => rfl
      | some frame => exact absurd ((messageBuffer_eq_some_iff id.toNat_lt).mp hframe).1 hlength
    simp [hnone]

/-- What a message of ROS is written as. -/
theorem rosMessage_parts (id : UInt16) {message : List UInt8} (hlength : message.length ≤ 65527)
    (r : Host.Registry) :
    (r.rosMessage id message).written.map (fun w => partsOf w.frame) =
      r.written.map (fun w => partsOf w.frame) ++
        (r.subscribers.lookup id).toList.map fun sub => (sub.topic_id.toNat, message) := by
  unfold Host.Registry.rosMessage
  cases hsub : r.subscribers.lookup id with
  | none => simp
  | some sub =>
    have hparts := writeMessage_parts .ros message sub.topic_id r
    rw [if_pos hlength] at hparts
    exact hparts

/-- So a session writes what was posted to it. -/
theorem step_rosMessage_parts {b : Bridge} (id : UInt16) {message : List UInt8}
    (hlength : message.length ≤ 65527) :
    (b.step cfg callbacks deserialize (.rosMessage id message)).session.registry.written.map
        (fun w => partsOf w.frame) =
      b.session.registry.written.map (fun w => partsOf w.frame) ++
        (postedBy b (.rosMessage id message)).map
          fun entry => (entry.1.topic_id.toNat, entry.2) := by
  dsimp only [Bridge.step, postedBy]
  by_cases hstopped : (b.session.io_stopped || !b.session.registry.runs .ros) = true
  · have hsession : b.session.step deserialize (.rosMessage id message) = b.session :=
      if_pos hstopped
    rw [hsession, if_pos hstopped, List.map_nil, List.append_nil]
  · have hsession : b.session.step deserialize (.rosMessage id message) =
        { b.session with registry := b.session.registry.rosMessage id message } :=
      if_neg hstopped
    rw [hsession, if_neg hstopped]
    refine (rosMessage_parts id hlength _).trans (congrArg (_ ++ ·) ?_)
    cases b.session.registry.subscribers.lookup id with
    | none => rfl
    | some sub => rfl

/-- The messages that a step posts are those that it writes under the id. -/
theorem step_posted_under {st : Bridge.Step} (hframe : HasFrame st) {more : List Written}
    (hmore : (d.bridge.step cfg callbacks deserialize st).session.registry.written =
      d.bridge.session.registry.written ++ more)
    (hrouted : ∀ w ∈ more, Bridge.Routed text d.bridge st w.frame)
    (hroom : ∀ w ∈ more, Room cfg w.frame) {id : UInt16} (hplain : Plain d.bridge.node id) :
    payloadsOf id (more.map fun w => partsOf w.frame) =
      postedUnder id (postedBy d.bridge st) := by
  by_cases hst : ∃ id message, st = .rosMessage id message
  · obtain ⟨id', message, rfl⟩ := hst
    have hparts : more.map (fun w => partsOf w.frame) =
        (postedBy d.bridge (.rosMessage id' message)).map
          fun entry => (entry.1.topic_id.toNat, entry.2) := by
      have happend : d.bridge.session.registry.written.map (fun w => partsOf w.frame) ++
          more.map (fun w => partsOf w.frame) =
            d.bridge.session.registry.written.map (fun w => partsOf w.frame) ++
              (postedBy d.bridge (.rosMessage id' message)).map
                fun entry => (entry.1.topic_id.toNat, entry.2) := by
        rw [← List.map_append, ← hmore]
        exact step_rosMessage_parts id' hframe
      exact List.append_cancel_left happend
    rw [hparts, payloadsOf, postedUnder, List.filter_map, List.map_map]
    congr 1
    refine List.filter_congr fun entry _ => ?_
    simp [UInt16.toNat_inj]
  · have hother : ∀ id message, st ≠ .rosMessage id message :=
      fun id message heq => hst ⟨id, message, heq⟩
    have hnone : postedBy d.bridge st = [] := by
      cases st with
      | rosMessage id message => exact absurd rfl (hother id message)
      | _ => rfl
    have hfilter : (more.map fun w => partsOf w.frame).filter
        (fun frame => frame.1 = id.toNat) = [] := by
      refine List.filter_eq_nil_iff.mpr fun frame hframe => ?_
      obtain ⟨w, hw, rfl⟩ := List.mem_map.mp hframe
      have hne := routed_not_plain hother (hrouted w hw) (hroom w hw) hplain
      exact fun heq => hne (of_decide_eq_true heq)
    rw [hnone, payloadsOf, hfilter]
    rfl

/-! ### One step -/

/-- Only a call changes the node, and it writes nothing at the host. -/
theorem step_node (callbacks : Callbacks cfg)
    (deserialize : List UInt8 → Option Host.TopicInfo) (b : Bridge) (st : Bridge.Step) :
    (∃ c, st = .call c ∧ (b.step cfg callbacks deserialize st).session = b.session) ∨
      (b.step cfg callbacks deserialize st).node = b.node ∧
        eventsOf cfg callbacks b st = [] := by
  have hreceive : ∀ (enabled : Bool) (outside : Outside) (topic_id : Nat) (payload : List UInt8)
      (b : Bridge), (b.receive deserialize enabled outside topic_id payload).node = b.node := by
    intro enabled outside topic_id payload b
    unfold Bridge.receive
    split
    · rfl
    · split <;> rfl
  cases st with
  | call c => exact Or.inl ⟨c, rfl, rfl⟩
  | deliver enabled outside =>
    refine Or.inr ⟨?_, rfl⟩
    rw [Bridge.step]
    split
    · rfl
    · exact hreceive _ _ _ _ _
  | lose =>
    refine Or.inr ⟨?_, rfl⟩
    rw [Bridge.step]
    split <;> rfl
  | _ => exact Or.inr ⟨rfl, rfl⟩

theorem step_grows (hcallbacks : callbacks.Proper) {b : Bridge} (henrolled : Enrolled cfg b.node)
    {st : Bridge.Step} (hproper : st.Proper callbacks b) :
    Grows b.node (b.step cfg callbacks deserialize st).node := by
  rcases step_node callbacks deserialize b st with ⟨c, rfl, -⟩ | ⟨hnode, -⟩
  · exact (Call.run_emits hcallbacks henrolled hproper).grows
  · rw [hnode]
    exact .of_eq rfl rfl

/-- The node runs its state machine on what has arrived before. -/
theorem step_spins {b : Bridge} (henrolled : Enrolled cfg b.node) {st : Bridge.Step}
    (harrive : ∀ bytes, st ≠ .call (.arrive bytes)) :
    Spins cfg [] b.node (eventsOf cfg callbacks b st)
      (b.step cfg callbacks deserialize st).node := by
  rcases step_node callbacks deserialize b st with ⟨c, rfl, -⟩ | ⟨hnode, hevents⟩
  · have hspins := c.run_spins callbacks henrolled.initialised
    have harrived : c.arrived = [] := by
      cases c with
      | arrive bytes => exact absurd rfl (harrive bytes)
      | _ => rfl
    rw [harrived] at hspins
    exact hspins
  · rw [hnode, hevents]
    exact (Keeps.refl henrolled.initialised).spins

/-- The node has a branch for what is written to it. -/
theorem hasBranch_of_addressed (hids : IdsFit cfg) {nh : NodeHandle} (henrolled : Enrolled cfg nh)
    {frame : List UInt8} (h : Addressed nh frame) (hknown : Wire.topicOf frame ≠ 65535) :
    HasBranch nh (Wire.topicOf frame) := by
  rcases h with hmem | ⟨j, e, he, htopic⟩
  · refine Or.inl ?_
    simp only [List.mem_cons, List.not_mem_nil, or_false] at hmem
    rcases hmem with htopic | htopic | htopic | htopic
    · rw [htopic]
      decide
    · rw [htopic]
      decide
    · rw [htopic]
      decide
    · exact absurd htopic hknown
  · have hfield := (topicField_subscriber hids henrolled he).1
    have hindex : ((Wire.topicOf frame : Nat) : Int) - 100 = j := by omega
    refine Or.inr ?_
    rw [hindex]
    exact ⟨Int.natCast_nonneg j, e, he⟩

theorem fits_of_hasBranch {nh : NodeHandle} (hinit : nh.Initialised cfg) {frame : List UInt8}
    (hframed : Framed frame) (hroom : Room cfg frame) (h : HasBranch nh (Wire.topicOf frame)) :
    Fits cfg (partsOf frame) := by
  have hvalid := h.valid hinit
  obtain ⟨id, message, hlength, rfl⟩ := hframed
  have hinput := hroom.2
  rw [Wire.topicOf_encode id.toNat_lt] at hvalid
  rw [Wire.payloadOf_encode] at hinput
  rw [partsOf_encode]
  have hid := id.toNat_lt
  exact ⟨hid, hvalid, hinput, by dsimp only; omega⟩

theorem flatMap_frame {written : List Written} (h : ∀ w ∈ written, Framed w.frame) :
    written.flatMap (·.frame) = Wire.encodeAll (written.map fun w => partsOf w.frame) := by
  rw [Wire.encodeAll, List.flatMap_map]
  exact List.flatMap_congr fun w hw => (h w hw).encode_partsOf.symm

/-- What is on the line, when more is written. -/
theorem onLine_append {written more : List Written} {carried : Nat}
    (hcarried : carried ≤ (written.flatMap (·.frame)).length) :
    ((written ++ more).flatMap (·.frame)).drop carried =
      (written.flatMap (·.frame)).drop carried ++ more.flatMap (·.frame) := by
  rw [List.flatMap_append, List.drop_append_of_le_length hcarried]

/-- What has been posted stays about subscribers of the node, and so does what a step posts. -/
theorem step_subscribed (h : d.Sound cfg text) {st : Bridge.Step} {nh : NodeHandle}
    (hgrows : Grows d.bridge.node nh) :
    ∀ entry ∈ d.posted ++ postedBy d.bridge st,
      Subscribed text nh entry.1.topic_id entry.1 := by
  have hmono : ∀ {id : UInt16} {sub : Host.Subscriber}, Subscribed text d.bridge.node id sub →
      Subscribed text nh id sub := by
    rintro id sub ⟨e, he, hsub⟩
    exact ⟨e, he.mono hgrows, hsub⟩
  intro entry hentry
  rcases List.mem_append.mp hentry with hold | hnew
  · exact hmono (h.subscribed entry hold)
  · cases st with
    | rosMessage id message =>
      rw [postedBy] at hnew
      split at hnew
      · cases hnew
      · obtain ⟨sub, hsub, rfl⟩ := Option.map_eq_some_iff.mp (Option.mem_toList.mp hnew)
        have hsubscribed := h.bridge.reflects.mirrors.subscribers id sub hsub
        obtain ⟨e, he, rfl⟩ := hsubscribed
        exact hmono ⟨e, he, rfl⟩
    | _ => cases hnew

/-- The node has a branch for all that is written after a step, before the step as well. -/
theorem step_hasBranch (hids : IdsFit cfg) {b : Bridge} (h : b.Sound cfg text) {st : Bridge.Step}
    (hstep : (b.step cfg callbacks deserialize st).Sound cfg text)
    (hroom : ∀ w ∈ (b.step cfg callbacks deserialize st).session.registry.written,
      Room cfg w.frame) :
    ∀ w ∈ (b.step cfg callbacks deserialize st).session.registry.written,
      HasBranch b.node (Wire.topicOf w.frame) := by
  intro w hw
  have haddressed : Addressed b.node w.frame := by
    rcases step_node callbacks deserialize b st with ⟨c, rfl, hsession⟩ | ⟨hnode, -⟩
    · rw [hsession] at hw
      exact h.reflects.mirrors.written w hw
    · rw [← hnode]
      exact hstep.reflects.mirrors.written w hw
  exact hasBranch_of_addressed hids h.enrolled haddressed (hroom w hw).1

/-- The node goes on from where it stands, in a stream that may have become longer. -/
theorem Sound.position_step (h : d.Sound cfg text) {events : List Event} {nh : NodeHandle}
    (hspins : Spins cfg [] d.bridge.node events nh) (hreset : .reset ∉ events)
    {more : List (Nat × List UInt8)} (hmore : ∀ frame ∈ d.frames ++ more,
      Fits cfg frame ∧ Handled d.bridge.node.Registered frame.1) :
    ∃ done left, d.frames ++ more = done ++ left ∧
      List.Forall₂ Serves (taken (d.events ++ events)) done ∧
      Position nh.receiver left (nh.hardware.rx ++ (d.onLine ++ Wire.encodeAll more)) := by
  obtain ⟨done, left, hsplit, hserved, hposition⟩ := h.position
  have hall : d.frames ++ more = done ++ (left ++ more) := by
    rw [hsplit, List.append_assoc]
  have hrest : ∀ frame ∈ left ++ more,
      Fits cfg frame ∧ Handled d.bridge.node.Registered frame.1 :=
    fun frame hframe => hmore frame (hall ▸ List.mem_append_right _ hframe)
  have hrx := hspins.rx
  rw [List.append_nil] at hrx
  have hstart := hposition.extend more
  rw [List.append_assoc, hrx, List.append_assoc] at hstart
  obtain ⟨done', left', hdone, hserved', hlast⟩ := hstart.follows hspins.follows hreset
    (fun frame hframe => (hrest frame hframe).1) (fun frame hframe => (hrest frame hframe).2)
    h.bridge.enrolled.initialised.messageIn
  have htaken : taken (d.events ++ events) = taken d.events ++ taken events :=
    List.filterMap_append
  refine ⟨done ++ done', left', ?_, htaken ▸ List.rel_append hserved hserved', hlast⟩
  rw [hall, hdone, List.append_assoc]

theorem bridge_sound (hcallbacks : callbacks.Proper)
    (hdeserializes : Deserializes text deserialize) (hids : IdsFit cfg) (h : d.Sound cfg text)
    {st : Bridge.Step} (horderly : Orderly cfg callbacks deserialize d (.bridge st)) :
    (d.step cfg callbacks deserialize (.bridge st)).Sound cfg text := by
  obtain ⟨hproper, harrive, hreset, hframe, hroom⟩ := horderly
  have hbridge := Bridge.step_sound hcallbacks hdeserializes hids h.bridge hproper
  have hgrows : Grows d.bridge.node (d.bridge.step cfg callbacks deserialize st).node :=
    step_grows hcallbacks h.bridge.enrolled hproper
  have hspins : Spins cfg [] d.bridge.node (eventsOf cfg callbacks d.bridge st)
      (d.bridge.step cfg callbacks deserialize st).node :=
    step_spins h.bridge.enrolled harrive
  have hstep : Writes (Bridge.Routed text d.bridge st) d.bridge.session.registry
      (d.bridge.step cfg callbacks deserialize st).session.registry :=
    Bridge.step_writes hids h.bridge st
  obtain ⟨more, hmore, hwrites⟩ := hstep
  have hmoreroom : ∀ w ∈ more, Room cfg w.frame :=
    fun w hw => hroom w (hmore ▸ List.mem_append_right _ hw)
  have hwritten : ∀ w ∈ (d.bridge.step cfg callbacks deserialize st).session.registry.written,
      Framed w.frame ∧ Room cfg w.frame := by
    intro w hw
    refine ⟨?_, hroom w hw⟩
    rw [hmore] at hw
    rcases List.mem_append.mp hw with hold | hnew
    · exact (h.written w hold).1
    · exact (hwrites w hnew).1
  have hbranch := step_hasBranch hids h.bridge hbridge hroom
  have hframes : (d.step cfg callbacks deserialize (.bridge st)).frames =
      d.frames ++ more.map fun w => partsOf w.frame :=
    (congrArg (List.map fun w : Written => partsOf w.frame) hmore).trans List.map_append
  have honLine : (d.step cfg callbacks deserialize (.bridge st)).onLine =
      d.onLine ++ Wire.encodeAll (more.map fun w => partsOf w.frame) := by
    rw [← flatMap_frame fun w hw => (hwrites w hw).1]
    exact (congrArg (fun written : List Written =>
      (written.flatMap (·.frame)).drop d.carried) hmore).trans
      (onLine_append h.carried)
  refine ⟨hbridge, hwritten, ?_, ?_, ?_, step_subscribed h hgrows, ?_⟩
  · have hfits : ∀ frame ∈ d.frames ++ more.map fun w => partsOf w.frame,
        Fits cfg frame ∧ Handled d.bridge.node.Registered frame.1 := by
      rw [← hframes]
      intro frame hframe
      obtain ⟨w, hw, rfl⟩ := List.mem_map.mp hframe
      exact ⟨fits_of_hasBranch h.bridge.enrolled.initialised (hwritten w hw).1 (hroom w hw)
        (hbranch w hw), (hbranch w hw).handled⟩
    rw [hframes, honLine]
    exact h.position_step hspins hreset hfits
  · intro act hact
    have htaken : taken (d.events ++ eventsOf cfg callbacks d.bridge st) =
        taken d.events ++ taken (eventsOf cfg callbacks d.bridge st) := List.filterMap_append
    have hact' : act ∈ taken d.events ++ taken (eventsOf cfg callbacks d.bridge st) :=
      htaken ▸ hact
    rcases List.mem_append.mp hact' with hold | hnew
    · exact h.inputs act hold
    · exact (taken_length hspins.follows act hnew).trans h.bridge.enrolled.initialised.messageIn
  · have hle := h.carried
    have hlength : ((d.bridge.step cfg callbacks deserialize st).session.registry.written.flatMap
        (·.frame)).length = (d.bridge.session.registry.written.flatMap (·.frame)).length +
          (more.flatMap (·.frame)).length := by
      rw [hmore, List.flatMap_append, List.length_append]
    exact Nat.le_trans hle (hlength ▸ Nat.le_add_right _ _)
  · intro id hplain
    have hold := h.posted_under id (hplain.mono hgrows)
    have hnew := step_posted_under hframe hmore (fun w hw => (hwrites w hw).2) hmoreroom
      (hplain.mono hgrows)
    rw [hframes, payloadsOf_append, hold, hnew]
    exact (postedUnder_append id d.posted (postedBy d.bridge st)).symm

/-- Bytes that arrive. -/
theorem carry_sound (hcallbacks : callbacks.Proper)
    (hdeserializes : Deserializes text deserialize) (hids : IdsFit cfg) (h : d.Sound cfg text)
    (n : Nat) : (d.step cfg callbacks deserialize (.carry n)).Sound cfg text := by
  have hbridge : (d.bridge.step cfg callbacks deserialize
      (.call (.arrive (d.onLine.take n)))).Sound cfg text :=
    Bridge.step_sound hcallbacks hdeserializes hids h.bridge trivial
  have honLine : (d.step cfg callbacks deserialize (.carry n)).onLine = d.onLine.drop n := by
    have hdrop : (d.step cfg callbacks deserialize (.carry n)).onLine =
        d.onLine.drop (d.onLine.take n).length := List.drop_drop.symm
    rw [hdrop, List.length_take, ← List.drop_eq_drop_min]
  have hrx : (d.step cfg callbacks deserialize (.carry n)).bridge.node.hardware.rx =
      d.bridge.node.hardware.rx ++ d.onLine.take n := rfl
  refine ⟨hbridge, h.written, ?_, h.inputs, ?_, h.subscribed, h.posted_under⟩
  · rw [hrx, honLine, List.append_assoc, List.take_append_drop]
    exact h.position
  · have hle := h.carried
    have hlength : (d.onLine.take n).length ≤
        (d.bridge.session.registry.written.flatMap (·.frame)).length - d.carried := by
      rw [List.length_take, onLine, List.length_drop]
      exact Nat.min_le_right _ _
    have hsum : d.carried + (d.onLine.take n).length ≤
        (d.bridge.session.registry.written.flatMap (·.frame)).length := by omega
    exact hsum

theorem step_sound (hcallbacks : callbacks.Proper)
    (hdeserializes : Deserializes text deserialize) (hids : IdsFit cfg) (h : d.Sound cfg text)
    {st : Step} (horderly : Orderly cfg callbacks deserialize d st) :
    (d.step cfg callbacks deserialize st).Sound cfg text := by
  cases st with
  | bridge st => exact bridge_sound hcallbacks hdeserializes hids h horderly
  | carry n => exact carry_sound hcallbacks hdeserializes hids h n

/-! ## Runs -/

theorem new_sound {nh : NodeHandle} (henrolled : Enrolled cfg nh)
    (hmode : nh.receiver.mode = .FIRST_FF) (htx : nh.hardware.tx = []) (hrx : nh.hardware.rx = [])
    {types : List String} {timeout threshold : Int} {ok : Bool} {t : TableSession}
    (hnew : TableSession.new types timeout threshold ok = some t) :
    (new nh t).Sound cfg text := by
  have hbridge : (Bridge.new nh t).Sound cfg text := Bridge.new_sound henrolled htx hnew
  have hwritten : t.registry.written = [] := by
    obtain ⟨buffer, -, rfl⟩ := Option.map_eq_some_iff.mp hnew
    rfl
  have hframes : (new nh t).frames = [] :=
    congrArg (List.map fun w : Written => partsOf w.frame) hwritten
  have honLine : (new nh t).onLine = [] :=
    congrArg (fun written => (written.flatMap fun w : Written => w.frame).drop 0) hwritten
  refine ⟨hbridge, ?_, ⟨[], [], hframes, .nil, ?_⟩, ?_, Nat.zero_le _, ?_, ?_⟩
  · intro w hw
    exact absurd (hwritten ▸ hw) List.not_mem_nil
  · have hstream : (new nh t).bridge.node.hardware.rx ++ (new nh t).onLine =
        Wire.encodeAll [] := by
      rw [honLine, List.append_nil]
      exact hrx
    rw [hstream]
    exact .first hmode
  · exact fun act hact => absurd hact List.not_mem_nil
  · exact fun entry hentry => absurd hentry List.not_mem_nil
  · intro id _
    rw [hframes]
    rfl

/-- The tables of the node grow in an orderly run. -/
theorem run_grows (hcallbacks : callbacks.Proper) (hdeserializes : Deserializes text deserialize)
    (hids : IdsFit cfg) (h : d.Sound cfg text) {steps : List Step}
    (horderly : Throughout (step cfg callbacks deserialize) (Orderly cfg callbacks deserialize) d
      steps) :
    Grows d.bridge.node (run (step cfg callbacks deserialize) d steps).bridge.node := by
  have halways : Always (step cfg callbacks deserialize)
      (fun d' => d'.Sound cfg text ∧ Grows d.bridge.node d'.bridge.node) d steps := by
    refine Always.of_throughout ⟨h, .of_eq rfl rfl⟩ ?_ horderly
    intro d' st h' horderly
    refine ⟨step_sound hcallbacks hdeserializes hids h'.1 horderly, ?_⟩
    cases st with
    | bridge st => exact h'.2.trans (step_grows hcallbacks h'.1.bridge.enrolled horderly.1)
    | carry n => exact h'.2.trans (.of_eq rfl rfl)
  exact halways.last.2

/-- The host's object for a subscriber of the node. -/
def hostSubscriber (text : CString → String) (e : Endpoint) : Host.Subscriber where
  topic_name := text e.topic
  message_type := text e.type
  topic_id := UInt16.ofNat (topicField e.id)

/-- The frames for a subscriber of a ROS topic are the messages that were posted for it. -/
theorem Sound.messagesFor_eq (h : d.Sound cfg text) (hids : IdsFit cfg) {j : Nat} {e : Endpoint}
    (he : Slots.Holds d.bridge.node.subscribers j e)
    (hkind : e.endpoint = Device.TopicInfo.ID_SUBSCRIBER) :
    (messagesFor j d.frames).map (·.2) = postedTo (hostSubscriber text e) d.posted := by
  have hfield := (topicField_subscriber hids h.bridge.enrolled he).1
  have hid : (hostSubscriber text e).topic_id.toNat = 100 + j :=
    (toNat_topicField e.id).trans hfield
  have hunique : ∀ kind x, HasSubscriber d.bridge.node kind (hostSubscriber text e).topic_id x →
      x = e := by
    rintro kind x ⟨⟨k, hk⟩, -, hxid⟩
    exact subscriber_unique_of_topicField hids h.bridge.enrolled hk he
      (hxid.symm.trans (toNat_topicField e.id))
  have hplain : Plain d.bridge.node (hostSubscriber text e).topic_id := by
    refine ⟨by omega, fun kind x hx => ?_⟩
    obtain rfl := hunique _ x hx
    have hservice := hx.2.1
    rw [hkind] at hservice
    cases kind <;> exact absurd hservice (by decide)
  have hsame : ∀ entry ∈ d.posted, (decide (entry.1 = hostSubscriber text e) : Bool) =
      decide (entry.1.topic_id = (hostSubscriber text e).topic_id) := by
    intro entry hentry
    refine decide_eq_decide.mpr ⟨fun heq => heq ▸ rfl, fun heq => ?_⟩
    obtain ⟨x, hx, hsub⟩ := h.subscribed entry hentry
    rw [heq] at hx hsub
    obtain rfl := hunique _ x hx
    exact hsub
  have hunder := h.posted_under _ hplain
  rw [payloadsOf, hid] at hunder
  rw [messagesFor, hunder, postedUnder, postedTo, List.filter_congr hsame]

end Invariant

/-- The host is told of a subscriber to a topic `p`, and gets the text `h` for it. -/
def postingSteps : List Step :=
  [.bridge (.call (.subscribe { publisherP with endpoint := 1 })), .bridge .start, .carry 8,
    .bridge (.call .spinOnce), .bridge (.deliver true ⟨true, none, []⟩),
    .bridge (.deliver true ⟨true, none, []⟩), .bridge (.rosMessage 100 textPayload), .carry 40,
    .bridge (.call .spinOnce)]

theorem textPayload_hasFrame : HasFrame (.rosMessage 100 textPayload) := by
  simp [HasFrame, textPayload]

theorem postingSteps_orderly :
    Throughout (step atmega168 (noCallbacks _) (deserializeInfo Bridge.plainText))
      (Orderly atmega168 (noCallbacks _) (deserializeInfo Bridge.plainText))
      (new (freshNode atmega168) quietSession) postingSteps := by
  refine throughout_cons.mpr ⟨⟨⟨by decide, by decide⟩, by simp, by decide, trivial, by decide⟩, ?_⟩
  refine throughout_cons.mpr ⟨⟨trivial, by simp, by decide, trivial, by decide +kernel⟩, ?_⟩
  refine throughout_cons.mpr ⟨trivial, ?_⟩
  refine throughout_cons.mpr ⟨⟨show StoresInside atmega168 _ by decide +kernel, by simp,
    by decide +kernel, trivial, by decide +kernel⟩, ?_⟩
  refine throughout_cons.mpr ⟨⟨trivial, by simp, by decide, trivial, by decide +kernel⟩, ?_⟩
  refine throughout_cons.mpr ⟨⟨trivial, by simp, by decide, trivial, by decide +kernel⟩, ?_⟩
  refine throughout_cons.mpr ⟨⟨trivial, by simp, by decide, textPayload_hasFrame,
    by decide +kernel⟩, ?_⟩
  refine throughout_cons.mpr ⟨trivial, ?_⟩
  refine throughout_cons.mpr ⟨⟨show StoresInside atmega168 _ by decide +kernel, by simp,
    by decide +kernel, trivial, by decide +kernel⟩, ?_⟩
  exact throughout_nil

end Duplex

end Ros2Serial.Link
