import Mathlib.Data.List.TakeWhile
import Ros2Serial.Device.Trace

/-!
# The two arrays of the receiver

`spinOnce` uses numbers that come off the wire as indices, twice.

* The length field bounds the stores to `message_in`, and nothing compares it
  with `INPUT_SIZE`.  As long as the headers that arrive fit, the stores stay
  inside (`storesInside_of_headersFit`).
* The topic minus 100 is an index of `subscribers`.  `isTopicValid` bounds it
  above only, so the topics below 100 have to be caught by the chain in front,
  which knows four of them (`accessesLegal_iff`).

Behind a store outside `message_in` nothing is defined, so the second result is
about the `defined` part of a trace.  Both proofs carry an invariant of the state
machine along a trace.
-/

namespace Ros2Serial.Device

open Bytes

/-! ## Steps -/

section Step

variable {cfg : NodeConfig}

/-- A store comes from `MODE_MESSAGE`, at the current index. -/
theorem Receiver.step_store {r : Receiver} {data : UInt8} {index : Int}
    (h : (r.step cfg data).2 = .store index) : r.mode = .MESSAGE ∧ r.index = index := by
  cases hmode : r.mode with
  | MESSAGE => exact ⟨rfl, by simpa [Receiver.step, hmode] using h⟩
  | _ =>
    simp only [Receiver.step, hmode] at h
    first
      | exact absurd h (by simp)
      | (split at h <;> exact absurd h (by simp))

/-- A good checksum comes from `MODE_MSG_CHECKSUM`, and has the current topic. -/
theorem Receiver.step_message {r : Receiver} {data : UInt8} {topic : Int}
    (h : (r.step cfg data).2 = .message topic) : r.mode = .MSG_CHECKSUM ∧ r.topic = topic := by
  cases hmode : r.mode with
  | MSG_CHECKSUM =>
    simp only [Receiver.step, hmode] at h
    split at h
    · exact ⟨rfl, Reaction.message.inj h⟩
    · exact absurd h (by simp)
  | _ =>
    simp only [Receiver.step, hmode] at h
    first
      | exact absurd h (by simp)
      | (split at h <;> exact absurd h (by simp))

end Step

/-! ## Stores to `message_in` -/

/-- Between the length and the payload no byte is stored, and in the payload
the bytes that are missing have room. -/
def Receiver.Inside (cfg : NodeConfig) (r : Receiver) : Prop :=
  match r.mode with
  | .FIRST_FF | .PROTOCOL_VER | .SIZE_L | .MSG_CHECKSUM => True
  | .SIZE_H | .SIZE_CHECKSUM | .TOPIC_L | .TOPIC_H => r.index = 0 ∧ 0 ≤ r.bytes
  | .MESSAGE => 0 ≤ r.index ∧ 0 < r.bytes ∧ r.index + r.bytes ≤ cfg.INPUT_SIZE

/-- The indices of the stores to `message_in`. -/
def stores (events : List Event) : List Int :=
  events.filterMap fun
    | .read _ (.store index) => some index
    | _ => none

/-- The lengths that the headers announce. -/
def headers (events : List Event) : List Int :=
  events.filterMap fun
    | .read _ (.header bytes) => some bytes
    | _ => none

/-- Every store lies in `message_in`. -/
def StoresInside (cfg : NodeConfig) (events : List Event) : Prop :=
  ∀ index ∈ stores events, 0 ≤ index ∧ index < cfg.INPUT_SIZE

instance (cfg : NodeConfig) (events : List Event) : Decidable (StoresInside cfg events) :=
  inferInstanceAs (Decidable (∀ index ∈ stores events, _))

/-- No header announces more bytes than `message_in` has. -/
def HeadersFit (cfg : NodeConfig) (events : List Event) : Prop :=
  ∀ bytes ∈ headers events, bytes ≤ cfg.INPUT_SIZE

section Stores

variable {cfg : NodeConfig} {registered : Int → Prop}

/-- A step keeps the invariant, if the header that it completes fits. -/
theorem Receiver.Inside.step {r : Receiver} (h : r.Inside cfg) {data : UInt8}
    (hfits : ∀ bytes, (r.step cfg data).2 = .header bytes → bytes ≤ cfg.INPUT_SIZE) :
    (r.step cfg data).1.Inside cfg := by
  have hdata : (0 : Int) ≤ data.toNat := Int.natCast_nonneg _
  cases hmode : r.mode with
  | FIRST_FF =>
    simp only [Receiver.step, hmode]
    split <;> simp [Receiver.Inside]
  | PROTOCOL_VER =>
    simp only [Receiver.step, hmode]
    split <;> simp [Receiver.Inside]
  | SIZE_L => simp [Receiver.step, hmode, Receiver.Inside]
  | SIZE_H =>
    simp only [Receiver.Inside, hmode] at h
    simp only [Receiver.step, hmode, Receiver.Inside]
    omega
  | SIZE_CHECKSUM =>
    simp only [Receiver.Inside, hmode] at h
    simp only [Receiver.step, hmode]
    split
    · exact h
    · simp [Receiver.Inside]
  | TOPIC_L =>
    simp only [Receiver.Inside, hmode] at h
    simp only [Receiver.step, hmode]
    exact h
  | TOPIC_H =>
    simp only [Receiver.Inside, hmode] at h
    simp only [Receiver.step, hmode] at hfits ⊢
    split at hfits
    · have hbytes := hfits _ rfl
      rename_i hvalid
      rw [if_pos hvalid]
      -- an empty message has no payload to receive
      by_cases hzero : r.bytes = 0
      · simp [Receiver.Inside, hzero]
      · simp only [Receiver.Inside, if_neg hzero]
        omega
    · rename_i hvalid
      rw [if_neg hvalid]
      simp [Receiver.Inside]
  | MESSAGE =>
    simp only [Receiver.Inside, hmode] at h
    simp only [Receiver.step, hmode]
    by_cases hlast : r.bytes - 1 = 0
    · simp [Receiver.Inside, hlast]
    · simp only [Receiver.Inside, if_neg hlast]
      omega
  | MSG_CHECKSUM => simp [Receiver.step, hmode, Receiver.Inside]

/-- A store of a state with the invariant lies in `message_in`. -/
theorem Receiver.Inside.store {r : Receiver} (h : r.Inside cfg) {data : UInt8} {index : Int}
    (hstore : (r.step cfg data).2 = .store index) : 0 ≤ index ∧ index < cfg.INPUT_SIZE := by
  obtain ⟨hmode, rfl⟩ := Receiver.step_store hstore
  simp only [Receiver.Inside, hmode] at h
  omega

/-- The stores of a byte with the events behind it are those of its reaction. -/
theorem Acts.mem_stores {messageIn : List UInt8} {reaction : Reaction} {acts events : List Event}
    (h : Acts cfg registered messageIn reaction acts) {data : UInt8} {index : Int} :
    index ∈ stores (.read data reaction :: (acts ++ events)) ↔
      reaction = .store index ∨ index ∈ stores events := by
  have hacts : stores acts = [] := by cases h <;> rfl
  simp only [stores] at hacts
  cases reaction <;> simp [stores, hacts, eq_comm]

theorem Acts.mem_headers {messageIn : List UInt8} {reaction : Reaction}
    {acts events : List Event} (h : Acts cfg registered messageIn reaction acts) {data : UInt8}
    {bytes : Int} :
    bytes ∈ headers (.read data reaction :: (acts ++ events)) ↔
      reaction = .header bytes ∨ bytes ∈ headers events := by
  have hacts : headers acts = [] := by cases h <;> rfl
  simp only [headers] at hacts
  cases reaction <;> simp [headers, hacts, eq_comm]

theorem Follows.storesInside {r r' : Receiver} {events : List Event}
    (h : Follows cfg registered r events r') (hinside : r.Inside cfg)
    (hfits : HeadersFit cfg events) : StoresInside cfg events := by
  induction h with
  | nil r => intro index hmem; cases hmem
  | reset _ ih => exact ih (by simp [Receiver.Inside]) hfits
  | read hacts _ ih =>
    intro index hmem
    rcases hacts.mem_stores.mp hmem with hstore | hmem
    · exact hinside.store hstore
    · have hnext := hinside.step fun bytes hb => hfits bytes (hacts.mem_headers.mpr (Or.inl hb))
      exact ih hnext (fun bytes hb => hfits bytes (hacts.mem_headers.mpr (Or.inr hb))) index hmem

/-- In every run in which no header announces more than `INPUT_SIZE` bytes, all
stores lie in `message_in`. -/
theorem storesInside_of_headersFit (callbacks : Callbacks cfg) {nh : NodeHandle}
    (h : nh.Initialised cfg) (hstart : nh.receiver.mode = .FIRST_FF) (calls : List Call)
    (hfits : HeadersFit cfg (run cfg callbacks nh calls).2) :
    StoresInside cfg (run cfg callbacks nh calls).2 :=
  (run_spins callbacks h calls).follows.storesInside (by simp [Receiver.Inside, hstart]) hfits

end Stores

/-- One message that fits, then noise. -/
theorem hello_storesInside :
    StoresInside atmega168 (run atmega168 (noCallbacks _) (freshNode atmega168)
      [.arrive (Wire.encode 100 [1, 2, 3]), .spinOnce, .arrive [7, 0xff], .spinOnce]).2 :=
  storesInside_of_headersFit (noCallbacks _) (construct_initialised _ _) rfl _
    (by unfold HeadersFit; decide +kernel)

set_option maxRecDepth 4000 in
/-- A header for 151 bytes, and the bytes: the last one is stored behind the end
of the 150 bytes of `message_in`. -/
theorem oversize_not_storesInside :
    ¬ StoresInside atmega168 (run atmega168 (noCallbacks _) (freshNode atmega168)
      [.arrive (Wire.header 100 151 ++ List.replicate 151 0), .spinOnce]).2 := by
  intro hinside
  exact absurd (hinside 150 (by decide +kernel)).2 (by decide)

/-! ## Accesses to `subscribers` -/

/-- An event that is no store outside `message_in`. -/
def Event.isDefined (cfg : NodeConfig) : Event → Bool
  | .read _ (.store index) => decide (0 ≤ index ∧ index < cfg.INPUT_SIZE)
  | _ => true

/-- The events up to the first store outside `message_in`. -/
def defined (cfg : NodeConfig) (events : List Event) : List Event :=
  events.takeWhile (Event.isDefined cfg)

/-- The indices of the accesses to `subscribers`. -/
def accesses (events : List Event) : List Int :=
  events.filterMap fun
    | .access index => some index
    | _ => none

/-- The topics of the messages that pass their checksum. -/
def topics (events : List Event) : List Int :=
  events.filterMap fun
    | .read _ (.message topic) => some topic
    | _ => none

/-- Every access lies in `subscribers`. -/
def AccessesLegal (cfg : NodeConfig) (events : List Event) : Prop :=
  ∀ index ∈ accesses events, 0 ≤ index ∧ index < cfg.MAX_SUBSCRIBERS

/-- Every message has a topic that the chain catches, or one from 100 on. -/
def TopicsHandled (events : List Event) : Prop :=
  ∀ topic ∈ topics events, (specialBranch topic).isSome ∨ 100 ≤ topic

/-- The topic has passed the check of the header. -/
def Receiver.TopicChecked (cfg : NodeConfig) (r : Receiver) : Prop :=
  r.mode = .MESSAGE ∨ r.mode = .MSG_CHECKSUM → cfg.isTopicValid r.topic = true

section Accesses

variable {cfg : NodeConfig} {registered : Int → Prop}

theorem Receiver.TopicChecked.step {r : Receiver} (h : r.TopicChecked cfg) (data : UInt8) :
    (r.step cfg data).1.TopicChecked cfg := by
  cases hmode : r.mode with
  | FIRST_FF =>
    simp only [Receiver.step, hmode]
    split <;> simp [Receiver.TopicChecked]
  | PROTOCOL_VER =>
    simp only [Receiver.step, hmode]
    split <;> simp [Receiver.TopicChecked]
  | SIZE_CHECKSUM =>
    simp only [Receiver.step, hmode]
    split <;> simp [Receiver.TopicChecked]
  | TOPIC_H =>
    simp only [Receiver.step, hmode]
    split
    · rename_i hvalid
      exact fun _ => hvalid
    · simp [Receiver.TopicChecked]
  | MESSAGE =>
    simp only [Receiver.step, hmode]
    exact fun _ => h (Or.inl hmode)
  | _ => simp [Receiver.step, hmode, Receiver.TopicChecked]

/-- A message has a valid topic. -/
theorem Receiver.TopicChecked.message {r : Receiver} (h : r.TopicChecked cfg) {data : UInt8}
    {topic : Int} (hmessage : (r.step cfg data).2 = .message topic) :
    cfg.isTopicValid topic = true := by
  obtain ⟨hmode, rfl⟩ := Receiver.step_message hmessage
  exact h (Or.inr hmode)

/-- An access behind a byte comes from a message whose topic is not caught. -/
theorem Acts.mem_accesses {messageIn : List UInt8} {reaction : Reaction}
    {acts events : List Event} (h : Acts cfg registered messageIn reaction acts) {data : UInt8}
    (hvalid : ∀ topic, reaction = .message topic → cfg.isTopicValid topic = true) {index : Int} :
    index ∈ accesses (.read data reaction :: (acts ++ events)) ↔
      (∃ topic, reaction = .message topic ∧ specialBranch topic = none ∧ index = topic - 100) ∨
        index ∈ accesses events := by
  cases h with
  | silent h =>
    have hno : ¬ ∃ topic, reaction = .message topic ∧ specialBranch topic = none ∧
        index = topic - 100 := fun ⟨topic, ht, _⟩ => h topic ht
    simp [accesses, hno]
  | special h => simp [accesses, h]
  | invalid h hinvalid =>
    rw [hvalid _ rfl] at hinvalid
    cases hinvalid
  | subscriber h hv => simp [accesses, h]
  | empty h hv hempty => simp [accesses, h]

theorem Acts.mem_topics {messageIn : List UInt8} {reaction : Reaction}
    {acts events : List Event} (h : Acts cfg registered messageIn reaction acts) {data : UInt8}
    {topic : Int} :
    topic ∈ topics (.read data reaction :: (acts ++ events)) ↔
      reaction = .message topic ∨ topic ∈ topics events := by
  have hacts : topics acts = [] := by cases h <;> rfl
  simp only [topics] at hacts
  cases reaction <;> simp [topics, hacts, eq_comm]

/-- If all stores lie in `message_in`, the whole trace is defined. -/
theorem StoresInside.defined_eq {events : List Event} (h : StoresInside cfg events) :
    defined cfg events = events := by
  refine List.takeWhile_eq_self_iff.mpr fun event hevent => ?_
  cases event with
  | read data reaction =>
    cases reaction with
    | store index =>
      have hmem : index ∈ stores events := List.mem_filterMap.mpr ⟨_, hevent, rfl⟩
      exact decide_eq_true (h index hmem)
    | _ => rfl
  | _ => rfl

/-- The events behind a byte are defined if the byte is. -/
theorem Acts.defined_cons {messageIn : List UInt8} {reaction : Reaction}
    {acts events : List Event} (h : Acts cfg registered messageIn reaction acts) {data : UInt8}
    (hdefined : Event.isDefined cfg (.read data reaction) = true) :
    defined cfg (.read data reaction :: (acts ++ events)) =
      .read data reaction :: (acts ++ defined cfg events) := by
  have hacts : ∀ event ∈ acts, Event.isDefined cfg event = true := by
    cases h <;> simp [Event.isDefined]
  rw [defined, List.takeWhile_cons_of_pos hdefined, List.takeWhile_append_of_pos hacts]
  rfl

theorem Follows.legal_iff {r r' : Receiver} {events : List Event}
    (h : Follows cfg registered r events r') (hchecked : r.TopicChecked cfg) :
    AccessesLegal cfg (defined cfg events) ↔ TopicsHandled (defined cfg events) := by
  induction h with
  | nil r => exact iff_of_true (fun i hi => by cases hi) fun topic ht => by cases ht
  | reset _ ih => exact ih (by simp [Receiver.TopicChecked])
  | @read r r' byte acts events hacts _ ih =>
    by_cases hdefined : Event.isDefined cfg (.read byte (r.step cfg byte).2) = true
    case neg =>
      -- a store outside `message_in`: no event is left
      rw [defined, List.takeWhile_cons_of_neg hdefined]
      exact iff_of_true (fun i hi => by cases hi) fun topic ht => by cases ht
    rw [hacts.defined_cons hdefined]
    have hvalid : ∀ topic, (r.step cfg byte).2 = .message topic →
        cfg.isTopicValid topic = true := fun topic ht => hchecked.message ht
    have hrest := ih (hchecked.step byte)
    constructor
    · intro hlegal topic hmem
      rcases hacts.mem_topics.mp hmem with hmessage | hmem
      · cases hspecial : specialBranch topic with
        | some branch => exact Or.inl rfl
        | none =>
          have haccess := hlegal (topic - 100)
            ((hacts.mem_accesses hvalid).mpr (Or.inl ⟨topic, hmessage, hspecial, rfl⟩))
          exact Or.inr (by omega)
      · exact hrest.mp (fun i hi => hlegal i ((hacts.mem_accesses hvalid).mpr (Or.inr hi))) topic
          hmem
    · intro hhandled index hmem
      rcases (hacts.mem_accesses hvalid).mp hmem with ⟨topic, hmessage, hspecial, rfl⟩ | hmem
      · have hbounds := isTopicValid_iff.mp (hvalid topic hmessage)
        rcases hhandled topic (hacts.mem_topics.mpr (Or.inl hmessage)) with hsome | hlarge
        · rw [hspecial] at hsome
          cases hsome
        · omega
      · exact hrest.mpr (fun topic ht => hhandled topic (hacts.mem_topics.mpr (Or.inr ht))) index
          hmem

/-- In every run, as far as it is defined, the accesses to `subscribers` are
legal exactly if every message that passes its checksum has a topic that the
chain catches, or one from 100 on. -/
theorem accessesLegal_iff (callbacks : Callbacks cfg) {nh : NodeHandle}
    (h : nh.Initialised cfg) (hstart : nh.receiver.mode = .FIRST_FF) (calls : List Call) :
    AccessesLegal cfg (defined cfg (run cfg callbacks nh calls).2) ↔
      TopicsHandled (defined cfg (run cfg callbacks nh calls).2) :=
  (run_spins callbacks h calls).follows.legal_iff (by simp [Receiver.TopicChecked, hstart])

end Accesses

/-- A message for a slot without a subscriber is ignored. -/
theorem hello_accessesLegal :
    AccessesLegal atmega168 (defined atmega168 (run atmega168 (noCallbacks _)
        (freshNode atmega168) [.arrive (Wire.encode 100 [1, 2, 3]), .spinOnce]).2) ↔
      TopicsHandled (defined atmega168 (run atmega168 (noCallbacks _) (freshNode atmega168)
        [.arrive (Wire.encode 100 [1, 2, 3]), .spinOnce]).2) :=
  accessesLegal_iff (noCallbacks _) (construct_initialised _ _) rfl _

/-- An empty message with topic 1, that of subscribers, reads
`subscribers[-99]`. -/
theorem subscriberInfo_not_accessesLegal :
    ¬ AccessesLegal atmega168 (defined atmega168 (run atmega168 (noCallbacks _)
      (freshNode atmega168) [.arrive (Wire.encode 1 []), .spinOnce]).2) := by
  intro hlegal
  exact absurd (hlegal (-99) (by decide +kernel)).1 (by decide)

end Ros2Serial.Device
