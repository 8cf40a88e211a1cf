import Ros2Serial.Device.Delivery
import Ros2Serial.Link.Decoders
import Ros2Serial.Link.HostToDevice

/-!
# A message and its frame

Whether a delivered message depends on its own frame only.  Two nodes read the
same frame for a subscriber, over whatever earlier frames have left in
`message_in`.  If the payload fills `message_in`, or is complete and fits in it,
the callbacks get the same value (`deliveredAlike_of_complete`).  If it is short,
the rest of the message is what earlier frames have left
(`short_not_deliveredAlike`).
-/

namespace Ros2Serial.Link

open Bytes Generator Device

/-! ## Frames for a subscriber -/

theorem Acts.taken_snd {cfg : NodeConfig} {registered : Int → Prop} {messageIn : List UInt8}
    {reaction : Reaction} {acts : List Event} (h : Acts cfg registered messageIn reaction acts) :
    ∀ act ∈ taken acts, act.2 = messageIn := by
  cases h with
  | silent | invalid | empty => exact fun act hact => absurd hact List.not_mem_nil
  | special | subscriber =>
    intro act hact
    rw [List.mem_singleton.mp hact]

/-- `message_in` keeps its size. -/
theorem taken_length {cfg : NodeConfig} {registered : Int → Prop} {r r' : Receiver}
    {events : List Event} (h : Follows cfg registered r events r') :
    ∀ act ∈ taken events, act.2.length = r.messageIn.length := by
  induction h with
  | nil => exact fun act hact => absurd hact List.not_mem_nil
  | reset _ ih => exact ih
  | @read r r' data acts events hacts _ ih =>
    intro act hact
    have hsplit : taken (.read data (r.step cfg data).2 :: (acts ++ events)) =
        taken acts ++ taken events := List.filterMap_append
    rw [hsplit, List.mem_append] at hact
    have hlength : (r.step cfg data).1.messageIn.length = r.messageIn.length :=
      Receiver.step_messageIn_length data r
    rw [← hlength]
    rcases hact with hnow | hlater
    · rw [Acts.taken_snd hacts act hnow]
    · exact ih act hlater

theorem branchOf_subscriber (index : Nat) :
    branchOf ((100 + index : Nat) : Int) = .subscriber index := by
  have hspecial : specialBranch ((100 + index : Nat) : Int) = none := by
    unfold specialBranch
    rw [if_neg, if_neg, if_neg, if_neg] <;>
      simp only [Device.TopicInfo.ID_PUBLISHER, Device.TopicInfo.ID_PARAMETER_REQUEST,
        Device.TopicInfo.ID_TIME, Device.TopicInfo.ID_TX_STOP] <;>
      omega
  rw [branchOf, hspecial, Option.getD_none]
  congr 1
  omega

/-- A node that reads a frame for one of its subscribers takes the branch of the
subscriber, with the payload in `message_in`. -/
theorem DeviceReads.subscriber {cfg : NodeConfig} {callbacks : Callbacks cfg} {nh : NodeHandle}
    {calls : List Call} {index : Nat} {payload : List UInt8} (htopic : 100 + index < 65536)
    (hlength : payload.length < 65536) (hregistered : nh.Registered index)
    (hreads : DeviceReads cfg callbacks nh calls (Wire.encode (100 + index) payload)) :
    ∃ messageIn, taken (run cfg callbacks nh calls).2 = [(.subscriber index, messageIn)] ∧
      Holds cfg payload messageIn := by
  have hbranch : HasBranch nh ((100 + index : Nat) : Int) := by
    have hindex : ((100 + index : Nat) : Int) - 100 = index := by omega
    refine Or.inr ?_
    rw [hindex]
    exact hregistered
  have hvalid := hbranch.valid hreads.initialised
  have hframes : Wire.frames (reports cfg nh.receiver (run cfg callbacks nh calls).2) =
      [(100 + index, payload.take cfg.INPUT_SIZE)] := by
    have hnone : ¬ [0xff, 0xfe] <:+: ([] : List UInt8) := by decide
    have hnoise := (devicePolicy cfg).frames_noise hnone htopic hlength (if_pos hvalid) 0 0
    rw [if_pos (by decide), List.nil_append] at hnoise
    rw [hreads.reports_eq, frames_map_cut, hnoise]
    rfl
  have hacted := run_acted callbacks hreads.initialised hreads.mode calls
  rw [hframes] at hacted
  have hserves := hacted.all fun frame hframe => by
    rw [List.mem_singleton.mp hframe]
    exact ⟨hvalid, hbranch.handled⟩
  obtain ⟨act, hact, htaken⟩ : ∃ act, Serves act (100 + index, payload.take cfg.INPUT_SIZE) ∧
      taken (run cfg callbacks nh calls).2 = [act] := by
    generalize taken (run cfg callbacks nh calls).2 = acts at hserves
    cases hserves with
    | cons hact hrest =>
      cases hrest
      exact ⟨_, hact, rfl⟩
  obtain ⟨branch, messageIn⟩ := act
  obtain ⟨hserved, hpayload⟩ := hact
  have hsize := taken_length (run_spins callbacks hreads.initialised calls).follows
    (branch, messageIn) (htaken ▸ List.mem_singleton_self _)
  dsimp only at hserved hpayload hsize
  rw [hreads.initialised.messageIn] at hsize
  refine ⟨messageIn, ?_, hsize, ?_⟩
  · rw [htaken, hserved, branchOf_subscriber]
  · rw [List.length_take] at hpayload
    rw [← hpayload, List.take_eq_take_iff]
    omega

/-! ## Two nodes, one frame -/

/-- The node, with something else left in `message_in`. -/
def withMessageIn (left : List UInt8) (nh : NodeHandle) : NodeHandle :=
  { nh with receiver := { nh.receiver with messageIn := left } }

/-- Two nodes read the same frame for a subscriber, and take its branch.  If the payload
fills `message_in`, or is complete and fits in it, the callbacks get the same value:
nothing that is in `message_in` behind the payload has a part in it. -/
theorem deliveredAlike_of_complete {cfg : NodeConfig} (P : Platform) {reserved : String → Prop}
    {D : MessageDef} (hD : D.Compiles reserved) (earlier : List (List UInt8)) {index : Nat}
    {payload : List UInt8} (htopic : 100 + index < 65536) (hlength : payload.length < 65536)
    (hcomplete : payload.length = cfg.INPUT_SIZE ∨
      Complete D payload ∧ payload.length ≤ cfg.INPUT_SIZE)
    {callbacks callbacks' : Callbacks cfg} {nh nh' : NodeHandle} {calls calls' : List Call}
    (hregistered : nh.Registered index) (hregistered' : nh'.Registered index)
    (hreads : DeviceReads cfg callbacks nh calls (Wire.encode (100 + index) payload))
    (hreads' : DeviceReads cfg callbacks' nh' calls' (Wire.encode (100 + index) payload)) :
    ∃ messageIn messageIn',
      taken (run cfg callbacks nh calls).2 = [(.subscriber index, messageIn)] ∧
      taken (run cfg callbacks' nh' calls').2 = [(.subscriber index, messageIn')] ∧
      ((Subscriber.after cfg P D earlier).receive cfg P D messageIn).2 =
        ((Subscriber.after cfg P D earlier).receive cfg P D messageIn').2 := by
  obtain ⟨messageIn, htaken, hholds⟩ := hreads.subscriber htopic hlength hregistered
  obtain ⟨messageIn', htaken', hholds'⟩ := hreads'.subscriber htopic hlength hregistered'
  have hwhole : cfg.INPUT_SIZE ≤ payload.length ∨ Complete D payload :=
    hcomplete.imp (fun hfills => Nat.le_of_eq hfills.symm) And.left
  exact ⟨messageIn, messageIn', htaken, htaken',
    receive_congr P hD hwhole (Subscriber.after_sound hD earlier) hholds hholds'⟩

/-- `string data`. -/
def textDef : MessageDef := .cons "data" .string .single .nil

theorem textDef_compiles : textDef.Compiles fun _ => False :=
  ⟨by decide, by simp [textDef, MessageDef.members, fieldMembers]; decide, by
    simp [textDef, MessageDef.members, fieldMembers, stringTarget]; decide, trivial, trivial⟩

/-- The text `h` behind the encapsulation. -/
def textPayload : List UInt8 := [0x00, 0x01, 0x00, 0x00, 0x02, 0x00, 0x00, 0x00, 0x68, 0x00]

theorem textPayload_complete : Complete textDef textPayload := by
  have hlayout : PlainCdr.encode 4 (textDef.items (⟨[⟨[0x68], by decide, by decide⟩], rfl⟩, ())) =
      [0x02, 0x00, 0x00, 0x00, 0x68, 0x00].map some := by
    decide
  exact complete_of_value _ (hlayout ▸ PlainCdr.matches_map_some.mpr rfl) []

/-- What longer frames have left. -/
def leftOver : List UInt8 := List.replicate 150 0x01

theorem subscribedNode_reads {left payload : List UInt8} (hleft : left.length = 150)
    (h : (run atmega168 (noCallbacks _) (withMessageIn left subscribedNode)
        (spinOn (Wire.encode 100 payload))).1.hardware.rx = [] ∧
      .reset ∉ (run atmega168 (noCallbacks _) (withMessageIn left subscribedNode)
        (spinOn (Wire.encode 100 payload))).2) :
    DeviceReads atmega168 (noCallbacks _) (withMessageIn left subscribedNode)
      (spinOn (Wire.encode 100 payload)) (Wire.encode (100 + 0) payload) where
  initialised := by
    have hinit := (subscribe_keeps (construct_initialised atmega168 idleHardware)
      subscriberA).initialised
    exact { hinit with messageIn := hleft }
  mode := rfl
  stream := by
    show [] ++ (spinOn (Wire.encode 100 payload)).flatMap Call.arrived = _
    simp [spinOn, Call.arrived]
  read := h.1
  noReset := h.2

/-- A text that ends in its payload is delivered alike over zeros and over ones. -/
theorem text_deliveredAlike :
    ∃ messageIn messageIn',
      taken (run atmega168 (noCallbacks _) (withMessageIn (List.replicate 150 0) subscribedNode)
        (spinOn (Wire.encode 100 textPayload))).2 = [(.subscriber (0 : Nat), messageIn)] ∧
      taken (run atmega168 (noCallbacks _) (withMessageIn leftOver subscribedNode)
        (spinOn (Wire.encode 100 textPayload))).2 = [(.subscriber (0 : Nat), messageIn')] ∧
      ((Subscriber.after atmega168 exactPlatform textDef [leftOver]).receive atmega168
          exactPlatform textDef messageIn).2 =
        ((Subscriber.after atmega168 exactPlatform textDef [leftOver]).receive atmega168
          exactPlatform textDef messageIn').2 :=
  deliveredAlike_of_complete exactPlatform textDef_compiles [leftOver] (by decide) (by decide)
    (Or.inr ⟨textPayload_complete, by decide⟩)
    ⟨by decide, _, rfl⟩ ⟨by decide, _, rfl⟩
    (subscribedNode_reads List.length_replicate (by decide +kernel))
    (subscribedNode_reads List.length_replicate (by decide +kernel))

/-- `uint8 data`. -/
def byteDef : MessageDef := .cons "data" (.primitive .uint8) .single .nil

theorem byteDef_compiles : byteDef.Compiles fun _ => False :=
  ⟨by decide, by simp [byteDef, MessageDef.members, fieldMembers]; decide, by simp, trivial,
    trivial⟩

/-- An encapsulation without a body. -/
def shortPayload : List UInt8 := [0x00, 0x01, 0x00, 0x00]

/-- What `message_in` holds behind the short payload. -/
theorem shortPayload_taken {b : UInt8} (h : b = 0x00 ∨ b = 0x01) :
    taken (run atmega168 (noCallbacks _)
      (withMessageIn (List.replicate 150 b) subscribedNode)
      (spinOn (Wire.encode 100 shortPayload))).2 =
        [(.subscriber (0 : Nat), shortPayload ++ List.replicate 146 b)] := by
  rcases h with rfl | rfl <;> decide

/-- A payload that is too short for the type delivers the byte that was left behind it. -/
theorem short_not_deliveredAlike :
    ¬ ∀ (cfg : NodeConfig) (P : Platform) (reserved : String → Prop) (D : MessageDef)
      (earlier : List (List UInt8)) (index : Nat) (payload left : List UInt8)
      (callbacks : Callbacks cfg) (nh : NodeHandle) (calls : List Call),
      D.Compiles reserved → 100 + index < 65536 → payload.length < 65536 →
      nh.Registered index →
      DeviceReads cfg callbacks nh calls (Wire.encode (100 + index) payload) →
      DeviceReads cfg callbacks (withMessageIn left nh) calls
        (Wire.encode (100 + index) payload) →
      ∃ messageIn messageIn',
        taken (run cfg callbacks nh calls).2 = [(.subscriber index, messageIn)] ∧
        taken (run cfg callbacks (withMessageIn left nh) calls).2 =
          [(.subscriber index, messageIn')] ∧
        ((Subscriber.after cfg P D earlier).receive cfg P D messageIn).2 =
          ((Subscriber.after cfg P D earlier).receive cfg P D messageIn').2 := by
  intro h
  obtain ⟨messageIn, messageIn', htaken, htaken', hsame⟩ := h atmega168 exactPlatform _ byteDef []
    0 shortPayload leftOver (noCallbacks _) (withMessageIn (List.replicate 150 0x00) subscribedNode)
    (spinOn (Wire.encode 100 shortPayload)) byteDef_compiles (by decide) (by decide)
    ⟨by decide, _, rfl⟩ (subscribedNode_reads List.length_replicate (by decide))
    (subscribedNode_reads List.length_replicate (by decide))
  rw [shortPayload_taken (Or.inl rfl)] at htaken
  have htaken₂ := (shortPayload_taken (Or.inr rfl)).symm.trans htaken'
  obtain rfl : shortPayload ++ List.replicate 146 0x00 = messageIn :=
    (Prod.mk.inj (List.singleton_inj.mp htaken)).2
  obtain rfl : shortPayload ++ List.replicate 146 0x01 = messageIn' :=
    (Prod.mk.inj (List.singleton_inj.mp htaken₂)).2
  exact absurd hsame (by decide)

end Ros2Serial.Link
