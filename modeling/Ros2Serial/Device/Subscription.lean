import Ros2Serial.Device.Delivery
import Ros2Serial.Device.DdsCdr
import Ros2Serial.Generator.Reuse
import Ros2Serial.Lib.Runs

/-!
# A subscription over many frames

`msg` of a subscriber is decoded into again and again: its strings point into
`message_in`, and its arrays keep the blocks of earlier frames.

* A frame that carries a whole value leaves `msg` as the next one needs it, and
  so does a frame that carries anything else as long as `callback` touches no
  memory that is not there (`Subscriber.Usable.receive`).
* So every value that arrives whole reaches `cb_` as it was sent, whatever came
  before it (`values_exact`).
-/

namespace Ros2Serial.Device

open Bytes PlainCdr Ucdr Generator Runs

/-! ## Frames -/

section Frames

variable (cfg : NodeConfig) (P : Platform) (D : MessageDef)

/-- `message_in` holds the encoding of a value, of which it had room for all. -/
def Sent (messageIn : List UInt8) (v : D.Val) : Prop :=
  ∃ payload, Holds cfg payload messageIn ∧ payload.length ≤ cfg.INPUT_SIZE ∧
    (⟨D, v⟩ : Msg).Encodes payload

/-- `callback` touches no memory that is not there. -/
def Subscriber.Quiet (s : Subscriber) (messageIn : List UInt8) : Prop :=
  messageIn.length = cfg.INPUT_SIZE ∧
    (D.cdrDeserialize P messageIn (s.activation (inputOver cfg messageIn))).2.dec.fault = false

/-- The subscriber after a frame. -/
def Subscriber.step (s : Subscriber) (messageIn : List UInt8) : Subscriber :=
  (s.receive cfg P D messageIn).1

/-- What `cb_` finds in `msg`, frame by frame. -/
def Subscriber.values : Subscriber → List (List UInt8) → List (Option D.Val)
  | _, [] => []
  | s, messageIn :: more =>
    (s.receive cfg P D messageIn).2 :: (s.step cfg P D messageIn).values more

/-- Between two frames: the fixed arrays of `msg` have their elements, and the variable ones
have blocks of their own with room for their elements. -/
def Subscriber.Usable (s : Subscriber) : Prop :=
  D.Shaped s.msg ∧ ∃ owner, D.Stored P owner (s.activation (initBuffer 0 0)).dec [] s.msg

end Frames

/-! ## One frame -/

section Frame

variable {cfg : NodeConfig} {P : Platform} {D : MessageDef} {reserved : String → Prop}
  {s : Subscriber} {messageIn : List UInt8}

theorem Subscriber.construct_usable (hD : D.Compiles reserved) :
    (Subscriber.construct D).Usable P D := by
  have hnamed := DataClass.Compiles.allWellNamed hD
  exact ⟨(MessageDef.ready_construct hnamed.1 hnamed.2).shaped, fun _ => [],
    MessageDef.stored_construct hnamed.1 hnamed.2 []⟩

/-- The reader makes no difference to what is stored. -/
theorem Subscriber.Usable.stored (h : s.Usable P D) (ub : Buffer) :
    ∃ owner, D.Stored P owner (s.activation ub).dec [] s.msg := by
  obtain ⟨-, owner, hstored⟩ := h
  have hsame : SameHeap (s.activation (initBuffer 0 0)).dec (s.activation ub).dec := ⟨rfl, rfl⟩
  exact ⟨owner, hstored.keep (fun _ _ => rfl) (hsame.keeps (fun _ => False) owner)
    fun _ _ _ _ => id⟩

/-- Nor do the flags of the decoder. -/
theorem usable_of_stored {a : Activation} {owner : Nat → Path}
    (h : D.Stored P owner a.dec [] a.this) :
    ∃ owner, D.Stored P owner (Subscriber.activation (initBuffer 0 0)
      ⟨a.this, a.dec.heap, a.dec.next⟩).dec [] a.this := by
  have hsame : SameHeap a.dec (Subscriber.activation (initBuffer 0 0)
      ⟨a.this, a.dec.heap, a.dec.next⟩).dec := ⟨rfl, rfl⟩
  exact ⟨owner, h.keep (fun _ _ => rfl) (hsame.keeps (fun _ => False) owner) fun _ _ _ _ => id⟩

/-- The layout of the value is ahead of the reader. -/
theorem Sent.ahead {v : D.Val} (h : Sent cfg D messageIn v) :
    Ahead messageIn (inputOver cfg messageIn) (D.items v) := by
  obtain ⟨payload, hholds, hroom, hencodes⟩ := h
  have hlayout : Matches ([0x00, 0x01, 0x00, 0x00].map some ++ encode 4 (D.items v)) payload := by
    have hall := hencodes
    rwa [Msg.Encodes, encode_encapsulation] at hall
  obtain ⟨hheader, hbody⟩ := hlayout.split
  have hfirst : payload.take 4 = [0x00, 0x01, 0x00, 0x00] := matches_map_some.mp hheader
  have hsplit := List.take_append_drop 4 payload
  rw [hfirst] at hsplit
  have hstart : bodyStart payload = 4 := by
    rw [← hsplit]
    rfl
  have hfour : 4 ≤ payload.length := by
    rw [← hsplit, List.length_append]
    exact Nat.le_add_right _ _
  have hrest : Matches (encode 4 (D.items v)) (payload.drop 4) := hbody
  refine ((hholds.inside hroom (hstart ▸ hfour) ?_).2).toAhead
  rw [hstart, hrest.length_eq, slice, List.take_length]
  exact hrest

/-- A value that arrives whole reaches `cb_`, and `msg` can be used again. -/
theorem Subscriber.Usable.receive_sent (hP : P.Allocates) (hD : D.Compiles reserved)
    (hinv : D.Invertible) (h : s.Usable P D) {v : D.Val} (hsent : Sent cfg D messageIn v) :
    (s.receive cfg P D messageIn).2 = some v ∧ (s.step cfg P D messageIn).Usable P D := by
  obtain ⟨owner, hstored⟩ := h.stored (inputOver cfg messageIn)
  have hahead : Ahead messageIn (s.activation (inputOver cfg messageIn)).dec.ub (D.items v) :=
    hsent.ahead
  have hrun := D.cdrDeserialize_eq_replay P v (s.activation (inputOver cfg messageIn)) hahead
  have hrestored := MessageDef.restored_replay hP (MessageDef.Compiles.partOf hD) hinv h.1 hstored
    hahead
  obtain ⟨owner', -, hafter⟩ := hrestored.stored
  have hsubscriber : s.receive cfg P D messageIn =
      (⟨(D.replay P v (s.activation (inputOver cfg messageIn))).this,
        (D.replay P v (s.activation (inputOver cfg messageIn))).dec.heap,
        (D.replay P v (s.activation (inputOver cfg messageIn))).dec.next⟩, some v) := by
    rw [Subscriber.receive, Subscriber.callback, hrun]
    exact congrArg _ hrestored.holds
  rw [Subscriber.step, hsubscriber]
  exact ⟨rfl, hrestored.shaped, usable_of_stored hafter⟩

/-- Where the reader is, on any input. -/
theorem cursor_of_inputOver (hsize : 4 ≤ cfg.INPUT_SIZE) (hlt : cfg.INPUT_SIZE < 2 ^ 32)
    (hlength : messageIn.length = cfg.INPUT_SIZE) (s : Subscriber) :
    (Cursor.live (inputOver cfg messageIn) 0).Of messageIn
      (s.activation (inputOver cfg messageIn)).dec := by
  have hstart : bodyStart messageIn ≤ cfg.INPUT_SIZE := by
    unfold bodyStart
    split <;> omega
  obtain ⟨hlive, -, -, hfinal⟩ := inputOver_live hstart
  have hinside := hlive.inside
  rw [hlive.iterator_eq] at hinside
  refine ⟨rfl, rfl, ⟨hlive, hinside, ?_, ?_⟩, ?_, hlength ▸ hlt⟩
  · rw [hfinal, hlength]
  · simpa [encode] using matches_nil
  · rw [hfinal, hlength]

/-- Whatever arrives, `msg` can be used again if `callback` was quiet. -/
theorem Subscriber.Usable.receive_quiet (hP : P.Allocates) (hD : D.Compiles reserved)
    (hinv : D.Invertible) (hsize : 4 ≤ cfg.INPUT_SIZE) (hlt : cfg.INPUT_SIZE < 2 ^ 32)
    (h : s.Usable P D) (hquiet : s.Quiet cfg P D messageIn) :
    (s.step cfg P D messageIn).Usable P D := by
  obtain ⟨hlength, hfault⟩ := hquiet
  obtain ⟨owner, hstored⟩ := h.stored (inputOver cfg messageIn)
  have hdown : P.FitsDown := fun cls m _ _ _ => hP cls m
  obtain ⟨hreads, hleaves⟩ := MessageDef.cdrDeserialize_follows hdown
    (MessageDef.Compiles.partOf hD) (a := s.activation (inputOver cfg messageIn))
    (cursor_of_inputOver hsize hlt hlength s) rfl hstored _ rfl
  obtain ⟨done, c, hc⟩ := hreads hfault
  obtain ⟨-, -, -, owner', -, hafter⟩ := hleaves done c hc
  exact ⟨MessageDef.cdrDeserialize_shaped (MessageDef.Compiles.partOf hD) hinv h.1,
    usable_of_stored hafter⟩

end Frame

/-! ## Runs of frames -/

section Runs

variable {cfg : NodeConfig} {P : Platform} {D : MessageDef} {reserved : String → Prop}
  {s : Subscriber}

/-- A frame after which the subscriber goes on: it carries a whole value, or is quiet. -/
def Subscriber.GoesOn (cfg : NodeConfig) (P : Platform) (D : MessageDef) (s : Subscriber)
    (messageIn : List UInt8) : Prop :=
  (∃ v, Sent cfg D messageIn v) ∨ s.Quiet cfg P D messageIn

theorem Subscriber.Usable.step (hP : P.Allocates) (hD : D.Compiles reserved)
    (hinv : D.Invertible) (hsize : 4 ≤ cfg.INPUT_SIZE) (hlt : cfg.INPUT_SIZE < 2 ^ 32)
    (h : s.Usable P D) {messageIn : List UInt8} (hgoes : s.GoesOn cfg P D messageIn) :
    (s.step cfg P D messageIn).Usable P D := by
  rcases hgoes with ⟨v, hsent⟩ | hquiet
  · exact (h.receive_sent hP hD hinv hsent).2
  · exact h.receive_quiet hP hD hinv hsize hlt hquiet

/-- Frames that all carry whole values. -/
theorem Subscriber.Usable.values_sent (hP : P.Allocates) (hD : D.Compiles reserved)
    (hinv : D.Invertible) (h : s.Usable P D) {frames : List (List UInt8)} {vs : List D.Val}
    (hsent : List.Forall₂ (Sent cfg D) frames vs) :
    s.values cfg P D frames = vs.map some := by
  induction hsent generalizing s with
  | nil => rfl
  | cons hfirst _ ih =>
    obtain ⟨hvalue, hnext⟩ := h.receive_sent hP hD hinv hfirst
    rw [Subscriber.values, hvalue, ih hnext, List.map_cons]

/-- A definition without arrays of strings and without variable arrays inside the elements
of variable arrays.  In any run of a subscriber, the frames that carry a whole value give
`cb_` that value, whatever the frames before them were, as long as none of these made
`callback` leave its memory. -/
theorem values_exact (hP : P.Allocates) (hD : D.Compiles reserved) (hinv : D.Invertible)
    (hsize : 4 ≤ cfg.INPUT_SIZE) (hlt : cfg.INPUT_SIZE < 2 ^ 32) {frames : List (List UInt8)}
    (hgoes : Throughout (Subscriber.step cfg P D) (Subscriber.GoesOn cfg P D)
      (Subscriber.construct D) frames) :
    ∀ (i : Nat) (messageIn : List UInt8) (v : D.Val), frames[i]? = some messageIn →
      Sent cfg D messageIn v →
      ((Subscriber.construct D).values cfg P D frames)[i]? = some (some v) := by
  have husable := Subscriber.construct_usable (P := P) hD
  generalize Subscriber.construct D = s at hgoes husable
  induction frames generalizing s with
  | nil => exact fun i messageIn v hi => absurd hi (by simp)
  | cons first frames ih =>
    obtain ⟨hfirst, hmore⟩ := throughout_cons.mp hgoes
    intro i messageIn v hi hsent
    cases i with
    | zero =>
      obtain rfl : first = messageIn := Option.some.inj hi
      rw [Subscriber.values, List.getElem?_cons_zero, (husable.receive_sent hP hD hinv hsent).1]
    | succ i =>
      rw [Subscriber.values, List.getElem?_cons_succ]
      exact ih _ hmore (husable.step hP hD hinv hsize hlt hfirst) i messageIn v hi hsent

end Runs

/-! ### A log message behind a broken one -/

/-- A `Log` with the text `x`, or with another byte where the text should end. -/
def logPayload (last : UInt8) : List UInt8 :=
  [0x00, 0x01, 0x00, 0x00, 0x03, 0x00, 0x00, 0x00, 0x02, 0x00, 0x00, 0x00, 0x78, last]

def logFrame (last : UInt8) : List UInt8 := logPayload last ++ List.replicate 136 0x00

def logX : Msg := logMsg Log.ERROR ⟨[0x78], by decide, by decide⟩

theorem logDef_compiles : logDef.Compiles fun _ => False := by
  refine ⟨by decide, ?_, ?_⟩
  · simp [logDef, MessageDef.members, fieldMembers]
    decide
  · simp [logDef, MessageDef.members, fieldMembers, MessageDef.FieldsCompile, DataClass.Compiles,
      stringTarget]
    decide

theorem logFrames_values :
    ((Subscriber.construct logDef).values atmega168 exactPlatform logDef
      [logFrame 0x62, logFrame 0x00])[1]? = some (some logX.value) := by
  have hinvertible : logDef.Invertible := by
    simp [logDef, MessageDef.Invertible, DataClass.Invertible]
  have hlayout : encode 0 (encapsulationItems ++ logX.items) =
      [0x00, 0x01, 0x00, 0x00, 0x03].map some ++ (List.replicate [0x00, 0x00, 0x00].length none ++
        [0x02, 0x00, 0x00, 0x00, 0x78, 0x00].map some) := by
    decide
  have hencodes : logX.Encodes (logPayload 0x00) := by
    rw [Msg.Encodes, hlayout]
    exact (matches_map_some.mpr rfl).append
      ((matches_replicate_none [0x00, 0x00, 0x00]).append (matches_map_some.mpr rfl))
  have hsent : Sent atmega168 logDef (logFrame 0x00) logX.value :=
    ⟨logPayload 0x00, ⟨rfl, rfl⟩, by decide, hencodes⟩
  have hquiet : (Subscriber.construct logDef).Quiet atmega168 exactPlatform logDef
      (logFrame 0x62) := ⟨rfl, by decide +kernel⟩
  exact values_exact exactPlatform_allocates logDef_compiles hinvertible (by decide) (by decide)
    (throughout_cons.mpr ⟨Or.inr hquiet, throughout_cons.mpr ⟨Or.inl ⟨_, hsent⟩,
      throughout_nil⟩⟩) 1 (logFrame 0x00) logX.value rfl hsent

end Ros2Serial.Device
