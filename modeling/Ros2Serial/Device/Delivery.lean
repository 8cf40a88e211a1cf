import Ros2Serial.Device.Trace
import Ros2Serial.Generator.Soundness

/-!
# What a subscriber delivers

`Subscriber::callback` of `ros/subscriber.h`, on the content that `message_in`
has when the branch of the subscriber is taken.  The reader that it gets ends
with `message_in` and not with the payload, `msg` is the object of the earlier
frames, and what `cdr_deserialize` returns is ignored.

`Complete` says when a payload holds all that the decoder asks
for.  Then the value that the callback gets is determined by the payload and
the subscriber (`receive_congr`), although the strings of `msg` point into
`message_in` and its blocks are reused.
-/

namespace Ros2Serial.Device

open Bytes PlainCdr Ucdr Generator

/-! ## The subscriber -/

/-- `Subscriber`: its `msg`, and the heap with the arrays of `msg`. -/
structure Subscriber where
  msg : Members
  heap : Nat → Option (List Obj)
  next : Nat

def Subscriber.construct (D : MessageDef) : Subscriber where
  msg := D.construct
  heap _ := none
  next := 0

/-- `msg.cdr_deserialize` is called with this reader. -/
def Subscriber.activation (cdr_buffer : Buffer) (s : Subscriber) : Activation where
  this := s.msg
  dec := { ub := cdr_buffer, heap := s.heap, next := s.next, fault := false, reads := [] }

/-- `callback`: the subscriber afterwards, and the value that `cb_` finds in `msg`. -/
def Subscriber.callback (P : Platform) (D : MessageDef) (mem : List UInt8) (cdr_buffer : Buffer)
    (s : Subscriber) : Subscriber × Option D.Val :=
  let (_, run) := D.cdrDeserialize P mem (s.activation cdr_buffer)
  (⟨run.this, run.dec.heap, run.dec.next⟩, D.readBack mem run.dec.heap run.this)

/-- `input_cdr_` after `ucdr_reset_buffer` and `deserialize_encapsulation`. -/
def inputOver (cfg : NodeConfig) (messageIn : List UInt8) : Buffer :=
  (deserializeEncapsulation messageIn (initBuffer 0 cfg.INPUT_SIZE)).1

/-- This is the reader with which a node calls its subscribers. -/
theorem openInput_inputCdr {cfg : NodeConfig} {nh : NodeHandle} (h : nh.Initialised cfg) :
    (openInput nh).inputCdr = inputOver cfg nh.receiver.messageIn := by
  have hreset : resetBuffer nh.inputCdr = initBuffer 0 cfg.INPUT_SIZE := by
    simp only [resetBuffer, initBuffer, h.inputInit, h.inputFinal, h.inputOrigin, Nat.zero_add]
  show (deserializeEncapsulation nh.receiver.messageIn (resetBuffer nh.inputCdr)).1 = _
  rw [hreset]
  rfl

/-- The branch of a subscriber, on the content of `message_in`. -/
def Subscriber.receive (cfg : NodeConfig) (P : Platform) (D : MessageDef)
    (messageIn : List UInt8) (s : Subscriber) : Subscriber × Option D.Val :=
  s.callback P D messageIn (inputOver cfg messageIn)

/-- The subscriber after earlier frames, each with what `message_in` held then. -/
def Subscriber.after (cfg : NodeConfig) (P : Platform) (D : MessageDef)
    (earlier : List (List UInt8)) : Subscriber :=
  earlier.foldl (fun s messageIn => (s.receive cfg P D messageIn).1) (Subscriber.construct D)

/-! ## Any frames -/

/-- The blocks of `msg` have the right classes. -/
def Subscriber.Sound (D : MessageDef) (s : Subscriber) : Prop :=
  ∃ t : Tracking, t.Describes False (s.activation (initBuffer 0 0)).dec ∧ D.Sound t False s.msg

section Sound

variable {cfg : NodeConfig} {P : Platform} {D : MessageDef} {reserved : String → Prop}

theorem Subscriber.construct_sound (hD : D.Compiles reserved) :
    (Subscriber.construct D).Sound D := by
  have hnamed := DataClass.Compiles.allWellNamed hD
  refine ⟨⟨fun _ => False, fun _ => none, fun _ _ => False⟩, ⟨fun _ _ => ⟨rfl, rfl⟩, ?_, ?_⟩,
    MessageDef.sound_construct _ hnamed.1 hnamed.2⟩
  · exact fun _ _ h => h.elim
  · intro b cells cls hcells
    cases hcells

/-- Whatever arrives, the classes of the blocks stay right. -/
theorem Subscriber.Sound.receive (hD : D.Compiles reserved) {s : Subscriber} (h : s.Sound D)
    (messageIn : List UInt8) : (s.receive cfg P D messageIn).1.Sound D := by
  obtain ⟨t, hdescribes, hsound⟩ := h
  have hsame : SameHeap (s.activation (initBuffer 0 0)).dec
      (s.activation (inputOver cfg messageIn)).dec := ⟨rfl, rfl⟩
  have hown : False → D.Accepts [] ∧ Inside messageIn 0 (inputOver cfg messageIn) [] := False.elim
  obtain ⟨t', -, hdescribes', hsound', -⟩ := MessageDef.cdrDeserialize_leaves P hD.1
    (fun m hm => (hD.2.1 m hm).1) (List.Subset.refl D.members) hD.1 hD.2.2
    rfl (hdescribes.restart hsame (EndsBefore messageIn 0) False)
    (hsound.mono (t.restart_types _) False.elim) hown
  exact ⟨t', hdescribes'.congr ⟨rfl, rfl⟩, hsound'⟩

theorem Subscriber.after_sound (hD : D.Compiles reserved) (earlier : List (List UInt8)) :
    (Subscriber.after cfg P D earlier).Sound D := by
  unfold Subscriber.after
  generalize hs : Subscriber.construct D = s
  have hsound : s.Sound D := hs ▸ Subscriber.construct_sound hD
  clear hs
  induction earlier generalizing s with
  | nil => exact hsound
  | cons messageIn earlier ih => exact ih _ (hsound.receive hD messageIn)

end Sound

/-! ## Complete payloads -/

/-- Where the body of a message starts.  Only the first byte of the encapsulation is
looked at, and another one than 0 is all that is read of it. -/
def bodyStart (payload : List UInt8) : Nat := if payload.headD 0 = 0 then 4 else 1

/-- Behind the encapsulation, the payload holds all that the decoder reads: every
count and primitive, and every string with the zero byte at its end. -/
def Complete (D : MessageDef) (payload : List UInt8) : Prop :=
  bodyStart payload ≤ payload.length ∧ ∃ items, D.Accepts items ∧
    Matches (encode (bodyStart payload) items)
      (slice payload (bodyStart payload) (encode (bodyStart payload) items).length)

/-- A payload that holds the layout of a value is complete. -/
theorem complete_of_value {D : MessageDef} (v : D.Val) {body : List UInt8}
    (h : Matches (encode 4 (D.items v)) body) (rest : List UInt8) :
    Complete D ([0x00, 0x01, 0x00, 0x00] ++ body ++ rest) := by
  have hstart : bodyStart ([0x00, 0x01, 0x00, 0x00] ++ body ++ rest) = 4 := rfl
  refine ⟨?_, D.items v, D.accepts_items v, ?_⟩
  · rw [hstart]
    simp only [List.length_append, List.length_cons, List.length_nil]
    omega
  · rw [hstart, h.length_eq]
    simpa [slice] using h

section Input

variable {cfg : NodeConfig} {messageIn : List UInt8}

/-- The first byte of the encapsulation, as the decoder reads it. -/
theorem decode_first (messageIn : List UInt8) :
    LittleEndian.decode (slice messageIn 0 1) = (messageIn.headD 0).toNat := by
  cases messageIn with
  | nil => rfl
  | cons b rest =>
    show LittleEndian.decode [b] = b.toNat
    rw [LittleEndian.decode_cons]
    rfl

/-- What the reader reads of the encapsulation, by its widths. -/
def headerItems (payload : List UInt8) : List Item :=
  if payload.headD 0 = 0 then [.prim .one 0, .prim .one 0, .octets [0x00, 0x00]]
  else [.prim .one 0]

theorem endPos_headerItems (payload : List UInt8) :
    endPos 0 (headerItems payload) = bodyStart payload := by
  unfold headerItems bodyStart
  split <;> simp [endPos, Item.endPos, Width.bytes]

/-- The reader behind the encapsulation. -/
theorem inputOver_eq (h : bodyStart messageIn ≤ cfg.INPUT_SIZE) :
    inputOver cfg messageIn = (initBuffer 0 cfg.INPUT_SIZE).afterAll (headerItems messageIn) := by
  have hlive := initBuffer_live 0 cfg.INPUT_SIZE
  have hone : 1 ≤ cfg.INPUT_SIZE := by
    unfold bodyStart at h
    split at h <;> omega
  have hfirst : (initBuffer 0 cfg.INPUT_SIZE).init +
      (Item.prim .one 0).endPos (initBuffer 0 cfg.INPUT_SIZE).offset ≤
        (initBuffer 0 cfg.INPUT_SIZE).final := by
    simpa [initBuffer, Item.endPos, Width.bytes] using hone
  have hdummy : deserialize messageIn .one (initBuffer 0 cfg.INPUT_SIZE) =
      ((initBuffer 0 cfg.INPUT_SIZE).after (.prim .one 0),
        some (messageIn.headD 0).toNat) := by
    rw [deserialize_fits hlive messageIn .one 0 hfirst, ← decode_first]
    simp [initBuffer, Width.bytes]
  unfold inputOver headerItems
  by_cases hzero : messageIn.headD 0 = 0
  · have hfour : 4 ≤ cfg.INPUT_SIZE := by rwa [bodyStart, if_pos hzero] at h
    have hsecond : ((initBuffer 0 cfg.INPUT_SIZE).after (.prim .one 0)).init +
        (Item.prim .one 0).endPos ((initBuffer 0 cfg.INPUT_SIZE).after (.prim .one 0)).offset ≤
          ((initBuffer 0 cfg.INPUT_SIZE).after (.prim .one 0)).final := by
      simp [initBuffer, Item.endPos, Width.bytes]
      omega
    have hlive₂ := (hlive.after _ hfirst).after _ hsecond
    have hoptions := bufferToArray_fits hlive₂ messageIn [0x00, 0x00] (by
      simp [initBuffer, Item.endPos, Width.bytes]
      omega)
    simp only [List.length_cons, List.length_nil] at hoptions
    rw [if_pos hzero]
    rw [hzero] at hdummy
    simp [deserializeEncapsulation, hdummy,
      deserialize_fits (hlive.after _ hfirst) messageIn .one 0 hsecond, hoptions]
  · have hnonzero : (messageIn.headD 0).toNat ≠ 0 := fun h0 => hzero (UInt8.toNat_inj.mp h0)
    simp only [deserializeEncapsulation, hdummy, Option.getD_some, ne_eq, hnonzero,
      not_false_eq_true, if_true, if_neg hzero]
    rfl

/-- The reader depends on the first byte only. -/
theorem inputOver_congr {messageIn' : List UInt8} (h : bodyStart messageIn ≤ cfg.INPUT_SIZE)
    (hhead : messageIn.headD 0 = messageIn'.headD 0) :
    inputOver cfg messageIn = inputOver cfg messageIn' := by
  have h' : bodyStart messageIn' ≤ cfg.INPUT_SIZE := by
    unfold bodyStart at h ⊢
    rwa [← hhead]
  rw [inputOver_eq h, inputOver_eq h', headerItems, headerItems, hhead]

/-- The reader lies over `message_in`, and is where the body starts. -/
theorem inputOver_live (h : bodyStart messageIn ≤ cfg.INPUT_SIZE) :
    (inputOver cfg messageIn).Live ∧ (inputOver cfg messageIn).init = 0 ∧
      (inputOver cfg messageIn).offset = bodyStart messageIn ∧
      (inputOver cfg messageIn).final = cfg.INPUT_SIZE := by
  have hend := endPos_headerItems messageIn
  rw [inputOver_eq h]
  refine ⟨(initBuffer_live 0 cfg.INPUT_SIZE).afterAll (headerItems messageIn) ?_, ?_, ?_, ?_⟩
  · simp only [initBuffer, hend]
    omega
  · rw [Buffer.afterAll_init]
    rfl
  · rw [Buffer.afterAll_offset]
    exact hend
  · rw [Buffer.afterAll_final]
    exact Nat.zero_add _

/-- A layout behind the encapsulation is ahead of the reader. -/
theorem inputOver_inside {items : List Item} {n : Nat} (hlength : messageIn.length = cfg.INPUT_SIZE)
    (hfits : endPos (bodyStart messageIn) items ≤ n) (hn : n ≤ cfg.INPUT_SIZE)
    (hlayout : Matches (encode (bodyStart messageIn) items)
      (slice messageIn (bodyStart messageIn) (encode (bodyStart messageIn) items).length)) :
    Inside messageIn n (inputOver cfg messageIn) items := by
  have hle := le_endPos (bodyStart messageIn) items
  have hroom : bodyStart messageIn ≤ cfg.INPUT_SIZE := by omega
  obtain ⟨hlive, hinit, hoffset, hfinal⟩ := inputOver_live hroom
  refine ⟨⟨hlive, ?_, ?_, ?_⟩, ?_⟩
  · rw [hinit, hoffset, hfinal, Nat.zero_add]
    exact Nat.le_trans hfits hn
  · rw [hfinal, hlength]
  · rw [hlive.iterator_eq, hinit, hoffset, Nat.zero_add]
    exact hlayout
  · rw [hinit, hoffset, Nat.zero_add]
    exact hfits

end Input

/-! ## What is delivered -/

/-- What `message_in` holds when a frame with the payload is acted on: as much of the
payload as there is room for, and in front of the rest. -/
structure Holds (cfg : NodeConfig) (payload messageIn : List UInt8) : Prop where
  length : messageIn.length = cfg.INPUT_SIZE
  payload : messageIn.take payload.length = payload.take cfg.INPUT_SIZE

/-- A payload that is shorter is the first part of `message_in`. -/
theorem Holds.take_eq {cfg : NodeConfig} {payload messageIn : List UInt8}
    (h : Holds cfg payload messageIn) (hshort : payload.length ≤ cfg.INPUT_SIZE) :
    messageIn.take payload.length = payload :=
  h.payload.trans (List.take_of_length_le hshort)

/-- A layout in the payload is ahead of the reader, and ends in the payload. -/
theorem Holds.inside {cfg : NodeConfig} {payload messageIn : List UInt8}
    (h : Holds cfg payload messageIn) (hshort : payload.length ≤ cfg.INPUT_SIZE)
    (hstart : bodyStart payload ≤ payload.length) {items : List Item}
    (hlayout : Matches (encode (bodyStart payload) items)
      (slice payload (bodyStart payload) (encode (bodyStart payload) items).length)) :
    messageIn.headD 0 = payload.headD 0 ∧
      Inside messageIn payload.length (inputOver cfg messageIn) items := by
  have htake := h.take_eq hshort
  have hpos : 0 < bodyStart payload := by
    unfold bodyStart
    split <;> decide
  have hhead : messageIn.headD 0 = payload.headD 0 := by
    rw [← htake, List.headD_eq_head?_getD, List.headD_eq_head?_getD, List.head?_take,
      if_neg (by omega)]
  have hbody : bodyStart messageIn = bodyStart payload := by
    unfold bodyStart
    rw [hhead]
  have hlength := hlayout.length_eq
  rw [slice, List.length_take, List.length_drop] at hlength
  have hend := endPos_eq (bodyStart payload) items
  have hslice : slice messageIn (bodyStart payload) (encode (bodyStart payload) items).length =
      slice payload (bodyStart payload) (encode (bodyStart payload) items).length := by
    refine slice_congr fun i _ hi => ?_
    rw [← htake, List.getElem?_take_of_lt (by omega)]
  refine ⟨hhead, inputOver_inside h.length ?_ hshort ?_⟩
  · rw [hbody, hend]
    omega
  · rw [hbody, hslice]
    exact hlayout

/-- The payload fills `message_in`, or it is complete.  Then what the frame delivers
does not depend on what earlier frames have left there. -/
theorem receive_congr {cfg : NodeConfig} (P : Platform) {reserved : String → Prop}
    {D : MessageDef} (hD : D.Compiles reserved) {payload : List UInt8}
    (hcomplete : cfg.INPUT_SIZE ≤ payload.length ∨ Complete D payload) {s : Subscriber}
    (hs : s.Sound D) {messageIn messageIn' : List UInt8} (h : Holds cfg payload messageIn)
    (h' : Holds cfg payload messageIn') :
    (s.receive cfg P D messageIn).2 = (s.receive cfg P D messageIn').2 := by
  by_cases hfull : cfg.INPUT_SIZE ≤ payload.length
  · have heq := h.payload.trans h'.payload.symm
    rw [List.take_of_length_le (by rw [h.length]; exact hfull),
      List.take_of_length_le (by rw [h'.length]; exact hfull)] at heq
    rw [heq]
  · have hshort : payload.length ≤ cfg.INPUT_SIZE := by omega
    obtain ⟨hstart, items, haccepts, hlayout⟩ := hcomplete.resolve_left hfull
    obtain ⟨hhead, hinside⟩ := h.inside hshort hstart hlayout
    obtain ⟨hhead', hinside'⟩ := h'.inside hshort hstart hlayout
    obtain ⟨t, hdescribes, hsound⟩ := hs
    have hreader : inputOver cfg messageIn = inputOver cfg messageIn' := by
      refine inputOver_congr ?_ (hhead.trans hhead'.symm)
      unfold bodyStart at hstart ⊢
      rw [hhead]
      omega
    have hsame : SameHeap (s.activation (initBuffer 0 0)).dec
        (s.activation (inputOver cfg messageIn)).dec := ⟨rfl, rfl⟩
    rw [← hreader] at hinside'
    unfold Subscriber.receive
    rw [← hreader]
    exact readBack_determined P hD haccepts (hdescribes.congr hsame) hsound hinside
      hinside'.toAhead (h.length.trans h'.length.symm)
      ((h.take_eq hshort).trans (h'.take_eq hshort).symm)

end Ros2Serial.Device
