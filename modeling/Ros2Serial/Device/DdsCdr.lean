import Ros2Serial.Device.Publish

/-!
# Compatibility with DDS CDR

A DDS_CDR payload is the encapsulation `00 01 00 00` and a PLAIN_CDR body whose
alignment origin is the first byte behind the encapsulation.  The device does
not reset the alignment there (the call stands in a comment of `cdr.h`), so it
pads the body from four bytes earlier, when it writes and when it reads.

A primitive of one, two or four bytes does not notice.  `ddsCompatible_iff`
says that a message is compatible exactly if it has no other primitive.
-/

namespace Ros2Serial.Device

open Bytes PlainCdr Ucdr Generator

/-! ## The reference -/

/-- The DDS_CDR payload of a message. -/
def Msg.ddsCdr (msg : Msg) : List (Option UInt8) :=
  [some 0x00, some 0x01, some 0x00, some 0x00] ++ encode 0 msg.items

/-- The device sends the message as DDS_CDR. -/
def WritesDdsCdr (cfg : NodeConfig) (id : Int) (msg : Msg) (nh : NodeHandle) : Prop :=
  ∃ payload, (publish cfg id msg nh).1.hardware.tx =
      nh.hardware.tx ++ [Wire.encode (topicField id) payload] ∧
    Matches msg.ddsCdr payload

/-- `ucdr_reset_buffer`, `deserialize_encapsulation` and the generated
`cdr_deserialize`, on a fresh message. -/
def receive (P : Platform) (D : MessageDef) (nh : NodeHandle) : Bool × Activation :=
  let (ub, _) := deserializeEncapsulation nh.receiver.messageIn (resetBuffer nh.inputCdr)
  D.cdrDeserialize P nh.receiver.messageIn ⟨D.construct, Decoder.start ub⟩

/-- The device reads the message from its DDS_CDR payload: item by item, and to
the end of it. -/
def ReadsDdsCdr (cfg : NodeConfig) (P : Platform) (msg : Msg) : Prop :=
  ∀ nh : NodeHandle, nh.Initialised cfg → msg.ddsCdr.length ≤ cfg.INPUT_SIZE →
    Matches msg.ddsCdr (slice nh.receiver.messageIn 0 msg.ddsCdr.length) →
      let run := receive P msg.definition nh
      run.1 = true ∧ run.2.dec.reads = msg.items ∧ run.2.dec.ub.iterator = msg.ddsCdr.length

/-! ## The two origins -/

/-- What the device takes for the payload of a message. -/
theorem encode_encapsulation (items : List Item) :
    encode 0 (encapsulationItems ++ items) =
      [some 0x00, some 0x01, some 0x00, some 0x00] ++ encode 4 items := by
  rw [encode_append]
  rfl

/-- Without an eight-byte primitive it is the DDS_CDR payload. -/
theorem Msg.encode_eq_ddsCdr {msg : Msg} (h : ∀ it ∈ msg.items, ¬ it.Wide) :
    encode 0 (encapsulationItems ++ msg.items) = msg.ddsCdr := by
  rw [encode_encapsulation, encode_add_four h 0, Msg.ddsCdr]

/-- With one it has another length. -/
theorem Msg.encodedLength_ne_ddsCdr {msg : Msg} (h : ∃ it ∈ msg.items, it.Wide) :
    msg.encodedLength ≠ msg.ddsCdr.length := by
  have hne := length_encode_add_four_ne h 0
  rw [Msg.encodedLength, endPos_eq, encode_encapsulation, Msg.ddsCdr, List.length_append,
    List.length_append, Nat.zero_add]
  exact fun heq => hne (Nat.add_left_cancel heq)

/-! ## Reading -/

/-- The encapsulation is skipped. -/
theorem deserializeEncapsulation_eq {mem : List UInt8} {ub : Buffer}
    (h : Ahead mem ub encapsulationItems) :
    deserializeEncapsulation mem ub = (ub.afterAll encapsulationItems, 4) := by
  obtain ⟨hfirst, hrest⟩ := Ahead.cons h
  obtain ⟨hsecond, hoptions⟩ := Ahead.cons hrest
  have hdummy : deserialize mem .one ub = (ub.after (.prim .one 0x00), some 0x00) :=
    deserialize_matches hfirst.live (by decide) (by simpa [endPos] using hfirst.fits)
      (by simpa [encode] using hfirst.layout)
  have hencapsulation : deserialize mem .one (ub.after (.prim .one 0x00)) =
      ((ub.after (.prim .one 0x00)).after (.prim .one 0x01), some 0x01) :=
    deserialize_matches hsecond.live (by decide) (by simpa [endPos] using hsecond.fits)
      (by simpa [encode] using hsecond.layout)
  have harray := bufferToArray_fits hoptions.live mem [0x00, 0x00] hoptions.octets_le.1
  simp only [deserializeEncapsulation, hdummy, hencapsulation]
  simp only [List.length_cons, List.length_nil] at harray
  simp [harray, encapsulationItems]

/-- The layout that the device reads is ahead of it, in a DDS_CDR payload too. -/
theorem ahead_ddsCdr {cfg : NodeConfig} {nh : NodeHandle} (hnh : nh.Initialised cfg) {msg : Msg}
    (h : ∀ it ∈ msg.items, ¬ it.Wide) (hfit : msg.ddsCdr.length ≤ cfg.INPUT_SIZE)
    (hlay : Matches msg.ddsCdr (slice nh.receiver.messageIn 0 msg.ddsCdr.length)) :
    Ahead nh.receiver.messageIn (resetBuffer nh.inputCdr) (encapsulationItems ++ msg.items) ∧
      endPos 0 (encapsulationItems ++ msg.items) = msg.ddsCdr.length := by
  have hlive : (resetBuffer nh.inputCdr).Live :=
    resetBuffer_live hnh.inputOrigin (by rw [hnh.inputInit, hnh.inputFinal]; omega)
  have hend : endPos 0 (encapsulationItems ++ msg.items) = msg.ddsCdr.length := by
    rw [endPos_eq, Msg.encode_eq_ddsCdr h, Nat.zero_add]
  refine ⟨⟨hlive, ?_, ?_, ?_⟩, hend⟩
  · simp only [resetBuffer, hnh.inputInit, hnh.inputFinal, hnh.inputOrigin, hend]
    omega
  · simp only [resetBuffer, hnh.inputFinal, hnh.messageIn, Nat.le_refl]
  · simp only [resetBuffer, hnh.inputInit, hnh.inputOrigin, Msg.encode_eq_ddsCdr h]
    exact hlay

/-- Without an eight-byte primitive, the device reads DDS_CDR. -/
theorem readsDdsCdr (cfg : NodeConfig) (P : Platform) {msg : Msg}
    (h : ∀ it ∈ msg.items, ¬ it.Wide) : ReadsDdsCdr cfg P msg := by
  intro nh hnh hfit hlay
  obtain ⟨hahead, hend⟩ := ahead_ddsCdr hnh h hfit hlay
  obtain ⟨henc, hbody⟩ := hahead.split
  obtain ⟨htrue, hub, hreads⟩ := msg.definition.hasRead_cdrDeserialize P msg.value
    ⟨msg.definition.construct,
      Decoder.start ((resetBuffer nh.inputCdr).afterAll encapsulationItems)⟩ hbody
  have hit := (hahead.live.afterAll (encapsulationItems ++ msg.items) hahead.fits).iterator_eq
  simp only [receive, deserializeEncapsulation_eq henc]
  refine ⟨htrue, hreads, ?_⟩
  rw [hub]
  show (((resetBuffer nh.inputCdr).afterAll encapsulationItems).afterAll msg.items).iterator = _
  rw [← Buffer.afterAll_append, hit, Buffer.afterAll_init, Buffer.afterAll_offset]
  simp only [resetBuffer, hnh.inputInit, hnh.inputOrigin, hend, Nat.zero_add]

/-! ## Writing -/

section Writing

variable {cfg : NodeConfig} {nh : NodeHandle}

/-- Without an eight-byte primitive, the device writes DDS_CDR. -/
theorem writesDdsCdr (h : nh.Initialised cfg) {id : Int} (hallowed : Allowed id nh) {msg : Msg}
    (hfit : msg.encodedLength + 8 ≤ cfg.OUTPUT_SIZE) (hnarrow : ∀ it ∈ msg.items, ¬ it.Wide) :
    WritesDdsCdr cfg id msg nh := by
  obtain ⟨nh', payload, hpub, hsends, hencodes⟩ := publishDepth_fits h hallowed hfit 1
  refine ⟨payload, ?_, ?_⟩
  · rw [publish, hpub, hsends.tx]
  · rw [← Msg.encode_eq_ddsCdr hnarrow]
    exact hencodes

/-- With one, the payload has the wrong length. -/
theorem not_writesDdsCdr (h : nh.Initialised cfg) {id : Int} (hallowed : Allowed id nh)
    {msg : Msg} (hfit : msg.encodedLength + 8 ≤ cfg.OUTPUT_SIZE)
    (hwide : ∃ it ∈ msg.items, it.Wide) : ¬ WritesDdsCdr cfg id msg nh := by
  rintro ⟨payload, htx, hlay⟩
  obtain ⟨nh', sent, hpub, hsends, hencodes⟩ := publishDepth_fits h hallowed hfit 1
  rw [publish, hpub, hsends.tx] at htx
  have hframe := congrArg List.length (List.head_eq_of_cons_eq (List.append_cancel_left htx))
  simp only [Wire.encode_length] at hframe
  have hsent := hencodes.length
  have hlength := hlay.length_eq
  exact Msg.encodedLength_ne_ddsCdr hwide (by omega)

/-- A message that fits is written and read as DDS_CDR exactly if none of its
primitives is eight bytes wide. -/
theorem ddsCompatible_iff (h : nh.Initialised cfg) {id : Int} (hallowed : Allowed id nh)
    {msg : Msg} (hfit : msg.encodedLength + 8 ≤ cfg.OUTPUT_SIZE) (P : Platform) :
    (WritesDdsCdr cfg id msg nh ∧ ReadsDdsCdr cfg P msg) ↔ ∀ it ∈ msg.items, ¬ it.Wide := by
  constructor
  · rintro ⟨hwrites, -⟩ it hit hwide
    exact not_writesDdsCdr h hallowed hfit ⟨it, hit, hwide⟩ hwrites
  · intro hnarrow
    exact ⟨writesDdsCdr h hallowed hfit hnarrow, readsDdsCdr cfg P hnarrow⟩

end Writing

/-! ## A time and a double -/

/-- `Time` has two primitives of four bytes. -/
theorem timeMsg_ddsCompatible :
    WritesDdsCdr atmega168 106 (timeMsg 1 2) connectedNode ∧
      ReadsDdsCdr atmega168 exactPlatform (timeMsg 1 2) :=
  (ddsCompatible_iff connectedNode_initialised (Or.inr rfl) (by decide) exactPlatform).mpr
    (by decide)

/-- A lone double gets four bytes of padding that DDS_CDR does not have. -/
theorem doubles1_not_ddsCompatible :
    connectedNode.Initialised atmega168 ∧ Allowed 106 connectedNode ∧
      (doubles 1).encodedLength + 8 ≤ atmega168.OUTPUT_SIZE ∧
      ¬ (WritesDdsCdr atmega168 106 (doubles 1) connectedNode ∧
        ReadsDdsCdr atmega168 exactPlatform (doubles 1)) :=
  ⟨connectedNode_initialised, Or.inr rfl, by decide, fun hboth =>
    not_writesDdsCdr connectedNode_initialised (Or.inr rfl) (by decide) (by decide) hboth.1⟩

end Ros2Serial.Device
