import Ros2Serial.Device.Node
import Ros2Serial.Wire.Frame

/-!
# What `publish` sends

`publish` serializes into `message_out`, and decides by the number of bytes in
the CDR buffer whether the message fits.  There are three cases.

* The encoding fits with its header and checksum.  One frame goes out, and its
  payload has the layout of the message (`publish_fits`).
* The encoding does not fit, and the CDR buffer is full.  No frame of the
  message goes out; the report of `logerror` does (`publish_dropped`).
* The encoding does not fit, and the CDR buffer is not full, because the item
  that did not fit is a primitive across the end of it.  A frame with the part
  in front of that primitive goes out (`publish_truncated`).

`Sends` says what a node keeps when it sends: everything but the buffer it
serializes into.
-/

namespace Ros2Serial.Device

open Bytes PlainCdr Ucdr Generator

/-! ## Sending -/

/-- The node after it has written the frames, with what they leave in the buffer
it serializes into. -/
def NodeHandle.withOutput (nh : NodeHandle) (ub : Buffer) (out : List UInt8)
    (frames : List (List UInt8)) : NodeHandle :=
  { nh with
    outputCdr := ub, messageOut := out
    hardware := { nh.hardware with tx := nh.hardware.tx ++ frames } }

/-- `nh'` is `nh` after it has written the frames. -/
structure Sends (cfg : NodeConfig) (nh nh' : NodeHandle) (frames : List (List UInt8)) : Prop where
  eq : ∃ ub out, nh' = nh.withOutput ub out frames
  initialised : nh'.Initialised cfg

theorem Sends.refl {cfg : NodeConfig} {nh : NodeHandle} (h : nh.Initialised cfg) :
    Sends cfg nh nh [] :=
  ⟨⟨nh.outputCdr, nh.messageOut, by simp [NodeHandle.withOutput]⟩, h⟩

theorem Sends.trans {cfg : NodeConfig} {a b c : NodeHandle} {fs gs : List (List UInt8)}
    (h : Sends cfg a b fs) (h' : Sends cfg b c gs) : Sends cfg a c (fs ++ gs) := by
  obtain ⟨ub, out, rfl⟩ := h.eq
  obtain ⟨ub', out', hc⟩ := h'.eq
  exact ⟨⟨ub', out', by rw [hc]; simp [NodeHandle.withOutput]⟩, h'.initialised⟩

theorem Sends.tx {cfg : NodeConfig} {nh nh' : NodeHandle} {frames : List (List UInt8)}
    (h : Sends cfg nh nh' frames) : nh'.hardware.tx = nh.hardware.tx ++ frames := by
  obtain ⟨ub, out, rfl⟩ := h.eq
  rfl

/-- The id is one that `publish` sends in this state. -/
def Allowed (id : Int) (nh : NodeHandle) : Prop := id < 100 ∨ nh.configured = true

/-- The topic field of the frames with this id. -/
def topicField (id : Int) : Nat := (id % 65536).toNat

/-- The length of the complete encoding of a message. -/
def Msg.encodedLength (msg : Msg) : Nat := endPos 0 (encapsulationItems ++ msg.items)

/-- The bytes are a complete encoding of the message. -/
def Msg.Encodes (msg : Msg) (payload : List UInt8) : Prop :=
  Matches (encode 0 (encapsulationItems ++ msg.items)) payload

theorem Msg.Encodes.length {msg : Msg} {payload : List UInt8} (h : msg.Encodes payload) :
    payload.length = msg.encodedLength := by
  rw [← h.length_eq, Msg.encodedLength, endPos_eq, Nat.zero_add]

/-! ## The frame in `message_out` -/

theorem lowByte_natCast (n : Nat) : lowByte n = Wire.lo n := by
  simp only [lowByte, Wire.lo]
  congr 1
  omega

theorem highByte_natCast (n : Nat) : highByte n = Wire.hi n := by
  simp only [highByte, Wire.hi]
  congr 1
  omega

theorem lowByte_eq (id : Int) : lowByte id = Wire.lo (topicField id) := by
  simp only [lowByte, Wire.lo, topicField]
  congr 1
  omega

theorem highByte_eq (id : Int) : highByte id = Wire.hi (topicField id) := by
  simp only [highByte, Wire.hi, topicField]
  congr 1
  omega

theorem topicField_lt (id : Int) : topicField id < 65536 := by
  simp only [topicField]
  omega

theorem toNat_topicField (id : Int) : (UInt16.ofNat (topicField id)).toNat = topicField id :=
  UInt16.toNat_ofNat_of_lt' (topicField_lt id)

/-- `message_out` with the header in front of `l` bytes of CDR, and the
checksum behind them, starts with a frame. -/
theorem take_messageOut {mem : List UInt8} {l : Nat} (hl : l + 8 ≤ mem.length) (topic : Nat) :
    let out := overwrite mem 0 (Wire.header topic l)
    let chk := byteSum (slice out 5 (l + 7 - 5))
    (overwrite out (l + 7) [UInt8.ofNat (255 - chk % 256)]).take (l + 7 + 1) =
      Wire.encode topic (slice mem 7 l) := by
  intro out chk
  have hout : out = Wire.header topic l ++ mem.drop 7 := by
    simp [out, overwrite]
  have hlen : (slice mem 7 l).length = l := slice_length (by omega)
  have htake : out.take (l + 7) = Wire.header topic l ++ slice mem 7 l := by
    rw [hout, List.take_append, Wire.header_length, List.take_of_length_le (by simp),
      Nat.add_sub_cancel, slice]
  have hsum : chk = (Wire.lo topic).toNat + (Wire.hi topic).toNat + byteSum (slice mem 7 l) := by
    have hslice : slice out 5 (l + 7 - 5) =
        Wire.lo topic :: Wire.hi topic :: slice mem 7 l := by
      rw [hout, show l + 7 - 5 = 2 + l by omega, slice_add]
      simp [slice, Wire.header]
    show byteSum (slice out 5 (l + 7 - 5)) = _
    rw [hslice]
    simp only [byteSum_cons]
    omega
  have hlen' : (out.take (l + 7)).length = l + 7 := by
    rw [htake, List.length_append, Wire.header_length, hlen]
    omega
  rw [overwrite, List.append_assoc, List.take_append, hlen',
    List.take_of_length_le (by omega), Nat.add_sub_cancel_left]
  rw [htake, hsum]
  simp [Wire.encode, hlen, Wire.messageChecksum, Wire.complement]

/-! ## The buffer of a message -/

/-- The CDR buffer when `publish` begins to serialize. -/
def startCdr (nh : NodeHandle) : Cdr := { ub := resetBuffer nh.outputCdr, mem := nh.messageOut }

section Publish

variable {cfg : NodeConfig} {nh : NodeHandle}

theorem startCdr_live (h : nh.Initialised cfg) : (startCdr nh).ub.Live := by
  have := cfg.logFits
  exact resetBuffer_live h.outputOrigin (by rw [h.outputInit, h.outputFinal]; omega)

theorem startCdr_fields (h : nh.Initialised cfg) :
    (startCdr nh).ub.init = 7 ∧ (startCdr nh).ub.final = cfg.OUTPUT_SIZE ∧
      (startCdr nh).ub.origin = 0 ∧ (startCdr nh).ub.offset = 0 ∧
      (startCdr nh).ub.iterator = 7 ∧ (startCdr nh).mem.length = cfg.OUTPUT_SIZE :=
  ⟨h.outputInit, h.outputFinal, h.outputOrigin, h.outputOrigin, h.outputInit, h.messageOut⟩

theorem startCdr_capacity (h : nh.Initialised cfg) :
    (startCdr nh).ub.capacity = cfg.OUTPUT_SIZE - 7 := by
  obtain ⟨hinit, hfinal, -⟩ := startCdr_fields h
  rw [Buffer.capacity, hinit, hfinal]

/-- The CDR buffer when `publish` has serialized. -/
def serialized (nh : NodeHandle) (msg : Msg) : Cdr :=
  msg.cdrSerialize (serializeEncapsulation (startCdr nh))

theorem serialized_eq (msg : Msg) :
    serialized nh msg = writeItems (encapsulationItems ++ msg.items) (startCdr nh) := by
  rw [serialized, msg.cdrSerialize_eq_writeItems, serializeEncapsulation_eq_writeItems,
    writeItems_append]

/-- A message that fits is laid out behind the header. -/
theorem serialized_fits (h : nh.Initialised cfg) {msg : Msg}
    (hfit : msg.encodedLength + 7 ≤ cfg.OUTPUT_SIZE) :
    (serialized nh msg).ub = (startCdr nh).ub.afterAll (encapsulationItems ++ msg.items) ∧
      bufferLength (serialized nh msg).ub = msg.encodedLength ∧
      (serialized nh msg).mem.length = cfg.OUTPUT_SIZE ∧
      msg.Encodes (slice (serialized nh msg).mem 7 msg.encodedLength) := by
  obtain ⟨hinit, hfinal, -, hoffset, hiterator, hmem⟩ := startCdr_fields h
  have hend : endPos (startCdr nh).ub.offset (encapsulationItems ++ msg.items) =
      msg.encodedLength := by rw [hoffset, Msg.encodedLength]
  have hlive := startCdr_live h
  obtain ⟨hub, hlaid⟩ := writeItems_fits hlive (by rw [hend]; omega) (by omega)
  rw [← serialized_eq] at hub hlaid
  refine ⟨hub, ?_, hlaid.length.trans hmem, ?_⟩
  · have hit := (hlive.afterAll (encapsulationItems ++ msg.items) (by omega)).iterator_eq
    rw [Buffer.afterAll_init, Buffer.afterAll_offset, hend] at hit
    rw [hub, bufferLength, hit, Buffer.afterAll_init, Nat.add_sub_cancel_left]
  · have hlayout := hlaid.layout
    have hcount := endPos_eq 0 (encapsulationItems ++ msg.items)
    rw [hoffset, hiterator] at hlayout
    rw [hoffset] at hend
    rw [Msg.Encodes, show msg.encodedLength = (encode 0 (encapsulationItems ++ msg.items)).length
      by omega]
    exact hlayout

/-- A message that does not fit stops at the end of the buffer, or short of it
when a primitive lies across the end. -/
theorem serialized_overflow (h : nh.Initialised cfg) {msg : Msg}
    (hover : cfg.OUTPUT_SIZE < msg.encodedLength + 7) :
    Overflowed (startCdr nh) (serialized nh msg)
      (Straddles (cfg.OUTPUT_SIZE - 7) 0 (encapsulationItems ++ msg.items)) := by
  obtain ⟨hinit, hfinal, -, hoffset, -, hmem⟩ := startCdr_fields h
  have hend : endPos (startCdr nh).ub.offset (encapsulationItems ++ msg.items) =
      msg.encodedLength := by rw [hoffset, Msg.encodedLength]
  have hfits := cfg.logFits
  have hcut := writeItems_overflow (startCdr_live h) (by rw [hend, hinit, hfinal]; omega)
    (by rw [hfinal, hmem])
  rwa [← serialized_eq, startCdr_capacity h, hoffset] at hcut

/-- Without a primitive across the end, what does not fit together with its
checksum fills the buffer. -/
theorem serialized_full (h : nh.Initialised cfg) {msg : Msg}
    (hover : cfg.OUTPUT_SIZE < msg.encodedLength + 8)
    (hs : ¬ Straddles (cfg.OUTPUT_SIZE - 7) 0 (encapsulationItems ++ msg.items)) :
    bufferLength (serialized nh msg).ub = cfg.OUTPUT_SIZE - 7 := by
  obtain ⟨hinit, hfinal, -⟩ := startCdr_fields h
  rcases Nat.lt_or_ge cfg.OUTPUT_SIZE (msg.encodedLength + 7) with hcut | hfit
  · have hcut := serialized_overflow h hcut
    have hge := mt hcut.iterator_lt.mp hs
    have hle := hcut.iterator_le
    rw [bufferLength, hcut.init, hinit]
    omega
  · obtain ⟨-, hlen, -⟩ := serialized_fits h hfit
    omega

/-- Serializing keeps the ends of the buffer and the length of the memory. -/
theorem serialized_ends (h : nh.Initialised cfg) (msg : Msg) :
    (serialized nh msg).ub.init = 7 ∧ (serialized nh msg).ub.final = cfg.OUTPUT_SIZE ∧
      (serialized nh msg).ub.origin = 0 ∧ (serialized nh msg).mem.length = cfg.OUTPUT_SIZE := by
  obtain ⟨hinit, hfinal, horigin, -, -, hmem⟩ := startCdr_fields h
  rcases Nat.lt_or_ge cfg.OUTPUT_SIZE (msg.encodedLength + 7) with hover | hfit
  · have hcut := serialized_overflow h hover
    exact ⟨hcut.init.trans hinit, hcut.final.trans hfinal, hcut.origin.trans horigin,
      hcut.length.trans hmem⟩
  · obtain ⟨hub, -, hlen, -⟩ := serialized_fits h hfit
    exact ⟨by rw [hub, Buffer.afterAll_init, hinit], by rw [hub, Buffer.afterAll_final, hfinal],
      by rw [hub, Buffer.afterAll_origin, horigin], hlen⟩

/-- Nor does the header change the length of the memory. -/
theorem withHeader_length (h : nh.Initialised cfg) (msg : Msg) (topic l : Nat) :
    (overwrite (serialized nh msg).mem 0 (Wire.header topic l)).length = cfg.OUTPUT_SIZE := by
  have hmem := (serialized_ends h msg).2.2.2
  have hfits := cfg.logFits
  rw [overwrite_length (by simp; omega), hmem]

/-! ## The two ends of `publish` -/

/-- The CDR buffer of a message, over memory of the same length, sends. -/
theorem sends_withOutput (h : nh.Initialised cfg) (msg : Msg) {out : List UInt8}
    (hout : out.length = cfg.OUTPUT_SIZE) (frames : List (List UInt8)) :
    Sends cfg nh (nh.withOutput (serialized nh msg).ub out frames) frames := by
  obtain ⟨hinit, hfinal, horigin, -⟩ := serialized_ends h msg
  exact ⟨⟨_, _, rfl⟩, ⟨h.messageIn, hout, hinit, hfinal, horigin, h.inputInit, h.inputFinal,
    h.inputOrigin, h.publishers, h.subscribers⟩⟩

/-- `publish` after the serialization: with `l` bytes in the buffer a frame goes
out if `l + 8` bytes fit `message_out`, and otherwise the report. -/
theorem publishDepth_eq {id : Int} (hallowed : Allowed id nh) {msg : Msg} {l : Nat}
    (hlen : bufferLength (serialized nh msg).ub = l)
    (hmem : (serialized nh msg).mem.length = cfg.OUTPUT_SIZE) (depth : Nat) :
    publishDepth cfg depth id msg nh =
      let out := overwrite (serialized nh msg).mem 0 (Wire.header (topicField id) l)
      let chk := byteSum (slice out 5 (l + 7 - 5))
      if l + 7 < cfg.OUTPUT_SIZE then
        (nh.withOutput (serialized nh msg).ub
            (overwrite out (l + 7) [UInt8.ofNat (255 - chk % 256)])
            [Wire.encode (topicField id) (slice (serialized nh msg).mem 7 l)],
          (l : Int) + 8)
      else
        let nh := nh.withOutput (serialized nh msg).ub out []
        match depth with
        | 0 => (nh, -1)
        | depth + 1 =>
          ((publishDepth cfg depth TopicInfo.ID_LOG (logMsg Log.ERROR droppedText) nh).1, -1) := by
  have hguard : ¬ (100 ≤ id && !nh.configured) = true := by
    rcases hallowed with hid | hc
    · simp [Int.not_le.mpr hid]
    · simp [hc]
  have hser : msg.cdrSerialize (serializeEncapsulation
      { ub := resetBuffer nh.outputCdr, mem := nh.messageOut }) = serialized nh msg := rfl
  have hheader : [0xff, 0xfe, Wire.lo l, Wire.hi l,
      UInt8.ofNat (255 - ((Wire.lo l).toNat + (Wire.hi l).toNat) % 256),
      Wire.lo (topicField id), Wire.hi (topicField id)] = Wire.header (topicField id) l := rfl
  rw [publishDepth.eq_def]
  simp only [if_neg hguard, hser, hlen, lowByte_natCast, highByte_natCast]
  simp only [lowByte_eq id, highByte_eq id, hheader]
  by_cases hroom : l + 7 < cfg.OUTPUT_SIZE
  · simp only [if_pos hroom]
    rw [take_messageOut (by omega)]
    refine Prod.ext rfl ?_
    show ((l + 7 : Nat) : Int) + 1 = l + 8
    omega
  · cases depth with
    | zero => simp only [if_neg hroom, NodeHandle.withOutput, List.append_nil]
    | succ depth => simp only [if_neg hroom, NodeHandle.withOutput, List.append_nil]

/-- Before the topics are negotiated, messages of user topics are ignored. -/
theorem publishDepth_of_not_allowed {id : Int} (h : ¬ Allowed id nh) (msg : Msg) (depth : Nat) :
    publishDepth cfg depth id msg nh = (nh, 0) := by
  have hguard : (100 ≤ id && !nh.configured) = true := by
    simpa [Allowed] using h
  rw [publishDepth.eq_def]
  simp only [if_pos hguard]

/-- With room for the checksum, a frame goes out. -/
theorem publishDepth_sends (h : nh.Initialised cfg) {id : Int} (hallowed : Allowed id nh)
    {msg : Msg} {l : Nat} (hlen : bufferLength (serialized nh msg).ub = l)
    (hroom : l + 7 < cfg.OUTPUT_SIZE) (depth : Nat) :
    ∃ nh', publishDepth cfg depth id msg nh = (nh', (l : Int) + 8) ∧
      Sends cfg nh nh'
        [Wire.encode (topicField id) (slice (serialized nh msg).mem 7 l)] := by
  have hmem := (serialized_ends h msg).2.2.2
  refine ⟨_, by rw [publishDepth_eq hallowed hlen hmem, if_pos hroom], ?_⟩
  have hout := withHeader_length h msg (topicField id) l
  exact sends_withOutput h msg (by rw [overwrite_length (by simp; omega), hout]) _

/-! ## The three cases -/

/-- A message that fits goes out in one frame. -/
theorem publishDepth_fits (h : nh.Initialised cfg) {id : Int} (hallowed : Allowed id nh)
    {msg : Msg} (hfit : msg.encodedLength + 8 ≤ cfg.OUTPUT_SIZE) (depth : Nat) :
    ∃ nh' payload, publishDepth cfg depth id msg nh = (nh', (msg.encodedLength : Int) + 8) ∧
      Sends cfg nh nh' [Wire.encode (topicField id) payload] ∧ msg.Encodes payload := by
  obtain ⟨-, hlen, -, hencodes⟩ := serialized_fits h (Nat.le_of_succ_le hfit)
  obtain ⟨nh', hpub, hsends⟩ := publishDepth_sends h hallowed hlen (by omega) depth
  exact ⟨nh', _, hpub, hsends, hencodes⟩

/-- A primitive across the end of the buffer cuts the message off.  What is in
front of the primitive goes out as if it were the message. -/
theorem publishDepth_truncated (h : nh.Initialised cfg) {id : Int} (hallowed : Allowed id nh)
    {msg : Msg} (hs : Straddles (cfg.OUTPUT_SIZE - 7) 0 (encapsulationItems ++ msg.items))
    (depth : Nat) :
    ∃ nh' payload, publishDepth cfg depth id msg nh = (nh', (payload.length : Int) + 8) ∧
      Sends cfg nh nh' [Wire.encode (topicField id) payload] ∧
      payload.length < msg.encodedLength := by
  have hover : cfg.OUTPUT_SIZE < msg.encodedLength + 7 := by
    by_contra hle
    exact not_straddles_of_endPos_le (by rw [← Msg.encodedLength]; omega) hs
  have hcut := serialized_overflow h hover
  have hlt := hcut.iterator_lt.mpr hs
  obtain ⟨hinit, -, -, hmem⟩ := serialized_ends h msg
  obtain ⟨-, hfinal, -⟩ := startCdr_fields h
  have hfits := cfg.logFits
  have hl : bufferLength (serialized nh msg).ub + 7 < cfg.OUTPUT_SIZE := by
    rw [bufferLength]
    omega
  obtain ⟨nh', hpub, hsends⟩ := publishDepth_sends h hallowed rfl hl depth
  have hpayload : (slice (serialized nh msg).mem 7 (bufferLength (serialized nh msg).ub)).length =
      bufferLength (serialized nh msg).ub := slice_length (by omega)
  exact ⟨nh', _, by rw [hpub, hpayload], hsends, by omega⟩

/-- The report of a dropped message. -/
def report : Msg := logMsg Log.ERROR droppedText

/-- The report is 69 bytes long, so that it fits every `message_out`. -/
theorem report_fits (cfg : NodeConfig) : report.encodedLength + 8 ≤ cfg.OUTPUT_SIZE :=
  Nat.le_trans (by decide) cfg.logFits

theorem allowed_log (nh : NodeHandle) : Allowed TopicInfo.ID_LOG nh := Or.inl (by decide)

/-- Any other message that does not fit is dropped, and the report goes out in
its place. -/
theorem publishDepth_dropped (h : nh.Initialised cfg) {id : Int} (hallowed : Allowed id nh)
    {msg : Msg} (hover : cfg.OUTPUT_SIZE < msg.encodedLength + 8)
    (hs : ¬ Straddles (cfg.OUTPUT_SIZE - 7) 0 (encapsulationItems ++ msg.items)) (depth : Nat) :
    ∃ nh' payload, publishDepth cfg (depth + 1) id msg nh = (nh', -1) ∧
      Sends cfg nh nh' [Wire.encode 7 payload] ∧ report.Encodes payload := by
  have hlen := serialized_full h hover hs
  have hmem := (serialized_ends h msg).2.2.2
  have hfits := cfg.logFits
  have hkept := sends_withOutput h msg
    (withHeader_length h msg (topicField id) (cfg.OUTPUT_SIZE - 7)) []
  obtain ⟨nh', payload, hpub, hsends, hencodes⟩ :=
    publishDepth_fits hkept.initialised (allowed_log _) (report_fits cfg) depth
  have hroom : ¬ cfg.OUTPUT_SIZE - 7 + 7 < cfg.OUTPUT_SIZE := by omega
  refine ⟨nh', payload, ?_, hkept.trans hsends, hencodes⟩
  rw [publishDepth_eq hallowed hlen hmem, if_neg hroom]
  exact congrArg (fun r : NodeHandle × Int => (r.1, (-1 : Int))) hpub

/-- Calls below the report change nothing, because the report fits. -/
theorem publishDepth_of_le (h : nh.Initialised cfg) (id : Int) (msg : Msg) {depth : Nat}
    (hdepth : 1 ≤ depth) : publishDepth cfg depth id msg nh = publish cfg id msg nh := by
  obtain ⟨d, rfl⟩ := Nat.exists_eq_add_of_le' hdepth
  rw [publish]
  by_cases hallowed : Allowed id nh
  · have hmem := (serialized_ends h msg).2.2.2
    rw [publishDepth_eq hallowed rfl hmem, publishDepth_eq hallowed rfl hmem]
    have hkept := (sends_withOutput h msg (withHeader_length h msg (topicField id)
      (bufferLength (serialized nh msg).ub)) []).initialised
    have hlen := (serialized_fits hkept (Nat.le_of_succ_le (report_fits cfg))).2.1
    have hreport := publishDepth_eq (allowed_log _) hlen (serialized_ends hkept report).2.2.2
    simp only [if_pos (show report.encodedLength + 7 < cfg.OUTPUT_SIZE from report_fits cfg)]
      at hreport
    split
    · rfl
    · exact congrArg (fun r : NodeHandle × Int => (r.1, (-1 : Int)))
        ((hreport d).trans (hreport 0).symm)
  · rw [publishDepth_of_not_allowed hallowed, publishDepth_of_not_allowed hallowed]

/-- Whatever is published, only frames are sent: one with the topic of the
message, or one with the report. -/
theorem publish_sends (h : nh.Initialised cfg) (id : Int) (msg : Msg) :
    ∃ sent : List (Nat × List UInt8),
      Sends cfg nh (publish cfg id msg nh).1 (sent.map fun f => Wire.encode f.1 f.2) ∧
        ∀ f ∈ sent, f.1 = topicField id ∨ f.1 = 7 := by
  rw [publish]
  by_cases hallowed : Allowed id nh
  · rcases Nat.lt_or_ge cfg.OUTPUT_SIZE (msg.encodedLength + 8) with hover | hfit
    · by_cases hs : Straddles (cfg.OUTPUT_SIZE - 7) 0 (encapsulationItems ++ msg.items)
      · obtain ⟨nh', payload, hpub, hsends, -⟩ := publishDepth_truncated h hallowed hs 1
        exact ⟨[(topicField id, payload)], by rw [hpub]; exact hsends, by simp⟩
      · obtain ⟨nh', payload, hpub, hsends, -⟩ := publishDepth_dropped h hallowed hover hs 0
        exact ⟨[(7, payload)], by rw [hpub]; exact hsends, by simp⟩
    · obtain ⟨nh', payload, hpub, hsends, -⟩ := publishDepth_fits h hallowed hfit 1
      exact ⟨[(topicField id, payload)], by rw [hpub]; exact hsends, by simp⟩
  · rw [publishDepth_of_not_allowed hallowed]
    exact ⟨[], Sends.refl h, by simp⟩

/-! ## All or nothing -/

/-- What a caller expects of `publish`: a message that fits goes out whole, and
of any other message nothing goes out.  Every frame that is sent holds the
complete encoding of the message or of the report. -/
structure AllOrNothing (cfg : NodeConfig) (id : Int) (msg : Msg) (nh : NodeHandle)
    (frames : List (List UInt8)) : Prop where
  tx : (publish cfg id msg nh).1.hardware.tx = nh.hardware.tx ++ frames
  all : msg.encodedLength + 8 ≤ cfg.OUTPUT_SIZE →
    (∃ payload, frames = [Wire.encode (topicField id) payload] ∧ msg.Encodes payload) ∧
      (publish cfg id msg nh).2 = msg.encodedLength + 8
  nothing : cfg.OUTPUT_SIZE < msg.encodedLength + 8 →
    (∀ frame ∈ frames, Wire.topicOf frame ≠ topicField id) ∧ (publish cfg id msg nh).2 = -1
  whole : ∀ frame ∈ frames, ∃ topic payload, frame = Wire.encode topic payload ∧
    (msg.Encodes payload ∨ report.Encodes payload)

/-- A message that is cut off is neither sent whole nor dropped. -/
theorem not_allOrNothing (h : nh.Initialised cfg) {id : Int} (hallowed : Allowed id nh)
    {msg : Msg} (hs : Straddles (cfg.OUTPUT_SIZE - 7) 0 (encapsulationItems ++ msg.items))
    (frames : List (List UInt8)) : ¬ AllOrNothing cfg id msg nh frames := by
  intro haon
  have hover : cfg.OUTPUT_SIZE < msg.encodedLength + 8 := by
    by_contra hle
    exact not_straddles_of_endPos_le (by rw [← Msg.encodedLength]; omega) hs
  obtain ⟨nh', payload, hpub, -⟩ := publishDepth_truncated h hallowed hs 1
  have hret := (haon.nothing hover).2
  rw [publish, hpub] at hret
  simp only at hret
  omega

/-- `publish` is all-or-nothing exactly for the messages that fit, and for those
whose primitives do not lie across the end of the buffer.  Of the latter, a
log message that is too long is replaced by another log message. -/
theorem allOrNothing_iff (h : nh.Initialised cfg) {id : Int} (hallowed : Allowed id nh)
    (msg : Msg) :
    (∃ frames, AllOrNothing cfg id msg nh frames) ↔
      msg.encodedLength + 8 ≤ cfg.OUTPUT_SIZE ∨
        (¬ Straddles (cfg.OUTPUT_SIZE - 7) 0 (encapsulationItems ++ msg.items) ∧
          topicField id ≠ 7) := by
  rcases Nat.lt_or_ge cfg.OUTPUT_SIZE (msg.encodedLength + 8) with hover | hfit
  · rw [or_iff_right (Nat.not_le.mpr hover)]
    by_cases hs : Straddles (cfg.OUTPUT_SIZE - 7) 0 (encapsulationItems ++ msg.items)
    · exact iff_of_false (fun ⟨frames, haon⟩ => not_allOrNothing h hallowed hs frames haon)
        fun hc => hc.1 hs
    · obtain ⟨nh', payload, hpub, hsends, hencodes⟩ := publishDepth_dropped h hallowed hover hs 0
      have htopic : Wire.topicOf (Wire.encode 7 payload) = 7 := Wire.topicOf_encode (by decide) _
      constructor
      · rintro ⟨frames, haon⟩
        have htx := haon.tx
        rw [publish, hpub, hsends.tx] at htx
        obtain rfl := List.append_cancel_left htx
        refine ⟨hs, ?_⟩
        rw [← htopic]
        exact ((haon.nothing hover).1 _ (by simp)).symm
      · rintro ⟨-, hid⟩
        refine ⟨[Wire.encode 7 payload], ?_, fun hfit => absurd hover (Nat.not_lt.mpr hfit),
          fun _ => ⟨?_, ?_⟩, ?_⟩
        · rw [publish, hpub, hsends.tx]
        · intro frame hframe
          rw [List.mem_singleton.mp hframe, htopic]
          exact hid.symm
        · rw [publish, hpub]
        · intro frame hframe
          exact ⟨7, payload, List.mem_singleton.mp hframe, Or.inr hencodes⟩
  · obtain ⟨nh', payload, hpub, hsends, hencodes⟩ := publishDepth_fits h hallowed hfit 1
    refine iff_of_true ⟨[Wire.encode (topicField id) payload], ?_,
      fun _ => ⟨⟨payload, rfl, hencodes⟩, ?_⟩, fun hover => absurd hfit (Nat.not_le.mpr hover),
      ?_⟩ (Or.inl hfit)
    · rw [publish, hpub, hsends.tx]
    · rw [publish, hpub]
    · intro frame hframe
      exact ⟨topicField id, payload, List.mem_singleton.mp hframe, Or.inl hencodes⟩

end Publish

/-! ## Arrays of doubles on a small board -/

/-- A node on the small board that has negotiated its topics. -/
def connectedNode : NodeHandle :=
  { initNode atmega168 (construct atmega168 idleHardware) with configured := true }

theorem connectedNode_initialised : connectedNode.Initialised atmega168 :=
  have h := construct_initialised atmega168 idleHardware
  ⟨h.messageIn, h.messageOut, h.outputInit, h.outputFinal, h.outputOrigin, h.inputInit,
    h.inputFinal, h.inputOrigin, h.publishers, h.subscribers⟩

/-- The message `float64[n] data`, all zero. -/
def doubles (n : Nat) : Msg where
  definition := .cons "data" (.primitive .float64) (.fixed n) .nil
  value :=
    let zero : Fin (256 ^ 8) := 0
    (⟨List.replicate n zero, List.length_replicate ..⟩, ())

/-- Sixteen doubles fit. -/
theorem doubles16_allOrNothing :
    ∃ frames, AllOrNothing atmega168 106 (doubles 16) connectedNode frames :=
  (allOrNothing_iff connectedNode_initialised (Or.inr rfl) (doubles 16)).mpr
    (Or.inl (by decide))

/-- Of seventeen doubles, the last one lies across the end of the buffer: it
starts at 136 of 143 bytes. -/
theorem doubles17_not_allOrNothing :
    connectedNode.Initialised atmega168 ∧ Allowed 106 connectedNode ∧
      ¬ ∃ frames, AllOrNothing atmega168 106 (doubles 17) connectedNode frames :=
  ⟨connectedNode_initialised, Or.inr rfl, fun ⟨frames, haon⟩ =>
    not_allOrNothing connectedNode_initialised (Or.inr rfl) (by decide) frames haon⟩

end Ros2Serial.Device
