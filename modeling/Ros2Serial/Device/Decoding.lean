import Ros2Serial.Device.Frames
import Ros2Serial.Wire.Decoder

/-!
# `spinOnce` as a decoder

The state machine of `spinOnce` is a decoder of the frame format, on a stream of
any bytes: it tests the checksum of the length before it reads the topic id, and
it skips a header whose topic is not valid (`devicePolicy`).

`Receiver.decoder` is the state machine, with two positions in the stream that the
code does not have: that of the next byte, and that of the last `ff` on which the
machine left `MODE_FIRST_FF`.  What it reports of a message is the content of
`message_in` up to `index_`.  It simulates the decoder with the policy
(`decoder_simulates`).  The only difference shows on payloads that do not fit
`message_in`.

`reports` is what a trace comes to, and `Acted` says which of the frames in it have
reached a branch of the chain behind a good checksum.
-/

namespace Ros2Serial.Device

open Bytes

/-! ## The state machine as a decoder -/

/-- How the device treats the frame format. -/
def devicePolicy (cfg : NodeConfig) : Wire.Policy where
  topicFirst := false
  verdict topic _ := if cfg.isTopicValid topic then .read else .skip

/-- The state machine, with the position of the next byte and that of the byte that it
started a frame with. -/
structure Decoding where
  pos : Nat
  start : Nat
  receiver : Receiver

/-- What a byte completes. -/
def Decoding.report (cfg : NodeConfig) (d : Decoding) (data : UInt8) : List Wire.Report :=
  let (r, reaction) := d.receiver.step cfg data
  match reaction with
  | .message topic =>
    [.frame ⟨d.start, d.pos + 1, topic.toNat, r.messageIn.take r.index.toNat⟩]
  | _ =>
    if d.receiver.mode = .SIZE_CHECKSUM ∧ r.mode = .FIRST_FF then [.badLength (d.pos + 1)] else []

/-- The state machine reads a byte, or drops what it has of a frame. -/
def Receiver.decoder (cfg : NodeConfig) : Transducer Decoding (Option UInt8) Wire.Report where
  step d
    | none => ({ d with receiver := { d.receiver with mode := .FIRST_FF } }, [])
    | some data =>
      let (r, reaction) := d.receiver.step cfg data
      ({ pos := d.pos + 1, start := if reaction = .sync then d.pos else d.start, receiver := r },
        d.report cfg data)

/-- The variables of the state machine are those of a stage. -/
inductive Matches (r : Receiver) : Wire.Stage → Prop
  | first (hmode : r.mode = .FIRST_FF) : Matches r .first
  | second (hmode : r.mode = .PROTOCOL_VER) : Matches r .second
  | sizeL (hmode : r.mode = .SIZE_L) : Matches r .sizeL
  | sizeH {l : UInt8} (hmode : r.mode = .SIZE_H) (hindex : r.index = 0)
      (hbytes : r.bytes = l.toNat) (hsum : r.checksum = l.toNat) : Matches r (.sizeH l)
  | sizeChecksum {l h : UInt8} (hmode : r.mode = .SIZE_CHECKSUM) (hindex : r.index = 0)
      (hbytes : r.bytes = Wire.word l h) (hsum : r.checksum = (l.toNat + h.toNat : Nat)) :
      Matches r (.sizeChecksum l h)
  | topicL {l h c : UInt8} (hmode : r.mode = .TOPIC_L) (hindex : r.index = 0)
      (hbytes : r.bytes = Wire.word l h) (hc : c = Wire.wordChecksum l h) :
      Matches r (.topicL l h c)
  | topicH {l h c t : UInt8} (hmode : r.mode = .TOPIC_H) (hindex : r.index = 0)
      (hbytes : r.bytes = Wire.word l h) (hc : c = Wire.wordChecksum l h)
      (htopic : r.topic = t.toNat) (hsum : r.checksum = t.toNat) : Matches r (.topicH l h c t)
  | body {topic length : Nat} {done : List UInt8}
      (hmode : r.mode = if done.length < length then .MESSAGE else .MSG_CHECKSUM)
      (hindex : r.index = done.length) (hbytes : r.bytes = (length : Int) - done.length)
      (htopic : r.topic = topic) (hsum : r.checksum = (topicSum topic + byteSum done : Nat))
      (hdone : r.messageIn.take done.length = done.take r.messageIn.length)
      (hle : done.length ≤ length) (hlength : length < 65536) : Matches r (.body topic length done)

/-- The two decoders stand at the same place. -/
structure Decoding.Agrees (cfg : NodeConfig) (d : Decoding) (a : Wire.Decoder) : Prop where
  pos : d.pos = a.pos
  start : d.start = a.start
  stage : Matches d.receiver a.stage
  input : d.receiver.messageIn.length = cfg.INPUT_SIZE

/-- A report, with no more of the payload than there is room for. -/
def cut (size : Nat) : Wire.Report → Wire.Report
  | .frame dispatch => .frame { dispatch with payload := dispatch.payload.take size }
  | .badLength resume => .badLength resume

section Step

variable {cfg : NodeConfig} {r : Receiver}

/-- Storing the next byte of a payload, whether there is room for it or not. -/
theorem storeAt_take_min {messageIn done : List UInt8} (data : UInt8)
    (hdone : messageIn.take done.length = done.take messageIn.length) :
    (storeAt messageIn done.length data).take (done ++ [data]).length =
      (done ++ [data]).take (storeAt messageIn done.length data).length := by
  have hlength : (storeAt messageIn done.length data).length = messageIn.length := by
    rw [storeAt, if_pos (Int.natCast_nonneg _), List.length_set]
  rw [hlength]
  rcases Nat.lt_or_ge done.length messageIn.length with hroom | hfull
  · rw [List.take_of_length_le (Nat.le_of_lt hroom)] at hdone
    rw [storeAt_take data hdone hroom, List.take_of_length_le]
    rw [List.length_append, List.length_singleton]
    omega
  · -- the store is outside `message_in`
    rw [List.take_of_length_le hfull] at hdone
    rw [storeAt, if_pos (Int.natCast_nonneg _), Int.toNat_natCast, List.set_eq_of_length_le hfull,
      List.take_append_of_le_length hfull, ← hdone, List.take_of_length_le]
    rw [List.length_append]
    omega

/-- The bytes of a payload so far, between two bytes. -/
theorem Matches.payload (topic length : Nat) (done : List UInt8) (hindex : r.index = done.length)
    (hbytes : r.bytes = (length : Int) - done.length) (htopic : r.topic = topic)
    (hsum : r.checksum = (topicSum topic + byteSum done : Nat))
    (hdone : r.messageIn.take done.length = done.take r.messageIn.length)
    (hle : done.length ≤ length) (hlength : length < 65536) :
    Matches { r with mode := if r.bytes = 0 then .MSG_CHECKSUM else .MESSAGE }
      (.body topic length done) := by
  refine .body ?_ hindex hbytes htopic hsum hdone hle hlength
  dsimp only
  rw [hbytes]
  split <;> split <;> first | rfl | omega

theorem topicSum_word (l h : UInt8) : topicSum (Wire.word l h) = l.toNat + h.toNat := by
  rw [topicSum, Wire.lo_word, Wire.hi_word]

/-- The test of a checksum is that of the frame format. -/
theorem Receiver.checksumGood_eq {n : Nat} (h : r.checksum = n) (hn : n < 2 ^ 30) (data : UInt8)
    (r' : Receiver) (hr' : r'.checksum = wrapInt (r.checksum + data.toNat)) :
    r'.checksumGood = decide (data = Wire.complement n) := by
  have hdata := data.toNat_lt
  have hsum : r'.checksum = (n + data.toNat : Nat) := by
    rw [hr', h, ← Int.natCast_add, wrapInt_natCast (by omega)]
  rw [Bool.eq_iff_iff, checksumGood_iff hsum, decide_eq_true_iff, Wire.sum_eq_iff]

/-- A header with a topic id and a good checksum of the length. -/
theorem Matches.step_topicH (cfg : NodeConfig) {l h c t : UInt8}
    (hmatches : Matches r (.topicH l h c t)) (data : UInt8) :
    Matches (r.step cfg data).1
      ((devicePolicy cfg).afterHeader (Wire.word t data) (Wire.word l h)) := by
  cases hmatches with
  | topicH hmode hindex hbytes hc htopic hsum =>
    have ht := t.toNat_lt
    have hdata := data.toNat_lt
    have htopic' : r.topic + data.toNat * 256 = Wire.word t data := by
      rw [htopic, Wire.word]
      omega
    have hsum' : wrapInt (r.checksum + data.toNat) =
        (topicSum (Wire.word t data) + byteSum [] : Nat) := by
      rw [hsum, ← Int.natCast_add, wrapInt_natCast (by omega), topicSum_word]
      rfl
    simp only [Receiver.step, hmode, htopic', Wire.Policy.afterHeader, devicePolicy]
    by_cases hvalid : cfg.isTopicValid (Wire.word t data) = true
    · simp only [hvalid, if_true]
      have hnext := Matches.payload (r := { r with
        topic := Wire.word t data, checksum := wrapInt (r.checksum + data.toNat) })
        (Wire.word t data) (Wire.word l h) [] hindex (by simpa using hbytes) rfl hsum'
        (by simp) (Nat.zero_le _) (Wire.word_lt l h)
      exact hnext
    · simp only [hvalid, Bool.false_eq_true, if_false]
      exact .first rfl

/-- A byte of a payload. -/
theorem Matches.step_message {topic length : Nat} {done : List UInt8}
    (hmatches : Matches r (.body topic length done)) (hmore : done.length < length)
    (data : UInt8) : Matches (r.step cfg data).1 (.body topic length (done ++ [data])) := by
  cases hmatches with
  | body hmode hindex hbytes htopic hsum hdone hle hlength =>
    rw [if_pos hmore] at hmode
    have hdata := data.toNat_lt
    have hsmall := sum_lt topic (show done.length < 65536 by omega)
    have hsum' : wrapInt (r.checksum + data.toNat) =
        (topicSum topic + byteSum (done ++ [data]) : Nat) := by
      rw [hsum, ← Int.natCast_add, wrapInt_natCast (by omega), byteSum_append, Nat.add_assoc]
      rfl
    have hstored := storeAt_take_min data hdone
    rw [← hindex] at hstored
    have hnext := Matches.payload (r := { r with
      messageIn := storeAt r.messageIn r.index data, index := r.index + 1, bytes := r.bytes - 1
      checksum := wrapInt (r.checksum + data.toNat) }) topic length (done ++ [data])
      (by simp [hindex]) (by simp [hbytes]; omega) htopic hsum' hstored
      (by rw [List.length_append, List.length_singleton]; exact hmore) hlength
    simp only [Receiver.step, hmode]
    exact hnext

/-- The byte of a checksum of the length. -/
theorem Matches.step_sizeChecksum (cfg : NodeConfig) {l h : UInt8}
    (hmatches : Matches r (.sizeChecksum l h)) (data : UInt8) :
    if data = Wire.wordChecksum l h then Matches (r.step cfg data).1 (.topicL l h data)
    else (r.step cfg data).1.mode = .FIRST_FF := by
  cases hmatches with
  | sizeChecksum hmode hindex hbytes hsum =>
    have hl := l.toNat_lt
    have hh := h.toNat_lt
    have hgood := Receiver.checksumGood_eq hsum (by omega) data { r with
      checksum := wrapInt (r.checksum + data.toNat) } rfl
    by_cases hc : data = Wire.wordChecksum l h
    · have hc' : data = Wire.complement (l.toNat + h.toNat) := hc
      rw [if_pos hc]
      rw [decide_eq_true hc'] at hgood
      simp only [hmode] at hgood
      simp only [Receiver.step, hmode, hgood, if_true]
      exact .topicL rfl hindex hbytes hc
    · have hc' : ¬ data = Wire.complement (l.toNat + h.toNat) := hc
      rw [if_neg hc]
      rw [decide_eq_false hc'] at hgood
      simp only [hmode] at hgood
      simp only [Receiver.step, hmode, hgood, Bool.false_eq_true, if_false]

/-- The byte of the checksum of a frame. -/
theorem Matches.step_msgChecksum (cfg : NodeConfig) {topic length : Nat} {done : List UInt8}
    (hmatches : Matches r (.body topic length done)) (hfull : ¬ done.length < length)
    (data : UInt8) :
    (r.step cfg data).1.mode = .FIRST_FF ∧ (r.step cfg data).1.messageIn = r.messageIn ∧
      (r.step cfg data).1.index = done.length ∧
      (r.step cfg data).2 =
        if data = Wire.messageChecksum topic done then .message topic else .quiet := by
  cases hmatches with
  | body hmode hindex hbytes htopic hsum hdone hle hlength =>
    rw [if_neg hfull] at hmode
    have hgood := Receiver.checksumGood_eq hsum
      (sum_lt topic (show done.length < 65536 by omega)) data { r with
        checksum := wrapInt (r.checksum + data.toNat) } rfl
    have hsame : Wire.messageChecksum topic done =
        Wire.complement (topicSum topic + byteSum done) := rfl
    simp only [hmode] at hgood
    simp only [Receiver.step, hmode, hgood, decide_eq_true_eq]
    refine ⟨trivial, trivial, hindex, ?_⟩
    rw [htopic, hsame]

theorem Matches.mode_first {stage : Wire.Stage} (h : Matches r stage) :
    r.mode = .FIRST_FF ↔ stage = .first := by
  cases h with
  | body hmode =>
    rw [hmode]
    split <;> simp
  | _ hmode => simp [hmode]

/-- The variables of the state machine are those of the stage after a byte. -/
theorem Matches.step {pos start : Nat} {stage : Wire.Stage} (h : Matches r stage) (data : UInt8) :
    Matches (r.step cfg data).1 ((devicePolicy cfg).read ⟨pos, start, stage⟩ data).1.stage := by
  cases stage with
  | first =>
    cases h with
    | first hmode =>
      by_cases hdata : data = 0xff
      · simp only [Receiver.step, hmode, Wire.Policy.read, hdata, if_true]
        exact .second rfl
      · simp only [Receiver.step, hmode, Wire.Policy.read, hdata, if_false]
        exact .first rfl
  | second =>
    cases h with
    | second hmode =>
      by_cases hdata : data = 0xfe
      · simp only [Receiver.step, hmode, Wire.Policy.read, PROTOCOL_VER, hdata, if_true]
        exact .sizeL rfl
      · simp only [Receiver.step, hmode, Wire.Policy.read, PROTOCOL_VER, hdata, if_false]
        exact .first rfl
  | sizeL =>
    cases h with
    | sizeL hmode =>
      simp only [Receiver.step, hmode, Wire.Policy.read]
      exact .sizeH rfl rfl rfl rfl
  | sizeH l =>
    cases h with
    | sizeH hmode hindex hbytes hsum =>
      have hl := l.toNat_lt
      have hh := data.toNat_lt
      simp only [Receiver.step, hmode, Wire.Policy.read]
      refine .sizeChecksum rfl hindex ?_ ?_
      · dsimp only
        rw [hbytes, Wire.word]
        omega
      · dsimp only
        rw [hsum, ← Int.natCast_add, wrapInt_natCast (by omega)]
  | sizeChecksum l hh =>
    have hnext := h.step_sizeChecksum cfg data
    by_cases hc : data = Wire.wordChecksum l hh
    · rw [if_pos hc] at hnext
      simpa [Wire.Policy.read, devicePolicy, hc] using hnext
    · rw [if_neg hc] at hnext
      simpa [Wire.Policy.read, devicePolicy, hc] using Matches.first hnext
  | topicL l hh c =>
    cases h with
    | topicL hmode hindex hbytes hc =>
      simp only [Receiver.step, hmode, Wire.Policy.read]
      exact .topicH rfl hindex hbytes hc rfl rfl
  | topicH l hh c t =>
    have hnext := h.step_topicH cfg data
    cases h with
    | topicH _ _ _ hc =>
      simpa only [Wire.Policy.read, if_pos hc] using hnext
  | body topic length done =>
    by_cases hmore : done.length < length
    · simpa only [Wire.Policy.read, if_pos hmore] using h.step_message hmore data
    · simpa only [Wire.Policy.read, if_neg hmore] using
        Matches.first (h.step_msgChecksum cfg hmore data).1
  | halted => cases h

/-- The machine leaves `MODE_FIRST_FF` on an `ff`. -/
theorem Receiver.step_sync_iff (data : UInt8) (r : Receiver) :
    (r.step cfg data).2 = .sync ↔ r.mode = .FIRST_FF ∧ data = 0xff := by
  unfold Receiver.step
  cases r.mode <;> simp <;> split <;> simp_all

/-- A message is complete with its checksum only. -/
theorem Receiver.step_not_message (cfg : NodeConfig) (data : UInt8)
    (hmode : r.mode ≠ .MSG_CHECKSUM) (topic : Int) :
    (r.step cfg data).2 ≠ .message topic := by
  intro hreaction
  simp only [Receiver.step] at hreaction
  split at hreaction
  all_goals first
    | exact hmode ‹_›
    | cases hreaction
    | (split at hreaction <;> cases hreaction)

end Step

section Agree

variable {cfg : NodeConfig}

/-- A byte that is no checksum of a frame. -/
theorem Decoding.report_header {d : Decoding} (hmode : d.receiver.mode ≠ .MSG_CHECKSUM)
    (data : UInt8) :
    d.report cfg data =
      if d.receiver.mode = .SIZE_CHECKSUM ∧ (d.receiver.step cfg data).1.mode = .FIRST_FF then
        [.badLength (d.pos + 1)]
      else [] := by
  have hquiet := Receiver.step_not_message cfg data hmode
  rcases hstep : d.receiver.step cfg data with ⟨r, reaction⟩
  rw [hstep] at hquiet
  simp only [Decoding.report, hstep]

/-- The machine reports what the decoder reports, up to the room in `message_in`. -/
theorem Decoding.Agrees.report {d : Decoding} {a : Wire.Decoder} (h : d.Agrees cfg a)
    (data : UInt8) :
    d.report cfg data = (((devicePolicy cfg).read a data).2).map (cut cfg.INPUT_SIZE) := by
  obtain ⟨pos, start, r⟩ := d
  obtain ⟨apos, astart, stage⟩ := a
  obtain ⟨rfl, rfl, hmatches, hinput⟩ := h
  dsimp only at hmatches hinput
  have hquiet : r.mode ≠ .SIZE_CHECKSUM → r.mode ≠ .MSG_CHECKSUM →
      Decoding.report cfg ⟨pos, start, r⟩ data = [] := by
    intro hchecksum hmessage
    rw [Decoding.report_header hmessage, if_neg fun h => hchecksum h.1]
  cases stage with
  | first =>
    cases hmatches with
    | first hmode =>
      rw [hquiet (by simp [hmode]) (by simp [hmode])]
      unfold Wire.Policy.read
      dsimp only
      split <;> rfl
  | second =>
    cases hmatches with
    | second hmode => exact hquiet (by simp [hmode]) (by simp [hmode])
  | sizeL =>
    cases hmatches with
    | sizeL hmode => exact hquiet (by simp [hmode]) (by simp [hmode])
  | sizeH l =>
    cases hmatches with
    | sizeH hmode => exact hquiet (by simp [hmode]) (by simp [hmode])
  | sizeChecksum l hh =>
    have hnext := hmatches.step_sizeChecksum cfg data
    cases hmatches with
    | sizeChecksum hmode =>
      rw [Decoding.report_header (by simp [hmode])]
      by_cases hc : data = Wire.wordChecksum l hh
      · rw [if_pos hc] at hnext
        have hmode' : (r.step cfg data).1.mode ≠ .FIRST_FF := by
          cases hnext with
          | topicL hmode' => simp [hmode']
        rw [if_neg fun h => hmode' h.2]
        simp [Wire.Policy.read, devicePolicy, hc]
      · rw [if_neg hc] at hnext
        simp [Wire.Policy.read, devicePolicy, hc, hmode, hnext, cut]
  | topicL l hh c =>
    cases hmatches with
    | topicL hmode => exact hquiet (by simp [hmode]) (by simp [hmode])
  | topicH l hh c t =>
    cases hmatches with
    | topicH hmode _ _ hc =>
      rw [hquiet (by simp [hmode]) (by simp [hmode])]
      simp only [Wire.Policy.read, if_pos hc, List.map_nil]
  | body topic length done =>
    by_cases hmore : done.length < length
    · cases hmatches with
      | body hmode =>
        rw [if_pos hmore] at hmode
        rw [hquiet (by simp [hmode]) (by simp [hmode])]
        simp only [Wire.Policy.read, if_pos hmore, List.map_nil]
    · obtain ⟨hmode', hmem, hindex', hreaction⟩ := hmatches.step_msgChecksum cfg hmore data
      cases hmatches with
      | body hmode hindex hbytes htopic hsum hdone =>
        rw [if_neg hmore] at hmode
        simp only [Wire.Policy.read, if_neg hmore]
        unfold Decoding.report
        simp only [hreaction, hmem, hindex', Int.toNat_natCast, hdone, hinput]
        by_cases hc : data = Wire.messageChecksum topic done
        · rw [if_pos hc, if_pos hc]
          rfl
        · rw [if_neg hc, if_neg hc]
          simp [hmode]
  | halted => cases hmatches

/-- The positions after a byte. -/
theorem devicePolicy_read_pos (cfg : NodeConfig) (a : Wire.Decoder) (data : UInt8) :
    ((devicePolicy cfg).read a data).1.pos = a.pos + 1 ∧
      ((devicePolicy cfg).read a data).1.start =
        if a.stage = .first ∧ data = 0xff then a.pos else a.start := by
  obtain ⟨pos, start, stage⟩ := a
  unfold Wire.Policy.read
  cases stage <;> simp <;> split <;> simp_all

/-- The state machine of `spinOnce` is the decoder with the device's policy. -/
theorem decoder_simulates (cfg : NodeConfig) :
    (Receiver.decoder cfg).Simulates (devicePolicy cfg).decoder (Decoding.Agrees cfg)
      (cut cfg.INPUT_SIZE) := by
  intro d a input h
  cases input with
  | none => exact ⟨⟨h.pos, h.start, .first rfl, h.input⟩, rfl⟩
  | some data =>
    obtain ⟨hpos, hstart⟩ := devicePolicy_read_pos cfg a data
    refine ⟨⟨?_, ?_, h.stage.step data, ?_⟩, h.report data⟩
    · exact (congrArg (· + 1) h.pos).trans hpos.symm
    · refine Eq.trans ?_ hstart.symm
      have hiff : (d.receiver.step cfg data).2 = .sync ↔ a.stage = .first ∧ data = 0xff := by
        rw [Receiver.step_sync_iff, h.stage.mode_first]
      show (if (d.receiver.step cfg data).2 = .sync then d.pos else d.start) = _
      rw [h.pos, h.start]
      exact if_congr hiff rfl rfl
    · exact (Receiver.step_messageIn_length data d.receiver).trans h.input

/-- Only a frame whose checksum has come is a message, and its topic is a number. -/
theorem Decoding.Agrees.topic {d : Decoding} {a : Wire.Decoder} (h : d.Agrees cfg a)
    {data : UInt8} {topic : Int} (hreaction : (d.receiver.step cfg data).2 = .message topic) :
    0 ≤ topic := by
  have hmode : d.receiver.mode = .MSG_CHECKSUM := by
    by_contra hmode
    exact Receiver.step_not_message cfg data hmode topic hreaction
  have htopic : topic = d.receiver.topic := by
    simp only [Receiver.step, hmode] at hreaction
    split at hreaction <;> cases hreaction
    rfl
  have hmatches := h.stage
  generalize a.stage = stage at hmatches
  cases hmatches with
  | body _ _ _ htopic' =>
    rw [htopic, htopic']
    exact Int.natCast_nonneg _
  | _ hmode' => simp [hmode] at hmode'

end Agree

/-! ## Traces -/

/-- The inputs of the state machine in a trace. -/
def inputs (events : List Event) : List (Option UInt8) :=
  events.filterMap fun
    | .reset => some none
    | .read data _ => some (some data)
    | _ => none

/-- What a trace comes to, from a state of the state machine. -/
def reports (cfg : NodeConfig) (r : Receiver) (events : List Event) : List Wire.Report :=
  (Receiver.decoder cfg).output ⟨0, 0, r⟩ (inputs events)

@[simp] theorem inputs_append (xs ys : List Event) :
    inputs (xs ++ ys) = inputs xs ++ inputs ys := List.filterMap_append

theorem bytesOf_inputs (events : List Event) : Wire.bytesOf (inputs events) = bytesRead events := by
  induction events with
  | nil => rfl
  | cons event events ih =>
    cases event with
    | read data reaction => exact congrArg (data :: ·) ih
    | _ => exact ih

theorem Acts.inputs {cfg : NodeConfig} {registered : Int → Prop} {messageIn : List UInt8}
    {reaction : Reaction} {acts : List Event} (h : Acts cfg registered messageIn reaction acts) :
    inputs acts = [] := by
  cases h <;> rfl

/-- Without a timeout the inputs are the bytes. -/
theorem inputs_of_no_reset {events : List Event} (h : .reset ∉ events) :
    inputs events = (bytesRead events).map some := by
  induction events with
  | nil => rfl
  | cons event events ih =>
    have hrest := ih fun hmem => h (List.mem_cons_of_mem _ hmem)
    cases event with
    | reset => exact absurd List.mem_cons_self h
    | read data reaction => exact congrArg (some data :: ·) hrest
    | _ => exact hrest

/-- The branches that were taken are those of the frames, in order, and only a frame whose
topic has no branch takes none. -/
inductive Acted (cfg : NodeConfig) (registered : Int → Prop) :
    List (Branch × List UInt8) → List (Nat × List UInt8) → Prop
  | nil : Acted cfg registered [] []
  | act {act : Branch × List UInt8} {frame : Nat × List UInt8}
      {acts : List (Branch × List UInt8)} {frames : List (Nat × List UInt8)}
      (hserves : Serves act frame) (h : Acted cfg registered acts frames) :
      Acted cfg registered (act :: acts) (frame :: frames)
  | pass {frame : Nat × List UInt8} {acts : List (Branch × List UInt8)}
      {frames : List (Nat × List UInt8)}
      (hunhandled : ¬ (cfg.isTopicValid frame.1 = true ∧ Handled registered frame.1))
      (h : Acted cfg registered acts frames) : Acted cfg registered acts (frame :: frames)

section Trace

variable {cfg : NodeConfig} {registered : Int → Prop}

/-- Where all topics have a branch, all frames take one. -/
theorem Acted.all {acts : List (Branch × List UInt8)} {frames : List (Nat × List UInt8)}
    (h : Acted cfg registered acts frames)
    (hhandled : ∀ frame ∈ frames, cfg.isTopicValid frame.1 = true ∧ Handled registered frame.1) :
    List.Forall₂ Serves acts frames := by
  induction h with
  | nil => exact .nil
  | act hserves _ ih =>
    exact .cons hserves (ih fun frame hframe => hhandled frame (List.mem_cons_of_mem _ hframe))
  | pass hunhandled => exact absurd (hhandled _ List.mem_cons_self) hunhandled

theorem Acted.append {acts acts' : List (Branch × List UInt8)}
    {frames frames' : List (Nat × List UInt8)} (h : Acted cfg registered acts frames)
    (h' : Acted cfg registered acts' frames') :
    Acted cfg registered (acts ++ acts') (frames ++ frames') := by
  induction h with
  | nil => exact h'
  | act hserves _ ih => exact .act hserves ih
  | pass hunhandled _ ih => exact .pass hunhandled ih

/-- The content of `message_in` up to `index_`, which a message is reported with. -/
theorem serves_of_branch {branch : Branch} {topic : Int} {messageIn : List UInt8} {index : Nat}
    (hbranch : branch = branchOf topic) (htopic : 0 ≤ topic) :
    Serves (branch, messageIn) (topic.toNat, messageIn.take index) := by
  refine ⟨?_, ?_⟩
  · rw [hbranch, Int.toNat_of_nonneg htopic]
  · dsimp only
    rw [List.length_take, List.take_eq_take_iff]
    omega

/-- The events behind a byte are those of the frame that it completes. -/
theorem Acts.acted {d : Decoding} {a : Wire.Decoder} (hagrees : d.Agrees cfg a) {data : UInt8}
    {acts : List Event}
    (h : Acts cfg registered (d.receiver.step cfg data).1.messageIn (d.receiver.step cfg data).2
      acts) :
    Acted cfg registered (taken acts) (Wire.frames (d.report cfg data)) := by
  have htopic : ∀ topic, (d.receiver.step cfg data).2 = .message topic → 0 ≤ topic :=
    fun topic => hagrees.topic
  rcases hstep : d.receiver.step cfg data with ⟨r, reaction⟩
  rw [hstep] at h htopic
  have hreport : ∀ topic : Int, reaction = .message topic →
      Wire.frames (d.report cfg data) = [(topic.toNat, r.messageIn.take r.index.toNat)] := by
    intro topic htopic
    subst htopic
    simp only [Decoding.report, hstep]
    rfl
  dsimp only at h
  cases h with
  | silent hsilent =>
    have hnone : Wire.frames (d.report cfg data) = [] := by
      simp only [Decoding.report, hstep]
      split <;> rfl
    rw [hnone]
    exact .nil
  | @special topic branch hspecial =>
    rw [hreport topic rfl]
    refine .act (serves_of_branch ?_ (htopic _ rfl)) .nil
    rw [branchOf, hspecial]
    rfl
  | @invalid topic hspecial hinvalid =>
    rw [hreport topic rfl]
    refine .pass (fun hhandled => ?_) .nil
    have hvalid := hhandled.1
    rw [Int.toNat_of_nonneg (htopic _ rfl), hinvalid] at hvalid
    cases hvalid
  | @subscriber topic hspecial hvalid =>
    rw [hreport topic rfl]
    refine .act (serves_of_branch ?_ (htopic _ rfl)) .nil
    rw [branchOf, hspecial]
    rfl
  | @empty topic hspecial hvalid hempty =>
    rw [hreport topic rfl]
    refine .pass (fun hhandled => ?_) .nil
    rcases hhandled.2 with hsome | hregistered
    · rw [Int.toNat_of_nonneg (htopic _ rfl), hspecial] at hsome
      cases hsome
    · rw [Int.toNat_of_nonneg (htopic _ rfl)] at hregistered
      exact hempty hregistered

/-- The branches along a trace are those of the frames in it. -/
theorem Follows.acted {r r' : Receiver} {events : List Event}
    (h : Follows cfg registered r events r') {d : Decoding} {a : Wire.Decoder}
    (hagrees : d.Agrees cfg a) (hr : d.receiver = r) :
    Acted cfg registered (taken events)
      (Wire.frames ((Receiver.decoder cfg).output d (inputs events))) := by
  induction h generalizing d a with
  | nil r => exact .nil
  | @reset r r' events _ ih =>
    have hnext := (decoder_simulates cfg d a none hagrees).1
    have hacted := ih hnext (by rw [← hr]; rfl)
    have hsplit : (Receiver.decoder cfg).output d (inputs (.reset :: events)) =
        (Receiver.decoder cfg).output ((Receiver.decoder cfg).step d none).1 (inputs events) := rfl
    rw [hsplit]
    exact hacted
  | @read r r' data acts events hacts _ ih =>
    subst hr
    have hnext := (decoder_simulates cfg d a (some data) hagrees).1
    have hinputs : inputs (.read data (d.receiver.step cfg data).2 :: (acts ++ events)) =
        some data :: inputs events := by
      have happend : inputs (acts ++ events) = inputs events := by
        rw [inputs_append, hacts.inputs, List.nil_append]
      exact congrArg (some data :: ·) happend
    have htaken : taken (.read data (d.receiver.step cfg data).2 :: (acts ++ events)) =
        taken acts ++ taken events := by
      simp [taken]
    rw [hinputs, htaken, Transducer.output_cons, Wire.frames_append]
    exact (hacts.acted hagrees).append (ih hnext rfl)

/-- The reports of a trace from `MODE_FIRST_FF` are those of the decoder on its inputs. -/
theorem reports_eq {r : Receiver} (hmode : r.mode = .FIRST_FF)
    (hinput : r.messageIn.length = cfg.INPUT_SIZE) (events : List Event) :
    reports cfg r events =
      ((devicePolicy cfg).decoder.output (Wire.searching 0 0) (inputs events)).map
        (cut cfg.INPUT_SIZE) :=
  (decoder_simulates cfg).output (s := ⟨0, 0, r⟩) (t := Wire.searching 0 0)
    ⟨rfl, rfl, .first hmode, hinput⟩ (inputs events)

end Trace

end Ros2Serial.Device
