import Ros2Serial.Device.Answer

/-!
# What a program says

The frames of a node are of two kinds.  Some carry what the program has published or logged, from
its own code or from a callback, and the others the node writes by itself: announcements and
requests of the time.

* `Speech` is what the callbacks publish, by the content of `message_in`.
* `Transcript` sets the frames against the messages, in the same order.  A frame of the first kind
  is the complete encoding of its message, or the report that the message was too long.  A message
  of a node that is not connected has no frame.
* `Conveys` says so of what a function writes, and `Speaks` follows the rule of `spinOnce`, as
  `Emits` does.

A message with a primitive across the end of `message_out` is cut off and sent
(`publish_truncated`).  Such messages are left out here (`Msg.Whole`).
-/

namespace Ros2Serial.Device

open Bytes PlainCdr Ucdr Generator

/-! ## Messages and frames -/

/-- What a program does that can be heard. -/
inductive Utterance
  | publish (id : Int) (msg : Msg)
  /-- A callback is called, with this content of `message_in`. -/
  | callback (index : Nat) (messageIn : List UInt8)

/-- The messages that a callback may publish, by the content of `message_in`. -/
abbrev Speech := Nat → List UInt8 → List (Int × Msg) → Prop

/-- The messages that are published, in order. -/
inductive Says (speech : Speech) : List Utterance → List (Int × Msg) → Prop
  | nil : Says speech [] []
  | publish {us : List Utterance} {ms : List (Int × Msg)} (id : Int) (msg : Msg)
      (h : Says speech us ms) : Says speech (.publish id msg :: us) ((id, msg) :: ms)
  | callback {us : List Utterance} {said ms : List (Int × Msg)} {index : Nat}
      {messageIn : List UInt8} (hsaid : speech index messageIn said) (h : Says speech us ms) :
      Says speech (.callback index messageIn :: us) (said ++ ms)

/-- A frame that the node writes by itself. -/
def ByItself (frame : Nat × List UInt8) : Prop :=
  frame.1 < 100 ∧ frame.1 ≠ topicField TopicInfo.ID_LOG

instance (frame : Nat × List UInt8) : Decidable (ByItself frame) :=
  inferInstanceAs (Decidable (_ ∧ _))

/-- The frame carries the message, or the report that it is too long. -/
def Carries (cfg : NodeConfig) (frame : Nat × List UInt8) (m : Int × Msg) : Prop :=
  frame.1 = topicField m.1 ∧ m.2.Encodes frame.2 ∨
    frame.1 = topicField TopicInfo.ID_LOG ∧ report.Encodes frame.2 ∧
      cfg.OUTPUT_SIZE < m.2.encodedLength + 8

/-- Frames, and the messages that were published meanwhile. -/
inductive Transcript (cfg : NodeConfig) : List (Nat × List UInt8) → List (Int × Msg) → Prop
  | nil : Transcript cfg [] []
  | said {frames : List (Nat × List UInt8)} {ms : List (Int × Msg)} {frame : Nat × List UInt8}
      {m : Int × Msg} (hcarries : Carries cfg frame m) (h : Transcript cfg frames ms) :
      Transcript cfg (frame :: frames) (m :: ms)
  | unsent {frames : List (Nat × List UInt8)} {ms : List (Int × Msg)} (m : Int × Msg)
      (h : Transcript cfg frames ms) : Transcript cfg frames (m :: ms)
  | byItself {frames : List (Nat × List UInt8)} {ms : List (Int × Msg)}
      {frame : Nat × List UInt8} (hframe : ByItself frame) (h : Transcript cfg frames ms) :
      Transcript cfg (frame :: frames) ms

theorem Says.append {speech : Speech} {us us' : List Utterance} {ms ms' : List (Int × Msg)}
    (h : Says speech us ms) (h' : Says speech us' ms') : Says speech (us ++ us') (ms ++ ms') := by
  induction h with
  | nil => exact h'
  | publish id msg _ ih => exact .publish id msg ih
  | callback hsaid _ ih =>
    rw [List.append_assoc]
    exact .callback hsaid ih

section Transcript

variable {cfg : NodeConfig} {frames more : List (Nat × List UInt8)} {ms ms' : List (Int × Msg)}

theorem Transcript.append (h : Transcript cfg frames ms) (h' : Transcript cfg more ms') :
    Transcript cfg (frames ++ more) (ms ++ ms') := by
  induction h with
  | nil => exact h'
  | said hcarries _ ih => exact .said hcarries ih
  | unsent m _ ih => exact .unsent m ih
  | byItself hframe _ ih => exact .byItself hframe ih

theorem Transcript.of_byItself (h : ∀ frame ∈ frames, ByItself frame) :
    Transcript cfg frames [] := by
  induction frames with
  | nil => exact .nil
  | cons frame frames ih =>
    exact .byItself (h frame List.mem_cons_self)
      (ih fun f hf => h f (List.mem_cons_of_mem _ hf))

/-- The other frames carry messages, in order and each of them another one. -/
theorem Transcript.sublist (h : Transcript cfg frames ms) {keep : Nat × List UInt8 → Bool}
    (hkeep : ∀ frame, keep frame = true → ¬ ByItself frame) :
    List.SublistForall₂ (Carries cfg) (frames.filter keep) ms := by
  induction h with
  | nil => exact .nil
  | @said frames ms frame m hcarries _ ih =>
    cases hkept : keep frame with
    | true =>
      rw [List.filter_cons_of_pos hkept]
      exact .cons hcarries ih
    | false =>
      rw [List.filter_cons_of_neg (by simp [hkept])]
      exact .cons_right ih
  | unsent m _ ih => exact .cons_right ih
  | @byItself frames ms frame hframe _ ih =>
    rw [List.filter_cons_of_neg fun hkept => hkeep frame hkept hframe]
    exact ih

end Transcript

/-- What was written from `nh` to `nh'` are the frames of these messages. -/
def Conveys (cfg : NodeConfig) (nh : NodeHandle) (ms : List (Int × Msg)) (nh' : NodeHandle) :
    Prop :=
  ∃ sent : List (Nat × List UInt8),
    nh'.hardware.tx = nh.hardware.tx ++ sent.map frameOf ∧ Transcript cfg sent ms

section Conveys

variable {cfg : NodeConfig} {a b c : NodeHandle} {ms ms' : List (Int × Msg)}

theorem Conveys.trans (h : Conveys cfg a ms b) (h' : Conveys cfg b ms' c) :
    Conveys cfg a (ms ++ ms') c := by
  obtain ⟨sent, htx, htranscript⟩ := h
  obtain ⟨more, htx', htranscript'⟩ := h'
  refine ⟨sent ++ more, ?_, htranscript.append htranscript'⟩
  rw [htx', htx, List.map_append, List.append_assoc]

/-- Nothing was written. -/
theorem Conveys.of_tx (htx : b.hardware.tx = a.hardware.tx) : Conveys cfg a [] b :=
  ⟨[], by simp [htx], .nil⟩

end Conveys

/-! ## `publish` -/

/-- No primitive of the message lies across the end of `message_out`. -/
def Msg.Whole (cfg : NodeConfig) (msg : Msg) : Prop :=
  ¬ Straddles (cfg.OUTPUT_SIZE - 7) 0 (encapsulationItems ++ msg.items)

instance (cfg : NodeConfig) (msg : Msg) : Decidable (msg.Whole cfg) :=
  inferInstanceAs (Decidable (¬ _))

/-- A message that fits is not cut off. -/
theorem Msg.whole_of_fits {cfg : NodeConfig} {msg : Msg}
    (h : msg.encodedLength + 8 ≤ cfg.OUTPUT_SIZE) : msg.Whole cfg := by
  refine not_straddles_of_endPos_le ?_
  rw [← Msg.encodedLength]
  omega

/-- The only primitives of a log message are in front of its text. -/
theorem logMsg_whole (cfg : NodeConfig) (level : Fin 256) (text : CString) :
    (logMsg level text).Whole cfg := by
  have hfits := cfg.logFits
  have hitems : encapsulationItems ++ (logMsg level text).items =
      [.prim .one 0x00, .prim .one 0x01, .octets [0x00, 0x00], .prim .one level.val,
        .prim .four (text.val.length + 1), .octets (text.val ++ [0])] := rfl
  rw [Msg.Whole, hitems]
  simp only [Straddles, Item.Straddles, Item.endPos, Width.bytes, padding, or_false, false_or,
    List.length_cons, List.length_nil]
  omega

section Publish

variable {cfg : NodeConfig} {nh : NodeHandle}

/-- What `publish` sends: the message or the report, or nothing where the node is not connected. -/
theorem publish_conveys (h : nh.Initialised cfg) (id : Int) {msg : Msg}
    (hwhole : msg.Whole cfg) : Conveys cfg nh [(id, msg)] (publish cfg id msg nh).1 := by
  rw [publish]
  by_cases hallowed : Allowed id nh
  · rcases Nat.lt_or_ge cfg.OUTPUT_SIZE (msg.encodedLength + 8) with hover | hfit
    · obtain ⟨nh', payload, hpub, hsends, hencodes⟩ :=
        publishDepth_dropped h hallowed hover hwhole 0
      exact ⟨[(topicField TopicInfo.ID_LOG, payload)], by rw [hpub]; exact hsends.tx,
        .said (Or.inr ⟨rfl, hencodes, hover⟩) .nil⟩
    · obtain ⟨nh', payload, hpub, hsends, hencodes⟩ := publishDepth_fits h hallowed hfit 1
      exact ⟨[(topicField id, payload)], by rw [hpub]; exact hsends.tx,
        .said (Or.inl ⟨rfl, hencodes⟩) .nil⟩
  · rw [publishDepth_of_not_allowed hallowed]
    exact ⟨[], by simp, .unsent _ .nil⟩

end Publish

/-! ## What a function says -/

/-- What a function of a node does, while the program does this. -/
structure Speaks (cfg : NodeConfig) (speech : Speech) (nh : NodeHandle) (us : List Utterance)
    (nh' : NodeHandle) : Prop where
  emits : Emits cfg nh nh'
  spoken : ∃ ms, Says speech us ms ∧ Conveys cfg nh ms nh'

/-- The callbacks that are called in a trace. -/
def called (events : List Event) : List Utterance :=
  events.filterMap fun
    | .act (.subscriber index) messageIn =>
      if 0 ≤ index then some (.callback index.toNat messageIn) else none
    | _ => none

/-- The callbacks publish what `speech` allows for the content of `message_in`. -/
def Callbacks.Speak {cfg : NodeConfig} (callbacks : Callbacks cfg) (speech : Speech) : Prop :=
  ∀ i nh, Enrolled cfg nh → ∃ ms,
    speech i nh.receiver.messageIn ms ∧ Conveys cfg nh ms (callbacks.run i (openInput nh))

section Functions

variable {cfg : NodeConfig} {nh : NodeHandle} {callbacks : Callbacks cfg} {speech : Speech}

theorem Speaks.trans {a b c : NodeHandle} {us us' : List Utterance} (h : Speaks cfg speech a us b)
    (h' : Speaks cfg speech b us' c) : Speaks cfg speech a (us ++ us') c := by
  obtain ⟨ms, hspoken, hconveys⟩ := h.spoken
  obtain ⟨ms', hspoken', hconveys'⟩ := h'.spoken
  exact ⟨h.emits.trans h'.emits, ms ++ ms', hspoken.append hspoken', hconveys.trans hconveys'⟩

/-- A function that writes frames of the node's own only. -/
theorem Speaks.silent {nh' : NodeHandle} (h : Emits cfg nh nh') {sent : List (Nat × List UInt8)}
    (htx : nh'.hardware.tx = nh.hardware.tx ++ sent.map frameOf)
    (hsent : ∀ frame ∈ sent, ByItself frame) : Speaks cfg speech nh [] nh' :=
  ⟨h, [], .nil, sent, htx, .of_byItself hsent⟩

/-- A function that writes nothing. -/
theorem Speaks.of_tx {nh' : NodeHandle} (h : Emits cfg nh nh')
    (htx : nh'.hardware.tx = nh.hardware.tx) : Speaks cfg speech nh [] nh' :=
  ⟨h, [], .nil, .of_tx htx⟩

theorem requestSyncTime_speaks (h : Enrolled cfg nh) :
    Speaks cfg speech nh [] (requestSyncTime cfg nh) := by
  have hfit : (timeMsg 0x78563412 0x78563412).encodedLength + 8 ≤ cfg.OUTPUT_SIZE :=
    Nat.le_trans (by decide) cfg.logFits
  obtain ⟨nh', payload, hpub, hsends, -⟩ :=
    publishDepth_fits h.initialised (Or.inl (by decide : TopicInfo.ID_TIME < 100)) hfit 1
  have htx : (requestSyncTime cfg nh).hardware.tx =
      nh.hardware.tx ++ [(topicField TopicInfo.ID_TIME, payload)].map frameOf := by
    show (publish cfg TopicInfo.ID_TIME (timeMsg 0x78563412 0x78563412) nh).1.hardware.tx = _
    rw [publish, hpub]
    exact hsends.tx
  have hframe : ByItself (topicField TopicInfo.ID_TIME, payload) :=
    ⟨by dsimp only; decide, by dsimp only; decide⟩
  exact .silent (requestSyncTime_emits h) htx fun f hf => List.mem_singleton.mp hf ▸ hframe

/-- A frame of one of the loops of `negotiateTopics`. -/
theorem byItself_of_isSetup {e : Endpoint} (h : e.IsSetup) (payload : List UInt8) :
    ByItself (topicField e.endpoint, payload) := by
  have hkinds : topicField e.endpoint < 100 ∧
      topicField e.endpoint ≠ topicField TopicInfo.ID_LOG := by
    simp only [Endpoint.IsSetup, List.mem_cons, List.not_mem_nil, or_false] at h
    rcases h with h | h | h | h | h | h <;> rw [h] <;> decide
  exact hkinds

theorem negotiateTopics_speaks (h : Enrolled cfg nh) :
    Speaks cfg speech nh [] (negotiateTopics cfg nh) := by
  have hemits := negotiateTopics_emits h
  have hentries := announcements_fit h
  obtain ⟨frames, htx, hall⟩ :=
    negotiateTopics_sends h.initialised fun entry hentry => (hentries entry hentry).1
  have hframes : ∀ frame ∈ frames, ∃ f, frame = frameOf f ∧ ByItself f := by
    intro frame hframe
    obtain ⟨entry, hentry, hsent⟩ := exists_of_forall₂ hall.flip hframe
    obtain ⟨payload, rfl, -⟩ := hsent.announces (hentries entry hentry).2
    exact ⟨(topicField entry.1.endpoint, payload), rfl,
      byItself_of_isSetup (hentries entry hentry).1 payload⟩
  obtain ⟨sent, rfl, hsent⟩ := exists_map_of_forall hframes
  exact .silent hemits htx hsent

theorem called_append (xs ys : List Event) : called (xs ++ ys) = called xs ++ called ys :=
  List.filterMap_append

theorem publish_not_mem_called (id : Int) (msg : Msg) (events : List Event) :
    .publish id msg ∉ called events := by
  intro hmem
  obtain ⟨event, -, hevent⟩ := List.mem_filterMap.mp hmem
  split at hevent
  · split at hevent <;> cases hevent
  · cases hevent

/-- In a branch of `spinOnce`, only a callback says something. -/
theorem dispatch_speaks (hcallbacks : callbacks.Proper) (hspeak : callbacks.Speak speech)
    (h : Enrolled cfg nh) (c_time : UInt32) (topic : Int) :
    Speaks cfg speech nh (called (dispatch cfg callbacks c_time topic nh).events)
      (dispatch cfg callbacks c_time topic nh).nh := by
  refine ⟨dispatch_emits hcallbacks h c_time topic, ?_⟩
  have hnothing : ∃ ms, Says speech [] ms ∧ Conveys cfg nh ms nh := ⟨[], .nil, .of_tx rfl⟩
  unfold dispatch
  dsimp only
  split
  · have hsync : Speaks cfg speech nh [] (requestSyncTime cfg nh) := requestSyncTime_speaks h
    exact (hsync.trans (negotiateTopics_speaks hsync.emits.enrolled)).spoken
  split
  · exact hnothing
  split
  · exact hnothing
  split
  · exact hnothing
  split
  · split
    · rename_i e hat
      obtain ⟨ms, hsaid, hconveys⟩ := hspeak (topic - 100).toNat nh h
      have hspoken := Says.callback hsaid .nil
      rw [List.append_nil] at hspoken
      have hle : 0 ≤ topic - 100 := by
        by_contra hneg
        rw [NodeHandle.subscriberAt, if_neg hneg] at hat
        cases hat
      have hcalled : called [.access (topic - 100),
          .act (.subscriber (topic - 100)) nh.receiver.messageIn] =
            [.callback (topic - 100).toNat nh.receiver.messageIn] :=
        (List.filterMap_cons_none rfl).trans (List.filterMap_cons_some (if_pos hle))
      exact ⟨ms, hcalled ▸ hspoken, hconveys⟩
    · exact hnothing
  · exact hnothing

theorem called_of_isQuiet {events : List Event} (h : ∀ e ∈ events, e.IsQuiet) :
    called events = [] := by
  refine List.filterMap_eq_nil_iff.mpr fun e he => ?_
  have hquiet := h e he
  cases e with
  | reset => rfl
  | read data reaction => rfl
  | access index => exact hquiet.elim
  | act branch messageIn => exact hquiet.elim

theorem speaks_rule (hcallbacks : callbacks.Proper) (hspeak : callbacks.Speak speech) :
    SpinRule cfg callbacks (Enrolled cfg)
      fun nh events nh' => Speaks cfg speech nh (called events) nh' where
  keep h := h.emits.enrolled
  trans h h' := by
    rw [called_append]
    exact h.trans h'
  quiet h hquiet hevents := by
    rw [called_of_isQuiet hevents]
    exact .of_tx (.quiet h hquiet) hquiet.tx
  sync h := requestSyncTime_speaks h
  dispatch c_time topic h := dispatch_speaks hcallbacks hspeak h c_time topic

/-! ## Calls -/

/-- What a program does with a call. -/
def Call.utterances (cfg : NodeConfig) (callbacks : Callbacks cfg) (nh : NodeHandle) :
    Call → List Utterance
  | .publish id msg => [.publish id msg]
  | .log level text => [.publish TopicInfo.ID_LOG (logMsg level text)]
  | call => called (call.run cfg callbacks nh).2

/-- `publish` does not cut the message off. -/
def Call.Whole (cfg : NodeConfig) : Call → Prop
  | .publish _ msg => msg.Whole cfg
  | _ => True

theorem Call.run_speaks (hcallbacks : callbacks.Proper) (hspeak : callbacks.Speak speech)
    (h : Enrolled cfg nh) {call : Call} (hproper : call.Proper callbacks nh) (hwhole : call.Whole cfg) :
    Speaks cfg speech nh (call.utterances cfg callbacks nh) (callStep cfg callbacks nh call) := by
  have hemits := Call.run_emits hcallbacks h hproper
  have hpublish : ∀ id msg, msg.Whole cfg → ∃ ms,
      Says speech [.publish id msg] ms ∧ Conveys cfg nh ms (Device.publish cfg id msg nh).1 :=
    fun id msg hwhole =>
      ⟨[(id, msg)], .publish id msg .nil, publish_conveys h.initialised id hwhole⟩
  cases call with
  | spinOnce => exact (speaks_rule hcallbacks hspeak).spinOnce h
  | publish id msg => exact ⟨hemits, hpublish id msg hwhole⟩
  | log level text => exact ⟨hemits, hpublish _ _ (logMsg_whole cfg level text)⟩
  | requestSyncTime => exact requestSyncTime_speaks h
  | arrive bytes => exact .of_tx hemits rfl
  | advertise p =>
    refine .of_tx hemits ?_
    show (Device.advertise cfg p nh).1.hardware.tx = nh.hardware.tx
    unfold Device.advertise
    split <;> rfl
  | subscribe s =>
    refine .of_tx hemits ?_
    show (Device.subscribe s nh).1.hardware.tx = nh.hardware.tx
    unfold Device.subscribe
    split <;> rfl
  | setNow sec nanosec => exact .of_tx hemits rfl
  | now => exact .of_tx hemits rfl
  | setSpinTimeout timeout => exact .of_tx hemits rfl

end Functions

end Ros2Serial.Device
