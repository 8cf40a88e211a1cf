import Mathlib.Data.List.Forall2
import Ros2Serial.Device.Publish

/-!
# What `negotiateTopics` sends

`negotiateTopics` publishes a `TopicInfo` for each endpoint of the two tables, without
a look at what `publish` returns, and then the node is configured.

`announcements` is what there is to tell, and `Negotiated` that it was told: apart from
log messages, the frames that went out are those announcements, each whole.  That is so if
and only if each of them fits `message_out` (`negotiated_iff`).  Where one does not, the
host gets a part of it or a log message, and never hears of the endpoint.
-/

namespace Ros2Serial.Device

open Bytes PlainCdr Ucdr Generator

/-! ## What there is to tell -/

/-- The endpoints of a node with the buffer sizes that it announces for them, in the order
of the two loops of `negotiateTopics`. -/
def announcements (cfg : NodeConfig) (nh : NodeHandle) : List (Endpoint × Nat) :=
  (nh.publishers.filterMap id).map (·, cfg.OUTPUT_SIZE) ++
    (nh.subscribers.filterMap id).map (·, cfg.INPUT_SIZE)

/-- The frame is a `TopicInfo` of the endpoint, with all of its fields. -/
def Announces (entry : Endpoint × Nat) (frame : List UInt8) : Prop :=
  ∃ payload, frame = Wire.encode (topicField entry.1.endpoint) payload ∧
    (topicInfo entry.1 entry.2).Encodes payload

/-- The `TopicInfo` of the endpoint fits `message_out`, as a frame. -/
def InfoFits (cfg : NodeConfig) (entry : Endpoint × Nat) : Prop :=
  (topicInfo entry.1 entry.2).encodedLength + 8 ≤ cfg.OUTPUT_SIZE

instance (cfg : NodeConfig) (entry : Endpoint × Nat) : Decidable (InfoFits cfg entry) :=
  inferInstanceAs (Decidable (_ ≤ _))

/-- The endpoint is a publisher or a subscriber, of a topic, of a service server or of a
service client.  The constructors of these classes give it the id of the setup frame. -/
def Endpoint.IsSetup (e : Endpoint) : Prop :=
  e.endpoint ∈ [TopicInfo.ID_PUBLISHER, TopicInfo.ID_SUBSCRIBER,
    TopicInfo.ID_SERVICE_SERVER + TopicInfo.ID_PUBLISHER,
    TopicInfo.ID_SERVICE_SERVER + TopicInfo.ID_SUBSCRIBER,
    TopicInfo.ID_SERVICE_CLIENT + TopicInfo.ID_PUBLISHER,
    TopicInfo.ID_SERVICE_CLIENT + TopicInfo.ID_SUBSCRIBER]

instance (e : Endpoint) : Decidable e.IsSetup := inferInstanceAs (Decidable (_ ∈ _))

/-- The node is configured, and apart from log messages it has sent its announcements, each
of them once, in order and whole. -/
def Negotiated (cfg : NodeConfig) (nh : NodeHandle) : Prop :=
  (negotiateTopics cfg nh).configured = true ∧
    ∃ frames, (negotiateTopics cfg nh).hardware.tx = nh.hardware.tx ++ frames ∧
      List.Forall₂ Announces (announcements cfg nh)
        (frames.filter fun frame => Wire.topicOf frame ≠ topicField TopicInfo.ID_LOG)

/-! ## What goes out instead -/

/-- What `publish` sends for an endpoint: one frame that `message_out` can hold, and the
announcement if it fits. -/
structure SentFor (cfg : NodeConfig) (entry : Endpoint × Nat) (frame : List UInt8) : Prop where
  length_le : frame.length ≤ cfg.OUTPUT_SIZE
  announces : InfoFits cfg entry → Announces entry frame

section Publish

variable {cfg : NodeConfig} {nh : NodeHandle}

/-- One frame goes out for each message that may be sent. -/
theorem publish_sendsOne (h : nh.Initialised cfg) {id : Int} (hallowed : Allowed id nh)
    (msg : Msg) :
    ∃ frame, Sends cfg nh (publish cfg id msg nh).1 [frame] ∧ frame.length ≤ cfg.OUTPUT_SIZE ∧
      (msg.encodedLength + 8 ≤ cfg.OUTPUT_SIZE →
        ∃ payload, frame = Wire.encode (topicField id) payload ∧ msg.Encodes payload) := by
  obtain ⟨hinit, hfinal, -, hmem⟩ := serialized_ends h msg
  rcases Nat.lt_or_ge (bufferLength (serialized nh msg).ub + 7) cfg.OUTPUT_SIZE with hroom | hfull
  · obtain ⟨nh', hpub, hsends⟩ := publishDepth_sends h hallowed rfl hroom 1
    refine ⟨_, by rw [publish, hpub]; exact hsends, ?_, fun hfit => ?_⟩
    · rw [Wire.encode_length, slice_length (by omega)]
      omega
    · obtain ⟨-, hlen, -, hencodes⟩ := serialized_fits h (Nat.le_of_succ_le hfit)
      exact ⟨_, rfl, by rw [hlen]; exact hencodes⟩
  · have hover : cfg.OUTPUT_SIZE < msg.encodedLength + 8 := by
      by_contra hfit
      have hseven : msg.encodedLength + 7 ≤ cfg.OUTPUT_SIZE := by omega
      obtain ⟨-, hlen, -⟩ := serialized_fits h hseven
      omega
    have hs : ¬ Straddles (cfg.OUTPUT_SIZE - 7) 0 (encapsulationItems ++ msg.items) := by
      intro hs
      have hseven : cfg.OUTPUT_SIZE < msg.encodedLength + 7 := by
        by_contra hle
        exact not_straddles_of_endPos_le (by rw [← Msg.encodedLength]; omega) hs
      have hcut := serialized_overflow h hseven
      have hlt := hcut.iterator_lt.mpr hs
      have hstart := (startCdr_fields h).2.1
      have hlength : bufferLength (serialized nh msg).ub =
        (serialized nh msg).ub.iterator - (serialized nh msg).ub.init := rfl
      have hlog := cfg.logFits
      omega
    obtain ⟨nh', payload, hpub, hsends, hencodes⟩ := publishDepth_dropped h hallowed hover hs 0
    refine ⟨_, by rw [publish, hpub]; exact hsends, ?_, fun hfit => absurd hover (by omega)⟩
    have hreport := report_fits cfg
    rw [Wire.encode_length, hencodes.length]
    exact hreport

/-- One of the loops of `negotiateTopics`. -/
theorem announce_sends (h : nh.Initialised cfg) (bufferSize : Nat)
    {slots : List (Option Endpoint)} (hsetup : ∀ e, some e ∈ slots → e.IsSetup) :
    ∃ frames, Sends cfg nh (announce cfg bufferSize slots nh) frames ∧
      List.Forall₂ (SentFor cfg) ((slots.filterMap id).map (·, bufferSize)) frames := by
  induction slots generalizing nh with
  | nil => exact ⟨[], Sends.refl h, .nil⟩
  | cons slot slots ih =>
    have hrest : ∀ e, some e ∈ slots → e.IsSetup := fun e he =>
      hsetup e (List.mem_cons_of_mem _ he)
    cases slot with
    | none => exact ih h hrest
    | some e =>
      have hallowed : Allowed e.endpoint nh := by
        have hkind : e.IsSetup := hsetup e List.mem_cons_self
        simp only [Endpoint.IsSetup, TopicInfo.ID_PUBLISHER, TopicInfo.ID_SUBSCRIBER,
          TopicInfo.ID_SERVICE_SERVER, TopicInfo.ID_SERVICE_CLIENT, List.mem_cons,
          List.not_mem_nil, or_false] at hkind
        exact Or.inl (by omega)
      obtain ⟨frame, hfirst, hlength, hwhole⟩ :=
        publish_sendsOne h hallowed (topicInfo e bufferSize)
      obtain ⟨frames, hmore, hall⟩ := ih hfirst.initialised hrest
      exact ⟨frame :: frames, hfirst.trans hmore, .cons ⟨hlength, hwhole⟩ hall⟩

/-- The two loops, which send one frame for each endpoint. -/
theorem negotiateTopics_sends (h : nh.Initialised cfg)
    (hsetup : ∀ entry ∈ announcements cfg nh, entry.1.IsSetup) :
    ∃ frames, (negotiateTopics cfg nh).hardware.tx = nh.hardware.tx ++ frames ∧
      List.Forall₂ (SentFor cfg) (announcements cfg nh) frames := by
  have hpub : ∀ e, some e ∈ nh.publishers → e.IsSetup := fun e he =>
    hsetup (e, cfg.OUTPUT_SIZE) (List.mem_append_left _
      (List.mem_map_of_mem (List.mem_filterMap.mpr ⟨some e, he, rfl⟩)))
  have hsub : ∀ e, some e ∈ nh.subscribers → e.IsSetup := fun e he =>
    hsetup (e, cfg.INPUT_SIZE) (List.mem_append_right _
      (List.mem_map_of_mem (List.mem_filterMap.mpr ⟨some e, he, rfl⟩)))
  obtain ⟨published, hpublished, hallPublished⟩ := announce_sends h cfg.OUTPUT_SIZE hpub
  have hslots : (announce cfg cfg.OUTPUT_SIZE nh.publishers nh).subscribers = nh.subscribers := by
    obtain ⟨ub, out, heq⟩ := hpublished.eq
    rw [heq]
    rfl
  obtain ⟨subscribed, hsubscribed, hallSubscribed⟩ :=
    announce_sends hpublished.initialised cfg.INPUT_SIZE hsub
  refine ⟨published ++ subscribed, ?_, ?_⟩
  · rw [negotiateTopics]
    dsimp only
    rw [hslots]
    exact (hpublished.trans hsubscribed).tx
  · exact List.rel_append hallPublished hallSubscribed

/-- Each element on the left has a partner on the right. -/
theorem exists_of_forall₂ {α β : Type} {R : α → β → Prop} {xs : List α} {ys : List β}
    (h : List.Forall₂ R xs ys) {x : α} (hx : x ∈ xs) : ∃ y ∈ ys, R x y := by
  induction h with
  | nil => exact absurd hx List.not_mem_nil
  | cons hfirst _ ih =>
    rcases List.mem_cons.mp hx with rfl | hmem
    · exact ⟨_, List.mem_cons_self, hfirst⟩
    · obtain ⟨y, hy, hR⟩ := ih hmem
      exact ⟨y, List.mem_cons_of_mem _ hy, hR⟩

/-- What is announced is no log message. -/
theorem Announces.not_log {entry : Endpoint × Nat} {frame : List UInt8}
    (h : Announces entry frame) (hsetup : entry.1.IsSetup) :
    Wire.topicOf frame ≠ topicField TopicInfo.ID_LOG := by
  obtain ⟨payload, rfl, -⟩ := h
  rw [Wire.topicOf_encode (topicField_lt _)]
  simp only [Endpoint.IsSetup, TopicInfo.ID_PUBLISHER, TopicInfo.ID_SUBSCRIBER,
    TopicInfo.ID_SERVICE_SERVER, TopicInfo.ID_SERVICE_CLIENT, List.mem_cons,
    List.not_mem_nil, or_false] at hsetup
  simp only [topicField, TopicInfo.ID_LOG]
  omega

/-- What was announced whole was no longer than `message_out`. -/
theorem Negotiated.fits (hnegotiated : Negotiated cfg nh) (h : nh.Initialised cfg)
    (hsetup : ∀ entry ∈ announcements cfg nh, entry.1.IsSetup) :
    ∀ entry ∈ announcements cfg nh, InfoFits cfg entry := by
  intro entry hentry
  obtain ⟨frames, htx, hsent⟩ := negotiateTopics_sends h hsetup
  obtain ⟨-, frames', htx', hall⟩ := hnegotiated
  obtain rfl := List.append_cancel_left (htx.symm.trans htx')
  obtain ⟨frame, hframe, payload, rfl, hencodes⟩ := exists_of_forall₂ hall hentry
  obtain ⟨sent, -, hlength⟩ := exists_of_forall₂ hsent.flip (List.mem_of_mem_filter hframe)
  have hle := hlength.length_le
  rwa [Wire.encode_length, hencodes.length] at hle

/-- A node that is configured has told of all of its endpoints if and only if the `TopicInfo`
of each of them fits `message_out`. -/
theorem negotiated_iff (h : nh.Initialised cfg)
    (hsetup : ∀ entry ∈ announcements cfg nh, entry.1.IsSetup) :
    Negotiated cfg nh ↔ ∀ entry ∈ announcements cfg nh, InfoFits cfg entry := by
  refine ⟨fun hnegotiated => hnegotiated.fits h hsetup, fun hfits => ?_⟩
  obtain ⟨frames, htx, hsent⟩ := negotiateTopics_sends h hsetup
  have hwhole : List.Forall₂ Announces (announcements cfg nh) frames :=
    List.forall₂_of_length_eq_of_get hsent.length_eq fun i hi hi' =>
      (hsent.get hi hi').announces (hfits _ (List.get_mem _ ⟨i, hi⟩))
  refine ⟨rfl, frames, htx, ?_⟩
  rw [List.filter_eq_self.mpr]
  · exact hwhole
  · intro frame hframe
    obtain ⟨entry, hentry, hannounces⟩ := exists_of_forall₂ hwhole.flip hframe
    exact decide_eq_true (Announces.not_log hannounces (hsetup entry hentry))

end Publish

/-! ## Small boards -/

/-- A string of a given length. -/
def letters (n : Nat) (h : n + 1 < 2 ^ 32) : CString :=
  ⟨List.replicate n 0x61, fun hmem => absurd (List.eq_of_mem_replicate hmem) (by decide), by
    rwa [List.length_replicate]⟩

/-- A small board with one publisher, whose topic, type and MD5 sum have these lengths. -/
def nodeWith (topic type md5 : CString) : NodeHandle :=
  (advertise atmega168 ⟨0, topic, type, md5, TopicInfo.ID_PUBLISHER⟩
    (initNode atmega168 (construct atmega168 idleHardware))).1

theorem nodeWith_initialised (topic type md5 : CString) :
    (nodeWith topic type md5).Initialised atmega168 :=
  have h := construct_initialised atmega168 idleHardware
  ⟨h.messageIn, h.messageOut, h.outputInit, h.outputFinal, h.outputOrigin, h.inputInit,
    h.inputFinal, h.inputOrigin, rfl, h.subscribers⟩

/-- A topic of 8 letters and a type of 19 fit. -/
theorem shortName_negotiated :
    Negotiated atmega168 (nodeWith (letters 8 (by decide)) (letters 19 (by decide))
      (letters 32 (by decide))) :=
  (negotiated_iff (nodeWith_initialised _ _ _) (by decide)).mpr (by decide)

/-- A topic of 70 letters does not fit with such a type, and the host never hears of it. -/
theorem longName_not_negotiated :
    ¬ ∀ (cfg : NodeConfig) (nh : NodeHandle), nh.Initialised cfg →
      (∀ entry ∈ announcements cfg nh, entry.1.IsSetup) → Negotiated cfg nh := by
  intro h
  have hfits := (h atmega168 (nodeWith (letters 70 (by decide)) (letters 19 (by decide))
    (letters 32 (by decide))) (nodeWith_initialised _ _ _) (by decide)).fits
    (nodeWith_initialised _ _ _) (by decide)
  revert hfits
  decide

end Ros2Serial.Device
