import Ros2Serial.Device.Publish
import Ros2Serial.Host.Frames

/-!
# From the device to the host

What the device publishes is what the host looks up.  The two sides share the
frame format only: `publish` writes frames (`Publication.frames_eq`), and a
session that stays active looks up the frames of its stream (`exec_lookups`).
`host_looksUp` puts them together, for publications at any time of the life of
a node, and for every way in which the bytes arrive.
-/

namespace Ros2Serial.Link

open Device Host

/-- A call of `publish`, with the node that makes it. -/
structure Publication where
  nh : NodeHandle
  id : Int
  msg : Msg

/-- The frames that the call writes. -/
def Publication.frames (cfg : NodeConfig) (p : Publication) : List (List UInt8) :=
  (publish cfg p.id p.msg p.nh).1.hardware.tx.drop p.nh.hardware.tx.length

section Device

variable {cfg : NodeConfig}

/-- Each of them carries the topic of the message, or the report. -/
theorem Publication.frames_eq {p : Publication} (h : p.nh.Initialised cfg) :
    ∃ sent : List (Nat × List UInt8), p.frames cfg = sent.map (fun f => Wire.encode f.1 f.2) ∧
      ∀ f ∈ sent, f.1 = topicField p.id ∨ f.1 = 7 := by
  obtain ⟨sent, hsends, htopics⟩ := publish_sends h p.id p.msg
  exact ⟨sent, by rw [Publication.frames, hsends.tx, List.drop_left], htopics⟩

/-- A frame of a call is the encoding of its topic and its payload. -/
theorem Publication.encode_of_mem {p : Publication} (h : p.nh.Initialised cfg)
    {frame : List UInt8} (hframe : frame ∈ p.frames cfg) :
    Wire.encode (Wire.topicOf frame) (Wire.payloadOf frame) = frame ∧
      (Wire.topicOf frame = topicField p.id ∨ Wire.topicOf frame = 7) := by
  obtain ⟨sent, hframes, htopics⟩ := Publication.frames_eq h
  rw [hframes] at hframe
  obtain ⟨⟨topic, payload⟩, hsent, rfl⟩ := List.mem_map.mp hframe
  have htopic := htopics _ hsent
  have hlt : topic < 65536 := by
    have := topicField_lt p.id
    dsimp only at htopic
    omega
  dsimp only
  rw [Wire.topicOf_encode hlt, Wire.payloadOf_encode]
  exact ⟨rfl, htopic⟩

end Device

/-- Frames in a row are the encoding of their topics and payloads. -/
theorem flatten_eq_encodeAll {frames : List (List UInt8)}
    (h : ∀ frame ∈ frames, Wire.encode (Wire.topicOf frame) (Wire.payloadOf frame) = frame) :
    frames.flatten =
      Wire.encodeAll (frames.map fun frame => (Wire.topicOf frame, Wire.payloadOf frame)) := by
  induction frames with
  | nil => rfl
  | cons frame frames ih =>
    rw [List.flatten_cons, List.map_cons, Wire.encodeAll_cons,
      h frame List.mem_cons_self, ih fun f hf => h f (List.mem_cons_of_mem _ hf)]

/-- The host looks up what the device has published: the topic ids and the
payloads of all frames, in order.  At any time it has looked up the first of
them, and when all bytes have arrived and no callback is left to run, all. -/
theorem host_looksUp {cfg : NodeConfig} {handlers : Handlers} {publications : List Publication}
    {s s' : Session} {unread later : List UInt8} {steps : List SessionStep}
    (hnodes : ∀ p ∈ publications, p.nh.Initialised cfg)
    (hids : ∀ p ∈ publications, 0 ≤ p.id ∧ p.id < 2 ^ 15)
    (hlengths : ∀ frame ∈ publications.flatMap (Publication.frames cfg),
      (Wire.payloadOf frame).length + 1 ≤ 8191)
    (hstart : s.AtBoundary unread)
    (hstream : unread ++ steps.flatMap SessionStep.arrived ++ later =
      (publications.flatMap (Publication.frames cfg)).flatten)
    (hsteps : ∀ st ∈ steps, st.Undisturbed) (hexec : s.exec handlers steps = some s')
    (hactive : s'.active = true) :
    (∀ p ∈ publications, ∀ frame ∈ p.frames cfg,
      Wire.encode (Wire.topicOf frame) (Wire.payloadOf frame) = frame ∧
        ((Wire.topicOf frame : Int) = p.id ∨ Wire.topicOf frame = 7)) ∧
    ∃ looked left,
      (publications.flatMap (Publication.frames cfg)).map
        (fun frame => (Wire.topicOf frame, Wire.payloadOf frame)) = looked ++ left ∧
      s'.lookups = s.lookups ++ looked ∧
      (s'.async_read_buffer.next = none →
        s'.async_read_buffer.pending ≠ [] ∧ (later = [] → left = [])) := by
  have hencode : ∀ frame ∈ publications.flatMap (Publication.frames cfg),
      Wire.encode (Wire.topicOf frame) (Wire.payloadOf frame) = frame ∧
        Wire.topicOf frame < 65536 := by
    intro frame hframe
    obtain ⟨p, hp, hframe⟩ := List.mem_flatMap.mp hframe
    obtain ⟨hframe, htopic⟩ := Publication.encode_of_mem (hnodes p hp) hframe
    have := topicField_lt p.id
    exact ⟨hframe, by omega⟩
  refine ⟨fun p hp frame hframe => ?_, ?_⟩
  · obtain ⟨hframe, htopic⟩ := Publication.encode_of_mem (hnodes p hp) hframe
    obtain ⟨hid, hid'⟩ := hids p hp
    refine ⟨hframe, htopic.imp_left fun htopic => ?_⟩
    rw [htopic, topicField]
    omega
  · rw [flatten_eq_encodeAll fun frame hframe => (hencode frame hframe).1] at hstream
    refine Session.exec_lookups hstart hstream (fun f hf => ?_) hsteps hexec hactive
    obtain ⟨frame, hframe, rfl⟩ := List.mem_map.mp hf
    exact ⟨(hencode frame hframe).2, hlengths frame hframe⟩

/-- One double from the small board. -/
def doublePublication : Publication := { nh := connectedNode, id := 106, msg := doubles 1 }

/-- Its frame. -/
def doubleFrame : List UInt8 :=
  [0xff, 0xfe, 16, 0, 0xef, 106, 0] ++ ([0, 1, 0, 0] ++ List.replicate 12 0) ++ [0x94]

/-- The frame arrives in two parts, the first of which ends in the payload. -/
theorem double_looksUp :
    ∃ s₀ s', Session.new 1 true = some s₀ ∧
      s₀.start.exec noHandlers [.arrive (doubleFrame.take 10), .run, .run, .run,
        .arrive (doubleFrame.drop 10), .run] = some s' ∧
      s'.lookups = s₀.start.lookups ++ [(106, [0, 1, 0, 0] ++ List.replicate 12 0)] := by
  have hframes : [doublePublication].flatMap (Publication.frames atmega168) = [doubleFrame] := by
    decide +kernel
  let steps : List SessionStep := [.arrive (doubleFrame.take 10), .run, .run, .run,
    .arrive (doubleFrame.drop 10), .run]
  have hview : ((Session.new 1 true).bind fun s => s.start.exec noHandlers steps).map
      (fun s => (s.active, s.async_read_buffer.next.isNone)) = some (true, true) := by
    decide +kernel
  obtain ⟨s', hs', hview⟩ := Option.map_eq_some_iff.mp hview
  obtain ⟨s₀, hnew, hexec⟩ := Option.bind_eq_some_iff.mp hs'
  simp only [Prod.mk.injEq, Option.isNone_iff_eq_none] at hview
  obtain ⟨hactive, hnone⟩ := hview
  have hnodes : ∀ p ∈ [doublePublication], p.nh.Initialised atmega168 := by
    intro p hp
    rw [List.mem_singleton.mp hp]
    exact connectedNode_initialised
  have hstream : [] ++ steps.flatMap SessionStep.arrived ++ [] =
      ([doublePublication].flatMap (Publication.frames atmega168)).flatten := by
    rw [hframes]
    decide
  obtain ⟨-, looked, left, hall, hlookups, hdone⟩ :=
    host_looksUp hnodes (by decide) (by rw [hframes]; decide) (Session.start_atBoundary hnew)
      hstream (by simp [steps, SessionStep.Undisturbed]) hexec hactive
  obtain ⟨-, hleft⟩ := hdone hnone
  rw [hframes, hleft rfl, List.append_nil] at hall
  refine ⟨s₀, s', hnew, hexec, ?_⟩
  rw [hlookups, ← hall]
  rfl

end Ros2Serial.Link
