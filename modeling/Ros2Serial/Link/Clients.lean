import Ros2Serial.Client.ReadLoop
import Ros2Serial.Device.Emission
import Ros2Serial.Link.Decoders

/-!
# The two hosts

The repository has a host in Python and one in C++.  Both read what a node writes.

* The Python client passes on every message of a node, as long as its length is no negative
  number there (`client_dispatches`).
* On the same bytes, of any kind, both pass on the same messages, unless one of them meets a
  header whose length has a wrong checksum (`hosts_agree`).
-/

namespace Ros2Serial.Link

open Bytes Device Host Client Runs

/-- A Python client reads the stream, without an exception. -/
def ClientReads (events : List ReadLoop.Event) (stream : List UInt8) : Prop :=
  ReadLoop.new.inputs events = stream.map some

theorem ClientReads.dispatched {events : List ReadLoop.Event} {stream : List UInt8}
    (h : ClientReads events stream) :
    (ReadLoop.new.run events).dispatched =
      Wire.frames (clientPolicy.feed (Wire.searching 0 0) stream).2 := by
  rw [ReadLoop.run_dispatched, h]
  rfl

/-! ## A node and the Python client -/

theorem frameOf_fields {cfg : NodeConfig} {nh : NodeHandle} {frame : Nat × List UInt8}
    (h : Emitted cfg nh frame) (hsize : cfg.OUTPUT_SIZE < 32768 + 8) :
    frame.1 < 65536 ∧ frame.2.length < 32768 := by
  have hlength := h.length_le
  rw [frameOf, Wire.encode_length] at hlength
  refine ⟨?_, by omega⟩
  cases h.own with
  | report payload => exact topicField_lt Device.TopicInfo.ID_LOG
  | time payload => exact topicField_lt Device.TopicInfo.ID_TIME
  | publisher he hinfo => exact topicField_lt _
  | subscriber he hinfo => exact topicField_lt _
  | message he payload => exact topicField_lt _

/-- All that a node has written reaches `callbacks` of a Python client that reads it, message
by message, in order and once each, however the bytes are split. -/
theorem client_dispatches {cfg : NodeConfig} {callbacks : Callbacks cfg} {nh : NodeHandle}
    (hcallbacks : callbacks.Proper) (henrolled : Enrolled cfg nh) (htx : nh.hardware.tx = [])
    {calls : List Call}
    (hproper : Throughout (callStep cfg callbacks) (fun nh call => call.Proper callbacks nh) nh calls)
    (hsize : cfg.OUTPUT_SIZE < 32768 + 8) {events : List ReadLoop.Event}
    (hreads : ClientReads events (run cfg callbacks nh calls).1.hardware.tx.flatten) :
    (ReadLoop.new.run events).dispatched =
      (run cfg callbacks nh calls).1.hardware.tx.map fun frame =>
        (Wire.topicOf frame, Wire.payloadOf frame) := by
  obtain ⟨sent, hsent, hemitted⟩ := (run_emits hcallbacks henrolled hproper).tx
  rw [htx, List.nil_append] at hsent
  have hfields := fun frame hframe => frameOf_fields (hemitted frame hframe) hsize
  have hstream : (sent.map frameOf).flatten = Wire.encodeAll sent := List.flatMap_def.symm
  have hfeed :
      Wire.frames (clientPolicy.feed (Wire.searching 0 0) (Wire.encodeAll sent)).2 = sent := by
    refine clientPolicy.feed_encodeAll (fun frame hframe => ?_) 0 0
    obtain ⟨htopic, hlength⟩ := hfields frame hframe
    exact ⟨htopic, by omega, if_pos hlength⟩
  have hback : ∀ frame ∈ sent,
      (Wire.topicOf (frameOf frame), Wire.payloadOf (frameOf frame)) = frame := by
    intro frame hframe
    rw [frameOf, Wire.topicOf_encode (hfields frame hframe).1, Wire.payloadOf_encode]
  rw [hreads.dispatched, hsent, hstream, hfeed, List.map_map]
  exact ((List.map_congr_left hback).trans (List.map_id sent)).symm

/-- A client that reads a stream, of which the port returns at most 20 bytes at a time. -/
def readEvents (stream : List UInt8) : List ReadLoop.Event :=
  .arrive stream :: List.replicate 30 (.read 20 false)

theorem publishingCalls_dispatched :
    (ReadLoop.new.run (readEvents (run atmega168 (noCallbacks _) (freshNode atmega168)
      publishingCalls).1.hardware.tx.flatten)).dispatched =
        (run atmega168 (noCallbacks _) (freshNode atmega168) publishingCalls).1.hardware.tx.map
          fun frame => (Wire.topicOf frame, Wire.payloadOf frame) := by
  have henrolled : Enrolled atmega168 (freshNode atmega168) := initNode_enrolled _ _
  have hreads : ClientReads (readEvents (run atmega168 (noCallbacks _) (freshNode atmega168)
      publishingCalls).1.hardware.tx.flatten) (run atmega168 (noCallbacks _) (freshNode atmega168)
        publishingCalls).1.hardware.tx.flatten := by
    unfold ClientReads
    decide +kernel
  exact client_dispatches (noCallbacks_proper atmega168) henrolled rfl publishingCalls_proper
    (by decide) hreads

/-! ## The two hosts on one stream -/

/-- On bytes of any kind, in which every header fits both hosts, a session of the host in C++ and
a Python client pass on the same messages if the search meets no wrong checksum of a length. -/
theorem hosts_agree {handlers : Handlers} {s s' : Session} {unread stream : List UInt8}
    {steps : List SessionStep} {events : List ReadLoop.Event}
    (hfit : ∀ topic length, topic < 65536 → length < 65536 →
      Wire.header topic length <:+: stream → length + 1 ≤ buffer_max)
    (hhost : HostReads handlers s s' unread steps stream) (hactive : s'.active = true)
    (hclient : ClientReads events stream) (hgood : ¬ Wire.MeetsBadLength stream) :
    s'.lookups = s.lookups ++ (ReadLoop.new.run events).dispatched := by
  have hmax : buffer_max = 8191 := rfl
  have hread : clientPolicy.ReadsAll stream := fun topic length htopic hlength hheader =>
    if_pos (by have := hfit topic length htopic hlength hheader; omega)
  have hread' : hostPolicy.ReadsAll stream := fun topic length htopic hlength hheader =>
    if_pos (hfit topic length htopic hlength hheader)
  obtain ⟨hframes, -⟩ := (Wire.agree_iff clientPolicy hostPolicy rfl rfl hread hread' 0 0).mpr hgood
  obtain ⟨hlookups, -, hreports, -⟩ :=
    hhost.boundary.exec_reports hhost.undisturbed hhost.exec hhost.quiet
  rw [hhost.stream] at hreports
  rw [hlookups, hreports hactive, hclient.dispatched, hframes]

/-- Behind a byte that belongs to no frame, both find the frame. -/
theorem noisyStream_hostsAgree :
    ∃ s s' : Session, HostReads noHandlers s s' [] (runOn noisyStream 5) noisyStream ∧
      s'.lookups = s.lookups ++ (ReadLoop.new.run (readEvents noisyStream)).dispatched := by
  obtain ⟨s, s', hreads, -, hactive, -⟩ := noisyStream_runs
  have hcandidates : CandidatesFit atmega168 noisyStream := candidatesFit_of_tails (by decide)
  have hfit : ∀ topic length, topic < 65536 → length < 65536 →
      Wire.header topic length <:+: noisyStream → length + 1 ≤ buffer_max :=
    fun topic length htopic hlength hheader =>
      (hcandidates topic length htopic hlength hheader).2.2
  have hread : clientPolicy.ReadsAll noisyStream := fun topic length htopic hlength hheader => by
    have hmax : buffer_max = 8191 := rfl
    exact if_pos (by have := hfit topic length htopic hlength hheader; omega)
  have hread' : hostPolicy.ReadsAll noisyStream := fun topic length htopic hlength hheader =>
    if_pos (hfit topic length htopic hlength hheader)
  have hgood : ¬ Wire.MeetsBadLength noisyStream :=
    (Wire.agree_iff clientPolicy hostPolicy rfl rfl hread hread' 0 0).mp ⟨by decide, by decide⟩
  have hclient : ClientReads (readEvents noisyStream) noisyStream := by
    unfold ClientReads
    decide +kernel
  exact ⟨s, s', hreads, hosts_agree hfit hreads hactive hclient hgood⟩

end Ros2Serial.Link
