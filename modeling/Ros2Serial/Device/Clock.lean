import Ros2Serial.Device.DdsCdr
import Ros2Serial.Device.SpinOnce

/-!
# The clock of a node

A node has a counter of milliseconds and an offset to it, which `setNow` computes and
`now` adds: a number of seconds modulo 2^32, which is one less than what is meant, and
a number of nanoseconds, which is a second more.

`nanos` is what a pair of seconds and nanoseconds stands for.  The offset and the counter
together make up the time that was set (`setNow_spec`), and `now` adds the counter to the
offset (`now_spec`).  No intermediate number of nanoseconds reaches 2^32, so both are exact
modulo `period`, which is where the seconds start again.
-/

namespace Ros2Serial.Device

open Bytes PlainCdr Ucdr Generator

/-! ## Seconds and nanoseconds -/

/-- A time in nanoseconds. -/
def nanos (sec nsec : UInt32) : Nat := sec.toNat * 1000000000 + nsec.toNat

/-- The number of nanoseconds after which the seconds start again. -/
def period : Nat := 4294967296000000000

/-- A number of milliseconds in nanoseconds. -/
def millis (ms : Nat) : Nat := ms * 1000000

theorem nanos_lt {sec nsec : UInt32} (h : nsec < 1000000000) : nanos sec nsec < period := by
  have hsec := sec.toNat_lt
  have hnsec : nsec.toNat < 1000000000 := h
  simp only [nanos, period]
  omega

theorem millis_add (m n : Nat) : millis (m + n) = millis m + millis n := Nat.add_mul m n 1000000

/-- An offset and a reading that make up a time, and a later reading. -/
theorem mod_period_advance {offset ms time later : Nat}
    (h : (offset + millis ms) % period = time % period) (hle : ms ≤ later) :
    (offset + millis later) % period = (time + millis (later - ms)) % period := by
  obtain ⟨k, rfl⟩ := Nat.exists_eq_add_of_le hle
  rw [Nat.add_sub_cancel_left, millis_add, ← Nat.add_assoc, Nat.add_mod, h, ← Nat.add_mod]

/-- Normalising keeps the time. -/
theorem normalizeSecNSec_spec (sec nsec : UInt32) :
    (normalizeSecNSec sec nsec).2 < 1000000000 ∧
      nanos (normalizeSecNSec sec nsec).1 (normalizeSecNSec sec nsec).2 % period =
        nanos sec nsec % period := by
  have hsec := sec.toNat_lt
  have hnsec := nsec.toNat_lt
  constructor
  · show (nsec % 1000000000).toNat < 1000000000
    rw [UInt32.toNat_mod]
    exact Nat.mod_lt _ (by decide)
  · simp only [normalizeSecNSec, nanos, period, UInt32.toNat_add, UInt32.toNat_div,
      UInt32.toNat_mod, UInt32.reduceToNat]
    omega

/-! ## The two computations -/

section Offset

variable {nh : NodeHandle}

/-- The reading that the next call of `hardware_.time()` gives. -/
def NodeHandle.reading (nh : NodeHandle) : UInt32 := nh.hardware.clock nh.hardware.readings

/-- The offset of a node, in nanoseconds. -/
def NodeHandle.offset (nh : NodeHandle) : Nat := nanos nh.secOffset nh.nsecOffset

/-- The offset and the reading make up the time that is set.  The time may have up to one
second of milliseconds more than its nanoseconds allow. -/
theorem setNow_spec (sec nanosec : UInt32) (h : nanosec < 2000000000) :
    (setNow sec nanosec nh).nsecOffset < 1000000000 ∧
      ((setNow sec nanosec nh).offset + millis nh.reading.toNat) % period =
        nanos sec nanosec % period := by
  obtain ⟨hbound, hnanos⟩ := normalizeSecNSec_spec (sec - nh.reading / 1000 - 1)
    (nanosec - nh.reading % 1000 * 1000000 + 1000000000)
  have hsec := sec.toNat_lt
  have hreading := nh.reading.toNat_lt
  have hnanosec : nanosec.toNat < 2000000000 := h
  have hseconds : (sec - nh.reading / 1000 - 1).toNat =
      (sec.toNat + 2 * 4294967296 - nh.reading.toNat / 1000 - 1) % 4294967296 := by
    simp only [UInt32.toNat_sub, UInt32.toNat_div, UInt32.reduceToNat]
    omega
  have hnanoseconds : (nanosec - nh.reading % 1000 * 1000000 + 1000000000).toNat =
      nanosec.toNat + 1000000000 - nh.reading.toNat % 1000 * 1000000 := by
    simp only [UInt32.toNat_add, UInt32.toNat_sub, UInt32.toNat_mul, UInt32.toNat_mod,
      UInt32.reduceToNat]
    omega
  refine ⟨hbound, ?_⟩
  have hoffset : (setNow sec nanosec nh).offset =
      nanos (normalizeSecNSec (sec - nh.reading / 1000 - 1)
        (nanosec - nh.reading % 1000 * 1000000 + 1000000000)).1
      (normalizeSecNSec (sec - nh.reading / 1000 - 1)
        (nanosec - nh.reading % 1000 * 1000000 + 1000000000)).2 := rfl
  rw [← hoffset] at hnanos
  simp only [nanos, hseconds, hnanoseconds, millis, period] at hnanos ⊢
  omega

/-- `now` adds the reading to the offset. -/
theorem now_spec (h : nh.nsecOffset < 1000000000) :
    (now nh).1.2 < 1000000000 ∧
      nanos (now nh).1.1 (now nh).1.2 = (nh.offset + millis nh.reading.toNat) % period := by
  obtain ⟨hbound, hnanos⟩ := normalizeSecNSec_spec (nh.reading / 1000 + nh.secOffset)
    (nh.reading % 1000 * 1000000 + nh.nsecOffset)
  have hreading := nh.reading.toNat_lt
  have hnsec : nh.nsecOffset.toNat < 1000000000 := h
  have hnanoseconds : (nh.reading % 1000 * 1000000 + nh.nsecOffset).toNat =
      nh.reading.toNat % 1000 * 1000000 + nh.nsecOffset.toNat := by
    simp only [UInt32.toNat_add, UInt32.toNat_mul, UInt32.toNat_mod, UInt32.reduceToNat]
    omega
  have hnow : (now nh).1 = normalizeSecNSec (nh.reading / 1000 + nh.secOffset)
      (nh.reading % 1000 * 1000000 + nh.nsecOffset) := rfl
  rw [hnow]
  refine ⟨hbound, ?_⟩
  rw [← Nat.mod_eq_of_lt (nanos_lt hbound), hnanos]
  simp only [nanos, hnanoseconds, NodeHandle.offset, millis, period, UInt32.toNat_add,
    UInt32.toNat_div, UInt32.reduceToNat]
  omega

/-! ## `syncTime` -/

/-- The time in the message that `syncTime` reads. -/
def NodeHandle.replyTime (nh : NodeHandle) : UInt32 × UInt32 :=
  let (_, run) := timeDef.cdrDeserialize exactPlatform nh.receiver.messageIn
    ⟨timeDef.construct, Decoder.start nh.inputCdr⟩
  (UInt32.ofNat (run.this "sec").asValue, UInt32.ofNat (run.this "nanosec").asValue)

/-- The reading after the next one. -/
def NodeHandle.secondReading (nh : NodeHandle) : UInt32 :=
  nh.hardware.clock (nh.hardware.readings + 1)

/-- After `syncTime`, offset and second reading make up the time of the reply and what the
counter has advanced since the request. -/
theorem syncTime_spec (h : nh.replyTime.2 < 1000000000) :
    (syncTime nh).nsecOffset < 1000000000 ∧
      ((syncTime nh).offset + millis nh.secondReading.toNat) % period =
        (nanos nh.replyTime.1 nh.replyTime.2 + millis (nh.reading - nh.rtTime).toNat) % period := by
  have hreply := nh.replyTime.1.toNat_lt
  have hnanosec : nh.replyTime.2.toNat < 1000000000 := h
  have helapsed := (nh.reading - nh.rtTime).toNat_lt
  have hsum : (nh.replyTime.2 + (nh.reading - nh.rtTime) % 1000 * 1000000).toNat =
      nh.replyTime.2.toNat + (nh.reading - nh.rtTime).toNat % 1000 * 1000000 := by
    simp only [UInt32.toNat_add, UInt32.toNat_mul, UInt32.toNat_mod, UInt32.reduceToNat]
    omega
  have hless : nh.replyTime.2 + (nh.reading - nh.rtTime) % 1000 * 1000000 < 2000000000 := by
    show (nh.replyTime.2 + (nh.reading - nh.rtTime) % 1000 * 1000000).toNat < 2000000000
    omega
  obtain ⟨hbound, hoffset⟩ := @setNow_spec
    { nh with
      hardware := { nh.hardware with readings := nh.hardware.readings + 1 }
      inputCdr := (timeDef.cdrDeserialize exactPlatform nh.receiver.messageIn
        ⟨timeDef.construct, Decoder.start nh.inputCdr⟩).2.dec.ub }
    (nh.replyTime.1 + (nh.reading - nh.rtTime) / 1000)
    (nh.replyTime.2 + (nh.reading - nh.rtTime) % 1000 * 1000000) hless
  refine ⟨hbound, Eq.trans hoffset ?_⟩
  simp only [nanos, hsum, millis, period, UInt32.toNat_add, UInt32.toNat_div, UInt32.reduceToNat]
  omega

/-- The payload of a time in `message_in` is the time that `syncTime` reads. -/
theorem replyTime_eq {cfg : NodeConfig} (h : nh.Initialised cfg) {sec nanosec : UInt32}
    (hroom : 12 ≤ cfg.INPUT_SIZE)
    (hlay : Matches (timeMsg sec nanosec).ddsCdr (slice nh.receiver.messageIn 0 12)) :
    (openInput nh).replyTime = (sec, nanosec) := by
  have hnarrow : ∀ it ∈ (timeMsg sec nanosec).items, ¬ it.Wide := by
    intro it hit
    rcases List.mem_cons.mp hit with rfl | hit
    · exact fun h => Width.noConfusion h
    · obtain rfl := List.mem_singleton.mp hit
      exact fun h => Width.noConfusion h
  have hitems : (timeMsg sec nanosec).items =
      [.prim .four sec.toNat, .prim .four nanosec.toNat] := rfl
  have hlength : (timeMsg sec nanosec).ddsCdr.length = 12 := by
    rw [Msg.ddsCdr, hitems]
    simp [encode, Item.encode, Item.endPos, padding, Width.bytes]
  obtain ⟨hahead, -⟩ := ahead_ddsCdr h hnarrow (hlength ▸ hroom) (hlength ▸ hlay)
  obtain ⟨henc, hbody⟩ := hahead.split
  have hub : (openInput nh).inputCdr = (resetBuffer nh.inputCdr).afterAll encapsulationItems :=
    congrArg Prod.fst (deserializeEncapsulation_eq henc)
  have hdecode := timeDef.cdrDeserialize_eq_replay exactPlatform (timeMsg sec nanosec).value
    ⟨timeDef.construct, Decoder.start ((resetBuffer nh.inputCdr).afterAll encapsulationItems)⟩
    hbody
  have hmessage : (openInput nh).receiver.messageIn = nh.receiver.messageIn := rfl
  rw [NodeHandle.replyTime, hub, hmessage, hdecode]
  refine Prod.ext ?_ ?_
  · show UInt32.ofNat sec.toNat = sec
    exact UInt32.ofNat_toNat
  · show UInt32.ofNat nanosec.toNat = nanosec
    exact UInt32.ofNat_toNat

end Offset

/-! ## What `now` returns -/

/-- No function has set the offset in between. -/
structure SameOffset (nh nh' : NodeHandle) : Prop where
  sec : nh'.secOffset = nh.secOffset
  nsec : nh'.nsecOffset = nh.nsecOffset

/-- What `now` would return, in nanoseconds. -/
def NodeHandle.nowNanos (nh : NodeHandle) : Nat := nanos (now nh).1.1 (now nh).1.2

section Now

variable {nh later again : NodeHandle}

/-- Two calls of `now` are as far apart as the counter has advanced, and the later one returns
no less unless the seconds start again. -/
theorem nowNanos_advance (hbound : later.nsecOffset < 1000000000) (hsame : SameOffset later again)
    (hle : later.reading ≤ again.reading) :
    again.nowNanos =
        (later.nowNanos + millis (again.reading - later.reading).toNat) % period ∧
      (later.nowNanos ≤ again.nowNanos ∨
        period ≤ later.nowNanos + millis (again.reading - later.reading).toNat) := by
  have hoffset : again.offset = later.offset := by
    rw [NodeHandle.offset, NodeHandle.offset, hsame.sec, hsame.nsec]
  have hbound' : again.nsecOffset < 1000000000 := by rw [hsame.nsec]; exact hbound
  have hle' : later.reading.toNat ≤ again.reading.toNat := hle
  rw [NodeHandle.nowNanos, NodeHandle.nowNanos, (now_spec hbound).2, (now_spec hbound').2,
    hoffset, UInt32.toNat_sub_of_le _ _ hle]
  simp only [millis, period]
  omega

/-- After `syncTime`, as long as the counter has not started again since its second reading,
`now` returns the time of the reply with what the counter has advanced from the request to
the first reading and since the second one.  A later call returns as much more as the
counter has advanced, and no less than the one before, unless the seconds start again. -/
theorem now_exact (hreply : nh.replyTime.2 < 1000000000) (hsame : SameOffset (syncTime nh) later)
    (hle : nh.secondReading ≤ later.reading) :
    (now later).1.2 < 1000000000 ∧
      later.nowNanos =
        (nanos nh.replyTime.1 nh.replyTime.2 + millis ((nh.reading - nh.rtTime).toNat +
          (later.reading - nh.secondReading).toNat)) % period ∧
      ∀ again, SameOffset later again → later.reading ≤ again.reading →
        again.nowNanos =
            (later.nowNanos + millis (again.reading - later.reading).toNat) % period ∧
          (later.nowNanos ≤ again.nowNanos ∨
            period ≤ later.nowNanos + millis (again.reading - later.reading).toNat) := by
  obtain ⟨hbound, hsync⟩ := syncTime_spec hreply
  have hoffset : later.offset = (syncTime nh).offset := by
    rw [NodeHandle.offset, NodeHandle.offset, hsame.sec, hsame.nsec]
  have hbound' : later.nsecOffset < 1000000000 := by rw [hsame.nsec]; exact hbound
  obtain ⟨hnsec, hnow⟩ := now_spec hbound'
  refine ⟨hnsec, ?_, fun again hagain hlater => ?_⟩
  · have hle' : nh.secondReading.toNat ≤ later.reading.toNat := hle
    rw [NodeHandle.nowNanos, hnow, hoffset, mod_period_advance hsync hle', millis_add,
      UInt32.toNat_sub_of_le _ _ hle, Nat.add_assoc]
  · exact nowNanos_advance hbound' hagain hlater

end Now

/-- A node that has asked for the time at 4294967290 ms, just before its counter starts again,
and gets the answer of 7.9 s in this payload at 9 ms. -/
def answeredNode : NodeHandle :=
  let nh := initNode defaultBoard (construct defaultBoard idleHardware)
  openInput { nh with
    rtTime := 4294967290
    hardware := { nh.hardware with clock := fun n => if n < 3 then 9 else 1200 }
    receiver := { nh.receiver with
      messageIn := overwrite nh.receiver.messageIn 0
        [0x00, 0x01, 0x00, 0x00, 0x07, 0x00, 0x00, 0x00, 0x00, 0xe9, 0xa4, 0x35] } }

theorem answeredNode_replyTime : answeredNode.replyTime = (7, 900000000) := by
  decide +kernel

/-- 15 ms have passed until the answer, and 1191 ms since. -/
theorem answeredNode_exact :
    ((now (syncTime answeredNode)).1.2 < 1000000000 ∧
      (syncTime answeredNode).nowNanos =
        (nanos 7 900000000 + millis (15 + 1191)) % period) := by
  have hreply : answeredNode.replyTime.2 < 1000000000 := by
    rw [answeredNode_replyTime]
    decide
  have hsame : SameOffset (syncTime answeredNode) (syncTime answeredNode) := ⟨rfl, rfl⟩
  have h := now_exact hreply hsame (by decide)
  rw [answeredNode_replyTime] at h
  exact ⟨h.1, h.2.1⟩

end Ros2Serial.Device
