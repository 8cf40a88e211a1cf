import Ros2Serial.Device.Trace
import Ros2Serial.Lib.Runs

/-!
# The timeout of a message

A node gives up a frame that takes too long.  The deadline is 20 ms behind the
start of the call of `spinOnce` that has read the first `ff`, and every later
call compares its own start with it, as two readings of a counter with 32 bits.

* A `Timeline` has the milliseconds that have really passed.  The counter shows
  their number modulo 2^32.
* A `Watch` is a node with the `Dates` of the frame that it is reading.  The
  invariant is that the deadline belongs to them (`Dated`).
* A `Check` is one comparison.  It is exact if the frame is dropped just when
  more than 20 ms have passed since its first byte was read.

`exact_iff_timely` is what a single comparison comes to, and
`timeouts_exact_iff` what this means for runs: they are exact as long as
the counter does not start again in the wrong place, and no call starts while
the deadline is over and the 20 ms are not.
-/

namespace Ros2Serial.Device

open Bytes Ucdr Generator Runs

/-! ## Dates -/

/-- `SERIAL_MSG_TIMEOUT`. -/
def SERIAL_MSG_TIMEOUT : Nat := 20

/-- When things happen, in milliseconds. -/
structure Timeline where
  /-- The time of the n-th reading of the clock. -/
  reading : Nat → Nat
  /-- How long `spinOnce` has been running when it reads the n-th byte. -/
  delay : Nat → Nat
  mono : ∀ n, reading n ≤ reading (n + 1)

/-- What the counter shows. -/
def Timeline.clock (t : Timeline) (n : Nat) : UInt32 := UInt32.ofNat (t.reading n)

/-- The dates of the frame that a node is reading. -/
structure Dates where
  /-- The number of bytes that were read. -/
  count : Nat
  /-- The start of the call that has read the first `ff`. -/
  entry : Nat
  /-- When it has read it. -/
  first : Nat

/-- The dates after an event of a call. -/
def Dates.see (t : Timeline) (start : Nat) (d : Dates) : Event → Dates
  | .read _ .sync => { count := d.count + 1, entry := start, first := start + t.delay d.count }
  | .read _ _ => { d with count := d.count + 1 }
  | .reset | .access _ | .act _ _ => d

/-- A node with its dates. -/
structure Watch where
  node : NodeHandle
  dates : Dates

/-- A node that has not read anything. -/
def Watch.new (nh : NodeHandle) : Watch where
  node := nh
  dates := { count := 0, entry := 0, first := 0 }

/-- The time at which a call would start. -/
def Timeline.start (t : Timeline) (nh : NodeHandle) : Nat := t.reading nh.hardware.readings

/-- A call. -/
def Watch.step (cfg : NodeConfig) (callbacks : Callbacks cfg) (t : Timeline) (w : Watch)
    (call : Call) : Watch :=
  let (nh, events) := call.run cfg callbacks w.node
  { node := nh, dates := events.foldl (Dates.see t (t.start w.node)) w.dates }

/-- A comparison with the deadline. -/
structure Check where
  entry : Nat
  first : Nat
  start : Nat
  dropped : Bool
  deriving DecidableEq

/-- The comparison in a call: it is made where `spinOnce` finds a frame in progress. -/
def Watch.check (cfg : NodeConfig) (callbacks : Callbacks cfg) (t : Timeline) (w : Watch) :
    Call → Option Check
  | .spinOnce =>
    if w.node.receiver.mode = .FIRST_FF then none
    else
      some { entry := w.dates.entry, first := w.dates.first, start := t.start w.node,
             dropped := .reset ∈ (spinOnce cfg callbacks w.node).2.1 }
  | _ => none

/-- The frame is dropped if and only if more than 20 ms have passed since its first byte was
read. -/
def Check.Exact (c : Check) : Prop := c.dropped = true ↔ c.first + SERIAL_MSG_TIMEOUT < c.start

/-- How often the counter has started again. -/
def epoch (ms : Nat) : Nat := ms / 2 ^ 32

/-- What the counter shows. -/
def shown (ms : Nat) : Nat := ms % 2 ^ 32

/-- Either the counter has not started again between the deadline and this call, in either
order, and the call does not start behind the deadline while the 20 ms are not over.  Or the
counter has started again since the deadline, and has come as far again if and only if the
20 ms are over. -/
def Check.Timely (c : Check) : Prop :=
  let deadline := c.entry + SERIAL_MSG_TIMEOUT
  (epoch c.start = epoch deadline ∧
    ¬ (deadline < c.start ∧ c.start ≤ c.first + SERIAL_MSG_TIMEOUT)) ∨
  (epoch deadline < epoch c.start ∧
    (shown deadline < shown c.start ↔ c.first + SERIAL_MSG_TIMEOUT < c.start))

instance (c : Check) : Decidable c.Exact := inferInstanceAs (Decidable (_ ↔ _))

instance (c : Check) : Decidable c.Timely := inferInstanceAs (Decidable (_ ∨ _))

/-- The dates of a comparison are in order, and it is one of readings. -/
structure Check.Dated (c : Check) : Prop where
  entry_le_start : c.entry ≤ c.start
  entry_le_first : c.entry ≤ c.first
  dropped_iff : c.dropped = true ↔ shown (c.entry + SERIAL_MSG_TIMEOUT) < shown c.start

theorem Check.Dated.exact_iff_timely {c : Check} (h : c.Dated) : c.Exact ↔ c.Timely := by
  obtain ⟨hstart, hfirst, hdropped⟩ := h
  unfold Check.Exact Check.Timely
  rw [hdropped]
  unfold shown epoch SERIAL_MSG_TIMEOUT
  dsimp only
  omega

/-! ## What a node does to the deadline -/

/-- The deadline stays, and the clock goes on. -/
structure KeepsDeadline (nh nh' : NodeHandle) : Prop where
  clock : nh'.hardware.clock = nh.hardware.clock
  readings : nh.hardware.readings ≤ nh'.hardware.readings
  deadline : nh'.lastMsgTimeoutTime = nh.lastMsgTimeoutTime

/-- Callbacks cannot write to the protected members of a node, and leave the clock to itself. -/
def Callbacks.KeepDeadline {cfg : NodeConfig} (callbacks : Callbacks cfg) : Prop :=
  ∀ i nh, KeepsDeadline nh (callbacks.run i nh)

section KeepsDeadline

variable {cfg : NodeConfig} {nh : NodeHandle}

theorem KeepsDeadline.refl (nh : NodeHandle) : KeepsDeadline nh nh := ⟨rfl, Nat.le_refl _, rfl⟩

theorem KeepsDeadline.trans {a b c : NodeHandle} (h : KeepsDeadline a b)
    (h' : KeepsDeadline b c) : KeepsDeadline a c :=
  ⟨h'.clock.trans h.clock, Nat.le_trans h.readings h'.readings, h'.deadline.trans h.deadline⟩

theorem publish_keepsDeadline (h : nh.Initialised cfg) (id : Int) (msg : Msg) :
    KeepsDeadline nh (publish cfg id msg nh).1 := by
  obtain ⟨sent, hsends, -⟩ := publish_sends h id msg
  obtain ⟨ub, out, heq⟩ := hsends.eq
  rw [heq]
  exact ⟨rfl, Nat.le_refl _, rfl⟩

/-- A reading of the clock. -/
theorem time_keepsDeadline (nh : NodeHandle) (rtTime : UInt32) :
    KeepsDeadline nh { nh with rtTime := rtTime, hardware := nh.hardware.time.2 } :=
  ⟨rfl, Nat.le_succ _, rfl⟩

theorem requestSyncTime_keepsDeadline (h : nh.Initialised cfg) :
    KeepsDeadline nh (requestSyncTime cfg nh) :=
  (publish_keepsDeadline h TopicInfo.ID_TIME (timeMsg 0x78563412 0x78563412)).trans
    (time_keepsDeadline _ _)

theorem announce_keepsDeadline (h : nh.Initialised cfg) (bufferSize : Nat)
    (slots : List (Option Endpoint)) : KeepsDeadline nh (announce cfg bufferSize slots nh) := by
  induction slots generalizing nh with
  | nil => exact KeepsDeadline.refl nh
  | cons slot rest ih =>
    cases slot with
    | none => exact ih h
    | some e =>
      have hpublish := publish_keepsDeadline h e.endpoint (topicInfo e bufferSize)
      exact hpublish.trans (ih (publish_keeps h e.endpoint (topicInfo e bufferSize)).initialised)

theorem negotiateTopics_keepsDeadline (h : nh.Initialised cfg) :
    KeepsDeadline nh (negotiateTopics cfg nh) := by
  have hpub := announce_keepsDeadline h cfg.OUTPUT_SIZE nh.publishers
  have hinit := (announce_keeps h cfg.OUTPUT_SIZE nh.publishers).initialised
  have hsub := announce_keepsDeadline hinit cfg.INPUT_SIZE
    (announce cfg cfg.OUTPUT_SIZE nh.publishers nh).subscribers
  have hboth := hpub.trans hsub
  exact ⟨hboth.clock, hboth.readings, hboth.deadline⟩

theorem syncTime_keepsDeadline (nh : NodeHandle) : KeepsDeadline nh (syncTime nh) :=
  ⟨rfl, Nat.le_add_right nh.hardware.readings 3, rfl⟩

theorem dispatch_keepsDeadline (h : nh.Initialised cfg) {callbacks : Callbacks cfg}
    (hcallbacks : callbacks.KeepDeadline) (c_time : UInt32) (topic : Int) :
    KeepsDeadline nh (dispatch cfg callbacks c_time topic nh).nh := by
  unfold dispatch
  dsimp only
  split
  · have hsync := requestSyncTime_keepsDeadline h
    have hnegotiate := negotiateTopics_keepsDeadline (requestSyncTime_keeps h).initialised
    have hboth := hsync.trans hnegotiate
    exact ⟨hboth.clock, hboth.readings, hboth.deadline⟩
  split
  · have hsync := syncTime_keepsDeadline (openInput nh)
    exact ⟨hsync.clock, hsync.readings, hsync.deadline⟩
  split
  · exact ⟨rfl, Nat.le_refl _, rfl⟩
  split
  · exact ⟨rfl, Nat.le_refl _, rfl⟩
  split
  · split
    · have hrun := hcallbacks (topic - 100).toNat (openInput nh)
      exact ⟨hrun.clock, hrun.readings, hrun.deadline⟩
    · exact KeepsDeadline.refl nh
  · exact KeepsDeadline.refl nh

/-- Only the first `ff` of a frame sets the deadline. -/
theorem react_keepsDeadline (h : nh.Initialised cfg) {callbacks : Callbacks cfg}
    (hcallbacks : callbacks.KeepDeadline) (c_time : UInt32) {reaction : Reaction}
    (hreaction : reaction ≠ .sync) :
    KeepsDeadline nh (react cfg callbacks c_time reaction nh).nh := by
  cases reaction with
  | sync => exact absurd rfl hreaction
  | quiet | header | store => exact KeepsDeadline.refl nh
  | skip =>
    unfold react
    dsimp only
    split <;> exact ⟨rfl, Nat.le_succ _, rfl⟩
  | version =>
    unfold react
    dsimp only
    split
    · exact KeepsDeadline.refl nh
    · exact requestSyncTime_keepsDeadline h
  | invalidTopic => exact ⟨rfl, Nat.le_refl _, rfl⟩
  | message topic => exact dispatch_keepsDeadline h hcallbacks c_time topic

theorem spinExpired_keepsDeadline (c_time : UInt32) (nh : NodeHandle) :
    KeepsDeadline nh (spinExpired c_time nh).1 := by
  unfold spinExpired
  split
  · exact ⟨rfl, Nat.le_succ _, rfl⟩
  · exact KeepsDeadline.refl nh

theorem restartIfTimedOut_keepsDeadline (c_time : UInt32) (nh : NodeHandle) :
    KeepsDeadline nh (restartIfTimedOut c_time nh) := by
  unfold restartIfTimedOut
  split
  · exact ⟨rfl, Nat.le_refl _, rfl⟩
  · exact KeepsDeadline.refl nh

theorem occasionallySync_keepsDeadline (h : nh.Initialised cfg) (c_time : UInt32) :
    KeepsDeadline nh (occasionallySync cfg c_time nh) := by
  unfold occasionallySync
  split
  · have hsync := requestSyncTime_keepsDeadline h
    exact ⟨hsync.clock, hsync.readings, hsync.deadline⟩
  · exact KeepsDeadline.refl nh

end KeepsDeadline

/-! ## The invariant -/

/-- The deadline of the frame that a node is reading belongs to its dates. -/
structure Dated (cfg : NodeConfig) (t : Timeline) (d : Dates) (nh : NodeHandle) : Prop where
  initialised : nh.Initialised cfg
  clock : nh.hardware.clock = t.clock
  entry_le_start : nh.receiver.mode ≠ .FIRST_FF → d.entry ≤ t.start nh
  entry_le_first : nh.receiver.mode ≠ .FIRST_FF → d.entry ≤ d.first
  deadline : nh.receiver.mode ≠ .FIRST_FF →
    nh.lastMsgTimeoutTime = UInt32.ofNat (d.entry + SERIAL_MSG_TIMEOUT)

/-- A machine that does not wait for a first `ff` was not waiting before, or has got one. -/
theorem Receiver.step_waiting {cfg : NodeConfig} {r : Receiver} {data : UInt8}
    (hmode : (r.step cfg data).1.mode ≠ .FIRST_FF) (hreaction : (r.step cfg data).2 ≠ .sync) :
    r.mode ≠ .FIRST_FF := by
  intro hwaiting
  unfold Receiver.step at hmode hreaction
  simp only [hwaiting] at hmode hreaction
  split at hreaction
  · exact hreaction rfl
  · rename_i hdata
    rw [if_neg hdata] at hmode
    exact hmode rfl

theorem Acts.see_eq {cfg : NodeConfig} {registered : Int → Prop} {messageIn : List UInt8}
    {reaction : Reaction} {acts : List Event} (h : Acts cfg registered messageIn reaction acts)
    (t : Timeline) (start : Nat) (d : Dates) : acts.foldl (Dates.see t start) d = d := by
  cases h <;> rfl

/-- Behind a byte there is no timeout. -/
theorem Acts.not_reset {cfg : NodeConfig} {registered : Int → Prop} {messageIn : List UInt8}
    {reaction : Reaction} {acts : List Event} (h : Acts cfg registered messageIn reaction acts) :
    .reset ∉ acts := by
  cases h <;> simp

/-- Only a first `ff` has new dates. -/
theorem Dates.see_read (t : Timeline) (start : Nat) (d : Dates) (data : UInt8)
    {reaction : Reaction} (h : reaction ≠ .sync) :
    (d.see t start (.read data reaction)).entry = d.entry ∧
      (d.see t start (.read data reaction)).first = d.first := by
  cases reaction with
  | sync => exact absurd rfl h
  | _ => exact ⟨rfl, rfl⟩

theorem Timeline.le {t : Timeline} {m n : Nat} (h : m ≤ n) : t.reading m ≤ t.reading n :=
  monotone_nat_of_le_succ t.mono h

theorem KeepsDeadline.start_le {t : Timeline} {nh nh' : NodeHandle} (h : KeepsDeadline nh nh') :
    t.start nh ≤ t.start nh' := Timeline.le h.readings

section Steps

variable {cfg : NodeConfig} {callbacks : Callbacks cfg} {t : Timeline} {d : Dates}
  {nh : NodeHandle}

/-- What keeps the mode, or gives up the frame, and keeps the deadline, keeps the
invariant. -/
theorem Dated.keeps (h : Dated cfg t d nh) {nh' : NodeHandle} (hinit : nh'.Initialised cfg)
    (hmode : nh'.receiver.mode ≠ .FIRST_FF → nh.receiver.mode ≠ .FIRST_FF)
    (hdeadline : KeepsDeadline nh nh') : Dated cfg t d nh' where
  initialised := hinit
  clock := hdeadline.clock.trans h.clock
  entry_le_start hnow := Nat.le_trans (h.entry_le_start (hmode hnow)) hdeadline.start_le
  entry_le_first hnow := h.entry_le_first (hmode hnow)
  deadline hnow := hdeadline.deadline.trans (h.deadline (hmode hnow))

/-- What keeps the state machine keeps the mode. -/
theorem Dated.of_keeps (h : Dated cfg t d nh) {nh' : NodeHandle} (hkeeps : Keeps cfg nh nh')
    (hdeadline : KeepsDeadline nh nh') : Dated cfg t d nh' :=
  h.keeps hkeeps.initialised (by rw [hkeeps.receiver]; exact id) hdeadline

/-- One byte: a first `ff` sets the dates and the deadline, and every other byte keeps them. -/
theorem Dated.handle (h : Dated cfg t d nh) (hcallbacks : callbacks.KeepDeadline) {start : Nat}
    (hstart : start ≤ t.start nh) (data : UInt8) :
    Dated cfg t
      ((handle cfg callbacks (UInt32.ofNat start) data nh).events.foldl (Dates.see t start) d)
      (handle cfg callbacks (UInt32.ofNat start) data nh).nh ∧
    start ≤ t.start (handle cfg callbacks (UInt32.ofNat start) data nh).nh ∧
    .reset ∉ (handle cfg callbacks (UInt32.ofNat start) data nh).events := by
  have hinit : NodeHandle.Initialised cfg
      { nh with receiver := (nh.receiver.step cfg data).1 } :=
    h.initialised.congr (Receiver.step_messageIn_length data nh.receiver) rfl rfl
      (SameEnds.refl _) rfl rfl
  obtain ⟨hkeeps, hacts⟩ := react_spec hinit callbacks (UInt32.ofNat start)
    (nh.receiver.step cfg data).2
  have hevents : (Device.handle cfg callbacks (UInt32.ofNat start) data nh).events =
      .read data (nh.receiver.step cfg data).2 ::
        (react cfg callbacks (UInt32.ofNat start) (nh.receiver.step cfg data).2
          { nh with receiver := (nh.receiver.step cfg data).1 }).events := rfl
  have hreset : .reset ∉ (Device.handle cfg callbacks (UInt32.ofNat start) data nh).events := by
    rw [hevents, List.mem_cons, not_or]
    exact ⟨Event.noConfusion, hacts.not_reset⟩
  have hseen : (Device.handle cfg callbacks (UInt32.ofNat start) data nh).events.foldl
      (Dates.see t start) d = d.see t start (.read data (nh.receiver.step cfg data).2) := by
    rw [hevents, List.foldl_cons, hacts.see_eq]
  rw [hseen]
  by_cases hsync : (nh.receiver.step cfg data).2 = .sync
  · have hnh : (Device.handle cfg callbacks (UInt32.ofNat start) data nh).nh =
        { nh with
          receiver := (nh.receiver.step cfg data).1
          lastMsgTimeoutTime := UInt32.ofNat start + 20 } := by
      unfold Device.handle
      simp only [hsync, react]
    refine ⟨?_, by rw [hnh]; exact hstart, hreset⟩
    rw [hnh, hsync]
    refine ⟨hinit.congr rfl rfl rfl (SameEnds.refl _) rfl rfl, h.clock, fun _ => hstart,
      fun _ => Nat.le_add_right _ _, fun _ => ?_⟩
    show UInt32.ofNat start + 20 = UInt32.ofNat (start + 20)
    rw [UInt32.ofNat_add]
    rfl
  · obtain ⟨hentry, hfirst⟩ := Dates.see_read t start d data hsync
    have hdeadline := react_keepsDeadline hinit hcallbacks (UInt32.ofNat start) hsync
    have hbefore : (Device.handle cfg callbacks (UInt32.ofNat start) data nh).nh.receiver.mode ≠
        .FIRST_FF → nh.receiver.mode ≠ .FIRST_FF := by
      intro hmode
      refine Receiver.step_waiting ?_ hsync
      rw [← show _ = (nh.receiver.step cfg data).1 from hkeeps.receiver]
      exact hmode
    refine ⟨⟨hkeeps.initialised, hdeadline.clock.trans h.clock, fun hmode => ?_, fun hmode => ?_,
      fun hmode => ?_⟩, Nat.le_trans hstart hdeadline.start_le, hreset⟩
    · rw [hentry]
      exact Nat.le_trans (h.entry_le_start (hbefore hmode)) hdeadline.start_le
    · rw [hentry, hfirst]
      exact h.entry_le_first (hbefore hmode)
    · rw [hentry]
      exact hdeadline.deadline.trans (h.deadline (hbefore hmode))

/-- The loop keeps the invariant, and does not time out. -/
theorem Dated.spinLoop (h : Dated cfg t d nh) (hcallbacks : callbacks.KeepDeadline) {start : Nat}
    (hstart : start ≤ t.start nh) (rx : List UInt8) :
    Dated cfg t
      ((spinLoop cfg callbacks (UInt32.ofNat start) rx nh).events.foldl (Dates.see t start) d)
      (spinLoop cfg callbacks (UInt32.ofNat start) rx nh).nh ∧
    .reset ∉ (spinLoop cfg callbacks (UInt32.ofNat start) rx nh).events := by
  induction rx generalizing d nh with
  | nil =>
    rw [Device.spinLoop]
    exact ⟨h.of_keeps (spinExpired_keeps h.initialised (UInt32.ofNat start))
      (spinExpired_keepsDeadline (UInt32.ofNat start) nh), List.not_mem_nil⟩
  | cons data rest ih =>
    have hkeeps := spinExpired_keeps h.initialised (UInt32.ofNat start)
    have hdeadline := spinExpired_keepsDeadline (UInt32.ofNat start) nh
    rw [Device.spinLoop]
    generalize spinExpired (UInt32.ofNat start) nh = spent at hkeeps hdeadline
    obtain ⟨nh', expired⟩ := spent
    have hexpired := h.of_keeps hkeeps hdeadline
    -- the byte is taken from what has arrived
    have htaken : Dated cfg t d { nh' with hardware := { nh'.hardware with rx := rest } } :=
      hexpired.keeps (hkeeps.initialised.congr rfl rfl rfl (SameEnds.refl _) rfl rfl) id
        ⟨rfl, Nat.le_refl _, rfl⟩
    obtain ⟨hfirst, hstart', hreset⟩ := htaken.handle hcallbacks
      (Nat.le_trans hstart hdeadline.start_le) data
    dsimp only
    split
    · exact ⟨hexpired, List.not_mem_nil⟩
    · split
      · exact ⟨hfirst, hreset⟩
      · obtain ⟨hmore, hmoreReset⟩ := ih hfirst hstart'
        rw [List.foldl_append, List.mem_append, not_or]
        exact ⟨hmore, hreset, hmoreReset⟩

/-- The first thing that a call does is to read the clock, and then it gives up a frame for
which the counter shows more than at the deadline. -/
theorem Dated.resetIfTimedOut (h : Dated cfg t d nh) {c_time : UInt32}
    (hc_time : c_time = UInt32.ofNat (t.start nh)) {nh' : NodeHandle}
    (hkeeps : Keeps cfg nh nh') (hdeadline : KeepsDeadline nh nh') :
    Dated cfg t d (resetIfTimedOut c_time nh').1 ∧
      t.start nh ≤ t.start (resetIfTimedOut c_time nh').1 ∧
      (resetIfTimedOut c_time nh').2.foldl (Dates.see t (t.start nh)) d = d ∧
      (nh.receiver.mode ≠ .FIRST_FF → (.reset ∈ (resetIfTimedOut c_time nh').2 ↔
        shown (d.entry + SERIAL_MSG_TIMEOUT) < shown (t.start nh))) := by
  have hnext := h.of_keeps hkeeps hdeadline
  have hlate : nh.receiver.mode ≠ .FIRST_FF → (c_time > nh'.lastMsgTimeoutTime ↔
      shown (d.entry + SERIAL_MSG_TIMEOUT) < shown (t.start nh)) := by
    intro hmode
    rw [hdeadline.deadline, h.deadline hmode, hc_time, gt_iff_lt, UInt32.lt_iff_toNat_lt]
    exact Iff.rfl
  unfold Device.resetIfTimedOut
  split
  · rename_i htimeout
    obtain ⟨hmode, htime⟩ := htimeout
    rw [hkeeps.receiver] at hmode
    refine ⟨?_, hdeadline.start_le, rfl, fun _ => ?_⟩
    · exact hnext.keeps (hkeeps.initialised.congr rfl rfl rfl (SameEnds.refl _) rfl rfl)
        (fun hnow => absurd rfl hnow) ⟨rfl, Nat.le_refl _, rfl⟩
    · exact iff_of_true (List.mem_singleton_self _) ((hlate hmode).mp htime)
  · rename_i hnone
    refine ⟨hnext, hdeadline.start_le, rfl, fun hmode => ?_⟩
    refine iff_of_false List.not_mem_nil fun hover => hnone ⟨?_, (hlate hmode).mpr hover⟩
    rw [hkeeps.receiver]
    exact hmode

/-- A call of `spinOnce` keeps the invariant, and times out a frame for which the counter shows
more than at the deadline. -/
theorem Dated.spinOnce (h : Dated cfg t d nh) (hcallbacks : callbacks.KeepDeadline) :
    Dated cfg t ((spinOnce cfg callbacks nh).2.1.foldl (Dates.see t (t.start nh)) d)
        (spinOnce cfg callbacks nh).1 ∧
      (nh.receiver.mode ≠ .FIRST_FF → (.reset ∈ (spinOnce cfg callbacks nh).2.1 ↔
        shown (d.entry + SERIAL_MSG_TIMEOUT) < shown (t.start nh))) := by
  have hc_time : nh.hardware.time.1 = UInt32.ofNat (t.start nh) := by
    show nh.hardware.clock nh.hardware.readings = _
    rw [h.clock]
    rfl
  have htime : Keeps cfg nh { nh with hardware := nh.hardware.time.2 } :=
    keeps_of_eq h.initialised rfl rfl rfl rfl (SameEnds.refl _) rfl rfl
  have hread : KeepsDeadline nh { nh with hardware := nh.hardware.time.2 } :=
    ⟨rfl, Nat.le_succ _, rfl⟩
  have hrestart := restartIfTimedOut_keeps htime.initialised (UInt32.ofNat (t.start nh))
  obtain ⟨hreset, hstart, hsame, hlate⟩ := h.resetIfTimedOut rfl (htime.trans hrestart)
    (hread.trans (restartIfTimedOut_keepsDeadline (UInt32.ofNat (t.start nh)) _))
  unfold Device.spinOnce
  rw [show nh.hardware.time = (UInt32.ofNat (t.start nh), nh.hardware.time.2) from
    Prod.ext hc_time rfl]
  dsimp only
  generalize Device.resetIfTimedOut (UInt32.ofNat (t.start nh))
    (restartIfTimedOut (UInt32.ofNat (t.start nh)) { nh with hardware := nh.hardware.time.2 }) =
      started at hreset hstart hsame hlate
  obtain ⟨nh', reset⟩ := started
  dsimp only at hreset hstart hsame hlate
  obtain ⟨hloop, hnone⟩ := hreset.spinLoop hcallbacks hstart nh'.hardware.rx
  have hiff : nh.receiver.mode ≠ .FIRST_FF → (.reset ∈ reset ++ (Device.spinLoop cfg callbacks
      (UInt32.ofNat (t.start nh)) nh'.hardware.rx nh').events ↔
        shown (d.entry + SERIAL_MSG_TIMEOUT) < shown (t.start nh)) := by
    intro hmode
    rw [List.mem_append, or_iff_left hnone]
    exact hlate hmode
  split
  · dsimp only
    rw [List.foldl_append, hsame]
    exact ⟨hloop, hiff⟩
  · dsimp only
    rw [List.foldl_append, hsame]
    exact ⟨hloop.of_keeps (occasionallySync_keeps hloop.initialised _)
      (occasionallySync_keepsDeadline hloop.initialised _), hiff⟩

/-- Every call keeps the invariant. -/
theorem Dated.step {w : Watch} (h : Dated cfg t w.dates w.node)
    (hcallbacks : callbacks.KeepDeadline) (call : Call) :
    Dated cfg t (w.step cfg callbacks t call).dates (w.step cfg callbacks t call).node := by
  have hspins := call.run_spins callbacks h.initialised
  cases call with
  | spinOnce => exact (h.spinOnce hcallbacks).1
  | arrive bytes => exact h.keeps hspins.initialised id ⟨rfl, Nat.le_refl _, rfl⟩
  | publish id msg =>
    exact h.of_keeps (publish_keeps h.initialised id msg)
      (publish_keepsDeadline h.initialised id msg)
  | log level text =>
    exact h.of_keeps (publish_keeps h.initialised _ _) (publish_keepsDeadline h.initialised _ _)
  | advertise p =>
    refine h.of_keeps (advertise_keeps h.initialised p) ?_
    show KeepsDeadline _ (Device.advertise cfg p w.node).1
    unfold Device.advertise
    split <;> exact ⟨rfl, Nat.le_refl _, rfl⟩
  | subscribe s =>
    refine h.of_keeps (subscribe_keeps h.initialised s) ?_
    show KeepsDeadline _ (Device.subscribe s w.node).1
    unfold Device.subscribe
    split <;> exact ⟨rfl, Nat.le_refl _, rfl⟩
  | requestSyncTime =>
    exact h.of_keeps (requestSyncTime_keeps h.initialised)
      (requestSyncTime_keepsDeadline h.initialised)
  | setNow sec nanosec =>
    exact h.of_keeps (setNow_keeps h.initialised sec nanosec) ⟨rfl, Nat.le_succ _, rfl⟩
  | now => exact h.keeps hspins.initialised id ⟨rfl, Nat.le_succ _, rfl⟩
  | setSpinTimeout timeout => exact h.keeps hspins.initialised id ⟨rfl, Nat.le_refl _, rfl⟩

/-- The comparison that a call makes is one of these dates. -/
theorem Dated.check {w : Watch} (h : Dated cfg t w.dates w.node)
    (hcallbacks : callbacks.KeepDeadline) {call : Call} {c : Check}
    (hc : w.check cfg callbacks t call = some c) : c.Dated := by
  cases call with
  | spinOnce =>
    unfold Watch.check at hc
    dsimp only at hc
    split at hc
    · cases hc
    · rename_i hmode
      obtain rfl := Option.some.inj hc
      refine ⟨h.entry_le_start hmode, h.entry_le_first hmode, ?_⟩
      rw [decide_eq_true_iff]
      exact (h.spinOnce hcallbacks).2 hmode
  | _ => cases hc

end Steps

/-! ## Runs -/

/-- In every run of a node that starts without a frame in progress, all timeouts are exact if
and only if all comparisons are made in time. -/
theorem timeouts_exact_iff (cfg : NodeConfig) (callbacks : Callbacks cfg) (t : Timeline)
    (nh : NodeHandle) (calls : List Call) (hinit : nh.Initialised cfg)
    (hmode : nh.receiver.mode = .FIRST_FF) (hclock : nh.hardware.clock = t.clock)
    (hcallbacks : callbacks.KeepDeadline) :
    Throughout (Watch.step cfg callbacks t)
        (fun w call => ∀ c ∈ w.check cfg callbacks t call, c.Exact) (Watch.new nh) calls ↔
      Throughout (Watch.step cfg callbacks t)
        (fun w call => ∀ c ∈ w.check cfg callbacks t call, c.Timely) (Watch.new nh) calls := by
  have hdated : Always (Watch.step cfg callbacks t) (fun w => Dated cfg t w.dates w.node)
      (Watch.new nh) calls :=
    Always.of_step ⟨hinit, hclock, fun h => absurd hmode h, fun h => absurd hmode h,
      fun h => absurd hmode h⟩ fun w call h => h.step hcallbacks call
  constructor
  · intro hexact
    exact Throughout.of_always hdated hexact fun w call h hexact c hc =>
      (h.check hcallbacks hc).exact_iff_timely.mp (hexact c hc)
  · intro htimely
    exact Throughout.of_always hdated htimely fun w call h htimely c hc =>
      (h.check hcallbacks hc).exact_iff_timely.mpr (htimely c hc)

/-- A node with the clock of a timeline. -/
def nodeOn (t : Timeline) : NodeHandle :=
  initNode atmega168 (construct atmega168 { idleHardware with clock := t.clock })

/-- A first `ff`, and another call that finds nothing to read. -/
def stalledCalls : List Call := [.arrive [0xff], .spinOnce, .spinOnce]

theorem noCallbacks_keepDeadline (cfg : NodeConfig) : (noCallbacks cfg).KeepDeadline :=
  fun _ nh => KeepsDeadline.refl nh

/-- A call every 50 ms. -/
def slowTimeline : Timeline where
  reading n := 50 * n
  delay _ := 0
  mono n := by omega

/-- The second call drops the frame, after 50 ms. -/
theorem slowTimeline_exact :
    Throughout (Watch.step atmega168 (noCallbacks _) slowTimeline)
      (fun w call => ∀ c ∈ w.check atmega168 (noCallbacks _) slowTimeline call, c.Exact)
      (Watch.new (nodeOn slowTimeline)) stalledCalls := by
  refine (timeouts_exact_iff atmega168 (noCallbacks _) slowTimeline (nodeOn slowTimeline)
    stalledCalls (construct_initialised atmega168 _) rfl rfl (noCallbacks_keepDeadline _)).mpr ?_
  refine throughout_cons.mpr ⟨by decide +kernel, throughout_cons.mpr ⟨by decide +kernel,
    throughout_cons.mpr ⟨by decide +kernel, throughout_nil⟩⟩⟩

/-- A call every 5 ms, and the counter starts again 10 ms after the first. -/
def wrappingTimeline : Timeline where
  reading n := 2 ^ 32 - 10 + 5 * n
  delay _ := 0
  mono n := by omega

/-- A call every 40 ms.  It reads its first byte after 30 ms. -/
def busyTimeline : Timeline where
  reading n := 40 * n
  delay _ := 30
  mono n := by omega

/-- The second call drops the frame after 5 ms, because the counter has started again at the
deadline, and after 10 ms, because the first call has been running for 30 ms. -/
theorem stalledCalls_not_exact :
    (¬ Throughout (Watch.step atmega168 (noCallbacks _) wrappingTimeline)
      (fun w call => ∀ c ∈ w.check atmega168 (noCallbacks _) wrappingTimeline call, c.Exact)
      (Watch.new (nodeOn wrappingTimeline)) stalledCalls) ∧
    ¬ Throughout (Watch.step atmega168 (noCallbacks _) busyTimeline)
      (fun w call => ∀ c ∈ w.check atmega168 (noCallbacks _) busyTimeline call, c.Exact)
      (Watch.new (nodeOn busyTimeline)) stalledCalls := by
  constructor
  · intro h
    have hlast := h [.arrive [0xff], .spinOnce] .spinOnce List.prefix_rfl
    revert hlast
    decide +kernel
  · intro h
    have hlast := h [.arrive [0xff], .spinOnce] .spinOnce List.prefix_rfl
    revert hlast
    decide +kernel

end Ros2Serial.Device
