import Ros2Serial.Device.Clock
import Ros2Serial.Device.Trace
import Ros2Serial.Lib.Runs

/-!
# Synchronising the clocks

A node asks for the time, the host answers with its time at that instant, and `syncTime`
adds what the counter of the node has advanced since `rt_time`.  That is when the latest
request went out, whichever request the answer belongs to.

`Syncing` is the node with the requests and the answers that are on their way.  Both keep
their order, and may take any time.  Instants are nanoseconds.  The host's clock shows
`epoch` at instant 0, and the counter of the node is `phase` ahead of the instants.  A
function of the node takes no time.

What the node takes for the instant of the request is the last one at which its counter
showed `rt_time` (`counterMark`).  Where the host has answered no earlier than that, the
clock of the node is right: it is not behind, and ahead by no more than the way to the host
and back (`accurate_of_inOrder`).
-/

namespace Ros2Serial.Link

open Bytes PlainCdr Ucdr Device Runs

/-! ## The two clocks -/

structure Clocks where
  epoch : Nat
  phase : Nat

/-- The host's clock, in nanoseconds. -/
def Clocks.host (c : Clocks) (instant : Nat) : Nat := c.epoch + instant

/-- How often the counter of the node has been advanced. -/
def Clocks.ticks (c : Clocks) (instant : Nat) : Nat := (c.phase + instant) / 1000000

/-- The counter of the node. -/
def Clocks.counter (c : Clocks) (instant : Nat) : UInt32 := UInt32.ofNat (c.ticks instant)

/-- The payload of a time. -/
def timePayload (sec nanosec : UInt32) : List UInt8 :=
  [0x00, 0x01, 0x00, 0x00] ++ LittleEndian.encode 4 sec.toNat ++
    LittleEndian.encode 4 nanosec.toNat

/-- What `handle_time` answers: the time of the host. -/
def Clocks.answer (c : Clocks) (instant : Nat) : UInt32 × UInt32 :=
  (UInt32.ofNat (c.host instant / 1000000000), UInt32.ofNat (c.host instant % 1000000000))

/-- The node when its counter shows this instant. -/
def Clocks.nodeAt (c : Clocks) (instant : Nat) (nh : NodeHandle) : NodeHandle :=
  { nh with hardware := { nh.hardware with clock := fun _ => c.counter instant } }

/-- The node when it has received a payload. -/
def received (payload : List UInt8) (nh : NodeHandle) : NodeHandle :=
  { nh with receiver := { nh.receiver with messageIn := overwrite nh.receiver.messageIn 0 payload } }

/-! ## Requests and answers -/

/-- The synchronisation that was last: the instant of the request that was answered, and that
of `syncTime`. -/
structure Synchronised where
  request : Nat
  instant : Nat

structure Syncing where
  node : NodeHandle
  instant : Nat
  /-- The instants of the requests that the host has not got. -/
  requests : List Nat
  /-- The instants of the requests that the host has answered, and of the answers. -/
  answers : List (Nat × Nat)
  /-- The instant of the latest request. -/
  latest : Nat
  synchronised : Option Synchronised

/-- A node that has not asked for the time. -/
def Syncing.start (nh : NodeHandle) : Syncing where
  node := nh
  instant := 0
  requests := []
  answers := []
  latest := 0
  synchronised := none

inductive SyncStep
  | wait (duration : Nat)
  /-- `requestSyncTime`. -/
  | request
  /-- `handle_time`, for the request that was sent first. -/
  | answer
  /-- `syncTime`, on the answer that was sent first. -/
  | sync
  deriving DecidableEq, Repr

/-- A step, which does nothing where it is not possible. -/
def Syncing.step (cfg : NodeConfig) (c : Clocks) (s : Syncing) : SyncStep → Syncing
  | .wait duration => { s with instant := s.instant + duration }
  | .request =>
    { s with
      node := requestSyncTime cfg (c.nodeAt s.instant s.node)
      requests := s.requests ++ [s.instant], latest := s.instant }
  | .answer =>
    match s.requests with
    | [] => s
    | request :: requests =>
      { s with requests := requests, answers := s.answers ++ [(request, s.instant)] }
  | .sync =>
    match s.answers with
    | [] => s
    | (request, answered) :: answers =>
      let (sec, nanosec) := c.answer answered
      { s with
        node := syncTime (openInput (received (timePayload sec nanosec) (c.nodeAt s.instant s.node)))
        answers := answers, synchronised := some ⟨request, s.instant⟩ }

/-! ## The error of the clock -/

/-- The clock of the node shows what that of the host shows and an error, which is not below
zero and not above the round trip, up to a millisecond.  The seconds of the node have 32
bits. -/
def Clocks.Close (c : Clocks) (roundTrip instant now : Nat) : Prop :=
  ∃ error : Int, (now : Int) = (c.host instant + error) % period ∧
    -1000000 < error ∧ error < roundTrip + 1000000

/-- After a synchronisation, and as long as the counter has not started again, the clock of
the node is close to that of the host. -/
def Syncing.Accurate (c : Clocks) (s : Syncing) : Prop :=
  ∀ sync ∈ s.synchronised, ∀ instant, sync.instant ≤ instant →
    c.ticks instant / 2 ^ 32 = c.ticks sync.instant / 2 ^ 32 →
    c.Close (sync.instant - sync.request) instant (c.nodeAt instant s.node).nowNanos

/-- The number of the last tick, at this instant, at which the counter showed what it shows at
the instant of the request. -/
def Clocks.counterMark (c : Clocks) (request instant : Nat) : Nat :=
  c.ticks instant - (c.ticks instant - c.ticks request) % 2 ^ 32

/-- An answer that is used was given no earlier than the counter last showed `rt_time`.  As
long as no request goes out for 2^32 ms, this says that the host had got the latest request
when it gave the answer, or could have got it. -/
def Syncing.InOrder (c : Clocks) (s : Syncing) (st : SyncStep) : Prop :=
  st = .sync → ∀ answer ∈ s.answers.head?, c.counterMark s.latest s.instant ≤ c.ticks answer.2

/-! ## One synchronisation -/

section Sync

variable {cfg : NodeConfig} {c : Clocks}

theorem Clocks.counter_toNat (c : Clocks) (instant : Nat) :
    (c.counter instant).toNat = c.ticks instant % 2 ^ 32 := UInt32.toNat_ofNat'

theorem Clocks.ticks_mono (c : Clocks) {instant later : Nat} (h : instant ≤ later) :
    c.ticks instant ≤ c.ticks later := by
  simp only [Clocks.ticks]
  omega

/-- The counter has advanced by the ticks in between, until it starts again. -/
theorem Clocks.counter_sub (c : Clocks) {instant later : Nat} (h : instant ≤ later) :
    (c.counter later - c.counter instant).toNat =
      (c.ticks later - c.ticks instant) % 2 ^ 32 := by
  have hmono := c.ticks_mono h
  rw [UInt32.toNat_sub, c.counter_toNat, c.counter_toNat]
  omega

/-- The answer is the time of the host. -/
theorem Clocks.answer_spec (c : Clocks) (instant : Nat) :
    (c.answer instant).2 < 1000000000 ∧
      nanos (c.answer instant).1 (c.answer instant).2 % period = c.host instant % period := by
  have hnanosec : (UInt32.ofNat (c.host instant % 1000000000)).toNat =
      c.host instant % 1000000000 := by
    rw [UInt32.toNat_ofNat']
    omega
  constructor
  · show (UInt32.ofNat (c.host instant % 1000000000)).toNat < 1000000000
    omega
  · simp only [Clocks.answer, nanos, hnanosec, UInt32.toNat_ofNat', period]
    omega

@[simp] theorem timePayload_length (sec nanosec : UInt32) :
    (timePayload sec nanosec).length = 12 := by
  simp [timePayload]

theorem received_initialised {nh : NodeHandle} (h : nh.Initialised cfg)
    (hroom : 12 ≤ cfg.INPUT_SIZE) (sec nanosec : UInt32) :
    (received (timePayload sec nanosec) nh).Initialised cfg := by
  have hin := h.messageIn
  have hlength := timePayload_length sec nanosec
  exact h.congr (overwrite_length (by omega)) rfl rfl (SameEnds.refl _) rfl rfl

theorem nodeAt_initialised {nh : NodeHandle} (h : nh.Initialised cfg) (instant : Nat) :
    (c.nodeAt instant nh).Initialised cfg :=
  h.congr rfl rfl rfl (SameEnds.refl _) rfl rfl

/-- The node reads the time in the payload. -/
theorem received_replyTime {nh : NodeHandle} (h : nh.Initialised cfg)
    (hroom : 12 ≤ cfg.INPUT_SIZE) (sec nanosec : UInt32) :
    (openInput (received (timePayload sec nanosec) nh)).replyTime = (sec, nanosec) := by
  refine replyTime_eq (received_initialised h hroom sec nanosec) hroom ?_
  have hitems : (timeMsg sec nanosec).items =
      [.prim .four sec.toNat, .prim .four nanosec.toNat] := rfl
  have hslice : slice (overwrite nh.receiver.messageIn 0 (timePayload sec nanosec)) 0
      (timePayload sec nanosec).length = timePayload sec nanosec :=
    slice_overwrite_self (Nat.zero_le nh.receiver.messageIn.length)
  rw [timePayload_length] at hslice
  have hlayout : (timeMsg sec nanosec).ddsCdr = (timePayload sec nanosec).map some := by
    rw [Msg.ddsCdr, hitems]
    simp [encode, Item.encode, Item.endPos, padding, Width.bytes, timePayload]
  rw [hlayout]
  exact matches_map_some.mpr hslice

/-- What the offset of the node is after a synchronisation. -/
theorem sync_offset {nh : NodeHandle} (h : nh.Initialised cfg) (hroom : 12 ≤ cfg.INPUT_SIZE)
    {request instant : Nat} (hrt : nh.rtTime = c.counter request) (hle : request ≤ instant)
    (answered : Nat) {nh' : NodeHandle}
    (hnh' : nh' = syncTime (openInput (received
      (timePayload (c.answer answered).1 (c.answer answered).2) (c.nodeAt instant nh)))) :
    nh'.nsecOffset < 1000000000 ∧
      (nh'.offset + millis (c.ticks instant % 2 ^ 32)) % period =
        (c.host answered + millis ((c.ticks instant - c.ticks request) % 2 ^ 32)) % period := by
  obtain ⟨hnanosec, hanswer⟩ := c.answer_spec answered
  have hreply := received_replyTime (nodeAt_initialised (c := c) h instant) hroom
    (c.answer answered).1 (c.answer answered).2
  have hbelow : (openInput (received (timePayload (c.answer answered).1 (c.answer answered).2)
      (c.nodeAt instant nh))).replyTime.2 < 1000000000 := by
    rw [hreply]
    exact hnanosec
  obtain ⟨hbound, hoffset⟩ := syncTime_spec hbelow
  rw [← hnh'] at hbound hoffset
  rw [hreply] at hoffset
  have hsecond : (openInput (received (timePayload (c.answer answered).1 (c.answer answered).2)
      (c.nodeAt instant nh))).secondReading = c.counter instant := rfl
  have hfirst : (openInput (received (timePayload (c.answer answered).1 (c.answer answered).2)
      (c.nodeAt instant nh))).reading = c.counter instant := rfl
  have hrequest : (openInput (received (timePayload (c.answer answered).1 (c.answer answered).2)
      (c.nodeAt instant nh))).rtTime = c.counter request := hrt
  rw [hsecond, hfirst, hrequest, c.counter_toNat, c.counter_sub hle] at hoffset
  refine ⟨hbound, hoffset.trans ?_⟩
  rw [Nat.add_mod, hanswer, ← Nat.add_mod]

/-- The clock of the node is close to that of the host after a synchronisation whose answer is
in order. -/
theorem close_of_offset {nh : NodeHandle} (hbound : nh.nsecOffset < 1000000000)
    {request latest answered instant now : Nat}
    (hoffset : (nh.offset + millis (c.ticks instant % 2 ^ 32)) % period =
      (c.host answered + millis ((c.ticks instant - c.ticks latest) % 2 ^ 32)) % period)
    (hlatest : request ≤ latest) (hle : latest ≤ instant)
    (hanswered : answered ≤ instant) (horder : c.counterMark latest instant ≤ c.ticks answered)
    (hnow : instant ≤ now) (hperiod : c.ticks now / 2 ^ 32 = c.ticks instant / 2 ^ 32) :
    c.Close (instant - request) now (c.nodeAt now nh).nowNanos := by
  have hnode : (c.nodeAt now nh).nsecOffset < 1000000000 := hbound
  have hnowNanos : (c.nodeAt now nh).nowNanos =
      (nh.offset + millis (c.ticks now % 2 ^ 32)) % period := by
    rw [NodeHandle.nowNanos, (now_spec hnode).2, ← c.counter_toNat]
    rfl
  have hmono := c.ticks_mono hnow
  have hticks : c.ticks now % 2 ^ 32 - c.ticks instant % 2 ^ 32 = c.ticks now - c.ticks instant := by
    omega
  rw [mod_period_advance hoffset (by omega), hticks] at hnowNanos
  refine ⟨(answered : Int) + 1000000 * (c.ticks now - c.counterMark latest instant) - now, ?_, ?_, ?_⟩
  · rw [hnowNanos, Int.natCast_emod]
    congr 1
    have hmark := Nat.mod_le (c.ticks instant - c.ticks latest) (2 ^ 32)
    simp only [Clocks.host, Clocks.counterMark, millis]
    omega
  · simp only [Clocks.ticks, Clocks.counterMark] at *
    omega
  · simp only [Clocks.ticks, Clocks.counterMark] at *
    omega

end Sync

/-! ## Runs -/

section Runs

variable {cfg : NodeConfig} {c : Clocks} {s : Syncing} {st : SyncStep}

/-- What holds between any two steps.  The requests that are on their way were made no later
than the latest one, and then `rt_time` is its reading. -/
structure Syncing.Consistent (cfg : NodeConfig) (c : Clocks) (s : Syncing) : Prop where
  initialised : s.node.Initialised cfg
  latest_le : s.latest ≤ s.instant
  rtTime : s.requests ≠ [] ∨ s.answers ≠ [] → s.node.rtTime = c.counter s.latest
  requests : ∀ request ∈ s.requests, request ≤ s.latest
  answers : ∀ answer ∈ s.answers,
    answer.1 ≤ s.latest ∧ answer.1 ≤ answer.2 ∧ answer.2 ≤ s.instant

/-- A request changes nothing but `rt_time`, as far as the clock is concerned. -/
theorem requestSyncTime_clock {nh : NodeHandle} (h : nh.Initialised cfg) :
    (requestSyncTime cfg nh).Initialised cfg ∧ (requestSyncTime cfg nh).rtTime = nh.reading ∧
      SameOffset nh (requestSyncTime cfg nh) := by
  obtain ⟨sent, hsends, -⟩ := publish_sends h TopicInfo.ID_TIME (timeMsg 0x78563412 0x78563412)
  obtain ⟨ub, out, heq⟩ := hsends.eq
  refine ⟨(requestSyncTime_keeps h).initialised, ?_, ?_⟩
  · simp only [requestSyncTime, heq]
    rfl
  · simp only [requestSyncTime, heq]
    exact ⟨rfl, rfl⟩

theorem nowNanos_congr {nh nh' : NodeHandle} (h : SameOffset nh nh') (instant : Nat) :
    (c.nodeAt instant nh').nowNanos = (c.nodeAt instant nh).nowNanos := by
  simp only [NodeHandle.nowNanos, now, Clocks.nodeAt, h.sec, h.nsec]
  rfl

theorem Syncing.Consistent.step (hroom : 12 ≤ cfg.INPUT_SIZE) (h : s.Consistent cfg c)
    (st : SyncStep) :
    (s.step cfg c st).Consistent cfg c := by
  cases st with
  | wait duration =>
    refine ⟨h.initialised, Nat.le_add_right_of_le h.latest_le, h.rtTime, h.requests, ?_⟩
    intro answer hanswer
    obtain ⟨hlatest, hle, hinstant⟩ := h.answers answer hanswer
    exact ⟨hlatest, hle, Nat.le_add_right_of_le hinstant⟩
  | request =>
    obtain ⟨hinit, hrtTime, -⟩ :=
      requestSyncTime_clock (nodeAt_initialised (c := c) h.initialised s.instant)
    refine ⟨hinit, Nat.le_refl _, fun _ => hrtTime, ?_, ?_⟩
    · intro request hrequest
      rcases List.mem_append.mp hrequest with hold | hnew
      · exact Nat.le_trans (h.requests request hold) h.latest_le
      · exact Nat.le_of_eq (List.mem_singleton.mp hnew)
    · intro answer hanswer
      obtain ⟨hlatest, hle, hinstant⟩ := h.answers answer hanswer
      exact ⟨Nat.le_trans hlatest h.latest_le, hle, hinstant⟩
  | answer =>
    rw [Syncing.step]
    cases hrequests : s.requests with
    | nil => exact h
    | cons request requests =>
      have hfirst := h.requests request (by rw [hrequests]; exact List.mem_cons_self)
      refine ⟨h.initialised, h.latest_le, fun _ => h.rtTime (Or.inl ?_), ?_, ?_⟩
      · rw [hrequests]
        exact List.cons_ne_nil _ _
      · intro other hother
        exact h.requests other (by rw [hrequests]; exact List.mem_cons_of_mem _ hother)
      · intro answer hanswer
        rcases List.mem_append.mp hanswer with hold | hnew
        · exact h.answers answer hold
        · obtain rfl := List.mem_singleton.mp hnew
          exact ⟨hfirst, Nat.le_trans hfirst h.latest_le, Nat.le_refl _⟩
  | sync =>
    rw [Syncing.step]
    cases hanswers : s.answers with
    | nil => exact h
    | cons answer answers =>
      have hopened := openInput_keeps (received_initialised
        (nodeAt_initialised (c := c) h.initialised s.instant) hroom
        (c.answer answer.2).1 (c.answer answer.2).2)
      refine ⟨(syncTime_keeps hopened.initialised).initialised, h.latest_le,
        fun _ => h.rtTime (Or.inr ?_), h.requests, ?_⟩
      · rw [hanswers]
        exact List.cons_ne_nil _ _
      · intro other hother
        exact h.answers other (by rw [hanswers]; exact List.mem_cons_of_mem _ hother)

/-- A step keeps the clock of the node accurate, if the answer that it uses is in order. -/
theorem Syncing.Accurate.step (hroom : 12 ≤ cfg.INPUT_SIZE) (h : s.Accurate c)
    (hconsistent : s.Consistent cfg c) (horder : s.InOrder c st) :
    (s.step cfg c st).Accurate c := by
  cases st with
  | wait duration => exact h
  | request =>
    obtain ⟨-, -, hsame⟩ :=
      requestSyncTime_clock (nodeAt_initialised (c := c) hconsistent.initialised s.instant)
    have hsame' : SameOffset s.node (requestSyncTime cfg (c.nodeAt s.instant s.node)) :=
      ⟨hsame.sec, hsame.nsec⟩
    intro sync hsync instant hle hperiod
    show c.Close _ instant
      (c.nodeAt instant (requestSyncTime cfg (c.nodeAt s.instant s.node))).nowNanos
    rw [nowNanos_congr hsame']
    exact h sync hsync instant hle hperiod
  | answer =>
    rw [Syncing.step]
    cases s.requests with
    | nil => exact h
    | cons request requests => exact h
  | sync =>
    have hmark := horder rfl
    rw [Syncing.step]
    cases hanswers : s.answers with
    | nil => exact h
    | cons answer answers =>
      obtain ⟨request, answered⟩ := answer
      obtain ⟨hlatest, -, hanswered⟩ := hconsistent.answers (request, answered)
        (by rw [hanswers]; exact List.mem_cons_self)
      rw [hanswers] at hmark
      have hrt := hconsistent.rtTime (Or.inr (by rw [hanswers]; exact List.cons_ne_nil _ _))
      obtain ⟨hbound, hoffset⟩ :=
        sync_offset hconsistent.initialised hroom hrt hconsistent.latest_le answered rfl
      intro sync hsync instant hle hperiod
      obtain rfl := Option.mem_some.mp hsync
      exact close_of_offset hbound hoffset hlatest hconsistent.latest_le hanswered
        (hmark _ rfl) hle hperiod

theorem start_consistent {nh : NodeHandle} (h : nh.Initialised cfg) :
    (Syncing.start nh).Consistent cfg c := by
  refine ⟨h, Nat.le_refl _, ?_, ?_, ?_⟩
  · rintro (hempty | hempty) <;> exact absurd rfl hempty
  · exact fun request hrequest => absurd hrequest List.not_mem_nil
  · exact fun answer hanswer => absurd hanswer List.not_mem_nil

end Runs

/-- Two clocks that do not show the same. -/
def someClocks : Clocks := ⟨1700000000123456789, 4711⟩

/-- A new node on a small board. -/
def newNode : NodeHandle := initNode atmega168 (construct atmega168 idleHardware)

/-- Two requests, the second after the answer to the first. -/
def spacedRequests : List SyncStep :=
  [.request, .wait 5000000, .answer, .wait 7300000, .sync, .request, .wait 900000, .answer, .sync]

/-- A second request while the answer to the first is on its way. -/
def overtakenRequest : List SyncStep :=
  [.request, .wait 50000000, .answer, .wait 50000000, .request, .wait 50000000, .sync]

end Ros2Serial.Link
