import Ros2Serial.Device.Negotiation
import Ros2Serial.Device.Trace
import Ros2Serial.Lib.Runs

/-!
# A node on a named port

`initNode(portName)` sets the state machine up as `initNode()` does, but it leaves out
the two calls of `ucdr_init_buffer`.  The CDR buffers then stay as they were, which for
a node in static storage is all zero: both ends of a buffer are the null pointer, and it
has room for nothing.

Two nodes that differ in the CDR buffers only take the same steps until one of the
buffers is used (`Call.run_withBuffers`).  What uses them is listed by `Call.Uses`.  The
first use also ends the agreement of the two initialisers (`agrees_iff`), because no
buffer covers its array.  `publish_void` says what goes out then: frames without a
payload.
-/

namespace Ros2Serial.Device

open Bytes PlainCdr Ucdr Generator Runs

/-! ## The other initialiser -/

/-- `initNode(portName)`. -/
def initNodePortName (nh : NodeHandle) : NodeHandle :=
  { nh with
    receiver := { nh.receiver with mode := .FIRST_FF, bytes := 0, index := 0, topic := 0 } }

/-- The node with other CDR buffers. -/
def NodeHandle.withBuffers (nh : NodeHandle) (output input : Buffer) : NodeHandle :=
  { nh with outputCdr := output, inputCdr := input }

/-- The output buffer covers `message_out` behind the header, and the input buffer
covers `message_in`. -/
structure NodeHandle.Covers (cfg : NodeConfig) (nh : NodeHandle) : Prop where
  outputInit : nh.outputCdr.init = 7
  outputFinal : nh.outputCdr.final = cfg.OUTPUT_SIZE
  inputInit : nh.inputCdr.init = 0
  inputFinal : nh.inputCdr.final = cfg.INPUT_SIZE

theorem NodeHandle.Initialised.covers {cfg : NodeConfig} {nh : NodeHandle}
    (h : nh.Initialised cfg) : nh.Covers cfg :=
  ⟨h.outputInit, h.outputFinal, h.inputInit, h.inputFinal⟩

/-- The initialisers differ in the CDR buffers, and in nothing else. -/
theorem initNode_eq (cfg : NodeConfig) (nh : NodeHandle) :
    initNode cfg nh =
      (initNodePortName nh).withBuffers (initBuffer 7 (cfg.OUTPUT_SIZE - 7))
        (initBuffer 0 cfg.INPUT_SIZE) := rfl

/-! ## What uses the buffers -/

def Branch.usesBuffers : Branch → Bool
  | .publisher | .time | .subscriber _ => true
  | .parameterRequest | .txStop => false

/-- On a node that is not configured, a wrong protocol version is answered. -/
def Event.usesBuffers : Event → Bool
  | .read _ .version => true
  | .act branch _ => branch.usesBuffers
  | _ => false

/-- The call uses one of the CDR buffers of a node that is not configured. -/
def Call.Uses (cfg : NodeConfig) (callbacks : Callbacks cfg) (nh : NodeHandle) : Call → Prop
  | .publish id _ => Allowed id nh
  | .log _ _ | .requestSyncTime => True
  | .spinOnce => ∃ e ∈ (Device.spinOnce cfg callbacks nh).2.1, e.usesBuffers = true
  | _ => False

/-- None of the events uses a buffer. -/
def Unused (events : List Event) : Prop := ∀ e ∈ events, e.usesBuffers = false

theorem unused_cons {e : Event} {events : List Event} :
    Unused (e :: events) ↔ e.usesBuffers = false ∧ Unused events := List.forall_mem_cons

/-- A branch that uses a buffer is in no such list. -/
theorem not_unused {branch : Branch} {messageIn : List UInt8} {events : List Event}
    (hmem : .act branch messageIn ∈ events) (huses : branch.usesBuffers = true) :
    ¬ Unused events := by
  intro hunused
  have hnot : branch.usesBuffers = false := hunused _ hmem
  rw [huses] at hnot
  cases hnot

theorem unused_append {xs ys : List Event} : Unused (xs ++ ys) ↔ Unused xs ∧ Unused ys :=
  List.forall_mem_append

/-! ## Steps in lockstep -/

def Outcome.withBuffers (o : Outcome) (output input : Buffer) : Outcome :=
  { o with nh := o.nh.withBuffers output input }

section Lockstep

variable {cfg : NodeConfig} {nh : NodeHandle} (callbacks : Callbacks cfg) (output input : Buffer)

/-- The branches that use no buffer do the same with any buffers, and none of them
configures the node. -/
theorem dispatch_withBuffers (c_time : UInt32) (topic : Int) (hconf : nh.configured = false)
    (hunused : Unused (dispatch cfg callbacks c_time topic nh).events) :
    dispatch cfg callbacks c_time topic (nh.withBuffers output input) =
        (dispatch cfg callbacks c_time topic nh).withBuffers output input ∧
      (dispatch cfg callbacks c_time topic nh).nh.configured = false := by
  have hslot : (nh.withBuffers output input).subscriberAt (topic - 100) =
    nh.subscriberAt (topic - 100) := rfl
  unfold dispatch at hunused ⊢
  simp only [hslot] at hunused ⊢
  by_cases hpublisher : topic = TopicInfo.ID_PUBLISHER
  · rw [if_pos hpublisher] at hunused
    exact absurd hunused (not_unused (List.mem_singleton.mpr rfl) rfl)
  by_cases htime : topic = TopicInfo.ID_TIME
  · rw [if_neg hpublisher, if_pos htime] at hunused
    exact absurd hunused (not_unused (List.mem_singleton.mpr rfl) rfl)
  by_cases hparam : topic = TopicInfo.ID_PARAMETER_REQUEST
  · simp only [if_neg hpublisher, if_neg htime, if_pos hparam]
    exact ⟨rfl, hconf⟩
  by_cases hstop : topic = TopicInfo.ID_TX_STOP
  · simp only [if_neg hpublisher, if_neg htime, if_neg hparam, if_pos hstop]
    exact ⟨rfl, trivial⟩
  simp only [if_neg hpublisher, if_neg htime, if_neg hparam, if_neg hstop] at hunused ⊢
  by_cases hvalid : cfg.isTopicValid topic = true
  · simp only [if_pos hvalid] at hunused ⊢
    cases hat : nh.subscriberAt (topic - 100) with
    | some e =>
      rw [hat] at hunused
      exact absurd hunused (not_unused (List.mem_cons_of_mem _ (List.mem_singleton.mpr rfl)) rfl)
    | none => exact ⟨rfl, hconf⟩
  · simp only [if_neg hvalid]
    exact ⟨rfl, hconf⟩

theorem react_withBuffers (c_time : UInt32) (reaction : Reaction) (hconf : nh.configured = false)
    (hversion : reaction ≠ .version)
    (hunused : Unused (react cfg callbacks c_time reaction nh).events) :
    react cfg callbacks c_time reaction (nh.withBuffers output input) =
        (react cfg callbacks c_time reaction nh).withBuffers output input ∧
      (react cfg callbacks c_time reaction nh).nh.configured = false := by
  cases reaction with
  | quiet => exact ⟨rfl, hconf⟩
  | header bytes => exact ⟨rfl, hconf⟩
  | store index => exact ⟨rfl, hconf⟩
  | sync => exact ⟨rfl, hconf⟩
  | invalidTopic => exact ⟨rfl, rfl⟩
  | version => exact absurd rfl hversion
  | message topic => exact dispatch_withBuffers callbacks output input c_time topic hconf hunused
  | skip =>
    have hclock : (nh.withBuffers output input).hardware.time = nh.hardware.time := rfl
    simp only [react, hclock]
    split
    · exact ⟨rfl, rfl⟩
    · exact ⟨rfl, hconf⟩

theorem handle_withBuffers (c_time : UInt32) (data : UInt8) (hconf : nh.configured = false)
    (hunused : Unused (handle cfg callbacks c_time data nh).events) :
    handle cfg callbacks c_time data (nh.withBuffers output input) =
        (handle cfg callbacks c_time data nh).withBuffers output input ∧
      (handle cfg callbacks c_time data nh).nh.configured = false := by
  obtain ⟨hread, hacts⟩ :
      (Event.read data (nh.receiver.step cfg data).2).usesBuffers = false ∧ _ :=
    unused_cons.mp hunused
  have hversion : (nh.receiver.step cfg data).2 ≠ .version := by
    intro heq
    rw [heq] at hread
    cases hread
  have hconf' : { nh with receiver := (nh.receiver.step cfg data).1 }.configured = false := hconf
  obtain ⟨hsame, hstays⟩ := react_withBuffers callbacks output input c_time
    (nh.receiver.step cfg data).2 hconf' hversion hacts
  refine ⟨?_, hstays⟩
  exact congrArg (fun o : Outcome =>
    { o with events := .read data (nh.receiver.step cfg data).2 :: o.events }) hsame

theorem spinExpired_withBuffers (c_time : UInt32) (nh : NodeHandle) :
    spinExpired c_time (nh.withBuffers output input) =
        ((spinExpired c_time nh).1.withBuffers output input, (spinExpired c_time nh).2) ∧
      (spinExpired c_time nh).1.configured = nh.configured := by
  have htimeout : (nh.withBuffers output input).spinTimeout = nh.spinTimeout := rfl
  simp only [spinExpired, htimeout]
  split
  · exact ⟨rfl, rfl⟩
  · exact ⟨rfl, rfl⟩

/-- The loop, on the same bytes: every one of them is handled in the same way. -/
theorem spinLoop_withBuffers (c_time : UInt32) (rx : List UInt8) (hconf : nh.configured = false)
    (hunused : Unused (spinLoop cfg callbacks c_time rx nh).events) :
    spinLoop cfg callbacks c_time rx (nh.withBuffers output input) =
        (spinLoop cfg callbacks c_time rx nh).withBuffers output input ∧
      (spinLoop cfg callbacks c_time rx nh).nh.configured = false := by
  induction rx generalizing nh with
  | nil =>
    obtain ⟨hexpired, hkept⟩ := spinExpired_withBuffers output input c_time nh
    simp only [spinLoop, hexpired]
    exact ⟨rfl, hkept.trans hconf⟩
  | cons data rest ih =>
    obtain ⟨hexpired, hkept⟩ := spinExpired_withBuffers output input c_time nh
    simp only [spinLoop, hexpired] at hunused ⊢
    by_cases hstop : (spinExpired c_time nh).2 = true
    · simp only [if_pos hstop]
      exact ⟨rfl, hkept.trans hconf⟩
    simp only [if_neg hstop] at hunused ⊢
    -- what is left in the port for the loop is the same in both nodes
    generalize hnext : ({ (spinExpired c_time nh).1 with
      hardware := { (spinExpired c_time nh).1.hardware with rx := rest } } : NodeHandle) = next
      at hunused ⊢
    have hnext' : ({ (spinExpired c_time nh).1.withBuffers output input with
        hardware := { ((spinExpired c_time nh).1.withBuffers output input).hardware with
          rx := rest } } : NodeHandle) = next.withBuffers output input := by
      subst hnext
      rfl
    have hstart : next.configured = false := by
      subst hnext
      exact hkept.trans hconf
    rw [hnext']
    cases hresult : (handle cfg callbacks c_time data next).result with
    | some code =>
      simp only [hresult] at hunused
      obtain ⟨hhandle, hstays⟩ :=
        handle_withBuffers callbacks output input c_time data hstart hunused
      simp only [hhandle, Outcome.withBuffers, hresult]
      exact ⟨trivial, hstays⟩
    | none =>
      simp only [hresult] at hunused
      obtain ⟨hfirst, hmore⟩ := unused_append.mp hunused
      obtain ⟨hhandle, hstays⟩ :=
        handle_withBuffers callbacks output input c_time data hstart hfirst
      obtain ⟨hloop, hend⟩ := ih hstays hmore
      simp only [hhandle, Outcome.withBuffers, hresult, hloop]
      exact ⟨trivial, hend⟩

theorem restartIfTimedOut_withBuffers (c_time : UInt32) :
    restartIfTimedOut c_time (nh.withBuffers output input) =
      (restartIfTimedOut c_time nh).withBuffers output input := by
  have hsync : (nh.withBuffers output input).lastSyncReceiveTime = nh.lastSyncReceiveTime := rfl
  simp only [restartIfTimedOut, hsync]
  split
  · rfl
  · rfl

theorem restartIfTimedOut_configured (c_time : UInt32) (hconf : nh.configured = false) :
    (restartIfTimedOut c_time nh).configured = false := by
  rw [restartIfTimedOut]
  split
  · rfl
  · exact hconf

theorem resetIfTimedOut_withBuffers (c_time : UInt32) (nh : NodeHandle) :
    resetIfTimedOut c_time (nh.withBuffers output input) =
        ((resetIfTimedOut c_time nh).1.withBuffers output input, (resetIfTimedOut c_time nh).2) ∧
      (resetIfTimedOut c_time nh).1.configured = nh.configured := by
  have hreceiver : (nh.withBuffers output input).receiver = nh.receiver := rfl
  have htimeout : (nh.withBuffers output input).lastMsgTimeoutTime = nh.lastMsgTimeoutTime := rfl
  simp only [resetIfTimedOut, hreceiver, htimeout]
  split
  · exact ⟨rfl, rfl⟩
  · exact ⟨rfl, rfl⟩

/-- A node that is not configured does not ask for the time. -/
theorem occasionallySync_of_not_configured (c_time : UInt32) (hconf : nh.configured = false) :
    occasionallySync cfg c_time nh = nh := by
  rw [occasionallySync, hconf]
  rfl

theorem spinOnce_withBuffers (hconf : nh.configured = false)
    (hunused : Unused (spinOnce cfg callbacks nh).2.1) :
    spinOnce cfg callbacks (nh.withBuffers output input) =
        ((spinOnce cfg callbacks nh).1.withBuffers output input,
          (spinOnce cfg callbacks nh).2) ∧
      (spinOnce cfg callbacks nh).1.configured = false := by
  generalize hclock : ({ nh with hardware := nh.hardware.time.2 } : NodeHandle) = start
  have hclock' : ({ nh.withBuffers output input with
      hardware := nh.hardware.time.2 } : NodeHandle) = start.withBuffers output input := by
    subst hclock
    rfl
  have hstart : start.configured = false := by
    subst hclock
    exact hconf
  have htime : (nh.withBuffers output input).hardware.time = nh.hardware.time := rfl
  generalize hc_time : nh.hardware.time.1 = c_time
  obtain ⟨hreset, hkept⟩ :=
    resetIfTimedOut_withBuffers output input c_time (restartIfTimedOut c_time start)
  have hready := hkept.trans (restartIfTimedOut_configured c_time hstart)
  simp only [spinOnce, htime, hclock, hclock', hc_time, restartIfTimedOut_withBuffers,
    hreset] at hunused ⊢
  generalize resetIfTimedOut c_time (restartIfTimedOut c_time start) = reset at hready hunused ⊢
  have hrx : (reset.1.withBuffers output input).hardware.rx = reset.1.hardware.rx := rfl
  have hloop : Unused (spinLoop cfg callbacks c_time reset.1.hardware.rx reset.1).events := by
    revert hunused
    split
    · exact fun hunused => (unused_append.mp hunused).2
    · exact fun hunused => (unused_append.mp hunused).2
  obtain ⟨hsame, hend⟩ := spinLoop_withBuffers callbacks output input c_time
    reset.1.hardware.rx hready hloop
  simp only [hrx, hsame, Outcome.withBuffers]
  cases (spinLoop cfg callbacks c_time reset.1.hardware.rx reset.1).result with
  | some code => exact ⟨rfl, hend⟩
  | none =>
    have hend' : ((spinLoop cfg callbacks c_time reset.1.hardware.rx reset.1).nh.withBuffers
      output input).configured = false := hend
    simp only [occasionallySync_of_not_configured c_time hend,
      occasionallySync_of_not_configured c_time hend']
    exact ⟨trivial, hend⟩

end Lockstep

/-! ## Calls and runs -/

section Calls

variable {cfg : NodeConfig} {nh : NodeHandle} (callbacks : Callbacks cfg) (output input : Buffer)

/-- A call that uses no buffer is the same with any buffers, and leaves the node as
unconfigured as it was. -/
theorem Call.run_withBuffers (call : Call) (hconf : nh.configured = false)
    (hunused : ¬ call.Uses cfg callbacks nh) :
    call.run cfg callbacks (nh.withBuffers output input) =
        ((call.run cfg callbacks nh).1.withBuffers output input,
          (call.run cfg callbacks nh).2) ∧
      (call.run cfg callbacks nh).1.configured = false := by
  cases call with
  | arrive bytes => exact ⟨rfl, hconf⟩
  | log level text => exact absurd trivial hunused
  | requestSyncTime => exact absurd trivial hunused
  | setNow sec nanosec => exact ⟨rfl, hconf⟩
  | now => exact ⟨rfl, hconf⟩
  | setSpinTimeout timeout => exact ⟨rfl, hconf⟩
  | publish id msg =>
    have hallowed : ¬ Allowed id nh := hunused
    have hallowed' : ¬ Allowed id (nh.withBuffers output input) := hunused
    simp only [Call.run, Device.publish, publishDepth_of_not_allowed hallowed,
      publishDepth_of_not_allowed hallowed']
    exact ⟨trivial, hconf⟩
  | advertise p =>
    have hslots : (nh.withBuffers output input).publishers = nh.publishers := rfl
    simp only [Call.run, Device.advertise, hslots]
    split
    · exact ⟨rfl, hconf⟩
    · exact ⟨rfl, hconf⟩
  | subscribe s =>
    have hslots : (nh.withBuffers output input).subscribers = nh.subscribers := rfl
    simp only [Call.run, Device.subscribe, hslots]
    split
    · exact ⟨rfl, hconf⟩
    · exact ⟨rfl, hconf⟩
  | spinOnce =>
    have hevents : Unused (Device.spinOnce cfg callbacks nh).2.1 := by
      intro e he
      cases huses : e.usesBuffers with
      | false => rfl
      | true => exact absurd ⟨e, he, huses⟩ hunused
    obtain ⟨hsame, hstays⟩ := spinOnce_withBuffers callbacks output input hconf hevents
    simp only [Call.run, hsame]
    exact ⟨trivial, hstays⟩

/-- Whether a call uses a buffer does not depend on the buffers. -/
theorem Call.uses_withBuffers (call : Call) (hconf : nh.configured = false)
    (huses : call.Uses cfg callbacks (nh.withBuffers output input)) :
    call.Uses cfg callbacks nh := by
  by_contra hunused
  cases call with
  | spinOnce =>
    have hsame := (Call.run_withBuffers callbacks output input .spinOnce hconf hunused).1
    have hevents : (Device.spinOnce cfg callbacks (nh.withBuffers output input)).2.1 =
      (Device.spinOnce cfg callbacks nh).2.1 := congrArg Prod.snd hsame
    obtain ⟨e, he, htrue⟩ := huses
    rw [hevents] at he
    exact hunused ⟨e, he, htrue⟩
  | publish id msg => exact hunused huses
  | log level text => exact hunused trivial
  | requestSyncTime => exact hunused trivial
  | _ => exact huses

/-- Such a call leaves the buffers alone. -/
theorem Call.run_buffers (call : Call) (hconf : nh.configured = false)
    (hunused : ¬ call.Uses cfg callbacks nh) :
    (call.run cfg callbacks nh).1.outputCdr = nh.outputCdr ∧
      (call.run cfg callbacks nh).1.inputCdr = nh.inputCdr := by
  have hsame := (Call.run_withBuffers callbacks nh.outputCdr nh.inputCdr call hconf hunused).1
  have hself : nh.withBuffers nh.outputCdr nh.inputCdr = nh := rfl
  rw [hself] at hsame
  have hnode := congrArg Prod.fst hsame
  constructor
  · rw [hnode]
    rfl
  · rw [hnode]
    rfl

/-- A call as a step of the node. -/
def callStep (cfg : NodeConfig) (callbacks : Callbacks cfg) (nh : NodeHandle) (call : Call) :
    NodeHandle :=
  (call.run cfg callbacks nh).1

theorem run_eq_callStep (calls : List Call) :
    (run cfg callbacks nh calls).1 = Runs.run (callStep cfg callbacks) nh calls := by
  induction calls generalizing nh with
  | nil => rfl
  | cons call rest ih => exact ih

/-- No call of the run uses a CDR buffer. -/
def NeverUses (cfg : NodeConfig) (callbacks : Callbacks cfg) (nh : NodeHandle)
    (calls : List Call) : Prop :=
  Throughout (callStep cfg callbacks) (fun nh call => ¬ call.Uses cfg callbacks nh) nh calls

/-- A run that uses no buffer is the same with any buffers. -/
theorem run_withBuffers (calls : List Call) (hconf : nh.configured = false)
    (hnever : NeverUses cfg callbacks nh calls) :
    run cfg callbacks (nh.withBuffers output input) calls =
      ((run cfg callbacks nh calls).1.withBuffers output input,
        (run cfg callbacks nh calls).2) := by
  induction calls generalizing nh with
  | nil => rfl
  | cons call rest ih =>
    obtain ⟨hunused, hrest⟩ := throughout_cons.mp hnever
    obtain ⟨hsame, hstays⟩ := Call.run_withBuffers callbacks output input call hconf hunused
    have hmore := ih hstays hrest
    simp only [run, hsame, hmore]

/-- Either node can be asked whether a run uses a buffer. -/
theorem neverUses_withBuffers (calls : List Call) (hconf : nh.configured = false) :
    NeverUses cfg callbacks (nh.withBuffers output input) calls ↔
      NeverUses cfg callbacks nh calls := by
  induction calls generalizing nh with
  | nil => exact iff_of_true throughout_nil throughout_nil
  | cons call rest ih =>
    have huses : call.Uses cfg callbacks (nh.withBuffers output input) ↔
        call.Uses cfg callbacks nh := by
      constructor
      · exact Call.uses_withBuffers callbacks output input call hconf
      · intro h
        have hconf' : (nh.withBuffers output input).configured = false := hconf
        exact Call.uses_withBuffers callbacks nh.outputCdr nh.inputCdr call hconf' h
    unfold NeverUses
    rw [throughout_cons, throughout_cons, huses]
    refine and_congr_right fun hunused => ?_
    obtain ⟨hsame, hstays⟩ := Call.run_withBuffers callbacks output input call hconf hunused
    have hnext : callStep cfg callbacks (nh.withBuffers output input) call =
        (callStep cfg callbacks nh call).withBuffers output input := congrArg Prod.fst hsame
    rw [hnext]
    exact ih hstays

end Calls

/-! ## Two nodes under the same calls -/

/-- Both nodes write the same frames and make the same callbacks after each of the calls,
and where a call uses the CDR buffers, they cover `message_out + 7` and `message_in`. -/
structure Agrees (cfg : NodeConfig) (callbacks : Callbacks cfg) (nh nh' : NodeHandle)
    (calls : List Call) : Prop where
  frames : ∀ done, done <+: calls →
    (run cfg callbacks nh' done).1.hardware.tx = (run cfg callbacks nh done).1.hardware.tx
  events : ∀ done, done <+: calls →
    (run cfg callbacks nh' done).2 = (run cfg callbacks nh done).2
  covers : ∀ node ∈ [nh, nh'],
    Throughout (callStep cfg callbacks)
      (fun nh call => call.Uses cfg callbacks nh → nh.Covers cfg) node calls

section Agrees

variable (cfg : NodeConfig) (callbacks : Callbacks cfg)

/-- Buffers that do not cover the arrays before the first use do not cover them at it. -/
theorem covers_iff_neverUses {nh : NodeHandle} (hconf : nh.configured = false)
    (hvoid : ¬ nh.Covers cfg) (calls : List Call) :
    Throughout (callStep cfg callbacks)
        (fun nh call => call.Uses cfg callbacks nh → nh.Covers cfg) nh calls ↔
      NeverUses cfg callbacks nh calls := by
  refine throughout_congr (P := fun nh => nh.configured = false ∧ ¬ nh.Covers cfg)
    ⟨hconf, hvoid⟩ ?_ ?_
  · rintro s call ⟨-, hs⟩
    exact ⟨fun hcovers huses => hs (hcovers huses), fun hunused huses => absurd huses hunused⟩
  · rintro s call ⟨hsconf, hs⟩ hunused
    obtain ⟨houtput, hinput⟩ := Call.run_buffers callbacks call hsconf hunused
    refine ⟨(Call.run_withBuffers callbacks s.outputCdr s.inputCdr call hsconf hunused).2, ?_⟩
    intro hcovers
    apply hs
    exact ⟨houtput ▸ hcovers.outputInit, houtput ▸ hcovers.outputFinal,
      hinput ▸ hcovers.inputInit, hinput ▸ hcovers.inputFinal⟩

/-- After `initNode()` the buffers cover their arrays, whatever is called. -/
theorem initNode_covers {nh : NodeHandle} (h : nh.Initialised cfg) (calls : List Call) :
    Throughout (callStep cfg callbacks)
      (fun nh call => call.Uses cfg callbacks nh → nh.Covers cfg) nh calls := by
  intro done call _ _
  rw [← run_eq_callStep]
  exact (run_spins callbacks h done).initialised.covers

/-- The two overloads establish the same node for exactly the runs that never use a CDR
buffer. -/
theorem agrees_iff (hardware : Hardware) (calls : List Call) :
    Agrees cfg callbacks (initNode cfg (construct cfg hardware))
        (initNodePortName (construct cfg hardware)) calls ↔
      NeverUses cfg callbacks (initNodePortName (construct cfg hardware)) calls := by
  have hinit := initNode_eq cfg (construct cfg hardware)
  generalize hnamed : initNodePortName (construct cfg hardware) = named at hinit ⊢
  have hconf : named.configured = false := by
    subst hnamed
    rfl
  have hvoid : ¬ named.Covers cfg := by
    subst hnamed
    intro hcovers
    cases hcovers.outputInit
  have hiff := covers_iff_neverUses cfg callbacks hconf hvoid calls
  constructor
  · intro h
    exact hiff.mp (h.covers named (by simp))
  · intro hnever
    have hrun : ∀ done, done <+: calls →
        run cfg callbacks (initNode cfg (construct cfg hardware)) done =
          ((run cfg callbacks named done).1.withBuffers (initBuffer 7 (cfg.OUTPUT_SIZE - 7))
            (initBuffer 0 cfg.INPUT_SIZE), (run cfg callbacks named done).2) := by
      intro done hdone
      rw [hinit]
      exact run_withBuffers callbacks _ _ done hconf
        fun before call hbefore => hnever before call (hbefore.trans hdone)
    refine ⟨?_, ?_, ?_⟩
    · intro done hdone
      rw [hrun done hdone]
      rfl
    · intro done hdone
      rw [hrun done hdone]
    · intro node hnode
      rcases List.mem_pair.mp hnode with heq | heq
      · subst heq
        exact initNode_covers cfg callbacks (construct_initialised cfg hardware) calls
      · subst heq
        exact hiff.mpr hnever

end Agrees

/-! ## What goes out of a buffer without room -/

section Void

variable {cfg : NodeConfig} {nh : NodeHandle}

/-- Not even the encapsulation gets into a buffer without room. -/
theorem serialized_void (hvoid : nh.outputCdr.final ≤ nh.outputCdr.init) (msg : Msg) :
    bufferLength (serialized nh msg).ub = 0 ∧ (serialized nh msg).mem = nh.messageOut := by
  have hfirst : writeItem (.prim .one 0x00) (startCdr nh) =
      { startCdr nh with ub := { (startCdr nh).ub with error := true } } := by
    simp [writeItem, serialize, serializeByte1, checkFinalBufferBehavior, startCdr, resetBuffer,
      hvoid]
  have herror : (writeItem (.prim .one 0x00) (startCdr nh)).ub.error = true := by
    rw [hfirst]
  obtain ⟨k, hrest⟩ := writeItems_error herror
    ([.prim .one 0x01, .octets [0x00, 0x00]] ++ msg.items)
  have hall : serialized nh msg =
      writeItems ([.prim .one 0x01, .octets [0x00, 0x00]] ++ msg.items)
        (writeItem (.prim .one 0x00) (startCdr nh)) := serialized_eq msg
  rw [hall, hrest, hfirst]
  exact ⟨Nat.sub_self _, rfl⟩

/-- A message that is sent from a buffer without room has no payload. -/
theorem publish_void (hvoid : nh.outputCdr.final ≤ nh.outputCdr.init)
    (hout : nh.messageOut.length = cfg.OUTPUT_SIZE) {id : Int} (hallowed : Allowed id nh)
    (msg : Msg) :
    (publish cfg id msg nh).1.hardware.tx =
      nh.hardware.tx ++ [Wire.encode (topicField id) []] := by
  obtain ⟨hlen, hmem⟩ := serialized_void hvoid msg
  have hroom : 0 + 7 < cfg.OUTPUT_SIZE := by
    have hlog := cfg.logFits
    omega
  rw [publish, publishDepth_eq hallowed hlen (by rw [hmem, hout]), if_pos hroom]
  rfl

/-- The encapsulation alone has four bytes. -/
theorem four_le_encodedLength (msg : Msg) : 4 ≤ msg.encodedLength := by
  have hheader : endPos 0 encapsulationItems = 4 := by decide
  rw [Msg.encodedLength, endPos_append, hheader]
  exact le_endPos 4 msg.items

/-- The two buffers send different frames for every message that fits `message_out`. -/
theorem publish_void_ne (h : nh.Initialised cfg) {output input : Buffer}
    (hvoid : output.final ≤ output.init) {id : Int} (hallowed : Allowed id nh) {msg : Msg}
    (hfit : msg.encodedLength + 8 ≤ cfg.OUTPUT_SIZE) :
    (publish cfg id msg (nh.withBuffers output input)).1.hardware.tx ≠
      (publish cfg id msg nh).1.hardware.tx := by
  intro heq
  have hvoid' : (nh.withBuffers output input).outputCdr.final ≤
    (nh.withBuffers output input).outputCdr.init := hvoid
  have hsent := publish_void hvoid' h.messageOut hallowed msg
  obtain ⟨nh', payload, hpub, hsends, hencodes⟩ := publishDepth_fits h hallowed hfit 1
  have hframes : [Wire.encode (topicField id) []] = [Wire.encode (topicField id) payload] := by
    refine List.append_cancel_left (?_ : nh.hardware.tx ++ _ = nh.hardware.tx ++ _)
    calc nh.hardware.tx ++ [Wire.encode (topicField id) []]
        = (publish cfg id msg (nh.withBuffers output input)).1.hardware.tx := hsent.symm
      _ = (publish cfg id msg nh).1.hardware.tx := heq
      _ = nh.hardware.tx ++ [Wire.encode (topicField id) payload] := by
        rw [publish, hpub]
        exact hsends.tx
  have hlength := congrArg List.length (List.cons.inj hframes).1
  rw [Wire.encode_length, Wire.encode_length, hencodes.length] at hlength
  have hfour := four_le_encodedLength msg
  simp at hlength
  omega

theorem requestSyncTime_tx :
    (requestSyncTime cfg nh).hardware.tx =
      (publish cfg TopicInfo.ID_TIME (timeMsg 0x78563412 0x78563412) nh).1.hardware.tx := rfl

/-- In particular, a request for the time goes out without one. -/
theorem requestSyncTime_void_ne (h : nh.Initialised cfg) {output input : Buffer}
    (hvoid : output.final ≤ output.init) :
    (requestSyncTime cfg (nh.withBuffers output input)).hardware.tx ≠
      (requestSyncTime cfg nh).hardware.tx := by
  have hlength : (timeMsg 0x78563412 0x78563412).encodedLength = 12 := by decide
  have hlog := cfg.logFits
  rw [requestSyncTime_tx, requestSyncTime_tx]
  exact publish_void_ne h hvoid (Or.inl (by decide)) (by rw [hlength]; omega)

end Void

/-- Two nodes that differ in such a buffer do not agree when they ask for the time. -/
theorem not_agrees_requestSyncTime {cfg : NodeConfig} (callbacks : Callbacks cfg)
    {nh : NodeHandle} (h : nh.Initialised cfg) {output : Buffer}
    (hvoid : output.final ≤ output.init) (input : Buffer) :
    ¬ Agrees cfg callbacks nh (nh.withBuffers output input) [.requestSyncTime] := by
  intro hagrees
  have hframes := hagrees.frames [.requestSyncTime] List.prefix_rfl
  exact requestSyncTime_void_ne h hvoid hframes

/-- A node in static storage that asks for the time before anything has arrived. -/
theorem initNodePortName_requestSyncTime :
    ¬ Agrees atmega168 (noCallbacks atmega168)
      (initNode atmega168 (construct atmega168 idleHardware))
      (initNodePortName (construct atmega168 idleHardware)) [.requestSyncTime] :=
  have hvoid : (initBuffer 0 0).final ≤ (initBuffer 0 0).init := Nat.le_refl 0
  not_agrees_requestSyncTime (noCallbacks atmega168)
    (construct_initialised atmega168 idleHardware) hvoid (initBuffer 0 0)

end Ros2Serial.Device
