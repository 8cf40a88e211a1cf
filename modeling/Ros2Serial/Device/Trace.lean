import Ros2Serial.Device.Publish
import Ros2Serial.Device.SpinOnce

/-!
# Runs of a node, as traces of its state machine

A run is a list of calls, in any order, with bytes that arrive in between.
`run_spins` is what later files know about one: its trace is a run of the
state machine alone (`Follows`), the bytes of the trace are those that arrived
and are not left over, and the subscribers that were registered still are.

`Follows` says of every event where it comes from.  A byte is a step of the
state machine, and behind a good checksum stand the events of the branch that
its topic selects (`Acts`).
-/

namespace Ros2Serial.Device

open Bytes Ucdr Generator

/-! ## What a node keeps -/

section Keeps

variable {cfg : NodeConfig} {nh : NodeHandle}

theorem Keeps.refl (h : nh.Initialised cfg) : Keeps cfg nh nh := ⟨rfl, rfl, fun _ _ => id, h⟩

theorem Keeps.trans {a b c : NodeHandle} (h : Keeps cfg a b) (h' : Keeps cfg b c) :
    Keeps cfg a c :=
  ⟨h'.receiver.trans h.receiver, h'.rx.trans h.rx,
    fun i e he => h'.subscribers i e (h.subscribers i e he), h'.initialised⟩

theorem Sends.keeps {nh' : NodeHandle} {frames : List (List UInt8)}
    (h : Sends cfg nh nh' frames) : Keeps cfg nh nh' := by
  obtain ⟨ub, out, hnh'⟩ := h.eq
  exact ⟨by rw [hnh']; rfl, by rw [hnh']; rfl, by rw [hnh']; exact fun _ _ => id, h.initialised⟩

theorem publish_keeps (h : nh.Initialised cfg) (id : Int) (msg : Msg) :
    Keeps cfg nh (publish cfg id msg nh).1 := by
  obtain ⟨sent, hsends, -⟩ := publish_sends h id msg
  exact hsends.keeps

/-- Initialisation is about the arrays, the CDR buffers and the slots only. -/
theorem NodeHandle.Initialised.congr {nh' : NodeHandle} (h : nh.Initialised cfg)
    (hin : nh'.receiver.messageIn.length = nh.receiver.messageIn.length)
    (hout : nh'.messageOut = nh.messageOut) (houtput : nh'.outputCdr = nh.outputCdr)
    (hinput : SameEnds nh.inputCdr nh'.inputCdr) (hpub : nh'.publishers = nh.publishers)
    (hsub : nh'.subscribers = nh.subscribers) : nh'.Initialised cfg where
  messageIn := hin.trans h.messageIn
  messageOut := by rw [hout, h.messageOut]
  outputInit := by rw [houtput, h.outputInit]
  outputFinal := by rw [houtput, h.outputFinal]
  outputOrigin := by rw [houtput, h.outputOrigin]
  inputInit := hinput.init.trans h.inputInit
  inputFinal := hinput.final.trans h.inputFinal
  inputOrigin := hinput.origin.trans h.inputOrigin
  publishers := by rw [hpub, h.publishers]
  subscribers := by rw [hsub, h.subscribers]

/-- A change of the clock, of the flags or of the times keeps everything. -/
theorem keeps_of_eq {nh' : NodeHandle} (h : nh.Initialised cfg)
    (hreceiver : nh'.receiver = nh.receiver) (hrx : nh'.hardware.rx = nh.hardware.rx)
    (hout : nh'.messageOut = nh.messageOut) (houtput : nh'.outputCdr = nh.outputCdr)
    (hinput : SameEnds nh.inputCdr nh'.inputCdr) (hpub : nh'.publishers = nh.publishers)
    (hsub : nh'.subscribers = nh.subscribers) : Keeps cfg nh nh' :=
  ⟨hreceiver, hrx, by rw [hsub]; exact fun _ _ => id,
    h.congr (by rw [hreceiver]) hout houtput hinput hpub hsub⟩

theorem requestSyncTime_keeps (h : nh.Initialised cfg) :
    Keeps cfg nh (requestSyncTime cfg nh) := by
  have hpublish := publish_keeps h TopicInfo.ID_TIME (timeMsg 0x78563412 0x78563412)
  exact hpublish.trans
    (keeps_of_eq hpublish.initialised rfl rfl rfl rfl (SameEnds.refl _) rfl rfl)

theorem announce_keeps (h : nh.Initialised cfg) (bufferSize : Nat)
    (slots : List (Option Endpoint)) : Keeps cfg nh (announce cfg bufferSize slots nh) := by
  induction slots generalizing nh with
  | nil => exact Keeps.refl h
  | cons slot rest ih =>
    cases slot with
    | none => exact ih h
    | some e =>
      have hpublish := publish_keeps h e.endpoint (topicInfo e bufferSize)
      exact hpublish.trans (ih hpublish.initialised)

theorem negotiateTopics_keeps (h : nh.Initialised cfg) :
    Keeps cfg nh (negotiateTopics cfg nh) := by
  have hpub := announce_keeps h cfg.OUTPUT_SIZE nh.publishers
  have hsub := announce_keeps hpub.initialised cfg.INPUT_SIZE
    (announce cfg cfg.OUTPUT_SIZE nh.publishers nh).subscribers
  exact (hpub.trans hsub).trans
    (keeps_of_eq hsub.initialised rfl rfl rfl rfl (SameEnds.refl _) rfl rfl)

theorem deserializeEncapsulation_sameEnds (mem : List UInt8) (ub : Buffer) :
    SameEnds ub (deserializeEncapsulation mem ub).1 := by
  have hfirst := deserialize_sameEnds mem .one ub
  simp only [deserializeEncapsulation]
  split
  · exact hfirst
  · exact (hfirst.trans (deserialize_sameEnds mem .one _)).trans (bufferToArray_sameEnds mem 2 _)

theorem openInput_keeps (h : nh.Initialised cfg) : Keeps cfg nh (openInput nh) :=
  keeps_of_eq h rfl rfl rfl rfl ((resetBuffer_sameEnds _).trans
    (deserializeEncapsulation_sameEnds nh.receiver.messageIn _)) rfl rfl

theorem syncTime_keeps (h : nh.Initialised cfg) : Keeps cfg nh (syncTime nh) :=
  keeps_of_eq h rfl rfl rfl rfl
    (timeDef.cdrDeserialize_sameEnds exactPlatform nh.receiver.messageIn
      ⟨timeDef.construct, Decoder.start nh.inputCdr⟩) rfl rfl

theorem setNow_keeps (h : nh.Initialised cfg) (sec nanosec : UInt32) :
    Keeps cfg nh (setNow sec nanosec nh) :=
  keeps_of_eq h rfl rfl rfl rfl (SameEnds.refl _) rfl rfl

/-- A slot that is filled was empty. -/
theorem fillSlot_spec {base : Int} {e : Endpoint} {slots slots' : List (Option Endpoint)}
    (h : fillSlot base e slots = some slots') :
    slots'.length = slots.length ∧
      ∀ (i : Nat) (x : Endpoint), slots[i]? = some (some x) → slots'[i]? = some (some x) := by
  induction slots generalizing base slots' with
  | nil => simp [fillSlot] at h
  | cons slot rest ih =>
    cases slot with
    | none =>
      obtain rfl := Option.some.inj h
      refine ⟨rfl, fun i x hx => ?_⟩
      cases i with
      | zero => simp at hx
      | succ i => exact hx
    | some y =>
      obtain ⟨rest', hrest, rfl⟩ := Option.map_eq_some_iff.mp h
      obtain ⟨hlen, hkept⟩ := ih hrest
      refine ⟨by simp [hlen], fun i x hx => ?_⟩
      cases i with
      | zero => exact hx
      | succ i => exact hkept i x hx

theorem advertise_keeps (h : nh.Initialised cfg) (p : Endpoint) :
    Keeps cfg nh (advertise cfg p nh).1 := by
  simp only [advertise]
  split
  · rename_i slots hslots
    have hlen := (fillSlot_spec hslots).1
    exact ⟨rfl, rfl, fun _ _ => id, h.messageIn, h.messageOut, h.outputInit, h.outputFinal,
      h.outputOrigin, h.inputInit, h.inputFinal, h.inputOrigin, hlen.trans h.publishers,
      h.subscribers⟩
  · exact Keeps.refl h

theorem subscribe_keeps (h : nh.Initialised cfg) (s : Endpoint) :
    Keeps cfg nh (subscribe s nh).1 := by
  simp only [subscribe]
  split
  · rename_i slots hslots
    obtain ⟨hlen, hkept⟩ := fillSlot_spec hslots
    exact ⟨rfl, rfl, hkept, h.messageIn, h.messageOut, h.outputInit, h.outputFinal,
      h.outputOrigin, h.inputInit, h.inputFinal, h.inputOrigin, h.publishers,
      hlen.trans h.subscribers⟩
  · exact Keeps.refl h

end Keeps

/-! ## Traces of the state machine -/

theorem isTopicValid_iff {cfg : NodeConfig} {topic : Int} :
    cfg.isTopicValid topic = true ↔ 0 ≤ topic ∧ topic < cfg.MAX_SUBSCRIBERS + 100 := by
  simp [NodeConfig.isTopicValid]

/-- The branch of a topic that is not one of a subscriber. -/
def specialBranch (topic : Int) : Option Branch :=
  if topic = TopicInfo.ID_PUBLISHER then some .publisher
  else if topic = TopicInfo.ID_TIME then some .time
  else if topic = TopicInfo.ID_PARAMETER_REQUEST then some .parameterRequest
  else if topic = TopicInfo.ID_TX_STOP then some .txStop
  else none

/-- The events behind a byte. -/
inductive Acts (cfg : NodeConfig) (registered : Int → Prop) (messageIn : List UInt8) :
    Reaction → List Event → Prop
  | silent {reaction : Reaction} (h : ∀ topic, reaction ≠ .message topic) :
      Acts cfg registered messageIn reaction []
  | special {topic : Int} {branch : Branch} (h : specialBranch topic = some branch) :
      Acts cfg registered messageIn (.message topic) [.act branch messageIn]
  | invalid {topic : Int} (h : specialBranch topic = none)
      (hvalid : cfg.isTopicValid topic = false) :
      Acts cfg registered messageIn (.message topic) []
  | subscriber {topic : Int} (h : specialBranch topic = none)
      (hvalid : cfg.isTopicValid topic = true) :
      Acts cfg registered messageIn (.message topic)
        [.access (topic - 100), .act (.subscriber (topic - 100)) messageIn]
  | empty {topic : Int} (h : specialBranch topic = none)
      (hvalid : cfg.isTopicValid topic = true) (hempty : ¬ registered (topic - 100)) :
      Acts cfg registered messageIn (.message topic) [.access (topic - 100)]

/-- The trace is one of the state machine, from one state to another.
`registered` holds of slots that are not empty at any time. -/
inductive Follows (cfg : NodeConfig) (registered : Int → Prop) :
    Receiver → List Event → Receiver → Prop
  | nil (r : Receiver) : Follows cfg registered r [] r
  | reset {r r' : Receiver} {events : List Event}
      (h : Follows cfg registered { r with mode := .FIRST_FF } events r') :
      Follows cfg registered r (.reset :: events) r'
  | read {r r' : Receiver} {data : UInt8} {acts events : List Event}
      (hacts : Acts cfg registered (r.step cfg data).1.messageIn (r.step cfg data).2 acts)
      (h : Follows cfg registered (r.step cfg data).1 events r') :
      Follows cfg registered r (.read data (r.step cfg data).2 :: (acts ++ events)) r'

theorem Acts.mono {cfg : NodeConfig} {registered registered' : Int → Prop}
    (hsub : ∀ i, registered' i → registered i) {messageIn : List UInt8} {reaction : Reaction}
    {acts : List Event} (h : Acts cfg registered messageIn reaction acts) :
    Acts cfg registered' messageIn reaction acts := by
  cases h with
  | silent h => exact .silent h
  | special h => exact .special h
  | invalid h hvalid => exact .invalid h hvalid
  | subscriber h hvalid => exact .subscriber h hvalid
  | empty h hvalid hempty => exact .empty h hvalid fun hr => hempty (hsub _ hr)

theorem Follows.mono {cfg : NodeConfig} {registered registered' : Int → Prop}
    (hsub : ∀ i, registered' i → registered i) {r r' : Receiver} {events : List Event}
    (h : Follows cfg registered r events r') : Follows cfg registered' r events r' := by
  induction h with
  | nil r => exact .nil r
  | reset _ ih => exact .reset ih
  | read hacts _ ih => exact .read (hacts.mono hsub) ih

theorem Follows.append {cfg : NodeConfig} {registered : Int → Prop} {a b c : Receiver}
    {xs ys : List Event} (h : Follows cfg registered a xs b) (h' : Follows cfg registered b ys c) :
    Follows cfg registered a (xs ++ ys) c := by
  induction h with
  | nil r => exact h'
  | reset _ ih => exact .reset (ih h')
  | read hacts _ ih =>
    rw [List.cons_append, List.append_assoc]
    exact .read hacts (ih h')

/-- The bytes that were read. -/
def bytesRead (events : List Event) : List UInt8 :=
  events.filterMap fun
    | .read data _ => some data
    | _ => none

@[simp] theorem bytesRead_append (xs ys : List Event) :
    bytesRead (xs ++ ys) = bytesRead xs ++ bytesRead ys := by
  simp [bytesRead]

theorem Acts.bytesRead {cfg : NodeConfig} {registered : Int → Prop} {messageIn : List UInt8}
    {reaction : Reaction} {acts : List Event} (h : Acts cfg registered messageIn reaction acts) :
    bytesRead acts = [] := by
  cases h <;> rfl

/-! ## One call -/

/-- The slot has a subscriber. -/
def NodeHandle.Registered (nh : NodeHandle) (index : Int) : Prop :=
  0 ≤ index ∧ ∃ e, nh.subscribers[index.toNat]? = some (some e)

theorem NodeHandle.Registered.subscriberAt {nh : NodeHandle} {index : Int}
    (h : nh.Registered index) : ∃ e, nh.subscriberAt index = some e := by
  obtain ⟨hindex, e, he⟩ := h
  exact ⟨e, by simp [NodeHandle.subscriberAt, hindex, List.getD_eq_getElem?_getD, he]⟩

/-- What a call does, seen from the state machine: with the bytes that arrive
before it, it runs through the trace. -/
structure Spins (cfg : NodeConfig) (arrived : List UInt8) (nh : NodeHandle)
    (events : List Event) (nh' : NodeHandle) : Prop where
  follows : Follows cfg nh.Registered nh.receiver events nh'.receiver
  rx : nh.hardware.rx ++ arrived = bytesRead events ++ nh'.hardware.rx
  subscribers : ∀ (i : Nat) (e : Endpoint),
    nh.subscribers[i]? = some (some e) → nh'.subscribers[i]? = some (some e)
  initialised : nh'.Initialised cfg

section Spins

variable {cfg : NodeConfig} {nh : NodeHandle}

theorem Keeps.spins {nh' : NodeHandle} (h : Keeps cfg nh nh') : Spins cfg [] nh [] nh' where
  follows := h.receiver ▸ .nil _
  rx := by simp [bytesRead, h.rx]
  subscribers := h.subscribers
  initialised := h.initialised

theorem Spins.trans {a b c : NodeHandle} {as bs : List UInt8} {xs ys : List Event}
    (h : Spins cfg as a xs b) (h' : Spins cfg bs b ys c) : Spins cfg (as ++ bs) a (xs ++ ys) c where
  follows := h.follows.append (h'.follows.mono fun i ⟨hi, e, he⟩ => ⟨hi, e, h.subscribers _ e he⟩)
  rx := by rw [← List.append_assoc, h.rx, List.append_assoc, h'.rx, bytesRead_append,
    List.append_assoc]
  subscribers i e he := h'.subscribers i e (h.subscribers i e he)
  initialised := h'.initialised

/-- The chain behind a good checksum takes the branch of the topic. -/
theorem dispatch_spec (h : nh.Initialised cfg) (callbacks : Callbacks cfg) (c_time : UInt32)
    (topic : Int) :
    Keeps cfg nh (dispatch cfg callbacks c_time topic nh).nh ∧
      Acts cfg nh.Registered nh.receiver.messageIn (.message topic)
        (dispatch cfg callbacks c_time topic nh).events := by
  by_cases hpublisher : topic = TopicInfo.ID_PUBLISHER
  · have hsync := requestSyncTime_keeps h
    have hnegotiate := negotiateTopics_keeps hsync.initialised
    simp only [dispatch, if_pos hpublisher]
    exact ⟨(hsync.trans hnegotiate).trans
        (keeps_of_eq hnegotiate.initialised rfl rfl rfl rfl (SameEnds.refl _) rfl rfl),
      .special (by simp [specialBranch, hpublisher])⟩
  by_cases htime : topic = TopicInfo.ID_TIME
  · have hopen := openInput_keeps h
    simp only [dispatch, if_neg hpublisher, if_pos htime]
    exact ⟨hopen.trans (syncTime_keeps hopen.initialised), .special (by
      simp only [specialBranch, if_neg hpublisher, if_pos htime])⟩
  by_cases hparam : topic = TopicInfo.ID_PARAMETER_REQUEST
  · simp only [dispatch, if_neg hpublisher, if_neg htime, if_pos hparam]
    exact ⟨keeps_of_eq h rfl rfl rfl rfl (SameEnds.refl _) rfl rfl, .special (by
      simp only [specialBranch, if_neg hpublisher, if_neg htime, if_pos hparam])⟩
  by_cases hstop : topic = TopicInfo.ID_TX_STOP
  · simp only [dispatch, if_neg hpublisher, if_neg htime, if_neg hparam, if_pos hstop]
    exact ⟨keeps_of_eq h rfl rfl rfl rfl (SameEnds.refl _) rfl rfl, .special (by
      simp only [specialBranch, if_neg hpublisher, if_neg htime, if_neg hparam, if_pos hstop])⟩
  have hspecial : specialBranch topic = none := by
    simp only [specialBranch, if_neg hpublisher, if_neg htime, if_neg hparam, if_neg hstop]
  simp only [dispatch, if_neg hpublisher, if_neg htime, if_neg hparam, if_neg hstop]
  by_cases hvalid : cfg.isTopicValid topic = true
  · simp only [if_pos hvalid]
    cases hslot : nh.subscriberAt (topic - 100) with
    | some e =>
      have hopen := openInput_keeps h
      exact ⟨hopen.trans (callbacks.keeps _ _ hopen.initialised), .subscriber hspecial hvalid⟩
    | none =>
      refine ⟨Keeps.refl h, .empty hspecial hvalid fun hregistered => ?_⟩
      obtain ⟨e, he⟩ := hregistered.subscriberAt
      rw [hslot] at he
      cases he
  · simp only [if_neg hvalid]
    exact ⟨Keeps.refl h, .invalid hspecial (Bool.not_eq_true _ ▸ hvalid)⟩

/-- No step changes the length of `message_in`. -/
theorem Receiver.step_messageIn_length (data : UInt8) (r : Receiver) :
    (r.step cfg data).1.messageIn.length = r.messageIn.length := by
  simp only [Receiver.step]
  split
  · simp only [storeAt]
    split
    · exact List.length_set ..
    · rfl
  all_goals first | rfl | (split <;> rfl)

/-- A reaction to a byte keeps the state machine as the byte left it. -/
theorem react_spec (h : nh.Initialised cfg) (callbacks : Callbacks cfg) (c_time : UInt32)
    (reaction : Reaction) :
    Keeps cfg nh (react cfg callbacks c_time reaction nh).nh ∧
      Acts cfg nh.Registered nh.receiver.messageIn reaction
        (react cfg callbacks c_time reaction nh).events := by
  cases reaction with
  | quiet => exact ⟨Keeps.refl h, .silent (by simp)⟩
  | header bytes => exact ⟨Keeps.refl h, .silent (by simp)⟩
  | store index => exact ⟨Keeps.refl h, .silent (by simp)⟩
  | sync =>
    exact ⟨keeps_of_eq h rfl rfl rfl rfl (SameEnds.refl _) rfl rfl, .silent (by simp)⟩
  | skip =>
    simp only [react]
    split
    · exact ⟨keeps_of_eq h rfl rfl rfl rfl (SameEnds.refl _) rfl rfl, .silent (by simp)⟩
    · exact ⟨keeps_of_eq h rfl rfl rfl rfl (SameEnds.refl _) rfl rfl, .silent (by simp)⟩
  | version =>
    refine ⟨?_, .silent (by simp)⟩
    simp only [react]
    split
    · exact Keeps.refl h
    · exact requestSyncTime_keeps h
  | invalidTopic =>
    exact ⟨keeps_of_eq h rfl rfl rfl rfl (SameEnds.refl _) rfl rfl, .silent (by simp)⟩
  | message topic => exact dispatch_spec h callbacks c_time topic

/-- One byte of the loop: a step of the state machine, and then the events of
the reaction to it. -/
theorem handle_spins (h : nh.Initialised cfg) (callbacks : Callbacks cfg) (c_time : UInt32)
    {data : UInt8} {rest : List UInt8} (hrx : nh.hardware.rx = data :: rest) {next : NodeHandle}
    (hnext : next = { nh with hardware := { nh.hardware with rx := rest } }) :
    Spins cfg [] nh (handle cfg callbacks c_time data next).events
        (handle cfg callbacks c_time data next).nh ∧
      (handle cfg callbacks c_time data next).nh.hardware.rx = rest := by
  subst hnext
  obtain ⟨hkeeps, hacts⟩ := react_spec
    (h.congr (Receiver.step_messageIn_length data nh.receiver) rfl rfl (SameEnds.refl _) rfl rfl :
      NodeHandle.Initialised cfg { nh with
        receiver := (nh.receiver.step cfg data).1, hardware := { nh.hardware with rx := rest } })
    callbacks c_time (nh.receiver.step cfg data).2
  refine ⟨⟨?_, ?_, hkeeps.subscribers, hkeeps.initialised⟩, hkeeps.rx⟩
  · have hread := Follows.read hacts (Follows.nil _)
    rw [List.append_nil] at hread
    exact hkeeps.receiver ▸ hread
  · have hbytes := hacts.bytesRead
    rw [List.append_nil, hrx]
    exact (congrArg (data :: ·) ((congrArg (· ++ _) hbytes).trans hkeeps.rx)).symm

theorem spinExpired_keeps (h : nh.Initialised cfg) (c_time : UInt32) :
    Keeps cfg nh (spinExpired c_time nh).1 := by
  simp only [spinExpired]
  split
  · exact keeps_of_eq h rfl rfl rfl rfl (SameEnds.refl _) rfl rfl
  · exact Keeps.refl h

/-- The loop reads bytes from the front of what there is, and each of them is a
step of the state machine. -/
theorem spinLoop_spins (callbacks : Callbacks cfg) (c_time : UInt32) (rx : List UInt8)
    (h : nh.Initialised cfg) (hrx : nh.hardware.rx = rx) :
    Spins cfg [] nh (spinLoop cfg callbacks c_time rx nh).events
      (spinLoop cfg callbacks c_time rx nh).nh := by
  induction rx generalizing nh with
  | nil =>
    rw [spinLoop]
    exact (spinExpired_keeps h c_time).spins
  | cons data rest ih =>
    have hexpired := spinExpired_keeps h c_time
    obtain ⟨hread, hrest⟩ :=
      handle_spins hexpired.initialised callbacks c_time (hexpired.rx.trans hrx) rfl
    have hfirst := hexpired.spins.trans hread
    rw [spinLoop]
    dsimp only
    split
    · exact hexpired.spins
    · split
      · exact hfirst
      · exact hfirst.trans (ih hread.initialised hrest)

theorem restartIfTimedOut_keeps (h : nh.Initialised cfg) (c_time : UInt32) :
    Keeps cfg nh (restartIfTimedOut c_time nh) := by
  simp only [restartIfTimedOut]
  split
  · exact keeps_of_eq h rfl rfl rfl rfl (SameEnds.refl _) rfl rfl
  · exact Keeps.refl h

theorem resetIfTimedOut_spins (h : nh.Initialised cfg) (c_time : UInt32) :
    Spins cfg [] nh (resetIfTimedOut c_time nh).2 (resetIfTimedOut c_time nh).1 := by
  simp only [resetIfTimedOut]
  split
  · exact ⟨.reset (.nil _), by simp [bytesRead], fun _ _ => id,
      h.congr rfl rfl rfl (SameEnds.refl _) rfl rfl⟩
  · exact (Keeps.refl h).spins

theorem occasionallySync_keeps (h : nh.Initialised cfg) (c_time : UInt32) :
    Keeps cfg nh (occasionallySync cfg c_time nh) := by
  simp only [occasionallySync]
  split
  · have hsync := requestSyncTime_keeps h
    exact hsync.trans (keeps_of_eq hsync.initialised rfl rfl rfl rfl (SameEnds.refl _) rfl rfl)
  · exact Keeps.refl h

/-- One call of `spinOnce`. -/
theorem spinOnce_spins (h : nh.Initialised cfg) (callbacks : Callbacks cfg) :
    Spins cfg [] nh (spinOnce cfg callbacks nh).2.1 (spinOnce cfg callbacks nh).1 := by
  obtain ⟨c_time, hc_time⟩ : ∃ c_time, nh.hardware.time.1 = c_time := ⟨_, rfl⟩
  have hclock : Keeps cfg nh { nh with hardware := nh.hardware.time.2 } :=
    keeps_of_eq h rfl rfl rfl rfl (SameEnds.refl _) rfl rfl
  have hrestart := restartIfTimedOut_keeps hclock.initialised c_time
  have hreset := resetIfTimedOut_spins hrestart.initialised c_time
  have hloop := spinLoop_spins callbacks c_time _ hreset.initialised rfl
  have hspin := ((hclock.trans hrestart).spins.trans hreset).trans hloop
  simp only [spinOnce, hc_time]
  split
  · exact hspin
  · have hsync := occasionallySync_keeps hloop.initialised c_time
    simpa using hspin.trans hsync.spins

end Spins

/-! ## Runs -/

/-- A call of a member function, or the arrival of bytes between two calls. -/
inductive Call
  | arrive (bytes : List UInt8)
  | spinOnce
  | publish (id : Int) (msg : Msg)
  | log (level : Fin 256) (text : CString)
  | advertise (p : Endpoint)
  | subscribe (s : Endpoint)
  | requestSyncTime
  | setNow (sec nanosec : UInt32)
  | now
  | setSpinTimeout (timeout : UInt32)

/-- One call, with its trace. -/
def Call.run (cfg : NodeConfig) (callbacks : Callbacks cfg) (nh : NodeHandle) :
    Call → NodeHandle × List Event
  | .arrive bytes => ({ nh with hardware := { nh.hardware with rx := nh.hardware.rx ++ bytes } }, [])
  | .spinOnce =>
    let (nh, events, _) := Device.spinOnce cfg callbacks nh
    (nh, events)
  | .publish id msg => ((Device.publish cfg id msg nh).1, [])
  | .log level text => (Device.log cfg level text nh, [])
  | .advertise p => ((Device.advertise cfg p nh).1, [])
  | .subscribe s => ((Device.subscribe s nh).1, [])
  | .requestSyncTime => (Device.requestSyncTime cfg nh, [])
  | .setNow sec nanosec => (Device.setNow sec nanosec nh, [])
  | .now => ((Device.now nh).2, [])
  | .setSpinTimeout timeout => ({ nh with spinTimeout := timeout }, [])

/-- The bytes that arrive in a call. -/
def Call.arrived : Call → List UInt8
  | .arrive bytes => bytes
  | _ => []

/-- A run. -/
def run (cfg : NodeConfig) (callbacks : Callbacks cfg) :
    NodeHandle → List Call → NodeHandle × List Event
  | nh, [] => (nh, [])
  | nh, call :: rest =>
    let (nh, first) := call.run cfg callbacks nh
    let (nh, more) := run cfg callbacks nh rest
    (nh, first ++ more)

section Runs

variable {cfg : NodeConfig} (callbacks : Callbacks cfg)

theorem Call.run_spins {nh : NodeHandle} (h : nh.Initialised cfg) (call : Call) :
    Spins cfg call.arrived nh (call.run cfg callbacks nh).2 (call.run cfg callbacks nh).1 := by
  cases call with
  | arrive bytes =>
    exact ⟨.nil _, rfl, fun _ _ => id, h.congr rfl rfl rfl (SameEnds.refl _) rfl rfl⟩
  | spinOnce => exact spinOnce_spins h callbacks
  | publish id msg => exact (publish_keeps h id msg).spins
  | log level text => exact (publish_keeps h TopicInfo.ID_LOG (logMsg level text)).spins
  | advertise p => exact (advertise_keeps h p).spins
  | subscribe s => exact (subscribe_keeps h s).spins
  | requestSyncTime => exact (requestSyncTime_keeps h).spins
  | setNow sec nanosec => exact (setNow_keeps h sec nanosec).spins
  | now =>
    have hnow : Keeps cfg nh (Device.now nh).2 :=
      keeps_of_eq h rfl rfl rfl rfl (SameEnds.refl _) rfl rfl
    exact hnow.spins
  | setSpinTimeout timeout =>
    have hset : Keeps cfg nh { nh with spinTimeout := timeout } :=
      keeps_of_eq h rfl rfl rfl rfl (SameEnds.refl _) rfl rfl
    exact hset.spins

/-- A run of a node runs its state machine through the bytes that arrive. -/
theorem run_spins {nh : NodeHandle} (h : nh.Initialised cfg) (calls : List Call) :
    Spins cfg (calls.flatMap Call.arrived) nh (run cfg callbacks nh calls).2
      (run cfg callbacks nh calls).1 := by
  induction calls generalizing nh with
  | nil => exact (Keeps.refl h).spins
  | cons call rest ih =>
    have hcall := call.run_spins callbacks h
    exact hcall.trans (ih hcall.initialised)

end Runs

/-- Callbacks that do nothing. -/
def noCallbacks (cfg : NodeConfig) : Callbacks cfg where
  run _ nh := nh
  keeps _ _ h := Keeps.refl h

/-- A node after `initNode()`. -/
def freshNode (cfg : NodeConfig) : NodeHandle := initNode cfg (construct cfg idleHardware)

end Ros2Serial.Device
