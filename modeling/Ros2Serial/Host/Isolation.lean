import Ros2Serial.Host.ReadChain

/-!
# Restarting a session

`stop` closes the port and cancels the timers, but the handlers that are queued
still run, and they do not say which session they belong to.  Some of them do
harm to the session that `check_connection` has started in the meantime: a
completed write with an error and an expired wait stop it, and where a read of
the session before is outstanding, its first read is refused.

`isolated_of_orderly` says that this is all.  Any other run keeps the sessions
apart, and has one chain of reads.  It is enough that the port is opened only
when all handlers of the session before have run (`orderly_of_drained`).
-/

namespace Ros2Serial.Host

open Runs

/-- The wait is over, and was not cancelled. -/
def SyncWait.Fires (wait : SyncWait) : Prop := wait.state ≠ .waiting ∧ wait.state ≠ .cancelled

instance (wait : SyncWait) : Decidable wait.Fires := inferInstanceAs (Decidable (_ ∧ _))

namespace SerialSession

/-! ## Sessions that are kept apart -/

/-- The session in which the handler of a step was armed or queued. -/
def queuedIn (l : SerialSession) : LoopStep → Option Nat
  | .check _ => l.check
  | .read i _ => l.reads[i]?.map PortRead.session
  | .run _ => l.posted.head?
  | .written i _ => l.writes[i]?
  | .timeout i => l.waits[i]?.map SyncWait.session
  | .expire _ => none
  | .send _ _ => none
  | .interrupt => none

/-- The handler belongs to a session before the last one that was started. -/
def Stale (l : SerialSession) (st : LoopStep) : Prop :=
  ∃ session ∈ l.queuedIn st, session < l.sessions

/-- Such a handler neither stops a session nor issues a read in it. -/
def Isolated (l : SerialSession) (st : LoopStep) : Prop :=
  l.session.active = true → l.Stale st →
    (l.step st).session.active = true ∧ (l.step st).readCalls = l.readCalls

/-- At most one chain of reads is live, and no read was called while one was pending. -/
structure OneChain (l : SerialSession) : Prop where
  live : l.reads.length + l.posted.length ≤ 1
  overlaps : l.overlaps = 0

/-- No header is received for a frame that the buffer cannot hold. -/
def SmallFrames (l : SerialSession) : LoopStep → Prop
  | .run _ => ¬ l.session.ReceivesOversize
  | _ => True

/-- A session is started only when nothing is left of the reads of the one before, and while
it is active, no write of an earlier session completes with an error, and no wait of an
earlier session fires. -/
def Orderly (l : SerialSession) : LoopStep → Prop
  | .check opens => opens = true → l.session.active = false → l.Quiet
  | .written i error =>
    error.isSome = true → l.session.active = true → ∀ session ∈ l.writes[i]?, l.sessions ≤ session
  | .timeout i =>
    l.session.active = true → ∀ wait ∈ l.waits[i]?, wait.Fires → l.sessions ≤ wait.session
  | _ => True

instance (l : SerialSession) (st : LoopStep) : Decidable (l.Orderly st) :=
  match st with
  | .check _ => inferInstanceAs (Decidable (_ → _ → _))
  | .written _ _ => inferInstanceAs (Decidable (_ → _ → ∀ session ∈ _, _))
  | .timeout _ => inferInstanceAs (Decidable (_ → ∀ wait ∈ _, _ → _))
  | .read _ _ | .run _ | .expire _ | .send _ _ | .interrupt => inferInstanceAs (Decidable True)

/-! ## Runs -/

section Runs

variable {l : SerialSession} {st : LoopStep}

theorem Consistent.oneChain (h : l.Consistent False False) : l.OneChain := by
  obtain ⟨ht, rest, -, hphase⟩ := h
  refine ⟨?_, ht.overlaps.resolve_left id⟩
  rw [ht.reads, ht.posted]
  cases hphase with
  | idle h =>
    rw [h.pending, h.posted]
    exact Nat.zero_le 1
  | stuck h hrequested hpending hposted => exact h.elim
  | wants h hexpected hn =>
    cases h with
    | awaits h =>
      rw [h.pending, h.posted]
      exact Nat.le_refl 1
    | delivers h =>
      obtain ⟨start, hposted, -⟩ := h.posted
      rw [h.pending, hposted]
      exact Nat.le_refl 1

/-- The handlers of the reads and `check_connection` are never those of an earlier session. -/
theorem Consistent.isolated (h : l.Consistent False False) (horder : l.Orderly st) : l.Isolated st := by
  rintro hactive ⟨session, hsession, hstale⟩
  have hcurrent : session ≠ l.sessions := Nat.ne_of_lt hstale
  cases st with
  | check opens => exact absurd (h.tagged.check session hsession) hcurrent
  | read i result =>
    obtain ⟨issued, hissued, rfl⟩ := Option.map_eq_some_iff.mp hsession
    exact absurd (h.tagged.readsBy issued (List.mem_of_getElem? hissued)) hcurrent
  | run effects => exact absurd (h.tagged.postedBy session (List.mem_of_head? hsession)) hcurrent
  | written i error =>
    cases error with
    | some error => exact absurd (horder rfl hactive session hsession) (Nat.not_le_of_lt hstale)
    | none =>
      unfold SerialSession.step
      split
      · exact ⟨hactive, rfl⟩
      · dsimp only
        split
        · exact ⟨hactive, rfl⟩
        · exact ⟨hactive, rfl⟩
  | timeout i =>
    obtain ⟨wait, hwait, rfl⟩ := Option.map_eq_some_iff.mp hsession
    have hnot : ¬ wait.Fires := fun hfires =>
      Nat.not_le_of_lt hstale (horder hactive wait hwait hfires)
    unfold SerialSession.step
    split
    · exact ⟨hactive, rfl⟩
    · dsimp only
      rw [hwait]
      dsimp only
      split
      · exact ⟨hactive, rfl⟩
      · rename_i hwaiting
        have hcancelled : wait.state = .cancelled := not_not.mp fun h => hnot ⟨hwaiting, h⟩
        rw [syncTimeout, hcancelled]
        exact ⟨hactive, rfl⟩
  | expire i => cases hsession
  | send message topic_id => cases hsession
  | interrupt => cases hsession

theorem Orderly.quiet (h : l.Orderly st) (hst : st = .check true)
    (hactive : l.session.active = false) : l.Quiet := by
  subst hst
  exact h rfl hactive

theorem SmallFrames.not_oversize (h : l.SmallFrames st) (effects : List Effect)
    (hst : st = .run effects) : ¬ l.session.ReceivesOversize := by
  subst hst
  exact h

end Runs

end SerialSession

/-- Where the frames fit the buffer, a run whose handlers are in order keeps every session
apart from those before it, with one chain of reads. -/
theorem isolated_of_orderly {threshold : Int} {ok : Bool} {l : SerialSession}
    (hnew : SerialSession.new threshold ok = some l) {steps : List LoopStep}
    (hsmall : Throughout SerialSession.step SerialSession.SmallFrames l steps)
    (horder : Throughout SerialSession.step SerialSession.Orderly l steps) :
    Throughout SerialSession.step SerialSession.Isolated l steps ∧
      Always SerialSession.step SerialSession.OneChain l steps := by
  have hconsistent : Always SerialSession.step (SerialSession.Consistent False False) l steps := by
    refine Always.of_throughout (SerialSession.new_consistent hnew) ?_ (hsmall.and horder)
    rintro l st h ⟨hfits, hinOrder⟩
    exact h.step hinOrder.quiet (fun h => h.elim) (Or.inr hfits.not_oversize)
  exact ⟨horder.of_always hconsistent fun l st h hinOrder => h.isolated hinOrder,
    hconsistent.mono fun l h => h.oneChain⟩

/-! ## Schedules that leave nothing -/

namespace SerialSession

/-- A port is opened only when all handlers of the session before have run. -/
def Drained (l : SerialSession) : LoopStep → Prop
  | .check opens => opens = true → l.session.active = false →
    l.Quiet ∧ l.writes = [] ∧ l.waits = []
  | _ => True

instance (l : SerialSession) (st : LoopStep) : Decidable (l.Drained st) :=
  match st with
  | .check _ => inferInstanceAs (Decidable (_ → _ → _ ∧ _ ∧ _))
  | .written _ _ | .timeout _ | .read _ _ | .run _ | .expire _ | .send _ _ | .interrupt =>
    inferInstanceAs (Decidable True)

/-- The writes and the waits that are left belong to the session that was started last. -/
structure Current (l : SerialSession) : Prop where
  writes : ∀ session ∈ l.writes, session = l.sessions
  waits : ∀ wait ∈ l.waits, wait.session = l.sessions

section Current

variable {l : SerialSession}

@[simp] theorem cancel_session (wait : SyncWait) : wait.cancel.session = wait.session := by
  rw [SyncWait.cancel]
  split <;> rfl

theorem Current.cancel (h : l.Current) : ∀ wait ∈ l.waits.map SyncWait.cancel,
    wait.session = l.sessions := by
  intro wait hwait
  obtain ⟨before, hbefore, rfl⟩ := List.mem_map.mp hwait
  rw [cancel_session]
  exact h.waits before hbefore

theorem Current.writeMessage (h : l.Current) (message : List UInt8) (topic_id : Nat) :
    (l.writeMessage message topic_id).Current := by
  refine ⟨fun session hsession => ?_, h.waits⟩
  rcases List.mem_append.mp hsession with hold | hnew
  · exact h.writes session hold
  · obtain ⟨-, -, rfl⟩ := List.mem_map.mp hnew
    rfl

theorem Current.stop (h : l.Current) : l.stop.Current := by
  rw [SerialSession.stop]
  split
  · have hcancelled : Current { l with
        stops := l.stops + 1
        session := { l.session with active := false, callbacks := [] }
        waits := l.waits.map SyncWait.cancel } := ⟨h.writes, h.cancel⟩
    have hstopped := hcancelled.writeMessage [0] TopicInfo.ID_TX_STOP
    exact ⟨hstopped.writes, hstopped.waits⟩
  · exact ⟨h.writes, h.waits⟩

theorem Current.shutdown (h : l.Current) : l.shutdown.Current := by
  have hstopped : (if l.session.active then l.stop else l).Current := by
    split
    · exact h.stop
    · exact h
  exact ⟨hstopped.writes, hstopped.waits⟩

theorem Current.setSyncTimeout (h : l.Current) : l.setSyncTimeout.Current := by
  rw [SerialSession.setSyncTimeout]
  split
  · refine ⟨h.writes, fun wait hwait => ?_⟩
    rcases List.mem_append.mp hwait with hold | hnew
    · exact h.cancel wait hold
    · rw [List.mem_singleton.mp hnew]
  · have hcounted : Current { l with timeouts := l.timeouts + 1 } := ⟨h.writes, h.waits⟩
    exact hcounted.shutdown

theorem Current.attemptSync (h : l.Current) : l.attemptSync.Current :=
  (h.writeMessage [] TopicInfo.ID_PUBLISHER).setSyncTimeout

theorem Current.perform (h : l.Current) (effect : Effect) : (l.perform effect).Current := by
  cases effect with
  | write message topic_id => exact h.writeMessage message topic_id
  | setSyncTimeout => exact h.setSyncTimeout
  | enter topic_id => exact ⟨h.writes, h.waits⟩

theorem Current.countUnrecognised (h : l.Current) : l.countUnrecognised.Current := by
  rw [SerialSession.countUnrecognised]
  split
  · have hcounted : Current
        { l with session.unrecognised_topics := l.session.unrecognised_topics + 1 } :=
      ⟨h.writes, h.waits⟩
    dsimp only
    split
    · exact ⟨hcounted.attemptSync.writes, hcounted.attemptSync.waits⟩
    · exact hcounted
  · exact h

theorem Current.lookup (h : l.Current) (effects : List Effect) (topic_id : Nat)
    (payload : List UInt8) : (l.lookup effects topic_id payload).Current := by
  have hlooked : Current
      { l with session.lookups := l.session.lookups ++ [(topic_id, payload)] } :=
    ⟨h.writes, h.waits⟩
  rw [SerialSession.lookup]
  dsimp only
  split
  · exact List.foldlRecOn effects SerialSession.perform hlooked fun l h effect _ => h.perform effect
  · exact hlooked.countUnrecognised

theorem Current.readFailed {readSyncHeader : SerialSession → SerialSession} (h : l.Current)
    (hread : ∀ l : SerialSession, l.Current → (readSyncHeader l).Current) (error : ErrorCode) :
    (l.readFailed readSyncHeader error).Current := by
  rw [SerialSession.readFailed]
  split
  · exact hread l h
  · exact h.stop

theorem Current.readDepth (depth : Nat) (h : l.Current) (requested_bytes : Nat)
    (callback : Continuation) : (l.readDepth depth requested_bytes callback).Current := by
  induction depth generalizing l requested_bytes callback with
  | zero =>
    rw [SerialSession.readDepth]
    dsimp only
    split <;> exact ⟨h.writes, h.waits⟩
  | succ depth ih =>
    rw [SerialSession.readDepth]
    dsimp only
    split
    · exact ⟨h.writes, h.waits⟩
    · refine Current.readFailed ?_ (fun l h => ih h 1 .readSyncFirst) _
      exact ⟨h.writes, h.waits⟩

theorem Current.read (h : l.Current) (requested_bytes : Nat) (callback : Continuation) :
    (l.read requested_bytes callback).Current :=
  h.readDepth 2 requested_bytes callback

theorem Current.resume (h : l.Current) (effects : List Effect) (stream : SimpleCdr)
    (callback : Continuation) : (l.resume effects stream callback).Current := by
  by_cases hbody : ∀ topic_id, callback ≠ .readBody topic_id
  · rw [resume_eq l effects stream hbody]
    exact h.read _ _
  · obtain ⟨topic_id, hcallback⟩ := not_forall.mp hbody
    obtain rfl := not_not.mp hcallback
    rw [SerialSession.resume, readBody]
    split
    · exact h
    · split
      · exact h
      · dsimp only
        split
        · exact h.read 1 .readSyncFirst
        · exact (h.lookup effects topic_id _).read 1 .readSyncFirst

theorem Current.start (hwrites : l.writes = []) (hwaits : l.waits = []) : l.start.Current := by
  have hempty : ∀ (session : Session) (leftover : List UInt8), Current { l with
      session := session, sessions := l.sessions + 1, leftover := leftover, arrived := []
      handed := [] } := fun session leftover =>
    ⟨by simp [hwrites], by simp [hwaits]⟩
  exact (hempty _ _).attemptSync.read 1 .readSyncFirst

theorem Current.checkAgain (h : l.Current) : l.checkAgain.Current := by
  rw [SerialSession.checkAgain]
  split
  · exact ⟨h.writes, h.waits⟩
  · exact h.shutdown

/-- A step leaves nothing behind of an earlier session, where a start finds nothing. -/
theorem Current.step (h : l.Current) {st : LoopStep} (hdrained : l.Drained st) :
    (l.step st).Current := by
  unfold SerialSession.step
  split
  · exact h
  · cases st with
    | check opens =>
      dsimp only
      split
      · refine Current.checkAgain ?_
        rw [connect]
        split
        · rename_i hinactive
          cases opens with
          | false => exact ⟨h.writes, h.waits⟩
          | true =>
            obtain ⟨-, hwrites, hwaits⟩ := hdrained rfl (by simpa using hinactive)
            exact Current.start hwrites hwaits
        · exact ⟨h.writes, h.waits⟩
      · exact h
    | read i result =>
      dsimp only
      split
      · split
        · rw [completeRead]
          dsimp only
          split
          · exact ⟨h.writes, h.waits⟩
          · refine Current.readFailed ?_ (fun l h => h.read 1 .readSyncFirst) _
            exact ⟨h.writes, h.waits⟩
        · exact h
      · exact h
    | run effects =>
      dsimp only
      split
      · exact h
      · refine Current.resume ?_ effects _ _
        exact ⟨h.writes, h.waits⟩
    | written i error =>
      dsimp only
      split
      · exact h
      · have hcompleted : Current { l with writes := l.writes.eraseIdx i } :=
          ⟨fun session hsession => h.writes session (List.mem_of_mem_eraseIdx hsession), h.waits⟩
        split
        · exact hcompleted.stop
        · exact hcompleted
    | expire i =>
      dsimp only
      split
      · exact h
      · rename_i wait hwait
        split
        · refine ⟨h.writes, fun other hother => ?_⟩
          rcases List.mem_or_eq_of_mem_set hother with hold | rfl
          · exact h.waits other hold
          · exact h.waits wait (List.mem_of_getElem? hwait)
        · exact h
    | timeout i =>
      dsimp only
      split
      · exact h
      · split
        · exact h
        · have hover : Current { l with waits := l.waits.eraseIdx i } :=
            ⟨h.writes, fun wait hwait => h.waits wait (List.mem_of_mem_eraseIdx hwait)⟩
          rw [syncTimeout]
          split
          · exact hover.stop
          · exact hover
    | send message topic_id => exact h.writeMessage message topic_id
    | interrupt => exact ⟨h.writes, h.waits⟩

/-- So the handlers of a step are in order. -/
theorem Current.orderly (h : l.Current) {st : LoopStep} (hdrained : l.Drained st) :
    l.Orderly st := by
  cases st with
  | check opens => exact fun hopens hinactive => (hdrained hopens hinactive).1
  | written i error =>
    intro _ _ session hsession
    exact Nat.le_of_eq (h.writes session (List.mem_of_getElem? hsession)).symm
  | timeout i =>
    intro _ wait hwait _
    exact Nat.le_of_eq (h.waits wait (List.mem_of_getElem? hwait)).symm
  | _ => trivial

end Current

end SerialSession

/-- Where the port is opened only when all handlers of the session before have run, the run is
in order. -/
theorem orderly_of_drained {threshold : Int} {ok : Bool} {l : SerialSession}
    (hnew : SerialSession.new threshold ok = some l) {steps : List LoopStep}
    (hdrained : Throughout SerialSession.step SerialSession.Drained l steps) :
    Throughout SerialSession.step SerialSession.Orderly l steps := by
  have hstart : l.Current := by
    obtain ⟨session, -, rfl⟩ := Option.map_eq_some_iff.mp hnew
    exact ⟨fun _ h => absurd h List.not_mem_nil, fun _ h => absurd h List.not_mem_nil⟩
  have hcurrent : Always SerialSession.step SerialSession.Current l steps :=
    Always.of_throughout hstart (fun l st h hst => h.step hst) hdrained
  exact hdrained.of_always hcurrent fun l st h hst => h.orderly hst

/-! ## Two restarts -/

/-- The device is silent.  `check_connection` runs after the handlers that `stop` has queued. -/
def orderlyRestart : List LoopStep :=
  [.check true, .expire 0, .timeout 0, .read 0 (.error .operation_aborted),
    .written 1 (some .operation_aborted), .check true, .written 0 none]

theorem orderlyRestart_isolated :
    Throughout SerialSession.step SerialSession.Isolated newSession orderlyRestart ∧
      Always SerialSession.step SerialSession.OneChain newSession orderlyRestart := by
  refine isolated_of_orderly newSession_eq ?_ ?_
  · simp only [orderlyRestart, throughout_cons]
    exact ⟨trivial, trivial, trivial, trivial, trivial, trivial, trivial, throughout_nil⟩
  · simp only [orderlyRestart, throughout_cons]
    refine ⟨?_, trivial, ?_, trivial, ?_, ?_, ?_, throughout_nil⟩ <;> decide +kernel

/-- `check_connection` was ready before `sync_timeout` ran, and comes next. -/
def hastyRestart : List LoopStep := [.check true, .expire 0, .timeout 0, .check true]

theorem hastyRestart_not_isolated :
    ¬ ∀ (threshold : Int) (ok : Bool) (l : SerialSession) (steps : List LoopStep),
      SerialSession.new threshold ok = some l →
      Throughout SerialSession.step SerialSession.SmallFrames l steps →
      Throughout SerialSession.step SerialSession.Isolated l steps ∧
        Always SerialSession.step SerialSession.OneChain l steps := by
  intro h
  have hsmall : Throughout SerialSession.step SerialSession.SmallFrames newSession hastyRestart := by
    simp only [hastyRestart, throughout_cons]
    exact ⟨trivial, trivial, trivial, trivial, throughout_nil⟩
  have hoverlaps := (h 1 true newSession hastyRestart newSession_eq hsmall).2.last.overlaps
  revert hoverlaps
  decide +kernel

end Ros2Serial.Host
