import Ros2Serial.Host.ReadChain

/-!
# The sync watchdog

`set_sync_timeout` cancels the wait that it armed the last time.  Where that is
over already, and its handler queued, `cancel` comes too late: the handler
runs with no error, and `sync_timeout` stops a session that has just been heard
of.

Until then the count of calls is the one with which the wait was armed
(`Timed`).  So the watchdog is right in a run if and only if no call of
`set_sync_timeout` comes between the end of a wait and its handler
(`sound_iff_inTime`).
-/

namespace Ros2Serial.Host

open Runs

/-! ## Waits that are over -/

/-- A wait goes on, or was over, as long as no call has followed the one that armed it. -/
structure SyncWait.Timed (timeouts : Nat) (wait : SyncWait) : Prop where
  waiting : wait.state = .waiting → wait.armed = timeouts
  expired : ∀ count, wait.state = .expired count → wait.armed = count

theorem SyncWait.Timed.cancel {timeouts : Nat} {wait : SyncWait} (h : wait.Timed timeouts)
    (later : Nat) : wait.cancel.Timed later := by
  rw [SyncWait.cancel]
  split
  · constructor
    · intro hstate
      cases hstate
    · intro count hstate
      cases hstate
  · rename_i hover
    exact ⟨fun hstate => absurd hstate hover, h.expired⟩

namespace SerialSession

/-- `sync_timeout` calls `stop` only if no `set_sync_timeout` was executed after the one that
armed the wait. -/
def WatchdogSound (l : SerialSession) (st : LoopStep) : Prop :=
  ∀ i wait, st = .timeout i → l.waits[i]? = some wait →
    (l.step st).stops ≠ l.stops → wait.armed = l.timeouts

/-- No `set_sync_timeout` was executed since the wait was over. -/
def InTime (l : SerialSession) : LoopStep → Prop
  | .timeout i => l.session.io_stopped = false → ∀ wait ∈ l.waits[i]?,
    ∀ count, wait.state = .expired count → count = l.timeouts
  | _ => True

/-- As long as the `io_service` runs, the waits are timed. -/
def Timed (l : SerialSession) : Prop :=
  l.session.io_stopped = false → ∀ wait ∈ l.waits, wait.Timed l.timeouts

/-! ## Steps -/

section Steps

variable {l : SerialSession}

theorem Timed.cancel (h : l.Timed) (timeouts : Nat) (hrun : l.session.io_stopped = false) :
    ∀ wait ∈ l.waits.map SyncWait.cancel, wait.Timed timeouts := by
  intro wait hwait
  obtain ⟨old, hold, rfl⟩ := List.mem_map.mp hwait
  exact (h hrun old hold).cancel timeouts

theorem Timed.stop (h : l.Timed) : l.stop.Timed := by
  rw [SerialSession.stop]
  split
  · exact fun hrun => h.cancel l.timeouts hrun
  · exact h

theorem shutdown_timed (l : SerialSession) : l.shutdown.Timed :=
  fun hrun => absurd hrun (Bool.noConfusion : ¬ true = false)

theorem Timed.setSyncTimeout (h : l.Timed) : l.setSyncTimeout.Timed := by
  rw [SerialSession.setSyncTimeout]
  split
  · intro hrun wait hwait
    rcases List.mem_append.mp hwait with hold | hnew
    · exact h.cancel _ hrun wait hold
    · obtain rfl := List.mem_singleton.mp hnew
      exact ⟨fun _ => rfl, fun count hstate => by cases hstate⟩
  · exact shutdown_timed _

theorem Timed.attemptSync (h : l.Timed) : l.attemptSync.Timed :=
  Timed.setSyncTimeout (l := l.writeMessage [] TopicInfo.ID_PUBLISHER) h

theorem Timed.performAll (effects : List Effect) (h : l.Timed) :
    (effects.foldl perform l).Timed := by
  induction effects generalizing l with
  | nil => exact h
  | cons effect effects ih =>
    refine ih ?_
    cases effect with
    | write message topic_id => exact h
    | setSyncTimeout => exact h.setSyncTimeout
    | enter topic_id => exact h

theorem Timed.countUnrecognised (h : l.Timed) : l.countUnrecognised.Timed := by
  rw [SerialSession.countUnrecognised]
  split
  · dsimp only
    split
    · exact Timed.attemptSync
        (l := { l with session.unrecognised_topics := l.session.unrecognised_topics + 1 }) h
    · exact h
  · exact h

theorem Timed.lookup (h : l.Timed) (effects : List Effect) (topic_id : Nat)
    (payload : List UInt8) : (l.lookup effects topic_id payload).Timed := by
  rw [SerialSession.lookup]
  dsimp only
  split
  · exact Timed.performAll effects h
  · exact Timed.countUnrecognised h

theorem Timed.readDepth (h : l.Timed) (depth n : Nat) (callback : Continuation) :
    (l.readDepth depth n callback).Timed := by
  induction depth generalizing l n callback with
  | zero =>
    rw [SerialSession.readDepth.eq_def]
    dsimp only
    split <;> exact h
  | succ depth ih =>
    rw [SerialSession.readDepth.eq_def]
    dsimp only
    split
    · exact h
    · rw [readFailed]
      split
      · refine ih ?_ 1 .readSyncFirst
        exact h
      · refine Timed.stop ?_
        exact h

theorem Timed.read (h : l.Timed) (n : Nat) (callback : Continuation) : (l.read n callback).Timed :=
  h.readDepth 2 n callback

theorem Timed.resume (h : l.Timed) (effects : List Effect) (stream : SimpleCdr)
    (callback : Continuation) : (l.resume effects stream callback).Timed := by
  by_cases hbody : ∀ topic_id, callback ≠ .readBody topic_id
  · rw [resume_eq l effects stream hbody]
    exact h.read _ _
  · obtain ⟨topic_id, hcallback⟩ := not_forall.mp hbody
    obtain rfl := not_not.mp hcallback
    rw [SerialSession.resume, readBody]
    split
    · exact h
    · split
      · exact h
      · dsimp only
        split
        · exact h.read 1 .readSyncFirst
        · exact (h.lookup effects topic_id _).read 1 .readSyncFirst

theorem Timed.completeRead (h : l.Timed) (i : Nat) (op : AsyncRead) (issued : PortRead)
    (result : Except ErrorCode (List UInt8)) : (l.completeRead i op issued result).Timed := by
  rw [SerialSession.completeRead]
  dsimp only
  split
  · exact h
  · rw [readFailed]
    split
    · refine Timed.read ?_ 1 .readSyncFirst
      exact h
    · refine Timed.stop ?_
      exact h

theorem Timed.connect (h : l.Timed) (opens : Bool) : (l.connect opens).Timed := by
  rw [SerialSession.connect, attemptConnection]
  split
  · split
    · refine Timed.read (Timed.attemptSync ?_) 1 .readSyncFirst
      exact h
    · exact h
  · exact h

theorem Timed.checkConnection (h : l.Timed) (opens : Bool) : (l.checkConnection opens).Timed := by
  rw [SerialSession.checkConnection, checkAgain]
  split
  · exact Timed.connect (l := { l with check := none }) h opens
  · exact shutdown_timed _

theorem Timed.step (h : l.Timed) (st : LoopStep) : (l.step st).Timed := by
  unfold SerialSession.step
  split
  · exact h
  · rename_i hrun
    cases st with
    | check opens =>
      dsimp only
      split
      · exact h.checkConnection opens
      · exact h
    | read i result =>
      dsimp only
      split
      · split
        · exact h.completeRead _ _ _ _
        · exact h
      · exact h
    | run effects =>
      dsimp only
      split
      · exact h
      · refine Timed.resume ?_ effects _ _
        exact h
    | written i error =>
      dsimp only
      split
      · exact h
      · split
        · exact Timed.stop h
        · exact h
    | expire i =>
      dsimp only
      split
      · exact h
      · rename_i wait hwait
        split
        · rename_i hwaiting
          intro _ wait' hwait'
          rcases List.mem_or_eq_of_mem_set hwait' with hold | rfl
          · exact h (Bool.eq_false_iff.mpr hrun) wait' hold
          · have htimed := h (Bool.eq_false_iff.mpr hrun) wait (List.mem_of_getElem? hwait)
            constructor
            · intro hstate
              cases hstate
            · intro count hstate
              exact (htimed.waiting hwaiting).trans (WaitState.expired.inj hstate)
        · exact h
    | timeout i =>
      dsimp only
      split
      · exact h
      · split
        · exact h
        · have hothers : Timed { l with waits := l.waits.eraseIdx i } :=
            fun hrun wait hwait => h hrun wait (List.mem_of_mem_eraseIdx hwait)
          rw [syncTimeout]
          split
          · exact hothers.stop
          · exact hothers
    | send message topic_id => exact h
    | interrupt => exact h

/-- The handler of a wait that has fired calls `stop`, and no other one does. -/
theorem stops_timeout {i : Nat} {wait : SyncWait} (hrun : l.session.io_stopped = false)
    (hwait : l.waits[i]? = some wait) :
    (l.step (.timeout i)).stops ≠ l.stops ↔ ∃ count, wait.state = .expired count := by
  have hstep : l.step (.timeout i) = if wait.state = .waiting then l
      else syncTimeout wait { l with waits := l.waits.eraseIdx i } := by
    simp only [SerialSession.step.eq_def, hrun, Bool.false_eq_true, if_false, hwait]
  rw [hstep]
  cases hstate : wait.state with
  | waiting => simp
  | cancelled =>
    rw [if_neg (by decide), syncTimeout, hstate]
    simp
  | expired count =>
    rw [if_neg (by exact fun h => WaitState.noConfusion h), syncTimeout, hstate]
    have hstop : ∀ l : SerialSession, l.stop.stops = l.stops + 1 := by
      intro l
      rw [SerialSession.stop]
      split <;> rfl
    simp [hstop]

/-- The count at the end of a wait is that of the call that armed it. -/
theorem sound_iff_inTime_step (h : l.Timed) (st : LoopStep) : l.WatchdogSound st ↔ l.InTime st := by
  constructor
  · intro hsound
    cases st with
    | timeout i =>
      intro hrun wait hwait count hstate
      have harmed := hsound i wait rfl hwait ((stops_timeout hrun hwait).mpr ⟨count, hstate⟩)
      rw [← harmed]
      exact ((h hrun wait (List.mem_of_getElem? hwait)).expired count hstate).symm
    | _ => exact trivial
  · rintro hinTime i wait rfl hwait hstops
    cases hrun : l.session.io_stopped with
    | true =>
      refine absurd ?_ hstops
      simp only [SerialSession.step.eq_def, hrun, if_true]
    | false =>
      obtain ⟨count, hstate⟩ := (stops_timeout hrun hwait).mp hstops
      rw [(h hrun wait (List.mem_of_getElem? hwait)).expired count hstate]
      exact hinTime hrun wait hwait count hstate

end Steps

theorem new_timed {threshold : Int} {ok : Bool} {l : SerialSession}
    (h : SerialSession.new threshold ok = some l) : l.Timed := by
  rw [SerialSession.new] at h
  obtain ⟨s, -, rfl⟩ := Option.map_eq_some_iff.mp h
  exact fun _ wait hwait => absurd hwait List.not_mem_nil

end SerialSession

/-- The watchdog stops only sessions that have not been heard of, in a run, if and only if no
`set_sync_timeout` is executed between the end of a wait and its handler. -/
theorem sound_iff_inTime {threshold : Int} {ok : Bool} {l : SerialSession}
    (hnew : SerialSession.new threshold ok = some l) (steps : List LoopStep) :
    Throughout SerialSession.step SerialSession.WatchdogSound l steps ↔
      Throughout SerialSession.step SerialSession.InTime l steps := by
  have htimed : Always SerialSession.step SerialSession.Timed l steps :=
    Always.of_step (SerialSession.new_timed hnew) fun l st h => h.step st
  constructor
  · exact fun hsound =>
      hsound.of_always htimed fun l st h => (SerialSession.sound_iff_inTime_step h st).mp
  · exact fun hinTime =>
      hinTime.of_always htimed fun l st h => (SerialSession.sound_iff_inTime_step h st).mpr

theorem silentDevice_sound_iff :
    Throughout SerialSession.step SerialSession.WatchdogSound newSession
        [.check true, .expire 0, .timeout 0] ↔
      Throughout SerialSession.step SerialSession.InTime newSession
        [.check true, .expire 0, .timeout 0] :=
  sound_iff_inTime newSession_eq _

/-- A request for the time arrives, and the wait is over before its `read_body` runs. -/
def lateTime : List LoopStep :=
  [.check true, .read 0 (.ok (Wire.encode TopicInfo.ID_TIME [])), .run [], .run [], .run [],
    .expire 0,
    .run [.write (List.replicate 12 0) TopicInfo.ID_TIME, .setSyncTimeout], .timeout 0]

/-- `sync_timeout` stops the session, although the wait was armed before. -/
theorem lateTime_not_sound :
    ¬ ∀ (threshold : Int) (ok : Bool) (l : SerialSession) (steps : List LoopStep),
      SerialSession.new threshold ok = some l →
      Throughout SerialSession.step SerialSession.WatchdogSound l steps := by
  intro h
  have harmed := h 1 true newSession lateTime newSession_eq
    (lateTime.take 7) (.timeout 0) List.prefix_rfl 0 ⟨1, 1, .expired 1⟩ rfl
  revert harmed
  decide +kernel

end Ros2Serial.Host
