import Ros2Serial.Device.Emission

/-!
# The answer to a request of topics

A node that reads a request of topics tells of every endpoint in its tables, whatever else
is in the bytes that arrive, and whatever the calls around it do.

* `Asked` is read off the trace: the branch of the request was taken.
* `Announced` says that among the frames that were written in between there is a whole
  announcement of every endpoint.
* `Answers` follows the rule of `spinOnce`, as `Emits` does.
-/

namespace Ros2Serial.Device

open Bytes Runs Slots Ucdr

/-- The node has read a request of topics. -/
def Asked (events : List Event) : Prop := ∃ messageIn, Event.act .publisher messageIn ∈ events

/-- The endpoints of `nh` were announced, from `nh` to `nh'`. -/
def Announced (cfg : NodeConfig) (nh nh' : NodeHandle) : Prop :=
  ∀ entry ∈ announcements cfg nh,
    ∃ frame ∈ nh'.hardware.tx.drop nh.hardware.tx.length, Announces entry frame

/-- What a function of a node does, with this trace: requests of topics are answered. -/
structure Answers (cfg : NodeConfig) (nh : NodeHandle) (events : List Event) (nh' : NodeHandle) :
    Prop where
  emits : Emits cfg nh nh'
  announced : Asked events → Announced cfg nh nh'

section Rules

variable {cfg : NodeConfig} {a b c : NodeHandle} {xs ys : List Event}

theorem asked_append : Asked (xs ++ ys) ↔ Asked xs ∨ Asked ys := by
  simp only [Asked, List.mem_append, exists_or]

theorem mem_filterMap_of_holds {slots : List (Option Endpoint)} {i : Nat} {e : Endpoint}
    (h : Slots.Holds slots i e) : e ∈ slots.filterMap id :=
  List.mem_filterMap.mpr ⟨some e, List.mem_of_getElem? h, rfl⟩

theorem exists_holds_of_mem {slots : List (Option Endpoint)} {e : Endpoint}
    (h : e ∈ slots.filterMap id) : ∃ i, Slots.Holds slots i e := by
  obtain ⟨slot, hslot, hsome⟩ := List.mem_filterMap.mp h
  obtain rfl : slot = some e := hsome
  exact List.mem_iff_getElem?.mp hslot

/-- There is more to tell when the tables have grown. -/
theorem announcements_grows (h : Grows a b) {entry : Endpoint × Nat}
    (hentry : entry ∈ announcements cfg a) : entry ∈ announcements cfg b := by
  rcases List.mem_append.mp hentry with hmem | hmem
  · obtain ⟨e, he, rfl⟩ := List.mem_map.mp hmem
    obtain ⟨i, hi⟩ := exists_holds_of_mem he
    refine List.mem_append_left _ (List.mem_map_of_mem ?_)
    exact mem_filterMap_of_holds (h.publishers i e hi)
  · obtain ⟨e, he, rfl⟩ := List.mem_map.mp hmem
    obtain ⟨i, hi⟩ := exists_holds_of_mem he
    refine List.mem_append_right _ (List.mem_map_of_mem ?_)
    exact mem_filterMap_of_holds (h.subscribers i e hi)

/-- What was told before does not count for what comes after it. -/
theorem Announced.after (h : Emits cfg a b) (h' : Announced cfg b c) : Announced cfg a c := by
  intro entry hentry
  obtain ⟨frame, hframe, hannounces⟩ := h' entry (announcements_grows h.grows hentry)
  obtain ⟨sent, htx, -⟩ := h.tx
  refine ⟨frame, ?_, hannounces⟩
  rw [htx, List.length_append, ← List.drop_drop] at hframe
  exact List.mem_of_mem_drop hframe

/-- Frames are written behind those that are there. -/
theorem Announced.before (h : Announced cfg a b) (hfirst : Emits cfg a b) (h' : Emits cfg b c) :
    Announced cfg a c := by
  intro entry hentry
  obtain ⟨frame, hframe, hannounces⟩ := h entry hentry
  obtain ⟨sent, htx, -⟩ := hfirst.tx
  obtain ⟨more, htx', -⟩ := h'.tx
  refine ⟨frame, ?_, hannounces⟩
  rw [htx, List.drop_left] at hframe
  rw [htx', htx, List.append_assoc, List.drop_left]
  exact List.mem_append_left _ hframe

theorem Answers.quiet (h : Emits cfg a b) (hasked : ¬ Asked xs) : Answers cfg a xs b :=
  ⟨h, fun h => absurd h hasked⟩

theorem not_asked_nil : ¬ Asked [] := fun ⟨_, hmem⟩ => List.not_mem_nil hmem

theorem Answers.silent (h : Emits cfg a b) : Answers cfg a [] b := .quiet h not_asked_nil

theorem Answers.trans (h : Answers cfg a xs b) (h' : Answers cfg b ys c) :
    Answers cfg a (xs ++ ys) c := by
  refine ⟨h.emits.trans h'.emits, fun hasked => ?_⟩
  rcases asked_append.mp hasked with hfirst | hrest
  · exact (h.announced hfirst).before h.emits h'.emits
  · exact (h'.announced hrest).after h.emits

end Rules

/-! ## One function at a time -/

section Functions

variable {cfg : NodeConfig} {nh : NodeHandle} {callbacks : Callbacks cfg}

/-- What there is to tell is of the kinds of the tables, and fits `message_out`. -/
theorem announcements_fit (h : Enrolled cfg nh) :
    ∀ entry ∈ announcements cfg nh, entry.1.IsSetup ∧ InfoFits cfg entry := by
  intro entry hentry
  rcases List.mem_append.mp hentry with hmem | hmem
  · obtain ⟨e, he, rfl⟩ := List.mem_map.mp hmem
    obtain ⟨i, hi⟩ := exists_holds_of_mem he
    exact ⟨isSetup_of_mem (Or.inl (h.publishers.kind i e hi)), h.publishers.fits i e hi⟩
  · obtain ⟨e, he, rfl⟩ := List.mem_map.mp hmem
    obtain ⟨i, hi⟩ := exists_holds_of_mem he
    exact ⟨isSetup_of_mem (Or.inr (h.subscribers.kind i e hi)), h.subscribers.fits i e hi⟩

theorem negotiateTopics_announced (h : Enrolled cfg nh) :
    Announced cfg nh (negotiateTopics cfg nh) := by
  have hentries := announcements_fit h
  obtain ⟨frames, htx, hall⟩ :=
    negotiateTopics_sends h.initialised fun entry hentry => (hentries entry hentry).1
  intro entry hentry
  obtain ⟨frame, hframe, hsent⟩ := exists_of_forall₂ hall hentry
  rw [htx, List.drop_left]
  exact ⟨frame, hframe, hsent.announces (hentries entry hentry).2⟩

/-- The branch of the request is the one that answers. -/
theorem dispatch_answers (hcallbacks : callbacks.Proper) (h : Enrolled cfg nh) (c_time : UInt32)
    (topic : Int) :
    Answers cfg nh (dispatch cfg callbacks c_time topic nh).events
      (dispatch cfg callbacks c_time topic nh).nh := by
  have hemits := dispatch_emits hcallbacks h c_time topic
  refine ⟨hemits, fun hasked => ?_⟩
  have hsync := requestSyncTime_emits h
  have htold := (negotiateTopics_announced hsync.enrolled).after hsync
  unfold dispatch at hasked ⊢
  dsimp only at hasked ⊢
  split
  · exact htold
  · rename_i hpublisher
    rw [if_neg hpublisher] at hasked
    obtain ⟨messageIn, hmem⟩ := hasked
    revert hmem
    repeat' split
    all_goals simp

theorem answers_rule (hcallbacks : callbacks.Proper) :
    SpinRule cfg callbacks (Enrolled cfg) (Answers cfg) where
  keep h := h.emits.enrolled
  trans h h' := h.trans h'
  quiet h hquiet hevents := .quiet (.quiet h hquiet) fun ⟨_, hmem⟩ => hevents _ hmem
  sync h := .silent (requestSyncTime_emits h)
  dispatch c_time topic h := dispatch_answers hcallbacks h c_time topic

/-! ## Runs -/

theorem Call.run_answers (hcallbacks : callbacks.Proper) (h : Enrolled cfg nh) {call : Call}
    (hproper : call.Proper callbacks nh) :
    Answers cfg nh (call.run cfg callbacks nh).2 (call.run cfg callbacks nh).1 := by
  have hemits := Call.run_emits hcallbacks h hproper
  cases call with
  | spinOnce => exact (answers_rule hcallbacks).spinOnce h
  | publish id msg => exact .silent hemits
  | log level text => exact .silent hemits
  | advertise p => exact .silent hemits
  | subscribe s => exact .silent hemits
  | requestSyncTime => exact .silent hemits
  | arrive bytes => exact .silent hemits
  | setNow sec nanosec => exact .silent hemits
  | now => exact .silent hemits
  | setSpinTimeout timeout => exact .silent hemits

end Functions

end Ros2Serial.Device
