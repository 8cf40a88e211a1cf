import Ros2Serial.Host.SimpleCdr

/-!
# What `write_buffer` puts on the socket

`write_buffer` starts an `async_write` for each frame, and does not wait for the
one before.  An `async_write` issues an `async_write_some` with its whole
buffer, and another one with the rest for as long as only a part was
transferred.  The socket serves them in the order in which they were issued,
so that the rest of a frame stands behind every frame whose write was started
in the meantime.

`exec_whole` says when the frames stay whole: a transfer in part happens only
while no other frame is outstanding, and no write starts before the rest is
issued again.  `cutFrame_not_whole` is a run in which they do not.
-/

namespace Ros2Serial.Host

/-! ## The writes of a socket -/

structure Output where
  /-- The frames, in the order in which `write_buffer` was called. -/
  frames : List (List UInt8)
  /-- The bytes on the socket. -/
  stream : List UInt8
  /-- The `async_write_some`s that are not served yet, with their buffers. -/
  issued : List (List UInt8)
  /-- The rests of the writes that were served in part, before they are issued
  again. -/
  continuing : List (List UInt8)
  deriving DecidableEq, Repr

/-- A new socket. -/
def Output.start : Output where
  frames := []
  stream := []
  issued := []
  continuing := []

/-- A call of `write_message`, whose frame reaches `write_buffer`; the service of
the first `async_write_some`; and the handler of one that was served in part. -/
inductive WriteStep
  | write (message : List UInt8) (topic_id : Nat)
  | transfer (n : Nat)
  | reissue
  deriving DecidableEq, Repr

/-- `write_buffer`. -/
def Output.writeBuffer (frame : List UInt8) (o : Output) : Output :=
  { o with frames := o.frames ++ [frame], issued := o.issued ++ [frame] }

/-- A step, where it is possible.  A write that has transferred everything calls
`write_completion_cb`, which does nothing. -/
def Output.step (o : Output) : WriteStep → Option Output
  | .write message topic_id => do
    let frame ← messageBuffer message topic_id
    some (o.writeBuffer frame)
  | .transfer n =>
    match o.issued with
    | [] => none
    | buffer :: more =>
      if 1 ≤ n ∧ n ≤ buffer.length then
        let rest := if n = buffer.length then [] else [buffer.drop n]
        some { o with
          stream := o.stream ++ buffer.take n, issued := more
          continuing := o.continuing ++ rest }
      else none
  | .reissue =>
    match o.continuing with
    | [] => none
    | rest :: more => some { o with issued := o.issued ++ [rest], continuing := more }

/-- A run. -/
def Output.exec (o : Output) (steps : List WriteStep) : Option Output :=
  steps.foldlM Output.step o

/-- The stream is a concatenation of whole frames, in order, of which the last
bytes may be missing while writing is in progress. -/
structure Output.Whole (o : Output) : Prop where
  inOrder : o.stream <+: o.frames.flatten
  complete : o.issued = [] → o.continuing = [] → o.stream = o.frames.flatten

/-! ## Orderly runs -/

/-- The step leaves no rest behind while another frame is outstanding, and starts
no frame while a rest waits to be issued. -/
def Output.Orderly (o : Output) : WriteStep → Prop
  | .write _ _ => o.continuing = []
  | .transfer n =>
    (∀ buffer ∈ o.issued.head?, n = buffer.length) ∨ o.issued.length ≤ 1 ∧ o.continuing = []
  | .reissue => True

instance (o : Output) : (st : WriteStep) → Decidable (o.Orderly st)
  | .write _ _ => inferInstanceAs (Decidable (_ = _))
  | .transfer _ => inferInstanceAs (Decidable (_ ∨ _ ∧ _))
  | .reissue => isTrue trivial

/-- All steps of the run are orderly. -/
def Output.OrderlyRun : Output → List WriteStep → Prop
  | _, [] => True
  | o, st :: steps => o.Orderly st ∧ ∀ o' ∈ o.step st, o'.OrderlyRun steps

instance Output.decidableOrderlyRun :
    (o : Output) → (steps : List WriteStep) → Decidable (o.OrderlyRun steps)
  | _, [] => isTrue trivial
  | o, st :: steps =>
    have := fun o' => Output.decidableOrderlyRun o' steps
    inferInstanceAs (Decidable (o.Orderly st ∧ ∀ o' ∈ o.step st, o'.OrderlyRun steps))

/-- What is outstanding is what the stream lacks, in the order in which it will be
written. -/
structure Output.Ordered (o : Output) : Prop where
  lacks : o.stream ++ o.issued.flatten ++ o.continuing.flatten = o.frames.flatten
  alone : o.continuing = [] ∨ o.issued = [] ∧ o.continuing.length = 1

theorem Output.Ordered.whole {o : Output} (h : o.Ordered) : o.Whole where
  inOrder := ⟨o.issued.flatten ++ o.continuing.flatten, by rw [← List.append_assoc, h.lacks]⟩
  complete hissued hcontinuing := by
    rw [← h.lacks, hissued, hcontinuing]
    simp

/-- An orderly step keeps the order. -/
theorem Output.Ordered.step {o o' : Output} {st : WriteStep} (h : o.Ordered)
    (horderly : o.Orderly st) (hstep : o.step st = some o') : o'.Ordered := by
  obtain ⟨hlacks, halone⟩ := h
  cases st with
  | write message topic_id =>
    obtain ⟨frame, -, hframe⟩ := Option.bind_eq_some_iff.mp hstep
    obtain rfl := Option.some.inj hframe
    have hcontinuing : o.continuing = [] := horderly
    rw [hcontinuing, List.flatten_nil, List.append_nil] at hlacks
    refine ⟨?_, Or.inl hcontinuing⟩
    simp [writeBuffer, hcontinuing, ← hlacks]
  | transfer n =>
    simp only [Output.step] at hstep
    split at hstep
    · cases hstep
    · rename_i buffer more hissued
      -- a rest that waits would leave nothing to transfer
      have hcontinuing : o.continuing = [] := halone.resolve_right fun h => by
        rw [hissued] at h
        exact absurd h.1 (List.cons_ne_nil _ _)
      rw [hissued, hcontinuing, List.flatten_cons, List.flatten_nil, List.append_nil] at hlacks
      split at hstep
      · obtain rfl := Option.some.inj hstep
        by_cases hall : n = buffer.length
        · refine ⟨?_, Or.inl (by simp [hcontinuing, hall])⟩
          simp [hcontinuing, hall, ← hlacks]
        · have hmore : more = [] := by
            rcases horderly with hwhole | ⟨hlength, -⟩
            · exact absurd (hwhole buffer (by rw [hissued]; rfl)) hall
            · rw [hissued] at hlength
              exact List.length_eq_zero_iff.mp (by simpa using hlength)
          refine ⟨?_, Or.inr ⟨hmore, by simp [hcontinuing, hall]⟩⟩
          simp [hcontinuing, hall, hmore, ← hlacks]
      · cases hstep
  | reissue =>
    simp only [Output.step] at hstep
    split at hstep
    · cases hstep
    · rename_i rest more hcontinuing
      obtain rfl := Option.some.inj hstep
      obtain ⟨hissued, hlength⟩ := halone.resolve_left (by rw [hcontinuing]; simp)
      obtain rfl : more = [] := by
        rw [hcontinuing] at hlength
        exact List.length_eq_zero_iff.mp (by simpa using hlength)
      refine ⟨?_, Or.inl rfl⟩
      simp [hissued, ← hlacks, hcontinuing]

theorem Output.exec_cons {o o' : Output} {st : WriteStep} {steps : List WriteStep}
    (h : o.exec (st :: steps) = some o') : ∃ m, o.step st = some m ∧ m.exec steps = some o' := by
  rw [Output.exec, List.foldlM_cons] at h
  exact Option.bind_eq_some_iff.mp h

theorem Output.Ordered.exec {o o' : Output} {steps later : List WriteStep} (h : o.Ordered)
    (horderly : o.OrderlyRun (steps ++ later)) (hexec : o.exec steps = some o') :
    o'.Ordered := by
  induction steps generalizing o with
  | nil =>
    obtain rfl : o = o' := Option.some.inj hexec
    exact h
  | cons st steps ih =>
    obtain ⟨m, hstep, hexec⟩ := Output.exec_cons hexec
    exact ih (h.step horderly.1 hstep) (horderly.2 m hstep) hexec

/-- In every state of a run whose steps are orderly, the frames are whole. -/
theorem exec_whole {steps later : List WriteStep} {o : Output}
    (horderly : Output.start.OrderlyRun (steps ++ later))
    (hexec : Output.start.exec steps = some o) : o.Whole := by
  have hstart : Output.start.Ordered := ⟨rfl, Or.inl rfl⟩
  exact (hstart.exec horderly hexec).whole

/-- A frame that is written in two parts, and another one after the rest of the
first was issued again. -/
theorem twoParts_whole :
    ∃ o, Output.start.exec [.write [] 0, .transfer 3, .reissue, .write [0] 11, .transfer 5,
        .transfer 9] = some o ∧
      o.stream = Wire.encode 0 [] ++ Wire.encode 11 [0] ∧ o.Whole := by
  let steps : List WriteStep := [.write [] 0, .transfer 3, .reissue, .write [0] 11, .transfer 5,
    .transfer 9]
  have horderly : Output.start.OrderlyRun (steps ++ []) := by decide
  have hview : (Output.start.exec steps).map Output.stream =
      some (Wire.encode 0 [] ++ Wire.encode 11 [0]) := by decide
  obtain ⟨o, hexec, hstream⟩ := Option.map_eq_some_iff.mp hview
  exact ⟨o, hexec, hstream, exec_whole horderly hexec⟩

/-- Three bytes of a frame are transferred, then another frame, whose write was
started before the rest was issued again. -/
theorem cutFrame_not_whole :
    ¬ ∀ steps o, Output.start.exec steps = some o → o.Whole := by
  intro hwhole
  have hcut : (Output.start.exec [.write [] 0, .write [0] 11, .transfer 3, .transfer 9]).map
      (fun o => (o.frames, o.stream)) =
    some ([Wire.encode 0 [], Wire.encode 11 [0]],
      (Wire.encode 0 []).take 3 ++ Wire.encode 11 [0]) := by decide
  obtain ⟨o, hexec, hview⟩ := Option.map_eq_some_iff.mp hcut
  have hpre := (hwhole _ o hexec).inOrder
  simp only [Prod.mk.injEq] at hview
  rw [hview.1, hview.2] at hpre
  exact absurd hpre (by decide)

end Ros2Serial.Host
