import Mathlib.Data.List.Induction
import Mathlib.Tactic.Common

/-!
# Runs under a condition

A machine takes steps that its environment chooses.  `Always P` says that a run
passes through states with `P` only, and `Throughout G` that every step of it
meets the condition `G` in the state that it starts from.

The rules lead from one step to the run.  Where a condition keeps `P`, runs
that meet it throughout stay in `P` (`Always.of_throughout`).  Where it is also
necessary, no other runs do (`always_iff_throughout`).
-/

namespace Ros2Serial.Runs

variable {S A : Type} {step : S → A → S} {P I : S → Prop} {G : S → A → Prop} {s : S}
  {steps : List A}

/-- The state after some steps. -/
def run (step : S → A → S) (s : S) (steps : List A) : S := steps.foldl step s

@[simp] theorem run_nil : run step s [] = s := rfl

@[simp] theorem run_cons (a : A) : run step s (a :: steps) = run step (step s a) steps := rfl

theorem run_append (more : List A) :
    run step s (steps ++ more) = run step (run step s steps) more := List.foldl_append

/-- Every state that the run passes through. -/
def Always (step : S → A → S) (P : S → Prop) (s : S) (steps : List A) : Prop :=
  ∀ done, done <+: steps → P (run step s done)

/-- Every step of the run, with the state before it. -/
def Throughout (step : S → A → S) (G : S → A → Prop) (s : S) (steps : List A) : Prop :=
  ∀ done a, done ++ [a] <+: steps → G (run step s done) a

theorem Always.last (h : Always step P s steps) : P (run step s steps) := h steps List.prefix_rfl

theorem Always.mono {Q : S → Prop} (hmono : ∀ s, P s → Q s) (h : Always step P s steps) :
    Always step Q s steps := fun done hdone => hmono _ (h done hdone)

/-- The first step of a run, and the others. -/
theorem throughout_cons {a : A} :
    Throughout step G s (a :: steps) ↔ G s a ∧ Throughout step G (step s a) steps := by
  constructor
  · intro h
    refine ⟨h [] a ⟨steps, rfl⟩, ?_⟩
    rintro done b ⟨rest, hrest⟩
    refine h (a :: done) b ⟨rest, ?_⟩
    rw [← hrest]
    rfl
  · rintro ⟨hfirst, hmore⟩ done b ⟨rest, hrest⟩
    cases done with
    | nil =>
      obtain ⟨rfl, -⟩ := List.cons.inj hrest
      exact hfirst
    | cons c done =>
      obtain ⟨rfl, htail⟩ := List.cons.inj hrest
      exact hmore done b ⟨rest, htail⟩

theorem throughout_nil : Throughout step G s [] := by
  rintro done a ⟨rest, hrest⟩
  simp at hrest

theorem throughout_append (more : List A) :
    Throughout step G s (steps ++ more) ↔
      Throughout step G s steps ∧ Throughout step G (run step s steps) more := by
  induction steps generalizing s with
  | nil => exact (and_iff_right throughout_nil).symm
  | cons a steps ih =>
    rw [List.cons_append, throughout_cons, throughout_cons, ih, run_cons, and_assoc]

/-- What holds at the start, and is kept by every step that meets the condition,
holds in every state of a run that meets it throughout. -/
theorem Always.of_throughout (hstart : P s) (hstep : ∀ s a, P s → G s a → P (step s a))
    (h : Throughout step G s steps) : Always step P s steps := by
  intro done
  induction done using List.reverseRecOn with
  | nil => exact fun _ => hstart
  | append_singleton done a ih =>
    intro hdone
    rw [run_append]
    exact hstep _ a (ih ((List.prefix_append done [a]).trans hdone)) (h done a hdone)

theorem Throughout.and {Q : S → A → Prop} (h : Throughout step G s steps)
    (h' : Throughout step Q s steps) : Throughout step (fun s a => G s a ∧ Q s a) s steps :=
  fun done a hdone => ⟨h done a hdone, h' done a hdone⟩

/-- What follows for a step from what holds before it, and from the condition that it meets. -/
theorem Throughout.of_always {Q : S → A → Prop} (hP : Always step P s steps)
    (hG : Throughout step G s steps) (h : ∀ s a, P s → G s a → Q s a) :
    Throughout step Q s steps :=
  fun done a hdone =>
    h _ a (hP done ((List.prefix_append done [a]).trans hdone)) (hG done a hdone)

/-- Where a step that meets the condition keeps `P`, a condition may be replaced by one that is
equivalent to it in the states with `P`. -/
theorem throughout_congr {Q : S → A → Prop} (hP : P s) (hiff : ∀ s a, P s → (Q s a ↔ G s a))
    (hkeep : ∀ s a, P s → G s a → P (step s a)) :
    Throughout step Q s steps ↔ Throughout step G s steps := by
  induction steps generalizing s with
  | nil => exact iff_of_true throughout_nil throughout_nil
  | cons a steps ih =>
    rw [throughout_cons, throughout_cons, hiff s a hP]
    exact and_congr_right fun hG => ih (hkeep s a hP hG)

/-- A condition on the steps alone. -/
theorem throughout_iff_forall {G : A → Prop} :
    Throughout step (fun _ a => G a) s steps ↔ ∀ a ∈ steps, G a := by
  induction steps generalizing s with
  | nil => exact iff_of_true throughout_nil (List.forall_mem_nil _)
  | cons a steps ih => rw [throughout_cons, List.forall_mem_cons, ih]

/-- An invariant, which every step keeps. -/
theorem Always.of_step (hstart : P s) (hstep : ∀ s a, P s → P (step s a)) :
    Always step P s steps :=
  Always.of_throughout (G := fun _ _ => True) hstart (fun s a h _ => hstep s a h)
    fun _ _ _ => trivial

/-- Where, under an invariant, a step from a state with `P` leads to one if and only if it
meets the condition, a run stays in `P` if and only if it meets it throughout. -/
theorem always_iff_throughout (hI : I s) (hkeep : ∀ s a, I s → I (step s a)) (hstart : P s)
    (hstep : ∀ s a, I s → P s → (P (step s a) ↔ G s a)) :
    Always step P s steps ↔ Throughout step G s steps := by
  have hinv : Always step I s steps := Always.of_step hI hkeep
  constructor
  · intro h done a hdone
    have hbefore := (List.prefix_append done [a]).trans hdone
    have hafter := h _ hdone
    rw [run_append] at hafter
    exact (hstep _ a (hinv done hbefore) (h done hbefore)).mp hafter
  · intro h
    have hboth : Always step (fun s => I s ∧ P s) s steps :=
      Always.of_throughout ⟨hI, hstart⟩
        (fun s a hs hG => ⟨hkeep s a hs.1, (hstep s a hs.1 hs.2).mpr hG⟩) h
    exact hboth.mono fun _ hs => hs.2

end Ros2Serial.Runs
