import Mathlib.Data.List.Induction
import Mathlib.Tactic.Common

/-!
# Machines that read a stream

A `Transducer` takes one symbol after the other, and gives some output with each
of them.  `final` is the state after a stream, and `output` is all that was
given.

There are two rules about whole streams.  What relates the state to the symbols
read and to the output given so far, and is kept by a step, holds after every
stream (`history`).  Two machines whose states stay related, and whose output from
related states is the same up to a renaming, have the same output on every stream,
up to that renaming (`Simulates.output`).
-/

namespace Ros2Serial

/-- A step from a state, with the output that it gives. -/
structure Transducer (σ α ω : Type) where
  step : σ → α → σ × List ω

namespace Transducer

variable {σ τ α ω : Type} (T : Transducer σ α ω)

/-- The state after some symbols, and the output on the way. -/
def run : σ → List α → σ × List ω
  | s, [] => (s, [])
  | s, a :: as =>
    let (s, first) := T.step s a
    let (s, more) := run s as
    (s, first ++ more)

/-- The state after some symbols. -/
def final (s : σ) (as : List α) : σ := (T.run s as).1

/-- The output on some symbols. -/
def output (s : σ) (as : List α) : List ω := (T.run s as).2

@[simp] theorem final_nil (s : σ) : T.final s [] = s := rfl

@[simp] theorem output_nil (s : σ) : T.output s [] = [] := rfl

theorem final_cons (s : σ) (a : α) (as : List α) :
    T.final s (a :: as) = T.final (T.step s a).1 as := rfl

theorem output_cons (s : σ) (a : α) (as : List α) :
    T.output s (a :: as) = (T.step s a).2 ++ T.output (T.step s a).1 as := rfl

theorem final_append (s : σ) (as bs : List α) :
    T.final s (as ++ bs) = T.final (T.final s as) bs := by
  induction as generalizing s with
  | nil => rfl
  | cons a as ih => rw [List.cons_append, final_cons, final_cons, ih]

theorem output_append (s : σ) (as bs : List α) :
    T.output s (as ++ bs) = T.output s as ++ T.output (T.final s as) bs := by
  induction as generalizing s with
  | nil => rfl
  | cons a as ih =>
    rw [List.cons_append, output_cons, output_cons, final_cons, ih, List.append_assoc]

/-- What relates state, symbols and output, and is kept by every step, holds after every
stream. -/
theorem history {I : σ → List α → List ω → Prop} {s : σ} (hstart : I s [] [])
    (hstep : ∀ s as out a, I s as out → I (T.step s a).1 (as ++ [a]) (out ++ (T.step s a).2))
    (as : List α) : I (T.final s as) as (T.output s as) := by
  induction as using List.reverseRecOn with
  | nil => exact hstart
  | append_singleton as a ih =>
    have hnext := hstep _ _ _ a ih
    rw [final_append, output_append, final_cons, final_nil, output_cons, output_nil,
      List.append_nil]
    exact hnext

/-- Related states stay related, and the first machine gives the output of the second, seen
through `f`. -/
def Simulates {ψ : Type} (T : Transducer σ α ω) (U : Transducer τ α ψ) (R : σ → τ → Prop)
    (f : ψ → ω) : Prop :=
  ∀ s t a, R s t → R (T.step s a).1 (U.step t a).1 ∧ (T.step s a).2 = (U.step t a).2.map f

section Simulates

variable {ψ : Type} {T : Transducer σ α ω} {U : Transducer τ α ψ} {R : σ → τ → Prop} {f : ψ → ω}

theorem Simulates.final (h : Simulates T U R f) {s : σ} {t : τ} (hst : R s t) (as : List α) :
    R (T.final s as) (U.final t as) := by
  induction as generalizing s t with
  | nil => exact hst
  | cons a as ih => exact ih (h s t a hst).1

theorem Simulates.output (h : Simulates T U R f) {s : σ} {t : τ} (hst : R s t) (as : List α) :
    T.output s as = (U.output t as).map f := by
  induction as generalizing s t with
  | nil => rfl
  | cons a as ih =>
    obtain ⟨hnext, hout⟩ := h s t a hst
    rw [output_cons, output_cons, hout, ih hnext, List.map_append]

end Simulates

end Transducer

end Ros2Serial
