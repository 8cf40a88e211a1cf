import Mathlib.Data.List.Forall2

/-!
# Subsequences up to a relation

`List.SublistForall₂ R xs ys` says that `xs` stands in `ys`, in order, with `R` between the elements.
Where messages may be lost, it says that what arrives was sent.

* What comes later is added on both sides (`append`), or on the right only (`append_right`).
* Two of them compose (`comp`).
* Elements can be left out on the left (`filterMap_left`), and on the right where they stand for
  nothing (`filter_right`).
-/

namespace Ros2Serial.Subsequence

open List

variable {α β γ : Type} {R S : α → β → Prop} {xs xs' : List α} {ys ys' : List β}

theorem append_right (h : SublistForall₂ R xs ys) (more : List β) :
    SublistForall₂ R xs (ys ++ more) := by
  induction h with
  | nil => exact .nil
  | cons hfirst _ ih => exact .cons hfirst ih
  | cons_right _ ih => exact .cons_right ih

theorem append (h : SublistForall₂ R xs ys) (h' : SublistForall₂ R xs' ys') :
    SublistForall₂ R (xs ++ xs') (ys ++ ys') := by
  induction h with
  | @nil ys =>
    induction ys with
    | nil => exact h'
    | cons y ys ih => exact .cons_right ih
  | cons hfirst _ ih => exact .cons hfirst ih
  | cons_right _ ih => exact .cons_right ih

theorem mono (hRS : ∀ a b, R a b → S a b) (h : SublistForall₂ R xs ys) :
    SublistForall₂ S xs ys := by
  induction h with
  | nil => exact .nil
  | cons hfirst _ ih => exact .cons (hRS _ _ hfirst) ih
  | cons_right _ ih => exact .cons_right ih

theorem of_forall₂ (h : Forall₂ R xs ys) : SublistForall₂ R xs ys :=
  sublistForall₂_iff.mpr ⟨ys, h, Sublist.refl ys⟩

theorem comp {T : β → γ → Prop} {zs : List γ} (h : SublistForall₂ R xs ys)
    (h' : SublistForall₂ T ys zs) : SublistForall₂ (fun a c => ∃ b, R a b ∧ T b c) xs zs := by
  induction h' generalizing xs with
  | nil =>
    cases h
    exact .nil
  | cons hfirst _ ih =>
    cases h with
    | nil => exact .nil
    | cons hx hmore => exact .cons ⟨_, hx, hfirst⟩ (ih hmore)
    | cons_right hmore => exact .cons_right (ih hmore)
  | cons_right _ ih => exact .cons_right (ih h)

/-- What is left out on the left makes no difference. -/
theorem filterMap_left {f : α → Option γ} {T : γ → β → Prop}
    (hf : ∀ a b c, R a b → f a = some c → T c b) (h : SublistForall₂ R xs ys) :
    SublistForall₂ T (xs.filterMap f) ys := by
  induction h with
  | nil => exact .nil
  | @cons a b xs ys hfirst _ ih =>
    cases hc : f a with
    | none =>
      rw [filterMap_cons_none hc]
      exact .cons_right ih
    | some c =>
      rw [filterMap_cons_some hc]
      exact .cons (hf a b c hfirst hc) ih
  | cons_right _ ih => exact .cons_right ih

/-- Nor does what stands for nothing on the right. -/
theorem filter_right {q : β → Bool} (hq : ∀ a b, R a b → q b = true)
    (h : SublistForall₂ R xs ys) : SublistForall₂ R xs (ys.filter q) := by
  induction h with
  | nil => exact .nil
  | @cons a b xs ys hfirst _ ih =>
    rw [filter_cons_of_pos (hq a b hfirst)]
    exact .cons hfirst ih
  | @cons_right b xs ys _ ih =>
    by_cases hb : q b = true
    · rw [filter_cons_of_pos hb]
      exact .cons_right ih
    · rw [filter_cons_of_neg hb]
      exact ih

end Ros2Serial.Subsequence
