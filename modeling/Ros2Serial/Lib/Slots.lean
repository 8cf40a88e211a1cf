import Mathlib.Data.List.Basic
import Mathlib.Data.List.Nodup
import Mathlib.Data.List.Pairwise
import Mathlib.Tactic.Common

/-!
# Tables that are filled from the front

A table is a list of slots, and a new entry goes to the first that is empty.

* `Holds` says that an entry is in a slot, and `holds_set_iff` what a new entry
  changes.
* `NoGaps` is what every table has that was filled this way.
* Where the number of an entry is that of its slot, counted from some base, the
  numbers of a table ascend, within bounds (`numbers_pairwise`, `mem_numbers`).
-/

namespace Ros2Serial.Slots

variable {α : Type} {slots : List (Option α)} {i j : Nat} {a b : α}

/-- The first empty slot. -/
def firstEmpty (slots : List (Option α)) : Option Nat := slots.findIdx? Option.isNone

/-- The entry is in the slot. -/
def Holds (slots : List (Option α)) (i : Nat) (a : α) : Prop := slots[i]? = some (some a)

/-- No slot is empty. -/
def Full (slots : List (Option α)) : Prop := none ∉ slots

/-- Every slot in front of an entry has one. -/
def NoGaps (slots : List (Option α)) : Prop :=
  ∀ i j a, i ≤ j → Holds slots j a → ∃ b, Holds slots i b

instance [DecidableEq α] : Decidable (Full slots) := inferInstanceAs (Decidable (_ ∉ _))

/-! ## The first empty slot -/

theorem firstEmpty_eq_none_iff : firstEmpty slots = none ↔ Full slots := by
  unfold firstEmpty Full
  rw [List.findIdx?_eq_none_iff]
  constructor
  · intro h hmem
    cases h none hmem
  · intro h slot hslot
    cases slot with
    | none => exact absurd hslot h
    | some a => rfl

/-- The slots in front of the first empty one have entries. -/
theorem firstEmpty_spec (h : firstEmpty slots = some i) :
    slots[i]? = some none ∧ ∀ j < i, ∃ a, Holds slots j a := by
  unfold firstEmpty at h
  obtain ⟨hi, hnone, hbefore⟩ := List.findIdx?_eq_some_iff_getElem.mp h
  constructor
  · rw [List.getElem?_eq_getElem hi]
    exact congrArg some (Option.isNone_iff_eq_none.mp hnone)
  · intro j hj
    have hlt : j < slots.length := by omega
    have hsome := hbefore j hj
    rw [Option.isNone_iff_eq_none] at hsome
    obtain ⟨a, ha⟩ := Option.ne_none_iff_exists'.mp hsome
    refine ⟨a, ?_⟩
    show slots[j]? = _
    rw [List.getElem?_eq_getElem hlt, ha]

/-! ## A new entry -/

theorem holds_set_iff (h : slots[i]? = some none) :
    Holds (slots.set i (some a)) j b ↔ Holds slots j b ∨ j = i ∧ b = a := by
  have hi : i < slots.length := (List.getElem?_eq_some_iff.mp h).1
  unfold Holds
  by_cases hj : i = j
  · subst hj
    rw [List.getElem?_set_self hi, h]
    constructor
    · intro hsome
      exact Or.inr ⟨rfl, (Option.some.inj (Option.some.inj hsome)).symm⟩
    · intro hor
      rcases hor with hnone | ⟨_, rfl⟩
      · cases hnone
      · rfl
  · rw [List.getElem?_set_ne hj]
    constructor
    · exact Or.inl
    · intro hor
      rcases hor with hsame | ⟨heq, _⟩
      · exact hsame
      · exact absurd heq.symm hj

theorem NoGaps.set (h : NoGaps slots) (hi : firstEmpty slots = some i) :
    NoGaps (slots.set i (some a)) := by
  obtain ⟨hnone, hbefore⟩ := firstEmpty_spec hi
  intro k l b hkl hl
  have hcases : k < i ∨ k = i ∨ i < k := by omega
  rcases hcases with hlt | heq | hgt
  · obtain ⟨c, hc⟩ := hbefore k hlt
    exact ⟨c, (holds_set_iff hnone).mpr (Or.inl hc)⟩
  · exact ⟨a, (holds_set_iff hnone).mpr (Or.inr ⟨heq, rfl⟩)⟩
  · rcases (holds_set_iff hnone).mp hl with hold | ⟨heq, _⟩
    · -- there would be a gap at the empty slot already
      obtain ⟨c, hc⟩ := h i l b (by omega) hold
      rw [Holds, hnone] at hc
      cases hc
    · omega

/-- A slot has one entry. -/
theorem Holds.unique (h : Holds slots i a) (h' : Holds slots i b) : a = b :=
  Option.some.inj (Option.some.inj (h.symm.trans h'))

theorem noGaps_replicate (n : Nat) : NoGaps (List.replicate n (none : Option α)) := by
  intro i j a _ h
  have hmem := List.mem_of_getElem? h
  rw [List.mem_replicate] at hmem
  cases hmem.2

theorem not_holds_replicate (n : Nat) : ¬ Holds (List.replicate n (none : Option α)) i a := by
  intro h
  have hmem := List.mem_of_getElem? h
  rw [List.mem_replicate] at hmem
  cases hmem.2

/-- Where only the first slot has an entry, every entry is in it. -/
theorem Holds.eq_zero {n : Nat}
    (hslots : slots.map Option.isSome = true :: List.replicate n false) (h : Holds slots i a) :
    i = 0 := by
  have hfull : (slots.map Option.isSome)[i]? = some true := by
    rw [List.getElem?_map, h]
    rfl
  rw [hslots] at hfull
  cases i with
  | zero => rfl
  | succ i => simp [List.getElem?_replicate] at hfull

/-! ## Numbers -/

/-- The numbers of the entries, in the order of the slots. -/
def numbers (number : α → Int) (slots : List (Option α)) : List Int :=
  (slots.filterMap id).map number

/-- The number of an entry is that of its slot, counted from `base`. -/
def Numbers (base : Int) (number : α → Int) (slots : List (Option α)) : Prop :=
  ∀ i a, Holds slots i a → number a = base + i

theorem Numbers.tail {base : Int} {number : α → Int} {slot : Option α}
    (h : Numbers base number (slot :: slots)) : Numbers (base + 1) number slots := by
  intro i a hi
  have hnumber := h (i + 1) a hi
  omega

/-- A new entry gets the number of its slot, and the others keep theirs. -/
theorem Numbers.set {base : Int} {number number' : α → Int} (h : Numbers base number slots)
    (hi : slots[i]? = some none) (hfresh : ∀ j, ¬ Holds slots j a)
    (hnew : number' a = base + i) (hold : ∀ b, b ≠ a → number' b = number b) :
    Numbers base number' (slots.set i (some a)) := by
  intro j b hj
  rcases (holds_set_iff hi).mp hj with hbefore | ⟨rfl, rfl⟩
  · have hne : b ≠ a := by
      intro heq
      exact hfresh j (heq ▸ hbefore)
    rw [hold b hne]
    exact h j b hbefore
  · exact hnew

/-- The numbers lie between the base and the end of the table. -/
theorem mem_numbers {base : Int} {number : α → Int} (h : Numbers base number slots) {n : Int}
    (hn : n ∈ numbers number slots) : base ≤ n ∧ n < base + slots.length := by
  unfold numbers at hn
  obtain ⟨a, ha, rfl⟩ := List.mem_map.mp hn
  obtain ⟨slot, hslot, rfl⟩ := List.mem_filterMap.mp ha
  obtain ⟨i, hi, hget⟩ := List.mem_iff_getElem.mp hslot
  have hholds : Holds slots i a := by
    show slots[i]? = _
    rw [List.getElem?_eq_getElem hi, hget]
  rw [h i a hholds]
  omega

theorem numbers_pairwise {base : Int} {number : α → Int} (h : Numbers base number slots) :
    (numbers number slots).Pairwise (· < ·) := by
  induction slots generalizing base with
  | nil => exact List.Pairwise.nil
  | cons slot rest ih =>
    cases slot with
    | none => exact ih h.tail
    | some a =>
      refine List.Pairwise.cons ?_ (ih h.tail)
      intro n hn
      have hfirst := h 0 a rfl
      have hbounds := mem_numbers h.tail hn
      omega

end Ros2Serial.Slots
