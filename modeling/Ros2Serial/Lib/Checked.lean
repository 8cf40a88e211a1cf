import Mathlib.Tactic.Common

/-!
# Signed 32-bit arithmetic that must not overflow

A signed operation of C has a result only where the exact one fits its type.
`checked n` is that result: the `Int32` with the value `n`, or nothing.

`toInt_toInt32` and `toNat_toUInt32` are the conversions to and from `UInt32`,
which keep the value modulo 2^32.
-/

namespace Ros2Serial.Checked

/-- The values of an `Int32`. -/
def Fits (n : Int) : Prop := -2147483648 ≤ n ∧ n ≤ 2147483647

instance (n : Int) : Decidable (Fits n) :=
  inferInstanceAs (Decidable (-2147483648 ≤ n ∧ n ≤ 2147483647))

/-- The result of a signed operation whose exact result is `n`. -/
def checked (n : Int) : Option Int32 := if Fits n then some (Int32.ofInt n) else none

theorem fits_toInt (x : Int32) : Fits x.toInt := by
  have hle := x.le_toInt
  have hlt := x.toInt_lt
  unfold Fits
  omega

/-- A result has the exact value. -/
theorem checked_eq_some_iff {n : Int} {x : Int32} : checked n = some x ↔ x.toInt = n := by
  unfold checked
  constructor
  · intro h
    split at h
    · rename_i hfits
      obtain rfl := Option.some.inj h
      obtain ⟨hle, hlt⟩ := hfits
      exact Int32.toInt_ofInt_of_le (by omega) (by omega)
    · cases h
  · intro h
    subst h
    rw [if_pos (fits_toInt x), Int32.ofInt_toInt]

/-- Where the exact result fits, there is one. -/
theorem exists_checked {n : Int} (h : Fits n) : ∃ x, checked n = some x ∧ x.toInt = n := by
  have hx : checked n = some (Int32.ofInt n) := if_pos h
  exact ⟨_, hx, checked_eq_some_iff.mp hx⟩

theorem checked_eq_none_iff {n : Int} : checked n = none ↔ ¬ Fits n := by
  unfold checked
  split
  · rename_i h
    simp [h]
  · rename_i h
    simp [h]

/-- An `Int32` takes the value of a `UInt32` modulo 2^32. -/
theorem toInt_toInt32 (x : UInt32) : x.toInt32.toInt = (x.toNat : Int).bmod 4294967296 := by
  show x.toInt32.toBitVec.toInt = _
  rw [UInt32.toBitVec_toInt32, BitVec.toInt_eq_toNat_bmod]
  rfl

/-- A `UInt32` takes the value of an `Int32` modulo 2^32. -/
theorem toNat_toUInt32 (x : Int32) : (x.toUInt32.toNat : Int) = x.toInt % 4294967296 := by
  have hx := toInt_toInt32 x.toUInt32
  have hlt := x.toUInt32.toNat_lt
  rw [Int32.toInt32_toUInt32] at hx
  rw [hx, Int.bmod_def]
  split <;> omega

end Ros2Serial.Checked
