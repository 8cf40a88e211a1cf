import Mathlib.Algebra.Order.Floor.Semiring
import Mathlib.Algebra.Order.Round
import Mathlib.Data.Int.Log
import Mathlib.Data.Rat.Floor
import Mathlib.Tactic.Linarith
import Mathlib.Tactic.Positivity
import Mathlib.Tactic.Ring

/-!
# Binary interchange formats of floating-point numbers

A format has a width for its exponent field and one for its fraction field.  A
bit pattern is a sign, an exponent and a fraction, and stands for a `Datum`: a
rational number, an infinity, or no number.

Everything is said through `units`, the magnitude of a pattern as a multiple of
the smallest positive number of its format (`quantum`).  It is a natural number,
so that two patterns of one format or of two are compared without fractions:

* `units_strictMono` and `decode_le_iff`: numbers are in the order of their
  patterns, read as sign and magnitude;
* `units_add` and `units_of_subnormal`: the units of given fields;
* `two_zpow_le_abs_iff` and `ulp_eq`: the binade of a number, and the distance of
  its neighbours there;
* `decode_eq_decode` and `abs_sub_lt`: numbers of two formats that are equal, or
  close.
-/

namespace Ros2Serial.Interchange

structure Format where
  exponentBits : Nat
  fractionBits : Nat
  exponentBits_pos : 0 < exponentBits
  deriving DecidableEq, Repr

def binary32 : Format := ⟨8, 23, Nat.succ_pos 7⟩

def binary64 : Format := ⟨11, 52, Nat.succ_pos 10⟩

/-- What a pattern stands for. -/
inductive Datum
  | finite (q : ℚ)
  | infinity (negative : Bool)
  | nan
  deriving DecidableEq, Repr

/-- The order of numbers and infinities.  Nothing compares with `nan`. -/
def Datum.le : Datum → Datum → Prop
  | finite q, finite r => q ≤ r
  | finite _, infinity negative => negative = false
  | infinity negative, finite _ => negative = true
  | infinity negative, infinity negative' => negative' = true → negative = true
  | nan, _ => False
  | _, nan => False

instance : LE Datum := ⟨Datum.le⟩

/-- The comparison with zero, which is false for `nan`. -/
def Datum.lessThanZero : Datum → Bool
  | finite q => q < 0
  | infinity negative => negative
  | nan => false

namespace Format

variable (F : Format)

/-! ## Fields -/

/-- The number of the exponent field that stands for infinities and `nan`. -/
def special : Nat := 2 ^ F.exponentBits - 1

def bias : Nat := 2 ^ (F.exponentBits - 1) - 1

/-- A pattern without its sign. -/
def magnitude (p : Nat) : Nat := p % 2 ^ (F.fractionBits + F.exponentBits)

def negative (p : Nat) : Bool := p / 2 ^ (F.fractionBits + F.exponentBits) % 2 = 1

def exponent (p : Nat) : Nat := F.magnitude p / 2 ^ F.fractionBits

def fraction (p : Nat) : Nat := F.magnitude p % 2 ^ F.fractionBits

/-- The pattern with the given fields. -/
def pack (negative : Bool) (exponent fraction : Nat) : Nat :=
  negative.toNat * 2 ^ (F.fractionBits + F.exponentBits) +
    (exponent * 2 ^ F.fractionBits + fraction)

/-! ## Values -/

/-- The smallest positive number. -/
def quantum : ℚ := 2 ^ (1 - (F.bias : ℤ) - F.fractionBits)

/-- A number without its sign, as a multiple of the smallest. -/
def units (m : Nat) : Nat :=
  if m / 2 ^ F.fractionBits = 0 then m
  else (2 ^ F.fractionBits + m % 2 ^ F.fractionBits) * 2 ^ (m / 2 ^ F.fractionBits - 1)

/-- A number with its sign, as a multiple of the smallest. -/
def signedUnits (p : Nat) : ℤ :=
  if F.negative p then -(F.units (F.magnitude p) : ℤ) else F.units (F.magnitude p)

def decode (p : Nat) : Datum :=
  if F.exponent p = F.special then
    if F.fraction p = 0 then .infinity (F.negative p) else .nan
  else
    .finite (F.signedUnits p * F.quantum)

/-- The distance from a number to the next one in the format, at the magnitude of `q`. -/
def ulp (q : ℚ) : ℚ :=
  if |q| < 2 ^ (1 - (F.bias : ℤ)) then F.quantum else 2 ^ (Int.log 2 |q| - F.fractionBits)

theorem quantum_pos : 0 < F.quantum := by
  exact zpow_pos (by norm_num) _

end Format

/-! ## The units of a magnitude -/

section Units

variable {F : Format}

theorem units_of_subnormal {m : Nat} (h : m < 2 ^ F.fractionBits) : F.units m = m := by
  rw [Format.units, if_pos (Nat.div_eq_of_lt h)]

theorem units_add {e f : Nat} (hf : f < 2 ^ F.fractionBits) :
    F.units ((e + 1) * 2 ^ F.fractionBits + f) = (2 ^ F.fractionBits + f) * 2 ^ e := by
  have hdiv : ((e + 1) * 2 ^ F.fractionBits + f) / 2 ^ F.fractionBits = e + 1 := by
    rw [Nat.mul_comm, Nat.mul_add_div (Nat.two_pow_pos _), Nat.div_eq_of_lt hf, Nat.add_zero]
  have hmod : ((e + 1) * 2 ^ F.fractionBits + f) % 2 ^ F.fractionBits = f := by
    rw [Nat.mul_comm, Nat.mul_add_mod, Nat.mod_eq_of_lt hf]
  rw [Format.units, hdiv, hmod, if_neg (Nat.succ_ne_zero e), Nat.add_sub_cancel]

/-- The next magnitude has more units. -/
theorem units_lt_succ (m : Nat) : F.units m < F.units (m + 1) := by
  have hpos := Nat.two_pow_pos F.fractionBits
  have hsplit := Nat.div_add_mod m (2 ^ F.fractionBits)
  have hf := Nat.mod_lt m hpos
  rw [Nat.mul_comm] at hsplit
  generalize m % 2 ^ F.fractionBits = f at hsplit hf
  cases hexp : m / 2 ^ F.fractionBits with
  | zero =>
    rw [hexp, Nat.zero_mul, Nat.zero_add] at hsplit
    subst hsplit
    rw [units_of_subnormal hf]
    rcases Nat.lt_or_ge (f + 1) (2 ^ F.fractionBits) with hlt | hge
    · rw [units_of_subnormal hlt]
      exact Nat.lt_succ_self f
    · have heq : f + 1 = (0 + 1) * 2 ^ F.fractionBits + 0 := by omega
      rw [heq, units_add hpos]
      omega
  | succ e =>
    rw [hexp] at hsplit
    rw [← hsplit, units_add hf]
    rcases Nat.lt_or_ge (f + 1) (2 ^ F.fractionBits) with hlt | hge
    · rw [Nat.add_assoc, units_add hlt]
      exact Nat.mul_lt_mul_of_pos_right (by omega) (Nat.two_pow_pos e)
    · have heq : (e + 1) * 2 ^ F.fractionBits + f + 1 = (e + 1 + 1) * 2 ^ F.fractionBits + 0 := by
        rw [Nat.add_mul (e + 1) 1]
        omega
      rw [heq, units_add hpos, Nat.pow_succ, Nat.add_zero, Nat.mul_comm (2 ^ e) 2,
        ← Nat.mul_assoc]
      exact Nat.mul_lt_mul_of_pos_right (by omega) (Nat.two_pow_pos e)

theorem units_strictMono : StrictMono F.units := strictMono_nat_of_lt_succ units_lt_succ

@[simp] theorem units_zero : F.units 0 = 0 := units_of_subnormal (Nat.two_pow_pos _)

end Units

/-! ## Fields and patterns -/

section Fields

variable {F : Format}

theorem special_pos : 0 < F.special := by
  have hpow := Nat.one_lt_two_pow (Nat.pos_iff_ne_zero.mp F.exponentBits_pos)
  unfold Format.special
  omega

theorem magnitude_lt (p : Nat) : F.magnitude p < (F.special + 1) * 2 ^ F.fractionBits := by
  have hspecial : F.special + 1 = 2 ^ F.exponentBits := by
    have hpow := Nat.two_pow_pos F.exponentBits
    unfold Format.special
    omega
  rw [hspecial, ← Nat.pow_add, Nat.add_comm F.exponentBits]
  exact Nat.mod_lt _ (Nat.two_pow_pos _)

theorem exponent_mul_add_fraction (p : Nat) :
    F.exponent p * 2 ^ F.fractionBits + F.fraction p = F.magnitude p := by
  rw [Nat.mul_comm]
  exact Nat.div_add_mod (F.magnitude p) (2 ^ F.fractionBits)

theorem fraction_lt (p : Nat) : F.fraction p < 2 ^ F.fractionBits :=
  Nat.mod_lt _ (Nat.two_pow_pos _)

theorem exponent_le (p : Nat) : F.exponent p ≤ F.special :=
  Nat.le_of_lt_succ ((Nat.div_lt_iff_lt_mul (Nat.two_pow_pos _)).mpr (magnitude_lt p))

/-- The units of a number that is not subnormal. -/
theorem units_of_exponent {p e : Nat} (h : F.exponent p = e + 1) :
    F.units (F.magnitude p) = (2 ^ F.fractionBits + F.fraction p) * 2 ^ e := by
  rw [← exponent_mul_add_fraction, h]
  exact units_add (fraction_lt p)

/-- Fields of a finite number. -/
theorem lt_special {e f : Nat} (he : e < F.special) (hf : f < 2 ^ F.fractionBits) :
    e * 2 ^ F.fractionBits + f < F.special * 2 ^ F.fractionBits := by
  have hmul : (e + 1) * 2 ^ F.fractionBits ≤ F.special * 2 ^ F.fractionBits :=
    Nat.mul_le_mul_right _ he
  rw [Nat.add_mul, Nat.one_mul] at hmul
  omega

/-- A number below a binade. -/
theorem units_lt_two_pow {p e : Nat} (h : F.exponent p ≤ e) :
    F.units (F.magnitude p) < 2 ^ (F.fractionBits + e) := by
  have hlt : F.magnitude p < (e + 1) * 2 ^ F.fractionBits + 0 :=
    (Nat.div_lt_iff_lt_mul (Nat.two_pow_pos _)).mp (Nat.lt_succ_of_le h)
  have hunits := units_strictMono (F := F) hlt
  rwa [units_add (Nat.two_pow_pos _), Nat.add_zero, ← Nat.pow_add] at hunits

theorem units_pos_of_fraction {p : Nat} (h : F.fraction p ≠ 0) :
    0 < F.units (F.magnitude p) := by
  have hpos : 0 < F.magnitude p := by
    rw [← exponent_mul_add_fraction]
    omega
  have hunits := units_strictMono (F := F) hpos
  rwa [units_zero] at hunits

section Pack

variable {negative : Bool} {e f : Nat} (he : e < 2 ^ F.exponentBits)
  (hf : f < 2 ^ F.fractionBits)

include he hf

theorem pack_lt : e * 2 ^ F.fractionBits + f < 2 ^ (F.fractionBits + F.exponentBits) := by
  have hmul : (e + 1) * 2 ^ F.fractionBits ≤ 2 ^ F.exponentBits * 2 ^ F.fractionBits :=
    Nat.mul_le_mul_right _ he
  rw [← Nat.pow_add, Nat.add_comm F.exponentBits] at hmul
  rw [Nat.add_mul] at hmul
  omega

theorem magnitude_pack : F.magnitude (F.pack negative e f) = e * 2 ^ F.fractionBits + f := by
  rw [Format.magnitude, Format.pack, Nat.mul_comm, Nat.mul_add_mod,
    Nat.mod_eq_of_lt (pack_lt he hf)]

theorem negative_pack : F.negative (F.pack negative e f) = negative := by
  have hdiv : F.pack negative e f / 2 ^ (F.fractionBits + F.exponentBits) = negative.toNat := by
    rw [Format.pack, Nat.mul_comm, Nat.mul_add_div (Nat.two_pow_pos _),
      Nat.div_eq_of_lt (pack_lt he hf), Nat.add_zero]
  rw [Format.negative, hdiv]
  cases negative <;> rfl

theorem exponent_pack : F.exponent (F.pack negative e f) = e := by
  rw [Format.exponent, magnitude_pack he hf, Nat.mul_comm, Nat.mul_add_div (Nat.two_pow_pos _),
    Nat.div_eq_of_lt hf, Nat.add_zero]

theorem fraction_pack : F.fraction (F.pack negative e f) = f := by
  rw [Format.fraction, magnitude_pack he hf, Nat.mul_comm, Nat.mul_add_mod, Nat.mod_eq_of_lt hf]

end Pack

end Fields

/-! ## The order -/

section Order

variable {F : Format} {p p' : Nat}

theorem natAbs_signedUnits (p : Nat) : (F.signedUnits p).natAbs = F.units (F.magnitude p) := by
  rw [Format.signedUnits]
  split
  · rw [Int.natAbs_neg, Int.natAbs_natCast]
  · exact Int.natAbs_natCast _

/-- The three kinds of patterns, by magnitude. -/
theorem decode_cases (p : Nat) :
    (F.magnitude p < F.special * 2 ^ F.fractionBits ∧
        F.decode p = .finite (F.signedUnits p * F.quantum)) ∨
      (F.magnitude p = F.special * 2 ^ F.fractionBits ∧
        F.decode p = .infinity (F.negative p)) ∨
      (F.special * 2 ^ F.fractionBits < F.magnitude p ∧ F.decode p = .nan) := by
  have hsplit := exponent_mul_add_fraction (F := F) p
  rw [Format.decode]
  split
  next hspecial =>
    rw [hspecial] at hsplit
    split
    next hzero => exact Or.inr (Or.inl ⟨by omega, rfl⟩)
    next hzero => exact Or.inr (Or.inr ⟨by omega, rfl⟩)
  next hspecial =>
    refine Or.inl ⟨?_, rfl⟩
    have hlt : F.exponent p < F.special := Nat.lt_of_le_of_ne (exponent_le p) hspecial
    exact (Nat.div_lt_iff_lt_mul (Nat.two_pow_pos _)).mp hlt

/-- Numbers and infinities are in the order of their patterns. -/
theorem decode_le_iff (hp : F.decode p ≠ .nan) (hp' : F.decode p' ≠ .nan) :
    F.decode p ≤ F.decode p' ↔ F.signedUnits p ≤ F.signedUnits p' := by
  have hmax : 0 < F.units (F.special * 2 ^ F.fractionBits) := by
    rw [← units_zero (F := F)]
    exact units_strictMono (Nat.mul_pos special_pos (Nat.two_pow_pos _))
  rcases decode_cases (F := F) p with ⟨hm, h⟩ | ⟨hm, h⟩ | ⟨-, h⟩
  · rcases decode_cases (F := F) p' with ⟨-, h'⟩ | ⟨hm', h'⟩ | ⟨-, h'⟩
    · rw [h, h']
      show (F.signedUnits p * F.quantum : ℚ) ≤ F.signedUnits p' * F.quantum ↔ _
      rw [mul_le_mul_iff_left₀ F.quantum_pos, Int.cast_le]
    · rw [h, h']
      show F.negative p' = false ↔ _
      have hlt := units_strictMono (F := F) hm
      rw [← hm'] at hlt
      unfold Format.signedUnits
      cases F.negative p <;> cases F.negative p' <;> simp <;> omega
    · exact absurd h' hp'
  · rcases decode_cases (F := F) p' with ⟨hm', h'⟩ | ⟨hm', h'⟩ | ⟨-, h'⟩
    · rw [h, h']
      show F.negative p = true ↔ _
      have hlt := units_strictMono (F := F) hm'
      rw [← hm] at hlt
      unfold Format.signedUnits
      cases F.negative p <;> cases F.negative p' <;> simp <;> omega
    · rw [h, h']
      show (F.negative p' = true → F.negative p = true) ↔ _
      unfold Format.signedUnits
      rw [hm, hm']
      cases F.negative p <;> cases F.negative p' <;> simp
      omega
    · exact absurd h' hp'
  · exact absurd h hp

theorem signedUnits_neg_iff (p : Nat) :
    F.signedUnits p < 0 ↔ F.negative p = true ∧ F.units (F.magnitude p) ≠ 0 := by
  unfold Format.signedUnits
  split
  next hneg => simp [hneg, Nat.pos_iff_ne_zero]
  next hneg => simp [hneg]

/-- A number is below zero if its sign says so and it has units. -/
theorem lessThanZero_decode_iff (h : F.magnitude p < F.special * 2 ^ F.fractionBits) :
    (F.decode p).lessThanZero = true ↔
      F.negative p = true ∧ F.units (F.magnitude p) ≠ 0 := by
  rcases decode_cases (F := F) p with ⟨-, hdecode⟩ | ⟨hm, -⟩ | ⟨hm, -⟩
  · have hpos := F.quantum_pos
    have hnonneg := not_lt.mpr hpos.le
    rw [hdecode, ← signedUnits_neg_iff, Datum.lessThanZero, decide_eq_true_iff, mul_neg_iff,
      Int.cast_lt_zero]
    tauto
  · omega
  · omega

/-- Numbers of two formats with the same magnitude and the same sign are equal, and so are
zeros of either sign. -/
theorem decode_eq_decode {G : Format} {k : Nat}
    (hfinite : F.magnitude p < F.special * 2 ^ F.fractionBits)
    (hfinite' : G.magnitude p' < G.special * 2 ^ G.fractionBits)
    (hquantum : F.quantum = 2 ^ k * G.quantum)
    (hunits : G.units (G.magnitude p') = F.units (F.magnitude p) * 2 ^ k)
    (hsign : F.units (F.magnitude p) ≠ 0 → G.negative p' = F.negative p) :
    G.decode p' = F.decode p := by
  have hsigned : G.signedUnits p' = F.signedUnits p * 2 ^ k := by
    unfold Format.signedUnits
    by_cases hzero : F.units (F.magnitude p) = 0
    · rw [hunits, hzero]
      simp
    · rw [hsign hzero, hunits]
      cases F.negative p <;> simp
  rcases decode_cases (F := F) p with ⟨-, h⟩ | ⟨hm, -⟩ | ⟨hm, -⟩
  · rcases decode_cases (F := G) p' with ⟨-, h'⟩ | ⟨hm', -⟩ | ⟨hm', -⟩
    · rw [h, h', hsigned, hquantum]
      push_cast
      ring_nf
    · omega
    · omega
  · omega
  · omega

/-- A pattern with the sign of the comparison with zero stands for the same. -/
theorem decode_pack_lessThanZero (p : Nat) :
    F.decode (F.pack (F.decode p).lessThanZero (F.exponent p) (F.fraction p)) = F.decode p := by
  have hexp : F.exponent p < 2 ^ F.exponentBits := by
    have hle := exponent_le (F := F) p
    have hpos := Nat.two_pow_pos F.exponentBits
    unfold Format.special at hle
    omega
  have hfraction := fraction_lt (F := F) p
  by_cases hspecial : F.exponent p = F.special
  · have hdecode : F.decode p = if F.fraction p = 0 then .infinity (F.negative p) else .nan := by
      rw [Format.decode, if_pos hspecial]
    rw [Format.decode, exponent_pack hexp hfraction, fraction_pack hexp hfraction,
      negative_pack hexp hfraction, if_pos hspecial, hdecode]
    by_cases hzero : F.fraction p = 0
    · rw [if_pos hzero, if_pos hzero]
      rfl
    · rw [if_neg hzero, if_neg hzero]
  · have hfinite : F.magnitude p < F.special * 2 ^ F.fractionBits :=
      (Nat.div_lt_iff_lt_mul (Nat.two_pow_pos _)).mp
        (Nat.lt_of_le_of_ne (exponent_le p) hspecial)
    have hmagnitude : F.magnitude (F.pack (F.decode p).lessThanZero (F.exponent p)
        (F.fraction p)) = F.magnitude p := by
      rw [magnitude_pack hexp hfraction, exponent_mul_add_fraction]
    apply decode_eq_decode (k := 0) hfinite
    · rw [hmagnitude]
      exact hfinite
    · rw [pow_zero, one_mul]
    · rw [hmagnitude, Nat.pow_zero, Nat.mul_one]
    · intro hunits
      rw [negative_pack hexp hfraction, Bool.eq_iff_iff, lessThanZero_decode_iff hfinite]
      exact and_iff_left hunits

end Order

/-! ## Binades -/

section Binades

variable {F : Format} {p : Nat} {q : ℚ}

/-- A power of two as a multiple of the smallest number. -/
theorem two_zpow_eq (j : Nat) :
    (2 : ℚ) ^ ((j : ℤ) + (1 - F.bias - F.fractionBits)) = (2 ^ j : Nat) * F.quantum := by
  rw [Format.quantum, zpow_add₀ (by norm_num), zpow_natCast]
  push_cast
  rfl

theorem abs_eq_units (h : F.decode p = .finite q) :
    |q| = F.units (F.magnitude p) * F.quantum := by
  rcases decode_cases (F := F) p with ⟨-, h'⟩ | ⟨-, h'⟩ | ⟨-, h'⟩
  · rw [h] at h'
    obtain rfl := Datum.finite.inj h'
    rw [abs_mul, abs_of_pos F.quantum_pos, ← natAbs_signedUnits, Nat.cast_natAbs, Int.cast_abs]
  · rw [h] at h'
    cases h'
  · rw [h] at h'
    cases h'

theorem exponent_lt_of_finite (h : F.decode p = .finite q) : F.exponent p < F.special := by
  apply Nat.lt_of_le_of_ne (exponent_le p)
  intro hspecial
  rw [Format.decode, if_pos hspecial] at h
  split at h <;> cases h

/-- A number is in a binade or above if its exponent is. -/
theorem two_zpow_le_abs_iff (h : F.decode p = .finite q) (e : Nat) :
    (2 : ℚ) ^ ((e : ℤ) + 1 - F.bias) ≤ |q| ↔ e + 1 ≤ F.exponent p := by
  have hpow : (2 : ℚ) ^ ((e : ℤ) + 1 - F.bias) =
      (2 ^ (F.fractionBits + e) : Nat) * F.quantum := by
    rw [← two_zpow_eq]
    congr 1
    push_cast
    ring
  have hunits : 2 ^ (F.fractionBits + e) = F.units ((e + 1) * 2 ^ F.fractionBits + 0) := by
    rw [units_add (Nat.two_pow_pos _), Nat.add_zero, Nat.pow_add]
  rw [hpow, abs_eq_units h, mul_le_mul_iff_left₀ F.quantum_pos, Nat.cast_le, hunits,
    units_strictMono.le_iff_le, Nat.add_zero]
  exact (Nat.le_div_iff_mul_le (Nat.two_pow_pos _)).symm

/-- The distance of two numbers with the same sign, from the distance of their units. -/
theorem abs_sub_lt {G : Format} {r k v : Nat} {x : ℚ} (hx : F.decode r = .finite x)
    (hq : G.decode p = .finite q) (hquantum : F.quantum = 2 ^ k * G.quantum)
    (hsign : F.negative r = G.negative p)
    (hup : F.units (F.magnitude r) * 2 ^ k < G.units (G.magnitude p) + v)
    (hdown : G.units (G.magnitude p) < F.units (F.magnitude r) * 2 ^ k + v) :
    |x - q| < v * G.quantum := by
  have hscaled : ∀ {H : Format} {t : Nat} {y : ℚ}, H.decode t = .finite y →
      y = (if H.negative t then -1 else 1) * (H.units (H.magnitude t) * H.quantum) := by
    intro H t y ht
    rcases decode_cases (F := H) t with ⟨-, h⟩ | ⟨-, h⟩ | ⟨-, h⟩
    · rw [ht] at h
      rw [Datum.finite.inj h, Format.signedUnits]
      split <;> simp
    · rw [ht] at h
      cases h
    · rw [ht] at h
      cases h
  have hdiff : x - q = (if G.negative p then -1 else 1) *
      (((F.units (F.magnitude r) * 2 ^ k : Nat) : ℚ) - (G.units (G.magnitude p) : ℚ)) *
        G.quantum := by
    rw [hscaled hx, hscaled hq, hsign, hquantum]
    push_cast
    ring
  have hone : |(if G.negative p then -1 else 1 : ℚ)| = 1 := by
    split <;> simp
  have hdistance : |((F.units (F.magnitude r) * 2 ^ k : Nat) : ℚ) -
      (G.units (G.magnitude p) : ℚ)| < v := by
    rw [abs_sub_lt_iff]
    constructor
    · rw [sub_lt_iff_lt_add']
      exact_mod_cast hup
    · rw [sub_lt_iff_lt_add']
      exact_mod_cast hdown
  rw [hdiff, abs_mul, abs_mul, hone, one_mul, abs_of_pos G.quantum_pos]
  exact mul_lt_mul_of_pos_right hdistance G.quantum_pos

/-- The distance of neighbours in the binade of `2 ^ k`. -/
theorem ulp_eq {k : ℤ} (hlow : 2 ^ k ≤ |q|) (hhigh : |q| < 2 ^ (k + 1))
    (hk : 1 - (F.bias : ℤ) ≤ k) : F.ulp q = 2 ^ (k - F.fractionBits) := by
  have hpow : (2 : ℚ) ^ (1 - (F.bias : ℤ)) ≤ 2 ^ k := zpow_le_zpow_right₀ (by norm_num) hk
  have hpos : 0 < |q| := lt_of_lt_of_le (zpow_pos (by norm_num) k) hlow
  have hlog : Int.log 2 |q| = k := by
    apply le_antisymm
    · have hlt := (Int.lt_zpow_iff_log_lt (b := 2) (by norm_num) hpos).mp (by exact_mod_cast hhigh)
      omega
    · exact (Int.zpow_le_iff_le_log (b := 2) (by norm_num) hpos).mp (by exact_mod_cast hlow)
  rw [Format.ulp, if_neg (not_lt.mpr (hpow.trans hlow)), hlog]

end Binades

end Ros2Serial.Interchange
