import Ros2Serial.Device.AvrFloat64

/-!
# How accurate `deserializeAvrFloat64` is

A `double` from 2^-150 up is demoted to a `float` less than one `ulp` away, and
in the order of the `double`s.  Below 2^-150 the exponent is cleared and the
mantissa is not: the upper 24 bits of the fraction, rounded, become the mantissa
of a subnormal `float`, whatever the exponent was.

`accurate_iff` says for which numbers that does no harm, and `demotes_iff` for
which pairs of numbers.

All bounds are in units of the smallest `double`, of which the smallest `float`
is 2^925.
-/

namespace Ros2Serial.Device.Msg

open Interchange

/-- The `float` that the eight bytes of a `double` are read as. -/
def demoted (d : UInt64) : Nat :=
  (deserializeAvrFloat64 (LittleEndian.encode 8 d.toNat)).toNat

/-- The upper 24 of the 52 bits of the fraction, which are all that is read. -/
def upper (d : UInt64) : Nat := binary64.fraction d.toNat / 2 ^ 28

/-- The demotion of one number: it keeps the sign, it is less than an `ulp` away within the
range of a `float`, it is zero or the smallest number below 2^-150, and an infinity only from
2^128 up. -/
structure Accurate (d : UInt64) (q : ℚ) : Prop where
  sign : binary32.negative (demoted d) = binary64.negative d.toNat
  near : |q| < 2 ^ 128 →
    ∃ x, binary32.decode (demoted d) = .finite x ∧ |x - q| < binary32.ulp q
  tiny : |q| < 2 ^ (-150 : ℤ) →
    ∃ x, binary32.decode (demoted d) = .finite x ∧ (x = 0 ∨ |x| = binary32.quantum)
  overflow : ∀ negative, binary32.decode (demoted d) = .infinity negative → 2 ^ 128 ≤ |q|

/-- A number below 2^-150. -/
def Tiny (d : UInt64) : Prop := binary64.exponent d.toNat < 873

/-- A number that is not below 2^-150, or has almost no bits in the part of its fraction that
is read. -/
def Fits (d : UInt64) : Prop := Tiny d → upper d ≤ 2

/-- Two numbers below 2^-150, of which the first is read as the smallest number and the second
as zero. -/
def Drops (d d' : UInt64) : Prop := Tiny d ∧ Tiny d' ∧ upper d ≠ 0 ∧ upper d' = 0

/-- Two numbers of the same sign of which the one with the smaller magnitude does not become
zero, and the other does. -/
def Crossed (d d' : UInt64) : Prop :=
  (binary64.negative d.toNat = false ∧ binary64.negative d'.toNat = false ∧ Drops d d') ∨
    (binary64.negative d.toNat = true ∧ binary64.negative d'.toNat = true ∧ Drops d' d)

/-! ## The demoted magnitude -/

/-- The magnitude that an exponent and the upper bits of a fraction are demoted to. -/
def demotedMagnitude (exp : Nat) (mantissa : UInt32) : Nat :=
  (demote exp mantissa).1 * 2 ^ 23 + (roundOff (demote exp mantissa).2).toNat

section Classes

variable {exp exp' : Nat} {m m' : UInt32}

theorem demotedMagnitude_tiny (h : exp < 873) :
    demotedMagnitude exp m = (roundOff m).toNat := by
  rw [demotedMagnitude, demote, if_neg (by omega), if_neg (by omega), if_neg (by omega),
    if_pos (by omega), Nat.zero_mul, Nat.zero_add]

theorem demotedMagnitude_subnormal (hlow : 873 ≤ exp) (hhigh : exp ≤ 896) :
    demotedMagnitude exp m =
      (roundOff ((m ||| 0x1000000) >>> UInt32.ofNat (897 - exp))).toNat := by
  rw [demotedMagnitude, demote, if_neg (by omega), if_neg (by omega), if_neg (by omega),
    if_neg (by omega), Nat.zero_mul, Nat.zero_add]

theorem demotedMagnitude_normal (hlow : 897 ≤ exp) (hhigh : exp ≤ 1150) :
    demotedMagnitude exp m = (exp - 896) * 2 ^ 23 + (roundOff m).toNat := by
  rw [demotedMagnitude, demote, if_neg (by omega), if_neg (by omega), if_pos (by omega)]

theorem demotedMagnitude_large (hlow : 1151 ≤ exp) (hhigh : exp < 2047) :
    demotedMagnitude exp m = 255 * 2 ^ 23 := by
  rw [demotedMagnitude, demote, if_neg (by omega), if_pos (by omega)]
  rfl

/-- The mantissa of a subnormal `float` has at least its last bit, and no more than 24. -/
theorem subnormal_bounds (hm : m.toNat < 2 ^ 24) (hlow : 873 ≤ exp) (hhigh : exp ≤ 896) :
    1 ≤ (2 ^ 24 + m.toNat) / 2 ^ (897 - exp) ∧
      (2 ^ 24 + m.toNat) / 2 ^ (897 - exp) < 2 ^ 24 := by
  have hone : 2 ^ 1 ≤ 2 ^ (897 - exp) := Nat.pow_le_pow_right (by decide) (by omega)
  have hall : 2 ^ (897 - exp) ≤ 2 ^ 24 := Nat.pow_le_pow_right (by decide) (by omega)
  constructor
  · rw [Nat.le_div_iff_mul_le (Nat.two_pow_pos _)]
    omega
  · rw [Nat.div_lt_iff_lt_mul (Nat.two_pow_pos _)]
    omega

/-- A finite number of at least 2^-150 is demoted to one that is not zero, and to none above
the infinities. -/
theorem demotedMagnitude_bounds (hm : m.toNat < 2 ^ 24) (hlow : 873 ≤ exp) (hhigh : exp < 2047) :
    1 ≤ demotedMagnitude exp m ∧ demotedMagnitude exp m ≤ 255 * 2 ^ 23 := by
  have hround := roundOff_bounds hm
  rcases Nat.lt_or_ge 896 exp with hnormal | hsub
  · rcases Nat.lt_or_ge 1150 exp with hlarge | hrange
    · rw [demotedMagnitude_large hlarge hhigh]
      omega
    · rw [demotedMagnitude_normal hnormal hrange]
      omega
  · obtain ⟨hone, hlt⟩ := subnormal_bounds hm hlow hsub
    rw [← subnormal_toNat hm hlow hsub] at hone hlt
    have hsubnormal := roundOff_bounds hlt
    have hzero := roundOff_eq_zero_iff hlt
    rw [demotedMagnitude_subnormal hlow hsub]
    omega

/-- Greater numbers have greater mantissas where they are subnormal as a `float`. -/
theorem subnormal_mono (hm : m.toNat < 2 ^ 24) (hlt : exp < exp') (hhigh : exp' ≤ 896) :
    (2 ^ 24 + m.toNat) / 2 ^ (897 - exp) ≤ (2 ^ 24 + m'.toNat) / 2 ^ (897 - exp') := by
  have hsplit : 897 - exp = (exp' - exp) + (897 - exp') := by omega
  have hone : 2 ^ 1 ≤ 2 ^ (exp' - exp) := Nat.pow_le_pow_right (by decide) (by omega)
  rw [hsplit, Nat.pow_add, ← Nat.div_div_eq_div_mul]
  apply Nat.div_le_div_right
  calc (2 ^ 24 + m.toNat) / 2 ^ (exp' - exp) ≤ (2 ^ 24 + m.toNat) / 2 ^ 1 :=
        Nat.div_le_div_left hone (by decide)
    _ ≤ 2 ^ 24 + m'.toNat := by omega

/-- From 2^-150 up, greater numbers have greater magnitudes. -/
theorem demotedMagnitude_mono (hm : m.toNat < 2 ^ 24) (hm' : m'.toNat < 2 ^ 24)
    (hlow : 873 ≤ exp) (hhigh : exp' < 2047)
    (hle : exp < exp' ∨ exp = exp' ∧ m.toNat ≤ m'.toNat) :
    demotedMagnitude exp m ≤ demotedMagnitude exp' m' := by
  have hround := roundOff_bounds hm
  have hround' := roundOff_bounds hm'
  rcases Nat.lt_or_ge 1150 exp' with hlarge' | hrange'
  · rw [demotedMagnitude_large hlarge' hhigh]
    exact (demotedMagnitude_bounds hm hlow (by omega)).2
  rcases Nat.lt_or_ge 896 exp' with hnormal' | hsub'
  · rcases Nat.lt_or_ge 896 exp with hnormal | hsub
    · rw [demotedMagnitude_normal hnormal (by omega), demotedMagnitude_normal hnormal' hrange']
      rcases hle with hlt | ⟨heq, hmle⟩
      · omega
      · have hmono := roundOff_mono hm' hmle
        omega
    · obtain ⟨-, hlt⟩ := subnormal_bounds hm hlow hsub
      rw [← subnormal_toNat hm hlow hsub] at hlt
      have hsubnormal := roundOff_bounds hlt
      rw [demotedMagnitude_subnormal hlow hsub, demotedMagnitude_normal hnormal' hrange']
      omega
  · have hlow' : 873 ≤ exp' := by omega
    have hsub : exp ≤ 896 := by omega
    rw [demotedMagnitude_subnormal hlow hsub, demotedMagnitude_subnormal hlow' hsub']
    apply roundOff_mono
    · rw [subnormal_toNat hm' hlow' hsub']
      exact (subnormal_bounds hm' hlow' hsub').2
    · rw [subnormal_toNat hm hlow hsub, subnormal_toNat hm' hlow' hsub']
      rcases hle with hlt | ⟨heq, hmle⟩
      · exact subnormal_mono hm hlt hsub'
      · rw [heq]
        exact Nat.div_le_div_right (by omega)

end Classes

/-! ## The distance in units -/

section Distance

variable {exp fraction : Nat} {m : UInt32}

/-- A `float` that is not subnormal, against its `double`. -/
theorem normal_near {k e : Nat} (hk : k = 925) (he : exp = e + 897) (hrange : exp ≤ 1150)
    (hm : m.toNat = fraction / 2 ^ 28) (hfraction : fraction < 2 ^ 52) :
    binary32.units (demotedMagnitude exp m) * 2 ^ k <
        (2 ^ 52 + fraction + 2 ^ 29) * 2 ^ (e + 896) ∧
      (2 ^ 52 + fraction) * 2 ^ (e + 896) <
        binary32.units (demotedMagnitude exp m) * 2 ^ k + 2 ^ 29 * 2 ^ (e + 896) := by
  have hround := roundOff_bounds (m := m) (by omega)
  have hunits : binary32.units (demotedMagnitude exp m) =
      (2 ^ 23 + (roundOff m).toNat) * 2 ^ e := by
    have hexp : exp - 896 = e + 1 := by omega
    rw [demotedMagnitude_normal (by omega) hrange, hexp]
    exact units_add (F := binary32) hround.1
  have hscaled : binary32.units (demotedMagnitude exp m) * 2 ^ k =
      (2 ^ 23 + (roundOff m).toNat) * 2 ^ 29 * 2 ^ (e + 896) := by
    have hpow : e + k = 29 + (e + 896) := by rw [hk]; exact (Nat.add_left_comm 29 e 896).symm
    rw [hunits, Nat.mul_assoc, ← Nat.pow_add, hpow, Nat.pow_add, ← Nat.mul_assoc]
  have hpos := Nat.two_pow_pos (e + 896)
  rw [hscaled, ← Nat.add_mul]
  constructor
  · exact Nat.mul_lt_mul_of_pos_right (by omega) hpos
  · exact Nat.mul_lt_mul_of_pos_right (by omega) hpos

/-- A subnormal `float`, against its `double`. -/
theorem subnormal_near {k e : Nat} (hk : k = 925) (he : exp = e + 1) (hlow : 873 ≤ exp)
    (hhigh : exp ≤ 896) (hm : m.toNat = fraction / 2 ^ 28) (hfraction : fraction < 2 ^ 52) :
    binary32.units (demotedMagnitude exp m) * 2 ^ k < (2 ^ 52 + fraction) * 2 ^ e + 2 ^ k ∧
      (2 ^ 52 + fraction) * 2 ^ e <
        binary32.units (demotedMagnitude exp m) * 2 ^ k + 2 ^ k := by
  have hlt : m.toNat < 2 ^ 24 := by omega
  have hmantissa := subnormal_bounds hlt hlow hhigh
  rw [← subnormal_toNat hlt hlow hhigh] at hmantissa
  obtain ⟨hround, hup, hdown⟩ := roundOff_bounds hmantissa.2
  rw [demotedMagnitude_subnormal hlow hhigh, units_of_subnormal (F := binary32) hround]
  -- `c` is what the last bit before rounding stands for
  obtain ⟨c, hc⟩ : ∃ c, c = 2 ^ 28 * 2 ^ (897 - exp) := ⟨_, rfl⟩
  have hquotient : ((m ||| 0x1000000) >>> UInt32.ofNat (897 - exp)).toNat =
      (2 ^ 52 + fraction) / c := by
    have hsum : 2 ^ 24 + m.toNat = (2 ^ 52 + fraction) / 2 ^ 28 := by omega
    rw [subnormal_toNat hlt hlow hhigh, hsum, Nat.div_div_eq_div_mul, hc]
  have hpow : 2 ^ k = 2 * c * 2 ^ e := by
    have hsum : k = 1 + (28 + (897 - exp)) + e := by omega
    rw [hsum, hc, Nat.pow_add, Nat.pow_add, Nat.pow_add 2 28, Nat.pow_one]
  have hcpos : 0 < c := by
    rw [hc]
    exact Nat.mul_pos (Nat.two_pow_pos _) (Nat.two_pow_pos _)
  have hbelow := Nat.div_mul_le_self (2 ^ 52 + fraction) c
  have habove := Nat.lt_div_mul_add (a := 2 ^ 52 + fraction) hcpos
  rw [← hquotient] at hbelow habove
  generalize (roundOff ((m ||| 0x1000000) >>> UInt32.ofNat (897 - exp))).toNat = rounded at *
  generalize ((m ||| 0x1000000) >>> UInt32.ofNat (897 - exp)).toNat = mantissa at *
  have hupc := Nat.mul_le_mul_right c hup
  have hdownc := Nat.mul_le_mul_right c hdown
  rw [Nat.add_mul, Nat.mul_assoc] at hupc hdownc
  have hrounded : rounded * 2 ^ k = rounded * (2 * c) * 2 ^ e := by
    rw [hpow, Nat.mul_assoc rounded]
  have hdouble : rounded * (2 * c) = 2 * (rounded * c) := Nat.mul_left_comm rounded 2 c
  rw [hrounded, hpow, ← Nat.add_mul, ← Nat.add_mul]
  constructor
  · exact Nat.mul_lt_mul_of_pos_right (by omega) (Nat.two_pow_pos e)
  · exact Nat.mul_lt_mul_of_pos_right (by omega) (Nat.two_pow_pos e)

end Distance

/-! ## The demoted pattern -/

/-- The sign of a demoted number is kept, and its magnitude depends on the exponent and the
upper bits of the fraction. -/
theorem demoted_spec (d : UInt64) :
    ∃ m : UInt32, m.toNat = upper d ∧
      binary32.negative (demoted d) = binary64.negative d.toNat ∧
      binary32.magnitude (demoted d) = demotedMagnitude (binary64.exponent d.toNat) m := by
  have hdecode : LittleEndian.decode (LittleEndian.encode 8 d.toNat) = d.toNat :=
    LittleEndian.decode_encode d.toNat_lt
  have hlength := LittleEndian.encode_length 8 d.toNat
  have hmantissa := (read_eq hlength).2.1
  have hpack := deserializeAvrFloat64_toNat hlength
  rw [hdecode] at hmantissa
  simp only [hdecode] at hpack
  have hlt : (readMantissa (LittleEndian.encode 8 d.toNat)).toNat < 2 ^ 24 := by
    rw [hmantissa]
    exact (Nat.div_lt_iff_lt_mul (by decide)).mpr (fraction_lt (F := binary64) d.toNat)
  have hexp : binary64.exponent d.toNat < 2 ^ 11 :=
    Nat.lt_succ_of_le (exponent_le (F := binary64) d.toNat)
  obtain ⟨hexp32, hmantissa32⟩ := demote_bounds hlt hexp
  have hround := (roundOff_bounds hmantissa32).1
  refine ⟨_, hmantissa, ?_, ?_⟩
  · rw [demoted, hpack]
    exact negative_pack (F := binary32) hexp32 hround
  · rw [demoted, hpack]
    exact magnitude_pack (F := binary32) hexp32 hround

section Value

variable {d : UInt64} {q : ℚ}

theorem upper_lt (d : UInt64) : upper d < 2 ^ 24 :=
  (Nat.div_lt_iff_lt_mul (by decide)).mpr (fraction_lt (F := binary64) d.toNat)

/-- A number is tiny if and only if it is below 2^-150. -/
theorem tiny_iff (h : binary64.decode d.toNat = .finite q) :
    Tiny d ↔ |q| < 2 ^ (-150 : ℤ) := by
  have hiff := two_zpow_le_abs_iff h 872
  rw [← not_le, show (-150 : ℤ) = ((872 : ℕ) : ℤ) + 1 - binary64.bias from rfl, hiff, Tiny]
  omega

theorem large_iff (h : binary64.decode d.toNat = .finite q) :
    2 ^ 128 ≤ |q| ↔ 1151 ≤ binary64.exponent d.toNat := by
  have hiff := two_zpow_le_abs_iff h 1150
  rw [← hiff, show ((1150 : ℕ) : ℤ) + 1 - binary64.bias = ((128 : ℕ) : ℤ) from rfl,
    zpow_natCast]

/-- The spacing of `float`s in the binade of a `double`. -/
theorem ulp_normal {e : Nat} (h : binary64.decode d.toNat = .finite q)
    (hexp : binary64.exponent d.toNat = e + 897) :
    binary32.ulp q = (2 ^ 29 * 2 ^ (e + 896) : Nat) * binary64.quantum := by
  have hbias : (binary64.bias : ℤ) = 1023 := rfl
  have hbias32 : (binary32.bias : ℤ) = 127 := rfl
  have hfraction : (binary64.fractionBits : ℤ) = 52 := rfl
  have hfraction32 : (binary32.fractionBits : ℤ) = 23 := rfl
  have hbinade : ((e + 896 : ℕ) : ℤ) + 1 - binary64.bias = e - 126 := by
    rw [hbias]
    push_cast
    ring
  have hnext : ((e + 897 : ℕ) : ℤ) + 1 - binary64.bias = e - 126 + 1 := by
    rw [hbias]
    push_cast
    ring
  have hspacing : ((29 + (e + 896) : ℕ) : ℤ) + (1 - binary64.bias - binary64.fractionBits) =
      e - 126 - binary32.fractionBits := by
    rw [hbias, hfraction, hfraction32]
    push_cast
    ring
  have hlow := two_zpow_le_abs_iff h (e + 896)
  have hhigh := two_zpow_le_abs_iff h (e + 897)
  rw [hbinade] at hlow
  rw [hnext] at hhigh
  rw [ulp_eq (hlow.mpr (by omega)) (not_le.mp (by rw [hhigh]; omega)) (by omega), ← hspacing,
    two_zpow_eq, Nat.pow_add 2 29]

/-- The spacing of the subnormal `float`s. -/
theorem ulp_subnormal (h : binary64.decode d.toNat = .finite q)
    (hexp : binary64.exponent d.toNat ≤ 896) : binary32.ulp q = binary32.quantum := by
  have hlt : ¬2 ^ (((896 : ℕ) : ℤ) + 1 - binary64.bias) ≤ |q| := by
    rw [two_zpow_le_abs_iff h 896]
    omega
  rw [Format.ulp, if_pos]
  exact not_le.mp hlt

theorem units_of_double {e : Nat} (h : binary64.exponent d.toNat = e + 1) :
    binary64.units (binary64.magnitude d.toNat) =
      (2 ^ 52 + binary64.fraction d.toNat) * 2 ^ e := units_of_exponent h

/-- A demoted number below 2^128 is finite. -/
theorem decode_demoted (hexp : binary64.exponent d.toNat ≤ 1150) :
    ∃ x, binary32.decode (demoted d) = .finite x := by
  obtain ⟨m, hm, -, hmagnitude⟩ := demoted_spec d
  have hlt := upper_lt d
  rw [← hm] at hlt
  have hround := roundOff_bounds hlt
  have hbound : demotedMagnitude (binary64.exponent d.toNat) m < 255 * 2 ^ 23 := by
    rcases Nat.lt_or_ge 896 (binary64.exponent d.toNat) with hnormal | hsub
    · rw [demotedMagnitude_normal hnormal hexp]
      omega
    · rcases Nat.lt_or_ge (binary64.exponent d.toNat) 873 with htiny | hlow
      · rw [demotedMagnitude_tiny htiny]
        omega
      · have hmantissa := (subnormal_bounds hlt hlow hsub).2
        rw [← subnormal_toNat hlt hlow hsub] at hmantissa
        have hsubnormal := roundOff_bounds hmantissa
        rw [demotedMagnitude_subnormal hlow hsub]
        omega
  rw [← hmagnitude] at hbound
  rcases decode_cases (F := binary32) (demoted d) with ⟨-, hdecode⟩ | ⟨heq, -⟩ | ⟨hgt, -⟩
  · exact ⟨_, hdecode⟩
  · exact absurd heq (Nat.ne_of_lt hbound)
  · exact absurd hgt (Nat.not_lt.mpr (Nat.le_of_lt hbound))

/-- From 2^-150 up, the demotion is less than an `ulp` away. -/
theorem near_of_not_tiny (h : binary64.decode d.toNat = .finite q)
    (hlow : 873 ≤ binary64.exponent d.toNat) (hhigh : binary64.exponent d.toNat ≤ 1150) :
    ∃ x, binary32.decode (demoted d) = .finite x ∧ |x - q| < binary32.ulp q := by
  obtain ⟨x, hx⟩ := decode_demoted hhigh
  obtain ⟨m, hm, hsign, hmagnitude⟩ := demoted_spec d
  obtain ⟨k, hk⟩ : ∃ k, k = 925 := ⟨_, rfl⟩
  have hquantum : binary32.quantum = 2 ^ k * binary64.quantum := by
    rw [hk]
    exact quantum_eq
  have hfraction : binary64.fraction d.toNat < 2 ^ 52 := fraction_lt (F := binary64) d.toNat
  refine ⟨x, hx, ?_⟩
  rcases Nat.lt_or_ge 896 (binary64.exponent d.toNat) with hnormal | hsub
  · obtain ⟨e, he⟩ := Nat.exists_eq_add_of_le' hnormal
    have he' : binary64.exponent d.toNat = e + 897 := he
    obtain ⟨hup, hdown⟩ := normal_near hk he' hhigh hm hfraction
    rw [ulp_normal h he']
    have hunits := units_of_double (d := d) (e := e + 896) he'
    apply abs_sub_lt hx h hquantum hsign
    · rw [hmagnitude, hunits, ← Nat.add_mul]
      exact hup
    · rw [hmagnitude, hunits]
      exact hdown
  · have hpos : binary64.exponent d.toNat ≠ 0 := by omega
    obtain ⟨e, he⟩ := Nat.exists_eq_add_one_of_ne_zero hpos
    obtain ⟨hup, hdown⟩ := subnormal_near hk he hlow hsub hm hfraction
    have hspacing : binary32.ulp q = (2 ^ k : Nat) * binary64.quantum := by
      rw [ulp_subnormal h hsub, hquantum]
      push_cast
      rfl
    rw [hspacing]
    apply abs_sub_lt hx h hquantum hsign
    · rw [hmagnitude, units_of_double he]
      exact hup
    · rw [hmagnitude, units_of_double he]
      exact hdown

/-- Below 2^-150 the units are the rounded upper bits of the fraction. -/
theorem units_demoted_tiny (htiny : Tiny d) :
    ∃ m : UInt32, m.toNat = upper d ∧
      binary32.units (binary32.magnitude (demoted d)) = (roundOff m).toNat := by
  obtain ⟨m, hm, -, hmagnitude⟩ := demoted_spec d
  have hlt := upper_lt d
  rw [← hm] at hlt
  refine ⟨m, hm, ?_⟩
  rw [hmagnitude, demotedMagnitude_tiny htiny]
  exact units_of_subnormal (F := binary32) (roundOff_bounds hlt).1

/-- Below 2^-150 the demotion is zero or the smallest number if and only if the fraction has
almost no upper bits. -/
theorem tiny_result_iff (htiny : Tiny d) {x : ℚ} (hx : binary32.decode (demoted d) = .finite x) :
    (x = 0 ∨ |x| = binary32.quantum) ↔ upper d ≤ 2 := by
  obtain ⟨m, hm, hunits⟩ := units_demoted_tiny htiny
  have hlt := upper_lt d
  rw [← hm] at hlt ⊢
  have hpos := binary32.quantum_pos
  rw [← roundOff_le_one_iff hlt, ← abs_eq_zero, abs_eq_units hx, hunits]
  generalize (roundOff m).toNat = rounded
  rw [mul_eq_zero, or_iff_left hpos.ne', Nat.cast_eq_zero]
  have hone : (rounded : ℚ) * binary32.quantum = binary32.quantum ↔ rounded = 1 := by
    rw [mul_eq_right₀ hpos.ne', Nat.cast_eq_one]
  rw [hone]
  omega

/-- Below 2^-150 the demotion is less than an `ulp` away if it is zero or the smallest
number. -/
theorem near_of_tiny (h : binary64.decode d.toNat = .finite q) (htiny : Tiny d)
    (hupper : upper d ≤ 2) {x : ℚ} (hx : binary32.decode (demoted d) = .finite x) :
    |x - q| < binary32.ulp q := by
  obtain ⟨m, hm, hunits⟩ := units_demoted_tiny htiny
  obtain ⟨-, -, hsign, -⟩ := demoted_spec d
  have hlt := upper_lt d
  rw [← hm] at hlt hupper
  have hexp : binary64.exponent d.toNat < 873 := htiny
  obtain ⟨k, hk⟩ : ∃ k, k = 925 := ⟨_, rfl⟩
  have hquantum : binary32.quantum = 2 ^ k * binary64.quantum := by
    rw [hk]
    exact quantum_eq
  have hspacing : binary32.ulp q = (2 ^ k : Nat) * binary64.quantum := by
    rw [ulp_subnormal h (by omega), hquantum]
    push_cast
    rfl
  have hdouble : binary64.units (binary64.magnitude d.toNat) < 2 ^ k := by
    have hsum : k = binary64.fractionBits + 873 := hk
    rw [hsum]
    exact units_lt_two_pow (by omega)
  have hpos : (roundOff m).toNat ≠ 0 → 0 < binary64.units (binary64.magnitude d.toNat) := by
    intro hround
    apply units_pos_of_fraction
    intro hfraction
    apply hround
    rw [roundOff_eq_zero_iff hlt, hm, upper, hfraction, Nat.zero_div]
  have hround := (roundOff_le_one_iff hlt).mpr hupper
  rw [hspacing]
  apply abs_sub_lt hx h hquantum hsign
  · rw [hunits]
    have hcases : (roundOff m).toNat = 0 ∨ (roundOff m).toNat = 1 := by omega
    rcases hcases with hzero | hone
    · rw [hzero, Nat.zero_mul]
      exact Nat.add_pos_right _ (Nat.two_pow_pos k)
    · rw [hone, Nat.one_mul]
      exact Nat.lt_add_of_pos_left (hpos (by omega))
  · rw [hunits]
    exact Nat.lt_of_lt_of_le hdouble (Nat.le_add_left _ _)

/-- A demotion is accurate if and only if the `double` is not below 2^-150, or has almost no
upper bits. -/
theorem accurate_iff (h : binary64.decode d.toNat = .finite q) : Accurate d q ↔ Fits d := by
  obtain ⟨-, -, hsign, -⟩ := demoted_spec d
  constructor
  · intro hacc htiny
    obtain ⟨x, hx, hresult⟩ := hacc.tiny ((tiny_iff h).mp htiny)
    exact (tiny_result_iff htiny hx).mp hresult
  · intro hfits
    refine ⟨hsign, ?_, ?_, ?_⟩
    · intro hrange
      have hexp : ¬1151 ≤ binary64.exponent d.toNat := by
        rw [← large_iff h]
        exact not_le.mpr hrange
      rcases Nat.lt_or_ge (binary64.exponent d.toNat) 873 with htiny | hlow
      · obtain ⟨x, hx⟩ := decode_demoted (d := d) (by omega)
        exact ⟨x, hx, near_of_tiny h htiny (hfits htiny) hx⟩
      · exact near_of_not_tiny h hlow (by omega)
    · intro hsmall
      have htiny := (tiny_iff h).mpr hsmall
      obtain ⟨x, hx⟩ := decode_demoted (d := d) (Nat.le_of_lt (Nat.lt_trans htiny (by decide)))
      exact ⟨x, hx, (tiny_result_iff htiny hx).mpr (hfits htiny)⟩
    · intro negative hinfinity
      rw [large_iff h]
      by_contra hexp
      obtain ⟨x, hx⟩ := decode_demoted (d := d) (by omega)
      rw [hinfinity] at hx
      cases hx

end Value

/-! ## The order -/

section Order

variable {d d' : UInt64} {q q' : ℚ}

/-- The order of magnitudes, in fields. -/
theorem fields_of_magnitude_le
    (hle : binary64.magnitude d.toNat ≤ binary64.magnitude d'.toNat) :
    binary64.exponent d.toNat < binary64.exponent d'.toNat ∨
      binary64.exponent d.toNat = binary64.exponent d'.toNat ∧ upper d ≤ upper d' := by
  have hexp : binary64.exponent d.toNat ≤ binary64.exponent d'.toNat := Nat.div_le_div_right hle
  rcases Nat.lt_or_eq_of_le hexp with hlt | heq
  · exact Or.inl hlt
  · refine Or.inr ⟨heq, Nat.div_le_div_right ?_⟩
    rw [← exponent_mul_add_fraction, ← exponent_mul_add_fraction, heq] at hle
    exact Nat.le_of_add_le_add_left hle

/-- The magnitudes of two demoted numbers are in the order of the numbers, unless the smaller
one does not become zero and the greater one does. -/
theorem magnitude_demoted_le_iff (hfinite : binary64.exponent d'.toNat < 2047) (hfits : Fits d)
    (hfits' : Fits d') (hle : binary64.magnitude d.toNat ≤ binary64.magnitude d'.toNat) :
    binary32.magnitude (demoted d) ≤ binary32.magnitude (demoted d') ↔ ¬Drops d d' := by
  obtain ⟨m, hm, -, hmagnitude⟩ := demoted_spec d
  obtain ⟨m', hm', -, hmagnitude'⟩ := demoted_spec d'
  have hlt := upper_lt d
  have hlt' := upper_lt d'
  have hfields := fields_of_magnitude_le hle
  rw [← hm] at hlt hfields
  rw [← hm'] at hlt' hfields
  rw [hmagnitude, hmagnitude']
  rcases Nat.lt_or_ge (binary64.exponent d.toNat) 873 with htiny | hlow
  · have hround : (roundOff m).toNat ≤ 1 := by
      rw [roundOff_le_one_iff hlt, hm]
      exact hfits htiny
    rcases Nat.lt_or_ge (binary64.exponent d'.toNat) 873 with htiny' | hlow'
    · have hround' : (roundOff m').toNat ≤ 1 := by
        rw [roundOff_le_one_iff hlt', hm']
        exact hfits' htiny'
      have hzero := roundOff_eq_zero_iff hlt
      have hzero' := roundOff_eq_zero_iff hlt'
      rw [demotedMagnitude_tiny htiny, demotedMagnitude_tiny htiny']
      have hdrops : Drops d d' ↔ upper d ≠ 0 ∧ upper d' = 0 := by
        unfold Drops
        rw [and_iff_right (show Tiny d from htiny), and_iff_right (show Tiny d' from htiny')]
      rw [hdrops, ← hm, ← hm']
      omega
    · refine iff_of_true ?_ fun h => Nat.lt_irrefl 873 (Nat.lt_of_le_of_lt hlow' h.2.1)
      rw [demotedMagnitude_tiny htiny]
      exact hround.trans (demotedMagnitude_bounds hlt' hlow' hfinite).1
  · refine iff_of_true ?_ fun h => Nat.lt_irrefl 873 (Nat.lt_of_le_of_lt hlow h.1)
    exact demotedMagnitude_mono hlt hlt' hlow hfinite hfields

theorem decode_demoted_ne_nan (hfinite : binary64.exponent d.toNat < 2047) :
    binary32.decode (demoted d) ≠ .nan := by
  obtain ⟨m, hm, -, hmagnitude⟩ := demoted_spec d
  have hlt := upper_lt d
  rw [← hm] at hlt
  have hbound : binary32.magnitude (demoted d) ≤ 255 * 2 ^ 23 := by
    rw [hmagnitude]
    rcases Nat.lt_or_ge (binary64.exponent d.toNat) 873 with htiny | hlow
    · have hround := roundOff_bounds hlt
      rw [demotedMagnitude_tiny htiny]
      omega
    · exact (demotedMagnitude_bounds hlt hlow hfinite).2
  rcases decode_cases (F := binary32) (demoted d) with ⟨-, hdecode⟩ | ⟨-, hdecode⟩ | ⟨hgt, -⟩
  · rw [hdecode]
    exact Datum.noConfusion
  · rw [hdecode]
    exact Datum.noConfusion
  · exact absurd hgt (Nat.not_lt.mpr hbound)

/-- Zeros are demoted to zeros. -/
theorem units_demoted_of_zero (h : binary64.units (binary64.magnitude d.toNat) = 0) :
    binary32.units (binary32.magnitude (demoted d)) = 0 := by
  have hmagnitude : binary64.magnitude d.toNat = 0 :=
    units_strictMono.injective (h.trans units_zero.symm)
  have htiny : Tiny d := by
    rw [Tiny, Format.exponent, hmagnitude, Nat.zero_div]
    decide
  obtain ⟨m, hm, hunits⟩ := units_demoted_tiny htiny
  have hlt := upper_lt d
  rw [← hm] at hlt
  rw [hunits, roundOff_eq_zero_iff hlt, hm, upper, Format.fraction, hmagnitude, Nat.zero_mod,
    Nat.zero_div]

/-- Two demoted numbers are in the order of the numbers if and only if they are not crossed. -/
theorem demoted_le_iff (h : binary64.decode d.toNat = .finite q)
    (h' : binary64.decode d'.toNat = .finite q') (hle : q ≤ q') (hfits : Fits d)
    (hfits' : Fits d') :
    binary32.decode (demoted d) ≤ binary32.decode (demoted d') ↔ ¬Crossed d d' := by
  have hfinite := exponent_lt_of_finite h
  have hfinite' := exponent_lt_of_finite h'
  have horder : binary64.signedUnits d.toNat ≤ binary64.signedUnits d'.toNat := by
    apply (decode_le_iff _ _).mp
    · rw [h, h']
      exact hle
    · rw [h]
      exact Datum.noConfusion
    · rw [h']
      exact Datum.noConfusion
  rw [decode_le_iff (decode_demoted_ne_nan hfinite) (decode_demoted_ne_nan hfinite')]
  obtain ⟨-, -, hsign, -⟩ := demoted_spec d
  obtain ⟨-, -, hsign', -⟩ := demoted_spec d'
  unfold Format.signedUnits at horder ⊢
  rw [hsign, hsign', Crossed]
  cases hneg : binary64.negative d.toNat <;> cases hneg' : binary64.negative d'.toNat
  · -- both at or above zero
    simp only [hneg, hneg', Bool.false_eq_true, if_false, Int.ofNat_le] at horder ⊢
    rw [units_strictMono.le_iff_le] at horder ⊢
    rw [magnitude_demoted_le_iff hfinite' hfits hfits' horder]
    simp
  · -- from above zero to below: both are zero
    simp only [hneg, hneg', Bool.false_eq_true, if_false, if_true] at horder ⊢
    have hzero := units_demoted_of_zero (d := d) (by omega)
    have hzero' := units_demoted_of_zero (d := d') (by omega)
    rw [hzero, hzero']
    simp
  · -- from below zero to above
    simp only [Bool.false_eq_true, if_false, if_true]
    refine iff_of_true (by omega) ?_
    simp
  · -- both at or below zero
    simp only [hneg, hneg', if_true, neg_le_neg_iff, Int.ofNat_le] at horder ⊢
    rw [units_strictMono.le_iff_le] at horder ⊢
    rw [magnitude_demoted_le_iff hfinite hfits' hfits horder]
    simp

/-- For which pairs of numbers the demotion is accurate and keeps their order. -/
theorem demotes_iff (h : binary64.decode d.toNat = .finite q)
    (h' : binary64.decode d'.toNat = .finite q') (hle : q ≤ q') :
    (Accurate d q ∧ Accurate d' q' ∧
        binary32.decode (demoted d) ≤ binary32.decode (demoted d')) ↔
      Fits d ∧ Fits d' ∧ ¬Crossed d d' := by
  rw [accurate_iff h, accurate_iff h']
  constructor
  · intro ⟨hfits, hfits', horder⟩
    exact ⟨hfits, hfits', (demoted_le_iff h h' hle hfits hfits').mp horder⟩
  · intro ⟨hfits, hfits', hcrossed⟩
    exact ⟨hfits, hfits', (demoted_le_iff h h' hle hfits hfits').mpr hcrossed⟩

/-- A pattern that is a power of two. -/
theorem decode_two_pow {p k : Nat} (hexponent : binary64.exponent p ≠ binary64.special)
    (hunits : binary64.signedUnits p = 2 ^ (k + 1074)) : binary64.decode p = .finite (2 ^ k) := by
  have hexp : 1 - (binary64.bias : ℤ) - binary64.fractionBits = -1074 := by decide
  have hvalue : ((2 ^ (k + 1074) : ℤ) : ℚ) * binary64.quantum = 2 ^ k := by
    rw [Format.quantum, hexp, Int.cast_pow, Int.cast_ofNat, pow_add, mul_assoc,
      ← zpow_natCast 2 1074, ← zpow_add₀ two_ne_zero]
    norm_num
  rw [Format.decode, if_neg hexponent, hunits, hvalue]

/-- One and two, and the smallest numbers that are not negative. -/
theorem demotes_pairs :
    (Accurate 0x3ff0000000000000 (2 ^ 0) ∧ Accurate 0x4000000000000000 (2 ^ 1) ∧
      binary32.decode (demoted 0x3ff0000000000000) ≤
        binary32.decode (demoted 0x4000000000000000)) ∧
    Accurate 0 0 ∧ Accurate 1 binary64.quantum ∧
      binary32.decode (demoted 0) ≤ binary32.decode (demoted 1) := by
  have hnormal : ¬ Tiny 0x3ff0000000000000 := by
    unfold Tiny
    decide
  have hnormal' : ¬ Tiny 0x4000000000000000 := by
    unfold Tiny
    decide
  refine ⟨?_, ?_⟩
  · refine (demotes_iff (decode_two_pow (by decide) (by decide +kernel))
      (decode_two_pow (by decide) (by decide +kernel)) (by norm_num)).mpr
      ⟨fun h => absurd h hnormal, fun h => absurd h hnormal', ?_⟩
    rintro (⟨-, -, h, -⟩ | ⟨-, -, h, -⟩)
    · exact hnormal h
    · exact hnormal' h
  have hzero : binary64.decode (0 : UInt64).toNat = .finite 0 := by
    have hunits : binary64.signedUnits (0 : UInt64).toNat = 0 := by decide
    rw [Format.decode, if_neg (by decide), hunits, Int.cast_zero, zero_mul]
  have hone : binary64.decode (1 : UInt64).toNat = .finite binary64.quantum := by
    have hunits : binary64.signedUnits (1 : UInt64).toNat = 1 := by decide
    rw [Format.decode, if_neg (by decide), hunits, Int.cast_one, one_mul]
  apply (demotes_iff hzero hone binary64.quantum_pos.le).mpr
  refine ⟨fun _ => ?_, fun _ => ?_, ?_⟩
  · decide
  · decide
  · intro hcrossed
    rcases hcrossed with ⟨-, -, -, -, hupper, -⟩ | ⟨hnegative, -⟩
    · exact hupper (by decide)
    · exact absurd hnegative (by decide)

/-- 10^-60 becomes the 5091365th subnormal `float`, about 7.1 * 10^-39. -/
theorem demotion_not_accurate :
    demoted 0x3379b604aaaca626 = 5091365 ∧
      ¬∀ (d : UInt64) (q : ℚ), binary64.decode d.toNat = .finite q → Accurate d q := by
  refine ⟨by decide, ?_⟩
  intro hall
  have hfinite : binary64.decode (0x3379b604aaaca626 : UInt64).toNat =
      .finite (binary64.signedUnits (0x3379b604aaaca626 : UInt64).toNat * binary64.quantum) := by
    rw [Format.decode, if_neg (by decide)]
  have htiny : Tiny 0x3379b604aaaca626 := by
    rw [Tiny]
    decide
  have hfits := (accurate_iff hfinite).mp (hall _ _ hfinite) htiny
  exact absurd hfits (by decide)

end Order

end Ros2Serial.Device.Msg
