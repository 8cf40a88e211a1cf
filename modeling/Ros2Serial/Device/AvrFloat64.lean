import Ros2Serial.Lib.Interchange
import Ros2Serial.Lib.LittleEndian
import Mathlib.Data.Nat.Bitwise

/-!
# Floats as doubles on the wire

`serializeAvrFloat64` and `deserializeAvrFloat64` of `ros/msg.h` carry a
`float64` field on a microcontroller that has no type for it.  The first
promotes a `float` to the eight bytes of a `double`, the second demotes them.

A `float` is its bit pattern.  The `int16_t exp` of both functions stays
between 0 and 2047, and is a natural number here.
-/

namespace Ros2Serial.Device.Msg

open Interchange

/-! ## `serializeAvrFloat64` -/

/-- `while (!(mantissa & 0x800000))`. -/
def normalizeLoop : Nat → Nat → UInt32 → Option (Nat × UInt32)
  | 0, _, _ => none
  | fuel + 1, exp, mantissa =>
    if mantissa &&& 0x800000 = 0 then normalizeLoop fuel (exp - 1) (mantissa <<< 1)
    else some (exp, mantissa)

/-- The exponent and the mantissa of the `double`. -/
def promote (fuel : Nat) (exp : Nat) (mantissa : UInt32) : Option (Nat × UInt32) :=
  if exp = 255 then
    some (2047, mantissa)
  else if exp ≠ 0 then
    some (exp + (1023 - 127), mantissa)
  else if mantissa = 0 then
    some (0, mantissa)
  else do
    let (exp, mantissa) ← normalizeLoop fuel (exp + (1023 - 127)) (mantissa <<< 1)
    some (exp, mantissa &&& 0x7FFFFF)

/-- The bytes with these fields, before the sign is marked in the last of them. -/
def writeFields (exp : Nat) (mantissa : UInt32) (negative : Bool) : List UInt8 :=
  [0, 0, 0,
    UInt32.toUInt8 ((mantissa <<< 5) &&& 0xff),
    UInt32.toUInt8 ((mantissa >>> 3) &&& 0xff),
    UInt32.toUInt8 ((mantissa >>> 11) &&& 0xff),
    UInt8.ofNat ((exp <<< 4) &&& 0xF0) ||| UInt32.toUInt8 ((mantissa >>> 19) &&& 0x0F),
    UInt8.ofNat ((exp >>> 4) &&& 0x7F) ||| if negative then 0x80 else 0]

/-- `serializeAvrFloat64`.  The sign is that of the comparison `f < 0`. -/
def serializeAvrFloat64 (fuel : Nat) (f : UInt32) : Option (List UInt8) := do
  let (exp, mantissa) ← promote fuel ((f >>> 23) &&& 255).toNat (f &&& 0x7FFFFF)
  some (writeFields exp mantissa (binary32.decode f.toNat).lessThanZero)

/-! ## `deserializeAvrFloat64` -/

/-- `(uint32_t)(inbuffer[i])`. -/
def byteAt (inbuffer : List UInt8) (i : Nat) : UInt32 := (inbuffer.getD i 0).toUInt32

/-- The upper 24 bits of the mantissa. -/
def readMantissa (inbuffer : List UInt8) : UInt32 :=
  let mantissa : UInt32 := (byteAt inbuffer 3 >>> 4) &&& 0x0F
  let mantissa : UInt32 := mantissa ||| ((byteAt inbuffer 4 &&& 0xff) <<< 4)
  let mantissa : UInt32 := mantissa ||| ((byteAt inbuffer 5 &&& 0xff) <<< 12)
  mantissa ||| ((byteAt inbuffer 6 &&& 0x0f) <<< 20)

def readExp (inbuffer : List UInt8) : Nat :=
  let exp : UInt32 := (byteAt inbuffer 6 &&& 0xf0) >>> 4
  let exp : UInt32 := exp ||| ((byteAt inbuffer 7 &&& 0x7f) <<< 4)
  exp.toNat

/-- The exponent of the `float`, and its mantissa with one bit more than it has. -/
def demote (exp : Nat) (mantissa : UInt32) : Nat × UInt32 :=
  if exp = 2047 then
    (255, mantissa)
  else if (exp : Int) - 1023 > 127 then
    (255, 0)
  else if (exp : Int) - 1023 ≥ -126 then
    (exp - (1023 - 127), mantissa)
  else if (exp : Int) - 1023 < -150 then
    -- the mantissa stays as it is
    (0, mantissa)
  else
    (0, (mantissa ||| 0x1000000) >>> UInt32.ofNat (897 - exp))

/-- The last bit of the mantissa is rounded off, up unless all bits are set. -/
def roundOff (mantissa : UInt32) : UInt32 :=
  (if mantissa ≠ 0xFFFFFF then mantissa + 1 else mantissa) >>> 1

/-- `deserializeAvrFloat64`. -/
def deserializeAvrFloat64 (inbuffer : List UInt8) : UInt32 :=
  let (exp, mantissa) := demote (readExp inbuffer) (readMantissa inbuffer)
  roundOff mantissa ||| UInt32.ofNat exp <<< 23 |||
    (byteAt inbuffer 7 &&& 0x80) <<< 24

/-! ## Bits and numbers -/

/-- Bits that are put above others. -/
theorem or_shiftLeft {low : Nat} {k : Nat} (h : low < 2 ^ k) (high : Nat) :
    low ||| high <<< k = low + high * 2 ^ k := by
  rw [Nat.or_comm, ← Nat.shiftLeft_add_eq_or_of_lt h, Nat.shiftLeft_eq, Nat.add_comm]

/-- The bits below bit `k`. -/
theorem and_mask (n k : Nat) : n &&& (2 ^ k - 1) = n % 2 ^ k := Nat.and_two_pow_sub_one_eq_mod n k

/-- One bit. -/
theorem and_bit (n k : Nat) : n &&& 2 ^ k = (decide (n / 2 ^ k % 2 = 1)).toNat * 2 ^ k := by
  rw [Nat.and_two_pow, Nat.testBit_eq_decide_div_mod_eq]

theorem and_mask_shift (n : Nat) : n <<< 4 &&& 0xF0 = n % 2 ^ 4 * 2 ^ 4 := by
  have hmask : (0xF0 : Nat) = (2 ^ 4 - 1) <<< 4 := rfl
  rw [hmask, ← Nat.shiftLeft_and_distrib, and_mask, Nat.shiftLeft_eq]

/-- A byte of a mantissa. -/
theorem mantissaByte_toNat (m : UInt32) (k : UInt32) (hk : k.toNat < 32) :
    (UInt32.toUInt8 ((m >>> k) &&& 0xff)).toNat = m.toNat / 2 ^ k.toNat % 2 ^ 8 := by
  have hbits : (UInt32.toUInt8 ((m >>> k) &&& 0xff)).toNat =
      (m.toNat >>> (k.toNat % 32) &&& (2 ^ 8 - 1)) % 2 ^ 8 := by
    rw [UInt32.toNat_toUInt8, UInt32.toNat_and, UInt32.toNat_shiftRight]
    rfl
  rw [hbits, Nat.mod_eq_of_lt hk, and_mask, Nat.mod_mod, Nat.shiftRight_eq_div_pow]

theorem writeFields_eq (exp : Nat) (m : UInt32) (negative : Bool) :
    (writeFields exp m negative).map UInt8.toNat =
      [0, 0, 0, m.toNat * 2 ^ 5 % 2 ^ 8, m.toNat / 2 ^ 3 % 2 ^ 8, m.toNat / 2 ^ 11 % 2 ^ 8,
        exp % 2 ^ 4 * 2 ^ 4 + m.toNat / 2 ^ 19 % 2 ^ 4,
        exp / 2 ^ 4 % 2 ^ 7 + negative.toNat * 2 ^ 7] := by
  have h3 : (UInt32.toUInt8 ((m <<< 5) &&& 0xff)).toNat = m.toNat * 2 ^ 5 % 2 ^ 8 := by
    have hbits : (UInt32.toUInt8 ((m <<< 5) &&& 0xff)).toNat =
        (m.toNat <<< 5 % 2 ^ 32 &&& (2 ^ 8 - 1)) % 2 ^ 8 := by
      rw [UInt32.toNat_toUInt8, UInt32.toNat_and, UInt32.toNat_shiftLeft]
      rfl
    rw [hbits, and_mask, Nat.shiftLeft_eq]
    omega
  have h6 : (UInt8.ofNat ((exp <<< 4) &&& 0xF0) |||
      UInt32.toUInt8 ((m >>> 19) &&& 0x0F)).toNat =
        exp % 2 ^ 4 * 2 ^ 4 + m.toNat / 2 ^ 19 % 2 ^ 4 := by
    have hbits : (UInt8.ofNat ((exp <<< 4) &&& 0xF0) |||
        UInt32.toUInt8 ((m >>> 19) &&& 0x0F)).toNat =
          ((exp <<< 4) &&& 0xF0) % 2 ^ 8 ||| (m.toNat >>> 19 &&& (2 ^ 4 - 1)) % 2 ^ 8 := by
      rw [UInt8.toNat_or, UInt8.toNat_ofNat', UInt32.toNat_toUInt8]
      rfl
    rw [hbits, and_mask_shift, and_mask, Nat.shiftRight_eq_div_pow, Nat.or_comm,
      Nat.mod_eq_of_lt (a := m.toNat / 2 ^ 19 % 2 ^ 4) (by omega),
      Nat.mod_eq_of_lt (a := exp % 2 ^ 4 * 2 ^ 4) (by omega), ← Nat.shiftLeft_eq,
      or_shiftLeft (by omega), Nat.add_comm]
    rw [Nat.shiftLeft_eq]
  have h7 : (UInt8.ofNat ((exp >>> 4) &&& 0x7F) ||| if negative then 0x80 else 0).toNat =
      exp / 2 ^ 4 % 2 ^ 7 + negative.toNat * 2 ^ 7 := by
    have hbits : (UInt8.ofNat ((exp >>> 4) &&& 0x7F) ||| if negative then 0x80 else 0).toNat =
        (exp >>> 4 &&& (2 ^ 7 - 1)) % 2 ^ 8 ||| negative.toNat <<< 7 := by
      rw [UInt8.toNat_or, UInt8.toNat_ofNat']
      cases negative <;> rfl
    rw [hbits, and_mask, Nat.shiftRight_eq_div_pow, Nat.mod_eq_of_lt (by omega),
      or_shiftLeft (by omega)]
  have h4 := mantissaByte_toNat m 3 (by decide)
  have h5 := mantissaByte_toNat m 11 (by decide)
  simp only [writeFields, List.map_cons, List.map_nil, h3, h4, h5, h6, h7]
  rfl

theorem writeFields_decode {m : UInt32} {exp : Nat} (he : exp < 2 ^ 11) (hm : m.toNat < 2 ^ 23)
    (negative : Bool) :
    LittleEndian.decode (writeFields exp m negative) =
      binary64.pack negative exp (m.toNat * 2 ^ 29) := by
  rw [LittleEndian.decode, writeFields_eq]
  simp only [Nat.ofDigits_cons, Nat.ofDigits_nil, Format.pack, binary64]
  omega
theorem readMantissa_toNat (b0 b1 b2 b3 b4 b5 b6 b7 : UInt8) :
    (readMantissa [b0, b1, b2, b3, b4, b5, b6, b7]).toNat =
      b3.toNat / 2 ^ 4 + b4.toNat * 2 ^ 4 + b5.toNat * 2 ^ 12 + b6.toNat % 2 ^ 4 * 2 ^ 20 := by
  have h3 := b3.toNat_lt
  have h4 := b4.toNat_lt
  have h5 := b5.toNat_lt
  have hbits : (readMantissa [b0, b1, b2, b3, b4, b5, b6, b7]).toNat =
      (b3.toNat >>> 4 &&& (2 ^ 4 - 1)) ||| (b4.toNat &&& (2 ^ 8 - 1)) <<< 4 % 2 ^ 32 |||
        (b5.toNat &&& (2 ^ 8 - 1)) <<< 12 % 2 ^ 32 |||
        (b6.toNat &&& (2 ^ 4 - 1)) <<< 20 % 2 ^ 32 := by
    simp [readMantissa, byteAt]
  rw [hbits]
  simp only [and_mask, Nat.shiftRight_eq_div_pow]
  rw [Nat.mod_eq_of_lt (a := (b4.toNat % 2 ^ 8) <<< 4) (by rw [Nat.shiftLeft_eq]; omega),
    Nat.mod_eq_of_lt (a := (b5.toNat % 2 ^ 8) <<< 12) (by rw [Nat.shiftLeft_eq]; omega),
    Nat.mod_eq_of_lt (a := (b6.toNat % 2 ^ 4) <<< 20) (by rw [Nat.shiftLeft_eq]; omega),
    or_shiftLeft (k := 4) (by omega), or_shiftLeft (k := 12) (by omega),
    or_shiftLeft (k := 20) (by omega)]
  omega

theorem readExp_eq (b0 b1 b2 b3 b4 b5 b6 b7 : UInt8) :
    readExp [b0, b1, b2, b3, b4, b5, b6, b7] =
      b6.toNat / 2 ^ 4 + b7.toNat % 2 ^ 7 * 2 ^ 4 := by
  have h6 := b6.toNat_lt
  have hbits : readExp [b0, b1, b2, b3, b4, b5, b6, b7] =
      (b6.toNat >>> 4 &&& (2 ^ 4 - 1)) ||| (b7.toNat &&& (2 ^ 7 - 1)) <<< 4 % 2 ^ 32 := by
    simp [readExp, byteAt, Nat.shiftRight_and_distrib]
  rw [hbits]
  simp only [and_mask, Nat.shiftRight_eq_div_pow]
  rw [Nat.mod_eq_of_lt (a := (b7.toNat % 2 ^ 7) <<< 4) (by rw [Nat.shiftLeft_eq]; omega),
    or_shiftLeft (k := 4) (by omega)]
  omega

/-- The sign bit, at its place in a `float`. -/
theorem readSign_toNat (b0 b1 b2 b3 b4 b5 b6 b7 : UInt8) :
    ((byteAt [b0, b1, b2, b3, b4, b5, b6, b7] 7 &&& 0x80) <<< 24).toNat =
      (decide (b7.toNat / 2 ^ 7 % 2 = 1)).toNat * 2 ^ 31 := by
  have hbits : ((byteAt [b0, b1, b2, b3, b4, b5, b6, b7] 7 &&& 0x80) <<< 24).toNat =
      (b7.toNat &&& 2 ^ 7) <<< 24 % 2 ^ 32 := by
    simp [byteAt]
  rw [hbits, and_bit, Nat.shiftLeft_eq]
  cases decide (b7.toNat / 2 ^ 7 % 2 = 1) <;> rfl

/-- What the demotion reads, as fields of the `double`. -/
theorem read_eq {inbuffer : List UInt8} (h : inbuffer.length = 8) :
    readExp inbuffer = binary64.exponent (LittleEndian.decode inbuffer) ∧
      (readMantissa inbuffer).toNat =
        binary64.fraction (LittleEndian.decode inbuffer) / 2 ^ 28 ∧
      ((byteAt inbuffer 7 &&& 0x80) <<< 24).toNat =
        (binary64.negative (LittleEndian.decode inbuffer)).toNat * 2 ^ 31 := by
  match inbuffer, h with
  | [b0, b1, b2, b3, b4, b5, b6, b7], _ =>
    have h0 := b0.toNat_lt
    have h1 := b1.toNat_lt
    have h2 := b2.toNat_lt
    have h3 := b3.toNat_lt
    have h4 := b4.toNat_lt
    have h5 := b5.toNat_lt
    have h6 := b6.toNat_lt
    have h7 := b7.toNat_lt
    have hnil : LittleEndian.decode [] = 0 := rfl
    rw [readExp_eq, readMantissa_toNat, readSign_toNat]
    simp only [LittleEndian.decode_cons, hnil, Format.exponent, Format.fraction,
      Format.magnitude, Format.negative, binary64]
    refine ⟨by omega, by omega, ?_⟩
    congr 2
    apply decide_eq_decide.mpr
    omega

/-! ## The loop -/

theorem and_bit_eq_zero_iff {m : UInt32} (h : m.toNat < 2 ^ 24) :
    m &&& 0x800000 = 0 ↔ m.toNat < 2 ^ 23 := by
  have hbits : (m &&& 0x800000).toNat = m.toNat &&& 2 ^ 23 := UInt32.toNat_and m 0x800000
  rw [← UInt32.toNat_inj, hbits, and_bit]
  show _ = 0 ↔ _
  by_cases hbit : m.toNat / 2 ^ 23 % 2 = 1
  · simp only [hbit, decide_true, Bool.toNat_true]
    omega
  · simp only [hbit, decide_false, Bool.toNat_false]
    omega

/-- The loop moves the highest bit to its place, with fuel for the distance. -/
theorem normalizeLoop_eq (d : Nat) : ∀ (exp : Nat) (m : UInt32), m.toNat < 2 ^ 24 →
    2 ^ 23 ≤ m.toNat * 2 ^ d →
    ∃ j ≤ d, ∃ m' : UInt32,
      m'.toNat = m.toNat * 2 ^ j ∧ 2 ^ 23 ≤ m'.toNat ∧ m'.toNat < 2 ^ 24 ∧
      ∀ fuel, d < fuel → normalizeLoop fuel exp m = some (exp - j, m') := by
  induction d with
  | zero =>
    intro exp m hlt hge
    refine ⟨0, Nat.le_refl 0, m, by simp, by simpa using hge, hlt, ?_⟩
    intro fuel hfuel
    obtain ⟨fuel, rfl⟩ := Nat.exists_eq_succ_of_ne_zero (Nat.pos_iff_ne_zero.mp hfuel)
    rw [normalizeLoop, if_neg]
    · rfl
    · rw [and_bit_eq_zero_iff hlt]
      omega
  | succ d ih =>
    intro exp m hlt hge
    by_cases hset : m.toNat < 2 ^ 23
    · have hdouble : (m <<< 1).toNat = m.toNat * 2 := by
        rw [UInt32.toNat_shiftLeft]
        show m.toNat <<< 1 % 2 ^ 32 = _
        rw [Nat.shiftLeft_eq]
        omega
      obtain ⟨j, hj, m', hm', hlow, hhigh, hloop⟩ := ih (exp - 1) (m <<< 1) (by omega)
        (by rw [hdouble, Nat.mul_assoc, ← Nat.pow_succ']; exact hge)
      refine ⟨j + 1, by omega, m', ?_, hlow, hhigh, ?_⟩
      · rw [hm', hdouble, Nat.pow_succ', Nat.mul_assoc]
      · intro fuel hfuel
        obtain ⟨fuel, rfl⟩ := Nat.exists_eq_succ_of_ne_zero (n := fuel) (by omega)
        rw [normalizeLoop, if_pos ((and_bit_eq_zero_iff hlt).mpr hset), hloop fuel (by omega),
          Nat.sub_sub, Nat.add_comm 1]
    · refine ⟨0, Nat.zero_le _, m, by simp, by omega, hlt, ?_⟩
      intro fuel hfuel
      obtain ⟨fuel, rfl⟩ := Nat.exists_eq_succ_of_ne_zero (n := fuel) (by omega)
      rw [normalizeLoop, if_neg]
      · rfl
      · rw [and_bit_eq_zero_iff hlt]
        omega

/-! ## The fields of the demoted number -/

theorem roundOff_toNat {m : UInt32} (h : m.toNat < 2 ^ 24) :
    (roundOff m).toNat = if m.toNat = 2 ^ 24 - 1 then 2 ^ 23 - 1 else (m.toNat + 1) / 2 := by
  have hiff : m ≠ 0xFFFFFF ↔ ¬m.toNat = 2 ^ 24 - 1 := by
    rw [← UInt32.toNat_inj.ne]
    rfl
  rw [roundOff, UInt32.toNat_shiftRight]
  show _ >>> 1 = _
  rw [Nat.shiftRight_eq_div_pow]
  split
  next hne =>
    rw [if_neg (hiff.mp hne), UInt32.toNat_add]
    show (m.toNat + 1) % 2 ^ 32 / 2 ^ 1 = _
    omega
  next heq =>
    have hm : m.toNat = 2 ^ 24 - 1 := by
      by_contra hne
      exact heq (hiff.mpr hne)
    rw [if_pos hm, hm]
    rfl

/-- Rounding moves a mantissa by less than one. -/
theorem roundOff_bounds {m : UInt32} (h : m.toNat < 2 ^ 24) :
    (roundOff m).toNat < 2 ^ 23 ∧ 2 * (roundOff m).toNat ≤ m.toNat + 1 ∧
      m.toNat ≤ 2 * (roundOff m).toNat + 1 := by
  rw [roundOff_toNat h]
  split <;> omega

theorem roundOff_eq_zero_iff {m : UInt32} (h : m.toNat < 2 ^ 24) :
    (roundOff m).toNat = 0 ↔ m.toNat = 0 := by
  rw [roundOff_toNat h]
  split <;> omega

theorem roundOff_le_one_iff {m : UInt32} (h : m.toNat < 2 ^ 24) :
    (roundOff m).toNat ≤ 1 ↔ m.toNat ≤ 2 := by
  rw [roundOff_toNat h]
  split <;> omega

/-- Rounding keeps the order. -/
theorem roundOff_mono {m m' : UInt32} (h' : m'.toNat < 2 ^ 24) (hle : m.toNat ≤ m'.toNat) :
    (roundOff m).toNat ≤ (roundOff m').toNat := by
  rw [roundOff_toNat (Nat.lt_of_le_of_lt hle h'), roundOff_toNat h']
  split <;> split <;> omega

/-- The mantissa of a number that is subnormal as a `float`. -/
theorem subnormal_toNat {m : UInt32} {exp : Nat} (hm : m.toNat < 2 ^ 24) (hlow : 873 ≤ exp)
    (hhigh : exp ≤ 896) :
    ((m ||| 0x1000000) >>> UInt32.ofNat (897 - exp)).toNat =
      (2 ^ 24 + m.toNat) / 2 ^ (897 - exp) := by
  have hor : (m ||| 0x1000000).toNat = 2 ^ 24 + m.toNat := by
    rw [UInt32.toNat_or]
    show m.toNat ||| 1 <<< 24 = _
    rw [or_shiftLeft hm, Nat.one_mul, Nat.add_comm]
  have hshift : (UInt32.ofNat (897 - exp)).toNat % 32 = 897 - exp := by
    rw [UInt32.toNat_ofNat']
    omega
  rw [UInt32.toNat_shiftRight, hor, hshift, Nat.shiftRight_eq_div_pow]

/-- The bounds of the demoted fields. -/
theorem demote_bounds {m : UInt32} {exp : Nat} (hm : m.toNat < 2 ^ 24) (hexp : exp < 2 ^ 11) :
    (demote exp m).1 < 2 ^ 8 ∧ (demote exp m).2.toNat < 2 ^ 24 := by
  unfold demote
  split
  next => exact ⟨by simp, hm⟩
  next hspecial =>
    split
    next => exact ⟨by decide, by decide⟩
    next hlarge =>
      split
      next hnormal => exact ⟨by omega, hm⟩
      next hsmall =>
        split
        next => exact ⟨by simp, hm⟩
        next htiny =>
          refine ⟨by simp, ?_⟩
          rw [subnormal_toNat hm (by omega) (by omega),
            Nat.div_lt_iff_lt_mul (Nat.two_pow_pos _)]
          have hpow : 2 ^ 1 ≤ 2 ^ (897 - exp) := Nat.pow_le_pow_right (by decide) (by omega)
          omega

/-- The demotion gives the sign of the `double`, and the demoted fields. -/
theorem deserializeAvrFloat64_toNat {inbuffer : List UInt8} (h : inbuffer.length = 8) :
    let p := LittleEndian.decode inbuffer
    let parts := demote (binary64.exponent p) (readMantissa inbuffer)
    (deserializeAvrFloat64 inbuffer).toNat =
      binary32.pack (binary64.negative p) parts.1 (roundOff parts.2).toNat := by
  intro p parts
  obtain ⟨hexp, hmantissa, hsign⟩ := read_eq h
  have hbounds : parts.1 < 2 ^ 8 ∧ parts.2.toNat < 2 ^ 24 := by
    apply demote_bounds
    · rw [hmantissa]
      have := fraction_lt (F := binary64) p
      exact (Nat.div_lt_iff_lt_mul (by decide)).mpr this
    · exact Nat.lt_succ_of_le (exponent_le p)
  have hround := (roundOff_bounds hbounds.2).1
  have hplace : (UInt32.ofNat parts.1 <<< 23).toNat = parts.1 <<< 23 := by
    rw [UInt32.toNat_shiftLeft, UInt32.toNat_ofNat']
    show (parts.1 % 2 ^ 32) <<< 23 % 2 ^ 32 = _
    rw [Nat.shiftLeft_eq, Nat.shiftLeft_eq]
    omega
  have hval : (deserializeAvrFloat64 inbuffer).toNat =
      (roundOff parts.2).toNat ||| parts.1 <<< 23 |||
        (binary64.negative p).toNat <<< 31 := by
    rw [Nat.shiftLeft_eq _ 31, ← hsign, ← hplace, ← UInt32.toNat_or, ← UInt32.toNat_or]
    show (roundOff (demote (readExp inbuffer) (readMantissa inbuffer)).2 |||
      UInt32.ofNat (demote (readExp inbuffer) (readMantissa inbuffer)).1 <<< 23 ||| _).toNat = _
    rw [hexp]
  rw [hval, or_shiftLeft hround, or_shiftLeft (by omega)]
  show _ = (binary64.negative p).toNat * 2 ^ (23 + 8) + (parts.1 * 2 ^ 23 + _)
  omega

/-! ## Promotion -/

/-- The fields that a `float` is promoted to, by kind. -/
inductive Promoted : Nat → Nat → Nat → Nat → Prop
  | special (mantissa : Nat) : Promoted 255 mantissa 2047 mantissa
  | normal {exp : Nat} (mantissa : Nat) (hpos : 0 < exp) (hlt : exp < 255) :
      Promoted exp mantissa (exp + 896) mantissa
  | zero : Promoted 0 0 0 0
  | subnormal {mantissa mantissa' j : Nat} (hj : j ≤ 22)
      (hshift : 2 ^ 23 + mantissa' = mantissa * 2 ^ (j + 1)) :
      Promoted 0 mantissa (896 - j) mantissa'

theorem readFloat_eq (f : UInt32) :
    ((f >>> 23) &&& 255).toNat = binary32.exponent f.toNat ∧
      (f &&& 0x7FFFFF).toNat = binary32.fraction f.toNat := by
  have hexp : ((f >>> 23) &&& 255).toNat = f.toNat >>> 23 &&& (2 ^ 8 - 1) := by
    rw [UInt32.toNat_and, UInt32.toNat_shiftRight]
    rfl
  have hmantissa : (f &&& 0x7FFFFF).toNat = f.toNat &&& (2 ^ 23 - 1) :=
    UInt32.toNat_and f 0x7FFFFF
  rw [hexp, hmantissa, and_mask, and_mask, Nat.shiftRight_eq_div_pow]
  simp only [Format.exponent, Format.fraction, Format.magnitude, binary32]
  omega

/-- Promotion ends, and gives the fields of its kind. -/
theorem promote_eq {exp : Nat} {mantissa : UInt32} (hexp : exp ≤ 255)
    (hmantissa : mantissa.toNat < 2 ^ 23) :
    ∃ exp' mantissa',
      (∀ fuel, 23 ≤ fuel → promote fuel exp mantissa = some (exp', mantissa')) ∧
      mantissa'.toNat < 2 ^ 23 ∧ Promoted exp mantissa.toNat exp' mantissa'.toNat := by
  by_cases hspecial : exp = 255
  · refine ⟨2047, mantissa, ?_, hmantissa, ?_⟩
    · intro fuel _
      rw [promote, if_pos hspecial]
    · rw [hspecial]
      exact Promoted.special _
  by_cases hnormal : exp ≠ 0
  · refine ⟨exp + 896, mantissa, ?_, hmantissa, Promoted.normal _ (by omega) (by omega)⟩
    intro fuel _
    rw [promote, if_neg hspecial, if_pos hnormal]
  have hexp0 : exp = 0 := by omega
  subst hexp0
  by_cases hzero : mantissa = 0
  · subst hzero
    exact ⟨0, 0, fun _ _ => rfl, hmantissa, Promoted.zero⟩
  · have hpos : 0 < mantissa.toNat := by
      apply Nat.pos_of_ne_zero
      intro h
      exact hzero (UInt32.toNat_inj.mp h)
    have hdouble : (mantissa <<< 1).toNat = mantissa.toNat * 2 := by
      rw [UInt32.toNat_shiftLeft]
      show mantissa.toNat <<< 1 % 2 ^ 32 = _
      rw [Nat.shiftLeft_eq]
      omega
    obtain ⟨j, hj, m, hm, hlow, hhigh, hloop⟩ :=
      normalizeLoop_eq 22 896 (mantissa <<< 1) (by omega) (by omega)
    have hmask : (m &&& 0x7FFFFF).toNat = m.toNat - 2 ^ 23 := by
      have hbits : (m &&& 0x7FFFFF).toNat = m.toNat &&& (2 ^ 23 - 1) :=
        UInt32.toNat_and m 0x7FFFFF
      rw [hbits, and_mask]
      omega
    refine ⟨896 - j, m &&& 0x7FFFFF, ?_, by omega, Promoted.subnormal hj ?_⟩
    · intro fuel hfuel
      rw [promote, if_neg hspecial, if_neg hnormal, if_neg hzero]
      show (normalizeLoop fuel 896 (mantissa <<< 1)).bind _ = _
      rw [hloop fuel (by omega)]
      rfl
    · have hmoved : mantissa.toNat * 2 ^ (j + 1) = m.toNat := by
        rw [hm, hdouble, Nat.pow_succ', Nat.mul_assoc]
      rw [hmask, hmoved]
      omega

section Promoted

variable {exp mantissa exp' mantissa' : Nat}

theorem Promoted.exp_lt (h : Promoted exp mantissa exp' mantissa') : exp' < 2 ^ 11 := by
  cases h <;> omega

theorem Promoted.exp_lt_special (h : Promoted exp mantissa exp' mantissa') (hfinite : exp ≠ 255) :
    exp' < 2047 := by
  cases h with
  | special => exact absurd rfl hfinite
  | normal _ _ hlt => omega
  | zero => omega
  | subnormal => omega

/-- The demotion of a promoted number. -/
theorem Promoted.demote {m : UInt32} (h : Promoted exp mantissa exp' mantissa')
    (hm : m.toNat = 2 * mantissa') (hlt : mantissa < 2 ^ 23) (hlt' : mantissa' < 2 ^ 23) :
    (demote exp' m).1 = exp ∧ (roundOff (demote exp' m).2).toNat = mantissa := by
  have hround : ∀ {m : UInt32}, m.toNat = 2 * mantissa → (roundOff m).toNat = mantissa := by
    intro m hm
    rw [roundOff_toNat (by omega), if_neg (by omega)]
    omega
  cases h with
  | special => exact ⟨rfl, hround hm⟩
  | normal _ hpos hlt =>
    rw [Msg.demote, if_neg (by omega), if_neg (by omega), if_pos (by omega)]
    exact ⟨by simp, hround hm⟩
  | zero => exact ⟨rfl, hround hm⟩
  | @subnormal _ _ j hj hshift =>
    rw [Msg.demote, if_neg (by omega), if_neg (by omega), if_neg (by omega),
      if_neg (by omega)]
    refine ⟨rfl, hround ?_⟩
    have hback : 897 - (896 - j) = j + 1 := by omega
    have hunits : 2 ^ 24 + m.toNat = 2 * mantissa * 2 ^ (j + 1) := by
      rw [Nat.mul_assoc, ← hshift, hm]
      omega
    have hpow : 2 ^ (j + 1) ≤ 2 ^ 23 := Nat.pow_le_pow_right (by decide) (by omega)
    rw [subnormal_toNat (by omega) (by omega) (by omega), hback, hunits,
      Nat.mul_div_cancel _ (Nat.two_pow_pos _)]

/-- A promoted number has the value that it had.  The exponent is a variable, so that the
power of two is never computed. -/
theorem Promoted.units {k : Nat} (hk : k = 925) (h : Promoted exp mantissa exp' mantissa')
    (hfinite : exp ≠ 255) (hlt : mantissa < 2 ^ 23) (hlt' : mantissa' < 2 ^ 23) :
    binary64.units (exp' * 2 ^ 52 + mantissa' * 2 ^ 29) =
      binary32.units (exp * 2 ^ 23 + mantissa) * 2 ^ k := by
  have hunits64 : ∀ e, binary64.units ((e + 1) * 2 ^ 52 + mantissa' * 2 ^ 29) =
      (2 ^ 23 + mantissa') * 2 ^ (29 + e) := by
    intro e
    have hfraction : mantissa' * 2 ^ 29 < 2 ^ 52 := by omega
    have hsignificand : 2 ^ 52 + mantissa' * 2 ^ 29 = (2 ^ 23 + mantissa') * 2 ^ 29 := by omega
    have hadd : binary64.units ((e + 1) * 2 ^ 52 + mantissa' * 2 ^ 29) =
        (2 ^ 52 + mantissa' * 2 ^ 29) * 2 ^ e := units_add (F := binary64) hfraction
    rw [hadd, hsignificand, Nat.mul_assoc, ← Nat.pow_add]
  cases h with
  | special => exact absurd rfl hfinite
  | @normal exp _ hpos hlt255 =>
    have hexp : exp + 896 = (exp - 1 + 896) + 1 := by omega
    have hexp32 : exp = exp - 1 + 1 := by omega
    have hpow : 29 + (exp - 1 + 896) = exp - 1 + k := by rw [hk, Nat.add_left_comm]
    have hunits32 : binary32.units ((exp - 1 + 1) * 2 ^ 23 + mantissa) =
        (2 ^ 23 + mantissa) * 2 ^ (exp - 1) := units_add (F := binary32) hlt
    rw [← hexp32] at hunits32
    rw [hexp, hunits64, hpow, hunits32, Nat.mul_assoc, Nat.pow_add]
  | zero => rw [Nat.zero_mul, Nat.zero_mul, Nat.zero_mul, Nat.add_zero, units_zero, units_zero,
      Nat.zero_mul]
  | @subnormal _ _ j hj hshift =>
    have hexp : 896 - j = (895 - j) + 1 := by omega
    have hpow : j + 1 + (29 + (895 - j)) = k := by omega
    rw [hexp, hunits64, hshift, Nat.mul_assoc, ← Nat.pow_add, hpow, Nat.zero_mul, Nat.zero_add,
      units_of_subnormal hlt]

end Promoted

/-! ## The round trip -/

theorem quantum_eq : binary32.quantum = 2 ^ 925 * binary64.quantum := by
  have hexp : 1 - (binary32.bias : ℤ) - binary32.fractionBits =
      925 + (1 - (binary64.bias : ℤ) - binary64.fractionBits) := by
    decide
  rw [Format.quantum, Format.quantum, hexp, zpow_add₀ (by norm_num)]
  rfl

/-- Promotion keeps what a pattern stands for. -/
theorem Promoted.decode {exp mantissa exp' mantissa' : Nat}
    (h : Promoted exp mantissa exp' mantissa') (hexp : exp < 2 ^ 8) (hlt : mantissa < 2 ^ 23)
    (hlt' : mantissa' < 2 ^ 23) (negative : Bool) :
    binary64.decode (binary64.pack negative exp' (mantissa' * 2 ^ 29)) =
      binary32.decode (binary32.pack negative exp mantissa) := by
  have hfraction : mantissa' * 2 ^ 29 < 2 ^ binary64.fractionBits := by
    show _ < 2 ^ 52
    omega
  have hexp' : exp' < 2 ^ binary64.exponentBits := h.exp_lt
  have hmagnitude : binary32.magnitude (binary32.pack negative exp mantissa) =
      exp * 2 ^ 23 + mantissa := magnitude_pack (F := binary32) hexp hlt
  have hmagnitude' : binary64.magnitude (binary64.pack negative exp' (mantissa' * 2 ^ 29)) =
      exp' * 2 ^ 52 + mantissa' * 2 ^ 29 := magnitude_pack hexp' hfraction
  by_cases hspecial : exp = 255
  · subst hspecial
    cases h with
    | special =>
      have hzero : mantissa * 2 ^ 29 = 0 ↔ mantissa = 0 := by omega
      have hspecial : binary32.special = 255 := rfl
      have hspecial' : binary64.special = 2047 := rfl
      rw [Format.decode, Format.decode, exponent_pack hexp' hfraction,
        fraction_pack hexp' hfraction, negative_pack hexp' hfraction,
        exponent_pack (F := binary32) hexp hlt, fraction_pack (F := binary32) hexp hlt,
        negative_pack (F := binary32) hexp hlt, hspecial, hspecial', if_pos rfl, if_pos rfl]
      simp only [hzero]
    | normal _ _ hlt255 => exact absurd hlt255 (Nat.lt_irrefl 255)
  · apply decode_eq_decode
    · rw [hmagnitude]
      exact lt_special (F := binary32) (Nat.lt_of_le_of_ne (Nat.le_of_lt_succ hexp) hspecial) hlt
    · rw [hmagnitude']
      exact lt_special (F := binary64) (h.exp_lt_special hspecial) hfraction
    · exact quantum_eq
    · rw [hmagnitude, hmagnitude']
      exact h.units rfl hspecial hlt hlt'
    · intro _
      rw [negative_pack hexp' hfraction]
      exact (negative_pack (F := binary32) hexp hlt).symm

/-- A promoted number is read back with the fields that it had. -/
theorem Promoted.deserialize {exp mantissa exp' : Nat} {mantissa' : UInt32}
    (h : Promoted exp mantissa exp' mantissa'.toNat) (hlt : mantissa < 2 ^ 23)
    (hlt' : mantissa'.toNat < 2 ^ 23) (negative : Bool) :
    (deserializeAvrFloat64 (writeFields exp' mantissa' negative)).toNat =
      binary32.pack negative exp mantissa := by
  have hfraction : mantissa'.toNat * 2 ^ 29 < 2 ^ binary64.fractionBits := by
    show _ < 2 ^ 52
    omega
  have hexp' : exp' < 2 ^ binary64.exponentBits := h.exp_lt
  have hlength : (writeFields exp' mantissa' negative).length = 8 := rfl
  have hmantissa := (read_eq hlength).2.1
  have hdouble : mantissa'.toNat * 2 ^ 29 / 2 ^ 28 = 2 * mantissa'.toNat := by omega
  rw [writeFields_decode h.exp_lt hlt', fraction_pack hexp' hfraction, hdouble] at hmantissa
  obtain ⟨hdemote, hround⟩ := h.demote hmantissa hlt hlt'
  have hread := deserializeAvrFloat64_toNat hlength
  simp only [writeFields_decode h.exp_lt hlt', exponent_pack hexp' hfraction,
    negative_pack hexp' hfraction, hdemote, hround] at hread
  exact hread

/-- Every `float` is written as the `double` of the same value, after at most 23 tests of the
loop, and read back with the same value. -/
theorem serializeAvrFloat64_roundTrip (f : UInt32) :
    ∃ bytes, (∀ fuel, 23 ≤ fuel → serializeAvrFloat64 fuel f = some bytes) ∧
      bytes.length = 8 ∧
      binary64.decode (LittleEndian.decode bytes) = binary32.decode f.toNat ∧
      binary32.decode (deserializeAvrFloat64 bytes).toNat = binary32.decode f.toNat := by
  have hlt : binary32.fraction f.toNat < 2 ^ 23 := fraction_lt _
  have hexp : binary32.exponent f.toNat < 2 ^ 8 := Nat.lt_succ_of_le (exponent_le _)
  obtain ⟨hreadExp, hreadMantissa⟩ := readFloat_eq f
  rw [← hreadMantissa] at hlt
  obtain ⟨exp', mantissa', hpromote, hlt', hfields⟩ :=
    promote_eq (Nat.le_of_lt_succ hexp) hlt
  rw [hreadMantissa] at hlt hfields
  refine ⟨writeFields exp' mantissa' (binary32.decode f.toNat).lessThanZero, ?_, rfl, ?_, ?_⟩
  · intro fuel hfuel
    rw [serializeAvrFloat64, hreadExp, hpromote fuel hfuel]
    rfl
  · rw [writeFields_decode hfields.exp_lt hlt', hfields.decode hexp hlt hlt']
    exact decode_pack_lessThanZero f.toNat
  · rw [hfields.deserialize hlt hlt']
    exact decode_pack_lessThanZero f.toNat

end Ros2Serial.Device.Msg
