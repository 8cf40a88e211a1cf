import Mathlib.Data.Nat.Digits.Defs
import Mathlib.Tactic.Common

/-!
# Little-endian numbers of any width

`encode k n` is the object representation of an unsigned `k`-byte number on
a little-endian machine, and `decode` reads a byte list of any length back.
The width is an argument, so one pair of lemmas serves every integer and
floating-point width of a wire format.
-/

namespace Ros2Serial.LittleEndian

/-- The `k` low bytes of `n`, least significant first. -/
def encode : Nat → Nat → List UInt8
  | 0, _ => []
  | k + 1, n => UInt8.ofNat n :: encode k (n / 256)

/-- The number whose base-256 digits, least significant first, are `bytes`. -/
def decode (bytes : List UInt8) : Nat := Nat.ofDigits 256 (bytes.map UInt8.toNat)

@[simp] theorem encode_length (k n : Nat) : (encode k n).length = k := by
  induction k generalizing n with
  | zero => rfl
  | succ k ih => simp [encode, ih]

theorem decode_cons (b : UInt8) (bytes : List UInt8) :
    decode (b :: bytes) = b.toNat + 256 * decode bytes := by
  simp [decode, Nat.ofDigits_cons]

/-- A `k`-byte number reads back as itself. -/
theorem decode_encode {k n : Nat} (h : n < 256 ^ k) : decode (encode k n) = n := by
  induction k generalizing n with
  | zero =>
    have hn : n = 0 := by simpa using h
    simp [encode, decode, hn]
  | succ k ih =>
    have hk : n / 256 < 256 ^ k := by
      rw [Nat.div_lt_iff_lt_mul (by decide), ← Nat.pow_succ]
      exact h
    have hb : (UInt8.ofNat n).toNat = n % 256 := UInt8.toNat_ofNat'
    rw [encode, decode_cons, ih hk, hb]
    omega

/-- Bytes are the representation of the number that they read as. -/
theorem encode_decode (bytes : List UInt8) : encode bytes.length (decode bytes) = bytes := by
  induction bytes with
  | nil => rfl
  | cons b rest ih =>
    have hb := b.toNat_lt
    have hmod : (b.toNat + 256 * decode rest) % 256 = b.toNat := by omega
    have hdiv : (b.toNat + 256 * decode rest) / 256 = decode rest := by omega
    have hfirst : UInt8.ofNat (b.toNat + 256 * decode rest) = b := by
      apply UInt8.toNat_inj.mp
      rw [UInt8.toNat_ofNat']
      exact hmod
    rw [List.length_cons, decode_cons, encode, hfirst, hdiv, ih]

/-- The bytes bound the number. -/
theorem decode_lt (bytes : List UInt8) : decode bytes < 256 ^ bytes.length := by
  induction bytes with
  | nil => exact Nat.one_pos
  | cons b rest ih =>
    have hb := b.toNat_lt
    rw [List.length_cons, decode_cons, Nat.pow_succ]
    omega

end Ros2Serial.LittleEndian
