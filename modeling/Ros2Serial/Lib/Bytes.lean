import Mathlib.Algebra.Ring.Int.Defs
import Mathlib.Algebra.Ring.Nat
import Mathlib.Data.List.Basic
import Mathlib.Tactic.Common

/-!
# Byte memory: slices, overwrites and byte sums

The vocabulary of a program that keeps its data in a fixed array of bytes:
`slice` reads a range, `overwrite` is `memcpy` into a range, and `byteSum`
is the sum that a checksum takes modulo 256.

`slice` and `overwrite` are over an arbitrary element type.  The lemmas
answer the two questions that every later proof asks of a write: what is
read back in the range that was written, and what is unchanged outside it.
-/

namespace Ros2Serial.Bytes

section Memory

variable {α : Type}

/-- The `n` cells of `mem` from `start`. -/
def slice (mem : List α) (start n : Nat) : List α := (mem.drop start).take n

/-- `mem` with the cells from `start` replaced by `cells`.  The length is kept
when the range lies inside `mem`. -/
def overwrite (mem : List α) (start : Nat) (cells : List α) : List α :=
  mem.take start ++ cells ++ mem.drop (start + cells.length)

theorem slice_length {mem : List α} {start n : Nat} (h : start + n ≤ mem.length) :
    (slice mem start n).length = n := by
  simp only [slice, List.length_take, List.length_drop]
  omega

@[simp] theorem slice_zero (mem : List α) (start : Nat) : slice mem start 0 = [] := by
  simp [slice]

/-- A slice splits at any point inside it. -/
theorem slice_add (mem : List α) (start m n : Nat) :
    slice mem start (m + n) = slice mem start m ++ slice mem (start + m) n := by
  simp only [slice, List.take_add, List.drop_drop]

/-- A slice starts with every shorter one. -/
theorem take_slice (mem : List α) (start : Nat) {m n : Nat} (h : m ≤ n) :
    (slice mem start n).take m = slice mem start m := by
  simp [slice, List.take_take, h]

theorem getElem?_slice (mem : List α) (start : Nat) {n i : Nat} (h : i < n) :
    (slice mem start n)[i]? = mem[start + i]? := by
  simp [slice, h]

/-- Two memories that agree on a range have the same slice there. -/
theorem slice_congr {mem mem' : List α} {start n : Nat}
    (h : ∀ i, start ≤ i → i < start + n → mem[i]? = mem'[i]?) :
    slice mem start n = slice mem' start n := by
  refine List.ext_getElem? fun i => ?_
  rcases Nat.lt_or_ge i n with hi | hi
  · rw [getElem?_slice _ _ hi, getElem?_slice _ _ hi]
    exact h _ (by omega) (by omega)
  · rw [List.getElem?_eq_none (by simp [slice]; omega),
      List.getElem?_eq_none (by simp [slice]; omega)]

theorem overwrite_length {mem cells : List α} {start : Nat}
    (h : start + cells.length ≤ mem.length) :
    (overwrite mem start cells).length = mem.length := by
  simp only [overwrite, List.length_append, List.length_take, List.length_drop]
  omega

/-- Bytes that are written past the end make the memory longer. -/
theorem le_overwrite_length (mem : List α) (start : Nat) (cells : List α) :
    mem.length ≤ (overwrite mem start cells).length := by
  simp only [overwrite, List.length_append, List.length_take, List.length_drop]
  omega

@[simp] theorem overwrite_nil (mem : List α) (start : Nat) : overwrite mem start [] = mem := by
  simp [overwrite]

/-- The range that was written reads back what was written. -/
theorem slice_overwrite_self {mem cells : List α} {start : Nat} (h : start ≤ mem.length) :
    slice (overwrite mem start cells) start cells.length = cells := by
  have hlen : (mem.take start).length = start := by simp [h]
  rw [slice, overwrite, List.append_assoc, List.drop_append_of_le_length (by omega),
    List.drop_eq_nil_of_le (by omega), List.nil_append, List.take_left]

/-- A cell outside the range that was written is unchanged. -/
theorem getElem?_overwrite_outside {mem cells : List α} {start i : Nat}
    (h : start ≤ mem.length) (hi : i < start ∨ start + cells.length ≤ i) :
    (overwrite mem start cells)[i]? = mem[i]? := by
  have hlen : (mem.take start).length = start := by simp [h]
  rcases hi with hi | hi
  · rw [overwrite, List.append_assoc, List.getElem?_append_left (by omega),
      List.getElem?_take, if_pos hi]
  · rw [overwrite, List.getElem?_append_right (by simp; omega), List.getElem?_drop]
    congr 1
    simp
    omega

/-- A slice that does not meet the written range is unchanged. -/
theorem slice_overwrite_outside {mem cells : List α} {start from' n : Nat}
    (h : start ≤ mem.length) (hd : from' + n ≤ start ∨ start + cells.length ≤ from') :
    slice (overwrite mem start cells) from' n = slice mem from' n :=
  slice_congr fun i h1 h2 => getElem?_overwrite_outside h (by omega)

theorem flatten_split {chunks : List (List α)} {i : Nat} (hi : i < chunks.length) :
    chunks.flatten =
      (chunks.take i).flatten ++ (chunks[i] ++ (chunks.drop (i + 1)).flatten) := by
  conv_lhs => rw [← List.take_append_drop i chunks]
  rw [List.flatten_append, List.drop_eq_getElem_cons hi, List.flatten_cons]

/-- The parts of a stream, cut where its chunks end, are the chunks. -/
theorem slice_flatten {chunks : List (List α)} {i : Nat} (rest : List α)
    (hi : i < chunks.length) :
    slice (chunks.flatten ++ rest) ((chunks.map List.length).take i).sum chunks[i].length =
      chunks[i] := by
  have hstart : ((chunks.map List.length).take i).sum = (chunks.take i).flatten.length := by
    rw [List.length_flatten, List.map_take]
  rw [flatten_split hi, hstart, slice, List.append_assoc, List.append_assoc, List.drop_left,
    List.take_left]

end Memory

/-! ## Byte sums -/

/-- The sum of the bytes, as a number. -/
def byteSum (bytes : List UInt8) : Nat := (bytes.map UInt8.toNat).sum

@[simp] theorem byteSum_nil : byteSum [] = 0 := rfl

@[simp] theorem byteSum_cons (b : UInt8) (bytes : List UInt8) :
    byteSum (b :: bytes) = b.toNat + byteSum bytes := by
  simp [byteSum]

@[simp] theorem byteSum_append (xs ys : List UInt8) :
    byteSum (xs ++ ys) = byteSum xs + byteSum ys := by
  simp [byteSum]

/-- The sum of `n` bytes is at most `255 * n`. -/
theorem byteSum_le (bytes : List UInt8) : byteSum bytes ≤ 255 * bytes.length := by
  induction bytes with
  | nil => simp
  | cons b rest ih =>
    have hb : b.toNat < 256 := b.toNat_lt
    simp only [byteSum_cons, List.length_cons]
    omega

end Ros2Serial.Bytes
