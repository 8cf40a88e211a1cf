import Mathlib.Data.List.Basic
import Mathlib.Data.List.Range
import Ros2Serial.Lib.Bytes

/-!
# Rings of cells

An array whose first cell comes behind its last one.

* `ringSlice` reads around the end, and `ringPut` is `memcpy` around it, in two parts.
* `distance` counts the cells from one position to another.  A cell has been written
  if its distance is below the number of cells that were written
  (`getD_ringPut`).
* What was put is read back (`ringSlice_ringPut_self`), and a slice is unchanged if
  none of its cells is (`ringSlice_congr`).
* `Lapped` is the ring of a writer that does not wait for anybody: it has the last
  cells of the stream that was written, one in each position.
-/

namespace Ros2Serial.Bytes

variable {α : Type} {mem cells : List α} {start n p : Nat}

/-! ## Distances -/

/-- How many cells lie from one position to another. -/
def distance (size start p : Nat) : Nat := (p + size - start) % size

/-- The cell at a distance. -/
theorem add_distance {size : Nat} (hstart : start < size) (hp : p < size) :
    (start + distance size start p) % size = p := by
  unfold distance
  rw [Nat.add_mod_mod]
  have hsum : start + (p + size - start) = p + size := by omega
  rw [hsum, Nat.add_mod_right, Nat.mod_eq_of_lt hp]

/-- The distance of a cell. -/
theorem distance_add {size k : Nat} (hstart : start < size) (hk : k < size) :
    distance size start ((start + k) % size) = k := by
  unfold distance
  rcases Nat.lt_or_ge (start + k) size with hlt | hge
  · rw [Nat.mod_eq_of_lt hlt]
    have hsum : start + k + size - start = k + size := by omega
    rw [hsum, Nat.add_mod_right, Nat.mod_eq_of_lt hk]
  · have hwrap : (start + k) % size = start + k - size := by
      rw [Nat.mod_eq_sub_mod hge, Nat.mod_eq_of_lt (by omega)]
    have hsum : start + k - size + size - start = k := by omega
    rw [hwrap, hsum, Nat.mod_eq_of_lt hk]

/-! ## Slices and writes -/

/-- The cells are written from `start`, around the end.  There are no more of them than the
array has. -/
def ringPut (mem : List α) (start : Nat) (cells : List α) : List α :=
  let tail := min cells.length (mem.length - start)
  overwrite (overwrite mem start (cells.take tail)) 0 (cells.drop tail)

theorem ringPut_length (hstart : start ≤ mem.length) (h : cells.length ≤ mem.length) :
    (ringPut mem start cells).length = mem.length := by
  have hfirst : (overwrite mem start (cells.take (min cells.length (mem.length - start)))).length =
      mem.length := overwrite_length (by rw [List.length_take]; omega)
  unfold ringPut
  rw [overwrite_length]
  · exact hfirst
  · rw [hfirst, List.length_drop]
    omega

section Cells

variable [Inhabited α]

/-- The `n` cells from `start`, around the end. -/
def ringSlice (mem : List α) (start n : Nat) : List α :=
  (List.range n).map fun k => mem.getD ((start + k) % mem.length) default

@[simp] theorem ringSlice_zero (mem : List α) (start : Nat) : ringSlice mem start 0 = [] := rfl

@[simp] theorem ringSlice_length (mem : List α) (start n : Nat) :
    (ringSlice mem start n).length = n := by
  unfold ringSlice
  rw [List.length_map, List.length_range]

/-- A slice splits at any point inside it. -/
theorem ringSlice_add (mem : List α) (start m n : Nat) :
    ringSlice mem start (m + n) =
      ringSlice mem start m ++ ringSlice mem ((start + m) % mem.length) n := by
  unfold ringSlice
  rw [List.range_add, List.map_append, List.map_map]
  congr 1
  refine List.map_congr_left fun k _ => ?_
  rw [Function.comp_apply, Nat.mod_add_mod, Nat.add_assoc]

/-- Two arrays that agree on the cells of a slice have the same slice. -/
theorem ringSlice_congr {mem' : List α} (hlength : mem'.length = mem.length)
    (h : ∀ k < n, mem'.getD ((start + k) % mem.length) default =
      mem.getD ((start + k) % mem.length) default) :
    ringSlice mem' start n = ringSlice mem start n := by
  unfold ringSlice
  rw [hlength]
  exact List.map_congr_left fun k hk => h k (List.mem_range.mp hk)

/-- A cell of an array after `memcpy`. -/
theorem getD_overwrite (h : start + cells.length ≤ mem.length) (p : Nat) :
    (overwrite mem start cells).getD p default =
      if start ≤ p ∧ p < start + cells.length then cells.getD (p - start) default
      else mem.getD p default := by
  rw [List.getD_eq_getElem?_getD]
  split
  · rename_i hp
    have htake : (mem.take start).length = start := List.length_take_of_le (by omega)
    unfold overwrite
    rw [List.append_assoc, List.getElem?_append_right (by omega), htake,
      List.getElem?_append_left (by omega), ← List.getD_eq_getElem?_getD]
  · rename_i hp
    rw [getElem?_overwrite_outside (by omega) (by omega), ← List.getD_eq_getElem?_getD]

/-- A cell has been written if it is near enough. -/
theorem getD_ringPut (hstart : start < mem.length) (h : cells.length ≤ mem.length)
    (hp : p < mem.length) :
    (ringPut mem start cells).getD p default =
      if distance mem.length start p < cells.length then
        cells.getD (distance mem.length start p) default
      else mem.getD p default := by
  have hfirst : (cells.take (min cells.length (mem.length - start))).length =
      min cells.length (mem.length - start) := by
    rw [List.length_take]
    omega
  have hsecond : (cells.drop (min cells.length (mem.length - start))).length =
      cells.length - (mem.length - start) := by
    rw [List.length_drop]
    omega
  unfold ringPut
  rw [getD_overwrite (by rw [overwrite_length (by omega)]; omega), getD_overwrite (by omega),
    hfirst, hsecond]
  rcases Nat.lt_or_ge p start with hlt | hge
  · have hdistance : distance mem.length start p = p + mem.length - start := by
      unfold distance
      rw [Nat.mod_eq_of_lt (by omega)]
    rw [hdistance]
    split
    · rename_i hwritten
      rw [if_pos (by omega), List.getD_eq_getElem?_getD, List.getD_eq_getElem?_getD,
        List.getElem?_drop]
      congr 2
      omega
    · rename_i hkept
      rw [if_neg (by omega), if_neg (by omega)]
  · have hdistance : distance mem.length start p = p - start := by
      unfold distance
      have hsum : p + mem.length - start = p - start + mem.length := by omega
      rw [hsum, Nat.add_mod_right, Nat.mod_eq_of_lt (by omega)]
    rw [hdistance, if_neg (by omega)]
    split
    · rename_i hwritten
      rw [if_pos (by omega), List.getD_eq_getElem?_getD, List.getD_eq_getElem?_getD,
        List.getElem?_take, if_pos (by omega)]
    · rename_i hkept
      rw [if_neg (by omega)]

/-- What was put is read back. -/
theorem ringSlice_ringPut_self (hstart : start < mem.length) (h : cells.length ≤ mem.length) :
    ringSlice (ringPut mem start cells) start cells.length = cells := by
  unfold ringSlice
  rw [ringPut_length (Nat.le_of_lt hstart) h]
  refine List.ext_getElem (by rw [List.length_map, List.length_range]) fun k hk hk' => ?_
  rw [List.getElem_map, List.getElem_range, getD_ringPut hstart h (Nat.mod_lt _ (by omega)),
    distance_add hstart (by omega), if_pos hk', List.getD_eq_getElem?_getD,
    List.getElem?_eq_getElem hk', Option.getD_some]

/-! ## Streams -/

/-- The ring has the last cells of the stream, each at its index modulo the size. -/
def Lapped (mem stream : List α) : Prop :=
  ∀ i < stream.length, stream.length ≤ i + mem.length →
    mem.getD (i % mem.length) default = stream.getD i default

theorem lapped_nil (mem : List α) : Lapped mem [] := fun _ hi => absurd hi (Nat.not_lt_zero _)

/-- The next cell of the stream replaces the oldest one. -/
theorem Lapped.put {stream : List α} (h : Lapped mem stream) (hpos : 0 < mem.length) (cell : α) :
    Lapped (mem.set (stream.length % mem.length) cell) (stream ++ [cell]) := by
  intro i hi hlast
  rw [List.length_append, List.length_singleton] at hi hlast
  rw [List.length_set] at hlast ⊢
  simp only [List.getD_eq_getElem?_getD]
  rcases Nat.lt_or_ge i stream.length with hold | hnew
  · have hne : stream.length % mem.length ≠ i % mem.length := by
      intro heq
      have hzero : (stream.length - i) % mem.length = 0 := Nat.sub_mod_eq_zero_of_mod_eq heq
      rw [Nat.mod_eq_of_lt (by omega)] at hzero
      omega
    have hcell := h i hold (by omega)
    simp only [List.getD_eq_getElem?_getD] at hcell
    rw [List.getElem?_set_ne hne, List.getElem?_append_left hold, hcell]
  · obtain rfl : i = stream.length := by omega
    rw [List.getElem?_set_self (Nat.mod_lt _ hpos), List.getElem?_append_right (Nat.le_refl _),
      Nat.sub_self]
    rfl

/-- The cell of an index has what was put there last. -/
theorem Lapped.getD {stream : List α} (h : Lapped mem stream) (hpos : 0 < mem.length) {c : Nat}
    (hc : c < stream.length) :
    mem.getD (c % mem.length) default =
      stream.getD (c + mem.length * ((stream.length - c - 1) / mem.length)) default := by
  have hdiv := Nat.div_add_mod (stream.length - c - 1) mem.length
  have hmod := Nat.mod_lt (stream.length - c - 1) hpos
  have hcell := h (c + mem.length * ((stream.length - c - 1) / mem.length)) (by omega) (by omega)
  rw [Nat.add_mul_mod_self_left] at hcell
  exact hcell

end Cells

end Ros2Serial.Bytes
