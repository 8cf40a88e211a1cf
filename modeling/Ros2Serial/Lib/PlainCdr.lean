import Ros2Serial.Lib.Bytes
import Ros2Serial.Lib.LittleEndian
import Mathlib.Data.List.Forall2

/-!
# PLAIN_CDR layouts

The layout rules of little-endian PLAIN_CDR, over a flat sequence of items.
An item is a primitive of 1, 2, 4 or 8 bytes, or a run of octets such as the
characters of a string.  A primitive of `k` bytes starts at the next multiple
of `k`, counted from the alignment origin; octets are never padded.

`encode pos items` is the layout of `items` when the first one is reached at
offset `pos` from the origin.  A padding octet is `none`: the format leaves
its value open, and an encoder that skips over old memory writes whatever was
there.  `Matches` compares a layout with concrete bytes, and `Laid` says that
one memory is another one with a layout written into it.

Three facts about layouts do the work later.

* Only the offset modulo 8 matters (`encode_congr`).
* Moving the origin by four changes nothing as long as no primitive is eight
  bytes wide (`encode_add_four`), and changes the length of the whole layout
  as soon as one is (`length_encode_add_four_ne`).
* `Straddles cap` names the one way in which a primitive can fail to fit a
  buffer that still has room: it starts below `cap` and ends above it.
-/

namespace Ros2Serial.PlainCdr

open Bytes

/-- The width of a primitive. -/
inductive Width
  | one
  | two
  | four
  | eight
  deriving DecidableEq, Repr

/-- The number of bytes of a primitive, which is also its alignment. -/
def Width.bytes : Width → Nat
  | .one => 1
  | .two => 2
  | .four => 4
  | .eight => 8

/-- One item of a flat layout. -/
inductive Item
  /-- A primitive of the given width and value. -/
  | prim (w : Width) (value : Nat)
  /-- Bytes that are laid out as they are, without alignment. -/
  | octets (bytes : List UInt8)
  deriving DecidableEq, Repr

/-! ## Padding -/

/-- The number of octets skipped to reach a multiple of `k` from `pos`. -/
def padding (k pos : Nat) : Nat := (k - pos % k) % k

/-- A padded position is aligned. -/
theorem dvd_add_padding (w : Width) (pos : Nat) : w.bytes ∣ pos + padding w.bytes pos := by
  cases w <;> simp only [padding, Width.bytes] <;> omega

/-- An aligned position needs no padding. -/
theorem padding_eq_zero {w : Width} {pos : Nat} (h : w.bytes ∣ pos) :
    padding w.bytes pos = 0 := by
  simp [padding, Nat.mod_eq_zero_of_dvd h]

/-- The padding depends on the position modulo 8 only. -/
theorem padding_congr (w : Width) {pos pos' : Nat} (h : pos % 8 = pos' % 8) :
    padding w.bytes pos = padding w.bytes pos' := by
  cases w <;> simp only [padding, Width.bytes] <;> omega

/-- Below eight bytes the padding depends on the position modulo 4 only. -/
theorem padding_add_four {w : Width} (hw : w ≠ .eight) (pos : Nat) :
    padding w.bytes (pos + 4) = padding w.bytes pos := by
  cases w <;> simp only [padding, Width.bytes, ne_eq, reduceCtorEq, not_true_eq_false] at hw ⊢ <;>
    omega

/-! ## Layouts -/

/-- The offset right after an item that is reached at `pos`. -/
def Item.endPos (pos : Nat) : Item → Nat
  | .prim w _ => pos + padding w.bytes pos + w.bytes
  | .octets bytes => pos + bytes.length

/-- The octets of an item that is reached at `pos`, its padding included. -/
def Item.encode (pos : Nat) : Item → List (Option UInt8)
  | .prim w value =>
    List.replicate (padding w.bytes pos) none ++ (LittleEndian.encode w.bytes value).map some
  | .octets bytes => bytes.map some

/-- The offset right after a sequence of items. -/
def endPos : Nat → List Item → Nat
  | pos, [] => pos
  | pos, it :: rest => endPos (it.endPos pos) rest

/-- The octets of a sequence of items. -/
def encode : Nat → List Item → List (Option UInt8)
  | _, [] => []
  | pos, it :: rest => it.encode pos ++ encode (it.endPos pos) rest

theorem Item.endPos_eq (pos : Nat) (it : Item) :
    it.endPos pos = pos + (it.encode pos).length := by
  cases it with
  | prim w value => simp [Item.endPos, Item.encode, Nat.add_assoc]
  | octets bytes => simp [Item.endPos, Item.encode]

theorem endPos_eq (pos : Nat) (items : List Item) :
    endPos pos items = pos + (encode pos items).length := by
  induction items generalizing pos with
  | nil => simp [endPos, encode]
  | cons it rest ih =>
    rw [endPos, encode, ih, Item.endPos_eq, List.length_append]
    omega

theorem le_endPos (pos : Nat) (items : List Item) : pos ≤ endPos pos items := by
  rw [endPos_eq]
  omega

theorem endPos_append (pos : Nat) (xs ys : List Item) :
    endPos pos (xs ++ ys) = endPos (endPos pos xs) ys := by
  induction xs generalizing pos with
  | nil => rfl
  | cons it rest ih => exact ih _

theorem encode_append (pos : Nat) (xs ys : List Item) :
    encode pos (xs ++ ys) = encode pos xs ++ encode (endPos pos xs) ys := by
  induction xs generalizing pos with
  | nil => rfl
  | cons it rest ih => simp only [List.cons_append, encode, endPos, ih, List.append_assoc]

theorem Item.encode_congr (it : Item) {pos pos' : Nat} (h : pos % 8 = pos' % 8) :
    it.encode pos = it.encode pos' := by
  cases it with
  | prim w value => simp only [Item.encode, padding_congr w h]
  | octets bytes => rfl

/-- A layout depends on the offset of its start modulo 8 only. -/
theorem encode_congr (items : List Item) {pos pos' : Nat} (h : pos % 8 = pos' % 8) :
    encode pos items = encode pos' items := by
  induction items generalizing pos pos' with
  | nil => rfl
  | cons it rest ih =>
    have hit := it.encode_congr h
    have hend : it.endPos pos % 8 = it.endPos pos' % 8 := by
      rw [Item.endPos_eq, Item.endPos_eq, hit]
      omega
    rw [encode, encode, hit, ih hend]

/-! ## Moving the origin by four -/

/-- The item is a primitive of eight bytes. -/
def Item.Wide : Item → Prop
  | .prim w _ => w = .eight
  | .octets _ => False

instance (it : Item) : Decidable it.Wide := by
  cases it with
  | prim w _ => exact inferInstanceAs (Decidable (w = .eight))
  | octets _ => exact inferInstanceAs (Decidable False)

theorem Item.encode_add_four {it : Item} (h : ¬ it.Wide) (pos : Nat) :
    it.encode (pos + 4) = it.encode pos := by
  cases it with
  | prim w value => simp only [Item.encode, padding_add_four h]
  | octets bytes => rfl

theorem Item.endPos_add_four {it : Item} (h : ¬ it.Wide) (pos : Nat) :
    it.endPos (pos + 4) = it.endPos pos + 4 := by
  rw [Item.endPos_eq, Item.endPos_eq, it.encode_add_four h]
  omega

/-- Without an eight-byte primitive, the layout does not notice that its
origin lies four octets earlier. -/
theorem encode_add_four {items : List Item} (h : ∀ it ∈ items, ¬ it.Wide) (pos : Nat) :
    encode (pos + 4) items = encode pos items := by
  induction items generalizing pos with
  | nil => rfl
  | cons it rest ih =>
    have hit := h it (by simp)
    rw [encode, encode, Item.encode_add_four hit, Item.endPos_add_four hit,
      ih (fun x hx => h x (by simp [hx]))]

/-- An item that follows an eight-byte primitive is reached at a multiple of 8. -/
theorem Item.endPos_mod_eight {it : Item} (h : it.Wide) (pos : Nat) : it.endPos pos % 8 = 0 := by
  cases it with
  | prim w value =>
    have hw : w = .eight := h
    subst hw
    simp only [Item.endPos, padding, Width.bytes]
    omega
  | octets bytes => exact absurd h id

/-- With an eight-byte primitive, the layout has another length as soon as
its origin lies four octets earlier.  Up to the first such primitive the two
layouts are equal; it ends at a multiple of 8 in both, so from there on they
agree again, and the two offsets differ by a multiple of 8 and not by four. -/
theorem length_encode_add_four_ne {items : List Item} (h : ∃ it ∈ items, it.Wide) (pos : Nat) :
    (encode (pos + 4) items).length ≠ (encode pos items).length := by
  induction items generalizing pos with
  | nil => simp at h
  | cons it rest ih =>
    rw [encode, encode, List.length_append, List.length_append]
    by_cases hit : it.Wide
    · have h0 := Item.endPos_mod_eight hit pos
      have h4 := Item.endPos_mod_eight hit (pos + 4)
      have hrest : encode (it.endPos (pos + 4)) rest = encode (it.endPos pos) rest :=
        encode_congr rest (by omega)
      have e0 := it.endPos_eq pos
      have e4 := it.endPos_eq (pos + 4)
      rw [hrest]
      omega
    · have hrest : ∃ x ∈ rest, x.Wide := by
        obtain ⟨x, hx, hwide⟩ := h
        rcases List.mem_cons.mp hx with rfl | hmem
        · exact absurd hwide hit
        · exact ⟨x, hmem, hwide⟩
      have := ih hrest (it.endPos pos)
      rw [Item.encode_add_four hit, Item.endPos_add_four hit]
      omega

/-! ## Layouts and bytes -/

/-- The bytes have the layout: equal at every octet that the format fixes, and
free at the padding. -/
def Matches (layout : List (Option UInt8)) (bytes : List UInt8) : Prop :=
  List.Forall₂ (fun o b => ∀ x, o = some x → b = x) layout bytes

theorem Matches.length_eq {layout : List (Option UInt8)} {bytes : List UInt8}
    (h : Matches layout bytes) : layout.length = bytes.length :=
  List.Forall₂.length_eq h

theorem matches_nil : Matches [] [] := List.Forall₂.nil

theorem Matches.append {l l' : List (Option UInt8)} {b b' : List UInt8}
    (h : Matches l b) (h' : Matches l' b') : Matches (l ++ l') (b ++ b') :=
  List.rel_append h h'

/-- A layout without padding fixes the bytes. -/
theorem matches_map_some {bytes bytes' : List UInt8} :
    Matches (bytes.map some) bytes' ↔ bytes' = bytes := by
  induction bytes generalizing bytes' with
  | nil => simp [Matches]
  | cons b rest ih =>
    cases bytes' with
    | nil => simp [Matches]
    | cons b' rest' =>
      simp only [Matches, List.map_cons, List.forall₂_cons, Option.some.injEq, forall_eq',
        List.cons.injEq]
      exact and_congr_right fun _ => ih

theorem matches_replicate_none (bytes : List UInt8) :
    Matches (List.replicate bytes.length none) bytes := by
  induction bytes with
  | nil => exact .nil
  | cons b rest ih => exact .cons (by simp) ih

/-- Bytes that have a layout made of two parts split where the layout does. -/
theorem Matches.split {l l' : List (Option UInt8)} {bytes : List UInt8}
    (h : Matches (l ++ l') bytes) :
    Matches l (bytes.take l.length) ∧ Matches l' (bytes.drop l.length) := by
  constructor
  · simpa [Matches] using List.forall₂_take l.length h
  · simpa [Matches] using List.forall₂_drop l.length h

/-! ## Layouts in memory -/

/-- `mem'` is `mem` with the layout `l` written from `start`, and nothing else
changed. -/
structure Laid (mem mem' : List UInt8) (start : Nat) (l : List (Option UInt8)) : Prop where
  length : mem'.length = mem.length
  layout : Matches l (slice mem' start l.length)
  frame : ∀ i, i < start ∨ start + l.length ≤ i → mem'[i]? = mem[i]?

theorem Laid.nil (mem : List UInt8) (start : Nat) : Laid mem mem start [] where
  length := rfl
  layout := by simpa using matches_nil
  frame _ _ := rfl

/-- A layout written behind another one leaves the first one in place. -/
theorem Laid.append {mem mem' mem'' : List UInt8} {start : Nat}
    {l l' : List (Option UInt8)} (h : Laid mem mem' start l)
    (h' : Laid mem' mem'' (start + l.length) l') : Laid mem mem'' start (l ++ l') where
  length := h'.length.trans h.length
  layout := by
    have hkeep : slice mem'' start l.length = slice mem' start l.length :=
      slice_congr fun i _ hi => h'.frame i (Or.inl hi)
    rw [List.length_append, slice_add, hkeep]
    exact h.layout.append h'.layout
  frame i hi := by
    rw [List.length_append] at hi
    rw [h'.frame i (by omega), h.frame i (by omega)]

/-- An overwrite lays out the bytes it writes. -/
theorem laid_overwrite {mem bytes : List UInt8} {start : Nat}
    (h : start + bytes.length ≤ mem.length) :
    Laid mem (overwrite mem start bytes) start (bytes.map some) where
  length := overwrite_length h
  layout := by
    rw [List.length_map, slice_overwrite_self (by omega)]
    exact matches_map_some.mpr rfl
  frame i hi := getElem?_overwrite_outside (by omega) (by simpa using hi)

/-- Skipping over memory lays out padding. -/
theorem laid_padding {mem : List UInt8} {start n : Nat} (h : start + n ≤ mem.length) :
    Laid mem mem start (List.replicate n none) where
  length := rfl
  layout := by
    have hm := matches_replicate_none (slice mem start n)
    rw [slice_length h] at hm
    rwa [List.length_replicate]
  frame _ _ := rfl

/-! ## Primitives across the end of a buffer -/

/-- The primitive starts below `cap` and ends above it. -/
def Item.Straddles (cap pos : Nat) : Item → Prop
  | .prim w _ =>
    pos + padding w.bytes pos < cap ∧ cap < pos + padding w.bytes pos + w.bytes
  | .octets _ => False

/-- Some primitive of the layout starts below `cap` and ends above it. -/
def Straddles (cap : Nat) : Nat → List Item → Prop
  | _, [] => False
  | pos, it :: rest => it.Straddles cap pos ∨ Straddles cap (it.endPos pos) rest

instance (cap pos : Nat) (it : Item) : Decidable (it.Straddles cap pos) := by
  cases it with
  | prim w _ =>
    exact inferInstanceAs (Decidable (_ ∧ _))
  | octets _ => exact inferInstanceAs (Decidable False)

instance decidableStraddles (cap : Nat) : ∀ pos items, Decidable (Straddles cap pos items)
  | _, [] => inferInstanceAs (Decidable False)
  | pos, it :: rest =>
    have := decidableStraddles cap (it.endPos pos) rest
    inferInstanceAs (Decidable (it.Straddles cap pos ∨ Straddles cap (it.endPos pos) rest))

/-- A layout that starts at or above `cap` has nothing across `cap`. -/
theorem not_straddles_of_le {cap : Nat} (items : List Item) {pos : Nat} (h : cap ≤ pos) :
    ¬ Straddles cap pos items := by
  induction items generalizing pos with
  | nil => exact id
  | cons it rest ih =>
    have hend := it.endPos_eq pos
    rintro (hit | hrest)
    · cases it with
      | prim w _ => exact absurd hit.1 (by omega)
      | octets _ => exact hit
    · exact ih (by omega) hrest

/-- A layout that fits below `cap` has nothing across `cap`. -/
theorem not_straddles_of_endPos_le {cap : Nat} {items : List Item} {pos : Nat}
    (h : endPos pos items ≤ cap) : ¬ Straddles cap pos items := by
  induction items generalizing pos with
  | nil => exact id
  | cons it rest ih =>
    have hle := le_endPos (it.endPos pos) rest
    rw [endPos] at h
    rintro (hit | hrest)
    · cases it with
      | prim w _ =>
      have hend : pos + padding w.bytes pos + w.bytes ≤ cap := Nat.le_trans hle h
      exact absurd hit.2 (by omega)
      | octets _ => exact hit
    · exact ih h hrest

end Ros2Serial.PlainCdr
