import Ros2Serial.Generator.Tracking

/-!
# Runs leave sound objects

The generated `cdr_deserialize`, statement by statement, against the record of
`Tracking.lean`.  Two kinds of run are covered at once.  With `own` false the
input may be anything, and what is kept is the class of the blocks: this is what
every earlier frame leaves.  With `own` true the items of an accepted layout are
ahead (`Inside`), no statement fails, and what the run leaves belongs to it.

`readBack_congr_memory` is the use of it.  The value of an object that belongs
to the run does not depend on the memory behind the layout.
-/

namespace Ros2Serial.Generator

open Bytes PlainCdr Ucdr

/-! ## The layout inside the payload -/

/-- There is a zero byte at the index or behind it, but in front of `n`. -/
def EndsBefore (mem : List UInt8) (n i : Nat) : Prop := ∃ k, i ≤ k ∧ k < n ∧ mem[k]? = some 0

/-- The items are ahead, and they end before index `n`. -/
structure Inside (mem : List UInt8) (n : Nat) (ub : Buffer) (items : List Item) : Prop
    extends Ahead mem ub items where
  inside : ub.init + endPos ub.offset items ≤ n

section Inside

variable {mem : List UInt8} {n : Nat} {ub : Buffer}

theorem Inside.split {xs ys : List Item} (h : Inside mem n ub (xs ++ ys)) :
    Inside mem n ub xs ∧ Inside mem n (ub.afterAll xs) ys := by
  obtain ⟨hx, hy⟩ := h.toAhead.split
  have hinside := h.inside
  rw [endPos_append] at hinside
  have hle := le_endPos (endPos ub.offset xs) ys
  refine ⟨⟨hx, by omega⟩, ⟨hy, ?_⟩⟩
  rw [Buffer.afterAll_init, Buffer.afterAll_offset]
  exact hinside

/-- The text of a string that is inside ends there. -/
theorem Inside.endsBefore {text : List UInt8} (h : Inside mem n ub (stringItems text)) :
    EndsBefore mem n (ub.after (.prim .four (text.length + 1))).iterator := by
  have hsplit : Inside mem n ub
      ([.prim .four (text.length + 1)] ++ [.octets (text ++ [0])]) := h
  have htext : Inside mem n (ub.after (.prim .four (text.length + 1))) [.octets (text ++ [0])] :=
    hsplit.split.2
  have hslice := htext.toAhead.octets
  have hinside := htext.inside
  have hit := htext.live.iterator_eq
  simp only [endPos, Item.endPos, List.length_append, List.length_singleton] at hinside
  refine ⟨_ + text.length, Nat.le_add_right _ _, by omega, ?_⟩
  rw [← getElem?_slice mem _ (Nat.lt_succ_self text.length)]
  rw [List.length_append, List.length_singleton] at hslice
  rw [hslice, List.getElem?_append_right (Nat.le_refl _), Nat.sub_self]
  rfl

end Inside

/-- The elements of an array are ahead, one after another. -/
structure Rounds (cls : DataClass) (mem : List UInt8) (n : Nat) (ub : Buffer)
    (field : List (List Item)) (count : Nat) : Prop where
  length : field.length = count
  accepts : ∀ items ∈ field, cls.Accepts items
  inside : Inside mem n ub field.flatten

theorem Rounds.split {cls : DataClass} {mem : List UInt8} {n : Nat} {ub : Buffer}
    {field : List (List Item)} {count : Nat} (h : Rounds cls mem n ub field (count + 1)) :
    (cls.Accepts (field.headD []) ∧ Inside mem n ub (field.headD [])) ∧
      Rounds cls mem n (ub.afterAll (field.headD [])) field.tail count := by
  cases field with
  | nil => exact absurd h.length (Nat.succ_ne_zero count).symm
  | cons items rest =>
    obtain ⟨hitems, hrest⟩ := Inside.split (List.flatten_cons ▸ h.inside)
    exact ⟨⟨h.accepts items List.mem_cons_self, hitems⟩, Nat.succ.inj h.length,
      fun items hmem => h.accepts items (List.mem_cons_of_mem _ hmem), hrest⟩

/-! ## The statements for an element -/

theorem Decoder.read_sameHeap (mem : List UInt8) (w : Width) (dec : Decoder) :
    SameHeap dec (dec.read mem w).1 := by
  unfold Decoder.read
  split <;> exact ⟨rfl, rfl⟩

/-- On the items that it accepts, the code for an element returns `true` and
reads them. -/
theorem DataClass.runs (P : Platform) {mem : List UInt8} {cls : DataClass} {items : List Item}
    (hacc : cls.Accepts items) {a : Activation} (hahead : Ahead mem a.dec.ub items)
    (place : Place) :
    (cls.cdrDeserialize P mem place a).1 = true ∧
      (cls.cdrDeserialize P mem place a).2.dec.ub = a.dec.ub.afterAll items := by
  obtain ⟨a', hrun, -, hread⟩ := cls.cdrDeserialize_determined P hacc place a hahead hahead
  rw [hrun]
  exact ⟨rfl, hread.1⟩

/-- The statements for a string set its pointer, unless they fail. -/
theorem deserializeString_rewrites {mem : List UInt8} {n : Nat} {t : Tracking}
    (hends : t.ends = EndsBefore mem n) {own : Prop} {items : List Item} (place : Place)
    (a : Activation) (hown : own → DataClass.string.Accepts items ∧ Inside mem n a.dec.ub items) :
    SameHeap a.dec (deserializeString mem place a).2.dec ∧
      ((¬ own ∧ (deserializeString mem place a).2.this = a.this) ∨
        ∃ o, (deserializeString mem place a).2.this =
          Function.update a.this (mangle place.text) o ∧ t.StringSound own o) := by
  by_cases ho : own
  · obtain ⟨⟨text, htext, rfl⟩, hinside⟩ := hown ho
    rw [deserializeString_eq_replay place htext hinside.toAhead]
    refine ⟨⟨rfl, rfl⟩, Or.inr ⟨_, rfl, fun _ i hi => ?_⟩⟩
    cases hi
    rw [hends]
    exact hinside.endsBefore
  · have hread := a.dec.read_sameHeap mem .four
    simp only [deserializeString]
    split
    · rename_i heq
      rw [heq] at hread
      exact ⟨hread, Or.inl ⟨ho, rfl⟩⟩
    · rename_i heq
      rw [heq] at hread
      split
      · exact ⟨hread, Or.inr ⟨_, rfl, fun h => absurd h ho⟩⟩
      · exact ⟨hread, Or.inr ⟨_, rfl, fun h => absurd h ho⟩⟩

/-- After the statements for an element, what stands at its place is sound. -/
def ElementLeaves (P : Platform) (mem : List UInt8) (n : Nat) (cls : DataClass) : Prop :=
  ∀ (t : Tracking) (own : Prop) (items : List Item) (place : Place) (a : Activation),
    place.Suits cls → t.ends = EndsBefore mem n → t.Describes own a.dec →
    cls.Sound t False (place.load a.this) →
    (own → cls.Accepts items ∧ Inside mem n a.dec.ub items) →
    ∃ t', t.Le t' ∧ t'.Describes own (cls.cdrDeserialize P mem place a).2.dec ∧
      ((¬ own ∧ (cls.cdrDeserialize P mem place a).2.this = a.this) ∨
        ∃ o, (cls.cdrDeserialize P mem place a).2.this = place.store a.this o ∧
          cls.Sound t' own o)

theorem elementLeaves_primitive (P : Platform) (mem : List UInt8) (n : Nat) (p : Primitive) :
    ElementLeaves P mem n (.primitive p) := by
  intro t own items place a _ _ hdescribes _ hown
  have hread := a.dec.read_sameHeap mem p.width
  refine ⟨t, Tracking.Le.refl t, ?_⟩
  by_cases ho : own
  · obtain ⟨⟨k, hk, rfl⟩, hinside⟩ := hown ho
    simp only [DataClass.cdrDeserialize, Ahead.read a.dec hinside.toAhead hk]
    exact ⟨hdescribes.congr ⟨rfl, rfl⟩, Or.inr ⟨_, rfl, trivial⟩⟩
  · unfold DataClass.cdrDeserialize
    split
    · rename_i heq
      rw [heq] at hread
      exact ⟨hdescribes.congr hread, Or.inr ⟨_, rfl, trivial⟩⟩
    · rename_i heq
      rw [heq] at hread
      exact ⟨hdescribes.congr hread, Or.inl ⟨ho, rfl⟩⟩

theorem elementLeaves_string (P : Platform) (mem : List UInt8) (n : Nat) :
    ElementLeaves P mem n .string := by
  intro t own items place a hsuits hends hdescribes _ hown
  obtain ⟨name, rfl, hmangle⟩ := hsuits rfl
  obtain ⟨hsame, hthis⟩ := deserializeString_rewrites hends (.member name) a hown
  refine ⟨t, Tracking.Le.refl t, hdescribes.congr hsame, ?_⟩
  simp only [Place.text, hmangle] at hthis
  exact hthis

/-! ## The loops -/

/-- A loop goes on after a round that returned `true`. -/
theorem forLoop_succ (body : Nat → Activation → Bool × Activation) (count i : Nat)
    (a : Activation) :
    forLoop body (count + 1) i a =
      if (body i a).1 = true then forLoop body count (i + 1) (body i a).2 else body i a := by
  rw [forLoop]
  split
  · rename_i heq
    rw [heq, if_pos rfl]
  · rename_i heq
    rw [heq, if_neg Bool.false_ne_true]

/-- The elements of a fixed array are sound, and those in front of `i` belong to
the run. -/
structure ElementsLeft (t : Tracking) (own : Prop) (name : String) (cls : DataClass) (i : Nat)
    (this : Members) : Prop where
  all : ∀ o ∈ (this name).elems, cls.Sound t False o
  left : own → ∀ j < i, ∀ o, (this name).elems[j]? = some o → cls.Sound t own o

section Loops

variable {P : Platform} {mem : List UInt8} {n : Nat} {t t' : Tracking} {own : Prop} {name : String}
  {cls : DataClass} {this : Members}

theorem ElementsLeft.mono {i : Nat} (h : ElementsLeft t own name cls i this) (hle : t.Le t') :
    ElementsLeft t' own name cls i this where
  all o ho := (h.all o ho).mono hle.types o fun hf => ⟨hf, hle⟩
  left ho j hj o hget := (h.left ho j hj o hget).mono hle.types o fun ho => ⟨ho, hle⟩

/-- The next element gets what belongs to the run. -/
theorem ElementsLeft.store {i : Nat} (h : ElementsLeft t own name cls i this) {o : Obj}
    (ho : cls.Sound t own o) :
    ElementsLeft t own name cls (i + 1) ((Place.element name i).store this o) where
  all := by
    intro o' hmem
    rw [Place.elems_store_element] at hmem
    rcases List.mem_or_eq_of_mem_set hmem with hold | rfl
    · exact h.all o' hold
    · exact ho.mono (Tracking.Le.refl t).types o' False.elim
  left := by
    intro hown j hj o' hget
    rw [Place.elems_store_element] at hget
    by_cases hji : j = i
    · subst hji
      rw [List.getElem?_set_self'] at hget
      obtain ⟨_, -, rfl⟩ := Option.map_eq_some_iff.mp hget
      exact ho
    · rw [List.getElem?_set_ne (Ne.symm hji)] at hget
      exact h.left hown j (by omega) o' hget

theorem ElementsLeft.load {i : Nat} (h : ElementsLeft t own name cls i this) :
    cls.Sound t False ((Place.element name i).load this) := by
  rw [Place.load, List.getD_eq_getElem?_getD]
  cases hget : (this name).elems[i]? with
  | none => exact cls.sound_indeterminate t False
  | some o => exact h.all o (List.mem_of_getElem? hget)

/-- A round of the loop of a fixed array: the next element belongs to the run, and
nothing else has changed. -/
theorem leaves_fixedRound (hel : ElementLeaves P mem n cls) (hstr : cls ≠ .string) {i : Nat}
    {items : List Item} {a : Activation} (hends : t.ends = EndsBefore mem n)
    (hdescribes : t.Describes own a.dec) (hleft : ElementsLeft t own name cls i a.this)
    (hown : own → cls.Accepts items ∧ Inside mem n a.dec.ub items) :
    ∃ t', t.Le t' ∧
      t'.Describes own (cls.cdrDeserialize P mem (.element name i) a).2.dec ∧
      ElementsLeft t' own name cls (i + 1)
        (cls.cdrDeserialize P mem (.element name i) a).2.this ∧
      ((cls.cdrDeserialize P mem (.element name i) a).2.this name).elems.length =
        (a.this name).elems.length ∧
      ∀ m, m ≠ name →
        (cls.cdrDeserialize P mem (.element name i) a).2.this m = a.this m := by
  obtain ⟨t', hle, hdescribes', hthis⟩ := hel t own items (.element name i) a
    (Place.suits_of_ne hstr _) hends hdescribes hleft.load hown
  refine ⟨t', hle, hdescribes', ?_⟩
  rcases hthis with ⟨hno, hthis⟩ | ⟨o, hthis, ho⟩
  · rw [hthis]
    exact ⟨⟨(hleft.mono hle).all, fun ho => absurd ho hno⟩, rfl, fun _ _ => rfl⟩
  · rw [hthis]
    refine ⟨(hleft.mono hle).store ho, ?_, fun m hm => Function.update_of_ne hm ..⟩
    rw [Place.elems_store_element, List.length_set]

/-- The loop of a fixed array, of no strings. -/
theorem leaves_fixedLoop (hel : ElementLeaves P mem n cls) (hstr : cls ≠ .string) (count : Nat) :
    ∀ (i : Nat) (field : List (List Item)) (t : Tracking) (a : Activation),
      t.ends = EndsBefore mem n → t.Describes own a.dec →
      ElementsLeft t own name cls i a.this → (own → Rounds cls mem n a.dec.ub field count) →
      ∀ loop, loop =
        (forLoop (fun i => cls.cdrDeserialize P mem (.element name i)) count i a).2 →
      ∃ t', t.Le t' ∧ t'.Describes own loop.dec ∧
        ElementsLeft t' own name cls (i + count) loop.this ∧
        (loop.this name).elems.length = (a.this name).elems.length ∧
        ∀ m, m ≠ name → loop.this m = a.this m := by
  induction count with
  | zero =>
    intro i field t a _ hdescribes hleft _ loop hloop
    subst hloop
    exact ⟨t, Tracking.Le.refl t, hdescribes, hleft, rfl, fun _ _ => rfl⟩
  | succ count ih =>
    intro i field t a hends hdescribes hleft hown loop hloop
    subst hloop
    have hruns := fun ho => cls.runs P (hown ho).split.1.1 (hown ho).split.1.2.toAhead
      (.element name i)
    obtain ⟨t₁, hle, hdescribes₁, hleft₁, hlength₁, hframe₁⟩ :=
      leaves_fixedRound hel hstr hends hdescribes hleft fun ho => (hown ho).split.1
    rw [forLoop_succ]
    split
    · obtain ⟨t₂, hle', hdescribes₂, hleft₂, hlength₂, hframe₂⟩ := ih (i + 1) field.tail t₁
        (cls.cdrDeserialize P mem (.element name i) a).2
        (hle.ends.trans hends) hdescribes₁ hleft₁
        (fun ho => by rw [(hruns ho).2]; exact (hown ho).split.2) _ rfl
      refine ⟨t₂, hle.trans hle', hdescribes₂, ?_, hlength₂.trans hlength₁, fun m hm =>
        (hframe₂ m hm).trans (hframe₁ m hm)⟩
      rw [Nat.add_right_comm] at hleft₂
      exact hleft₂
    · rename_i hfails
      have hno : ¬ own := fun ho => hfails (hruns ho).1
      exact ⟨t₁, hle, hdescribes₁, ⟨hleft₁.all, fun ho => absurd ho hno⟩, hlength₁, hframe₁⟩

/-- The loop of a fixed array of strings.  The rounds assign to one member, which is
not the array (`mangle`). -/
theorem leaves_stringLoop (count : Nat) :
    ∀ (i : Nat) (field : List (List Item)) (a : Activation),
      t.ends = EndsBefore mem n →
      (own → Rounds .string mem n a.dec.ub field count) →
      ∀ loop, loop = (forLoop (fun i =>
        DataClass.string.cdrDeserialize P mem (.element name i)) count i a).2 →
      SameHeap a.dec loop.dec ∧ ∀ m, loop.this m = a.this m ∨
        (m = mangle (name ++ "[i]") ∧ t.StringSound own (loop.this m)) := by
  induction count with
  | zero =>
    intro i field a _ _ loop hloop
    subst hloop
    exact ⟨SameHeap.refl _, fun _ => Or.inl rfl⟩
  | succ count ih =>
    intro i field a hends hown loop hloop
    subst hloop
    have hruns := fun ho => DataClass.string.runs P (hown ho).split.1.1
      (hown ho).split.1.2.toAhead (.element name i)
    obtain ⟨hsame, hthis⟩ := deserializeString_rewrites hends (.element name i) a
      fun ho => (hown ho).split.1
    have hround : ∀ m,
        (DataClass.string.cdrDeserialize P mem (.element name i) a).2.this m = a.this m ∨
          (m = mangle (name ++ "[i]") ∧ t.StringSound own
            ((DataClass.string.cdrDeserialize P mem (.element name i) a).2.this m)) := by
      intro m
      simp only [DataClass.cdrDeserialize]
      rcases hthis with ⟨-, hthis⟩ | ⟨o, hthis, ho⟩
      · exact Or.inl (congrFun hthis m)
      · rw [hthis]
        by_cases hm : m = mangle (name ++ "[i]")
        · subst hm
          exact Or.inr ⟨rfl, by rw [Place.text, Function.update_self]; exact ho⟩
        · exact Or.inl (Function.update_of_ne hm ..)
    rw [forLoop_succ]
    split
    · obtain ⟨hsame', hrest⟩ := ih (i + 1) field.tail
        (DataClass.string.cdrDeserialize P mem (.element name i) a).2 hends
        (fun ho => by rw [(hruns ho).2]; exact (hown ho).split.2) _ rfl
      refine ⟨hsame.trans hsame', fun m => ?_⟩
      rcases hrest m with hkept | hset
      · rw [hkept]
        exact hround m
      · exact Or.inr hset
    · exact ⟨hsame, hround⟩

/-! ## Variable arrays -/

/-- The block of a variable array has the class of the elements, its cells in front of
`i` are written, and the static element is sound. -/
structure CellsLeft (t : Tracking) (own : Prop) (name : String) (cls : DataClass) (i : Nat)
    (this : Members) : Prop where
  block : ∀ b, (this name).asPointer = some b → t.types b = some cls
  cells : own → ∀ b, (this name).asPointer = some b → ∀ j < i, t.written b j
  static : cls.Sound t False (this ("st_" ++ name))

theorem CellsLeft.mono {i : Nat} (h : CellsLeft t own name cls i this) (hle : t.Le t') :
    CellsLeft t' own name cls i this where
  block b hb := hle.types b cls (h.block b hb)
  cells ho b hb j hj := hle.written b j (h.cells ho b hb j hj)
  static := h.static.mono hle.types _ False.elim

/-- What the code in front of the loop does: a new block or the old one, and the length. -/
theorem growArray_eq (P : Platform) (name : String) (cls : DataClass) (lengthT : Nat)
    (a : Activation) :
    ∃ o dec, growArray P name cls lengthT a =
        ⟨Function.update (Function.update a.this name o) (name ++ "_length") (.value lengthT), dec⟩ ∧
      ((o = .pointer (some a.dec.next) ∧
          dec = (a.dec.realloc P cls (a.this name).asPointer lengthT).1) ∨
        (o = a.this name ∧ dec = a.dec)) := by
  by_cases hgrow : (a.this (name ++ "_length")).asValue < lengthT
  · refine ⟨_, _, ?_, Or.inl ⟨rfl, rfl⟩⟩
    simp only [growArray, if_pos hgrow]
    rfl
  · refine ⟨_, _, ?_, Or.inr ⟨rfl, rfl⟩⟩
    simp only [growArray, if_neg hgrow, Function.update_eq_self]

/-- Room for the elements, of which none is written yet. -/
theorem leaves_growArray (hnames : (fieldNames name .dynamic).Nodup) (lengthT : Nat)
    {a : Activation} (hdescribes : t.Describes own a.dec)
    (hsound : fieldSound t name cls (fun own o => cls.Sound t own o) False .dynamic a.this) :
    ∃ t', t.Le t' ∧ t'.Describes own (growArray P name cls lengthT a).dec ∧
      CellsLeft t' own name cls 0 (growArray P name cls lengthT a).this ∧
      (growArray P name cls lengthT a).this (name ++ "_length") = .value lengthT ∧
      ∀ m, m ∉ fieldNames name .dynamic →
        (growArray P name cls lengthT a).this m = a.this m := by
  obtain ⟨hls, hln, hsn⟩ := fieldNames_dynamic_nodup hnames
  have hblock := fun b hb => (hsound.1 b hb).1
  obtain ⟨o, dec, hgrow, hcases⟩ := growArray_eq P name cls lengthT a
  rw [hgrow]
  dsimp only
  have hptr : Function.update (Function.update a.this name o) (name ++ "_length")
      (.value lengthT) name = o := by
    rw [Function.update_of_ne (Ne.symm hln), Function.update_self]
  have hstatic : Function.update (Function.update a.this name o) (name ++ "_length")
      (.value lengthT) ("st_" ++ name) = a.this ("st_" ++ name) := by
    rw [Function.update_of_ne (Ne.symm hls), Function.update_of_ne hsn]
  have hrecord : ∃ t', t.Le t' ∧ t'.Describes own dec ∧
      ∀ b, o.asPointer = some b → t'.types b = some cls := by
    rcases hcases with ⟨rfl, rfl⟩ | ⟨rfl, rfl⟩
    · refine ⟨t.allot a.dec.next cls,
        Tracking.le_allot (hdescribes.fresh _ (Nat.le_refl _)).2 cls,
        hdescribes.realloc P hblock lengthT, fun b hb => ?_⟩
      obtain rfl : a.dec.next = b := Option.some.inj hb
      exact t.allot_types_self _ cls
    · exact ⟨t, Tracking.Le.refl t, hdescribes, hblock⟩
  obtain ⟨t', hle, hdescribes', hblock'⟩ := hrecord
  refine ⟨t', hle, hdescribes', ⟨fun b hb => ?_, fun _ b _ j hj => ?_, ?_⟩,
    Function.update_self .., fun m hm => ?_⟩
  · rw [hptr] at hb
    exact hblock' b hb
  · exact absurd hj (Nat.not_lt_zero j)
  · rw [hstatic]
    exact hsound.2.mono hle.types _ False.elim
  · obtain ⟨hl, -, hne⟩ := notMem_fieldNames_dynamic hm
    rw [Function.update_of_ne hl, Function.update_of_ne hne]

/-- A round of the loop of a variable array: the next cell is written, and nothing has
changed but the static element. -/
theorem leaves_copyRound (hel : ElementLeaves P mem n cls) (hstr : cls ≠ .string)
    (hsn : "st_" ++ name ≠ name) {i : Nat} {items : List Item} {a : Activation}
    (hends : t.ends = EndsBefore mem n) (hdescribes : t.Describes own a.dec)
    (hleft : CellsLeft t own name cls i a.this)
    (hown : own → cls.Accepts items ∧ Inside mem n a.dec.ub items) :
    ∀ round, round =
      copyRound name (cls.cdrDeserialize P mem (.member ("st_" ++ name))) i a →
    (own → round.1 = true ∧ round.2.dec.ub = a.dec.ub.afterAll items) ∧
      ∃ t', t.Le t' ∧ t'.Describes own round.2.dec ∧
        CellsLeft t' own name cls (i + 1) round.2.this ∧
        ∀ m, m ≠ "st_" ++ name → round.2.this m = a.this m := by
  intro round hround
  subst hround
  obtain ⟨t₁, hle, hdescribes₁, hthis⟩ := hel t own items (.member ("st_" ++ name)) a
    (Place.suits_of_ne hstr _) hends hdescribes hleft.static hown
  have hruns := fun ho => cls.runs P (hown ho).1 (hown ho).2.toAhead (.member ("st_" ++ name))
  -- the statements for the element leave the static element, and the pointer as it was
  have helement : CellsLeft t₁ own name cls i
        (cls.cdrDeserialize P mem (.member ("st_" ++ name)) a).2.this ∧
      cls.Sound t₁ own
        ((cls.cdrDeserialize P mem (.member ("st_" ++ name)) a).2.this ("st_" ++ name)) ∧
      ∀ m, m ≠ "st_" ++ name →
        (cls.cdrDeserialize P mem (.member ("st_" ++ name)) a).2.this m = a.this m := by
    rcases hthis with ⟨hno, hthis⟩ | ⟨o, hthis, ho⟩
    · rw [hthis]
      exact ⟨hleft.mono hle, hleft.static.mono hle.types _ fun ho => absurd ho hno,
        fun _ _ => rfl⟩
    · have hname : (cls.cdrDeserialize P mem (.member ("st_" ++ name)) a).2.this name =
          a.this name := by
        rw [hthis]
        exact Function.update_of_ne (Ne.symm hsn) ..
      have hself : (cls.cdrDeserialize P mem (.member ("st_" ++ name)) a).2.this
          ("st_" ++ name) = o := by
        rw [hthis]
        exact Function.update_self ..
      refine ⟨⟨?_, ?_, ?_⟩, hself ▸ ho, fun m hm => ?_⟩
      · rw [hname]
        exact (hleft.mono hle).block
      · rw [hname]
        exact (hleft.mono hle).cells
      · rw [hself]
        exact ho.mono (Tracking.Le.refl t₁).types o False.elim
      · rw [hthis]
        exact Function.update_of_ne hm ..
  obtain ⟨hleft₁, hsound₁, hframe₁⟩ := helement
  unfold copyRound
  split
  · rename_i a₁ heq
    rw [heq] at hdescribes₁ hleft₁ hsound₁ hframe₁ hruns
    obtain ⟨t₂, hle', hdescribes₂, hwritten⟩ := hdescribes₁.memcpy hleft₁.block i hsound₁
    refine ⟨fun ho => ⟨rfl, ?_⟩, t₂, hle.trans hle', hdescribes₂,
      ⟨(hleft₁.mono hle').block, fun ho b hb j hj => ?_, (hleft₁.mono hle').static⟩, hframe₁⟩
    · rw [copyElement, Decoder.memcpy_ub]
      exact (hruns ho).2
    · by_cases hji : j = i
      · exact hji ▸ hwritten b hb
      · exact (hleft₁.mono hle').cells ho b hb j (by omega)
  · rename_i a₁ heq
    rw [heq] at hdescribes₁ hleft₁ hframe₁ hruns
    have hno : ¬ own := fun ho => Bool.false_ne_true (hruns ho).1
    exact ⟨fun ho => absurd ho hno, t₁, hle, hdescribes₁,
      ⟨hleft₁.block, fun ho => absurd ho hno, hleft₁.static⟩, hframe₁⟩

/-- The loop of a variable array. -/
theorem leaves_dynamicLoop (hel : ElementLeaves P mem n cls) (hstr : cls ≠ .string)
    (hsn : "st_" ++ name ≠ name) (count : Nat) :
    ∀ (i : Nat) (field : List (List Item)) (t : Tracking) (a : Activation),
      t.ends = EndsBefore mem n → t.Describes own a.dec →
      CellsLeft t own name cls i a.this → (own → Rounds cls mem n a.dec.ub field count) →
      ∀ loop, loop = (forLoop
        (copyRound name (cls.cdrDeserialize P mem (.member ("st_" ++ name)))) count i a).2 →
      ∃ t', t.Le t' ∧ t'.Describes own loop.dec ∧
        CellsLeft t' own name cls (i + count) loop.this ∧
        ∀ m, m ≠ "st_" ++ name → loop.this m = a.this m := by
  induction count with
  | zero =>
    intro i field t a _ hdescribes hleft _ loop hloop
    subst hloop
    exact ⟨t, Tracking.Le.refl t, hdescribes, hleft, fun _ _ => rfl⟩
  | succ count ih =>
    intro i field t a hends hdescribes hleft hown loop hloop
    subst hloop
    obtain ⟨hruns, t₁, hle, hdescribes₁, hleft₁, hframe₁⟩ :=
      leaves_copyRound hel hstr hsn hends hdescribes hleft (fun ho => (hown ho).split.1) _ rfl
    rw [forLoop_succ]
    split
    · obtain ⟨t₂, hle', hdescribes₂, hleft₂, hframe₂⟩ := ih (i + 1) field.tail t₁
        (copyRound name (cls.cdrDeserialize P mem (.member ("st_" ++ name))) i a).2
        (hle.ends.trans hends) hdescribes₁ hleft₁
        (fun ho => by rw [(hruns ho).2]; exact (hown ho).split.2) _ rfl
      refine ⟨t₂, hle.trans hle', hdescribes₂, ?_, fun m hm =>
        (hframe₂ m hm).trans (hframe₁ m hm)⟩
      rw [Nat.add_right_comm] at hleft₂
      exact hleft₂
    · rename_i hfails
      have hno : ¬ own := fun ho => hfails (hruns ho).1
      exact ⟨t₁, hle, hdescribes₁, ⟨hleft₁.block, fun ho => absurd ho hno, hleft₁.static⟩, hframe₁⟩

/-! ## The fields -/

section Fields

variable {declared : List (String × MemberType)} {size : ArraySize} {field : List (List Item)}
  {a : Activation}

theorem leaves_single (hel : ElementLeaves P mem n cls) (hid : isIdentifier name = true)
    (hends : t.ends = EndsBefore mem n) (hdescribes : t.Describes own a.dec)
    (hsound : cls.Sound t False (a.this name))
    (hown : own → Rounds cls mem n a.dec.ub field 1) :
    ∀ result, result = (cls.cdrDeserialize P mem (.member name) a).2 →
    ∃ t', t.Le t' ∧ t'.Describes own result.dec ∧ cls.Sound t' own (result.this name) ∧
      ∀ m, m ∉ fieldNames name .single →
        t'.Rewritten own declared a.this result.this m := by
  intro result hresult
  subst hresult
  obtain ⟨t', hle, hdescribes', hthis⟩ := hel t own (field.headD []) (.member name) a
    (fun _ => ⟨name, rfl, mangle_of_isIdentifier hid⟩) hends hdescribes hsound
    fun ho => (hown ho).split.1
  refine ⟨t', hle, hdescribes', ?_⟩
  rcases hthis with ⟨hno, hthis⟩ | ⟨o, hthis, ho⟩
  · rw [hthis]
    exact ⟨hsound.mono hle.types _ fun ho => absurd ho hno, fun _ _ => Or.inl rfl⟩
  · rw [hthis]
    refine ⟨?_, fun m hm => Or.inl (Function.update_of_ne ?_ ..)⟩
    · rw [Place.store, Function.update_self]
      exact ho
    · simpa [fieldNames] using hm

theorem leaves_fixed (hel : ElementLeaves P mem n cls) (hstr : cls ≠ .string) {count : Nat}
    (hends : t.ends = EndsBefore mem n) (hdescribes : t.Describes own a.dec)
    (hsound : fieldSound t name cls (fun own o => cls.Sound t own o) False (.fixed count) a.this)
    (hown : own → Rounds cls mem n a.dec.ub field count) :
    ∀ result, result =
      (forLoop (fun i => cls.cdrDeserialize P mem (.element name i)) count 0 a).2 →
    ∃ t', t.Le t' ∧ t'.Describes own result.dec ∧
      fieldSound t' name cls (fun own o => cls.Sound t' own o) own (.fixed count) result.this ∧
      ∀ m, m ∉ fieldNames name (.fixed count) →
        t'.Rewritten own declared a.this result.this m := by
  intro result hresult
  subst hresult
  obtain ⟨t', hle, hdescribes', hleft, hlength, hframe⟩ := leaves_fixedLoop hel hstr count 0 field
    t a hends hdescribes
    ⟨fun o ho => (hsound.2 o ho).1, fun _ j hj => absurd hj (Nat.not_lt_zero j)⟩ hown _ rfl
  have hbound := hsound.1
  refine ⟨t', hle, hdescribes', ⟨hlength ▸ hbound, fun o ho => ⟨?_, fun h => absurd h hstr⟩⟩,
    fun m hm => Or.inl (hframe m ?_)⟩
  · by_cases hrun : own
    · obtain ⟨j, hj⟩ := List.mem_iff_getElem?.mp ho
      have hlt := (List.getElem?_eq_some_iff.mp hj).1
      exact hleft.left hrun j (by omega) o hj
    · exact (hleft.all o ho).mono (Tracking.Le.refl t').types o fun ho => absurd ho hrun
  · simpa [fieldNames] using hm

theorem leaves_strings (hnodup : (declared.map Prod.fst).Nodup) {count : Nat}
    (hsub : fieldMembers name .string (.fixed count) ⊆ declared)
    (htarget : (mangle (name ++ "[i]"), MemberType.constCharPtr) ∈ declared)
    (hends : t.ends = EndsBefore mem n) (hdescribes : t.Describes own a.dec)
    (hsound : fieldSound t name .string (fun own o => DataClass.string.Sound t own o) False
      (.fixed count) a.this)
    (hown : own → Rounds .string mem n a.dec.ub field count) :
    ∀ result, result =
      (forLoop (fun i => DataClass.string.cdrDeserialize P mem (.element name i)) count 0 a).2 →
    t.Describes own result.dec ∧
      fieldSound t name .string (fun own o => DataClass.string.Sound t own o) own (.fixed count)
        result.this ∧
      ∀ m, t.Rewritten own declared a.this result.this m := by
  intro result hresult
  subst hresult
  obtain ⟨hsame, hthis⟩ := leaves_stringLoop count 0 field a hends hown _ rfl
  have hname : (forLoop (fun i => DataClass.string.cdrDeserialize P mem (.element name i))
      count 0 a).2.this name = a.this name := by
    rcases hthis name with hkept | ⟨heq, -⟩
    · exact hkept
    · rw [← heq] at htarget
      exact nomatch (string_of_declared hnodup hsub (List.mem_singleton_self name) htarget).1
  refine ⟨hdescribes.congr hsame, ?_, fun m => ?_⟩
  · rw [fieldSound, hname]
    exact ⟨hsound.1, fun o ho => ⟨fun _ i hi => absurd hi ((hsound.2 o ho).2 rfl i),
      (hsound.2 o ho).2⟩⟩
  · rcases hthis m with hkept | ⟨rfl, hs⟩
    · exact Or.inl hkept
    · exact Or.inr ⟨htarget, hs⟩

theorem leaves_dynamic (hel : ElementLeaves P mem n cls) (hstr : cls ≠ .string)
    (hnames : (fieldNames name .dynamic).Nodup)
    (hends : t.ends = EndsBefore mem n) (hdescribes : t.Describes own a.dec)
    (hsound : fieldSound t name cls (fun own o => cls.Sound t own o) False .dynamic a.this)
    (hown : own → field.length < 2 ^ 32 ∧ (∀ items ∈ field, cls.Accepts items) ∧
      Inside mem n a.dec.ub ([.prim .four field.length] ++ field.flatten)) :
    ∀ result, result = (deserializeField P mem name cls
      (fun place => cls.cdrDeserialize P mem place) .dynamic a).2 →
    ∃ t', t.Le t' ∧ t'.Describes own result.dec ∧
      fieldSound t' name cls (fun own o => cls.Sound t' own o) own .dynamic result.this ∧
      ∀ m, m ∉ fieldNames name .dynamic →
        t'.Rewritten own declared a.this result.this m := by
  intro result hresult
  subst hresult
  rw [deserializeField_dynamic]
  dsimp only
  have hread := a.dec.read_sameHeap mem .four
  have htaken : own → a.dec.read mem .four =
      ({ a.dec with
          ub := a.dec.ub.after (.prim .four field.length)
          reads := a.dec.reads ++ [.prim .four field.length] }, some field.length) := by
    intro ho
    obtain ⟨hlt, -, hinside⟩ := hown ho
    exact Ahead.read a.dec hinside.split.1.toAhead (by simpa [Width.bytes] using hlt)
  generalize hcount : (a.dec.read mem .four).2.getD
    (P.uninitialised (a.dec.read mem .four).1.reads.length) = lengthT
  obtain ⟨hls, -, hsn⟩ := fieldNames_dynamic_nodup hnames
  obtain ⟨t₁, hle, hdescribes₁, hleft₁, hlength₁, hframe₁⟩ := leaves_growArray (P := P) hnames
    lengthT (a := ⟨a.this, (a.dec.read mem .four).1⟩) (hdescribes.congr hread) hsound
  have hrounds : own → Rounds cls mem n
      (growArray P name cls lengthT ⟨a.this, (a.dec.read mem .four).1⟩).dec.ub field lengthT := by
    intro ho
    obtain ⟨-, hacc, hinside⟩ := hown ho
    rw [(hasRead_growArray P name cls lengthT _).1, ← hcount, htaken ho]
    exact ⟨rfl, hacc, hinside.split.2⟩
  obtain ⟨t₂, hle', hdescribes₂, hleft₂, hframe₂⟩ := leaves_dynamicLoop hel hstr hsn lengthT 0
    field t₁ _ (hle.ends.trans hends) hdescribes₁ hleft₁ hrounds _ rfl
  refine ⟨t₂, hle.trans hle', hdescribes₂, ⟨fun b hb => ⟨hleft₂.block b hb, fun ho j hj => ?_⟩,
    hleft₂.static⟩, fun m hm => Or.inl ?_⟩
  · rw [hframe₂ _ hls, hlength₁] at hj
    exact hleft₂.cells ho b hb j (by rw [Nat.zero_add]; exact hj)
  · have hst : m ≠ "st_" ++ name := by
      intro heq
      subst heq
      exact hm (by simp [fieldNames])
    exact (hframe₂ m hst).trans (hframe₁ m hm)

/-- After the statements for a field, the field is sound, and of the other members only
strings have changed. -/
theorem leaves_field (hel : ElementLeaves P mem n cls) (hnodup : (declared.map Prod.fst).Nodup)
    (hident : ∀ m ∈ declared, isIdentifier m.1 = true)
    (hsub : fieldMembers name cls size ⊆ declared)
    (hnames : (fieldNames name size).Nodup)
    (hstring : cls = .string → (stringTarget name size, MemberType.constCharPtr) ∈ declared)
    (hends : t.ends = EndsBefore mem n) (hdescribes : t.Describes own a.dec)
    (hsound : fieldSound t name cls (fun own o => cls.Sound t own o) False size a.this)
    (hown : own → size.Admits field.length ∧ (∀ items ∈ field, cls.Accepts items) ∧
      Inside mem n a.dec.ub (size.lengthItems field.length ++ field.flatten)) :
    ∀ result, result = (deserializeField P mem name cls
      (fun place => cls.cdrDeserialize P mem place) size a).2 →
    ∃ t', t.Le t' ∧ t'.Describes own result.dec ∧
      fieldSound t' name cls (fun own o => cls.Sound t' own o) own size result.this ∧
      ∀ m, m ∉ fieldNames name size → t'.Rewritten own declared a.this result.this m := by
  have hmember : ∀ m ∈ fieldNames name size, isIdentifier m = true := by
    intro m hm
    rw [← fieldMembers_names name cls size] at hm
    obtain ⟨p, hp, rfl⟩ := List.mem_map.mp hm
    exact hident p (hsub hp)
  cases size with
  | single =>
    exact leaves_single hel (hmember name (List.mem_singleton_self name)) hends hdescribes hsound
      fun ho => ⟨(hown ho).1, (hown ho).2.1, (hown ho).2.2⟩
  | fixed count =>
    have hrounds : own → Rounds cls mem n a.dec.ub field count :=
      fun ho => ⟨(hown ho).1, (hown ho).2.1, (hown ho).2.2⟩
    by_cases hstr : cls = .string
    · subst hstr
      intro result hresult
      subst hresult
      obtain ⟨hdescribes', hsound', hframe⟩ := leaves_strings hnodup hsub (hstring rfl) hends
        hdescribes hsound hrounds _ rfl
      exact ⟨t, Tracking.Le.refl t, hdescribes', hsound', fun m _ => hframe m⟩
    · exact leaves_fixed hel hstr hends hdescribes hsound hrounds
  | dynamic =>
    -- the target of a string would be the static element, which is not declared as one
    have hstr : cls ≠ .string := by
      intro hstr
      have hst : "st_" ++ name ∈ fieldNames name .dynamic := by simp [fieldNames]
      have htarget := hstring hstr
      rw [stringTarget, mangle_of_isIdentifier (hmember _ hst)] at htarget
      have hsingle := (string_of_declared hnodup hsub hst htarget).1
      cases hsingle
    exact leaves_dynamic hel hstr hnames hends hdescribes hsound hown

end Fields

end Loops

/-! ## The induction over the definition -/

theorem Tracking.Rewritten.weaken {t : Tracking} {own : Prop}
    {declared : List (String × MemberType)} {this this' : Members} {m : String}
    (h : t.Rewritten own declared this this' m) : t.Rewritten False declared this this' m := by
  rcases h with hkept | ⟨hm, -⟩
  · exact Or.inl hkept
  · exact Or.inr ⟨hm, False.elim⟩

mutual

/-- After the statements for an element of a class that compiles, its place is sound. -/
theorem DataClass.elementLeaves (P : Platform) (mem : List UInt8) (n : Nat)
    {reserved : String → Prop} {cls : DataClass} (h : cls.Compiles reserved) :
    ElementLeaves P mem n cls := by
  match cls with
  | .primitive p => exact elementLeaves_primitive P mem n p
  | .string => exact elementLeaves_string P mem n
  | .message D =>
    intro t own items place a _ hends hdescribes hsound hown
    obtain ⟨t', hle, hdescribes', hsound', -⟩ := MessageDef.cdrDeserialize_leaves P h.1
      (fun m hm => (h.2.1 m hm).1) (List.Subset.refl D.members) h.1 h.2.2 hends
      (a := ⟨(place.load a.this).members, a.dec⟩) hdescribes hsound hown
    exact ⟨t', hle, hdescribes', Or.inr ⟨_, rfl, hsound'⟩⟩

/-- After `cdr_deserialize` the object is sound, and it belongs to the run if the
run read an accepted layout. -/
theorem MessageDef.cdrDeserialize_leaves (P : Platform) {mem : List UInt8} {n : Nat}
    {reserved : String → Prop} {declared : List (String × MemberType)}
    (hnodup : (declared.map Prod.fst).Nodup)
    (hident : ∀ m ∈ declared, isIdentifier m.1 = true) {D : MessageDef}
    (hsub : D.members ⊆ declared) (hnames : D.names.Nodup)
    (hfields : D.FieldsCompile reserved declared) {t : Tracking}
    (hends : t.ends = EndsBefore mem n) {own : Prop} {items : List Item}
    {a : Activation} (hdescribes : t.Describes own a.dec) (hsound : D.Sound t False a.this)
    (hown : own → D.Accepts items ∧ Inside mem n a.dec.ub items) :
    ∃ t', t.Le t' ∧ t'.Describes own (D.cdrDeserialize P mem a).2.dec ∧
      D.Sound t' own (D.cdrDeserialize P mem a).2.this ∧
      ∀ m, m ∉ D.names →
        t'.Rewritten own declared a.this (D.cdrDeserialize P mem a).2.this m := by
  match D with
  | .nil => exact ⟨t, Tracking.Le.refl t, hdescribes, trivial, fun _ _ => Or.inl rfl⟩
  | .cons name cls size rest =>
    rw [MessageDef.names_cons] at hnames
    obtain ⟨hown₁, hrest, hdisjoint⟩ := List.nodup_append.mp hnames
    have hsub' : fieldMembers name cls size ++ rest.members ⊆ declared := hsub
    obtain ⟨hsub₁, hsub₂⟩ := List.append_subset.mp hsub'
    obtain ⟨field, more, hitems⟩ : ∃ (field : List (List Item)) (more : List Item), own →
        (size.Admits field.length ∧ (∀ items ∈ field, cls.Accepts items) ∧
          Inside mem n a.dec.ub (size.lengthItems field.length ++ field.flatten)) ∧
        rest.Accepts more ∧ Inside mem n
          (a.dec.ub.afterAll (size.lengthItems field.length ++ field.flatten)) more := by
      by_cases ho : own
      · obtain ⟨⟨field, more, hsize, helements, hmore, rfl⟩, hinside⟩ := hown ho
        exact ⟨field, more, fun _ => ⟨⟨hsize, helements, hinside.split.1⟩, hmore,
          hinside.split.2⟩⟩
      · exact ⟨[], [], fun h => absurd h ho⟩
    have hruns := fun ho => determined_field P name cls (hitems ho).1.1
      (fun place items hmem => cls.cdrDeserialize_determined P ((hitems ho).1.2.1 items hmem) place)
      a (hitems ho).1.2.2.toAhead (hitems ho).1.2.2.toAhead
    obtain ⟨t₁, hle, hdescribes₁, hfield, hframe₁⟩ := leaves_field
      (DataClass.elementLeaves P mem n hfields.2.1) hnodup hident hsub₁ hown₁ hfields.1 hends
      hdescribes hsound.1 (fun ho => (hitems ho).1) _ rfl
    -- the statements for the field leave the others sound, but not yet of this run
    have hothers : rest.Sound t₁ False (deserializeField P mem name cls
        (fun place => cls.cdrDeserialize P mem place) size a).2.this := by
      refine MessageDef.Sound.frame hnodup hsub₂ (fun m hm => (hframe₁ m fun hf => ?_).weaken)
        (hsound.2.mono hle.types False.elim)
      exact hdisjoint m hf m hm rfl
    rw [MessageDef.cdrDeserialize]
    split
    · rename_i a₁ heq
      rw [heq] at hdescribes₁ hfield hframe₁ hothers hruns
      obtain ⟨t₂, hle', hdescribes₂, hsound₂, hframe₂⟩ := MessageDef.cdrDeserialize_leaves P hnodup
        hident hsub₂ hrest hfields.2.2 (hle.ends.trans hends) hdescribes₁ hothers
        fun ho => by
          obtain ⟨a', hrun, -, hread⟩ := hruns ho
          obtain rfl := (Prod.mk.inj hrun).2
          rw [hread.1]
          exact (hitems ho).2
      refine ⟨t₂, hle.trans hle', hdescribes₂, ⟨?_, hsound₂⟩, fun m hm => ?_⟩
      · refine fieldSound_frame hnodup hsub₁ (fun m hm => hframe₂ m fun hr => ?_)
          (fieldSound_mono hle'.types (fun ho => ⟨ho, hle'⟩)
            (fun o ho hs => DataClass.Sound.mono hle'.types o ho hs) hfield)
        exact hdisjoint m hm m hr rfl
      · rw [MessageDef.names_cons, List.mem_append, not_or] at hm
        exact (hframe₁ m hm.1).trans hle' (hframe₂ m hm.2)
    · rename_i a₁ heq
      rw [heq] at hdescribes₁ hfield hframe₁ hothers hruns
      have hno : ¬ own := by
        intro ho
        obtain ⟨a', hrun, -, -⟩ := hruns ho
        exact Bool.false_ne_true (Prod.mk.inj hrun).1
      refine ⟨t₁, hle, hdescribes₁, ⟨hfield, ?_⟩, fun m hm => hframe₁ m fun hf => hm ?_⟩
      · exact hothers.mono (Tracking.Le.refl t₁).types fun ho => absurd ho hno
      · rw [MessageDef.names_cons]
        exact List.mem_append_left _ hf

end

/-! ## What can be read from an object of the run -/

section Reading

variable {mem mem' : List UInt8} {n : Nat}

/-- A string that ends before `n` is the same in two memories that agree there. -/
theorem readString_congr_memory {i : Nat} (hlength : mem.length = mem'.length)
    (hagree : mem.take n = mem'.take n) (hends : EndsBefore mem n i) :
    readString mem (.input i) = readString mem' (.input i) := by
  obtain ⟨k, hik, hkn, hk⟩ := hends
  have hsplit : ∀ m : List UInt8, m[k]? = some 0 →
      (m.drop i).takeWhile (fun b => b ≠ 0) =
        ((m.take k).drop i).takeWhile fun b => b ≠ 0 := by
    intro m hm
    obtain ⟨hlt, hget⟩ := List.getElem?_eq_some_iff.mp hm
    have hdrop : m.drop i = (m.take k).drop i ++ 0 :: m.drop (k + 1) := by
      rw [← hget, ← List.drop_eq_getElem_cons hlt, ← List.drop_append_of_le_length (by simp; omega),
        List.take_append_drop]
    rw [hdrop, List.takeWhile_append]
    split
    · rename_i hall
      rw [List.takeWhile_cons, if_neg (by simp), List.append_nil]
      exact ((List.takeWhile_prefix _).eq_of_length hall).symm
    · rfl
  have hk' : mem'[k]? = some 0 := by
    have hget := congrArg (fun l => l[k]?) hagree
    simp only [List.getElem?_take_of_lt hkn] at hget
    rw [← hget]
    exact hk
  have htake : mem.take k = mem'.take k := by
    have hk₁ := List.take_take (i := k) (j := n) (l := mem)
    have hk₂ := List.take_take (i := k) (j := n) (l := mem')
    rw [Nat.min_eq_left (Nat.le_of_lt hkn)] at hk₁ hk₂
    rw [← hk₁, ← hk₂, hagree]
  simp only [readString, hsplit mem hk, hsplit mem' hk', htake, hlength]

theorem mapM_congr {α β : Type} {f g : α → Option β} {l : List α} (h : ∀ x ∈ l, f x = g x) :
    l.mapM f = l.mapM g := by
  induction l with
  | nil => rfl
  | cons x rest ih =>
    rw [List.mapM_cons, List.mapM_cons, h x List.mem_cons_self,
      ih fun y hy => h y (List.mem_cons_of_mem _ hy)]

/-- The elements of a field that belongs to the run belong to it. -/
theorem fieldElems_sound {t : Tracking} {dec : Decoder} {name : String} {cls : DataClass}
    {size : ArraySize} {this : Members} (hdescribes : t.Describes True dec)
    (hsound : fieldSound t name cls (fun own o => cls.Sound t own o) True size this)
    {os : List Obj} (hos : fieldElems dec.heap name size this = some os) :
    ∀ o ∈ os, cls.Sound t True o := by
  intro o ho
  cases size with
  | single =>
    obtain rfl := Option.some.inj hos
    rw [List.mem_singleton.mp ho]
    exact hsound
  | fixed count =>
    obtain rfl := Option.some.inj hos
    exact (hsound.2 o ho).1
  | dynamic =>
    simp only [fieldElems] at hos
    split at hos
    · obtain rfl := Option.some.inj hos
      exact absurd ho List.not_mem_nil
    · split at hos
      · rename_i cells hcells
        split at hos
        · obtain rfl := Option.some.inj hos
          obtain ⟨b, hb, hheap⟩ := Option.bind_eq_some_iff.mp hcells
          obtain ⟨htype, hwritten⟩ := hsound.1 b hb
          obtain ⟨j, hj⟩ := List.mem_iff_getElem?.mp ho
          obtain ⟨hlt, hget⟩ := List.getElem?_eq_some_iff.mp hj
          rw [List.length_take] at hlt
          rw [List.getElem?_take_of_lt (by omega)] at hj
          refine (hdescribes.cells b cells cls hheap htype j o hj).mono
            (Tracking.Le.refl t).types o fun _ => ⟨⟨trivial, ?_⟩, Tracking.Le.refl t⟩
          exact hwritten trivial j (by omega)
        · cases hos
      · cases hos

mutual

theorem DataClass.readBack_congr_memory {t : Tracking} {dec : Decoder}
    (hlength : mem.length = mem'.length) (hagree : mem.take n = mem'.take n)
    (hends : t.ends = EndsBefore mem n) (hdescribes : t.Describes True dec)
    (cls : DataClass) {o : Obj} (h : cls.Sound t True o) :
    cls.readBack mem dec.heap o = cls.readBack mem' dec.heap o := by
  match cls with
  | .primitive p => rfl
  | .string =>
    simp only [DataClass.readBack]
    cases o with
    | chars p =>
      cases p with
      | input i => exact readString_congr_memory hlength hagree (hends ▸ h trivial i rfl)
      | null => rfl
      | literal => rfl
    | _ => rfl
  | .message D =>
    simp only [DataClass.readBack]
    cases o with
    | message members =>
      exact D.readBack_congr_memory hlength hagree hends hdescribes h
    | _ => rfl

/-- The value of an object that belongs to the run does not depend on the memory
behind the layout that the run read. -/
theorem MessageDef.readBack_congr_memory {t : Tracking} {dec : Decoder}
    (hlength : mem.length = mem'.length) (hagree : mem.take n = mem'.take n)
    (hends : t.ends = EndsBefore mem n) (hdescribes : t.Describes True dec)
    (D : MessageDef) {this : Members} (h : D.Sound t True this) :
    D.readBack mem dec.heap this = D.readBack mem' dec.heap this := by
  match D with
  | .nil => rfl
  | .cons name cls size rest =>
    have helems : (fieldElems dec.heap name size this).bind
          (List.mapM fun o => cls.readBack mem dec.heap o) =
        (fieldElems dec.heap name size this).bind
          (List.mapM fun o => cls.readBack mem' dec.heap o) := by
      cases hos : fieldElems dec.heap name size this with
      | none => rfl
      | some os =>
        exact mapM_congr fun o ho => cls.readBack_congr_memory hlength hagree hends hdescribes
          (fieldElems_sound hdescribes h.1 hos o ho)
    simp only [MessageDef.readBack, helems,
      rest.readBack_congr_memory hlength hagree hends hdescribes h.2]

end

end Reading

/-! ## Between the runs -/

/-- The record at the start of a run: nothing is written yet. -/
def Tracking.restart (t : Tracking) (ends : Nat → Prop) : Tracking :=
  ⟨ends, t.types, fun _ _ => False⟩

theorem Tracking.restart_types (t : Tracking) (ends : Nat → Prop) (b : Nat) (cls : DataClass)
    (h : t.types b = some cls) : (t.restart ends).types b = some cls :=
  h

theorem Tracking.Describes.restart {t : Tracking} {dec dec' : Decoder} (h : t.Describes False dec)
    (hsame : SameHeap dec dec') (ends : Nat → Prop) (own : Prop) :
    (t.restart ends).Describes own dec' where
  fresh := (h.congr hsame).fresh
  written _ _ := False.elim
  cells b cells cls hcells htype j o hj :=
    ((h.congr hsame).cells b cells cls hcells htype j o hj).mono (t.restart_types ends) o
      fun hw => hw.2.elim

mutual

theorem DataClass.sound_construct (t : Tracking) {cls : DataClass} (h : cls.AllWellNamed) :
    cls.Sound t False cls.construct := by
  match cls with
  | .primitive _ => trivial
  | .string => exact False.elim
  | .message D => exact MessageDef.sound_construct t h.1 h.2

/-- The constructor leaves a sound object. -/
theorem MessageDef.sound_construct (t : Tracking) {D : MessageDef} (hnamed : D.WellNamed)
    (hfields : D.FieldsWellNamed) : D.Sound t False D.construct := by
  match D with
  | .nil => trivial
  | .cons name cls size rest =>
    have hcls := DataClass.sound_construct t hfields.1
    have hrest : rest.Sound t False (MessageDef.cons name cls size rest).construct := by
      refine MessageDef.Sound.frame hnamed.rest.nodup (List.Subset.refl rest.members)
        (fun m hm => Or.inl ?_) (MessageDef.sound_construct t hnamed.rest hfields.2)
      exact construct_cons_of_notMem fun hf => hnamed.disjoint hf hm
    refine ⟨?_, hrest⟩
    cases size with
    | single =>
      cases cls with
      | primitive p => trivial
      | string => exact False.elim
      | message D => simpa [fieldSound, MessageDef.construct] using hcls
    | fixed n =>
      simp only [fieldSound, MessageDef.construct, Function.update_self, Obj.elems,
        List.length_replicate, Nat.le_refl, true_and]
      intro o ho
      rw [List.eq_of_mem_replicate ho]
      refine ⟨hcls, ?_⟩
      rintro rfl i hi
      cases hi
    | dynamic =>
      have hn := hnamed.field
      obtain ⟨hls, -, hsn⟩ := fieldNames_dynamic_nodup hn
      simp [fieldSound, MessageDef.construct, hsn, Obj.asPointer, Function.update_of_ne, hcls]

end

/-- Two runs on memories that have the same accepted layout in front of `n` leave
objects of the same value, whatever the object held before. -/
theorem readBack_determined (P : Platform) {reserved : String → Prop} {D : MessageDef}
    (hD : D.Compiles reserved) {mem mem' : List UInt8} {n : Nat} {items : List Item}
    (haccepts : D.Accepts items) {t : Tracking} {a : Activation}
    (hdescribes : t.Describes False a.dec) (hsound : D.Sound t False a.this)
    (hinside : Inside mem n a.dec.ub items) (hahead : Ahead mem' a.dec.ub items)
    (hlength : mem.length = mem'.length) (hagree : mem.take n = mem'.take n) :
    D.readBack mem (D.cdrDeserialize P mem a).2.dec.heap (D.cdrDeserialize P mem a).2.this =
      D.readBack mem' (D.cdrDeserialize P mem' a).2.dec.heap
        (D.cdrDeserialize P mem' a).2.this := by
  obtain ⟨a', hrun, hrun', -⟩ :=
    D.cdrDeserialize_determined P haccepts a hinside.toAhead hahead
  obtain ⟨t', hle, hdescribes', hsound', -⟩ := MessageDef.cdrDeserialize_leaves P hD.1
    (fun m hm => (hD.2.1 m hm).1) (List.Subset.refl D.members) hD.1 hD.2.2 rfl
    (hdescribes.restart (SameHeap.refl a.dec) (EndsBefore mem n) True)
    (hsound.mono (t.restart_types _) False.elim) fun _ => ⟨haccepts, hinside⟩
  rw [hrun, hrun']
  rw [hrun] at hdescribes' hsound'
  exact D.readBack_congr_memory hlength hagree hle.ends hdescribes' hsound'

end Ros2Serial.Generator
