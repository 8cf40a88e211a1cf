import Ros2Serial.Generator.Deserializer

/-!
# Decoding a layout that is there

On a buffer whose next bytes are the layout of a value, the generated
`cdr_deserialize` takes no error path.  `MessageDef.replay` is what is left of
it then: the assignments to the object and to the heap, with the value in
place of the reads.  `cdrDeserialize_eq_replay` is the equation, and it needs
nothing of the definition, not even that the generated class compiles.

`Ahead` is the premise.  It is about the buffer and the memory only, and it
splits where the layout splits, so the induction over the definition hands
each statement its own items.
-/

namespace Ros2Serial.Generator

open Bytes PlainCdr Ucdr

/-! ## The layout ahead of the iterator -/

/-- The next bytes of the buffer are the layout of `items`. -/
structure Ahead (mem : List UInt8) (ub : Buffer) (items : List Item) : Prop where
  live : ub.Live
  fits : ub.init + endPos ub.offset items ≤ ub.final
  bound : ub.final ≤ mem.length
  layout : Matches (encode ub.offset items)
    (slice mem ub.iterator (encode ub.offset items).length)

/-- The layout of a sequence splits into that of its first part and, behind
it, that of its second part. -/
theorem Ahead.split {mem : List UInt8} {ub : Buffer} {xs ys : List Item}
    (h : Ahead mem ub (xs ++ ys)) : Ahead mem ub xs ∧ Ahead mem (ub.afterAll xs) ys := by
  have hfits := h.fits
  rw [endPos_append] at hfits
  have hle := le_endPos (endPos ub.offset xs) ys
  have hlay := h.layout
  rw [encode_append, List.length_append, slice_add] at hlay
  have hit := h.live.iterator_eq
  have hend := endPos_eq ub.offset xs
  have hin : ub.iterator + (encode ub.offset xs).length ≤ mem.length := by
    have := h.bound
    omega
  obtain ⟨hx, hy⟩ := hlay.split
  rw [List.take_left' (slice_length hin)] at hx
  rw [List.drop_left' (slice_length hin)] at hy
  have hlive := h.live.afterAll xs (by omega)
  have hstart : (ub.afterAll xs).iterator = ub.iterator + (encode ub.offset xs).length := by
    rw [hlive.iterator_eq, Buffer.afterAll_init, Buffer.afterAll_offset, hend, hit]
    omega
  refine ⟨⟨h.live, by omega, h.bound, hx⟩, hlive, ?_, ?_, ?_⟩
  · simpa using hfits
  · simpa using h.bound
  · rw [hstart]
    simpa using hy

/-- The first item of a layout, and the rest behind it. -/
theorem Ahead.cons {mem : List UInt8} {ub : Buffer} {it : Item} {rest : List Item}
    (h : Ahead mem ub (it :: rest)) : Ahead mem ub [it] ∧ Ahead mem (ub.after it) rest :=
  Ahead.split (h : Ahead mem ub ([it] ++ rest))

/-- A read finds the primitive that is ahead. -/
theorem Ahead.read {mem : List UInt8} (dec : Decoder) {w : Width} {n : Nat}
    (h : Ahead mem dec.ub [.prim w n]) (hn : n < 256 ^ w.bytes) :
    dec.read mem w =
      ({ dec with ub := dec.ub.after (.prim w n), reads := dec.reads ++ [.prim w n] },
        some n) := by
  have hlay : Matches ((Item.prim w n).encode dec.ub.offset)
      (slice mem dec.ub.iterator ((Item.prim w n).encode dec.ub.offset).length) := by
    simpa [encode] using h.layout
  rw [Decoder.read, deserialize_matches h.live hn (by simpa [endPos] using h.fits) hlay]

/-- Bytes that are ahead are in memory at the iterator. -/
theorem Ahead.octets {mem : List UInt8} {ub : Buffer} {bytes : List UInt8}
    (h : Ahead mem ub [.octets bytes]) : slice mem ub.iterator bytes.length = bytes := by
  have hlay := h.layout
  simp only [encode, Item.encode, List.append_nil, List.length_map] at hlay
  exact matches_map_some.mp hlay

/-- The memory holds enough bytes for what is ahead. -/
theorem Ahead.octets_le {mem : List UInt8} {ub : Buffer} {bytes : List UInt8}
    (h : Ahead mem ub [.octets bytes]) :
    ub.iterator + bytes.length ≤ ub.final ∧ ub.final ≤ mem.length := by
  have hfits := h.fits
  have hit := h.live.iterator_eq
  simp only [endPos, Item.endPos] at hfits
  exact ⟨by omega, h.bound⟩

/-! ## The assignments of a run -/

/-- A read of the item. -/
def Activation.accept (it : Item) (a : Activation) : Activation :=
  { a with dec := { a.dec with ub := a.dec.ub.after it, reads := a.dec.reads ++ [it] } }

/-- The assignment for a string that is there. -/
def replayString (place : Place) (s : List UInt8) (a : Activation) : Activation :=
  let a := a.accept (.prim .four (s.length + 1))
  let this := Function.update a.this (mangle place.text) (.chars (.input a.dec.ub.iterator))
  Activation.accept (.octets (s ++ [0])) { a with this := this }

/-- A loop over the elements of a value. -/
def replayLoop {α : Type} (body : Nat → α → Activation → Activation) :
    List α → Nat → Activation → Activation
  | [], _, a => a
  | v :: vs, i, a => replayLoop body vs (i + 1) (body i v a)

/-- The code in front of the loop of a variable array: room for the elements,
and the new length. -/
def growArray (P : Platform) (name : String) (cls : DataClass) (lengthT : Nat)
    (a : Activation) : Activation :=
  let (this, dec) :=
    if (a.this (name ++ "_length")).asValue < lengthT then
      let (dec, block) := a.dec.realloc P cls (a.this name).asPointer lengthT
      (Function.update a.this name (.pointer (some block)), dec)
    else (a.this, a.dec)
  ⟨Function.update this (name ++ "_length") (.value lengthT), dec⟩

/-- The last statement of the loop of a variable array. -/
def copyElement (name : String) (i : Nat) (a : Activation) : Activation :=
  { a with dec := a.dec.memcpy (a.this name).asPointer i (a.this ("st_" ++ name)) }

/-- The assignments for a field. -/
def replayField {α : Type} (P : Platform) (name : String) (cls : DataClass)
    (element : α → Place → Activation → Activation) : ArraySize → List α → Activation → Activation
  | .single, vs, a => replayLoop (fun _ v => element v (.member name)) vs 0 a
  | .fixed _, vs, a => replayLoop (fun i v => element v (.element name i)) vs 0 a
  | .dynamic, vs, a =>
    replayLoop (fun i v a => copyElement name i (element v (.member ("st_" ++ name)) a)) vs 0
      (growArray P name cls vs.length (a.accept (.prim .four vs.length)))

mutual

/-- The assignments for an element. -/
def DataClass.replay (P : Platform) :
    (cls : DataClass) → cls.Val → Place → Activation → Activation
  | .primitive p, (v : Fin p.card), place, a =>
    let a := a.accept (.prim p.width v)
    { a with this := place.store a.this (.value v) }
  | .string, (s : CString), place, a => replayString place s.val a
  | .message D, v, place, a =>
    let sub := D.replay P v ⟨(place.load a.this).members, a.dec⟩
    ⟨place.store a.this (.message sub.this), sub.dec⟩

/-- The assignments for a message. -/
def MessageDef.replay (P : Platform) : (D : MessageDef) → D.Val → Activation → Activation
  | .nil, _, a => a
  | .cons name cls size rest, (field, more), a =>
    rest.replay P more
      (replayField P name cls (fun v place => cls.replay P v place) size field.val a)

end

/-! ## What the assignments leave of the buffer -/

/-- `a'` has read the items behind `a`, and nothing else. -/
def HasRead (items : List Item) (a a' : Activation) : Prop :=
  a'.dec.ub = a.dec.ub.afterAll items ∧ a'.dec.reads = a.dec.reads ++ items

theorem HasRead.refl (a : Activation) : HasRead [] a a := by
  simp [HasRead]

theorem HasRead.trans {xs ys : List Item} {a b c : Activation} (h : HasRead xs a b)
    (h' : HasRead ys b c) : HasRead (xs ++ ys) a c := by
  constructor
  · rw [h'.1, h.1, Buffer.afterAll_append]
  · rw [h'.2, h.2, List.append_assoc]

theorem hasRead_accept (it : Item) (a : Activation) : HasRead [it] a (a.accept it) :=
  ⟨rfl, rfl⟩

theorem hasRead_replayString (place : Place) (s : List UInt8) (a : Activation) :
    HasRead (stringItems s) a (replayString place s a) := by
  simp [HasRead, replayString, stringItems, Activation.accept]

theorem hasRead_growArray (P : Platform) (name : String) (cls : DataClass) (n : Nat)
    (a : Activation) : HasRead [] a (growArray P name cls n a) := by
  simp only [HasRead, growArray, Decoder.realloc]
  split <;> simp

theorem hasRead_copyElement (name : String) (i : Nat) (a : Activation) :
    HasRead [] a (copyElement name i a) := by
  simp only [HasRead, copyElement, Decoder.memcpy]
  split
  · split
    · split <;> simp
    · simp
  · simp

/-- A loop reads what its rounds read. -/
theorem hasRead_replayLoop {α : Type} {body : Nat → α → Activation → Activation}
    {items : α → List Item} (h : ∀ i v a, HasRead (items v) a (body i v a)) (vs : List α)
    (i : Nat) (a : Activation) : HasRead (vs.flatMap items) a (replayLoop body vs i a) := by
  induction vs generalizing i a with
  | nil => exact HasRead.refl a
  | cons v rest ih =>
    rw [List.flatMap_cons]
    exact (h i v a).trans (ih (i + 1) (body i v a))

theorem hasRead_replayField {α : Type} (P : Platform) (name : String) (cls : DataClass)
    {element : α → Place → Activation → Activation} {items : α → List Item}
    (h : ∀ v place a, HasRead (items v) a (element v place a)) (size : ArraySize) (vs : List α)
    (a : Activation) :
    HasRead (size.lengthItems vs.length ++ vs.flatMap items) a
      (replayField P name cls element size vs a) := by
  cases size with
  | single => exact hasRead_replayLoop (fun _ v a => h v _ a) vs 0 a
  | fixed n => exact hasRead_replayLoop (fun _ v a => h v _ a) vs 0 a
  | dynamic =>
    have hgrow : HasRead [.prim .four vs.length] a
        (growArray P name cls vs.length (a.accept (.prim .four vs.length))) :=
      (hasRead_accept _ a).trans (hasRead_growArray P name cls _ _)
    refine hgrow.trans (hasRead_replayLoop (fun i v a => ?_) vs 0 _)
    simpa using (h v _ a).trans (hasRead_copyElement name i _)

mutual

theorem DataClass.hasRead_replay (P : Platform) (cls : DataClass) (v : cls.Val) (place : Place)
    (a : Activation) : HasRead (cls.items v) a (cls.replay P v place a) := by
  match cls, v with
  | .primitive p, v => exact ⟨rfl, rfl⟩
  | .string, s => exact hasRead_replayString place s.val a
  | .message D, v => exact D.hasRead_replay P v ⟨(place.load a.this).members, a.dec⟩

theorem MessageDef.hasRead_replay (P : Platform) (D : MessageDef) (v : D.Val) (a : Activation) :
    HasRead (D.items v) a (D.replay P v a) := by
  match D, v with
  | .nil, _ => exact HasRead.refl a
  | .cons name cls size rest, (field, more) =>
    have hfield := hasRead_replayField P name cls (DataClass.hasRead_replay P cls) size field.val a
    exact hfield.trans (MessageDef.hasRead_replay P rest more _)

end

/-! ## The code is its assignments -/

/-- The statements for a string that is ahead. -/
theorem deserializeString_eq_replay {mem : List UInt8} (place : Place) {s : List UInt8}
    (hs : s.length + 1 < 2 ^ 32) {a : Activation} (h : Ahead mem a.dec.ub (stringItems s)) :
    deserializeString mem place a = (true, replayString place s a) := by
  obtain ⟨hlen, hbytes⟩ := Ahead.cons h
  have hread := Ahead.read a.dec hlen (by simpa [Width.bytes] using hs)
  obtain ⟨hle, hbound⟩ := hbytes.octets_le
  have hslice := hbytes.octets
  simp only [List.length_append, List.length_cons, List.length_nil, Nat.zero_add] at hle hslice
  have hmod : (s.length + 1 + (2 ^ 32 - 1)) % 2 ^ 32 = s.length := by omega
  have hzero : mem.getD ((a.dec.ub.after (.prim .four (s.length + 1))).iterator +
      s.length) 0 = 0 := by
    have hget := getElem?_slice mem
      (a.dec.ub.after (.prim .four (s.length + 1))).iterator (Nat.lt_succ_self s.length)
    rw [hslice] at hget
    simp only [List.getD_eq_getElem?_getD, ← hget]
    simp
  have hfault : ¬ mem.length ≤
      (a.dec.ub.after (.prim .four (s.length + 1))).iterator + s.length := by omega
  have hadv := advanceBuffer_octets hbytes.live (s ++ [0]) (by simpa using hle)
  simp only [List.length_append, List.length_cons, List.length_nil, Nat.zero_add] at hadv
  rw [deserializeString, hread]
  simp only [hmod, hzero, hslice, hadv, hfault, decide_false, Bool.or_false, ne_eq,
    not_true_eq_false, if_false]
  rfl

/-- A loop whose rounds are their assignments is its assignments. -/
theorem forLoop_eq_replayLoop {α : Type} (mem : List UInt8)
    {body : Nat → Activation → Bool × Activation} {replay : Nat → α → Activation → Activation}
    {items : α → List Item}
    (h : ∀ i v a, Ahead mem a.dec.ub (items v) → body i a = (true, replay i v a))
    (hread : ∀ i v a, HasRead (items v) a (replay i v a)) (vs : List α) (i : Nat)
    (a : Activation) (hahead : Ahead mem a.dec.ub (vs.flatMap items)) :
    forLoop body vs.length i a = (true, replayLoop replay vs i a) := by
  induction vs generalizing i a with
  | nil => rfl
  | cons v rest ih =>
    rw [List.flatMap_cons] at hahead
    obtain ⟨hv, hrest⟩ := hahead.split
    rw [← (hread i v a).1] at hrest
    rw [List.length_cons, forLoop, h i v a hv]
    exact ih (i + 1) (replay i v a) hrest

/-- The statements for a field whose layout is ahead. -/
theorem deserializeField_eq_replay {α : Type} (P : Platform) {mem : List UInt8} (name : String)
    (cls : DataClass) {element : Place → Activation → Bool × Activation}
    {replay : α → Place → Activation → Activation} {items : α → List Item}
    (h : ∀ v place a, Ahead mem a.dec.ub (items v) →
      element place a = (true, replay v place a))
    (hread : ∀ v place a, HasRead (items v) a (replay v place a)) {size : ArraySize}
    {vs : List α} (hsize : size.Admits vs.length) {a : Activation}
    (hahead : Ahead mem a.dec.ub (size.lengthItems vs.length ++ vs.flatMap items)) :
    deserializeField P mem name cls element size a =
      (true, replayField P name cls replay size vs a) := by
  cases size with
  | single =>
    obtain ⟨v, rfl⟩ := List.length_eq_one_iff.mp hsize
    exact h v (.member name) a (by simpa [ArraySize.lengthItems] using hahead)
  | fixed n =>
    have hn : n = vs.length := Eq.symm hsize
    subst hn
    exact forLoop_eq_replayLoop mem (fun i v a => h v (.element name i) a)
      (fun i v a => hread v (.element name i) a) vs 0 a hahead
  | dynamic =>
    have hlt : vs.length < 2 ^ 32 := hsize
    obtain ⟨hlen, helems⟩ := Ahead.cons hahead
    have hr := Ahead.read a.dec hlen (by simpa [Width.bytes] using hlt)
    simp only [deserializeField, hr, Option.getD_some]
    refine forLoop_eq_replayLoop mem (?_ : ∀ i v a, Ahead mem a.dec.ub (items v) →
      _ = (true, copyElement name i (replay v (.member ("st_" ++ name)) a))) ?_ vs 0
      (growArray P name cls vs.length (a.accept (.prim .four vs.length))) ?_
    · intro i v a hv
      rw [h v _ a hv]
      rfl
    · intro i v a
      simpa using (hread v (.member ("st_" ++ name)) a).trans (hasRead_copyElement name i _)
    · rw [(hasRead_growArray P name cls vs.length _).1]
      exact helems

mutual

/-- The code for an element whose layout is ahead. -/
theorem DataClass.cdrDeserialize_eq_replay (P : Platform) {mem : List UInt8} (cls : DataClass)
    (v : cls.Val) (place : Place) (a : Activation) (h : Ahead mem a.dec.ub (cls.items v)) :
    cls.cdrDeserialize P mem place a = (true, cls.replay P v place a) := by
  match cls, v with
  | .primitive p, v =>
    have hread := Ahead.read a.dec h (Nat.lt_of_lt_of_le v.isLt p.card_le)
    have hcast : p.cast v.val = v.val := p.cast_val v
    simp only [DataClass.cdrDeserialize, hread, hcast]
    rfl
  | .string, s => exact deserializeString_eq_replay place s.property.2 h
  | .message D, v =>
    have hsub := D.cdrDeserialize_eq_replay P v ⟨(place.load a.this).members, a.dec⟩ h
    simp only [DataClass.cdrDeserialize, hsub]
    rfl

/-- `cdr_deserialize` on the layout of a value. -/
theorem MessageDef.cdrDeserialize_eq_replay (P : Platform) {mem : List UInt8} (D : MessageDef)
    (v : D.Val) (a : Activation) (h : Ahead mem a.dec.ub (D.items v)) :
    D.cdrDeserialize P mem a = (true, D.replay P v a) := by
  match D, v with
  | .nil, _ => rfl
  | .cons name cls size rest, (field, more) =>
    obtain ⟨hfield, hmore⟩ := Ahead.split h
    have hread := hasRead_replayField P name cls (DataClass.hasRead_replay P cls) size field.val a
    rw [← hread.1] at hmore
    rw [MessageDef.cdrDeserialize, deserializeField_eq_replay P name cls
      (fun v place a hv => DataClass.cdrDeserialize_eq_replay P cls v place a hv)
      (DataClass.hasRead_replay P cls) field.property hfield]
    exact MessageDef.cdrDeserialize_eq_replay P rest more _ hmore

end

/-- What `cdr_deserialize` leaves of the buffer when the layout of a value is
ahead: it has read the items of the value, and nothing else. -/
theorem MessageDef.hasRead_cdrDeserialize (P : Platform) {mem : List UInt8} (D : MessageDef)
    (v : D.Val) (a : Activation) (h : Ahead mem a.dec.ub (D.items v)) :
    (D.cdrDeserialize P mem a).1 = true ∧ HasRead (D.items v) a (D.cdrDeserialize P mem a).2 := by
  rw [D.cdrDeserialize_eq_replay P v a h]
  exact ⟨rfl, D.hasRead_replay P v a⟩

/-! ## Input of any content

Whatever the buffer holds, and however far a run gets, the buffer stays over
the same memory. -/

theorem Decoder.read_sameEnds (mem : List UInt8) (w : Width) (dec : Decoder) :
    SameEnds dec.ub (dec.read mem w).1.ub := by
  have h := deserialize_sameEnds mem w dec.ub
  simp only [Decoder.read]
  split <;> (rename_i heq; rw [heq] at h; exact h)

@[simp] theorem Decoder.realloc_ub (P : Platform) (cls : DataClass) (p : Option Nat) (n : Nat)
    (dec : Decoder) : (dec.realloc P cls p n).1.ub = dec.ub := rfl

/-- `memcpy` writes to a block, or it is a fault. -/
theorem Decoder.exists_memcpy_eq (p : Option Nat) (i : Nat) (o : Obj) (dec : Decoder) :
    ∃ heap fault, dec.memcpy p i o = { dec with heap := heap, fault := fault } := by
  unfold Decoder.memcpy
  split
  · split
    · split <;> exact ⟨_, _, rfl⟩
    · exact ⟨_, _, rfl⟩
  · exact ⟨_, _, rfl⟩

@[simp] theorem Decoder.memcpy_ub (p : Option Nat) (i : Nat) (o : Obj) (dec : Decoder) :
    (dec.memcpy p i o).ub = dec.ub := by
  obtain ⟨heap, fault, h⟩ := dec.exists_memcpy_eq p i o
  rw [h]

@[simp] theorem Decoder.memcpy_reads (p : Option Nat) (i : Nat) (o : Obj) (dec : Decoder) :
    (dec.memcpy p i o).reads = dec.reads := by
  obtain ⟨heap, fault, h⟩ := dec.exists_memcpy_eq p i o
  rw [h]

@[simp] theorem Decoder.memcpy_next (p : Option Nat) (i : Nat) (o : Obj) (dec : Decoder) :
    (dec.memcpy p i o).next = dec.next := by
  obtain ⟨heap, fault, h⟩ := dec.exists_memcpy_eq p i o
  rw [h]

theorem deserializeString_sameEnds (mem : List UInt8) (place : Place) (a : Activation) :
    SameEnds a.dec.ub (deserializeString mem place a).2.dec.ub := by
  have h := a.dec.read_sameEnds mem .four
  simp only [deserializeString]
  split
  · rename_i heq
    rw [heq] at h
    exact h
  · rename_i heq
    rw [heq] at h
    split
    · exact h
    · exact h.trans (advanceBuffer_sameEnds _ _)

theorem forLoop_sameEnds {body : Nat → Activation → Bool × Activation}
    (h : ∀ i a, SameEnds a.dec.ub (body i a).2.dec.ub) (count i : Nat) {a : Activation}
    {ub : Buffer} (hub : a.dec.ub = ub) :
    SameEnds ub (forLoop body count i a).2.dec.ub := by
  subst hub
  induction count generalizing i a with
  | zero => exact SameEnds.refl _
  | succ count ih =>
    have hbody := h i a
    rw [forLoop]
    split
    · rename_i heq
      rw [heq] at hbody
      exact hbody.trans (ih _)
    · rename_i heq
      rw [heq] at hbody
      exact hbody

theorem deserializeField_sameEnds (P : Platform) (mem : List UInt8) (name : String)
    (cls : DataClass) {element : Place → Activation → Bool × Activation}
    (h : ∀ place a, SameEnds a.dec.ub (element place a).2.dec.ub) (size : ArraySize)
    (a : Activation) :
    SameEnds a.dec.ub (deserializeField P mem name cls element size a).2.dec.ub := by
  cases size with
  | single => exact h _ a
  | fixed n => exact forLoop_sameEnds (fun i a => h _ a) n 0 rfl
  | dynamic =>
    have hread := a.dec.read_sameEnds mem .four
    simp only [deserializeField]
    split
    all_goals
      refine hread.trans (forLoop_sameEnds (fun i a => ?_) _ _ rfl)
      have helem := h (.member ("st_" ++ name)) a
      split <;> (rename_i heq; rw [heq] at helem; simpa using helem)

/-- The statements for the first field, and then those for the others. -/
theorem MessageDef.cdrDeserialize_cons (P : Platform) (mem : List UInt8) (name : String)
    (cls : DataClass) (size : ArraySize) (rest : MessageDef) (a : Activation) :
    (MessageDef.cons name cls size rest).cdrDeserialize P mem a =
      let field := deserializeField P mem name cls
        (fun place => cls.cdrDeserialize P mem place) size a
      if field.1 = true then rest.cdrDeserialize P mem field.2 else field := by
  rw [MessageDef.cdrDeserialize]
  dsimp only
  split
  · rename_i heq
    rw [heq, if_pos rfl]
  · rename_i heq
    rw [heq, if_neg Bool.false_ne_true]

mutual

theorem DataClass.cdrDeserialize_sameEnds (P : Platform) (mem : List UInt8) (cls : DataClass)
    (place : Place) (a : Activation) :
    SameEnds a.dec.ub (cls.cdrDeserialize P mem place a).2.dec.ub := by
  match cls with
  | .primitive p =>
    have h := a.dec.read_sameEnds mem p.width
    simp only [DataClass.cdrDeserialize]
    split <;> (rename_i heq; rw [heq] at h; exact h)
  | .string => exact deserializeString_sameEnds mem place a
  | .message D => exact D.cdrDeserialize_sameEnds P mem ⟨(place.load a.this).members, a.dec⟩

theorem MessageDef.cdrDeserialize_sameEnds (P : Platform) (mem : List UInt8) (D : MessageDef)
    (a : Activation) : SameEnds a.dec.ub (D.cdrDeserialize P mem a).2.dec.ub := by
  match D with
  | .nil => exact SameEnds.refl _
  | .cons name cls size rest =>
    have hfield := deserializeField_sameEnds P mem name cls
      (DataClass.cdrDeserialize_sameEnds P mem cls) size a
    rw [MessageDef.cdrDeserialize_cons]
    dsimp only
    split
    · exact hfield.trans (rest.cdrDeserialize_sameEnds P mem _)
    · exact hfield

end

end Ros2Serial.Generator
