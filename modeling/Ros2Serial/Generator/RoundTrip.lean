import Ros2Serial.Generator.Replay

/-!
# Objects that hold what was decoded

`MessageDef.Invertible` is the part of the definitions for which decoding
gives back the value: no array of strings, and no variable array inside the
elements of a variable array.  This module proves that on these the object
holds the value after the assignments of a run (`MessageDef.decoded_replay`).

Two facts about the heap carry the induction.

* A block that was there before a statement is there after it, unchanged
  (`Grown`).  So what an object held, it still holds (`readBack_mono`).
* A class without a variable array touches no block at all.  So the static
  element of a variable array can be decoded again and again, and the copies
  of it keep their own content.

`Ready` is what the decoder needs of an object before it runs: the lengths of
the variable arrays are 0 and the fixed arrays have their elements.  The
constructor establishes it, and a class without a variable array keeps it.
-/

namespace Ros2Serial.Generator

open Bytes PlainCdr Ucdr

/-! ## Definitions with variable arrays -/

/-- A field of this size reaches a variable array, if its elements do when
`inner` holds. -/
def ArraySize.HasDynamic (inner : Prop) : ArraySize → Prop
  | .single => inner
  | .fixed n => 0 < n ∧ inner
  | .dynamic => True

mutual

/-- An element contains a variable array. -/
def DataClass.HasDynamic : DataClass → Prop
  | .primitive _ => False
  | .string => False
  | .message D => D.HasDynamic

def MessageDef.HasDynamic : MessageDef → Prop
  | .nil => False
  | .cons _ cls size rest => size.HasDynamic cls.HasDynamic ∨ rest.HasDynamic

end

mutual

/-- Neither an array of strings, nor a variable array inside the elements of a
variable array.  An array of no elements is of no account. -/
def DataClass.Invertible : DataClass → Prop
  | .primitive _ => True
  | .string => True
  | .message D => D.Invertible

def MessageDef.Invertible : MessageDef → Prop
  | .nil => True
  | .cons _ cls size rest =>
    (match size with
      | .single => cls.Invertible
      | .fixed n => n = 0 ∨ cls ≠ .string ∧ cls.Invertible
      | .dynamic => cls ≠ .string ∧ cls.Invertible ∧ ¬ cls.HasDynamic) ∧
    rest.Invertible

end

/-! ## Names -/

/-- The names of the declared members. -/
def MessageDef.names (D : MessageDef) : List String := D.members.map Prod.fst

/-- The names that a field declares. -/
def fieldNames (name : String) : ArraySize → List String
  | .dynamic => [name ++ "_length", "st_" ++ name, name]
  | _ => [name]

/-- The members of a variable array differ. -/
theorem fieldNames_dynamic_nodup {name : String} (h : (fieldNames name .dynamic).Nodup) :
    name ++ "_length" ≠ "st_" ++ name ∧ name ++ "_length" ≠ name ∧ "st_" ++ name ≠ name := by
  simp only [fieldNames, List.nodup_cons, List.mem_cons, List.not_mem_nil, or_false, not_or] at h
  exact ⟨h.1.1, h.1.2, h.2.1⟩

theorem notMem_fieldNames_dynamic {m name : String} (h : m ∉ fieldNames name .dynamic) :
    m ≠ name ++ "_length" ∧ m ≠ "st_" ++ name ∧ m ≠ name := by
  simpa only [fieldNames, List.mem_cons, List.not_mem_nil, or_false, not_or] using h

theorem fieldMembers_names (name : String) (cls : DataClass) (size : ArraySize) :
    (fieldMembers name cls size).map Prod.fst = fieldNames name size := by
  cases size <;> cases cls <;> rfl

theorem MessageDef.names_cons (name : String) (cls : DataClass) (size : ArraySize)
    (rest : MessageDef) :
    (MessageDef.cons name cls size rest).names = fieldNames name size ++ rest.names := by
  simp [MessageDef.names, MessageDef.members, fieldMembers_names]

theorem name_mem_fieldNames (name : String) (size : ArraySize) : name ∈ fieldNames name size := by
  cases size <;> simp [fieldNames]

/-- An identifier has no brackets to drop. -/
theorem mangle_of_isIdentifier {name : String} (h : isIdentifier name = true) :
    mangle name = name := by
  have hkeep : ∀ c ∈ name.toList, (c ≠ '[' && c ≠ ']') = true := by
    intro c hc
    simp only [isIdentifier, Bool.and_eq_true, List.all_eq_true] at h
    have hchar := h.1 c hc
    by_contra hno
    have hb : c = '[' ∨ c = ']' := by
      by_contra hne
      exact hno (by simpa [not_or] using hne)
    rcases hb with rfl | rfl <;> exact absurd hchar (by decide)
  rw [mangle, List.filter_eq_self.mpr (by simpa using hkeep)]
  simp

/-- What the proofs need of a class, or of the last fields of a class. -/
structure MessageDef.WellNamed (D : MessageDef) : Prop where
  nodup : D.names.Nodup
  identifier : ∀ m ∈ D.names, isIdentifier m = true

theorem MessageDef.WellNamed.rest {name : String} {cls : DataClass} {size : ArraySize}
    {rest : MessageDef} (h : (MessageDef.cons name cls size rest).WellNamed) : rest.WellNamed where
  nodup := by
    have hn := h.nodup
    rw [MessageDef.names_cons] at hn
    exact (List.nodup_append.mp hn).2.1
  identifier m hm := h.identifier m (by
    rw [MessageDef.names_cons]
    exact List.mem_append_right _ hm)

theorem MessageDef.WellNamed.disjoint {name : String} {cls : DataClass} {size : ArraySize}
    {rest : MessageDef} (h : (MessageDef.cons name cls size rest).WellNamed) {m : String}
    (hm : m ∈ fieldNames name size) : m ∉ rest.names := by
  have hn := h.nodup
  rw [MessageDef.names_cons] at hn
  exact fun hrest => (List.nodup_append.mp hn).2.2 m hm m hrest rfl

theorem MessageDef.WellNamed.field {name : String} {cls : DataClass} {size : ArraySize}
    {rest : MessageDef} (h : (MessageDef.cons name cls size rest).WellNamed) :
    (fieldNames name size).Nodup := by
  have hn := h.nodup
  rw [MessageDef.names_cons] at hn
  exact (List.nodup_append.mp hn).1

mutual

/-- `MessageDef.WellNamed` for every class below an element. -/
def DataClass.AllWellNamed : DataClass → Prop
  | .primitive _ => True
  | .string => True
  | .message D => D.WellNamed ∧ D.FieldsWellNamed

def MessageDef.FieldsWellNamed : MessageDef → Prop
  | .nil => True
  | .cons _ cls _ rest => cls.AllWellNamed ∧ rest.FieldsWellNamed

end

mutual

theorem DataClass.Compiles.allWellNamed {reserved : String → Prop} {cls : DataClass}
    (h : cls.Compiles reserved) : cls.AllWellNamed := by
  match cls with
  | .primitive _ => trivial
  | .string => trivial
  | .message D =>
    refine ⟨⟨h.1, fun m hm => ?_⟩, MessageDef.FieldsCompile.fieldsWellNamed h.2.2⟩
    obtain ⟨p, hp, rfl⟩ := List.mem_map.mp hm
    exact (h.2.1 p hp).1

theorem MessageDef.FieldsCompile.fieldsWellNamed {reserved : String → Prop}
    {members : List (String × MemberType)} {D : MessageDef}
    (h : D.FieldsCompile reserved members) : D.FieldsWellNamed := by
  match D with
  | .nil => trivial
  | .cons _ cls _ rest =>
    exact ⟨DataClass.Compiles.allWellNamed h.2.1, MessageDef.FieldsCompile.fieldsWellNamed h.2.2⟩

end

/-! ## What an object holds -/

theorem mapM_eq_some_iff {α β : Type} {f : α → Option β} {os : List α} {vs : List β} :
    os.mapM f = some vs ↔ List.Forall₂ (fun o v => f o = some v) os vs := by
  induction os generalizing vs with
  | nil => cases vs <;> simp
  | cons o rest ih =>
    cases vs with
    | nil => simp [Option.bind_eq_some_iff]
    | cons v vs => simp [Option.bind_eq_some_iff, ih, List.forall₂_cons]

/-- The objects hold the values, one by one. -/
def Hold {α : Type} (read : Obj → Option α) (os : List Obj) (vs : List α) : Prop :=
  List.Forall₂ (fun o v => read o = some v) os vs

theorem Hold.mono {α : Type} {read read' : Obj → Option α} {os : List Obj} {vs : List α}
    (h : Hold read os vs) (himp : ∀ o v, read o = some v → read' o = some v) :
    Hold read' os vs :=
  List.Forall₂.imp (fun o v => himp o v) h

/-- An object holds a value of a class with a field in front if the field
holds its elements and the object holds the rest. -/
theorem readBack_cons {mem : List UInt8} {heap : Nat → Option (List Obj)} {name : String}
    {cls : DataClass} {size : ArraySize} {rest : MessageDef} {this : Members}
    {field : {elems : List cls.Val // size.Admits elems.length}} {more : rest.Val} :
    (MessageDef.cons name cls size rest).readBack mem heap this = some (field, more) ↔
      (∃ os, fieldElems heap name size this = some os ∧
        Hold (cls.readBack mem heap) os field.val) ∧
      rest.readBack mem heap this = some more := by
  obtain ⟨elems, hsize⟩ := field
  have hbind : (∃ os, fieldElems heap name size this = some os ∧
      Hold (cls.readBack mem heap) os elems) ↔
      (fieldElems heap name size this).bind (List.mapM fun o => cls.readBack mem heap o) =
        some elems := by
    simp [Option.bind_eq_some_iff, mapM_eq_some_iff, Hold]
  rw [hbind, MessageDef.readBack]
  constructor
  · intro h
    split at h
    · next elems' more' he hm =>
      split at h
      · obtain ⟨h1, h2⟩ := Prod.mk.inj (Option.some.inj h)
        have h1' : elems' = elems := congrArg Subtype.val h1
        exact ⟨by rw [he, h1'], by rw [hm, h2]⟩
      · exact absurd h (by simp)
    · exact absurd h (by simp)
  · rintro ⟨he, hm⟩
    rw [he, hm]
    exact dif_pos hsize

/-- A value of a nested message is held by the members of the element. -/
theorem readBack_message {mem : List UInt8} {heap : Nat → Option (List Obj)} {D : MessageDef}
    {o : Obj} {v : D.Val} (h : (DataClass.message D).readBack mem heap o = some v) :
    D.readBack mem heap o.members = some v := by
  obtain ⟨members, hm, hv⟩ := Option.bind_eq_some_iff.mp h
  rwa [Obj.members_of_asMessage hm]

/-- Every block of the first heap is in the second one, unchanged. -/
def Extends (heap heap' : Nat → Option (List Obj)) : Prop :=
  ∀ id cells, heap id = some cells → heap' id = some cells

theorem Extends.refl (heap : Nat → Option (List Obj)) : Extends heap heap := fun _ _ h => h

theorem Extends.trans {h1 h2 h3 : Nat → Option (List Obj)} (h : Extends h1 h2)
    (h' : Extends h2 h3) : Extends h1 h3 := fun id cells hc => h' id cells (h id cells hc)

/-- The elements of a field depend on its own members, and on the heap if the
field is a variable array. -/
theorem fieldElems_mono {heap heap' : Nat → Option (List Obj)} {name : String} {size : ArraySize}
    {this this' : Members} {os : List Obj} (hheap : size = .dynamic → Extends heap heap')
    (hthis : ∀ m ∈ fieldNames name size, this' m = this m)
    (h : fieldElems heap name size this = some os) :
    fieldElems heap' name size this' = some os := by
  cases size with
  | single => simpa [fieldElems, hthis name (by simp [fieldNames])] using h
  | fixed n => simpa [fieldElems, hthis name (by simp [fieldNames])] using h
  | dynamic =>
    have hname := hthis name (by simp [fieldNames])
    have hlength := hthis (name ++ "_length") (by simp [fieldNames])
    simp only [fieldElems, hname, hlength] at h ⊢
    split at h
    · next h0 => rw [if_pos h0]; exact h
    · next h0 =>
      rw [if_neg h0]
      split at h
      · next cells hcells =>
        obtain ⟨block, hblock, hb⟩ := Option.bind_eq_some_iff.mp hcells
        rw [hblock, Option.bind_some, hheap rfl block cells hb]
        exact h
      · exact absurd h (by simp)

mutual

/-- What an element holds, it holds in every larger heap; without a variable
array it holds it in every heap. -/
theorem DataClass.readBack_mono {mem : List UInt8} {heap heap' : Nat → Option (List Obj)}
    (cls : DataClass) (hheap : cls.HasDynamic → Extends heap heap') (o : Obj) (v : cls.Val)
    (h : cls.readBack mem heap o = some v) : cls.readBack mem heap' o = some v := by
  match cls, o with
  | .primitive p, _ => exact h
  | .string, _ => exact h
  | .message D, .message members =>
    exact MessageDef.readBack_mono D hheap members v h

/-- The same for an object. -/
theorem MessageDef.readBack_mono {mem : List UInt8} {heap heap' : Nat → Option (List Obj)}
    (D : MessageDef) (hheap : D.HasDynamic → Extends heap heap') (this : Members) (v : D.Val)
    (h : D.readBack mem heap this = some v) : D.readBack mem heap' this = some v := by
  match D, v with
  | .nil, _ => exact h
  | .cons name cls size rest, (field, more) =>
    obtain ⟨⟨os, hos, hhold⟩, hmore⟩ := readBack_cons.mp h
    refine readBack_cons.mpr ⟨⟨os, ?_, ?_⟩,
      MessageDef.readBack_mono rest (fun hd => hheap (Or.inr hd)) this more hmore⟩
    · exact fieldElems_mono (fun hs => hheap (Or.inl (by simp [hs, ArraySize.HasDynamic])))
        (fun _ _ => rfl) hos
    · -- a fixed array without elements reaches no variable array, and holds nothing
      rcases Nat.eq_zero_or_pos field.val.length with h0 | hpos
      · have hnil := List.eq_nil_of_length_eq_zero h0
        rw [hnil] at hhold ⊢
        cases hhold
        exact .nil
      · refine hhold.mono (DataClass.readBack_mono cls fun hd => hheap (Or.inl ?_))
        cases size with
        | single => exact hd
        | fixed n => exact ⟨field.property ▸ hpos, hd⟩
        | dynamic => trivial

end

/-- What an object holds depends on its own members only. -/
theorem MessageDef.readBack_congr {mem : List UInt8} {heap : Nat → Option (List Obj)}
    {D : MessageDef} {this this' : Members} {v : D.Val} (hthis : ∀ m ∈ D.names, this' m = this m)
    (h : D.readBack mem heap this = some v) : D.readBack mem heap this' = some v := by
  match D, v with
  | .nil, _ => exact h
  | .cons name cls size rest, (field, more) =>
    simp only [MessageDef.names_cons, List.mem_append] at hthis
    obtain ⟨⟨os, hos, hhold⟩, hmore⟩ := readBack_cons.mp h
    exact readBack_cons.mpr
      ⟨⟨os, fieldElems_mono (fun _ => Extends.refl heap) (fun m hm => hthis m (Or.inl hm)) hos,
        hhold⟩, MessageDef.readBack_congr (fun m hm => hthis m (Or.inr hm)) hmore⟩

/-- The string that is ahead of the iterator is read back through a pointer to
its first byte. -/
theorem readString_input {mem : List UInt8} {s : CString} {index : Nat}
    (h : slice mem index (s.val.length + 1) = s.val ++ [0]) :
    readString mem (.input index) = some s := by
  obtain ⟨s, hzero, hlen⟩ := s
  have hdrop : mem.drop index = s ++ 0 :: (mem.drop index).drop (s.length + 1) := by
    have := List.take_append_drop (s.length + 1) (mem.drop index)
    rw [slice] at h
    rw [h] at this
    simpa using this.symm
  have htake : (mem.drop index).takeWhile (fun b => b ≠ 0) = s := by
    rw [hdrop, List.takeWhile_append_of_pos]
    · simp
    · intro b hb
      have : b ≠ 0 := fun h0 => hzero (h0 ▸ hb)
      simpa using this
  have hlt : index + s.length < mem.length := by
    have := congrArg List.length hdrop
    simp only [List.length_drop, List.length_append, List.length_cons] at this
    omega
  simp only [readString, htake]
  exact dif_pos ⟨⟨hzero, hlen⟩, hlt⟩

/-! ## Objects that can be decoded into -/

/-- What the statements for a field need of an object: no block yet for a
variable array, and the elements of a fixed one. -/
def fieldReady (ready : Obj → Prop) (name : String) : ArraySize → Members → Prop
  | .single, this => ready (this name)
  | .fixed n, this => (this name).elems.length = n ∧ ∀ o ∈ (this name).elems, ready o
  | .dynamic, this =>
    (this (name ++ "_length")).asValue = 0 ∧ (this name).asPointer = none ∧
      ready (this ("st_" ++ name))

mutual

/-- What the statements for an element need of it. -/
def DataClass.Ready : DataClass → Obj → Prop
  | .primitive _, _ => True
  | .string, _ => True
  | .message D, o => D.Ready o.members

/-- What `cdr_deserialize` needs of the object it runs on. -/
def MessageDef.Ready : MessageDef → Members → Prop
  | .nil, _ => True
  | .cons name cls size rest, this =>
    fieldReady (fun o => cls.Ready o) name size this ∧ rest.Ready this

end

theorem fieldReady_congr {ready : Obj → Prop} {name : String} {size : ArraySize}
    {this this' : Members} (hthis : ∀ m ∈ fieldNames name size, this' m = this m)
    (h : fieldReady ready name size this) : fieldReady ready name size this' := by
  have hname := hthis name (name_mem_fieldNames name size)
  cases size with
  | single => simpa only [fieldReady, hname] using h
  | fixed n => simpa only [fieldReady, hname] using h
  | dynamic =>
    have hlength := hthis (name ++ "_length") (by simp [fieldNames])
    have hstatic := hthis ("st_" ++ name) (by simp [fieldNames])
    simpa only [fieldReady, hname, hlength, hstatic] using h

/-- Whether an object can be decoded into depends on its own members only. -/
theorem MessageDef.Ready.congr {D : MessageDef} {this this' : Members}
    (hthis : ∀ m ∈ D.names, this' m = this m) (h : D.Ready this) : D.Ready this' := by
  match D with
  | .nil => trivial
  | .cons name cls size rest =>
    simp only [MessageDef.names_cons, List.mem_append] at hthis
    exact ⟨fieldReady_congr (fun m hm => hthis m (Or.inl hm)) h.1,
      MessageDef.Ready.congr (fun m hm => hthis m (Or.inr hm)) h.2⟩

/-- The members that a field of the constructor sets, and no others. -/
theorem construct_cons_of_notMem {name : String} {cls : DataClass} {size : ArraySize}
    {rest : MessageDef} {m : String} (hm : m ∉ fieldNames name size) :
    (MessageDef.cons name cls size rest).construct m = rest.construct m := by
  cases size with
  | single =>
    have hne : m ≠ name := by simpa [fieldNames] using hm
    cases cls <;> simp [MessageDef.construct, hne]
  | fixed n =>
    have hne : m ≠ name := by simpa [fieldNames] using hm
    simp [MessageDef.construct, hne]
  | dynamic =>
    obtain ⟨hl, hst, hne⟩ := notMem_fieldNames_dynamic hm
    simp [MessageDef.construct, hl, hst, hne]

mutual

/-- A value-initialised element can be decoded into. -/
theorem DataClass.ready_construct {cls : DataClass} (h : cls.AllWellNamed) :
    cls.Ready cls.construct := by
  match cls with
  | .primitive _ => trivial
  | .string => trivial
  | .message D => exact MessageDef.ready_construct h.1 h.2

/-- A fresh object can be decoded into. -/
theorem MessageDef.ready_construct {D : MessageDef} (hnamed : D.WellNamed)
    (hfields : D.FieldsWellNamed) : D.Ready D.construct := by
  match D with
  | .nil => trivial
  | .cons name cls size rest =>
    have hcls := DataClass.ready_construct hfields.1
    refine ⟨?_, (MessageDef.ready_construct hnamed.rest hfields.2).congr fun m hm =>
      construct_cons_of_notMem fun hf => hnamed.disjoint hf hm⟩
    cases size with
    | single =>
      cases cls with
      | primitive p => trivial
      | string => trivial
      | message D => simpa [fieldReady, MessageDef.construct] using hcls
    | fixed n =>
      simp only [fieldReady, MessageDef.construct, Function.update_self, Obj.elems,
        List.length_replicate, true_and]
      intro o ho
      rw [List.eq_of_mem_replicate ho]
      exact hcls
    | dynamic =>
      have hn := hnamed.field
      simp only [fieldNames, List.nodup_cons, List.mem_cons, List.not_mem_nil, or_false,
        not_or] at hn
      obtain ⟨⟨hls, hln⟩, hsn, -⟩ := hn
      simp [fieldReady, MessageDef.construct, hls, hln, hsn, Obj.asValue, Obj.asPointer, hcls]

end

/-! ## One run -/

/-- No block has an identity that `realloc` has yet to give out. -/
def Decoder.Fresh (dec : Decoder) : Prop := ∀ id, dec.next ≤ id → dec.heap id = none

/-- The heap after some statements: what was there is there, and new blocks
have new identities. -/
structure Grown (dec dec' : Decoder) : Prop where
  extends_ : Extends dec.heap dec'.heap
  fresh : dec'.Fresh

theorem Grown.refl {dec : Decoder} (h : dec.Fresh) : Grown dec dec := ⟨Extends.refl _, h⟩

theorem Grown.trans {d1 d2 d3 : Decoder} (h : Grown d1 d2) (h' : Grown d2 d3) : Grown d1 d3 :=
  ⟨h.extends_.trans h'.extends_, h'.fresh⟩

/-- The heap is as it was. -/
def SameHeap (dec dec' : Decoder) : Prop := dec'.heap = dec.heap ∧ dec'.next = dec.next

theorem SameHeap.refl (dec : Decoder) : SameHeap dec dec := ⟨rfl, rfl⟩

theorem SameHeap.trans {d1 d2 d3 : Decoder} (h : SameHeap d1 d2) (h' : SameHeap d2 d3) :
    SameHeap d1 d3 :=
  ⟨h'.1.trans h.1, h'.2.trans h.2⟩

theorem SameHeap.grown {dec dec' : Decoder} (h : SameHeap dec dec') (hf : dec.Fresh) :
    Grown dec dec' := by
  refine ⟨fun id cells hc => by rw [h.1]; exact hc, fun id hid => ?_⟩
  rw [h.1]
  exact hf id (h.2 ▸ hid)

/-- The place gets what a string assigns: the generator's name of the place is
the place itself. -/
def Place.Suits (cls : DataClass) (place : Place) : Prop :=
  cls = .string → ∃ name, place = .member name ∧ mangle name = name

/-- After the statements for an element, `o` stands at its place and holds the
value. -/
structure DataClass.Decoded (mem : List UInt8) (cls : DataClass) (v : cls.Val) (o : Obj)
    (dec dec' : Decoder) : Prop where
  holds : cls.readBack mem dec'.heap o = some v
  grown : Grown dec dec'
  static : ¬ cls.HasDynamic → cls.Ready o ∧ SameHeap dec dec'

/-- After the statements for a field, its members hold the elements. -/
structure FieldDecoded (mem : List UInt8) (name : String) (cls : DataClass) (size : ArraySize)
    (vs : List cls.Val) (a a' : Activation) : Prop where
  holds : ∃ os, fieldElems a'.dec.heap name size a'.this = some os ∧
    Hold (cls.readBack mem a'.dec.heap) os vs
  frame : ∀ m, m ∉ fieldNames name size → a'.this m = a.this m
  grown : Grown a.dec a'.dec
  static : ¬ size.HasDynamic cls.HasDynamic →
    fieldReady (fun o => cls.Ready o) name size a'.this ∧ SameHeap a.dec a'.dec

/-- After `cdr_deserialize`, the object holds the value. -/
structure MessageDef.Decoded (mem : List UInt8) (D : MessageDef) (v : D.Val)
    (a a' : Activation) : Prop where
  holds : D.readBack mem a'.dec.heap a'.this = some v
  frame : ∀ m, m ∉ D.names → a'.this m = a.this m
  grown : Grown a.dec a'.dec
  static : ¬ D.HasDynamic → D.Ready a'.this ∧ SameHeap a.dec a'.dec

/-- The statements for an element do what they should, at every place that
suits the class. -/
def ElementDecodes (P : Platform) (mem : List UInt8) (cls : DataClass) : Prop :=
  ∀ (v : cls.Val) (place : Place) (a : Activation), place.Suits cls →
    cls.Ready (place.load a.this) → a.dec.Fresh → Ahead mem a.dec.ub (cls.items v) →
    ∃ o, (cls.replay P v place a).this = place.store a.this o ∧
      cls.Decoded mem v o a.dec (cls.replay P v place a).dec

/-- The statements for a string. -/
theorem elementDecodes_string (P : Platform) (mem : List UInt8) :
    ElementDecodes P mem .string := by
  intro s place a hsuits _ hfresh hahead
  obtain ⟨name, rfl, hmangle⟩ := hsuits rfl
  have hbytes := (Ahead.cons hahead).2.octets
  simp only [List.length_append, List.length_cons, List.length_nil, Nat.zero_add] at hbytes
  refine ⟨.chars (.input (a.dec.ub.after (.prim .four (s.val.length + 1))).iterator), ?_, ?_⟩
  · simp [DataClass.replay, replayString, Place.text, hmangle, Place.store, Activation.accept]
  · have hsame : SameHeap a.dec (DataClass.string.replay P s (.member name) a).dec := ⟨rfl, rfl⟩
    exact ⟨readString_input hbytes, hsame.grown hfresh, fun _ => ⟨trivial, hsame⟩⟩

/-- The statements for a primitive. -/
theorem elementDecodes_primitive (P : Platform) (mem : List UInt8) (p : Primitive) :
    ElementDecodes P mem (.primitive p) := by
  intro v place a _ _ hfresh _
  have hsame : SameHeap a.dec ((DataClass.primitive p).replay P v place a).dec := ⟨rfl, rfl⟩
  refine ⟨.value (show Fin p.card from v), rfl, ?_, hsame.grown hfresh, fun _ => ⟨trivial, hsame⟩⟩
  exact dif_pos (show Fin p.card from v).isLt

/-! ## The loops -/

theorem Place.suits_of_ne {cls : DataClass} (h : cls ≠ .string) (place : Place) :
    place.Suits cls := fun hs => absurd hs h

theorem take_succ_set {α : Type} {l : List α} {i : Nat} (h : i < l.length) (x : α) :
    (l.set i x).take (i + 1) = l.take i ++ [x] := by
  have hlen : (l.take i).length = i := by simp [Nat.le_of_lt h]
  rw [List.set_eq_take_append_cons_drop, if_pos h, List.take_append, hlen,
    List.take_of_length_le (by omega)]
  simp

/-- The loop of a fixed array.  The elements in front of `i` are done; each
round decodes into the next element and leaves the others alone. -/
theorem decoded_fixedLoop {P : Platform} {mem : List UInt8} {name : String} {cls : DataClass}
    (hel : ElementDecodes P mem cls) (hstr : cls ≠ .string) (vs : List cls.Val) :
    ∀ (i : Nat) (a : Activation), (a.this name).elems.length = i + vs.length →
      (∀ o ∈ (a.this name).elems.drop i, cls.Ready o) → a.dec.Fresh →
      Ahead mem a.dec.ub (vs.flatMap cls.items) →
      ∃ a' os, replayLoop (fun i v => cls.replay P v (.element name i)) vs i a = a' ∧
        (a'.this name).elems = (a.this name).elems.take i ++ os ∧
        Hold (cls.readBack mem a'.dec.heap) os vs ∧
        (∀ m, m ≠ name → a'.this m = a.this m) ∧ Grown a.dec a'.dec ∧
        (¬ cls.HasDynamic → (∀ o ∈ os, cls.Ready o) ∧ SameHeap a.dec a'.dec) := by
  induction vs with
  | nil =>
    intro i a hlen _ hfresh _
    refine ⟨a, [], rfl, ?_, .nil, fun _ _ => rfl, Grown.refl hfresh,
      fun _ => ⟨by simp, SameHeap.refl _⟩⟩
    rw [List.append_nil, List.take_of_length_le (by simp at hlen; omega)]
  | cons v rest ih =>
    intro i a hlen hready hfresh hahead
    rw [List.length_cons] at hlen
    rw [List.flatMap_cons] at hahead
    obtain ⟨hv, hrest⟩ := hahead.split
    have hi : i < (a.this name).elems.length := by omega
    have hdrop : (a.this name).elems.drop i =
        (a.this name).elems[i] :: (a.this name).elems.drop (i + 1) :=
      List.drop_eq_getElem_cons hi
    have hload : cls.Ready ((Place.element name i).load a.this) := by
      refine hready _ ?_
      rw [hdrop, Place.load, List.getD_eq_getElem?_getD, List.getElem?_eq_getElem hi]
      exact List.mem_cons_self
    obtain ⟨o, hthis, hdec⟩ := hel v (.element name i) a (Place.suits_of_ne hstr _) hload hfresh hv
    have helems : ((cls.replay P v (.element name i) a).this name).elems =
        (a.this name).elems.set i o := by
      rw [hthis]
      simp [Place.store, Obj.elems]
    rw [← (DataClass.hasRead_replay P cls v (.element name i) a).1] at hrest
    obtain ⟨a', os, ha', hos, hhold, hframe, hgrown, hstatic⟩ :=
      ih (i + 1) (cls.replay P v (.element name i) a)
        (by rw [helems, List.length_set]; omega)
        (by
          rw [helems, List.drop_set_of_lt (Nat.lt_succ_self i)]
          exact fun o ho => hready o (by rw [hdrop]; exact List.mem_cons_of_mem _ ho))
        hdec.grown.fresh hrest
    refine ⟨a', o :: os, ha', ?_, .cons ?_ hhold, ?_, hdec.grown.trans hgrown, ?_⟩
    · rw [hos, helems, take_succ_set hi, List.append_assoc, List.singleton_append]
    · exact cls.readBack_mono (fun _ => hgrown.extends_) o v hdec.holds
    · intro m hm
      rw [hframe m hm, hthis, Place.store, Function.update_of_ne hm]
    · intro hno
      obtain ⟨hro, hsame⟩ := hdec.static hno
      obtain ⟨hros, hsame'⟩ := hstatic hno
      exact ⟨List.forall_mem_cons.mpr ⟨hro, hros⟩, hsame.trans hsame'⟩

/-- The loop of a variable array whose elements contain none.  The static
element is decoded into, over and over, and its copies go into the block. -/
theorem decoded_dynamicLoop {P : Platform} {mem : List UInt8} {name : String} {cls : DataClass}
    (hel : ElementDecodes P mem cls) (hstr : cls ≠ .string) (hstatic : ¬ cls.HasDynamic)
    (hne : "st_" ++ name ≠ name) (block : Nat) (vs : List cls.Val) :
    ∀ (i : Nat) (a : Activation) (cells : List Obj), (a.this name).asPointer = some block →
      a.dec.heap block = some cells → i + vs.length ≤ cells.length →
      cls.Ready (a.this ("st_" ++ name)) → a.dec.Fresh →
      Ahead mem a.dec.ub (vs.flatMap cls.items) →
      ∃ a' os, replayLoop
          (fun i v a => copyElement name i (cls.replay P v (.member ("st_" ++ name)) a)) vs i a =
            a' ∧
        a'.dec.heap = Function.update a.dec.heap block
          (some (cells.take i ++ os ++ cells.drop (i + vs.length))) ∧
        (∀ heap, Hold (cls.readBack mem heap) os vs) ∧
        (∀ m, m ≠ "st_" ++ name → a'.this m = a.this m) ∧ a'.dec.next = a.dec.next := by
  induction vs with
  | nil =>
    intro i a cells _ hblock hlen _ _ _
    refine ⟨a, [], rfl, ?_, fun _ => .nil, fun _ _ => rfl, rfl⟩
    rw [List.append_nil, List.length_nil, Nat.add_zero, List.take_append_drop, ← hblock,
      Function.update_eq_self]
  | cons v rest ih =>
    intro i a cells hptr hblock hlen hready hfresh hahead
    rw [List.length_cons] at hlen
    rw [List.flatMap_cons] at hahead
    obtain ⟨hv, hrest⟩ := hahead.split
    obtain ⟨o, hthis, hdec⟩ :=
      hel v (.member ("st_" ++ name)) a (Place.suits_of_ne hstr _) hready hfresh hv
    obtain ⟨hro, hheap, hnext⟩ := hdec.static hstatic
    -- the round: `o` in the static element, and a copy of it in the block
    have hi : i < cells.length := by omega
    have hptr' : ((cls.replay P v (.member ("st_" ++ name)) a).this name).asPointer =
        some block := by
      rw [hthis, Place.store, Function.update_of_ne (Ne.symm hne)]
      exact hptr
    have hround : copyElement name i (cls.replay P v (.member ("st_" ++ name)) a) =
        { this := Function.update a.this ("st_" ++ name) o
          dec := { (cls.replay P v (.member ("st_" ++ name)) a).dec with
            heap := Function.update a.dec.heap block (some (cells.set i o)) } } := by
      simp only [copyElement, hptr', Decoder.memcpy, hheap, hblock, if_pos hi]
      rw [hthis]
      simp [Place.store]
    have hub := (DataClass.hasRead_replay P cls v (.member ("st_" ++ name)) a).1
    rw [← hub] at hrest
    obtain ⟨a', os, ha', hheap', hhold, hframe, hnext'⟩ :=
      ih (i + 1) (copyElement name i (cls.replay P v (.member ("st_" ++ name)) a))
        (cells.set i o)
        (by rw [hround]; simpa [Function.update_of_ne (Ne.symm hne)] using hptr)
        (by rw [hround]; simp)
        (by rw [List.length_set]; omega)
        (by rw [hround]; simpa using hro)
        (by
          rw [hround]
          intro id hid
          have hid' : a.dec.next ≤ id := by simpa [hnext] using hid
          have hnb : id ≠ block := by
            intro heq
            subst heq
            rw [hfresh _ hid'] at hblock
            exact absurd hblock (by simp)
          simpa [Function.update_of_ne hnb] using hfresh id hid')
        (by rw [hround]; exact hrest)
    refine ⟨a', o :: os, ha', ?_, ?_, ?_, ?_⟩
    · rw [hheap', hround]
      simp only [Function.update_idem]
      have hend : i + 1 + rest.length = i + (rest.length + 1) := by omega
      rw [take_succ_set hi, List.drop_set_of_lt (by omega), hend, List.length_cons]
      simp
    · intro heap
      exact .cons (cls.readBack_mono (fun hd => absurd hd hstatic) o v hdec.holds) (hhold heap)
    · intro m hm
      rw [hframe m hm, hround]
      exact Function.update_of_ne hm _ _
    · rw [hnext', hround]
      exact hnext

/-! ## The fields -/

/-- A field without brackets. -/
theorem decoded_single {P : Platform} {mem : List UInt8} {name : String} {cls : DataClass}
    (hel : ElementDecodes P mem cls) (hid : isIdentifier name = true) {vs : List cls.Val}
    (hsize : ArraySize.single.Admits vs.length) {a : Activation}
    (hready : cls.Ready (a.this name)) (hfresh : a.dec.Fresh)
    (hahead : Ahead mem a.dec.ub (vs.flatMap cls.items)) :
    FieldDecoded mem name cls .single vs a
      (replayField P name cls (fun v place => cls.replay P v place) .single vs a) := by
  obtain ⟨v, rfl⟩ := List.length_eq_one_iff.mp hsize
  obtain ⟨o, hthis, hdec⟩ := hel v (.member name) a
    (fun _ => ⟨name, rfl, mangle_of_isIdentifier hid⟩) hready hfresh (by simpa using hahead)
  refine ⟨⟨[o], ?_, .cons hdec.holds .nil⟩, ?_, hdec.grown, ?_⟩
  · simp [fieldElems, replayField, replayLoop, hthis, Place.store]
  · intro m hm
    have hne : m ≠ name := by simpa [fieldNames] using hm
    simp [replayField, replayLoop, hthis, Place.store, hne]
  · intro hno
    obtain ⟨hro, hsame⟩ := hdec.static hno
    exact ⟨by simpa [fieldReady, replayField, replayLoop, hthis, Place.store] using hro, hsame⟩

/-- A fixed array of no elements. -/
theorem decoded_fixed_zero {P : Platform} {mem : List UInt8} {name : String} {cls : DataClass}
    {vs : List cls.Val} (hsize : (ArraySize.fixed 0).Admits vs.length) {a : Activation}
    (hready : fieldReady (fun o => cls.Ready o) name (.fixed 0) a.this) (hfresh : a.dec.Fresh) :
    FieldDecoded mem name cls (.fixed 0) vs a
      (replayField P name cls (fun v place => cls.replay P v place) (.fixed 0) vs a) := by
  have hvs := List.eq_nil_of_length_eq_zero hsize
  have hos := List.eq_nil_of_length_eq_zero hready.1
  subst hvs
  exact ⟨⟨[], by simp [replayField, replayLoop, fieldElems, hos], .nil⟩, fun _ _ => rfl,
    Grown.refl hfresh, fun _ => ⟨hready, SameHeap.refl _⟩⟩

/-- A fixed array, of no strings. -/
theorem decoded_fixed {P : Platform} {mem : List UInt8} {name : String} {cls : DataClass} {n : Nat}
    (hel : ElementDecodes P mem cls) (hstr : cls ≠ .string) {vs : List cls.Val}
    (hsize : (ArraySize.fixed n).Admits vs.length) {a : Activation}
    (hready : fieldReady (fun o => cls.Ready o) name (.fixed n) a.this) (hfresh : a.dec.Fresh)
    (hahead : Ahead mem a.dec.ub (vs.flatMap cls.items)) :
    FieldDecoded mem name cls (.fixed n) vs a
      (replayField P name cls (fun v place => cls.replay P v place) (.fixed n) vs a) := by
  have hn : vs.length = n := hsize
  obtain ⟨a', os, ha', hos, hhold, hframe, hgrown, hstatic⟩ :=
    decoded_fixedLoop hel hstr vs 0 a (by rw [hready.1, hn, Nat.zero_add])
      (by simpa using hready.2) hfresh hahead
  rw [List.take_zero, List.nil_append] at hos
  rw [replayField, ha']
  refine ⟨⟨os, by rw [fieldElems, hos], hhold⟩, ?_, hgrown, ?_⟩
  · intro m hm
    exact hframe m (by simpa [fieldNames] using hm)
  · intro hno
    rcases Nat.eq_zero_or_pos n with h0 | hpos
    · have hnil : os = [] := List.eq_nil_of_length_eq_zero (by rw [hhold.length_eq, hn, h0])
      have hvs : vs = [] := List.eq_nil_of_length_eq_zero (by rw [hn, h0])
      subst hvs
      simp only [replayLoop] at ha'
      subst ha'
      exact ⟨hready, SameHeap.refl _⟩
    · obtain ⟨hros, hsame⟩ := hstatic fun hd => hno ⟨hpos, hd⟩
      exact ⟨⟨by rw [hos, hhold.length_eq, hn], by rwa [hos]⟩, hsame⟩

/-- The first block of a variable array. -/
theorem growArray_pos {P : Platform} (hP : P.Allocates) {name : String} (cls : DataClass) {n : Nat}
    (hpos : 0 < n) {a : Activation} (h0 : (a.this (name ++ "_length")).asValue = 0)
    (hnone : (a.this name).asPointer = none) :
    ∃ cells, n ≤ cells.length ∧ growArray P name cls n a =
      { this := Function.update (Function.update a.this name (.pointer (some a.dec.next)))
          (name ++ "_length") (.value n)
        dec := { a.dec with
          heap := Function.update a.dec.heap a.dec.next (some cells)
          next := a.dec.next + 1 } } := by
  refine ⟨List.replicate (P.blockLength cls n) .indeterminate, by simpa using hP cls n, ?_⟩
  simp [growArray, h0, hnone, hpos, Decoder.realloc]

/-- A variable array without elements gets no block. -/
theorem growArray_zero {P : Platform} {name : String} {cls : DataClass} {a : Activation} :
    growArray P name cls 0 a =
      { a with this := Function.update a.this (name ++ "_length") (.value 0) } := by
  simp [growArray]

/-- A variable array whose elements are no strings and contain no variable
array. -/
theorem decoded_dynamic {P : Platform} (hP : P.Allocates) {mem : List UInt8} {name : String}
    {cls : DataClass} (hel : ElementDecodes P mem cls) (hstr : cls ≠ .string)
    (hstatic : ¬ cls.HasDynamic) (hnames : (fieldNames name .dynamic).Nodup)
    {vs : List cls.Val} {a : Activation}
    (hready : fieldReady (fun o => cls.Ready o) name .dynamic a.this) (hfresh : a.dec.Fresh)
    (hahead : Ahead mem a.dec.ub
      (ArraySize.dynamic.lengthItems vs.length ++ vs.flatMap cls.items)) :
    FieldDecoded mem name cls .dynamic vs a
      (replayField P name cls (fun v place => cls.replay P v place) .dynamic vs a) := by
  obtain ⟨h0, hnone, hrst⟩ := hready
  simp only [fieldNames, List.nodup_cons, List.mem_cons, List.not_mem_nil, or_false,
    not_or] at hnames
  obtain ⟨⟨hls, hln⟩, hsn, -⟩ := hnames
  have hrest := (Ahead.cons hahead).2
  rcases Nat.eq_zero_or_pos vs.length with hlen | hpos
  · have hvs := List.eq_nil_of_length_eq_zero hlen
    subst hvs
    have hsame : SameHeap a.dec (replayField P name cls (fun v place => cls.replay P v place)
        .dynamic [] a).dec := by
      simp [SameHeap, replayField, replayLoop, growArray_zero, Activation.accept]
    refine ⟨⟨[], ?_, .nil⟩, ?_, hsame.grown hfresh, fun hno => absurd trivial hno⟩
    · simp [fieldElems, replayField, replayLoop, growArray_zero, Obj.asValue]
    · intro m hm
      obtain ⟨hl, -, -⟩ := notMem_fieldNames_dynamic hm
      simp [replayField, replayLoop, growArray_zero, Activation.accept, hl]
  · obtain ⟨cells, hcells, hgrow⟩ :=
      growArray_pos hP cls hpos (a := a.accept (.prim .four vs.length)) h0 hnone
    have hub := (hasRead_growArray P name cls vs.length (a.accept (.prim .four vs.length))).1
    obtain ⟨a', os, ha', hheap, hhold, hframe, hnext⟩ :=
      decoded_dynamicLoop hel hstr hstatic hsn a.dec.next vs 0
        (growArray P name cls vs.length (a.accept (.prim .four vs.length))) cells
        (by rw [hgrow]; simp [Function.update_of_ne (Ne.symm hln), Obj.asPointer,
          Activation.accept])
        (by rw [hgrow]; simp [Activation.accept])
        (by rwa [Nat.zero_add])
        (by rw [hgrow]; simpa [Function.update_of_ne (Ne.symm hls), Function.update_of_ne hsn,
          Activation.accept] using hrst)
        (by
          rw [hgrow]
          intro id hid
          have hid' : a.dec.next + 1 ≤ id := hid
          have hne : id ≠ a.dec.next := by omega
          simpa [Activation.accept, hne] using hfresh id (by omega))
        (by rw [hub]; exact hrest)
    have hos : os.length = vs.length := (hhold a'.dec.heap).length_eq
    rw [hgrow] at hheap hframe hnext
    simp only [Activation.accept, Function.update_idem, List.take_zero, List.nil_append,
      Nat.zero_add] at hheap hframe hnext
    have hlength : a'.this (name ++ "_length") = .value vs.length := by
      rw [hframe _ hls]
      simp
    have hptr : a'.this name = .pointer (some a.dec.next) := by
      rw [hframe _ (Ne.symm hsn)]
      simp [Function.update_of_ne (Ne.symm hln)]
    have hother : ∀ id, id ≠ a.dec.next → a'.dec.heap id = a.dec.heap id := by
      intro id hid
      rw [hheap, Function.update_of_ne hid]
    rw [replayField, ha']
    refine ⟨⟨os, ?_, hhold _⟩, ?_, ⟨?_, ?_⟩, fun hno => absurd trivial hno⟩
    · simp [fieldElems, hlength, hptr, Obj.asValue, Obj.asPointer, hheap, hos,
        Nat.pos_iff_ne_zero.mp hpos]
    · intro m hm
      obtain ⟨hl, hst, hne⟩ := notMem_fieldNames_dynamic hm
      rw [hframe m hst, Function.update_of_ne hl, Function.update_of_ne hne]
    · intro id c hc
      have hne : id ≠ a.dec.next := by
        intro heq
        subst heq
        rw [hfresh _ (Nat.le_refl _)] at hc
        exact absurd hc (by simp)
      rw [hother id hne, hc]
    · intro id hid
      rw [hnext] at hid
      rw [hother id (by omega)]
      exact hfresh id (by omega)

/-! ## The induction over the definition -/

mutual

/-- The statements for an element of an invertible class. -/
theorem DataClass.elementDecodes {P : Platform} (hP : P.Allocates) (mem : List UInt8)
    (cls : DataClass) (hnamed : cls.AllWellNamed) (hinv : cls.Invertible) :
    ElementDecodes P mem cls := by
  match cls with
  | .primitive p => exact elementDecodes_primitive P mem p
  | .string => exact elementDecodes_string P mem
  | .message D =>
    intro v place a _ hready hfresh hahead
    have hsub := MessageDef.decoded_replay hP hnamed.1 hnamed.2 hinv
      (a := ⟨(place.load a.this).members, a.dec⟩) hready hfresh hahead
    exact ⟨.message (D.replay P v ⟨(place.load a.this).members, a.dec⟩).this, rfl,
      hsub.holds, hsub.grown, hsub.static⟩

/-- After the assignments of a run on the layout of a value, the object holds
the value. -/
theorem MessageDef.decoded_replay {P : Platform} (hP : P.Allocates) {mem : List UInt8}
    {D : MessageDef} (hnamed : D.WellNamed) (hfields : D.FieldsWellNamed) (hinv : D.Invertible)
    {v : D.Val} {a : Activation} (hready : D.Ready a.this) (hfresh : a.dec.Fresh)
    (hahead : Ahead mem a.dec.ub (D.items v)) :
    D.Decoded mem v a (D.replay P v a) := by
  match D, v with
  | .nil, _ =>
    exact ⟨rfl, fun _ _ => rfl, Grown.refl hfresh, fun _ => ⟨trivial, SameHeap.refl _⟩⟩
  | .cons name cls size rest, (field, more) =>
    obtain ⟨hfield, hmore⟩ := Ahead.split hahead
    have hread := hasRead_replayField P name cls (DataClass.hasRead_replay P cls) size field.val a
    have hel := fun h => DataClass.elementDecodes hP mem cls hfields.1 h
    have hdec : FieldDecoded mem name cls size field.val a
        (replayField P name cls (fun v place => cls.replay P v place) size field.val a) := by
      obtain ⟨vs, hsize⟩ := field
      cases size with
      | single =>
        have hid := hnamed.identifier name (by simp [MessageDef.names_cons, fieldNames])
        exact decoded_single (hel hinv.1) hid hsize hready.1 hfresh hfield
      | fixed n =>
        rcases hinv.1 with rfl | ⟨hstr, hcls⟩
        · exact decoded_fixed_zero hsize hready.1 hfresh
        · exact decoded_fixed (hel hcls) hstr hsize hready.1 hfresh hfield
      | dynamic =>
        obtain ⟨hstr, hcls, hstatic⟩ := hinv.1
        exact decoded_dynamic hP (hel hcls) hstr hstatic hnamed.field hready.1 hfresh hfield
    rw [← hread.1] at hmore
    have hrest := MessageDef.decoded_replay hP hnamed.rest hfields.2 hinv.2
      (hready.2.congr fun m hm => hdec.frame m fun hf => hnamed.disjoint hf hm)
      hdec.grown.fresh hmore
    have hkeep : ∀ m ∈ fieldNames name size, _ := fun m hm =>
      hrest.frame m (hnamed.disjoint hm)
    obtain ⟨os, hos, hhold⟩ := hdec.holds
    refine ⟨readBack_cons.mpr ⟨⟨os, ?_, ?_⟩, hrest.holds⟩, ?_, hdec.grown.trans hrest.grown, ?_⟩
    · exact fieldElems_mono (fun _ => hrest.grown.extends_) hkeep hos
    · exact hhold.mono (cls.readBack_mono fun _ => hrest.grown.extends_)
    · intro m hm
      rw [MessageDef.names_cons, List.mem_append, not_or] at hm
      exact (hrest.frame m hm.2).trans (hdec.frame m hm.1)
    · intro hno
      obtain ⟨hf, hsame⟩ := hdec.static fun hd => hno (Or.inl hd)
      obtain ⟨hr, hsame'⟩ := hrest.static fun hd => hno (Or.inr hd)
      exact ⟨⟨fieldReady_congr hkeep hf, hr⟩, hsame.trans hsame'⟩

end

end Ros2Serial.Generator
