import Ros2Serial.Generator.Aliasing
import Ros2Serial.Generator.Reading

/-!
# Room for the elements

The statements for a variable array ask `realloc` for a block and copy the
elements into it, without a look at what `realloc` has returned.  This module
says when the copies stay inside of the blocks: exactly where the input leads
somewhere (`MessageDef.Reads`), that is where every count that is met fits
(`Platform.Fits`).

There are four groups.

* The invariant.  Every block belongs to one member, which is named by the
  `Path` that leads to it, and the code touches the blocks below its path and
  new ones only (`Keeps`).  `Stored` says that the block of a variable array is
  its own, and has room for as many elements as `x_length` says.
* Any run.  A fault is for good (`KeepsFault`), and the members of other fields
  stay as they are (`KeepsMember`).
* The loops.  `forLoop_follows` is the rule for a loop that keeps an invariant,
  and `dynamicLoop_follows` the loop that copies.
* The assembly.  `MessageDef.cdrDeserialize_follows` is the result for a
  message, and `MessageDef.stored_construct` gives the invariant for a new
  object.
-/

namespace Ros2Serial.Generator

open Bytes PlainCdr Ucdr

/-! ## Counts -/

/-- A block for so many elements has room for them. -/
def Platform.Fits (P : Platform) (cls : DataClass) (n : Nat) : Prop := n ≤ P.blockLength cls n

/-- What fits, fits with fewer elements too. -/
def Platform.FitsDown (P : Platform) : Prop :=
  ∀ cls m n, m ≤ n → P.Fits cls n → P.Fits cls m

/-! ## Blocks and their members -/

/-- The way from the object to a member: the names on it, with the index in an array.  A
variable array has its block at index 0, and its static element at index 1. -/
abbrev Path : Type := List (String × Nat)

/-- The blocks that a piece of code has touched are new, or belong to these paths. -/
structure Keeps (touched : Path → Prop) (owner owner' : Nat → Path) (dec dec' : Decoder) :
    Prop where
  next : dec.next ≤ dec'.next
  owners : ∀ b < dec.next, owner' b = owner b
  heap : ∀ b < dec.next, ¬ touched (owner b) → dec'.heap b = dec.heap b

section Keeps

variable {touched touched' : Path → Prop} {owner owner' owner'' : Nat → Path}
  {dec dec' dec'' : Decoder}

theorem SameHeap.keeps (h : SameHeap dec dec') (touched : Path → Prop) (owner : Nat → Path) :
    Keeps touched owner owner dec dec' where
  next := h.2.ge
  owners _ _ := rfl
  heap _ _ _ := by rw [h.1]

theorem Keeps.mono (h : Keeps touched owner owner' dec dec') (hle : ∀ q, touched q → touched' q) :
    Keeps touched' owner owner' dec dec' where
  next := h.next
  owners := h.owners
  heap b hb hq := h.heap b hb fun hq' => hq (hle _ hq')

theorem Keeps.trans (h : Keeps touched owner owner' dec dec')
    (h' : Keeps touched owner' owner'' dec' dec'') : Keeps touched owner owner'' dec dec'' where
  next := Nat.le_trans h.next h'.next
  owners b hb := by
    have hb' := Nat.lt_of_lt_of_le hb h.next
    rw [h'.owners b hb', h.owners b hb]
  heap b hb hq := by
    have hb' := Nat.lt_of_lt_of_le hb h.next
    have hq' : ¬ touched (owner' b) := by
      rw [h.owners b hb]
      exact hq
    rw [h'.heap b hb' hq', h.heap b hb hq]

end Keeps

/-- The block of a variable array: it is its own, and has room for the elements. -/
structure RoomFor (P : Platform) (owner : Nat → Path) (dec : Decoder) (cls : DataClass)
    (path : Path) (pointer : Option Nat) (length : Nat) : Prop where
  owned : ∀ b, pointer = some b → b < dec.next ∧ owner b = path
  fits : P.Fits cls length
  room : 0 < length →
    ∃ b cells, pointer = some b ∧ dec.heap b = some cells ∧ length ≤ cells.length

/-- What `Stored` asks of the members of a field. -/
def fieldStored (P : Platform) (owner : Nat → Path) (dec : Decoder) (path : Path) (name : String)
    (cls : DataClass) (stored : Path → Obj → Prop) : ArraySize → Members → Prop
  | .single, this => stored (path ++ [(name, 0)]) (this name)
  | .fixed _, this => ∀ i o, (this name).elems[i]? = some o → stored (path ++ [(name, i)]) o
  | .dynamic, this =>
    RoomFor P owner dec cls (path ++ [(name, 0)]) (this name).asPointer
        (this (name ++ "_length")).asValue ∧
      stored (path ++ [(name, 1)]) (this ("st_" ++ name))

mutual

/-- The variable arrays of an element have room for their elements, each in its own block. -/
def DataClass.Stored (P : Platform) (owner : Nat → Path) (dec : Decoder) :
    DataClass → Path → Obj → Prop
  | .primitive _, _, _ => True
  | .string, _, _ => True
  | .message D, path, o => D.Stored P owner dec path o.members

/-- The same for an object. -/
def MessageDef.Stored (P : Platform) (owner : Nat → Path) (dec : Decoder) :
    MessageDef → Path → Members → Prop
  | .nil, _, _ => True
  | .cons name cls size rest, path, this =>
    fieldStored P owner dec path name cls (fun path o => cls.Stored P owner dec path o) size this ∧
      rest.Stored P owner dec path this

end

section Stored

variable {P : Platform} {touched : Path → Prop} {owner owner' : Nat → Path} {dec dec' : Decoder}

theorem RoomFor.keep {cls : DataClass} {path : Path} {pointer : Option Nat} {length : Nat}
    (h : RoomFor P owner dec cls path pointer length) (hkeeps : Keeps touched owner owner' dec dec')
    (hpath : ¬ touched path) : RoomFor P owner' dec' cls path pointer length where
  owned b hb := by
    obtain ⟨hlt, howner⟩ := h.owned b hb
    exact ⟨Nat.lt_of_lt_of_le hlt hkeeps.next, (hkeeps.owners b hlt).trans howner⟩
  fits := h.fits
  room hlength := by
    obtain ⟨b, cells, hb, hcells, hle⟩ := h.room hlength
    obtain ⟨hlt, howner⟩ := h.owned b hb
    refine ⟨b, cells, hb, ?_, hle⟩
    rw [hkeeps.heap b hlt (howner ▸ hpath)]
    exact hcells

theorem fieldStored_keep {path : Path} {name : String} {cls : DataClass}
    {stored stored' : Path → Obj → Prop} {size : ArraySize} {this this' : Members}
    (hthis : ∀ m ∈ fieldNames name size, this' m = this m)
    (hkeeps : Keeps touched owner owner' dec dec')
    (hstored : ∀ i o, stored (path ++ [(name, i)]) o → stored' (path ++ [(name, i)]) o)
    (hpath : ∀ i, ¬ touched (path ++ [(name, i)]))
    (h : fieldStored P owner dec path name cls stored size this) :
    fieldStored P owner' dec' path name cls stored' size this' := by
  have hname := hthis name (name_mem_fieldNames name size)
  cases size with
  | single =>
    show stored' _ (this' name)
    rw [hname]
    exact hstored 0 _ h
  | fixed n =>
    intro i o ho
    rw [hname] at ho
    exact hstored i o (h i o ho)
  | dynamic =>
    have hlength := hthis (name ++ "_length") (by simp [fieldNames])
    have hstatic := hthis ("st_" ++ name) (by simp [fieldNames])
    simp only [fieldStored, hname, hlength, hstatic]
    exact ⟨h.1.keep hkeeps (hpath 0), hstored 1 _ h.2⟩

mutual

/-- An element is as it was after code that touches the blocks of other paths. -/
theorem DataClass.Stored.keep {cls : DataClass} {path : Path} {o : Obj}
    (h : cls.Stored P owner dec path o) (hkeeps : Keeps touched owner owner' dec dec')
    (hpath : ∀ more, ¬ touched (path ++ more)) : cls.Stored P owner' dec' path o := by
  match cls with
  | .primitive _ => trivial
  | .string => trivial
  | .message D =>
    exact MessageDef.Stored.keep (D := D) h (fun _ _ => rfl) hkeeps
      fun m _ i more => hpath ((m, i) :: more)

theorem MessageDef.Stored.keep {D : MessageDef} {path : Path} {this this' : Members}
    (h : D.Stored P owner dec path this)
    (hthis : ∀ m, (m, MemberType.other) ∈ D.members → this' m = this m)
    (hkeeps : Keeps touched owner owner' dec dec')
    (hpath : ∀ m ∈ D.names, ∀ i more, ¬ touched (path ++ (m, i) :: more)) :
    D.Stored P owner' dec' path this' := by
  match D with
  | .nil => trivial
  | .cons name cls size rest =>
    rw [MessageDef.names_cons] at hpath
    have hfield : ∀ i more, ¬ touched (path ++ (name, i) :: more) :=
      hpath name (List.mem_append_left _ (name_mem_fieldNames name size))
    refine ⟨?_, MessageDef.Stored.keep h.2 (fun m hm => hthis m (mem_members_of_mem_rest hm))
      hkeeps fun m hm => hpath m (List.mem_append_right _ hm)⟩
    by_cases hs : cls = .string ∧ size = .single
    · obtain ⟨rfl, rfl⟩ := hs
      trivial
    · refine fieldStored_keep (fun m hm => hthis m (mem_members_of_mem_fieldNames
        (fun h1 h2 => hs ⟨h1, h2⟩) hm)) hkeeps (fun i o ho => ?_) (fun i => hfield i []) h.1
      refine DataClass.Stored.keep ho hkeeps fun more => ?_
      rw [List.append_assoc]
      exact hfield i more

end

mutual

theorem DataClass.stored_indeterminate (cls : DataClass) (path : Path) :
    cls.Stored P owner dec path .indeterminate := by
  match cls with
  | .primitive _ => trivial
  | .string => trivial
  | .message D => exact D.stored_indeterminate path

theorem MessageDef.stored_indeterminate (D : MessageDef) (path : Path) :
    D.Stored P owner dec path fun _ => .indeterminate := by
  match D with
  | .nil => trivial
  | .cons name cls size rest =>
    refine ⟨?_, rest.stored_indeterminate path⟩
    cases size with
    | single => exact cls.stored_indeterminate _
    | fixed n => exact fun i o ho => by cases ho
    | dynamic =>
      have hroom : RoomFor P owner dec cls (path ++ [(name, 0)]) none 0 :=
        ⟨nofun, Nat.zero_le _, fun h => absurd h (Nat.lt_irrefl 0)⟩
      exact ⟨hroom, cls.stored_indeterminate _⟩

end

end Stored

/-! ## Any run

Whatever the buffer holds, a fault is for good, and the members that are not of
a field stay as they are, but for the strings.
-/

/-- A fault is for good. -/
def KeepsFault (code : Activation → Bool × Activation) : Prop :=
  ∀ a, a.dec.fault = true → (code a).2.dec.fault = true

theorem Decoder.read_fault (mem : List UInt8) (w : Width) (dec : Decoder) :
    (dec.read mem w).1.fault = dec.fault := by
  unfold Decoder.read
  split <;> rfl

theorem Decoder.memcpy_fault {p : Option Nat} {i : Nat} {o : Obj} {dec : Decoder}
    (h : dec.fault = true) : (dec.memcpy p i o).fault = true := by
  unfold Decoder.memcpy
  split
  · split
    · split
      · exact h
      · rfl
    · rfl
  · rfl

theorem deserializeString_keepsFault (mem : List UInt8) (place : Place) :
    KeepsFault (deserializeString mem place) := by
  intro a h
  have hread := a.dec.read_fault mem .four
  unfold deserializeString
  dsimp only
  split
  · rename_i heq
    rw [heq] at hread
    exact hread.trans h
  · rename_i heq
    rw [heq] at hread
    have hfault := hread.trans h
    dsimp only at hfault
    split
    · exact Bool.or_eq_true_iff.mpr (.inl hfault)
    · exact Bool.or_eq_true_iff.mpr (.inl hfault)

theorem forLoop_keepsFault {body : Nat → Activation → Bool × Activation}
    (h : ∀ i, KeepsFault (body i)) (count i : Nat) : KeepsFault (forLoop body count i) := by
  induction count generalizing i with
  | zero => exact fun _ ha => ha
  | succ count ih =>
    intro a ha
    rw [forLoop_succ]
    split
    · exact ih (i + 1) _ (h i a ha)
    · exact h i a ha

theorem growArray_fault (P : Platform) (name : String) (cls : DataClass) (n : Nat)
    (a : Activation) : (growArray P name cls n a).dec.fault = a.dec.fault := by
  unfold growArray
  dsimp only
  split <;> rfl

theorem copyRound_keepsFault {name : String} {element : Activation → Bool × Activation}
    (h : KeepsFault element) (i : Nat) : KeepsFault (copyRound name element i) := by
  intro a ha
  rw [copyRound_eq]
  split
  · exact Decoder.memcpy_fault (h a ha)
  · exact h a ha

theorem deserializeField_keepsFault (P : Platform) (mem : List UInt8) (name : String)
    (cls : DataClass) {element : Place → Activation → Bool × Activation}
    (h : ∀ place, KeepsFault (element place)) (size : ArraySize) :
    KeepsFault (deserializeField P mem name cls element size) := by
  cases size with
  | single => exact h _
  | fixed n => exact forLoop_keepsFault (fun i => h _) n 0
  | dynamic =>
    intro a ha
    rw [deserializeField_dynamic]
    refine forLoop_keepsFault (fun i => copyRound_keepsFault (h _) i) _ 0 _ ?_
    rw [growArray_fault]
    exact (a.dec.read_fault mem .four).trans ha

mutual

theorem DataClass.cdrDeserialize_keepsFault (P : Platform) (mem : List UInt8) (cls : DataClass)
    (place : Place) : KeepsFault (cls.cdrDeserialize P mem place) := by
  match cls with
  | .primitive p =>
    intro a ha
    have hread := a.dec.read_fault mem p.width
    unfold DataClass.cdrDeserialize
    split
    · rename_i heq
      rw [heq] at hread
      exact hread.trans ha
    · rename_i heq
      rw [heq] at hread
      exact hread.trans ha
  | .string => exact deserializeString_keepsFault mem place
  | .message D =>
    exact fun a ha => D.cdrDeserialize_keepsFault P mem ⟨(place.load a.this).members, a.dec⟩ ha

theorem MessageDef.cdrDeserialize_keepsFault (P : Platform) (mem : List UInt8)
    (D : MessageDef) : KeepsFault (D.cdrDeserialize P mem) := by
  match D with
  | .nil => exact fun _ ha => ha
  | .cons name cls size rest =>
    intro a ha
    have hfield := deserializeField_keepsFault P mem name cls
      (DataClass.cdrDeserialize_keepsFault P mem cls) size a ha
    rw [MessageDef.cdrDeserialize_cons]
    dsimp only
    split
    · exact rest.cdrDeserialize_keepsFault P mem _ hfield
    · exact hfield

end

/-- The code leaves a member as it is. -/
def KeepsMember (m : String) (code : Activation → Bool × Activation) : Prop :=
  ∀ a, (code a).2.this m = a.this m

theorem forLoop_keepsMember {m : String} {body : Nat → Activation → Bool × Activation}
    (h : ∀ i, KeepsMember m (body i)) (count i : Nat) : KeepsMember m (forLoop body count i) := by
  induction count generalizing i with
  | zero => exact fun _ => rfl
  | succ count ih =>
    intro a
    rw [forLoop_succ]
    split
    · exact (ih (i + 1) _).trans (h i a)
    · exact h i a

/-- A member that is not the one of the place, nor the target of a string. -/
theorem DataClass.cdrDeserialize_keepsMember (P : Platform) (mem : List UInt8) (cls : DataClass)
    (place : Place) {m : String} (hm : ∀ this o, place.store this o m = this m)
    (hs : cls = .string → m ≠ mangle place.text) :
    KeepsMember m (cls.cdrDeserialize P mem place) := by
  intro a
  match cls with
  | .primitive p =>
    unfold DataClass.cdrDeserialize
    split
    · exact hm _ _
    · rfl
  | .string =>
    unfold DataClass.cdrDeserialize deserializeString
    dsimp only
    split
    · rfl
    · split
      · exact Function.update_of_ne (hs rfl) _ _
      · exact Function.update_of_ne (hs rfl) _ _
  | .message D => exact hm _ _

/-- A round of a variable array assigns to no member but the static element. -/
theorem copyRound_keepsMember (P : Platform) (mem : List UInt8) {name : String} {cls : DataClass}
    {m : String} (hm : m ≠ "st_" ++ name) (hs : cls = .string → m ≠ mangle ("st_" ++ name))
    (i : Nat) :
    KeepsMember m (copyRound name (cls.cdrDeserialize P mem (.member ("st_" ++ name))) i) := by
  intro a
  have helement := cls.cdrDeserialize_keepsMember P mem (.member ("st_" ++ name))
    (fun _ _ => Function.update_of_ne hm _ _) hs a
  rw [copyRound_eq]
  split
  · exact helement
  · exact helement

theorem deserializeField_keepsMember (P : Platform) (mem : List UInt8) {name : String}
    {cls : DataClass} {size : ArraySize} {m : String} (hm : m ∉ fieldNames name size)
    (hs : cls = .string → m ≠ stringTarget name size) :
    KeepsMember m (deserializeField P mem name cls
      (fun place => cls.cdrDeserialize P mem place) size) := by
  cases size with
  | single =>
    have hne : m ≠ name := by simpa [fieldNames] using hm
    exact cls.cdrDeserialize_keepsMember P mem (.member name)
      (fun _ _ => Function.update_of_ne hne _ _) hs
  | fixed n =>
    have hne : m ≠ name := by simpa [fieldNames] using hm
    exact forLoop_keepsMember (fun i => cls.cdrDeserialize_keepsMember P mem (.element name i)
      (fun _ _ => Function.update_of_ne hne _ _) hs) n 0
  | dynamic =>
    obtain ⟨hl, hst, hne⟩ := notMem_fieldNames_dynamic hm
    intro a
    rw [deserializeField_dynamic]
    exact (forLoop_keepsMember (copyRound_keepsMember P mem hst hs) _ 0 _).trans
      (growArray_frame P cls _ _ hne hl)

/-- A member that is not declared by the fields, and is not a `const char*`. -/
theorem MessageDef.cdrDeserialize_keepsMember {reserved : String → Prop}
    {members : List (String × MemberType)} (P : Platform) (mem : List UInt8) {D : MessageDef}
    (h : D.PartOf reserved members) {m : String} (hm : m ∉ D.names)
    (hc : (m, MemberType.constCharPtr) ∉ members) : KeepsMember m (D.cdrDeserialize P mem) := by
  match D with
  | .nil => exact fun _ => rfl
  | .cons name cls size rest =>
    rw [MessageDef.names_cons, List.mem_append, not_or] at hm
    intro a
    have hfield := deserializeField_keepsMember P mem hm.1
      (fun hs he => hc (he ▸ h.compiles.1 hs)) a
    rw [MessageDef.cdrDeserialize_cons]
    dsimp only
    split
    · exact (MessageDef.cdrDeserialize_keepsMember P mem h.rest hm.2 hc _).trans hfield
    · exact hfield

/-! ## The statements for an element -/

/-- Paths that part do not lead to the same block. -/
theorem not_prefix_of_ne {path more : Path} {step step' : String × Nat} (h : step ≠ step') :
    ¬ path ++ [step] <+: path ++ step' :: more := by
  rw [List.prefix_append_right_inj, List.cons_prefix_cons]
  exact fun hprefix => h hprefix.1

/-- The blocks of a field. -/
def OfField (path : Path) (name : String) (q : Path) : Prop := ∃ j, path ++ [(name, j)] <+: q

theorem not_ofField {path more : Path} {name m : String} (h : name ≠ m) (i : Nat) :
    ¬ OfField path name (path ++ (m, i) :: more) := by
  intro hfield
  obtain ⟨j, hj⟩ := hfield
  exact not_prefix_of_ne (fun heq => h (Prod.mk.inj heq).1) hj

/-- An assignment to the place leaves what is beside it. -/
def Place.Beside : Place → Members → Members → Prop
  | .member name, this, this' => ∀ m, m ≠ name → this' m = this m
  | .element name i, this, this' => ∀ j, j ≠ i → (this' name).elems[j]? = (this name).elems[j]?

theorem Place.beside_refl (place : Place) (this : Members) : place.Beside this this := by
  cases place with
  | member name => exact fun _ _ => rfl
  | element name i => exact fun _ _ => rfl

theorem Place.beside_store (place : Place) (this : Members) (o : Obj) :
    place.Beside this (place.store this o) := by
  cases place with
  | member name => exact fun m hm => Function.update_of_ne hm _ _
  | element name i =>
    intro j hj
    rw [Place.elems_store_element, List.getElem?_set_ne (Ne.symm hj)]

/-- What has been assigned, unless the array is too short for it. -/
theorem Place.load_store (place : Place) (this : Members) (o : Obj) :
    place.load (place.store this o) = o ∨ place.load (place.store this o) = .indeterminate := by
  cases place with
  | member name => exact .inl (Function.update_self ..)
  | element name i =>
    rw [Place.load, Place.elems_store_element, List.getD_eq_getElem?_getD, List.getElem?_set_self']
    cases (this name).elems[i]? with
    | none => exact .inr rfl
    | some _ => exact .inl rfl

/-- The statements for an element follow the reading, and leave the element with room. -/
def ElementFollows (P : Platform) (mem : List UInt8) (cls : DataClass) : Prop :=
  ∀ (owner : Nat → Path) (path : Path) (place : Place) (a : Activation) (c : Cursor),
    c.Of mem a.dec → a.dec.fault = false → cls.Stored P owner a.dec path (place.load a.this) →
    ∀ run, run = cls.cdrDeserialize P mem place a →
    Follows mem (cls.Reads P.Fits P.uninitialised mem c) run
      (∃ owner', Keeps (path <+: ·) owner owner' a.dec run.2.dec ∧
        place.Beside a.this run.2.this ∧
        cls.Stored P owner' run.2.dec path (place.load run.2.this))

theorem elementFollows_primitive (P : Platform) (mem : List UInt8) (p : Primitive) :
    ElementFollows P mem (.primitive p) := by
  intro owner path place a c hc hfault _ run hrun
  subst hrun
  obtain ⟨read, c', hread⟩ := hc.exists_reads p.width
  refine ⟨fun _ => ⟨true, c', rfl, read, hread⟩, fun done c'' hc'' => ?_⟩
  obtain ⟨rfl, read', hread'⟩ := hc''
  obtain ⟨ub, reads, hrun, hof⟩ := hread'.run hc
  rw [DataClass.cdrDeserialize, hrun]
  have hsame : SameHeap a.dec { a.dec with ub := ub, reads := reads } := ⟨rfl, rfl⟩
  cases read' with
  | none =>
    exact ⟨hfault, rfl, hof, owner, hsame.keeps _ owner, place.beside_refl a.this, trivial⟩
  | some n =>
    exact ⟨hfault, rfl, hof, owner, hsame.keeps _ owner, place.beside_store a.this _, trivial⟩

section Loops

variable {P : Platform} {mem : List UInt8} {owner : Nat → Path} {path : Path} {name : String}
  {cls : DataClass}

/-- A loop whose rounds follow the reading of an element, and keep `I`. -/
theorem forLoop_follows {touched : Path → Prop} {I : (Nat → Path) → Activation → Prop}
    {element : Cursor → Bool → Cursor → Prop} {body : Nat → Activation → Bool × Activation}
    {N : Nat} (hkeep : ∀ i, KeepsFault (body i))
    (hbody : ∀ i < N, ∀ owner a c, c.Of mem a.dec → a.dec.fault = false → I owner a →
      Follows mem (element c) (body i a)
        (∃ owner', Keeps touched owner owner' a.dec (body i a).2.dec ∧ I owner' (body i a).2))
    (count : Nat) :
    ∀ (i : Nat) (owner : Nat → Path) (a : Activation) (c : Cursor), i + count ≤ N →
      c.Of mem a.dec → a.dec.fault = false → I owner a →
      ∀ loop, loop = forLoop body count i a →
      Follows mem (loopReads element count c) loop
        (∃ owner', Keeps touched owner owner' a.dec loop.2.dec ∧ I owner' loop.2) := by
  induction count with
  | zero =>
    intro i owner a c _ hc hfault hI loop hloop
    subst hloop
    exact Follows.skip hc hfault ⟨owner, (SameHeap.refl _).keeps touched owner, hI⟩
  | succ count ih =>
    intro i owner a c hle hc hfault hI loop hloop
    refine Follows.seq (fun c => loopReads element count c)
      (fun loop => ∃ owner', Keeps touched owner owner' a.dec loop.2.dec ∧ I owner' loop.2)
      (hbody i (by omega) owner a c hc hfault hI) (forLoop_keepsFault hkeep count (i + 1) _) ?_
      (fun _ _ h => h) loop (hloop.trans (forLoop_succ body count i a))
    intro c₁ _ hquiet hof hfirst
    obtain ⟨owner₁, hkeeps, hI₁⟩ := hfirst
    refine (ih (i + 1) owner₁ _ c₁ (by omega) hof hquiet hI₁ _ rfl).imp fun hrest => ?_
    obtain ⟨owner₂, hkeeps', hI₂⟩ := hrest
    exact ⟨owner₂, hkeeps.trans hkeeps', hI₂⟩

/-- A loop over strings. -/
theorem stringLoop_follows (P : Platform) (owner : Nat → Path) (touched : Path → Prop)
    (place : Nat → Place) (count : Nat) {a : Activation} {c : Cursor} (hc : c.Of mem a.dec)
    (hfault : a.dec.fault = false) :
    ∀ loop, loop =
      forLoop (fun i => DataClass.string.cdrDeserialize P mem (place i)) count 0 a →
    Follows mem (loopReads (fun c done c' => c.ReadsString mem done c') count c) loop
      (∃ owner', Keeps touched owner owner' a.dec loop.2.dec ∧ True) := by
  refine forLoop_follows (I := fun _ _ => True) (N := count)
    (fun i => deserializeString_keepsFault mem (place i)) ?_ count 0 owner a c (by omega) hc hfault
    trivial
  intro i _ owner a c hc hfault _
  exact (deserializeString_follows (place i) hc hfault).imp fun hsame =>
    ⟨owner, hsame.keeps _ owner, trivial⟩

/-- The elements of a fixed array have room. -/
theorem stored_load {i : Nat} {a : Activation}
    (h : ∀ j o, (a.this name).elems[j]? = some o →
      cls.Stored P owner a.dec (path ++ [(name, j)]) o) :
    cls.Stored P owner a.dec (path ++ [(name, i)]) ((Place.element name i).load a.this) := by
  rw [Place.load, List.getD_eq_getElem?_getD]
  cases hget : (a.this name).elems[i]? with
  | none => exact cls.stored_indeterminate _
  | some o => exact h i o hget

/-- The loop of a fixed array. -/
theorem fixedLoop_follows (hel : ElementFollows P mem cls) (count : Nat) {a : Activation}
    {c : Cursor} (hc : c.Of mem a.dec) (hfault : a.dec.fault = false)
    (hstored : ∀ j o, (a.this name).elems[j]? = some o →
      cls.Stored P owner a.dec (path ++ [(name, j)]) o) :
    ∀ loop, loop = forLoop (fun i => cls.cdrDeserialize P mem (.element name i)) count 0 a →
    Follows mem
      (loopReads (fun c done c' => cls.Reads P.Fits P.uninitialised mem c done c') count c) loop
      (∃ owner', Keeps (OfField path name) owner owner' a.dec loop.2.dec ∧
        ∀ j o, (loop.2.this name).elems[j]? = some o →
          cls.Stored P owner' loop.2.dec (path ++ [(name, j)]) o) := by
  refine forLoop_follows (N := count)
    (I := fun owner a => ∀ j o, (a.this name).elems[j]? = some o →
      cls.Stored P owner a.dec (path ++ [(name, j)]) o)
    (fun i => cls.cdrDeserialize_keepsFault P mem (.element name i)) ?_ count 0 owner a c (by omega)
    hc hfault hstored
  intro i _ owner a c hc hfault hstored
  refine (hel owner (path ++ [(name, i)]) (.element name i) a c hc hfault (stored_load hstored) _
    rfl).imp fun helement => ?_
  obtain ⟨owner', hkeeps, hbeside, ho⟩ := helement
  refine ⟨owner', hkeeps.mono fun q hq => ⟨i, hq⟩, fun j o hj => ?_⟩
  by_cases hji : j = i
  · subst hji
    rw [Place.load, List.getD_eq_getElem?_getD, hj] at ho
    exact ho
  · rw [hbeside j hji] at hj
    refine (hstored j o hj).keep hkeeps fun more => ?_
    rw [List.append_assoc]
    exact not_prefix_of_ne fun heq => hji (Prod.mk.inj heq).2.symm

/-! ## Variable arrays -/

/-- In the loop of a variable array: the block with its number of cells, and the static
element. -/
structure Copying (P : Platform) (owner : Nat → Path) (path : Path) (name : String)
    (cls : DataClass) (block count : Nat) (a : Activation) : Prop where
  pointer : (a.this name).asPointer = some block
  allocated : block < a.dec.next
  owned : owner block = path ++ [(name, 0)]
  cells : ∃ cells, a.dec.heap block = some cells ∧ cells.length = count
  static : cls.Stored P owner a.dec (path ++ [(name, 1)]) (a.this ("st_" ++ name))

/-- What `memcpy` does to a block that is there. -/
theorem Decoder.memcpy_some {dec : Decoder} {block : Nat} {cells : List Obj}
    (h : dec.heap block = some cells) (i : Nat) (o : Obj) :
    dec.memcpy (some block) i o =
      if i < cells.length then
        { dec with heap := Function.update dec.heap block (some (cells.set i o)) }
      else { dec with fault := true } := by
  unfold Decoder.memcpy
  simp only [h]

/-- The block that `realloc` returns. -/
theorem Decoder.realloc_cells (P : Platform) (cls : DataClass) (p : Option Nat) (n : Nat)
    (dec : Decoder) : ∃ cells, (dec.realloc P cls p n).1.heap dec.next = some cells ∧
      cells.length = P.blockLength cls n := by
  refine ⟨_, Function.update_self .., ?_⟩
  rw [List.length_append, List.length_take, List.length_replicate]
  omega

/-- `realloc` touches the block that it is given, and a new one. -/
theorem Decoder.realloc_keeps (P : Platform) (cls : DataClass) {p : Option Nat} (n : Nat)
    {dec : Decoder} (h : ∀ b, p = some b → owner b = path) :
    Keeps (path <+: ·) owner (Function.update owner dec.next path) dec
      (dec.realloc P cls p n).1 where
  next := Nat.le_succ _
  owners _ hb := Function.update_of_ne (Nat.ne_of_lt hb) _ _
  heap b hb hq := by
    simp only [Decoder.realloc]
    rw [Function.update_of_ne (Nat.ne_of_lt hb)]
    cases p with
    | none => rfl
    | some old =>
      refine Function.update_of_ne ?_ _ _
      intro heq
      subst heq
      exact hq (h b rfl ▸ List.prefix_rfl)

/-- Only a string ends a loop. -/
theorem DataClass.reads_done (hstr : cls ≠ .string) {fits : DataClass → Nat → Prop}
    {uninitialised : Nat → Nat} {c c' : Cursor} {done : Bool}
    (h : cls.Reads fits uninitialised mem c done c') : done = true := by
  match cls with
  | .primitive _ => exact h.1
  | .string => exact absurd rfl hstr
  | .message _ => exact h.1

section Copying

variable {block count : Nat} {owner' : Nat → Path} {a b : Activation}

/-- The statements for the static element leave the block as it is. -/
theorem Copying.element (h : Copying P owner path name cls block count a)
    (hkeeps : Keeps (path ++ [(name, 1)] <+: ·) owner owner' a.dec b.dec)
    (hname : b.this name = a.this name)
    (hstatic : cls.Stored P owner' b.dec (path ++ [(name, 1)]) (b.this ("st_" ++ name))) :
    Copying P owner' path name cls block count b where
  pointer := (congrArg Obj.asPointer hname).trans h.pointer
  allocated := Nat.lt_of_lt_of_le h.allocated hkeeps.next
  owned := (hkeeps.owners block h.allocated).trans h.owned
  cells := by
    rw [hkeeps.heap block h.allocated (h.owned ▸ not_prefix_of_ne (by simp))]
    exact h.cells
  static := hstatic

/-- The copy is inside of the block exactly below `count`. -/
theorem Copying.copyElement_fault (h : Copying P owner path name cls block count a)
    (hquiet : a.dec.fault = false) (i : Nat) :
    (copyElement name i a).dec.fault = false ↔ i < count := by
  obtain ⟨cells, hcells, hlength⟩ := h.cells
  rw [copyElement, h.pointer, Decoder.memcpy_some hcells, ← hlength]
  dsimp only
  split
  · exact iff_of_true hquiet ‹_›
  · exact iff_of_false Bool.noConfusion ‹_›

theorem Copying.copyElement (h : Copying P owner path name cls block count a) {i : Nat}
    (hi : i < count) :
    Keeps (path ++ [(name, 0)] <+: ·) owner owner a.dec (copyElement name i a).dec ∧
      Copying P owner path name cls block count (copyElement name i a) := by
  obtain ⟨cells, hcells, hlength⟩ := h.cells
  have hdec : (Generator.copyElement name i a).dec =
      { a.dec with
        heap := Function.update a.dec.heap block
          (some (cells.set i (a.this ("st_" ++ name)))) } := by
    rw [Generator.copyElement, h.pointer, Decoder.memcpy_some hcells, hlength, if_pos hi]
  have hkeeps : Keeps (path ++ [(name, 0)] <+: ·) owner owner a.dec
      (Generator.copyElement name i a).dec := by
    rw [hdec]
    refine ⟨Nat.le_refl _, fun _ _ => rfl, fun b hb hq => Function.update_of_ne ?_ _ _⟩
    intro heq
    subst heq
    exact hq ⟨[], by rw [List.append_nil, h.owned]⟩
  refine ⟨hkeeps, h.pointer, Nat.lt_of_lt_of_le h.allocated hkeeps.next, h.owned,
    ⟨cells.set i (a.this ("st_" ++ name)), ?_, ?_⟩, ?_⟩
  · rw [hdec]
    exact Function.update_self ..
  · rw [List.length_set]
    exact hlength
  · refine DataClass.Stored.keep h.static hkeeps fun more => ?_
    rw [List.append_assoc]
    exact not_prefix_of_ne (by simp)

/-- After the loop the field has room, if the elements fit. -/
theorem Copying.fieldStored (h : Copying P owner path name cls block count a) {n : Nat}
    (hlength : a.this (name ++ "_length") = .value n) (hfits : P.Fits cls n) (hle : n ≤ count) :
    fieldStored P owner a.dec path name cls
      (fun path o => cls.Stored P owner a.dec path o) .dynamic a.this := by
  refine ⟨⟨?_, ?_, ?_⟩, h.static⟩
  · rw [h.pointer]
    intro b hb
    obtain rfl := Option.some.inj hb
    exact ⟨h.allocated, h.owned⟩
  · rw [hlength]
    exact hfits
  · obtain ⟨cells, hcells, hcount⟩ := h.cells
    rw [hlength, h.pointer]
    exact fun _ => ⟨block, cells, rfl, hcells, hcount ▸ hle⟩

end Copying

/-- A round: the static element, and its copy into a block that has a cell for it. -/
theorem copyRound_follows (hel : ElementFollows P mem cls) (hstr : cls ≠ .string)
    (hne : name ≠ "st_" ++ name) {block count : Nat} {owner : Nat → Path} {a : Activation}
    {c : Cursor} (hc : c.Of mem a.dec) (hfault : a.dec.fault = false)
    (h : Copying P owner path name cls block count a) (i : Nat) :
    ∀ round, round = copyRound name (cls.cdrDeserialize P mem (.member ("st_" ++ name))) i a →
    Follows mem (fun done c' => i < count ∧ cls.Reads P.Fits P.uninitialised mem c done c') round
      (∃ owner', Keeps (OfField path name) owner owner' a.dec round.2.dec ∧
        Copying P owner' path name cls block count round.2) := by
  intro round hround
  rw [copyRound_eq] at hround
  subst hround
  obtain ⟨hreads, hleaves⟩ := hel owner (path ++ [(name, 1)]) (.member ("st_" ++ name)) a c hc
    hfault h.static _ rfl
  generalize cls.cdrDeserialize P mem (.member ("st_" ++ name)) a = element at hreads hleaves ⊢
  constructor
  · intro hrun
    have hquiet : element.2.dec.fault = false := by
      cases hfault : element.2.dec.fault with
      | false => rfl
      | true =>
        split at hrun
        · have hcopied : (copyElement name i element.2).dec.fault = true :=
            Decoder.memcpy_fault hfault
          rw [hcopied] at hrun
          cases hrun
        · rw [hfault] at hrun
          cases hrun
    obtain ⟨done, c', hc'⟩ := hreads hquiet
    obtain ⟨-, hreturn, -, owner', hkeeps, hbeside, hstatic⟩ := hleaves done c' hc'
    rw [cls.reads_done hstr hc'] at hreturn
    rw [if_pos hreturn] at hrun
    have hcopying := h.element hkeeps (hbeside name hne) hstatic
    exact ⟨done, c', (hcopying.copyElement_fault hquiet i).mp hrun, hc'⟩
  · intro done c' hc'
    obtain ⟨hi, hc'⟩ := hc'
    obtain ⟨hquiet, hreturn, hof, owner', hkeeps, hbeside, hstatic⟩ := hleaves done c' hc'
    obtain rfl := cls.reads_done hstr hc'
    rw [if_pos hreturn]
    have hcopying := h.element hkeeps (hbeside name hne) hstatic
    obtain ⟨hkeeps', hcopied⟩ := hcopying.copyElement hi
    refine ⟨(hcopying.copyElement_fault hquiet i).mpr hi, rfl,
      hof.congr (Decoder.memcpy_ub ..) (Decoder.memcpy_reads ..), owner',
      (hkeeps.mono fun q hq => ⟨1, hq⟩).trans (hkeeps'.mono fun q hq => ⟨0, hq⟩), hcopied⟩

/-- The loop of a variable array. -/
theorem dynamicLoop_follows (hel : ElementFollows P mem cls) (hstr : cls ≠ .string)
    (hne : name ≠ "st_" ++ name) {block count : Nat} (n : Nat) :
    ∀ (i : Nat) (owner : Nat → Path) (a : Activation) (c : Cursor), i ≤ count →
      c.Of mem a.dec → a.dec.fault = false → Copying P owner path name cls block count a →
      ∀ loop, loop = forLoop
        (copyRound name (cls.cdrDeserialize P mem (.member ("st_" ++ name)))) n i a →
      Follows mem (fun done c' => i + n ≤ count ∧
          loopReads (fun c done c' => cls.Reads P.Fits P.uninitialised mem c done c') n c done c')
        loop
        (∃ owner', Keeps (OfField path name) owner owner' a.dec loop.2.dec ∧
          Copying P owner' path name cls block count loop.2) := by
  have hkeep : ∀ i, KeepsFault
      (copyRound name (cls.cdrDeserialize P mem (.member ("st_" ++ name))) i) :=
    fun i => copyRound_keepsFault (cls.cdrDeserialize_keepsFault P mem (.member ("st_" ++ name))) i
  induction n with
  | zero =>
    intro i owner a c hi hc hfault h loop hloop
    subst hloop
    exact (Follows.skip hc hfault ⟨owner, (SameHeap.refl _).keeps _ owner, h⟩).congr
      fun _ _ => and_iff_right hi
  | succ n ih =>
    intro i owner a c hi hc hfault h loop hloop
    have hseq := Follows.seq
      (fun c done c' => i + 1 + n ≤ count ∧
        loopReads (fun c done c' => cls.Reads P.Fits P.uninitialised mem c done c') n c done c')
      (fun loop => ∃ owner', Keeps (OfField path name) owner owner' a.dec loop.2.dec ∧
        Copying P owner' path name cls block count loop.2)
      (copyRound_follows hel hstr hne hc hfault h i _ rfl) (forLoop_keepsFault hkeep n (i + 1) _)
      (by
        intro c₁ hround hquiet hof hfirst
        obtain ⟨owner₁, hkeeps, hcopying⟩ := hfirst
        refine (ih (i + 1) owner₁ _ c₁ hround.1 hof hquiet hcopying _ rfl).imp fun hrest => ?_
        obtain ⟨owner₂, hkeeps', hcopied⟩ := hrest
        exact ⟨owner₂, hkeeps.trans hkeeps', hcopied⟩)
      (fun _ _ h => h) loop (hloop.trans (forLoop_succ _ n i a))
    refine hseq.congr fun done c' => ⟨?_, ?_⟩
    · rintro ⟨hle, ⟨c₁, hc₁, hrest⟩ | ⟨rfl, hstop⟩⟩
      · exact .inl ⟨c₁, ⟨by omega, hc₁⟩, by omega, hrest⟩
      · exact .inr ⟨rfl, by omega, hstop⟩
    · rintro (⟨c₁, ⟨-, hc₁⟩, hle, hrest⟩ | ⟨rfl, -, hstop⟩)
      · exact ⟨by omega, .inl ⟨c₁, hc₁, hrest⟩⟩
      · exact absurd (cls.reads_done hstr hstop) Bool.false_ne_true

/-- What the code in front of the loop does: there is a block, which has room for the elements
if they fit. -/
theorem copying_growArray (hdown : P.FitsDown) (hnames : (fieldNames name .dynamic).Nodup) {n : Nat}
    (hn : 0 < n) {a : Activation}
    (hstored : fieldStored P owner a.dec path name cls
      (fun path o => cls.Stored P owner a.dec path o) .dynamic a.this) :
    ∃ owner' block count, (n ≤ count ↔ P.Fits cls n) ∧
      Keeps (OfField path name) owner owner' a.dec (growArray P name cls n a).dec ∧
      Copying P owner' path name cls block count (growArray P name cls n a) := by
  obtain ⟨hls, hln, hsn⟩ := fieldNames_dynamic_nodup hnames
  obtain ⟨hroom, hstatic⟩ := hstored
  have hthis : (growArray P name cls n a).this ("st_" ++ name) = a.this ("st_" ++ name) :=
    growArray_frame P cls n a hsn (Ne.symm hls)
  have hpath : ∀ more, ¬ path ++ [(name, 0)] <+: path ++ [(name, 1)] ++ more := by
    intro more
    rw [List.append_assoc]
    exact not_prefix_of_ne (by simp)
  by_cases hgrow : (a.this (name ++ "_length")).asValue < n
  · let owner' := Function.update owner a.dec.next (path ++ [(name, 0)])
    have hdec : (growArray P name cls n a).dec =
        (a.dec.realloc P cls (a.this name).asPointer n).1 := by
      simp only [growArray, if_pos hgrow]
    have hkeeps : Keeps (path ++ [(name, 0)] <+: ·) owner owner' a.dec
        (growArray P name cls n a).dec := by
      rw [hdec]
      exact Decoder.realloc_keeps P cls n fun b hb => (hroom.owned b hb).2
    refine ⟨owner', a.dec.next, P.blockLength cls n, Iff.rfl,
      hkeeps.mono fun q hq => ⟨0, hq⟩, ?_, ?_, Function.update_self .., ?_, ?_⟩
    · simp only [growArray, if_pos hgrow]
      rw [Function.update_of_ne (Ne.symm hln), Function.update_self]
      rfl
    · rw [hdec]
      exact Nat.lt_succ_self _
    · rw [hdec]
      exact a.dec.realloc_cells P cls _ n
    · rw [hthis]
      exact hstatic.keep hkeeps hpath
  · have hdec : (growArray P name cls n a).dec = a.dec := by
      simp only [growArray, if_neg hgrow]
    obtain ⟨block, cells, hblock, hcells, hle⟩ := hroom.room (by omega)
    obtain ⟨hlt, howner⟩ := hroom.owned block hblock
    have hcount : n ≤ cells.length := by omega
    have hfits : P.Fits cls n := hdown cls n _ (Nat.le_of_not_lt hgrow) hroom.fits
    refine ⟨owner, block, cells.length, iff_of_true hcount hfits, ?_, ?_, ?_, howner, ?_, ?_⟩
    · rw [hdec]
      exact (SameHeap.refl _).keeps _ owner
    · simp only [growArray, if_neg hgrow]
      rw [Function.update_of_ne (Ne.symm hln)]
      exact hblock
    · rw [hdec]
      exact hlt
    · rw [hdec]
      exact ⟨cells, hcells, rfl⟩
    · rw [hthis, hdec]
      exact hstatic

/-- A variable array after its count has been read. -/
theorem elements_follows (hdown : P.FitsDown) (hel : ElementFollows P mem cls)
    (hstr : cls ≠ .string) (hnames : (fieldNames name .dynamic).Nodup) (n : Nat)
    {a : Activation} {c : Cursor} (hc : c.Of mem a.dec) (hfault : a.dec.fault = false)
    (hstored : fieldStored P owner a.dec path name cls
      (fun path o => cls.Stored P owner a.dec path o) .dynamic a.this) :
    ∀ run, run = forLoop (copyRound name (cls.cdrDeserialize P mem (.member ("st_" ++ name)))) n 0
      (growArray P name cls n a) →
    Follows mem (fun done c' => P.Fits cls n ∧
        loopReads (fun c done c' => cls.Reads P.Fits P.uninitialised mem c done c') n c done c') run
      (∃ owner', Keeps (OfField path name) owner owner' a.dec run.2.dec ∧
        fieldStored P owner' run.2.dec path name cls
          (fun path o => cls.Stored P owner' run.2.dec path o) .dynamic run.2.this) := by
  intro run hrun
  subst hrun
  obtain ⟨hls, hln, hsn⟩ := fieldNames_dynamic_nodup hnames
  have hgrown : (growArray P name cls n a).dec.fault = false :=
    (growArray_fault P name cls n a).trans hfault
  have hlength : (growArray P name cls n a).this (name ++ "_length") = .value n := by
    unfold growArray
    exact Function.update_self ..
  rcases Nat.eq_zero_or_pos n with rfl | hpos
  · -- no element: the block stays, and the length is zero
    have hthis : ∀ m, m ≠ name ++ "_length" → (growArray P name cls 0 a).this m = a.this m :=
      fun m hm => Function.update_of_ne hm _ _
    have hfield : fieldStored P owner a.dec path name cls
        (fun path o => cls.Stored P owner a.dec path o) .dynamic
        (growArray P name cls 0 a).this := by
      constructor
      · show RoomFor P owner a.dec cls _ ((growArray P name cls 0 a).this name).asPointer
          ((growArray P name cls 0 a).this (name ++ "_length")).asValue
        rw [hthis name (Ne.symm hln), hlength]
        exact ⟨hstored.1.owned, Nat.zero_le _, fun h => absurd h (Nat.lt_irrefl 0)⟩
      · show cls.Stored P owner a.dec _ ((growArray P name cls 0 a).this ("st_" ++ name))
        rw [hthis _ (Ne.symm hls)]
        exact hstored.2
    exact (Follows.skip (a := growArray P name cls 0 a) hc hgrown
      ⟨owner, (SameHeap.refl _).keeps _ owner, hfield⟩).congr
      fun _ _ => and_iff_right (Nat.zero_le _)
  · obtain ⟨owner₁, block, count, hcount, hkeeps, hcopying⟩ :=
      copying_growArray hdown hnames hpos hstored
    have hread := hasRead_growArray P name cls n a
    have hof : c.Of mem (growArray P name cls n a).dec :=
      hc.congr hread.1 (hread.2.trans (List.append_nil _))
    have hloop := dynamicLoop_follows hel hstr (Ne.symm hsn) n 0 owner₁ _ c (Nat.zero_le _) hof
      hgrown hcopying _ rfl
    rw [Nat.zero_add] at hloop
    obtain ⟨hreads, hleaves⟩ := hloop
    constructor
    · intro hrun
      obtain ⟨done, c', hle, hc'⟩ := hreads hrun
      exact ⟨done, c', hcount.mp hle, hc'⟩
    · rintro done c' ⟨hfits, hc'⟩
      obtain ⟨hquiet, hreturn, hof', owner₂, hkeeps', hcopied⟩ :=
        hleaves done c' ⟨hcount.mpr hfits, hc'⟩
      have hkept : (forLoop (copyRound name
          (cls.cdrDeserialize P mem (.member ("st_" ++ name)))) n 0
          (growArray P name cls n a)).2.this (name ++ "_length") = .value n :=
        (forLoop_keepsMember (copyRound_keepsMember P mem hls (absurd · hstr)) _ 0 _).trans hlength
      exact ⟨hquiet, hreturn, hof', owner₂, hkeeps.trans hkeeps',
        hcopied.fieldStored hkept hfits (hcount.mpr hfits)⟩

/-- A variable array, whose elements are no strings. -/
theorem dynamic_follows (hdown : P.FitsDown) (hel : ElementFollows P mem cls) (hstr : cls ≠ .string)
    (hnames : (fieldNames name .dynamic).Nodup) {a : Activation} {c : Cursor}
    (hc : c.Of mem a.dec) (hfault : a.dec.fault = false)
    (hstored : fieldStored P owner a.dec path name cls
      (fun path o => cls.Stored P owner a.dec path o) .dynamic a.this) :
    ∀ run, run = deserializeField P mem name cls
      (fun place => cls.cdrDeserialize P mem place) .dynamic a →
    Follows mem (fieldReads P.Fits P.uninitialised mem cls
        (fun c done c' => cls.Reads P.Fits P.uninitialised mem c done c') .dynamic c) run
      (∃ owner', Keeps (OfField path name) owner owner' a.dec run.2.dec ∧
        fieldStored P owner' run.2.dec path name cls
          (fun path o => cls.Stored P owner' run.2.dec path o) .dynamic run.2.this) := by
  intro run hrun
  have hcount : ∀ read c₁, c.Reads mem .four read c₁ →
      Follows mem (fun done c' => P.Fits cls (read.getD (P.uninitialised c₁.reads)) ∧
          loopReads (fun c done c' => cls.Reads P.Fits P.uninitialised mem c done c')
            (read.getD (P.uninitialised c₁.reads)) c₁ done c') run
        (∃ owner', Keeps (OfField path name) owner owner' a.dec run.2.dec ∧
          fieldStored P owner' run.2.dec path name cls
            (fun path o => cls.Stored P owner' run.2.dec path o) .dynamic run.2.this) := by
    intro read c₁ hread
    obtain ⟨ub, reads, hcode, hof⟩ := hread.run hc
    have hsame : SameHeap a.dec { a.dec with ub := ub, reads := reads } := ⟨rfl, rfl⟩
    have hkeeps := hsame.keeps (fun _ => False) owner
    have hthis : ∀ m ∈ fieldNames name .dynamic, a.this m = a.this m := fun _ _ => rfl
    have hstored' := fieldStored_keep hthis hkeeps
      (fun _ _ ho => DataClass.Stored.keep ho hkeeps fun _ => id) (fun _ => id) hstored
    rw [deserializeField_dynamic, hcode] at hrun
    dsimp only at hrun
    rw [hof.length] at hrun
    refine (elements_follows hdown hel hstr hnames (read.getD (P.uninitialised c₁.reads))
      (a := ⟨a.this, { a.dec with ub := ub, reads := reads }⟩) hof hfault hstored' run hrun).imp
      fun hrest => ?_
    obtain ⟨owner', hkeeps', hfield⟩ := hrest
    exact ⟨owner', (hkeeps.mono fun _ => False.elim).trans hkeeps', hfield⟩
  constructor
  · intro hquiet
    obtain ⟨read, c₁, hread⟩ := hc.exists_reads .four
    obtain ⟨done, c', hc'⟩ := (hcount read c₁ hread).reads hquiet
    exact ⟨done, c', read, c₁, hread, hc'⟩
  · rintro done c' ⟨read, c₁, hread, hc'⟩
    exact (hcount read c₁ hread).leaves done c' hc'

end Loops

/-! ## The statements for a field -/

/-- The statements for a field follow the reading, and leave the field with room. -/
theorem deserializeField_follows {P : Platform} {mem : List UInt8} {owner : Nat → Path}
    {path : Path} {name : String} {cls : DataClass} {size : ArraySize}
    {reserved : String → Prop} {members : List (String × MemberType)} {rest : MessageDef}
    (hdown : P.FitsDown) (hpart : (MessageDef.cons name cls size rest).PartOf reserved members)
    (hel : cls ≠ .string → ElementFollows P mem cls) {a : Activation} {c : Cursor}
    (hc : c.Of mem a.dec) (hfault : a.dec.fault = false)
    (hstored : fieldStored P owner a.dec path name cls
      (fun path o => cls.Stored P owner a.dec path o) size a.this) :
    ∀ run, run = deserializeField P mem name cls
      (fun place => cls.cdrDeserialize P mem place) size a →
    Follows mem (fieldReads P.Fits P.uninitialised mem cls
        (fun c done c' => cls.Reads P.Fits P.uninitialised mem c done c') size c) run
      (∃ owner', Keeps (OfField path name) owner owner' a.dec run.2.dec ∧
        fieldStored P owner' run.2.dec path name cls
          (fun path o => cls.Stored P owner' run.2.dec path o) size run.2.this) := by
  intro run hrun
  subst hrun
  by_cases hstr : cls = .string
  · subst hstr
    cases size with
    | single =>
      exact (deserializeString_follows (.member name) hc hfault).imp fun hsame =>
        ⟨owner, hsame.keeps _ owner, trivial⟩
    | fixed n =>
      refine (stringLoop_follows P owner (OfField path name) (.element name) n hc hfault _
        rfl).imp fun hloop => ?_
      obtain ⟨owner', hkeeps, -⟩ := hloop
      exact ⟨owner', hkeeps, fun _ _ _ => trivial⟩
    | dynamic => exact absurd rfl hpart.dynamic_ne_string
  · have hel := hel hstr
    cases size with
    | single =>
      refine (hel owner (path ++ [(name, 0)]) (.member name) a c hc hfault hstored _ rfl).imp
        fun helement => ?_
      obtain ⟨owner', hkeeps, -, ho⟩ := helement
      exact ⟨owner', hkeeps.mono fun q hq => ⟨0, hq⟩, ho⟩
    | fixed n => exact fixedLoop_follows hel n hc hfault hstored _ rfl
    | dynamic => exact dynamic_follows hdown hel hstr hpart.wellNamed.field hc hfault hstored _ rfl

/-! ## The statements for a message -/

/-- The blocks of some fields. -/
def OfFields (path : Path) (D : MessageDef) (q : Path) : Prop := ∃ m ∈ D.names, OfField path m q

section Fields

variable {reserved : String → Prop} {members : List (String × MemberType)} {P : Platform}
  {mem : List UInt8} {owner owner' : Nat → Path} {path : Path} {name : String} {cls : DataClass}
  {size : ArraySize} {rest : MessageDef} {a b : Activation}

/-- The other fields as they are after the statements for the first one. -/
theorem MessageDef.PartOf.rest_stored
    (h : (MessageDef.cons name cls size rest).PartOf reserved members)
    (hstored : rest.Stored P owner a.dec path a.this)
    (hkeeps : Keeps (OfField path name) owner owner' a.dec (deserializeField P mem name cls
      (fun place => cls.cdrDeserialize P mem place) size a).2.dec) :
    rest.Stored P owner' (deserializeField P mem name cls
      (fun place => cls.cdrDeserialize P mem place) size a).2.dec path (deserializeField P mem name
        cls (fun place => cls.cdrDeserialize P mem place) size a).2.this := by
  refine hstored.keep (fun m hm => ?_) hkeeps fun m hm i more => ?_
  · have hnames : m ∈ rest.names := List.mem_map_of_mem hm
    exact deserializeField_keepsMember P mem (fun hf => h.wellNamed.disjoint hf hnames)
      (fun hs he => h.unique (mem_members_of_mem_rest hm) (he ▸ h.compiles.1 hs)) a
  · refine not_ofField (fun heq => ?_) i
    subst heq
    exact h.wellNamed.disjoint (name_mem_fieldNames name size) hm

/-- The first field as it is after the statements for the others. -/
theorem MessageDef.PartOf.field_stored
    (h : (MessageDef.cons name cls size rest).PartOf reserved members)
    (hstored : fieldStored P owner a.dec path name cls
      (fun path o => cls.Stored P owner a.dec path o) size a.this)
    (hkeeps : Keeps (OfFields path rest) owner owner' a.dec (rest.cdrDeserialize P mem a).2.dec) :
    fieldStored P owner' (rest.cdrDeserialize P mem a).2.dec path name cls
      (fun path o => cls.Stored P owner' (rest.cdrDeserialize P mem a).2.dec path o) size
      (rest.cdrDeserialize P mem a).2.this := by
  by_cases hs : cls = .string ∧ size = .single
  · obtain ⟨rfl, rfl⟩ := hs
    trivial
  · have hapart : ∀ i more, ¬ OfFields path rest (path ++ (name, i) :: more) := by
      intro i more hothers
      obtain ⟨m, hm, hfield⟩ := hothers
      refine not_ofField (fun heq => ?_) i hfield
      subst heq
      exact h.wellNamed.disjoint (name_mem_fieldNames m size) hm
    refine fieldStored_keep (fun m hm => ?_) hkeeps (fun i o ho => ?_) (fun i => hapart i [])
      hstored
    · have hother : (m, MemberType.other) ∈ (MessageDef.cons name cls size rest).members :=
        mem_members_of_mem_fieldNames (fun h1 h2 => hs ⟨h1, h2⟩) hm
      exact MessageDef.cdrDeserialize_keepsMember P mem h.rest (h.wellNamed.disjoint hm)
        (h.unique hother) a
    · refine DataClass.Stored.keep ho hkeeps fun more => ?_
      rw [List.append_assoc]
      exact hapart i more

theorem OfFields.of_field {q : Path} (h : OfField path name q) :
    OfFields path (.cons name cls size rest) q := by
  refine ⟨name, ?_, h⟩
  rw [MessageDef.names_cons]
  exact List.mem_append_left _ (name_mem_fieldNames name size)

theorem OfFields.of_rest {q : Path} (h : OfFields path rest q) :
    OfFields path (.cons name cls size rest) q := by
  obtain ⟨m, hm, hq⟩ := h
  refine ⟨m, ?_, hq⟩
  rw [MessageDef.names_cons]
  exact List.mem_append_right _ hm

theorem OfFields.prefix {D : MessageDef} {q : Path} (h : OfFields path D q) : path <+: q := by
  obtain ⟨m, -, j, hj⟩ := h
  exact (List.prefix_append path _).trans hj

end Fields

section Runs

variable {reserved : String → Prop} {P : Platform} {mem : List UInt8}

mutual

theorem DataClass.elementFollows (hdown : P.FitsDown) {cls : DataClass}
    (h : cls.Compiles reserved) (hstr : cls ≠ .string) : ElementFollows P mem cls := by
  match cls with
  | .primitive p => exact elementFollows_primitive P mem p
  | .string => exact absurd rfl hstr
  | .message D =>
    intro owner path place a c hc hfault hstored run hrun
    subst hrun
    obtain ⟨hreads, hleaves⟩ := MessageDef.cdrDeserialize_follows hdown
      (MessageDef.Compiles.partOf h) (a := ⟨(place.load a.this).members, a.dec⟩) hc hfault hstored _
      rfl
    constructor
    · intro hrun
      obtain ⟨stopped, c', hc'⟩ := hreads hrun
      exact ⟨true, c', rfl, stopped, hc'⟩
    · rintro done c' ⟨rfl, stopped, hc'⟩
      obtain ⟨hquiet, -, hof, owner', hkeeps, hstored'⟩ := hleaves stopped c' hc'
      refine ⟨hquiet, rfl, hof, owner', hkeeps.mono fun _ => OfFields.prefix,
        place.beside_store a.this _, ?_⟩
      rw [DataClass.cdrDeserialize]
      dsimp only
      rcases place.load_store a.this (.message (D.cdrDeserialize P mem
        ⟨(place.load a.this).members, a.dec⟩).2.this) with hload | hload
      · rw [hload]
        exact hstored'
      · rw [hload]
        exact DataClass.stored_indeterminate _ _

/-- `cdr_deserialize` follows the reading, and leaves the object with room. -/
theorem MessageDef.cdrDeserialize_follows (hdown : P.FitsDown)
    {members : List (String × MemberType)} {D : MessageDef} (h : D.PartOf reserved members)
    {owner : Nat → Path} {path : Path} {a : Activation} {c : Cursor} (hc : c.Of mem a.dec)
    (hfault : a.dec.fault = false) (hstored : D.Stored P owner a.dec path a.this) :
    ∀ run, run = D.cdrDeserialize P mem a →
    Follows mem (D.Reads P.Fits P.uninitialised mem c) run
      (∃ owner', Keeps (OfFields path D) owner owner' a.dec run.2.dec ∧
        D.Stored P owner' run.2.dec path run.2.this) := by
  intro run hrun
  match D with
  | .nil =>
    subst hrun
    exact Follows.skip hc hfault ⟨owner, (SameHeap.refl _).keeps _ owner, trivial⟩
  | .cons name cls size rest =>
    have hfield := deserializeField_follows hdown h
      (DataClass.elementFollows hdown h.compiles.2.1) hc hfault hstored.1 _ rfl
    refine Follows.seq (fun c => rest.Reads P.Fits P.uninitialised mem c)
      (fun run => ∃ owner', Keeps (OfFields path (.cons name cls size rest)) owner owner' a.dec
        run.2.dec ∧ (MessageDef.cons name cls size rest).Stored P owner' run.2.dec path run.2.this)
      hfield (rest.cdrDeserialize_keepsFault P mem _) ?_ ?_ run
      (hrun.trans (MessageDef.cdrDeserialize_cons P mem name cls size rest a))
    · intro c₁ _ hquiet hof hfirst
      obtain ⟨owner₁, hkeeps, hfieldStored⟩ := hfirst
      refine (MessageDef.cdrDeserialize_follows hdown h.rest hof hquiet
        (h.rest_stored hstored.2 hkeeps) _ rfl).imp fun hothers => ?_
      obtain ⟨owner₂, hkeeps', hrest⟩ := hothers
      refine ⟨owner₂, ?_, h.field_stored hfieldStored hkeeps', hrest⟩
      exact (hkeeps.mono fun _ => OfFields.of_field).trans (hkeeps'.mono fun _ => OfFields.of_rest)
    · intro c₁ _ hfirst
      obtain ⟨owner₁, hkeeps, hfieldStored⟩ := hfirst
      exact ⟨owner₁, hkeeps.mono fun _ => OfFields.of_field, hfieldStored,
        h.rest_stored hstored.2 hkeeps⟩

end

end Runs

/-! ## The constructor -/

section Construct

variable {P : Platform} {owner : Nat → Path} {dec : Decoder}

mutual

theorem DataClass.stored_construct {cls : DataClass} (h : cls.AllWellNamed) (path : Path) :
    cls.Stored P owner dec path cls.construct := by
  match cls with
  | .primitive _ => trivial
  | .string => trivial
  | .message D => exact MessageDef.stored_construct h.1 h.2 path

/-- The constructor leaves variable arrays without elements. -/
theorem MessageDef.stored_construct {D : MessageDef} (hnamed : D.WellNamed)
    (hfields : D.FieldsWellNamed) (path : Path) : D.Stored P owner dec path D.construct := by
  match D with
  | .nil => trivial
  | .cons name cls size rest =>
    have hcls := fun path => DataClass.stored_construct hfields.1 path
    refine ⟨?_, (MessageDef.stored_construct hnamed.rest hfields.2 path).keep (fun m hm => ?_)
      ((SameHeap.refl dec).keeps (fun _ => False) owner) fun _ _ _ _ => id⟩
    · cases size with
      | single =>
        cases cls with
        | primitive p => trivial
        | string => trivial
        | message D =>
          simp only [fieldStored, MessageDef.construct, Function.update_self]
          exact hcls _
      | fixed n =>
        simp only [fieldStored, MessageDef.construct, Function.update_self, Obj.elems]
        intro i o ho
        rw [List.eq_of_mem_replicate (List.mem_of_getElem? ho)]
        exact hcls _
      | dynamic =>
        have hn := hnamed.field
        obtain ⟨hls, hln, hsn⟩ := fieldNames_dynamic_nodup hn
        simp only [fieldStored, MessageDef.construct, Function.update_self,
          Function.update_of_ne hsn, Function.update_of_ne hln, Function.update_of_ne hls,
          Obj.asPointer, Obj.asValue]
        exact ⟨⟨nofun, Nat.zero_le _, fun h => absurd h (Nat.lt_irrefl 0)⟩, hcls _⟩
    · exact construct_cons_of_notMem fun hf =>
        hnamed.disjoint hf (List.mem_map_of_mem hm)

end

end Construct

end Ros2Serial.Generator
