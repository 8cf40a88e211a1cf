import Ros2Serial.Generator.Message
import Mathlib.Logic.Function.Basic

/-!
# The generated `cdr_deserialize`

The C++ that `Message._write_deserializer` writes, run on objects with named
members and a heap.

* `Obj` is what a C++ object holds.  Pointers are explicit: a `const char*`
  points into the input buffer, and the pointer of a variable array names a
  block of the heap.
* `Decoder` is everything outside the object: the buffer, the heap, and two
  records that the program does not keep.  `reads` lists what was read, in
  order, and `fault` tells that memory outside the input or outside a block
  was touched; nothing is said about a run after that.
* A statement of the generated code writes to a `Place`, a member of `this` or
  an element of a member that is an array.  A string is the exception: the
  generator drops the brackets of the place (`mangle`), so the assignment goes
  to the member of that name.
* `MessageDef.construct` is the constructor, and `MessageDef.readBack` reads
  the value that an object holds.

`MessageDef.Compiles` says when a C++ compiler accepts the generated class.
-/

namespace Ros2Serial.Generator

open Bytes PlainCdr Ucdr

/-! ## Objects -/

/-- What a `const char*` points at: nothing, the literal `""` of the
constructor, or the input buffer. -/
inductive CharPtr
  | null
  | literal
  | input (index : Nat)
  deriving DecidableEq, Repr

/-- The content of a C++ object. -/
inductive Obj
  | indeterminate
  | value (n : Nat)
  | chars (p : CharPtr)
  | array (elems : List Obj)
  | pointer (block : Option Nat)
  | message (members : String → Obj)

/-- The members of a class by name. -/
abbrev Members : Type := String → Obj

def Obj.asValue : Obj → Nat
  | .value n => n
  | _ => 0

def Obj.asPointer : Obj → Option Nat
  | .pointer block => block
  | _ => none

def Obj.elems : Obj → List Obj
  | .array elems => elems
  | _ => []

def Obj.members : Obj → Members
  | .message members => members
  | _ => fun _ => .indeterminate

def Obj.asMessage : Obj → Option Members
  | .message members => some members
  | _ => none

theorem Obj.members_of_asMessage {o : Obj} {members : Members} (h : o.asMessage = some members) :
    o.members = members := by
  cases o with
  | message ms => exact Option.some.inj h
  | _ => exact absurd h (by simp [Obj.asMessage])

/-- `this->name` or `this->name[i]`. -/
inductive Place
  | member (name : String)
  | element (name : String) (i : Nat)
  deriving DecidableEq, Repr

/-- The text that the generator has for the place. -/
def Place.text : Place → String
  | .member name => name
  | .element name _ => name ++ "[i]"

def Place.load : Place → Members → Obj
  | .member name, this => this name
  | .element name i, this => (this name).elems.getD i .indeterminate

def Place.store : Place → Members → Obj → Members
  | .member name, this, o => Function.update this name o
  | .element name i, this, o => Function.update this name (.array ((this name).elems.set i o))

/-- What an assignment to an element leaves of the array. -/
@[simp] theorem Place.elems_store_element (name : String) (i : Nat) (this : Members) (o : Obj) :
    ((Place.element name i).store this o name).elems = (this name).elems.set i o := by
  simp [Place.store, Obj.elems]

/-- `name.replace("[","").replace("]","")` in `StringDataType.deserialize`. -/
def mangle (name : String) : String :=
  String.ofList (name.toList.filter fun c => c ≠ '[' && c ≠ ']')

/-! ## The state of a run -/

/-- What the generated code takes from its surroundings.  `uninitialised k` is
the content of a local `x_lengthT` that is declared after `k` reads, and
`blockLength cls n` is the number of elements that the block has which
`realloc` returns for a request of `n` elements. -/
structure Platform where
  uninitialised : Nat → Nat
  blockLength : DataClass → Nat → Nat

/-- `realloc` returns at least what was asked for. -/
def Platform.Allocates (P : Platform) : Prop := ∀ cls n, n ≤ P.blockLength cls n

/-- A platform whose `realloc` returns blocks of just the requested length. -/
def exactPlatform : Platform where
  uninitialised _ := 0
  blockLength _ n := n

theorem exactPlatform_allocates : exactPlatform.Allocates := fun _ _ => Nat.le_refl _

structure Decoder where
  ub : Buffer
  heap : Nat → Option (List Obj)
  next : Nat
  fault : Bool
  reads : List Item

/-- A decoder that has read nothing and allocated nothing. -/
def Decoder.start (ub : Buffer) : Decoder where
  ub := ub
  heap := fun _ => none
  next := 0
  fault := false
  reads := []

/-- A running member function: the object it runs on, and the rest. -/
structure Activation where
  this : Members
  dec : Decoder

/-- Reads a primitive.  `none` when the read fails. -/
def Decoder.read (mem : List UInt8) (w : Width) (dec : Decoder) : Decoder × Option Nat :=
  match deserialize mem w dec.ub with
  | (ub, some n) => ({ dec with ub := ub, reads := dec.reads ++ [.prim w n] }, some n)
  | (ub, none) => ({ dec with ub := ub }, none)

/-- `realloc(p, n * sizeof(T))`.  The old block is gone, and the new one begins
with its elements. -/
def Decoder.realloc (P : Platform) (cls : DataClass) (p : Option Nat) (n : Nat)
    (dec : Decoder) : Decoder × Nat :=
  let kept := (p.bind dec.heap).getD []
  let size := P.blockLength cls n
  let cells := kept.take size ++ List.replicate (size - kept.length) .indeterminate
  let freed := match p with
    | some block => Function.update dec.heap block none
    | none => dec.heap
  ({ dec with heap := Function.update freed dec.next (some cells), next := dec.next + 1 },
    dec.next)

/-- `memcpy(&(this->x[i]), &(this->st_x), sizeof(T))`. -/
def Decoder.memcpy (p : Option Nat) (i : Nat) (o : Obj) (dec : Decoder) : Decoder :=
  match p with
  | some block =>
    match dec.heap block with
    | some cells =>
      if i < cells.length then
        { dec with heap := Function.update dec.heap block (some (cells.set i o)) }
      else { dec with fault := true }
    | none => { dec with fault := true }
  | none => { dec with fault := true }

/-! ## The generated statements -/

/-- `StringDataType.deserialize`. -/
def deserializeString (mem : List UInt8) (place : Place) (a : Activation) : Bool × Activation :=
  let cn := mangle place.text
  match a.dec.read mem .four with
  | (dec, none) => (false, { a with dec := dec })
  | (dec, some length) =>
    let start := dec.ub.iterator
    let this := Function.update a.this cn (.chars (.input start))
    -- `cn_str_len - 1` is a `uint32_t`
    let last := start + (length + (2 ^ 32 - 1)) % 2 ^ 32
    let dec := { dec with fault := dec.fault || decide (mem.length ≤ last) }
    if mem.getD last 0 ≠ 0 then (false, ⟨this, dec⟩)
    else
      (true, ⟨this, { dec with
        ub := advanceBuffer dec.ub length
        reads := dec.reads ++ [.octets (slice mem start length)] }⟩)

/-- `for (uint32_t i = 0; i < count; i++)` around statements that may return. -/
def forLoop (body : Nat → Activation → Bool × Activation) :
    (count i : Nat) → Activation → Bool × Activation
  | 0, _, a => (true, a)
  | count + 1, i, a =>
    match body i a with
    | (true, a) => forLoop body count (i + 1) a
    | (false, a) => (false, a)

/-- `ArrayDataType.deserialize`, with the statements for one element, and with
the statements alone for a field that is no array. -/
def deserializeField (P : Platform) (mem : List UInt8) (name : String) (cls : DataClass)
    (element : Place → Activation → Bool × Activation) :
    ArraySize → Activation → Bool × Activation
  | .single, a => element (.member name) a
  | .fixed n, a => forLoop (fun i => element (.element name i)) n 0 a
  | .dynamic, a =>
    let (dec, read) := a.dec.read mem .four
    let lengthT := read.getD (P.uninitialised dec.reads.length)
    let (this, dec) :=
      if (a.this (name ++ "_length")).asValue < lengthT then
        let (dec, block) := dec.realloc P cls (a.this name).asPointer lengthT
        (Function.update a.this name (.pointer (some block)), dec)
      else (a.this, dec)
    let this := Function.update this (name ++ "_length") (.value lengthT)
    forLoop
      (fun i a =>
        match element (.member ("st_" ++ name)) a with
        | (true, a) =>
          (true, { a with
            dec := a.dec.memcpy (a.this name).asPointer i (a.this ("st_" ++ name)) })
        | (false, a) => (false, a))
      lengthT 0 ⟨this, dec⟩

mutual

/-- The statements that `deserialize` of the three element classes writes for a
place.  What a nested `cdr_deserialize` returns is ignored. -/
def DataClass.cdrDeserialize (P : Platform) (mem : List UInt8) :
    DataClass → Place → Activation → Bool × Activation
  | .primitive p, place, a =>
    match a.dec.read mem p.width with
    | (dec, some n) => (true, ⟨place.store a.this (.value (p.cast n)), dec⟩)
    | (dec, none) => (true, { a with dec := dec })
  | .string, place, a => deserializeString mem place a
  | .message D, place, a =>
    let (_, sub) := D.cdrDeserialize P mem ⟨(place.load a.this).members, a.dec⟩
    (true, ⟨place.store a.this (.message sub.this), sub.dec⟩)

/-- `cdr_deserialize`, field by field. -/
def MessageDef.cdrDeserialize (P : Platform) (mem : List UInt8) :
    MessageDef → Activation → Bool × Activation
  | .nil, a => (true, a)
  | .cons name cls size rest, a =>
    match deserializeField P mem name cls (fun place => cls.cdrDeserialize P mem place) size a with
    | (true, a) => rest.cdrDeserialize P mem a
    | (false, a) => (false, a)

end

/-! ## The constructor -/

mutual

/-- A value-initialised element, as in `x()` and `st_x()`. -/
def DataClass.construct : DataClass → Obj
  | .primitive _ => .value 0
  | .string => .chars .null
  | .message D => .message D.construct

/-- The constructor, with the initialisers of `make_initializer`. -/
def MessageDef.construct : MessageDef → Members
  | .nil => fun _ => .indeterminate
  | .cons name cls size rest =>
    match size, cls with
    | .single, .string => Function.update rest.construct name (.chars .literal)
    | .single, _ => Function.update rest.construct name cls.construct
    | .fixed n, _ => Function.update rest.construct name (.array (List.replicate n cls.construct))
    | .dynamic, _ =>
      Function.update
        (Function.update
          (Function.update rest.construct (name ++ "_length") (.value 0))
          ("st_" ++ name) cls.construct)
        name (.pointer none)

end

/-! ## Reading an object -/

/-- The string that a pointer leads to: the bytes up to the first zero. -/
def readString (mem : List UInt8) : CharPtr → Option CString
  | .null => none
  | .literal => some ⟨[], by simp, by simp⟩
  | .input index =>
    let s := (mem.drop index).takeWhile fun b => b ≠ 0
    if h : (0 ∉ s ∧ s.length + 1 < 2 ^ 32) ∧ index + s.length < mem.length then some ⟨s, h.1⟩
    else none

def readChars (mem : List UInt8) : Obj → Option CString
  | .chars p => readString mem p
  | _ => none

def readValue (p : Primitive) : Obj → Option (Fin p.card)
  | .value n => if h : n < p.card then some ⟨n, h⟩ else none
  | _ => none

/-- The elements of a field. -/
def fieldElems (heap : Nat → Option (List Obj)) (name : String) :
    ArraySize → Members → Option (List Obj)
  | .single, this => some [this name]
  | .fixed _, this => some (this name).elems
  | .dynamic, this =>
    let length := (this (name ++ "_length")).asValue
    if length = 0 then some []
    else
      match (this name).asPointer.bind heap with
      | some cells => if length ≤ cells.length then some (cells.take length) else none
      | none => none

mutual

/-- The value that an element holds. -/
def DataClass.readBack (mem : List UInt8) (heap : Nat → Option (List Obj)) :
    (cls : DataClass) → Obj → Option cls.Val
  | .primitive p, o => readValue p o
  | .string, o => readChars mem o
  | .message D, o => o.asMessage.bind fun members => D.readBack mem heap members

/-- The value that an object holds. -/
def MessageDef.readBack (mem : List UInt8) (heap : Nat → Option (List Obj)) :
    (D : MessageDef) → Members → Option D.Val
  | .nil, _ => some ()
  | .cons name cls size rest, this =>
    match (fieldElems heap name size this).bind (List.mapM fun o => cls.readBack mem heap o),
      rest.readBack mem heap this with
    | some elems, some more =>
      if h : size.Admits elems.length then some (⟨elems, h⟩, more) else none
    | _, _ => none

end

/-! ## The generated class -/

/-- The types of the declared members, as far as an assignment of a
`const char*` distinguishes them. -/
inductive MemberType
  | constCharPtr
  | other
  deriving DecidableEq, Repr

/-- The members that `make_declaration` declares for a field. -/
def fieldMembers (name : String) (cls : DataClass) : ArraySize → List (String × MemberType)
  | .single =>
    match cls with
    | .string => [(name, .constCharPtr)]
    | _ => [(name, .other)]
  | .fixed _ => [(name, .other)]
  | .dynamic => [(name ++ "_length", .other), ("st_" ++ name, .other), (name, .other)]

/-- The declared members of the class. -/
def MessageDef.members : MessageDef → List (String × MemberType)
  | .nil => []
  | .cons name cls size rest => fieldMembers name cls size ++ rest.members

/-- The member that the statements for a string assign to. -/
def stringTarget (name : String) : ArraySize → String
  | .single => mangle name
  | .fixed _ => mangle (name ++ "[i]")
  | .dynamic => mangle ("st_" ++ name)

/-- Letters, digits and underscores, without a digit in front. -/
def isIdentifier (name : String) : Bool :=
  name.toList.all (fun c => c.isAlphanum || c == '_') &&
    name.toList.head?.any (fun c => !c.isDigit)

mutual

/-- The C++ compiler accepts the classes below an element. -/
def DataClass.Compiles (reserved : String → Prop) : DataClass → Prop
  | .primitive _ => True
  | .string => True
  | .message D =>
    (D.members.map Prod.fst).Nodup ∧
      (∀ m ∈ D.members, isIdentifier m.1 = true ∧ ¬ reserved m.1) ∧
      D.FieldsCompile reserved D.members

/-- The C++ compiler accepts the statements for the fields, given the declared
members: a string assigns a `const char*` to a member of that type. -/
def MessageDef.FieldsCompile (reserved : String → Prop) (members : List (String × MemberType)) :
    MessageDef → Prop
  | .nil => True
  | .cons name cls size rest =>
    (cls = .string → (stringTarget name size, MemberType.constCharPtr) ∈ members) ∧
      cls.Compiles reserved ∧ rest.FieldsCompile reserved members

end

/-- The C++ compiler accepts the generated class.  `reserved` holds the names
that cannot be declared there, such as keywords, macros of the platform and
the names of the member functions. -/
def MessageDef.Compiles (reserved : String → Prop) (D : MessageDef) : Prop :=
  (DataClass.message D).Compiles reserved

end Ros2Serial.Generator
