import Ros2Serial.Ucdr.Layout

/-!
# Message definitions and their generated serializers

The classes of `make_libraries.py` that describe the fields of a message, and
the `cdr_serialize` that `Message._write_serializer` writes for them.

A definition is a syntax tree.  `DataClass` is the class that the generator
looks up for the type of a field, `ArraySize` is what `ArrayDataType` keeps of
the brackets, and `MessageDef` is `Message.data`.  A nested message is its own
definition, so the tree has any depth.

`MessageDef.Val` is the type of the values of a definition.  The values carry
what C++ and the program promise of them: a primitive fits its type, a string
has no zero byte inside and a length that fits `uint32_t`, and an array has as
many elements as its definition says.

`MessageDef.items` flattens a value to the items of a PLAIN_CDR layout.
`cdrSerialize_eq_writeItems` says that the generated code writes these items
one after another, so that the lemmas about layouts apply to it.
-/

namespace Ros2Serial.Generator

open PlainCdr Ucdr

/-- The keys of `ROS_TO_EMBEDDED_TYPES` that map to `PrimitiveDataType`. -/
inductive Primitive
  | bool
  | byte
  | int8
  | char
  | uint8
  | int16
  | uint16
  | int32
  | uint32
  | int64
  | uint64
  | float32
  | float64
  deriving DecidableEq, Repr

/-- The width of the embedded type, the second entry of the table. -/
def Primitive.width : Primitive → Width
  | .bool | .byte | .int8 | .char | .uint8 => .one
  | .int16 | .uint16 => .two
  | .int32 | .uint32 | .float32 => .four
  | .int64 | .uint64 | .float64 => .eight

/-- The number of values of the embedded type.  Signed integers and floating
point numbers are taken as their object representation. -/
def Primitive.card : Primitive → Nat
  | .bool => 2
  | p => 256 ^ p.width.bytes

/-- `uint8_t` has literals. -/
instance octet_neZero : NeZero 256 := ⟨by decide⟩

theorem Primitive.card_le (p : Primitive) : p.card ≤ 256 ^ p.width.bytes := by
  cases p <;> decide

theorem Primitive.card_pos (p : Primitive) : 0 < p.card := by
  cases p <;> decide

/-- `(TYPE)` in front of the bytes that were read: any byte but 0 is `true`. -/
def Primitive.cast : Primitive → Nat → Nat
  | .bool, n => if n = 0 then 0 else 1
  | _, n => n

/-- A value of the type is not changed. -/
theorem Primitive.cast_val (p : Primitive) (v : Fin p.card) : p.cast v = v := by
  cases p with
  | bool => exact (by decide : ∀ v : Fin 2, Primitive.bool.cast v = v) v
  | _ => rfl

/-- How many elements a field has.  `single` is a field without brackets,
`fixed` is `ArrayDataType` with `size`, and `dynamic` is `ArrayDataType`
whose `size` is `None`. -/
inductive ArraySize
  | single
  | fixed (n : Nat)
  | dynamic
  deriving DecidableEq, Repr

/-- The lengths that the size allows.  `x_length` is a `uint32_t`. -/
def ArraySize.Admits : ArraySize → Nat → Prop
  | .single, k => k = 1
  | .fixed n, k => k = n
  | .dynamic, k => k < 2 ^ 32

instance : (size : ArraySize) → (k : Nat) → Decidable (size.Admits k)
  | .single, k => inferInstanceAs (Decidable (k = 1))
  | .fixed n, k => inferInstanceAs (Decidable (k = n))
  | .dynamic, k => inferInstanceAs (Decidable (k < 2 ^ 32))

mutual

/-- `PrimitiveDataType`, `StringDataType` and `MessageDataType`. -/
inductive DataClass
  | primitive (p : Primitive)
  | string
  | message (definition : MessageDef)

/-- `Message.data`: the name, the class and the size of each field. -/
inductive MessageDef
  | nil
  | cons (name : String) (cls : DataClass) (size : ArraySize) (rest : MessageDef)

end

/-- What a `const char*` field points at, without the terminator. -/
abbrev CString : Type := {s : List UInt8 // 0 ∉ s ∧ s.length + 1 < 2 ^ 32}

mutual

/-- The values of one element. -/
def DataClass.Val : DataClass → Type
  | .primitive p => Fin p.card
  | .string => CString
  | .message D => D.Val

/-- The values of a message.  Each field is the list of its elements. -/
def MessageDef.Val : MessageDef → Type
  | .nil => Unit
  | .cons _ cls size rest => {elems : List cls.Val // size.Admits elems.length} × rest.Val

end

mutual

def DataClass.decEqVal : (cls : DataClass) → DecidableEq cls.Val
  | .primitive p => inferInstanceAs (DecidableEq (Fin p.card))
  | .string => inferInstanceAs (DecidableEq CString)
  | .message D => D.decEqVal

def MessageDef.decEqVal : (D : MessageDef) → DecidableEq D.Val
  | .nil => inferInstanceAs (DecidableEq Unit)
  | .cons _ cls size rest =>
    have := cls.decEqVal
    have := rest.decEqVal
    inferInstanceAs (DecidableEq ({elems : List cls.Val // size.Admits elems.length} × rest.Val))

end

instance (cls : DataClass) : DecidableEq cls.Val := cls.decEqVal
instance (D : MessageDef) : DecidableEq D.Val := D.decEqVal

/-! ## The generated `cdr_serialize` -/

/-- The statement that `ArrayDataType.serialize` writes in front of the loop
of a variable array. -/
def ArraySize.serializeLength : ArraySize → Nat → Cdr → Cdr
  | .dynamic, length, cdr => serialize .four length cdr
  | _, _, cdr => cdr

mutual

/-- The statements that `serialize` of the three element classes writes. -/
def DataClass.cdrSerialize : (cls : DataClass) → cls.Val → Cdr → Cdr
  | .primitive p, (v : Fin p.card), cdr => serialize p.width v cdr
  | .string, (s : CString), cdr => serializeString s.val cdr
  | .message D, v, cdr => D.cdrSerialize v cdr

/-- `cdr_serialize`, field by field.  It returns `true` always. -/
def MessageDef.cdrSerialize : (D : MessageDef) → D.Val → Cdr → Cdr
  | .nil, _, cdr => cdr
  | .cons _ cls size rest, (field, more), cdr =>
    let cdr := size.serializeLength field.val.length cdr
    let cdr := field.val.foldl (fun cdr v => cls.cdrSerialize v cdr) cdr
    rest.cdrSerialize more cdr

end

/-! ## Values as layouts -/

/-- The items in front of the elements of an array. -/
def ArraySize.lengthItems : ArraySize → Nat → List Item
  | .dynamic, length => [.prim .four length]
  | _, _ => []

/-- The items of a string: its length with the terminator, then its bytes with
the terminator. -/
def stringItems (s : List UInt8) : List Item := [.prim .four (s.length + 1), .octets (s ++ [0])]

mutual

/-- The items of one element. -/
def DataClass.items : (cls : DataClass) → cls.Val → List Item
  | .primitive p, (v : Fin p.card) => [.prim p.width v]
  | .string, (s : CString) => stringItems s.val
  | .message D, v => D.items v

/-- The items of a message, in the order of its fields. -/
def MessageDef.items : (D : MessageDef) → D.Val → List Item
  | .nil, _ => []
  | .cons _ cls size rest, (field, more) =>
    size.lengthItems field.val.length ++ field.val.flatMap cls.items ++ rest.items more

end

theorem serializeLength_eq_writeItems (size : ArraySize) (length : Nat) (cdr : Cdr) :
    size.serializeLength length cdr = writeItems (size.lengthItems length) cdr := by
  cases size <;> rfl

/-- A loop whose body writes the items of one element writes the items of all. -/
theorem foldl_eq_writeItems {α : Type} {f : α → Cdr → Cdr} {items : α → List Item}
    (h : ∀ v cdr, f v cdr = writeItems (items v) cdr) (vs : List α) (cdr : Cdr) :
    vs.foldl (fun cdr v => f v cdr) cdr = writeItems (vs.flatMap items) cdr := by
  induction vs generalizing cdr with
  | nil => rfl
  | cons v rest ih =>
    rw [List.foldl_cons, ih, h, List.flatMap_cons, writeItems_append]

mutual

/-- The code for an element writes the items of the element. -/
theorem DataClass.cdrSerialize_eq_writeItems (cls : DataClass) (v : cls.Val) (cdr : Cdr) :
    cls.cdrSerialize v cdr = writeItems (cls.items v) cdr := by
  match cls, v with
  | .primitive p, v => rfl
  | .string, s => rfl
  | .message D, v => exact D.cdrSerialize_eq_writeItems v cdr

/-- `cdr_serialize` writes the items of the message. -/
theorem MessageDef.cdrSerialize_eq_writeItems (D : MessageDef) (v : D.Val) (cdr : Cdr) :
    D.cdrSerialize v cdr = writeItems (D.items v) cdr := by
  match D, v with
  | .nil, _ => rfl
  | .cons _ cls size rest, (field, more) =>
    have helem := fun v cdr => DataClass.cdrSerialize_eq_writeItems cls v cdr
    rw [MessageDef.cdrSerialize, MessageDef.items, serializeLength_eq_writeItems,
      foldl_eq_writeItems helem, MessageDef.cdrSerialize_eq_writeItems rest more,
      writeItems_append, writeItems_append]

end

end Ros2Serial.Generator
