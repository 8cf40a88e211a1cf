import Ros2Serial.Generator.Message
import Ros2Serial.Generator.Parser

/-!
# The grammar of message definitions

A line of a definition is blank, a comment, a constant or a field.  `Line` is
the syntax tree of a line with its spacing and its comment, and `Line.text` is
how it is written.  The parts carry their lexical rules, so that every tree is
a line that can occur.

`Line.dataType?` and `Line.enumeration?` say what a line stands for.  They do
not look at the text, only at the tree.
-/

namespace Ros2Serial.Generator

open PyText

/-! ## Lexical rules -/

/-- Blanks and tabs. -/
abbrev Spacing : Type := {text : Text // text.all isBlank = true}

/-- At least one blank or tab. -/
abbrev Gap : Type := {text : Text // text ≠ [] ∧ text.all isBlank = true}

/-- The characters of names. -/
def isWordChar (c : Char) : Bool :=
  c.isAlphanum || c == '_'

/-- The name of a field, of a constant or of a package. -/
abbrev Word : Type := {text : Text // text ≠ [] ∧ text.all isWordChar = true}

/-- The name of a message type.  It starts with a capital letter. -/
abbrev TypeName : Type := {name : Word // name.1.head?.any Char.isUpper = true}

/-- The numbers in bounds and array sizes. -/
abbrev Numeral : Type := {text : Text // text ≠ [] ∧ text.all Char.isDigit = true}

theorem Spacing.blank (spacing : Spacing) : ∀ c ∈ spacing.1, isBlank c = true :=
  List.all_eq_true.mp spacing.2

theorem Gap.blank (gap : Gap) : ∀ c ∈ gap.1, isBlank c = true :=
  List.all_eq_true.mp gap.2.2

theorem Word.wordChars (word : Word) : ∀ c ∈ word.1, isWordChar c = true :=
  List.all_eq_true.mp word.2.2

theorem Numeral.digits (n : Numeral) : ∀ c ∈ n.1, c.isDigit = true :=
  List.all_eq_true.mp n.2.2

/-- Double and single quotes. -/
def isQuote (c : Char) : Bool :=
  c.toNat == 34 || c.toNat == 39

/-- Every `#` stands between quotes, and every quote is closed.  A backslash
between quotes takes the next character with it.  The first argument is the
quote that is open. -/
def quoted : Option Char → Text → Bool
  | none, [] => true
  | some _, [] => false
  | none, c :: text => c != '#' && quoted (if isQuote c then some c else none) text
  | some q, '\\' :: _ :: text => quoted (some q) text
  | some q, c :: text => quoted (if c = q then none else some q) text

/-- A default or the value of a constant.  It may contain spaces, `=` and
quoted `#`. -/
structure Literal where
  text : Text
  trimmed : Trimmed text
  hashes : '#' ∉ text ∨ quoted none text = true

/-! ## Types -/

/-- A type without its brackets: a primitive, `string`, `string<=n`, `Type` or
`pkg/Type`. -/
inductive BaseType
  | primitive (p : Primitive)
  | string (bound : Option Numeral)
  | message (package : Option Word) (name : TypeName)

/-- Nothing, `[]`, `[n]` or `[<=n]`. -/
inductive Brackets
  | absent
  | unbounded
  | fixed (n : Numeral)
  | bounded (n : Numeral)

/-- The type of a field or of a constant. -/
structure FieldType where
  base : BaseType
  brackets : Brackets

/-- The name of a primitive type in a definition. -/
def Primitive.key : Primitive → Text
  | .bool => "bool".toList
  | .byte => "byte".toList
  | .int8 => "int8".toList
  | .char => "char".toList
  | .uint8 => "uint8".toList
  | .int16 => "int16".toList
  | .uint16 => "uint16".toList
  | .int32 => "int32".toList
  | .uint32 => "uint32".toList
  | .int64 => "int64".toList
  | .uint64 => "uint64".toList
  | .float32 => "float32".toList
  | .float64 => "float64".toList

def BaseType.text : BaseType → Text
  | .primitive p => p.key
  | .string none => "string".toList
  | .string (some n) => "string<=".toList ++ n.1
  | .message none name => name.1.1
  | .message (some package) name => package.1 ++ '/' :: name.1.1

def Brackets.text : Brackets → Text
  | .absent => []
  | .unbounded => "[]".toList
  | .fixed n => '[' :: n.1 ++ "]".toList
  | .bounded n => "[<=".toList ++ n.1 ++ "]".toList

def FieldType.text (type : FieldType) : Text :=
  type.base.text ++ type.brackets.text

/-! ## Lines -/

/-- `T name`, and the spacing before it. -/
structure Declaration where
  lead : Spacing
  type : FieldType
  gap : Gap
  name : Word

/-- `T name` without the spacing before it. -/
def Declaration.head (d : Declaration) : Text :=
  d.type.text ++ (d.gap.1 ++ d.name.1)

/-- The default of a field.  With `=` in front it would be a constant. -/
structure Default where
  gap : Gap
  value : Literal
  not_equals : value.text.head? ≠ some '='

def Default.text (default : Default) : Text :=
  default.gap.1 ++ default.value.text

/-- The end of a line: spacing and perhaps a comment. -/
structure Tail where
  spacing : Spacing
  comment : Option Text

def Tail.text (tail : Tail) : Text :=
  tail.spacing.1 ++ match tail.comment with
    | none => []
    | some comment => '#' :: comment

/-- A line of a definition. -/
inductive Line
  | blank (spacing : Spacing)
  | comment (lead : Spacing) (text : Text)
  | constant (d : Declaration) (before after : Spacing) (value : Literal) (tail : Tail)
  | field (d : Declaration) (default : Option Default) (tail : Tail)

/-- How a line is written. -/
def Line.text : Line → Text
  | .blank spacing => spacing.1
  | .comment lead text => lead.1 ++ '#' :: text
  | .constant d before after value tail =>
    d.lead.1 ++ (d.head ++ (before.1 ++ '=' :: (after.1 ++ (value.text ++ tail.text))))
  | .field d none tail => d.lead.1 ++ (d.head ++ tail.text)
  | .field d (some default) tail => d.lead.1 ++ (d.head ++ (default.text ++ tail.text))

/-! ## What a line stands for -/

/-- The C++ type of a primitive type. -/
def Primitive.codeType : Primitive → Text
  | .bool => "bool".toList
  | .byte | .int8 => "int8_t".toList
  | .char | .uint8 => "uint8_t".toList
  | .int16 => "int16_t".toList
  | .uint16 => "uint16_t".toList
  | .int32 => "int32_t".toList
  | .uint32 => "uint32_t".toList
  | .int64 => "int64_t".toList
  | .uint64 => "uint64_t".toList
  | .float32 => "float".toList
  | .float64 => "double".toList

/-- The class of the elements. -/
def BaseType.cls : BaseType → TypeClass
  | .primitive _ => .primitiveDataType
  | .string _ => .stringDataType
  | .message _ _ => .messageDataType

/-- The C++ type of the elements of a field in a message of `package`. -/
def BaseType.codeType (package : Text) : BaseType → Text
  | .primitive p => p.codeType
  | .string _ => "char*".toList
  | .message none name => package ++ "::msg::".toList ++ name.1.1
  | .message (some other) name => other.1 ++ "::msg::".toList ++ name.1.1

/-- The size of an element where the table has one. -/
def BaseType.size : BaseType → Nat
  | .primitive p => p.width.bytes
  | _ => 0

/-- The entry of `data` for a field of this type. -/
def FieldType.dataType (package : Text) (type : FieldType) (name : Text) : DataType :=
  let element := type.base.codeType package
  match type.brackets with
  | .absent => .element type.base.cls name element type.base.size
  | .fixed n =>
    .arrayDataType name element type.base.size type.base.cls (some (decimal n.1))
  | .unbounded | .bounded _ => .arrayDataType name element type.base.size type.base.cls none

/-- The entry of `data` that a line stands for. -/
def Line.dataType? (package : Text) : Line → Option DataType
  | .field d _ _ => some (d.type.dataType package d.name.1)
  | _ => none

/-- The entry of `enums` that a line stands for. -/
def Line.enumeration? : Line → Option EnumerationType
  | .constant d _ _ value _ => some ⟨d.name.1, d.type.text, value.text⟩
  | _ => none

/-! ## The lines that the parser reads -/

/-- No `<=` in the type. -/
def FieldType.Unbounded (type : FieldType) : Prop :=
  (∀ n, type.base ≠ .string (some n)) ∧ ∀ n, type.brackets ≠ .bounded n

/-- A comment has spacing in front of it. -/
def Tail.Separated (tail : Tail) : Prop :=
  tail.comment ≠ none → tail.spacing.1 ≠ []

/-- The text up to the character in front of its first `#`, without that
character, or the whole text when it has no `#`. -/
def beforeComment (text : Text) : Text :=
  if '#' ∈ text then (text.takeWhile (· ≠ '#')).dropLast else text

/-- The lines that come through the parser. -/
def Line.Plain : Line → Prop
  | .blank _ => True
  | .comment _ _ => True
  | .constant d _ _ value tail => d.type.Unbounded ∧ '#' ∉ value.text ∧ tail.Separated
  | .field d none tail => d.type.Unbounded ∧ tail.Separated
  | .field d (some default) tail =>
    d.type.Unbounded ∧ '=' ∉ beforeComment (default.text ++ tail.text)

end Ros2Serial.Generator
