import Ros2Serial.Lib.PyText
import Mathlib.Tactic.Common

/-!
# The parser of message definitions

`Message.__init__` of `make_libraries.py`: the table `ROS_TO_EMBEDDED_TYPES`
and the loop over the lines of a definition.

`scanLine` is the part of the loop body up to its last `continue`.  It removes
the comment, cuts the line at `=`, and gives the two words of the line.
`Message.addField` is the rest: it takes the type apart, looks it up, and
appends to `data`.

`convert_camel_case_to_lower_case_underscore` is imported from another package.
It is the parameter `underscore`, and only `includes` depends on it.
-/

namespace Ros2Serial.Generator

open PyText

/-! ## The table of types -/

/-- The class that a type is generated with. -/
inductive TypeClass
  | primitiveDataType
  | stringDataType
  | messageDataType
  deriving DecidableEq, Repr

/-- A row of `ROS_TO_EMBEDDED_TYPES`. -/
structure EmbeddedType where
  codeType : Text
  size : Nat
  cls : TypeClass
  includes : List Text

/-- `ROS_TO_EMBEDDED_TYPES`. -/
def rosToEmbeddedTypes : List (Text × EmbeddedType) :=
  [("bool".toList, ⟨"bool".toList, 1, .primitiveDataType, []⟩),
   ("byte".toList, ⟨"int8_t".toList, 1, .primitiveDataType, []⟩),
   ("int8".toList, ⟨"int8_t".toList, 1, .primitiveDataType, []⟩),
   ("char".toList, ⟨"uint8_t".toList, 1, .primitiveDataType, []⟩),
   ("uint8".toList, ⟨"uint8_t".toList, 1, .primitiveDataType, []⟩),
   ("int16".toList, ⟨"int16_t".toList, 2, .primitiveDataType, []⟩),
   ("uint16".toList, ⟨"uint16_t".toList, 2, .primitiveDataType, []⟩),
   ("int32".toList, ⟨"int32_t".toList, 4, .primitiveDataType, []⟩),
   ("uint32".toList, ⟨"uint32_t".toList, 4, .primitiveDataType, []⟩),
   ("int64".toList, ⟨"int64_t".toList, 8, .primitiveDataType, []⟩),
   ("uint64".toList, ⟨"uint64_t".toList, 8, .primitiveDataType, []⟩),
   ("float32".toList, ⟨"float".toList, 4, .primitiveDataType, []⟩),
   ("float64".toList, ⟨"double".toList, 8, .primitiveDataType, []⟩),
   ("string".toList, ⟨"char*".toList, 0, .stringDataType, []⟩)]

/-! ## `Message` -/

/-- An `EnumerationType`. -/
structure EnumerationType where
  name : Text
  type : Text
  value : Text
  deriving DecidableEq

/-- The objects in `Message.data`: an element class applied to a name, or an
`ArrayDataType` over an element class.  The size of an array is `None` when it
is not fixed. -/
inductive DataType
  | element (cls : TypeClass) (name type : Text) (bytes : Nat)
  | arrayDataType (name type : Text) (bytes : Nat) (cls : TypeClass) (size : Option Int)
  deriving DecidableEq

/-- What `Message.__init__` builds. -/
structure Message where
  package : Text
  includes : List Text
  data : List DataType
  enums : List EnumerationType

/-- `if include not in self.includes: self.includes.append(include)`. -/
def Message.addInclude (m : Message) (inc : Text) : Message :=
  if inc ∈ m.includes then m else { m with includes := m.includes ++ [inc] }

/-! ## One line -/

/-- `# remove trailing comments`.  The slice ends one character before the
comment sign. -/
def stripComment (line : Text) : Text :=
  if find '#' line > -1 then slice line 0 (find '#' line - 1) else line

/-- What the loop body knows of a line when it reaches its last `continue`. -/
inductive Scanned
  | skipped
  | enumeration (e : EnumerationType)
  | field (ty name : Text)

/-- From `equal_pos` to the two words. -/
def scanContent (line : Text) : Scanned :=
  let equalPos := find '=' line
  let value := if equalPos > -1 then some (strip (sliceFrom line (equalPos + 1))) else none
  let line := if equalPos > -1 then slice line 0 equalPos else line
  match words line, value with
  | ty :: name :: _, some value => .enumeration ⟨name, ty, value⟩
  | ty :: name :: _, none => .field ty name
  | _, _ => .skipped

/-- The loop body up to the last `continue`. -/
def scanLine (line : Text) : Scanned :=
  let line := rstrip (strip line)
  if line.length = 0 then .skipped
  else if line.head? = some '#' then .skipped
  else scanContent (rstrip (strip (stripComment line)))

/-- `type_package, type_name = ty.split("/")`, and the handler. -/
def packageOf (ty : Text) : Option Text × Text :=
  match ty.splitOn '/' with
  | [typePackage, typeName] => (some typePackage, typeName)
  | _ => (none, ty)

/-- The brackets of a type: `type_array_size` of an array, and the name without
them. -/
def arrayOf (typeName : Text) : Option (Option Int) × Text :=
  if find '[' typeName > 0 then
    (some (toInt (slice typeName (find '[' typeName + 1) (find ']' typeName))),
      slice typeName 0 (find '[' typeName))
  else (none, typeName)

section

variable (underscore : Text → Text)

/-- `full_include`. -/
def fullInclude (typePackage typeName : Text) : Text :=
  typePackage ++ "/msg/".toList ++ underscore typeName

/-- The row for a type name and the includes it needs.  A name that is not in
the table is the name of a message. -/
def lookupType (package : Text) (typePackage : Option Text) (typeName : Text) : EmbeddedType :=
  match rosToEmbeddedTypes.lookup typeName with
  | some row => row
  | none =>
    let typePackage := typePackage.getD package
    { codeType := typePackage ++ "::msg::".toList ++ typeName
      size := 0
      cls := .messageDataType
      includes := [fullInclude underscore typePackage typeName] }

/-- The object that the last lines of the loop body append. -/
def dataTypeOf (name : Text) (row : EmbeddedType) : Option (Option Int) → DataType
  | some size => .arrayDataType name row.codeType row.size row.cls size
  | none => .element row.cls name row.codeType row.size

/-- The loop body after the last `continue`. -/
def Message.addField (m : Message) (ty name : Text) : Message :=
  let (typePackage, typeName) := packageOf ty
  let (array, typeName) := arrayOf typeName
  let row := lookupType underscore m.package typePackage typeName
  let m := row.includes.foldl Message.addInclude m
  { m with data := m.data ++ [dataTypeOf name row array] }

/-- The loop body. -/
def Message.parseLine (m : Message) (line : Text) : Message :=
  match scanLine line with
  | .skipped => m
  | .enumeration e => { m with enums := m.enums ++ [e] }
  | .field ty name => m.addField underscore ty name

/-- `Message(name, package, definition, md5)`. -/
def Message.init (package definition : Text) : Message :=
  (splitlines definition).foldl (Message.parseLine underscore)
    { package, includes := [], data := [], enums := [] }

/-! ## What a line adds -/

/-- The object that a field adds to `data`. -/
def fieldType (package ty name : Text) : DataType :=
  dataTypeOf name
    (lookupType underscore package (packageOf ty).1 (arrayOf (packageOf ty).2).2)
    (arrayOf (packageOf ty).2).1

/-- The entry of `data` that a line adds. -/
def Scanned.dataType? (package : Text) : Scanned → Option DataType
  | .field ty name => some (fieldType underscore package ty name)
  | _ => none

/-- The entry of `enums` that a line adds. -/
def Scanned.enumeration? : Scanned → Option EnumerationType
  | .enumeration e => some e
  | _ => none

theorem foldl_addInclude (m : Message) (includes : List Text) :
    (includes.foldl Message.addInclude m).package = m.package ∧
      (includes.foldl Message.addInclude m).data = m.data ∧
      (includes.foldl Message.addInclude m).enums = m.enums := by
  induction includes generalizing m with
  | nil => exact ⟨rfl, rfl, rfl⟩
  | cons inc includes ih =>
    have hstep : (m.addInclude inc).package = m.package ∧
        (m.addInclude inc).data = m.data ∧ (m.addInclude inc).enums = m.enums := by
      unfold Message.addInclude
      split <;> exact ⟨rfl, rfl, rfl⟩
    obtain ⟨hpackage, hdata, henums⟩ := ih (m.addInclude inc)
    exact ⟨hpackage.trans hstep.1, hdata.trans hstep.2.1, henums.trans hstep.2.2⟩

/-- A line adds what its scan says, and nothing else. -/
theorem Message.parseLine_spec (m : Message) (line : Text) :
    (m.parseLine underscore line).package = m.package ∧
      (m.parseLine underscore line).data =
        m.data ++ ((scanLine line).dataType? underscore m.package).toList ∧
      (m.parseLine underscore line).enums =
        m.enums ++ (scanLine line).enumeration?.toList := by
  unfold Message.parseLine
  cases scanLine line with
  | skipped => simp [Scanned.dataType?, Scanned.enumeration?]
  | enumeration e => simp [Scanned.dataType?, Scanned.enumeration?]
  | field ty name =>
    obtain ⟨hpackage, hdata, henums⟩ := foldl_addInclude m
      (lookupType underscore m.package (packageOf ty).1 (arrayOf (packageOf ty).2).2).includes
    simp only [Message.addField, hpackage, hdata, henums]
    simp [Scanned.dataType?, Scanned.enumeration?, fieldType]

/-- The run of the loop: the entries are the ones of the lines, in order. -/
theorem Message.foldl_parseLine (m : Message) (lines : List Text) :
    (lines.foldl (Message.parseLine underscore) m).data =
        m.data ++ lines.filterMap
          (fun line => (scanLine line).dataType? underscore m.package) ∧
      (lines.foldl (Message.parseLine underscore) m).enums =
        m.enums ++ lines.filterMap (fun line => (scanLine line).enumeration?) := by
  induction lines generalizing m with
  | nil => simp
  | cons line lines ih =>
    obtain ⟨hpackage, hdata, henums⟩ := m.parseLine_spec underscore line
    obtain ⟨hdatas, henumss⟩ := ih (m.parseLine underscore line)
    rw [List.foldl_cons, hdatas, henumss, hpackage, hdata, henums]
    refine ⟨?_, ?_⟩
    · rw [List.filterMap_cons, List.append_assoc]
      cases (scanLine line).dataType? underscore m.package <;> rfl
    · rw [List.filterMap_cons, List.append_assoc]
      cases (scanLine line).enumeration? <;> rfl

theorem Message.init_spec (package definition : Text) :
    (Message.init underscore package definition).data =
        (splitlines definition).filterMap
          (fun line => (scanLine line).dataType? underscore package) ∧
      (Message.init underscore package definition).enums =
        (splitlines definition).filterMap (fun line => (scanLine line).enumeration?) :=
  Message.foldl_parseLine underscore _ _

end

end Ros2Serial.Generator
