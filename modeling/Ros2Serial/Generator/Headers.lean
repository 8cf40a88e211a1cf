import Ros2Serial.Generator.Parser
import Mathlib.Data.Char
import Mathlib.Data.List.Lex
import Mathlib.Data.List.Sort

/-!
# The headers of a set of packages

`rosserial_generate` writes a header for every message and for every service of
the packages that it is given.  The names of the files that a header includes
are built in three places: `Message.__init__` makes the stem, the two
`make_header`s add an extension, and `MakeLibrary` names the file that is
written.

`rosserialGenerate` keeps of a header its path below the output directory and
the includes that are not of the library.  `mem_headers` says which headers
there are, and `includes_message` and `includes_service` what they include.

A message includes `stem.hpp`, and this is the name of the file.  A service
includes `stem.h`, and no file has such a name.  So the headers are closed under
inclusion only if no service uses a message (`headers_closed_iff`).

What is installed is a parameter: the interfaces of a package, their files and
their hashes.  `convert_camel_case_to_lower_case_underscore` is the parameter
`underscore`.
-/

namespace Ros2Serial.Generator

open PyText

/-! ## What is installed -/

/-- What the generator reads from the share directories. -/
structure Installation where
  /-- `get_interfaces([package])[package]`. -/
  interfaces : Text → List Text
  /-- `get_interface_spec`. -/
  spec : Text → Text
  /-- `get_message_hash`. -/
  messageHash : Text → Option Text
  /-- `get_service_hash`. -/
  serviceHash : Text → Option Text × Option Text

/-- `get_package_interfaces`. -/
def Installation.packageInterfaces (inst : Installation) (package : Text) : List Text :=
  (inst.interfaces package).map fun name => package ++ '/' :: name

/-- The truth value of a hash. -/
def truthy (hash : Option Text) : Bool :=
  hash.any (· ≠ [])

/-- `_, _, name = interface.split('/')`.  `none` stands for `ValueError`. -/
def splitName (interface : Text) : Option Text :=
  match interface.splitOn '/' with
  | [_, _, name] => some name
  | _ => none

/-! ## `Service` -/

/-- `[ \t]*---[ \t]*`. -/
def isSeparator (line : Text) : Bool :=
  match line.dropWhile isBlank with
  | '-' :: '-' :: '-' :: rest => rest.all isBlank
  | _ => false

/-- A line that a newline follows, without the `\r` before the newline. -/
def dropReturn (line : Text) : Text :=
  if line.getLast? = some '\r' then line.dropLast else line

/-- The parts between the separators.  `part` is what has been read of the current one. -/
def splitParts (part : Text) : List Text → List Text
  | [] => [part]
  | [line] => if isSeparator line then [part, []] else [part ++ line]
  | line :: next :: lines =>
    if isSeparator (dropReturn line) then part :: splitParts [] (next :: lines)
    else splitParts (part ++ line ++ ['\n']) (next :: lines)

/-- `re.split(r"^[ \t]*---[ \t]*(?:\r?\n|$)", definition, flags=re.MULTILINE)`. -/
def reSplit (definition : Text) : List Text :=
  splitParts [] (definition.splitOn '\n')

structure Service where
  name : Text
  package : Text
  req : Message
  resp : Message

section

variable (underscore : Text → Text)

/-- `Service(name, package, definition, md5req, md5res)`.  `none` stands for the `ValueError`
of the assignment to `req_def` and `resp_def`. -/
def Service.init (name package definition : Text) : Option Service :=
  match reSplit definition with
  | [reqDef, respDef] =>
    some ⟨name, package, Message.init underscore package reqDef,
      Message.init underscore package respDef⟩
  | _ => none

/-! ## Headers -/

/-- A file that is written.  The path is below the output directory. -/
structure Header where
  path : Text
  includes : List Text
  deriving DecidableEq

/-- The header of a message: `_write_msg_includes`, and the `open` in `MakeLibrary`. -/
def Message.header (package msgName : Text) (msg : Message) : Header where
  path := package ++ '/' :: ("msg/".toList ++ underscore msgName ++ ".hpp".toList)
  includes := msg.includes.map fun i => i ++ ".hpp".toList

/-- The header of a service: `Service.make_header`, and the `open` in `MakeLibrary`.  The
includes are a `set`, so their order is not fixed. -/
def Service.header (package : Text) (srv : Service) : Header where
  path := package ++ '/' :: ("srv/".toList ++ underscore srv.name ++ ".hpp".toList)
  includes := (srv.req.includes ++ srv.resp.includes).eraseDups.map fun inc => inc ++ ".h".toList

/-! ## `MakeLibrary` -/

/-- The lists `messages`, with the names, and `services`. -/
structure Library where
  messages : List (Text × Message)
  services : List Service

variable (inst : Installation)

/-- The body of the loop over the interfaces.  `none` stands for an exception. -/
def Library.add (package : Text) (lib : Library) (interface : Text) : Option Library :=
  if contains "/msg/".toList interface then
    match splitName interface with
    | none => none
    | some msgName =>
      if truthy (inst.messageHash interface) then
        some { lib with messages := lib.messages ++
          [(msgName, Message.init underscore package (inst.spec interface))] }
      else some lib
  else if contains "/srv/".toList interface then
    match splitName interface with
    | none => none
    | some srvName =>
      if truthy (inst.serviceHash interface).1 && truthy (inst.serviceHash interface).2 then
        (Service.init underscore srvName package (inst.spec interface)).map fun srv =>
          { lib with services := lib.services ++ [srv] }
      else some lib
  else some lib

/-- `MakeLibrary(package, output_path)`: the headers in the order of writing.  `none` stands
for an exception.  It comes before the first file is opened. -/
def makeLibrary (package : Text) : Option (List Header) :=
  ((inst.packageInterfaces package).foldlM (Library.add underscore inst package) ⟨[], []⟩).map
    fun lib =>
      lib.messages.map (fun msg => msg.2.header underscore package msg.1) ++
        lib.services.map (Service.header underscore package)

/-- The files that have been written, and the packages that have failed. -/
structure Generated where
  headers : List Header
  failed : List Text

/-- The body of the loop over the packages. -/
def Generated.add (gen : Generated) (package : Text) : Generated :=
  match makeLibrary underscore inst package with
  | some headers => { gen with headers := gen.headers ++ headers }
  | none => { gen with failed := gen.failed ++ [package] }

/-- `rosserial_generate(pkg_list, path)`.  It raises an exception at the end if a package has
failed. -/
def rosserialGenerate (pkgList : List Text) : Generated :=
  (pkgList.insertionSort (· ≤ ·)).foldl (Generated.add underscore inst) ⟨[], []⟩

end

/-- Every include names a file that has been written. -/
def Generated.IncludesWritten (gen : Generated) : Prop :=
  ∀ header ∈ gen.headers, ∀ inc ∈ header.includes, ∃ file ∈ gen.headers, file.path = inc

instance (gen : Generated) : Decidable gen.IncludesWritten :=
  inferInstanceAs (Decidable (∀ _ ∈ _, ∀ _ ∈ _, ∃ _ ∈ _, _))

/-! ## The types that are included -/

/-- The package and the name of a type that is not in the table. -/
def messageType? (package ty : Text) : Option (Text × Text) :=
  if (rosToEmbeddedTypes.lookup (arrayOf (packageOf ty).2).2).isSome then none
  else some ((packageOf ty).1.getD package, (arrayOf (packageOf ty).2).2)

/-- The same for the field on a line. -/
def Scanned.messageType? (package : Text) : Scanned → Option (Text × Text)
  | .field ty _ => Generator.messageType? package ty
  | _ => none

/-- The types of the fields of a definition that are not in the table. -/
def messageTypes (package definition : Text) : List (Text × Text) :=
  (splitlines definition).filterMap fun line => (scanLine line).messageType? package

/-- The names of message types are capitalised. -/
def Capitalised (name : Text) : Prop := name.head?.any Char.isUpper = true

instance (name : Text) : Decidable (Capitalised name) := inferInstanceAs (Decidable (_ = _))

section

variable (inst : Installation)

/-- A message that is written, if its package is. -/
def Installation.MessageNamed (interface msgName : Text) : Prop :=
  contains "/msg/".toList interface = true ∧ splitName interface = some msgName ∧
    truthy (inst.messageHash interface) = true

/-- A service that is written, if its package is. -/
def Installation.ServiceNamed (interface srvName : Text) : Prop :=
  contains "/msg/".toList interface = false ∧ contains "/srv/".toList interface = true ∧
    splitName interface = some srvName ∧ truthy (inst.serviceHash interface).1 = true ∧
    truthy (inst.serviceHash interface).2 = true

/-- The loop over the interfaces raises no exception here. -/
def Installation.Readable (interface : Text) : Prop :=
  (contains "/msg/".toList interface = true ∨ contains "/srv/".toList interface = true →
      (splitName interface).isSome) ∧
    ∀ srvName, inst.ServiceNamed interface srvName → (reSplit (inst.spec interface)).length = 2

/-- `MakeLibrary` raises no exception. -/
def Installation.Built (package : Text) : Prop :=
  ∀ interface ∈ inst.packageInterfaces package, inst.Readable interface

/-- Packages that are closed under message dependencies: with a message or a service, the
messages that its fields have as types are installed, and their packages are in the set. -/
structure PackageSet where
  packages : List Text
  named : ∀ package ∈ packages, '/' ∉ package
  closed : ∀ package ∈ packages, ∀ interface ∈ inst.packageInterfaces package,
    ∀ type ∈ messageTypes package (inst.spec interface), Capitalised type.2 →
      type.1 ∈ packages ∧ "msg/".toList ++ type.2 ∈ inst.interfaces type.1

variable {inst} (underscore : Text → Text) (set : PackageSet inst)

/-- No field of a service that is written has the type of a message. -/
def PackageSet.ServicesPrimitive : Prop :=
  ∀ package ∈ set.packages, inst.Built package →
    ∀ interface ∈ inst.packageInterfaces package, ∀ srvName,
      inst.ServiceNamed interface srvName →
        ∀ part ∈ reSplit (inst.spec interface), messageTypes package part = []

/-- The package of the type is written, and so is the type, or another message with the same
file name. -/
def PackageSet.Available (type : Text × Text) : Prop :=
  inst.Built type.1 ∧
    (Capitalised type.2 ∧
        truthy (inst.messageHash (type.1 ++ '/' :: ("msg/".toList ++ type.2))) = true ∨
      type.1 ∈ set.packages ∧ ∃ interface ∈ inst.packageInterfaces type.1, ∃ msgName,
        inst.MessageNamed interface msgName ∧ underscore msgName = underscore type.2)

/-- The types of the fields of the messages that are written are available. -/
def PackageSet.MessagesAvailable : Prop :=
  ∀ package ∈ set.packages, inst.Built package →
    ∀ interface ∈ inst.packageInterfaces package, ∀ msgName,
      inst.MessageNamed interface msgName →
        ∀ type ∈ messageTypes package (inst.spec interface), set.Available underscore type

end

/-! ## Slashes -/

theorem not_mem_of_mem_splitOn {c : Char} {text part : Text} (h : part ∈ text.splitOn c) :
    c ∉ part := by
  induction text generalizing part with
  | nil =>
    rw [List.mem_singleton.mp h]
    exact List.not_mem_nil
  | cons d text ih =>
    rw [List.splitOn_cons_eq_if_modifyHead] at h
    split at h
    · rcases List.mem_cons.mp h with rfl | hrest
      · exact List.not_mem_nil
      · exact ih hrest
    · rename_i hne
      obtain ⟨head, tail, hparts⟩ := List.exists_cons_of_ne_nil (List.splitOn_ne_nil c text)
      rw [hparts, List.modifyHead_cons] at h
      have hhead : c ∉ head := ih (hparts ▸ List.mem_cons_self)
      rcases List.mem_cons.mp h with rfl | hrest
      · intro hmem
        rcases List.mem_cons.mp hmem with rfl | hmem
        · exact hne BEq.rfl
        · exact hhead hmem
      · exact ih (hparts ▸ List.mem_cons_of_mem _ hrest)

/-- What stands before the first slash, and after it. -/
theorem slash_inj {left left' right right' : Text} (h : '/' ∉ left) (h' : '/' ∉ left')
    (heq : left ++ '/' :: right = left' ++ '/' :: right') : left = left' ∧ right = right' := by
  have hparts : left :: right.splitOn '/' = left' :: right'.splitOn '/' := by
    rw [← List.splitOn_append_cons_self_of_not_mem h, heq,
      List.splitOn_append_cons_self_of_not_mem h']
  obtain rfl := (List.cons.inj hparts).1
  exact ⟨rfl, (List.cons.inj (List.append_cancel_left heq)).2⟩

/-- An interface of a package that has three parts has the name that it ends with. -/
theorem splitName_msg {package name msgName : Text}
    (h : splitName (package ++ '/' :: ("msg/".toList ++ name)) = some msgName) :
    msgName = name := by
  have hmsg : "msg/".toList ++ name = "msg".toList ++ '/' :: name := rfl
  have hparts : (package ++ '/' :: ("msg/".toList ++ name)).splitOn '/' =
      package.splitOn '/' ++ "msg".toList :: name.splitOn '/' := by
    rw [List.splitOn_append_cons_self, hmsg,
      List.splitOn_append_cons_self_of_not_mem (show '/' ∉ "msg".toList by decide)]
  obtain ⟨first, firsts, hfirst⟩ := List.exists_cons_of_ne_nil (List.splitOn_ne_nil '/' package)
  obtain ⟨last, lasts, hlast⟩ := List.exists_cons_of_ne_nil (List.splitOn_ne_nil '/' name)
  unfold splitName at h
  rw [hparts, hfirst, hlast] at h
  split at h
  · rename_i a b c hthree
    have hlength : firsts.length + lasts.length = 0 := by
      have := congrArg List.length hthree
      simp only [List.length_append, List.length_cons, List.length_nil] at this
      omega
    obtain rfl : firsts = [] := List.eq_nil_of_length_eq_zero (by omega)
    obtain rfl : lasts = [] := List.eq_nil_of_length_eq_zero (by omega)
    obtain ⟨-, -, rfl⟩ : first = a ∧ "msg".toList = b ∧ last = c := by
      simpa using hthree
    have hname : ['/'].intercalate (name.splitOn '/') = name := List.intercalate_splitOn '/'
    rw [hlast] at hname
    rw [← Option.some.inj h, ← hname]
    simp
  · cases h

/-- The package of a type has no slash. -/
theorem messageTypes_package {package definition : Text} (hpackage : '/' ∉ package)
    {type : Text × Text} (h : type ∈ messageTypes package definition) : '/' ∉ type.1 := by
  obtain ⟨line, -, hline⟩ := List.mem_filterMap.mp h
  cases hscan : scanLine line with
  | skipped => rw [hscan] at hline; cases hline
  | enumeration e => rw [hscan] at hline; cases hline
  | field ty name =>
    rw [hscan] at hline
    unfold Scanned.messageType? messageType? at hline
    dsimp only at hline
    split at hline
    · cases hline
    · rw [← Option.some.inj hline]
      unfold packageOf
      split
      · rename_i typePackage typeName hparts
        exact not_mem_of_mem_splitOn (hparts ▸ List.mem_cons_self)
      · exact hpackage

/-! ## The includes of a message -/

section

variable (underscore : Text → Text)

theorem mem_addInclude (m : Message) (inc other : Text) :
    other ∈ (m.addInclude inc).includes ↔ other ∈ m.includes ∨ other = inc := by
  unfold Message.addInclude
  split
  · rename_i hmem
    exact ⟨Or.inl, fun h => h.elim id fun heq => heq ▸ hmem⟩
  · exact List.mem_append.trans (or_congr_right List.mem_singleton)

/-- The rows of the table need no includes. -/
theorem rosToEmbeddedTypes_includes {typeName : Text} {row : EmbeddedType}
    (h : rosToEmbeddedTypes.lookup typeName = some row) : row.includes = [] := by
  have hrows : ∀ entry ∈ rosToEmbeddedTypes, entry.2.includes = [] := by decide
  obtain ⟨before, after, htable, -⟩ := List.lookup_eq_some_iff.mp h
  exact hrows (typeName, row) (htable ▸ List.mem_append_right before List.mem_cons_self)

/-- A line includes the type of its field if it is not in the table. -/
theorem mem_parseLine_includes (m : Message) (line inc : Text) :
    inc ∈ (m.parseLine underscore line).includes ↔ inc ∈ m.includes ∨
      ∃ type ∈ (scanLine line).messageType? m.package,
        inc = fullInclude underscore type.1 type.2 := by
  unfold Message.parseLine
  cases scanLine line with
  | skipped => simp [Scanned.messageType?]
  | enumeration e => simp [Scanned.messageType?]
  | field ty name =>
    unfold Scanned.messageType? messageType? Message.addField lookupType
    dsimp only
    cases hrow : rosToEmbeddedTypes.lookup (arrayOf (packageOf ty).2).2 with
    | some row => simp [rosToEmbeddedTypes_includes hrow]
    | none => simp [mem_addInclude]

theorem mem_foldl_includes (m : Message) (lines : List Text) (inc : Text) :
    inc ∈ (lines.foldl (Message.parseLine underscore) m).includes ↔ inc ∈ m.includes ∨
      ∃ type ∈ lines.filterMap fun line => (scanLine line).messageType? m.package,
        inc = fullInclude underscore type.1 type.2 := by
  induction lines generalizing m with
  | nil => simp
  | cons line lines ih =>
    rw [List.foldl_cons, ih, mem_parseLine_includes, (m.parseLine_spec underscore line).1,
      or_assoc, List.filterMap_cons]
    cases (scanLine line).messageType? m.package with
    | none => simp
    | some type => simp

/-- A message includes the types of its fields that are not in the table. -/
theorem mem_includes (package definition inc : Text) :
    inc ∈ (Message.init underscore package definition).includes ↔
      ∃ type ∈ messageTypes package definition, inc = fullInclude underscore type.1 type.2 := by
  unfold Message.init
  rw [mem_foldl_includes]
  exact or_iff_right List.not_mem_nil

/-! ## What is written -/

/-- A service has two parts, and its request and its response are the messages of these. -/
theorem Service.init_spec (name package definition : Text) :
    (∃ reqDef respDef, reSplit definition = [reqDef, respDef] ∧
        Service.init underscore name package definition =
          some ⟨name, package, Message.init underscore package reqDef,
            Message.init underscore package respDef⟩) ∨
      (reSplit definition).length ≠ 2 ∧
        Service.init underscore name package definition = none := by
  unfold Service.init
  split
  · rename_i reqDef respDef hparts
    exact .inl ⟨reqDef, respDef, hparts, rfl⟩
  · rename_i hparts
    refine .inr ⟨fun hlength => ?_, rfl⟩
    obtain ⟨reqDef, respDef, htwo⟩ := List.length_eq_two.mp hlength
    exact hparts reqDef respDef htwo

variable (inst : Installation)

/-- The message that an interface is, with its name. -/
def Installation.IsMessage (package interface : Text) (msg : Text × Message) : Prop :=
  ∃ msgName, inst.MessageNamed interface msgName ∧
    msg = (msgName, Message.init underscore package (inst.spec interface))

/-- The service that an interface is. -/
def Installation.IsService (package interface : Text) (srv : Service) : Prop :=
  ∃ srvName, inst.ServiceNamed interface srvName ∧
    some srv = Service.init underscore srvName package (inst.spec interface)

/-- The header of an interface. -/
def Installation.IsHeader (package interface : Text) (header : Header) : Prop :=
  (∃ msg, inst.IsMessage underscore package interface msg ∧
      msg.2.header underscore package msg.1 = header) ∨
    ∃ srv, inst.IsService underscore package interface srv ∧
      srv.header underscore package = header

/-- One interface: when it raises no exception, and what it adds. -/
theorem Library.add_spec (package : Text) (lib : Library) (interface : Text) :
    (inst.Readable interface ∧ ∃ lib', lib.add underscore inst package interface = some lib' ∧
        (∀ msg, msg ∈ lib'.messages ↔
          msg ∈ lib.messages ∨ inst.IsMessage underscore package interface msg) ∧
        ∀ srv, srv ∈ lib'.services ↔
          srv ∈ lib.services ∨ inst.IsService underscore package interface srv) ∨
      ¬ inst.Readable interface ∧ lib.add underscore inst package interface = none := by
  unfold Library.add Installation.Readable Installation.IsMessage Installation.IsService
    Installation.MessageNamed Installation.ServiceNamed
  cases hmsg : contains "/msg/".toList interface with
  | true =>
    cases hname : splitName interface with
    | none => simp
    | some msgName =>
      left
      cases hhash : truthy (inst.messageHash interface) with
      | true => simp
      | false => simp
  | false =>
    cases hsrv : contains "/srv/".toList interface with
    | false => simp
    | true =>
      cases hname : splitName interface with
      | none => simp
      | some srvName =>
        cases hrequest : truthy (inst.serviceHash interface).1 with
        | false =>
          left
          simp
        | true =>
          cases hresponse : truthy (inst.serviceHash interface).2 with
          | false =>
            left
            simp
          | true =>
            obtain ⟨reqDef, respDef, hparts, hinit⟩ | ⟨hlength, hinit⟩ :=
              Service.init_spec underscore srvName package (inst.spec interface)
            · left
              simp [hparts, hinit]
            · right
              simp [hlength, hinit]

/-- The loop over the interfaces. -/
theorem foldlM_add (package : Text) (lib : Library) (interfaces : List Text) :
    ((∀ interface ∈ interfaces, inst.Readable interface) ∧
      ∃ lib', interfaces.foldlM (Library.add underscore inst package) lib = some lib' ∧
        (∀ msg, msg ∈ lib'.messages ↔ msg ∈ lib.messages ∨
          ∃ interface ∈ interfaces, inst.IsMessage underscore package interface msg) ∧
        ∀ srv, srv ∈ lib'.services ↔ srv ∈ lib.services ∨
          ∃ interface ∈ interfaces, inst.IsService underscore package interface srv) ∨
      (¬ ∀ interface ∈ interfaces, inst.Readable interface) ∧
        interfaces.foldlM (Library.add underscore inst package) lib = none := by
  induction interfaces generalizing lib with
  | nil =>
    left
    simp
  | cons interface interfaces ih =>
    rw [List.foldlM_cons]
    obtain ⟨hreadable, next, hnext, hmessages, hservices⟩ | ⟨hreadable, hnone⟩ :=
      Library.add_spec underscore inst package lib interface
    · rw [hnext]
      obtain ⟨hrest, final, hfinal, hmessages', hservices'⟩ | ⟨hrest, hnone⟩ := ih next
      · left
        refine ⟨List.forall_mem_cons.mpr ⟨hreadable, hrest⟩, final, hfinal, fun msg => ?_,
          fun srv => ?_⟩
        · rw [hmessages', hmessages, or_assoc, List.exists_mem_cons_iff]
        · rw [hservices', hservices, or_assoc, List.exists_mem_cons_iff]
      · right
        exact ⟨fun hall => hrest (List.forall_mem_cons.mp hall).2, hnone⟩
    · right
      rw [hnone]
      exact ⟨fun hall => hreadable (List.forall_mem_cons.mp hall).1, rfl⟩

/-- The headers of a package. -/
theorem makeLibrary_spec (package : Text) :
    (inst.Built package ∧ ∃ headers, makeLibrary underscore inst package = some headers ∧
      ∀ header, header ∈ headers ↔ ∃ interface ∈ inst.packageInterfaces package,
        inst.IsHeader underscore package interface header) ∨
      ¬ inst.Built package ∧ makeLibrary underscore inst package = none := by
  unfold makeLibrary
  obtain ⟨hreadable, lib, hlib, hmessages, hservices⟩ | ⟨hreadable, hnone⟩ :=
    foldlM_add underscore inst package ⟨[], []⟩ (inst.packageInterfaces package)
  · left
    refine ⟨hreadable, _, congrArg (Option.map _) hlib, fun header => ?_⟩
    rw [List.mem_append, List.mem_map, List.mem_map]
    constructor
    · rintro (⟨msg, hmsg, hheader⟩ | ⟨srv, hsrv, hheader⟩)
      · obtain ⟨interface, hmem, his⟩ := ((hmessages msg).mp hmsg).resolve_left List.not_mem_nil
        exact ⟨interface, hmem, .inl ⟨msg, his, hheader⟩⟩
      · obtain ⟨interface, hmem, his⟩ := ((hservices srv).mp hsrv).resolve_left List.not_mem_nil
        exact ⟨interface, hmem, .inr ⟨srv, his, hheader⟩⟩
    · rintro ⟨interface, hmem, ⟨msg, his, hheader⟩ | ⟨srv, his, hheader⟩⟩
      · exact .inl ⟨msg, (hmessages msg).mpr (.inr ⟨interface, hmem, his⟩), hheader⟩
      · exact .inr ⟨srv, (hservices srv).mpr (.inr ⟨interface, hmem, his⟩), hheader⟩
  · right
    exact ⟨hreadable, congrArg (Option.map _) hnone⟩

theorem mem_foldl_add (gen : Generated) (packages : List Text) (header : Header) :
    header ∈ (packages.foldl (Generated.add underscore inst) gen).headers ↔
      header ∈ gen.headers ∨ ∃ package ∈ packages, ∃ headers,
        makeLibrary underscore inst package = some headers ∧ header ∈ headers := by
  induction packages generalizing gen with
  | nil => simp
  | cons package packages ih =>
    rw [List.foldl_cons, ih, List.exists_mem_cons_iff, ← or_assoc]
    refine or_congr_left ?_
    unfold Generated.add
    cases makeLibrary underscore inst package with
    | none => simp
    | some headers => simp

/-- The headers that are written. -/
theorem mem_headers (packages : List Text) (header : Header) :
    header ∈ (rosserialGenerate underscore inst packages).headers ↔
      ∃ package ∈ packages, inst.Built package ∧
        ∃ interface ∈ inst.packageInterfaces package,
          inst.IsHeader underscore package interface header := by
  unfold rosserialGenerate
  rw [mem_foldl_add]
  constructor
  · rintro (hnil | ⟨package, hpackage, headers, hmake, hheader⟩)
    · cases hnil
    · refine ⟨package, (List.mem_insertionSort _).mp hpackage, ?_⟩
      obtain ⟨hbuilt, headers', hmake', hmem⟩ | ⟨-, hnone⟩ :=
        makeLibrary_spec underscore inst package
      · obtain rfl := Option.some.inj (hmake.symm.trans hmake')
        exact ⟨hbuilt, (hmem header).mp hheader⟩
      · cases hmake.symm.trans hnone
  · rintro ⟨package, hpackage, hbuilt, hheader⟩
    obtain ⟨-, headers, hmake, hmem⟩ | ⟨hbroken, -⟩ := makeLibrary_spec underscore inst package
    · exact .inr ⟨package, (List.mem_insertionSort _).mpr hpackage, headers, hmake,
        (hmem header).mpr hheader⟩
    · exact absurd hbuilt hbroken

/-! ## Which includes are files -/

variable {inst} {package interface : Text} {header : Header}

/-- Every file ends with `.hpp`. -/
theorem path_suffix (h : inst.IsHeader underscore package interface header) :
    ".hpp".toList <:+ header.path := by
  obtain ⟨msg, -, rfl⟩ | ⟨srv, -, rfl⟩ := h
  · exact ⟨package ++ '/' :: ("msg/".toList ++ underscore msg.1), by simp [Message.header]⟩
  · exact ⟨package ++ '/' :: ("srv/".toList ++ underscore srv.name), by simp [Service.header]⟩

/-- No file has the name that a service includes. -/
theorem path_ne_h (h : inst.IsHeader underscore package interface header) (stem : Text) :
    header.path ≠ stem ++ ".h".toList := by
  intro hpath
  obtain ⟨before, hbefore⟩ := path_suffix underscore h
  have hlast : header.path.getLast? = some 'p' := by
    rw [← hbefore, List.getLast?_append]
    rfl
  have hh : (stem ++ ".h".toList).getLast? = some 'h' := by
    rw [List.getLast?_append]
    rfl
  rw [hpath, hh] at hlast
  exact absurd hlast (by decide)

theorem fullInclude_eq (type : Text × Text) :
    fullInclude underscore type.1 type.2 ++ ".hpp".toList =
      type.1 ++ '/' :: ("msg/".toList ++ underscore type.2 ++ ".hpp".toList) := by
  unfold fullInclude
  simp

/-- A file that a message includes is the file of a message of the package. -/
theorem path_eq_fullInclude (h : inst.IsHeader underscore package interface header)
    (hpackage : '/' ∉ package) {type : Text × Text} (htype : '/' ∉ type.1)
    (hpath : header.path = fullInclude underscore type.1 type.2 ++ ".hpp".toList) :
    package = type.1 ∧ ∃ msgName, inst.MessageNamed interface msgName ∧
      underscore msgName = underscore type.2 := by
  rw [fullInclude_eq] at hpath
  obtain ⟨msg, ⟨msgName, hnamed, rfl⟩, rfl⟩ | ⟨srv, -, rfl⟩ := h
  · obtain ⟨heq, hname⟩ := slash_inj hpackage htype hpath
    exact ⟨heq, msgName, hnamed, List.append_cancel_left (List.append_cancel_right hname)⟩
  · obtain ⟨-, hname⟩ := slash_inj hpackage htype hpath
    exact absurd (List.cons.inj hname).1 (by decide)

/-- The file of a message that is written. -/
theorem exists_file (set : PackageSet inst) (hpackage : package ∈ set.packages)
    (hbuilt : inst.Built package) (hinterface : interface ∈ inst.packageInterfaces package)
    {msgName : Text} (hnamed : inst.MessageNamed interface msgName) :
    ∃ file ∈ (rosserialGenerate underscore inst set.packages).headers,
      file.path = fullInclude underscore package msgName ++ ".hpp".toList := by
  refine ⟨_, (mem_headers underscore inst set.packages _).mpr ⟨package, hpackage, hbuilt,
    interface, hinterface, .inl ⟨_, ⟨msgName, hnamed, rfl⟩, rfl⟩⟩, ?_⟩
  exact (fullInclude_eq underscore (package, msgName)).symm

/-- An available type has a file. -/
theorem available_file (set : PackageSet inst) (hpackage : package ∈ set.packages)
    (hinterface : interface ∈ inst.packageInterfaces package) {type : Text × Text}
    (htype : type ∈ messageTypes package (inst.spec interface))
    (havailable : set.Available underscore type) :
    ∃ file ∈ (rosserialGenerate underscore inst set.packages).headers,
      file.path = fullInclude underscore type.1 type.2 ++ ".hpp".toList := by
  obtain ⟨hbuilt, ⟨hcapital, hhash⟩ | ⟨hmem, other, hother, msgName, hnamed, hsame⟩⟩ := havailable
  · obtain ⟨hmem, hinstalled⟩ :=
      set.closed package hpackage interface hinterface type htype hcapital
    have hown : type.1 ++ '/' :: ("msg/".toList ++ type.2) ∈ inst.packageInterfaces type.1 :=
      List.mem_map_of_mem hinstalled
    have hmsg : contains "/msg/".toList (type.1 ++ '/' :: ("msg/".toList ++ type.2)) = true :=
      decide_eq_true ⟨type.1, type.2, by simp⟩
    obtain ⟨msgName, hname⟩ := Option.isSome_iff_exists.mp ((hbuilt _ hown).1 (.inl hmsg))
    obtain rfl := splitName_msg hname
    exact exists_file underscore set hmem hbuilt hown ⟨hmsg, hname, hhash⟩
  · obtain ⟨file, hfile, hpath⟩ := exists_file underscore set hmem hbuilt hother hnamed
    refine ⟨file, hfile, hpath.trans ?_⟩
    unfold fullInclude
    rw [hsame]

/-- The includes of the header of a message. -/
theorem includes_message (package definition msgName inc : Text) :
    inc ∈ ((Message.init underscore package definition).header underscore package
        msgName).includes ↔
      ∃ type ∈ messageTypes package definition,
        fullInclude underscore type.1 type.2 ++ ".hpp".toList = inc := by
  unfold Message.header
  rw [List.mem_map]
  constructor
  · rintro ⟨stem, hstem, rfl⟩
    obtain ⟨type, htype, rfl⟩ := (mem_includes underscore package definition stem).mp hstem
    exact ⟨type, htype, rfl⟩
  · rintro ⟨type, htype, rfl⟩
    exact ⟨_, (mem_includes underscore package definition _).mpr ⟨type, htype, rfl⟩, rfl⟩

/-- The includes of the header of a service. -/
theorem includes_service {srvName package definition : Text} {srv : Service}
    (h : some srv = Service.init underscore srvName package definition) (inc : Text) :
    inc ∈ (srv.header underscore package).includes ↔
      ∃ part ∈ reSplit definition, ∃ type ∈ messageTypes package part,
        fullInclude underscore type.1 type.2 ++ ".h".toList = inc := by
  obtain ⟨reqDef, respDef, hparts, hinit⟩ | ⟨-, hnone⟩ :=
    Service.init_spec underscore srvName package definition
  · obtain rfl := Option.some.inj (h.trans hinit)
    unfold Service.header
    rw [hparts, List.mem_map]
    constructor
    · rintro ⟨stem, hstem, rfl⟩
      rw [List.mem_eraseDups, List.mem_append, mem_includes, mem_includes] at hstem
      obtain ⟨type, htype, rfl⟩ | ⟨type, htype, rfl⟩ := hstem
      · exact ⟨reqDef, by simp, type, htype, rfl⟩
      · exact ⟨respDef, by simp, type, htype, rfl⟩
    · rintro ⟨part, hpart, type, htype, rfl⟩
      refine ⟨_, ?_, rfl⟩
      rw [List.mem_eraseDups, List.mem_append, mem_includes, mem_includes]
      rcases List.mem_pair.mp hpart with rfl | rfl
      · exact .inl ⟨type, htype, rfl⟩
      · exact .inr ⟨type, htype, rfl⟩
  · cases h.trans hnone

end

/-- The headers of packages that are closed under message dependencies are closed under
inclusion if and only if no service that is written uses a message, and the types in messages
are available. -/
theorem headers_closed_iff (underscore : Text → Text) (inst : Installation)
    (set : PackageSet inst) :
    (rosserialGenerate underscore inst set.packages).IncludesWritten ↔
      set.ServicesPrimitive ∧ set.MessagesAvailable underscore := by
  have hheaders := mem_headers underscore inst set.packages
  constructor
  · intro hclosed
    constructor
    · intro package hpackage hbuilt interface hinterface srvName hnamed part hpart
      by_contra hne
      obtain ⟨type, htype⟩ := List.exists_mem_of_ne_nil _ hne
      obtain ⟨reqDef, respDef, -, hinit⟩ | ⟨hlength, -⟩ :=
        Service.init_spec underscore srvName package (inst.spec interface)
      · have hheader := (hheaders _).mpr ⟨package, hpackage, hbuilt, interface, hinterface,
          .inr ⟨_, ⟨srvName, hnamed, hinit.symm⟩, rfl⟩⟩
        obtain ⟨file, hfile, hpath⟩ := hclosed _ hheader _
          ((includes_service underscore hinit.symm _).mpr ⟨part, hpart, type, htype, rfl⟩)
        obtain ⟨other, -, -, interface', -, his⟩ := (hheaders file).mp hfile
        exact path_ne_h underscore his _ hpath
      · exact hlength ((hbuilt interface hinterface).2 srvName hnamed)
    · intro package hpackage hbuilt interface hinterface msgName hnamed type htype
      have hheader := (hheaders _).mpr ⟨package, hpackage, hbuilt, interface, hinterface,
        .inl ⟨_, ⟨msgName, hnamed, rfl⟩, rfl⟩⟩
      obtain ⟨file, hfile, hpath⟩ := hclosed _ hheader _
        ((includes_message underscore package _ msgName _).mpr ⟨type, htype, rfl⟩)
      obtain ⟨other, hother, hbuilt', interface', hinterface', his⟩ := (hheaders file).mp hfile
      obtain ⟨rfl, msgName', hnamed', hsame⟩ := path_eq_fullInclude underscore his
        (set.named other hother) (messageTypes_package (set.named package hpackage) htype) hpath
      exact ⟨hbuilt', .inr ⟨hother, interface', hinterface', msgName', hnamed', hsame⟩⟩
  · rintro ⟨hservices, hmessages⟩ header hheader inc hinc
    obtain ⟨package, hpackage, hbuilt, interface, hinterface, his⟩ := (hheaders header).mp hheader
    obtain ⟨msg, ⟨msgName, hnamed, rfl⟩, rfl⟩ | ⟨srv, ⟨srvName, hnamed, hinit⟩, rfl⟩ := his
    · obtain ⟨type, htype, rfl⟩ := (includes_message underscore package _ msgName inc).mp hinc
      exact available_file underscore set hpackage hinterface htype
        (hmessages package hpackage hbuilt interface hinterface msgName hnamed type htype)
    · obtain ⟨part, hpart, type, htype, -⟩ := (includes_service underscore hinit inc).mp hinc
      have hnil := hservices package hpackage hbuilt interface hinterface srvName hnamed part hpart
      exact absurd htype (hnil ▸ List.not_mem_nil)

/-- A package with a message, and with a service that uses it. -/
def shapes : Installation where
  interfaces _ := ["msg/Point".toList, "srv/Move".toList]
  spec interface :=
    if interface = "shapes/msg/Point".toList then "int32 x\nint32 y\n".toList
    else "Point target\n---\nbool done\n".toList
  messageHash _ := some "1".toList
  serviceHash _ := (some "2".toList, some "3".toList)

/-- The package is closed under message dependencies. -/
def shapesSet : PackageSet shapes where
  packages := ["shapes".toList]
  named := by decide
  closed := by decide +kernel

/-- The service includes `point.h`, and the file is `point.hpp`. -/
theorem shapes_not_closed :
    (rosserialGenerate (List.map Char.toLower) shapes shapesSet.packages).headers =
        [⟨"shapes/msg/point.hpp".toList, []⟩,
          ⟨"shapes/srv/move.hpp".toList, ["shapes/msg/point.h".toList]⟩] ∧
      ¬ (rosserialGenerate (List.map Char.toLower) shapes shapesSet.packages).IncludesWritten := by
  decide +kernel

end Ros2Serial.Generator
