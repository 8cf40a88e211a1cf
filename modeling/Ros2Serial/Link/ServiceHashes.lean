import Ros2Serial.Generator.FieldTypes

/-!
# The hashes of a service

A service `S` has a JSON file with the hashes of all the types that belong to it.
The generator puts two of them into the code of the device, and the host looks the
same two up when the device announces the service.

* `getServiceHash` takes the last entry whose name contains `Request`, and the last
  whose name contains `Response` (`foldl_last`).
* `lookupMessage` takes the first entry whose name is `S_Request`, or `S_Response`
  (`lookupMessage_entry`).

Both are the same as long as no entry behind `S_Request` has the word in its name,
or none with another hash that is the last one, and likewise for `S_Response`
(`serviceHashes_agree_iff`).
-/

namespace Ros2Serial.Link

open PyText Generator

/-! ## The two searches -/

/-- An entry of `type_hashes`. -/
structure TypeHash where
  type_name : Text
  hash_string : Text
  deriving DecidableEq

/-- `get_service_hash`, from the loop on.  The argument is `data["type_hashes"]`. -/
def getServiceHash (typeHashes : List TypeHash) : Option Text × Option Text :=
  typeHashes.foldl
    (fun hashes typeHash =>
      let hash_request :=
        if contains "Request".toList typeHash.type_name then some typeHash.hash_string
        else hashes.1
      let hash_response :=
        if contains "Response".toList typeHash.type_name then some typeHash.hash_string
        else hashes.2
      (hash_request, hash_response))
    (none, none)

structure PackageInfo where
  package_name : Text
  interface_type : Text
  type_name : Text
  deriving DecidableEq

/-- `split`.  What follows the last `/` is a field if it is not empty.  `none` stands for
the `std::invalid_argument`. -/
def split (str : Text) : Option PackageInfo :=
  let parts := str.splitOn '/'
  let fields := if parts.getLast? = some [] then parts.dropLast else parts
  match fields with
  | [package_name, interface_type, type_name] => some ⟨package_name, interface_type, type_name⟩
  | _ => none

structure MsgInfo where
  md5sum : Text
  deriving DecidableEq

/-- `lookupMessage`.  A document is what the JSON file of an interface has in `type_hashes`;
there is none if the package or the file is not found.  `none` stands for the exception of
`split`. -/
def lookupMessage (documents : PackageInfo → Option (List TypeHash))
    (interface_name suffix : Text) : Option MsgInfo :=
  if interface_name.count '/' ≠ 2 then some ⟨[]⟩
  else
    (split interface_name).map fun info =>
      match documents info with
      | none => ⟨[]⟩
      | some typeHashes =>
        match typeHashes.find? fun typeHash => interface_name ++ suffix = typeHash.type_name with
        | some typeHash => ⟨typeHash.hash_string⟩
        | none => ⟨[]⟩

/-! ## Services -/

/-- The name of a package and of a service. -/
structure ServiceType where
  package : Word
  name : TypeName

def ServiceType.text (service : ServiceType) : Text :=
  service.package.1 ++ '/' :: ("srv".toList ++ '/' :: service.name.1.1)

/-- The JSON file of a service.  Exactly one of its entries is for the request, and exactly
one for the response. -/
structure ServiceFile (service : ServiceType) where
  documents : PackageInfo → Option (List TypeHash)
  typeHashes : List TypeHash
  found : documents ⟨service.package.1, "srv".toList, service.name.1.1⟩ = some typeHashes
  request : TypeHash
  response : TypeHash
  requestOnly : typeHashes.filter (fun typeHash =>
    service.text ++ "_Request".toList = typeHash.type_name) = [request]
  responseOnly : typeHashes.filter (fun typeHash =>
    service.text ++ "_Response".toList = typeHash.type_name) = [response]

/-- The generator has the hashes of the entries for the request and for the response, and
so has the host. -/
def ServiceFile.Agree {service : ServiceType} (file : ServiceFile service) : Prop :=
  getServiceHash file.typeHashes =
      (some file.request.hash_string, some file.response.hash_string) ∧
    lookupMessage file.documents service.text "_Request".toList =
      some ⟨file.request.hash_string⟩ ∧
    lookupMessage file.documents service.text "_Response".toList =
      some ⟨file.response.hash_string⟩

/-- The entries behind the one with this name. -/
def behind (name : Text) (typeHashes : List TypeHash) : List TypeHash :=
  (typeHashes.dropWhile fun typeHash => name ≠ typeHash.type_name).tail

/-- Behind the entry, the last one with the word in its name has no other hash. -/
def Unshadowed (word name : Text) (entry : TypeHash) (typeHashes : List TypeHash) : Prop :=
  ∀ other ∈ ((behind name typeHashes).filter fun typeHash =>
    contains word typeHash.type_name).getLast?, other.hash_string = entry.hash_string

instance (word name : Text) (entry : TypeHash) (typeHashes : List TypeHash) :
    Decidable (Unshadowed word name entry typeHashes) :=
  inferInstanceAs (Decidable (∀ _ ∈ _, _))

/-! ## The last one -/

/-- A loop that overwrites a variable leaves what the last entry has written. -/
theorem foldl_last {α β : Type} (p : α → Bool) (f : α → β) (xs : List α) (start : Option β) :
    xs.foldl (fun found x => if p x then some (f x) else found) start =
      (((xs.filter p).getLast?).map f).or start := by
  induction xs generalizing start with
  | nil => rfl
  | cons x rest ih =>
    rw [List.foldl_cons, ih, List.filter_cons]
    split
    · rw [List.getLast?_cons]
      cases (rest.filter p).getLast? <;> rfl
    · rfl

theorem getServiceHash_eq (typeHashes : List TypeHash) :
    getServiceHash typeHashes =
      (((typeHashes.filter fun typeHash =>
          contains "Request".toList typeHash.type_name).getLast?).map TypeHash.hash_string,
        ((typeHashes.filter fun typeHash =>
          contains "Response".toList typeHash.type_name).getLast?).map TypeHash.hash_string) := by
  have hpair : ∀ start : Option Text × Option Text, typeHashes.foldl
      (fun hashes typeHash =>
        (if contains "Request".toList typeHash.type_name then some typeHash.hash_string
          else hashes.1,
        if contains "Response".toList typeHash.type_name then some typeHash.hash_string
          else hashes.2)) start =
      (typeHashes.foldl (fun found typeHash =>
          if contains "Request".toList typeHash.type_name then some typeHash.hash_string
          else found) start.1,
        typeHashes.foldl (fun found typeHash =>
          if contains "Response".toList typeHash.type_name then some typeHash.hash_string
          else found) start.2) := by
    induction typeHashes with
    | nil => exact fun _ => rfl
    | cons typeHash rest ih => exact fun _ => ih _
  refine (hpair (none, none)).trans ?_
  rw [foldl_last, foldl_last, Option.or_none, Option.or_none]

/-- The only entry with a name, and what is behind it. -/
theorem split_at_name {name : Text} {entry : TypeHash} {typeHashes : List TypeHash}
    (h : typeHashes.filter (fun typeHash => name = typeHash.type_name) = [entry]) :
    ∃ before, typeHashes = before ++ entry :: behind name typeHashes ∧ name = entry.type_name := by
  induction typeHashes with
  | nil => cases h
  | cons typeHash rest ih =>
    by_cases hname : name = typeHash.type_name
    · rw [List.filter_cons_of_pos (by simpa using hname)] at h
      obtain ⟨rfl, -⟩ := List.cons.inj h
      refine ⟨[], ?_, hname⟩
      unfold behind
      rw [List.dropWhile_cons_of_neg (by simpa using hname)]
      rfl
    · rw [List.filter_cons_of_neg (by simpa using hname)] at h
      obtain ⟨before, hrest, hentry⟩ := ih h
      refine ⟨typeHash :: before, ?_, hentry⟩
      unfold behind at hrest ⊢
      rw [List.dropWhile_cons_of_pos (by simpa using hname), List.cons_append, ← hrest]

/-- The last entry with a word has the hash of an entry with this word, or is behind it. -/
theorem last_hash_iff {word name : Text} {entry : TypeHash} {typeHashes : List TypeHash}
    (hword : contains word name = true)
    (honly : typeHashes.filter (fun typeHash => name = typeHash.type_name) = [entry]) :
    ((typeHashes.filter fun typeHash =>
        contains word typeHash.type_name).getLast?).map TypeHash.hash_string =
      some entry.hash_string ↔ Unshadowed word name entry typeHashes := by
  obtain ⟨before, hsplit, hname⟩ := split_at_name honly
  unfold Unshadowed
  generalize behind name typeHashes = after at hsplit
  rw [hname] at hword
  have hkept : (entry :: after).filter (fun typeHash => contains word typeHash.type_name) =
      entry :: after.filter fun typeHash => contains word typeHash.type_name :=
    List.filter_cons_of_pos hword
  have hlast : (typeHashes.filter fun typeHash => contains word typeHash.type_name).getLast? =
      some (((after.filter fun typeHash =>
        contains word typeHash.type_name).getLast?).getD entry) := by
    rw [hsplit, List.filter_append, hkept, List.getLast?_append,
      List.getLast?_cons, Option.some_or]
  rw [hlast]
  cases (after.filter fun typeHash => contains word typeHash.type_name).getLast? with
  | none => exact iff_of_true rfl fun other hother => by cases hother
  | some last =>
    constructor
    · intro hsame other hother
      obtain rfl := Option.some.inj hother
      exact Option.some.inj hsame
    · intro hsame
      exact congrArg some (hsame last rfl)

/-! ## The host -/

variable {service : ServiceType}

/-- The name of a service has three parts. -/
theorem split_text (service : ServiceType) :
    service.text.count '/' = 2 ∧
      split service.text = some ⟨service.package.1, "srv".toList, service.name.1.1⟩ := by
  have hpackage : '/' ∉ service.package.1 :=
    wordChars_not_mem service.package.wordChars (by decide)
  have hsrv : '/' ∉ "srv".toList := by decide
  have hname : '/' ∉ service.name.1.1 := wordChars_not_mem service.name.1.wordChars (by decide)
  constructor
  · unfold ServiceType.text
    rw [List.count_append, List.count_cons_self, List.count_append, List.count_cons_self,
      List.count_eq_zero_of_not_mem hpackage, List.count_eq_zero_of_not_mem hsrv,
      List.count_eq_zero_of_not_mem hname]
  · have hparts : service.text.splitOn '/' =
        [service.package.1, "srv".toList, service.name.1.1] := by
      unfold ServiceType.text
      rw [List.splitOn_append_cons_self_of_not_mem hpackage,
        List.splitOn_append_cons_self_of_not_mem hsrv, List.splitOn_eq_singleton hname]
    have hlast : ¬ [service.package.1, "srv".toList, service.name.1.1].getLast? = some [] := by
      intro hempty
      exact service.name.1.2.1 (Option.some.inj hempty)
    unfold split
    rw [hparts]
    dsimp only
    rw [if_neg hlast]

/-- The host finds the entry with the name of the service and a suffix, if there is only one. -/
theorem lookupMessage_entry {documents : PackageInfo → Option (List TypeHash)}
    {typeHashes : List TypeHash}
    (hfound : documents ⟨service.package.1, "srv".toList, service.name.1.1⟩ = some typeHashes)
    {suffix : Text} {entry : TypeHash}
    (honly : typeHashes.filter (fun typeHash => service.text ++ suffix = typeHash.type_name) =
      [entry]) :
    lookupMessage documents service.text suffix = some ⟨entry.hash_string⟩ := by
  obtain ⟨hcount, hsplit⟩ := split_text service
  have hfind : typeHashes.find? (fun typeHash => service.text ++ suffix = typeHash.type_name) =
      some entry := by
    rw [← List.head?_filter, honly]
    rfl
  unfold lookupMessage
  rw [if_neg (not_not.mpr hcount), hsplit, Option.map_some, hfound]
  dsimp only
  rw [hfind]

/-! ## Both -/

theorem contains_append (text word rest : Text) (h : word <:+ rest) :
    contains word (text ++ rest) = true := by
  unfold contains
  rw [decide_eq_true_iff]
  exact h.isInfix.trans (List.suffix_append text rest).isInfix

/-- The two ends have the same hashes if and only if neither entry is shadowed. -/
theorem serviceHashes_agree_iff (service : ServiceType) (file : ServiceFile service) :
    file.Agree ↔
      Unshadowed "Request".toList (service.text ++ "_Request".toList) file.request
          file.typeHashes ∧
        Unshadowed "Response".toList (service.text ++ "_Response".toList) file.response
          file.typeHashes := by
  have hrequest := last_hash_iff (contains_append service.text "Request".toList
    "_Request".toList (by decide)) file.requestOnly
  have hresponse := last_hash_iff (contains_append service.text "Response".toList
    "_Response".toList (by decide)) file.responseOnly
  have hhost := And.intro (lookupMessage_entry file.found file.requestOnly)
    (lookupMessage_entry file.found file.responseOnly)
  unfold ServiceFile.Agree
  rw [and_iff_left hhost, getServiceHash_eq, Prod.mk.injEq, hrequest, hresponse]

/-- `rosserial_msgs/srv/RequestParam`. -/
def requestParam : ServiceType where
  package := ⟨"rosserial_msgs".toList, by decide⟩
  name := ⟨⟨"RequestParam".toList, by decide⟩, by decide⟩

/-- Its file: the service, its request and its response, and its event. -/
def requestParamFile : ServiceFile requestParam where
  documents _ := some
    [⟨"rosserial_msgs/srv/RequestParam".toList, "1".toList⟩,
     ⟨"rosserial_msgs/srv/RequestParam_Request".toList, "2".toList⟩,
     ⟨"rosserial_msgs/srv/RequestParam_Response".toList, "3".toList⟩,
     ⟨"rosserial_msgs/srv/RequestParam_Event".toList, "4".toList⟩]
  typeHashes :=
    [⟨"rosserial_msgs/srv/RequestParam".toList, "1".toList⟩,
     ⟨"rosserial_msgs/srv/RequestParam_Request".toList, "2".toList⟩,
     ⟨"rosserial_msgs/srv/RequestParam_Response".toList, "3".toList⟩,
     ⟨"rosserial_msgs/srv/RequestParam_Event".toList, "4".toList⟩]
  found := rfl
  request := ⟨"rosserial_msgs/srv/RequestParam_Request".toList, "2".toList⟩
  response := ⟨"rosserial_msgs/srv/RequestParam_Response".toList, "3".toList⟩
  requestOnly := by decide
  responseOnly := by decide

/-- The generator takes the hash of the event for that of the request. -/
theorem requestParam_not_agree :
    getServiceHash requestParamFile.typeHashes = (some "4".toList, some "3".toList) ∧
      ¬ requestParamFile.Agree := by
  have hhashes : getServiceHash requestParamFile.typeHashes =
      (some "4".toList, some "3".toList) := by
    decide +kernel
  refine ⟨hhashes, fun hagree => ?_⟩
  have hsame := hhashes.symm.trans hagree.1
  revert hsame
  decide

end Ros2Serial.Link
