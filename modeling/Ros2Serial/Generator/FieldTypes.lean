import Ros2Serial.Generator.Grammar

/-!
# The types of fields

The words of the grammar consist of type characters, so a type is one word of
its line and has no comment sign.  It has an equals sign exactly when it has a
bound (`FieldType.equals_mem_iff`).

`fieldType_text` is the result for the types without bound: the parser takes
the package, the brackets and the name apart and finds the row of the table
that the type stands for.
-/

namespace Ros2Serial.Generator

open PyText

/-! ## Characters -/

/-- The characters of types and names. -/
def isTypeChar (c : Char) : Bool :=
  isWordChar c || c == '/' || c == '[' || c == ']' || c == '<' || c == '='

theorem isTypeChar_of_isWordChar {c : Char} (h : isWordChar c = true) : isTypeChar c = true := by
  simp [isTypeChar, h]

theorem isWordChar_of_isDigit {c : Char} (h : c.isDigit = true) : isWordChar c = true := by
  simp [isWordChar, Char.isAlphanum, h]

theorem isUpper_range {c : Char} (h : c.isUpper = true) : 65 ≤ c.toNat ∧ c.toNat ≤ 90 := by
  obtain ⟨hlow, hhigh⟩ := of_decide_eq_true h
  exact ⟨UInt32.le_iff_toNat_le.mp hlow, UInt32.le_iff_toNat_le.mp hhigh⟩

theorem isLower_range {c : Char} (h : c.isLower = true) : 97 ≤ c.toNat ∧ c.toNat ≤ 122 := by
  obtain ⟨hlow, hhigh⟩ := Bool.and_eq_true_iff.mp h
  exact ⟨UInt32.le_iff_toNat_le.mp (of_decide_eq_true hlow),
    UInt32.le_iff_toNat_le.mp (of_decide_eq_true hhigh)⟩

/-- The characters of types lie between `/` and `z`. -/
theorem isTypeChar_range {c : Char} (h : isTypeChar c = true) :
    47 ≤ c.toNat ∧ c.toNat ≤ 122 := by
  simp only [isTypeChar, isWordChar, Bool.or_eq_true, beq_iff_eq] at h
  rcases h with (((((halnum | rfl) | rfl) | rfl) | rfl) | rfl) | rfl
  · rcases Bool.or_eq_true_iff.mp halnum with halpha | hdigit
    · rcases Bool.or_eq_true_iff.mp halpha with hupper | hlower
      · have := isUpper_range hupper
        omega
      · have := isLower_range hlower
        omega
    · have hrange := Char.isDigit_iff_toNat.mp hdigit
      have : '0'.toNat = 48 ∧ '9'.toNat = 57 := ⟨rfl, rfl⟩
      omega
  all_goals decide

theorem isSpace_of_isTypeChar {c : Char} (h : isTypeChar c = true) : isSpace c = false := by
  have hrange := isTypeChar_range h
  simp [isSpace]
  omega

theorem isBlank_of_isTypeChar {c : Char} (h : isTypeChar c = true) : isBlank c = false := by
  rw [← Bool.not_eq_true]
  intro hblank
  exact absurd (isSpace_of_isBlank hblank) (by simp [isSpace_of_isTypeChar h])

theorem hash_of_blanks {blanks : Text} (h : ∀ c ∈ blanks, isBlank c = true) : '#' ∉ blanks :=
  fun hmem => absurd (h _ hmem) (by decide)

theorem hash_of_typeChars {text : Text} (h : ∀ c ∈ text, isTypeChar c = true) : '#' ∉ text :=
  fun hmem => absurd (h _ hmem) (by decide)

theorem equals_of_blanks {blanks : Text} (h : ∀ c ∈ blanks, isBlank c = true) : '=' ∉ blanks :=
  fun hmem => absurd (h _ hmem) (by decide)

theorem equals_of_wordChars {text : Text} (h : ∀ c ∈ text, isWordChar c = true) : '=' ∉ text :=
  fun hmem => absurd (h _ hmem) (by decide)

theorem spaces_of_blanks {blanks : Text} (h : ∀ c ∈ blanks, isBlank c = true) :
    ∀ c ∈ blanks, isSpace c = true :=
  fun c hc => isSpace_of_isBlank (h c hc)

/-! ## The type of a field -/

theorem Primitive.key_spec (p : Primitive) :
    p.key ≠ [] ∧ p.key.all isWordChar = true := by
  cases p <;> decide

/-- A base type without bound is a word, with a package in front or not. -/
theorem BaseType.text_eq (base : BaseType) (h : ∀ n, base ≠ .string (some n)) :
    ∃ word : Word, base.text = word.1 ∨
      ∃ package : Word, base.text = package.1 ++ '/' :: word.1 := by
  rcases base with p | bound | ⟨package, name⟩
  · exact ⟨⟨p.key, p.key_spec⟩, .inl rfl⟩
  · rcases bound with _ | n
    · exact ⟨⟨"string".toList, by decide⟩, .inl rfl⟩
    · exact absurd rfl (h n)
  · rcases package with _ | package
    · exact ⟨name.1, .inl rfl⟩
    · exact ⟨name.1, .inr ⟨package, rfl⟩⟩

theorem typeChars_append {left right : Text} (hleft : ∀ c ∈ left, isTypeChar c = true)
    (hright : ∀ c ∈ right, isTypeChar c = true) : ∀ c ∈ left ++ right, isTypeChar c = true := by
  intro c hc
  rcases List.mem_append.mp hc with hc | hc
  · exact hleft c hc
  · exact hright c hc

theorem word_typeChars (word : Word) : ∀ c ∈ word.1, isTypeChar c = true :=
  fun c hc => isTypeChar_of_isWordChar (word.wordChars c hc)

theorem numeral_typeChars (n : Numeral) : ∀ c ∈ n.1, isTypeChar c = true :=
  fun c hc => isTypeChar_of_isWordChar (isWordChar_of_isDigit (n.digits c hc))

theorem BaseType.text_spec (base : BaseType) :
    base.text ≠ [] ∧ ∀ c ∈ base.text, isTypeChar c = true := by
  by_cases hbound : ∃ n, base = .string (some n)
  · obtain ⟨n, rfl⟩ := hbound
    exact ⟨List.append_ne_nil_of_left_ne_nil (by decide) _,
      typeChars_append (List.all_eq_true.mp (by decide)) (numeral_typeChars n)⟩
  · obtain ⟨word, heq | ⟨package, heq⟩⟩ := base.text_eq (not_exists.mp hbound)
    · rw [heq]
      exact ⟨word.2.1, word_typeChars word⟩
    · rw [heq]
      refine ⟨by simp, typeChars_append (word_typeChars package) ?_⟩
      have hslash : ∀ c ∈ ['/'], isTypeChar c = true := List.all_eq_true.mp rfl
      exact typeChars_append hslash (word_typeChars word)

theorem Brackets.text_typeChars (brackets : Brackets) :
    ∀ c ∈ brackets.text, isTypeChar c = true := by
  have hclose : ∀ c ∈ "]".toList, isTypeChar c = true := List.all_eq_true.mp (by decide)
  rcases brackets with _ | _ | n | n
  · exact List.forall_mem_nil _
  · exact List.all_eq_true.mp (by decide)
  · have hopen : ∀ c ∈ ['['], isTypeChar c = true := List.all_eq_true.mp rfl
    exact typeChars_append (typeChars_append hopen (numeral_typeChars n)) hclose
  · have hopen : ∀ c ∈ "[<=".toList, isTypeChar c = true := List.all_eq_true.mp (by decide)
    exact typeChars_append (typeChars_append hopen (numeral_typeChars n)) hclose

theorem FieldType.text_typeChars (type : FieldType) : ∀ c ∈ type.text, isTypeChar c = true :=
  typeChars_append type.base.text_spec.2 type.brackets.text_typeChars

theorem FieldType.text_ne_nil (type : FieldType) : type.text ≠ [] := by
  simp [FieldType.text, type.base.text_spec.1]

theorem FieldType.text_trimmed (type : FieldType) : Trimmed type.text :=
  trimmed_of_forall type.text_ne_nil fun c hc => isSpace_of_isTypeChar (type.text_typeChars c hc)

theorem FieldType.text_no_blank (type : FieldType) : ∀ c ∈ type.text, isBlank c = false :=
  fun c hc => isBlank_of_isTypeChar (type.text_typeChars c hc)

/-- The equals signs of a type are the ones of its bounds. -/
theorem FieldType.equals_mem_iff (type : FieldType) : '=' ∈ type.text ↔ ¬type.Unbounded := by
  obtain ⟨base, brackets⟩ := type
  constructor
  · rintro hmem ⟨hbase, hbrackets⟩
    rcases List.mem_append.mp hmem with hmem | hmem
    · obtain ⟨word, heq | ⟨package, heq⟩⟩ := base.text_eq hbase
      · exact equals_of_wordChars word.wordChars (heq ▸ hmem)
      · rw [heq] at hmem
        rcases List.mem_append.mp hmem with hmem | hmem
        · exact equals_of_wordChars package.wordChars hmem
        · rcases List.mem_cons.mp hmem with hmem | hmem
          · exact absurd hmem (by decide)
          · exact equals_of_wordChars word.wordChars hmem
    · rcases brackets with _ | _ | n | n
      · exact absurd hmem (List.not_mem_nil)
      · exact absurd (show '=' ∈ "[]".toList from hmem) (by decide)
      · have hdigits : '=' ∈ n.1 := by simpa [Brackets.text] using hmem
        exact absurd (n.digits _ hdigits) (by decide)
      · exact hbrackets n rfl
  · intro hbound
    by_contra hmem
    refine hbound ⟨?_, ?_⟩
    · intro n hn
      subst hn
      exact hmem (List.mem_append_left _ (List.mem_append_left _ (by decide)))
    · intro n hn
      subst hn
      exact hmem (List.mem_append_right _ (List.mem_append_left _ (List.mem_append_left _
        (by decide))))

/-- What the parser keeps of the brackets. -/
def Brackets.array : Brackets → Option (Option Int)
  | .absent => none
  | .fixed n => some (some (decimal n.1))
  | .unbounded | .bounded _ => some none

theorem wordChars_not_mem {text : Text} (h : ∀ c ∈ text, isWordChar c = true) {c : Char}
    (hc : isWordChar c = false) : c ∉ text :=
  fun hmem => absurd (h c hmem) (by simp [hc])

theorem Brackets.slash_not_mem (brackets : Brackets) : '/' ∉ brackets.text := by
  rcases brackets with _ | _ | n | n
  · decide
  · decide
  all_goals
    have hdigits : '/' ∉ n.1 := fun hmem => absurd (n.digits _ hmem) (by decide)
    simp [Brackets.text, hdigits]

theorem arrayOf_brackets (word : Word) {brackets : Brackets} (h : ∀ n, brackets ≠ .bounded n) :
    arrayOf (word.1 ++ brackets.text) = (brackets.array, word.1) := by
  have hopen : '[' ∉ word.1 := wordChars_not_mem word.wordChars (by decide)
  have hpos : (word.1.length : Int) > 0 := by
    have := List.length_pos_iff.mpr word.2.1
    omega
  have hsize : ∀ digits : Text, ']' ∉ digits →
      arrayOf (word.1 ++ '[' :: (digits ++ "]".toList)) = (some (toInt digits), word.1) := by
    intro digits hdigits
    have hclose : ']' ∉ word.1 ++ '[' :: digits := by
      simp [wordChars_not_mem word.wordChars (c := ']') (by decide), hdigits]
    have hfindClose : find ']' (word.1 ++ '[' :: (digits ++ "]".toList)) =
        (word.1 ++ '[' :: digits).length := by
      rw [← find_append hclose []]
      simp
    rw [arrayOf, find_append hopen, if_pos hpos, slice_zero, List.take_left, hfindClose]
    have hsplit : word.1 ++ '[' :: (digits ++ "]".toList) =
        word.1 ++ ['['] ++ (digits ++ "]".toList) := by simp
    rw [hsplit, ← Nat.cast_succ, slice_append _ _ _ (by simp) (by simp; omega)]
  rcases brackets with _ | _ | n | n
  · rw [Brackets.text, List.append_nil, arrayOf, find_of_not_mem hopen, if_neg (by decide)]
    rfl
  · exact hsize [] (by simp)
  · refine (hsize n.1 fun hmem => absurd (n.digits _ hmem) (by decide)).trans ?_
    rw [toInt_digits n.2.1 n.digits]
    rfl
  · exact absurd rfl (h n)

/-- The rows of the primitive types. -/
theorem lookup_key (p : Primitive) :
    rosToEmbeddedTypes.lookup p.key =
      some ⟨p.codeType, p.width.bytes, .primitiveDataType, []⟩ := by
  cases p <;> rfl

/-- The names of message types are not in the table. -/
theorem lookup_typeName (name : TypeName) : rosToEmbeddedTypes.lookup name.1.1 = none := by
  have hlower : ∀ row ∈ rosToEmbeddedTypes, row.1.head?.any Char.isUpper = false := by decide
  rw [List.lookup_eq_none_iff]
  intro row hrow
  rw [bne_iff_ne]
  intro heq
  have hcase := hlower row hrow
  rw [← heq, name.2] at hcase
  exact Bool.noConfusion hcase

section

variable (underscore : Text → Text) (package : Text)

theorem lookupType_of_lookup {typeName : Text} {row : EmbeddedType}
    (h : rosToEmbeddedTypes.lookup typeName = some row) (typePackage : Option Text) :
    lookupType underscore package typePackage typeName = row := by
  rw [lookupType, h]

theorem lookupType_message (name : TypeName) (typePackage : Option Text) :
    lookupType underscore package typePackage name.1.1 =
      { codeType := typePackage.getD package ++ "::msg::".toList ++ name.1.1
        size := 0
        cls := .messageDataType
        includes := [fullInclude underscore (typePackage.getD package) name.1.1] } := by
  rw [lookupType, lookup_typeName]

/-- The class, the element type and the size of the array are the ones of the
type. -/
theorem dataTypeOf_brackets (type : FieldType) (name : Text) {row : EmbeddedType}
    (hcode : row.codeType = type.base.codeType package) (hsize : row.size = type.base.size)
    (hcls : row.cls = type.base.cls) :
    dataTypeOf name row type.brackets.array = type.dataType package name := by
  rw [FieldType.dataType, ← hcode, ← hsize, ← hcls]
  cases type.brackets <;> rfl

/-- The words of a type in the line, taken apart. -/
theorem fieldType_of_packageOf {ty name : Text} {typePackage : Option Text} {word : Word}
    {brackets : Brackets} (hbrackets : ∀ n, brackets ≠ .bounded n)
    (h : packageOf ty = (typePackage, word.1 ++ brackets.text)) :
    fieldType underscore package ty name =
      dataTypeOf name (lookupType underscore package typePackage word.1) brackets.array := by
  rw [fieldType, h, arrayOf_brackets word hbrackets]

theorem packageOf_word (word : Word) (brackets : Brackets) :
    packageOf (word.1 ++ brackets.text) = (none, word.1 ++ brackets.text) := by
  have hslash : '/' ∉ word.1 ++ brackets.text := by
    simp [wordChars_not_mem word.wordChars (c := '/') (by decide), brackets.slash_not_mem]
  rw [packageOf, List.splitOn_eq_singleton hslash]

theorem packageOf_slash (typePackage word : Word) (brackets : Brackets) :
    packageOf (typePackage.1 ++ '/' :: word.1 ++ brackets.text) =
      (some typePackage.1, word.1 ++ brackets.text) := by
  have hslash : '/' ∉ word.1 ++ brackets.text := by
    simp [wordChars_not_mem word.wordChars (c := '/') (by decide), brackets.slash_not_mem]
  rw [packageOf, List.append_assoc, List.cons_append,
    List.splitOn_append_cons_self_of_not_mem
      (wordChars_not_mem typePackage.wordChars (by decide)),
    List.splitOn_eq_singleton hslash]

/-- A field whose type has no bound gets the entry of its type. -/
theorem fieldType_text {type : FieldType} (h : type.Unbounded) (name : Text) :
    fieldType underscore package type.text name = type.dataType package name := by
  obtain ⟨base, brackets⟩ := type
  obtain ⟨hbase, hbrackets⟩ := h
  rcases base with p | bound | ⟨typePackage, typeName⟩
  · refine (fieldType_of_packageOf underscore package hbrackets
      (packageOf_word ⟨p.key, p.key_spec⟩ brackets)).trans ?_
    rw [lookupType_of_lookup underscore package (lookup_key p)]
    exact dataTypeOf_brackets package ⟨.primitive p, brackets⟩ name rfl rfl rfl
  · rcases bound with _ | n
    · have hrow : rosToEmbeddedTypes.lookup "string".toList =
          some ⟨"char*".toList, 0, .stringDataType, []⟩ := rfl
      refine (fieldType_of_packageOf underscore package hbrackets
        (packageOf_word ⟨"string".toList, by decide⟩ brackets)).trans ?_
      rw [lookupType_of_lookup underscore package hrow]
      exact dataTypeOf_brackets package ⟨.string none, brackets⟩ name rfl rfl rfl
    · exact absurd rfl (hbase n)
  · rcases typePackage with _ | typePackage
    · refine (fieldType_of_packageOf underscore package hbrackets
        (packageOf_word typeName.1 brackets)).trans ?_
      rw [lookupType_message]
      exact dataTypeOf_brackets package ⟨.message none typeName, brackets⟩ name rfl rfl rfl
    · refine (fieldType_of_packageOf underscore package hbrackets
        (packageOf_slash typePackage typeName.1 brackets)).trans ?_
      rw [lookupType_message]
      exact dataTypeOf_brackets package ⟨.message (some typePackage) typeName, brackets⟩ name
        rfl rfl rfl

/-- The name of an entry. -/
def DataType.name : DataType → Text
  | .element _ name _ _ => name
  | .arrayDataType name _ _ _ _ => name

theorem fieldType_name (ty name : Text) : (fieldType underscore package ty name).name = name := by
  unfold fieldType
  cases (arrayOf (packageOf ty).2).1 <;> rfl

end

theorem FieldType.dataType_name (type : FieldType) (package name : Text) :
    (type.dataType package name).name = name := by
  obtain ⟨base, brackets⟩ := type
  cases brackets <;> rfl

end Ros2Serial.Generator
