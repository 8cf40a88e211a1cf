import Ros2Serial.Generator.LineScan

/-!
# What the parser makes of the lines of the grammar

The content of a field is its head and the part of the default that the comment
leaves.  The content of a constant is its head, the equals sign and such a part
of its value.  `Line.adds_iff` says for each line when its entries are the ones
it stands for.

A line never adds more entries to `data` than it stands for, nor to `enums`
when the fields are right.  So when the entries of all lines are the right ones,
each line has added its own (`init_exact_iff`).
-/

namespace Ros2Serial.Generator

open PyText

/-! ## Declarations -/

theorem Declaration.name_trimmed (d : Declaration) : Trimmed d.name.1 :=
  trimmed_of_forall d.name.2.1 fun c hc => isSpace_of_isTypeChar (word_typeChars d.name c hc)

theorem Declaration.head_trimmed (d : Declaration) : Trimmed d.head :=
  d.type.text_trimmed.append d.name_trimmed d.gap.1

theorem Declaration.head_hash (d : Declaration) : '#' ∉ d.head := by
  simp only [Declaration.head, List.mem_append, not_or]
  exact ⟨hash_of_typeChars d.type.text_typeChars, hash_of_blanks d.gap.blank,
    hash_of_typeChars (word_typeChars d.name)⟩

theorem Declaration.head_equals {d : Declaration} (h : d.type.Unbounded) : '=' ∉ d.head := by
  simp only [Declaration.head, List.mem_append, not_or]
  exact ⟨fun hmem => d.type.equals_mem_iff.mp hmem h, equals_of_blanks d.gap.blank,
    equals_of_wordChars d.name.wordChars⟩

/-- The words after the type and the gap. -/
theorem Declaration.words_type (d : Declaration) (rest : Text) :
    words (d.type.text ++ (d.gap.1 ++ rest)) = d.type.text :: words rest := by
  obtain ⟨c, gap, hgap⟩ := List.exists_cons_of_ne_nil d.gap.2.1
  have hblanks : ∀ b ∈ c :: gap, isBlank b = true := hgap ▸ d.gap.blank
  rw [hgap, List.cons_append,
    words_word_cons d.type.text_ne_nil d.type.text_no_blank (hblanks c (by simp)),
    words_blanks_append fun b hb => hblanks b (by simp [hb])]

theorem words_name {name : Text} (hne : name ≠ []) (hname : ∀ c ∈ name, isWordChar c = true)
    {rest : Text} (hrest : ∀ c ∈ rest.head?, isBlank c = true) :
    words (name ++ rest) = name :: words rest := by
  have hblank : ∀ c ∈ name, isBlank c = false := fun c hc =>
    isBlank_of_isTypeChar (isTypeChar_of_isWordChar (hname c hc))
  cases rest with
  | nil =>
    rw [List.append_nil, words_word hne hblank]
    rfl
  | cons c rest =>
    have hc : isBlank c = true := hrest c rfl
    rw [words_word_cons hne hblank hc, words_blank_cons hc]

theorem Declaration.words_head (d : Declaration) {rest : Text}
    (hrest : ∀ c ∈ rest.head?, isBlank c = true) :
    words (d.head ++ rest) = d.type.text :: d.name.1 :: words rest := by
  rw [Declaration.head, List.append_assoc, List.append_assoc, d.words_type,
    words_name d.name.2.1 d.name.wordChars hrest]

/-! ## Fields -/

theorem Tail.head?_text (tail : Tail) :
    (tail.text.head? = some '#' ↔ ¬tail.Separated) ∧
      ∀ c ∈ tail.text.head?, c = '#' ∨ isBlank c = true := by
  obtain ⟨⟨spacing, hall⟩, comment⟩ := tail
  have hspacing := Spacing.blank ⟨spacing, hall⟩
  cases spacing with
  | nil => cases comment <;> simp [Tail.text, Tail.Separated]
  | cons c spacing =>
    have hc : isBlank c = true := hspacing c (by simp)
    have hne : c ≠ '#' := by
      intro heq
      subst heq
      exact absurd hc (by decide)
    simp [Tail.text, Tail.Separated, hc, hne]

/-- The part of a line behind `T name`. -/
def fieldRest : Option Default → Tail → Text
  | none, tail => tail.text
  | some default, tail => default.text ++ tail.text

theorem Line.text_field (d : Declaration) (default : Option Default) (tail : Tail) :
    (Line.field d default tail).text = d.lead.1 ++ (d.head ++ fieldRest default tail) := by
  cases default <;> rfl

theorem Default.head?_text (default : Default) (rest : Text) :
    ∃ c ∈ (default.text ++ rest).head?, isBlank c = true := by
  obtain ⟨c, gap, hgap⟩ := List.exists_cons_of_ne_nil default.gap.2.1
  refine ⟨c, by simp [Default.text, hgap], default.gap.blank c (by simp [hgap])⟩

/-- The rest of a field starts with the comment or with a blank. -/
theorem head?_fieldRest (default : Option Default) (tail : Tail) :
    ∀ c ∈ (fieldRest default tail).head?, c = '#' ∨ isBlank c = true := by
  cases default with
  | none => exact tail.head?_text.2
  | some default =>
    obtain ⟨b, hb, hblank⟩ := default.head?_text tail.text
    intro c hc
    rw [fieldRest, hb] at hc
    injection hc with hc
    exact .inr (hc ▸ hblank)

theorem Tail.beforeComment_text (tail : Tail) : '=' ∉ beforeComment tail.text := by
  have hspacing := equals_of_blanks tail.spacing.blank
  rcases hcomment : tail.comment with _ | comment
  · rw [Tail.text, hcomment, List.append_nil,
      beforeComment_of_not_mem (hash_of_blanks tail.spacing.blank)]
    exact hspacing
  · rw [Tail.text, hcomment, beforeComment_hash (hash_of_blanks tail.spacing.blank)]
    exact fun hmem => hspacing (List.dropLast_subset _ hmem)

theorem Line.plain_field_iff (d : Declaration) (default : Option Default) (tail : Tail) :
    (Line.field d default tail).Plain ↔
      d.type.Unbounded ∧ (fieldRest default tail).head? ≠ some '#' ∧
        '=' ∉ beforeComment (fieldRest default tail) := by
  cases default with
  | none =>
    rw [Line.Plain, fieldRest, Ne, tail.head?_text.1, not_not]
    simp [tail.beforeComment_text]
  | some default =>
    obtain ⟨c, hc, hblank⟩ := default.head?_text tail.text
    have hne : (default.text ++ tail.text).head? ≠ some '#' := by
      rw [hc]
      intro heq
      injection heq with heq
      exact absurd hblank (by rw [heq]; decide)
    exact ⟨fun h => ⟨h.1, hne, h.2⟩, fun h => ⟨h.1, h.2.2⟩⟩

/-- A field that is read as one. -/
theorem scanLine_field {d : Declaration} {default : Option Default} {tail : Tail}
    (h : (Line.field d default tail).Plain) :
    scanLine (Line.field d default tail).text = .field d.type.text d.name.1 := by
  obtain ⟨hbound, hstart, hequals⟩ := (Line.plain_field_iff d default tail).mp h
  rw [Line.text_field, scanLine_append d.lead.blank d.head_trimmed d.head_hash hstart]
  have hrest : ∀ c ∈ (rstrip (beforeComment (fieldRest default tail))).head?,
      isBlank c = true := by
    intro c hc
    have hfirst : (fieldRest default tail).head? = some c :=
      head?_of_le ((List.rdropWhile_prefix _ _).trans (beforeComment_le _)) hc
    rcases head?_fieldRest default tail c hfirst with rfl | hblank
    · exact absurd hfirst hstart
    · exact hblank
  refine scanContent_field ?_ (d.words_head hrest)
  simp only [List.mem_append, not_or]
  exact ⟨Declaration.head_equals hbound, fun hmem => hequals (mem_of_mem_rstrip hmem)⟩

/-- A field with a bound adds nothing. -/
theorem scanLine_field_bounded {d : Declaration} (h : ¬d.type.Unbounded)
    (default : Option Default) (tail : Tail) :
    scanLine (Line.field d default tail).text = .skipped := by
  rw [Line.text_field]
  by_cases hstart : (fieldRest default tail).head? = some '#'
  · obtain ⟨comment, hcomment⟩ := List.head?_eq_some_iff.mp hstart
    have hname : d.gap.1 ++ d.name.1 ≠ [] := by simp [d.name.2.1]
    rw [hcomment, scanLine_glued d.lead.blank d.head_trimmed d.head_hash, Declaration.head,
      List.dropLast_append_of_ne_nil hname, strip,
      lstrip_append d.type.text_trimmed.2.1 d.type.text_ne_nil,
      rstrip_append d.type.text_trimmed.2.2]
    exact scanContent_bounded h _
  · rw [scanLine_append d.lead.blank d.head_trimmed d.head_hash hstart, Declaration.head,
      List.append_assoc]
    exact scanContent_bounded h _

section

variable (underscore : Text → Text) (package : Text)

/-- With the comment at its name, a field loses the last character of the name:
it adds nothing, or an entry of another name. -/
theorem scanLine_field_glued {d : Declaration} (h : d.type.Unbounded) {default : Option Default}
    {tail : Tail} (hstart : (fieldRest default tail).head? = some '#') :
    (scanLine (Line.field d default tail).text).dataType? underscore package ≠
      some (d.type.dataType package d.name.1) := by
  obtain ⟨comment, hcomment⟩ := List.head?_eq_some_iff.mp hstart
  obtain ⟨name, last, hname⟩ := (List.eq_nil_or_concat' d.name.1).resolve_left d.name.2.1
  have hhead : d.head.dropLast = d.type.text ++ (d.gap.1 ++ name) := by
    rw [Declaration.head, hname, ← List.append_assoc, ← List.append_assoc,
      List.dropLast_concat, List.append_assoc]
  have hchars : ∀ c ∈ name, isWordChar c = true := fun c hc =>
    d.name.wordChars c (by simp [hname, hc])
  have htype : '=' ∉ d.type.text := fun hmem => d.type.equals_mem_iff.mp hmem h
  rw [Line.text_field, hcomment, scanLine_glued d.lead.blank d.head_trimmed d.head_hash, hhead]
  by_cases hnil : name = []
  · have hstrip : strip (d.type.text ++ (d.gap.1 ++ name)) = d.type.text := by
      rw [hnil, List.append_nil, strip, lstrip_append d.type.text_trimmed.2.1 d.type.text_ne_nil,
        rstrip_append d.type.text_trimmed.2.2, rstrip_spaces (spaces_of_blanks d.gap.blank),
        List.append_nil]
    rw [hstrip, scanContent, find_of_not_mem htype, if_neg (by decide), if_neg (by decide),
      words_word d.type.text_ne_nil d.type.text_no_blank]
    simp [Scanned.dataType?]
  · have htrimmed : Trimmed name := trimmed_of_forall hnil fun c hc =>
      isSpace_of_isTypeChar (isTypeChar_of_isWordChar (hchars c hc))
    have hequals : '=' ∉ d.type.text ++ (d.gap.1 ++ name) := by
      simp only [List.mem_append, not_or]
      exact ⟨htype, equals_of_blanks d.gap.blank, equals_of_wordChars hchars⟩
    have hwords : words (d.type.text ++ (d.gap.1 ++ name)) = [d.type.text, name] := by
      have hlast : words (name ++ []) = name :: words [] := words_name hnil hchars (by simp)
      rw [List.append_nil] at hlast
      rw [d.words_type, hlast]
      rfl
    rw [(d.type.text_trimmed.append htrimmed d.gap.1).strip_eq, scanContent_field hequals hwords]
    intro heq
    injection heq with heq
    have hnames := congrArg DataType.name heq
    rw [fieldType_name, FieldType.dataType_name, hname] at hnames
    simpa using congrArg List.length hnames

/-- A field is read as the entry it stands for exactly when it is plain. -/
theorem Line.field_iff (d : Declaration) (default : Option Default) (tail : Tail) :
    (scanLine (Line.field d default tail).text).dataType? underscore package =
        some (d.type.dataType package d.name.1) ↔ (Line.field d default tail).Plain := by
  constructor
  · intro h
    rw [Line.plain_field_iff]
    have hbound : d.type.Unbounded := by
      by_contra hbound
      rw [scanLine_field_bounded hbound] at h
      simp [Scanned.dataType?] at h
    have hstart : (fieldRest default tail).head? ≠ some '#' := fun hstart =>
      scanLine_field_glued underscore package hbound hstart h
    refine ⟨hbound, hstart, fun hmem => ?_⟩
    rw [Line.text_field, scanLine_append d.lead.blank d.head_trimmed d.head_hash hstart,
      scanContent_equals] at h
    · simp at h
    · exact List.mem_append_right _ (mem_rstrip (by decide) hmem)
  · intro h
    have hbound := ((Line.plain_field_iff d default tail).mp h).1
    rw [scanLine_field h]
    exact congrArg some (fieldType_text underscore package hbound d.name.1)

end

/-! ## Constants -/

/-- The part of a constant up to its equals sign. -/
theorem constant_head (d : Declaration) (before : Spacing) :
    Trimmed (d.head ++ (before.1 ++ ['='])) ∧ '#' ∉ d.head ++ (before.1 ++ ['=']) := by
  refine ⟨d.head_trimmed.append (by decide) before.1, ?_⟩
  simp [d.head_hash, hash_of_blanks before.blank]

theorem Literal.head?_text (value : Literal) : value.text.head? ≠ some '#' := by
  intro h
  obtain ⟨rest, hrest⟩ := List.head?_eq_some_iff.mp h
  have hhashes := value.hashes
  rw [hrest] at hhashes
  rcases hhashes with hmem | hquoted
  · exact hmem (by simp)
  · exact absurd hquoted (by simp [quoted])

/-- The value that is left of a constant. -/
theorem strip_beforeComment_iff (value : Literal) (tail : Tail) :
    strip (beforeComment (value.text ++ tail.text)) = value.text ↔
      '#' ∉ value.text ∧ tail.Separated := by
  have hvalue := value.trimmed
  have hshort : ∀ text : Text, text.length < value.text.length → strip text ≠ value.text := by
    intro text hlength heq
    have := strip_length_le text
    rw [heq] at this
    omega
  have hspaces : ∀ spaces : Text, (∀ c ∈ spaces, isBlank c = true) →
      strip (value.text ++ spaces) = value.text := by
    intro spaces hspaces
    rw [strip, lstrip_append hvalue.2.1 hvalue.1, rstrip_append hvalue.2.2,
      rstrip_spaces (spaces_of_blanks hspaces), List.append_nil]
  rcases hash_cases value.text with hmem | ⟨before, after, hbefore, heq⟩
  · obtain ⟨⟨spacing, hall⟩, comment⟩ := tail
    have hspacing := Spacing.blank ⟨spacing, hall⟩
    have hleft : '#' ∉ value.text ++ spacing := by simp [hmem, hash_of_blanks hspacing]
    rcases comment with _ | comment
    · simp only [Tail.text, List.append_nil, beforeComment_of_not_mem hleft, hspaces _ hspacing]
      simp [hmem, Tail.Separated]
    · simp only [Tail.text, ← List.append_assoc, beforeComment_hash hleft]
      by_cases hnil : spacing = []
      · refine ⟨fun h => absurd h (hshort _ ?_), fun h => absurd hnil (h.2 (by simp))⟩
        have := List.length_pos_iff.mpr hvalue.1
        simp [hnil]
        omega
      · rw [List.dropLast_append_of_ne_nil hnil,
          hspaces _ fun c hc => hspacing c (List.dropLast_subset _ hc)]
        simp [hmem, Tail.Separated, hnil]
  · refine ⟨fun h => absurd h (hshort _ ?_), fun h => absurd (by simp [heq]) h.1⟩
    rw [heq, List.append_assoc, List.cons_append, beforeComment_hash hbefore]
    simp
    omega

theorem head?_append_value (after : Spacing) (value : Literal) (rest : Text) :
    (after.1 ++ (value.text ++ rest)).head? ≠ some '#' := by
  have hafter := after.blank
  obtain ⟨after, hall⟩ := after
  cases after with
  | nil =>
    obtain ⟨c, text, htext⟩ := List.exists_cons_of_ne_nil value.trimmed.1
    have hhead := value.head?_text
    rw [htext] at hhead
    simpa [htext] using hhead
  | cons c after =>
    intro h
    injection h with h
    exact absurd (hafter c (by simp)) (by rw [h]; decide)

/-- The content of a constant. -/
theorem scanLine_constant (d : Declaration) (before after : Spacing) (value : Literal)
    (tail : Tail) :
    scanLine (Line.constant d before after value tail).text =
      scanContent (d.head ++ (before.1 ++ '=' ::
        rstrip (after.1 ++ beforeComment (value.text ++ tail.text)))) := by
  obtain ⟨htrimmed, hhash⟩ := constant_head d before
  have htext : (Line.constant d before after value tail).text =
      d.lead.1 ++ ((d.head ++ (before.1 ++ ['='])) ++
        (after.1 ++ (value.text ++ tail.text))) := by simp [Line.text]
  have hvalue : (value.text ++ tail.text).head? ≠ some '#' :=
    head?_append_value ⟨[], by simp⟩ value tail.text
  rw [htext, scanLine_append d.lead.blank htrimmed hhash (head?_append_value after value tail.text),
    beforeComment_append (hash_of_blanks after.blank) hvalue]
  simp

/-- A constant with a bound in its type adds nothing. -/
theorem scanLine_constant_bounded {d : Declaration} (h : ¬d.type.Unbounded)
    (before after : Spacing) (value : Literal) (tail : Tail) :
    scanLine (Line.constant d before after value tail).text = .skipped := by
  rw [scanLine_constant, Declaration.head, List.append_assoc]
  exact scanContent_bounded h _

/-- Another constant adds its name, its type and what the comment leaves of its
value. -/
theorem scanLine_constant_unbounded {d : Declaration} (h : d.type.Unbounded)
    (before after : Spacing) (value : Literal) (tail : Tail) :
    scanLine (Line.constant d before after value tail).text =
      .enumeration ⟨d.name.1, d.type.text,
        strip (beforeComment (value.text ++ tail.text))⟩ := by
  have hequals : '=' ∉ d.head ++ before.1 := by
    simp [Declaration.head_equals h, equals_of_blanks before.blank]
  have hblank : ∀ c ∈ before.1.head?, isBlank c = true := fun c hc =>
    before.blank c (List.mem_of_mem_head? hc)
  have hwords := d.words_head hblank
  rw [scanLine_constant, ← List.append_assoc, scanContent_enumeration hequals hwords,
    strip_rstrip, strip_spaces_append (spaces_of_blanks after.blank)]

theorem Line.constant_iff (d : Declaration) (before after : Spacing) (value : Literal)
    (tail : Tail) :
    (scanLine (Line.constant d before after value tail).text).enumeration? =
        some ⟨d.name.1, d.type.text, value.text⟩ ↔
      (Line.constant d before after value tail).Plain := by
  rw [Line.Plain, ← strip_beforeComment_iff]
  by_cases h : d.type.Unbounded
  · rw [scanLine_constant_unbounded h]
    simp [Scanned.enumeration?, h]
  · rw [scanLine_constant_bounded h]
    simp [Scanned.enumeration?, h]

/-! ## Definitions -/

/-- When no element gives more under `f` than under `g`, the results agree only
element by element. -/
theorem filterMap_eq_iff {α β : Type} {f g : α → Option β} {l : List α}
    (hle : ∀ a ∈ l, (f a).isSome → (g a).isSome) :
    l.filterMap f = l.filterMap g ↔ ∀ a ∈ l, f a = g a := by
  have hlength : ∀ k : List α, (∀ a ∈ k, (f a).isSome → (g a).isSome) →
      (k.filterMap f).length ≤ (k.filterMap g).length := by
    intro k hk
    rw [List.length_filterMap_eq_countP, List.length_filterMap_eq_countP]
    exact List.countP_mono_left hk
  refine ⟨fun heq => ?_, fun h => List.filterMap_congr h⟩
  induction l with
  | nil => simp
  | cons a l ih =>
    have hrest : ∀ b ∈ l, (f b).isSome → (g b).isSome := fun b hb => hle b (by simp [hb])
    rw [List.filterMap_cons, List.filterMap_cons] at heq
    rcases hf : f a with _ | b
    · rcases hg : g a with _ | c
      · rw [hf, hg] at heq
        rintro d (_ | ⟨_, hd⟩)
        · rw [hf, hg]
        · exact ih hrest heq d hd
      · -- one entry too few here cannot be made up for later
        rw [hf, hg] at heq
        have hshort := hlength l hrest
        have hlong := congrArg List.length heq
        simp only [List.length_cons] at hlong
        omega
    · obtain ⟨c, hg⟩ := Option.isSome_iff_exists.mp (hle a (by simp) (by simp [hf]))
      rw [hf, hg] at heq
      injection heq with hhead htail
      rintro d (_ | ⟨_, hd⟩)
      · rw [hf, hg, hhead]
      · exact ih hrest htail d hd

section

variable (underscore : Text → Text) (package : Text)

/-- Only fields add to `data`. -/
theorem Line.dataType?_le (line : Line)
    (h : ((scanLine line.text).dataType? underscore package).isSome) :
    (line.dataType? package).isSome := by
  rcases line with spacing | ⟨lead, text⟩ | ⟨d, before, after, value, tail⟩ | ⟨d, default, tail⟩
  · rw [Line.text, scanLine_blank] at h
    simp [Scanned.dataType?] at h
  · rw [Line.text, scanLine_comment] at h
    simp [Scanned.dataType?] at h
  · rw [scanLine_constant, scanContent_equals _ _ (by simp)] at h
    simp at h
  · rfl

/-- Only constants add to `enums`, as long as the fields are read as fields. -/
theorem Line.enumeration?_le (line : Line)
    (hdata : (scanLine line.text).dataType? underscore package = line.dataType? package)
    (h : (scanLine line.text).enumeration?.isSome) : line.enumeration?.isSome := by
  rcases line with spacing | ⟨lead, text⟩ | ⟨d, before, after, value, tail⟩ | ⟨d, default, tail⟩
  · rw [Line.text, scanLine_blank] at h
    simp [Scanned.enumeration?] at h
  · rw [Line.text, scanLine_comment] at h
    simp [Scanned.enumeration?] at h
  · rfl
  · have hplain := (Line.field_iff underscore package d default tail).mp hdata
    rw [scanLine_field hplain] at h
    simp [Scanned.enumeration?] at h

/-- A line adds the entries it stands for exactly when it is plain. -/
theorem Line.adds_iff (line : Line) :
    ((scanLine line.text).dataType? underscore package = line.dataType? package ∧
      (scanLine line.text).enumeration? = line.enumeration?) ↔ line.Plain := by
  rcases line with spacing | ⟨lead, text⟩ | ⟨d, before, after, value, tail⟩ | ⟨d, default, tail⟩
  · rw [Line.text, scanLine_blank]
    exact ⟨fun _ => trivial, fun _ => ⟨rfl, rfl⟩⟩
  · rw [Line.text, scanLine_comment]
    exact ⟨fun _ => trivial, fun _ => ⟨rfl, rfl⟩⟩
  · rw [← Line.constant_iff]
    refine ⟨fun h => h.2, fun h => ⟨?_, h⟩⟩
    rw [scanLine_constant]
    exact scanContent_equals _ _ (by simp)
  · rw [← Line.field_iff underscore package]
    refine ⟨fun h => h.1, fun h => ⟨h, ?_⟩⟩
    rw [scanLine_field ((Line.field_iff underscore package d default tail).mp h)]
    rfl

/-- Over a definition whose lines are lines of the grammar, the parser builds
exactly the entries of the fields and the constants, in order, if and only if
every line is plain. -/
theorem init_exact_iff (definition : Text) (lines : List Line)
    (hlines : splitlines definition = lines.map Line.text) :
    ((Message.init underscore package definition).data = lines.filterMap (Line.dataType? package) ∧
      (Message.init underscore package definition).enums = lines.filterMap Line.enumeration?) ↔
      ∀ line ∈ lines, line.Plain := by
  obtain ⟨hdata, henums⟩ := Message.init_spec underscore package definition
  rw [hdata, henums, hlines, List.filterMap_map, List.filterMap_map, Function.comp_def,
    Function.comp_def, filterMap_eq_iff fun line _ => Line.dataType?_le underscore package line]
  constructor
  · rintro ⟨hdata, henums⟩ line hline
    rw [filterMap_eq_iff fun line hline =>
      Line.enumeration?_le underscore package line (hdata line hline)] at henums
    exact (Line.adds_iff underscore package line).mp ⟨hdata line hline, henums line hline⟩
  · intro hplain
    have hexact := fun line hline =>
      (Line.adds_iff underscore package line).mpr (hplain line hline)
    exact ⟨fun line hline => (hexact line hline).1,
      List.filterMap_congr fun line hline => (hexact line hline).2⟩

end

/-! ## Two definitions -/

instance (type : FieldType) : Decidable type.Unbounded :=
  decidable_of_iff ('=' ∉ type.text) (by rw [type.equals_mem_iff, not_not])

instance (tail : Tail) : Decidable tail.Separated :=
  inferInstanceAs (Decidable (_ → _))

instance : (line : Line) → Decidable line.Plain
  | .blank _ => isTrue trivial
  | .comment _ _ => isTrue trivial
  | .constant _ _ _ _ _ => inferInstanceAs (Decidable (_ ∧ _ ∧ _))
  | .field _ none _ => inferInstanceAs (Decidable (_ ∧ _))
  | .field _ (some _) _ => inferInstanceAs (Decidable (_ ∧ _))

/-- `T name` with one blank in between. -/
def declare (base : BaseType) (brackets : Brackets) (name : Word) : Declaration :=
  ⟨⟨[], by decide⟩, ⟨base, brackets⟩, ⟨" ".toList, by decide⟩, name⟩

/-- A blank, and a comment. -/
def remark : Tail :=
  ⟨⟨" ".toList, by decide⟩, some " a=b".toList⟩

/-- A definition with a constant, a default and an array of messages. -/
def plainLines : List Line :=
  [.comment ⟨[], by decide⟩ " plain".toList,
   .blank ⟨"\t".toList, by decide⟩,
   .constant (declare (.primitive .uint8) .absent ⟨"MAX".toList, by decide⟩)
     ⟨" ".toList, by decide⟩ ⟨" ".toList, by decide⟩ ⟨"7".toList, by decide, by decide⟩ remark,
   .field (declare (.string none) .absent ⟨"label".toList, by decide⟩)
     (some ⟨⟨" ".toList, by decide⟩, ⟨"\"#1\"".toList, by decide, by decide⟩, by decide⟩) remark,
   .field (declare (.message (some ⟨"geometry_msgs".toList, by decide⟩)
       ⟨⟨"Point".toList, by decide⟩, by decide⟩) (.fixed ⟨"04".toList, by decide⟩)
     ⟨"corners".toList, by decide⟩) none remark]

def plainDefinition : Text :=
  "# plain\n\t\nuint8 MAX = 7 # a=b\r\n".toList ++
    "string label \"#1\" # a=b\ngeometry_msgs/Point[04] corners # a=b".toList

/-- The plain definition is read as it stands. -/
theorem plainDefinition_exact :
    (Message.init id "shapes".toList plainDefinition).data =
        [.element .stringDataType "label".toList "char*".toList 0,
         .arrayDataType "corners".toList "geometry_msgs::msg::Point".toList 0
           .messageDataType (some 4)] ∧
      (Message.init id "shapes".toList plainDefinition).enums =
        [⟨"MAX".toList, "uint8".toList, "7".toList⟩] := by
  exact (init_exact_iff id "shapes".toList plainDefinition plainLines (by decide)).mpr (by decide)

/-- A bound, a glued comment, an equals sign in a default and a `#` in the value
of a constant. -/
def brokenLines : List Line :=
  [.field (declare (.primitive .uint8) (.bounded ⟨"4".toList, by decide⟩)
     ⟨"samples".toList, by decide⟩) none ⟨⟨[], by decide⟩, none⟩,
   .field (declare (.primitive .uint8) .absent ⟨"level".toList, by decide⟩) none
     ⟨⟨[], by decide⟩, some "raw".toList⟩,
   .field (declare (.string none) .absent ⟨"query".toList, by decide⟩)
     (some ⟨⟨" ".toList, by decide⟩, ⟨"\"a=b\"".toList, by decide, by decide⟩, by decide⟩)
     ⟨⟨[], by decide⟩, none⟩,
   .constant (declare (.string none) .absent ⟨"SIGN".toList, by decide⟩) ⟨[], by decide⟩
     ⟨[], by decide⟩ ⟨"\"a#b\"".toList, by decide, by decide⟩ ⟨⟨[], by decide⟩, none⟩]

def brokenDefinition : Text :=
  "uint8[<=4] samples\nuint8 level#raw\nstring query \"a=b\"\nstring SIGN=\"a#b\"".toList

/-- The parser drops the first field, renames the second, makes the third a
constant, and cuts the constant. -/
theorem brokenDefinition_not_exact :
    splitlines brokenDefinition = brokenLines.map Line.text ∧
      (Message.init id "demo".toList brokenDefinition).data =
        [.element .primitiveDataType "leve".toList "uint8_t".toList 1] ∧
      (Message.init id "demo".toList brokenDefinition).data ≠
        brokenLines.filterMap (Line.dataType? "demo".toList) ∧
      (Message.init id "demo".toList brokenDefinition).enums =
        [⟨"query".toList, "string".toList, "b\"".toList⟩,
         ⟨"SIGN".toList, "string".toList, "\"".toList⟩] ∧
      (Message.init id "demo".toList brokenDefinition).enums ≠
        brokenLines.filterMap Line.enumeration? := by
  decide

end Ros2Serial.Generator
