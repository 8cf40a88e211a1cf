import Mathlib.Data.List.DropRight
import Mathlib.Data.List.Infix
import Mathlib.Tactic.Common

/-!
# Python's text operations

The operations of `str` that a line parser is made of: `splitlines`, `strip`,
`find`, slices, `split` and `int`.  A text is the list of its code points.

Two kinds of lemma follow the definitions.  The ones about `strip`, `find` and
`slice` say what an operation does to a text that is written as a
concatenation, so that a parser can be followed along the parts of a line.  The
ones about `words` read the words of a line off from the left.
-/

namespace PyText

/-- A `str` as its code points. -/
abbrev Text := List Char

/-- `str.isspace` of one code point. -/
def isSpace (c : Char) : Bool :=
  let n := c.toNat
  (0x09 ≤ n && n ≤ 0x0D) || (0x1C ≤ n && n ≤ 0x20) || n == 0x85 || n == 0xA0 || n == 0x1680 ||
    (0x2000 ≤ n && n ≤ 0x200A) || n == 0x2028 || n == 0x2029 || n == 0x202F || n == 0x205F ||
    n == 0x3000

/-- The code points at which `str.splitlines` ends a line. -/
def isLineBreak (c : Char) : Bool :=
  let n := c.toNat
  (0x0A ≤ n && n ≤ 0x0D) || (0x1C ≤ n && n ≤ 0x1E) || n == 0x85 || n == 0x2028 || n == 0x2029

/-- The lines of a text, with the current line reversed in `line`. -/
def splitlinesFrom (line : Text) : Text → List Text
  | [] => if line.isEmpty then [] else [line.reverse]
  | '\r' :: '\n' :: text => line.reverse :: splitlinesFrom [] text
  | c :: text =>
    if isLineBreak c then line.reverse :: splitlinesFrom [] text
    else splitlinesFrom (c :: line) text

/-- `text.splitlines()`. -/
def splitlines (text : Text) : List Text :=
  splitlinesFrom [] text

/-- `text.lstrip()`. -/
def lstrip (text : Text) : Text :=
  text.dropWhile isSpace

/-- `text.rstrip()`. -/
def rstrip (text : Text) : Text :=
  text.rdropWhile isSpace

/-- `text.strip()`. -/
def strip (text : Text) : Text :=
  rstrip (lstrip text)

/-- `text.find(c)`. -/
def find (c : Char) (text : Text) : Int :=
  if c ∈ text then text.idxOf c else -1

/-- `word in text`. -/
def contains (word text : Text) : Bool :=
  decide (word <:+: text)

/-- The position that a slice bound means: a negative one counts from the end. -/
def bound (text : Text) (i : Int) : Nat :=
  if i < 0 then (text.length + i).toNat else i.toNat

/-- `text[start:stop]`. -/
def slice (text : Text) (start stop : Int) : Text :=
  (text.take (bound text stop)).drop (bound text start)

/-- `text[start:]`. -/
def sliceFrom (text : Text) (start : Int) : Text :=
  text.drop (bound text start)

/-- `text.replace(old, new)` for single characters. -/
def replace (old new : Char) (text : Text) : Text :=
  text.map fun c => if c = old then new else c

/-- The words of a line: tabs become blanks, the text is split at blanks, and
empty pieces are removed. -/
def words (text : Text) : List Text :=
  ((replace '\t' ' ' text).splitOn ' ').filter (· ≠ [])

/-- The value of a decimal digit. -/
def digitValue (c : Char) : Nat :=
  c.toNat - 48

/-- The rest of a numeral after a digit.  An underscore may stand between two
digits. -/
def numeralFrom (value : Nat) : Text → Option Nat
  | [] => some value
  | '_' :: c :: text =>
    if c.isDigit then numeralFrom (10 * value + digitValue c) text else none
  | c :: text => if c.isDigit then numeralFrom (10 * value + digitValue c) text else none

/-- A numeral without a sign. -/
def numeral : Text → Option Nat
  | [] => none
  | c :: text => if c.isDigit then numeralFrom (digitValue c) text else none

/-- `int(text)`, where `none` is `ValueError`.  Digits are ASCII digits, and
there is no limit on their number. -/
def toInt (text : Text) : Option Int :=
  match strip text with
  | '-' :: digits => (numeral digits).map fun n => -(n : Int)
  | '+' :: digits => (numeral digits).map fun n => (n : Int)
  | digits => (numeral digits).map fun n => (n : Int)

/-! ## `strip` -/

/-- A text without white space at its ends. -/
def Trimmed (text : Text) : Prop :=
  text ≠ [] ∧ lstrip text = text ∧ rstrip text = text

instance (text : Text) : Decidable (Trimmed text) :=
  inferInstanceAs (Decidable (_ ∧ _ ∧ _))

theorem lstrip_spaces_append {spaces : Text} (hspaces : ∀ c ∈ spaces, isSpace c = true)
    (text : Text) : lstrip (spaces ++ text) = lstrip text := by
  rw [lstrip, List.dropWhile_append, List.dropWhile_eq_nil_iff.mpr hspaces]
  rfl

theorem lstrip_append {text : Text} (h : lstrip text = text) (hne : text ≠ []) (rest : Text) :
    lstrip (text ++ rest) = text ++ rest := by
  rw [lstrip] at h
  rw [lstrip, List.dropWhile_append, h, if_neg]
  simpa using hne

theorem rstrip_spaces {spaces : Text} (hspaces : ∀ c ∈ spaces, isSpace c = true) :
    rstrip spaces = [] :=
  List.rdropWhile_eq_nil_iff.mpr hspaces

theorem dropWhile_reverse {text : Text} (h : rstrip text = text) :
    text.reverse.dropWhile isSpace = text.reverse := by
  rw [← List.reverse_reverse (text.reverse.dropWhile isSpace)]
  exact congrArg List.reverse h

theorem rstrip_append {text : Text} (h : rstrip text = text) (rest : Text) :
    rstrip (text ++ rest) = text ++ rstrip rest := by
  simp only [rstrip, List.rdropWhile, List.reverse_append, List.dropWhile_append,
    dropWhile_reverse h]
  split
  · rename_i hempty
    rw [List.isEmpty_iff.mp hempty]
    simp
  · simp

theorem rstrip_append_of_ne_nil {text : Text} (h : rstrip text = text) (hne : text ≠ [])
    (before : Text) : rstrip (before ++ text) = before ++ text := by
  rw [rstrip, List.rdropWhile, List.reverse_append, List.dropWhile_append, dropWhile_reverse h,
    if_neg (by simpa using hne)]
  simp

theorem rstrip_concat {c : Char} (hc : isSpace c = false) (text : Text) :
    rstrip (text ++ [c]) = text ++ [c] :=
  List.rdropWhile_concat_neg _ _ _ (by simp [hc])

@[simp] theorem rstrip_rstrip (text : Text) : rstrip (rstrip text) = rstrip text :=
  List.rdropWhile_idempotent _ _

@[simp] theorem rstrip_strip (text : Text) : rstrip (strip text) = strip text :=
  rstrip_rstrip _

theorem lstrip_rstrip (text : Text) : lstrip (rstrip text) = rstrip (lstrip text) := by
  induction text with
  | nil => rfl
  | cons c text ih =>
    cases hc : isSpace c with
    | true =>
      have hl : lstrip (c :: text) = lstrip text := by simp [lstrip, hc]
      rw [hl, ← ih]
      by_cases hspaces : ∀ d ∈ text, isSpace d = true
      · rw [rstrip_spaces hspaces, rstrip_spaces]
        intro d hd
        rcases List.mem_cons.mp hd with rfl | hd
        · exact hc
        · exact hspaces d hd
      · have hne : rstrip text ≠ [] := fun h => hspaces (List.rdropWhile_eq_nil_iff.mp h)
        have hr : rstrip (c :: text) = c :: rstrip text := by
          simp only [rstrip, List.rdropWhile, List.reverse_cons, List.dropWhile_append] at hne ⊢
          rw [if_neg (by simpa using hne)]
          simp
        rw [hr]
        simp [lstrip, hc]
    | false =>
      have hl : lstrip (c :: text) = c :: text := by simp [lstrip, hc]
      have hr : rstrip (c :: text) = c :: rstrip text :=
        rstrip_append (rstrip_concat hc []) text
      rw [hl, hr]
      simp [lstrip, hc]

/-- The order of the two strips does not matter. -/
@[simp] theorem strip_rstrip (text : Text) : strip (rstrip text) = strip text := by
  rw [strip, lstrip_rstrip, rstrip_rstrip, strip]

theorem strip_spaces_append {spaces : Text} (hspaces : ∀ c ∈ spaces, isSpace c = true)
    (text : Text) : strip (spaces ++ text) = strip text := by
  rw [strip, lstrip_spaces_append hspaces, strip]

theorem strip_length_le (text : Text) : (strip text).length ≤ text.length :=
  (List.rdropWhile_prefix _ _).length_le.trans (List.dropWhile_suffix _).length_le

theorem mem_of_mem_rstrip {c : Char} {text : Text} (h : c ∈ rstrip text) : c ∈ text :=
  (List.rdropWhile_prefix _ _).mem h

/-- Only white space is stripped. -/
theorem mem_rstrip {c : Char} (hc : isSpace c = false) {text : Text} (h : c ∈ text) :
    c ∈ rstrip text := by
  obtain ⟨before, after, rfl⟩ := List.append_of_mem h
  rw [List.append_cons, rstrip_append (rstrip_concat hc before)]
  simp

theorem Trimmed.strip_eq {text : Text} (h : Trimmed text) : strip text = text := by
  rw [strip, h.2.1, h.2.2]

theorem Trimmed.append {left right : Text} (hleft : Trimmed left) (hright : Trimmed right)
    (middle : Text) : Trimmed (left ++ (middle ++ right)) := by
  refine ⟨by simp [hleft.1], lstrip_append hleft.2.1 hleft.1 _, ?_⟩
  rw [← List.append_assoc]
  exact rstrip_append_of_ne_nil hright.2.2 hright.1 _

theorem trimmed_of_forall {text : Text} (hne : text ≠ [])
    (h : ∀ c ∈ text, isSpace c = false) : Trimmed text := by
  refine ⟨hne, ?_, ?_⟩
  · obtain ⟨c, rest, rfl⟩ := List.exists_cons_of_ne_nil hne
    simp [lstrip, h c (by simp)]
  · obtain ⟨before, c, rfl⟩ := (List.eq_nil_or_concat' text).resolve_left hne
    exact rstrip_concat (h c (by simp)) before

/-! ## `find` and slices -/

theorem find_of_not_mem {c : Char} {text : Text} (h : c ∉ text) : find c text = -1 :=
  if_neg h

theorem find_append {c : Char} {before : Text} (h : c ∉ before) (after : Text) :
    find c (before ++ c :: after) = before.length := by
  rw [find, if_pos (by simp), List.idxOf_append_of_notMem h]
  simp

@[simp] theorem bound_natCast (text : Text) (n : Nat) : bound text n = n := by
  rw [bound, if_neg (by omega), Int.toNat_natCast]

theorem slice_zero (text : Text) (n : Nat) : slice text 0 n = text.take n := by
  rw [slice, bound_natCast]
  rfl

theorem slice_append (before text after : Text) {start stop : Nat}
    (hstart : start = before.length) (hstop : stop = before.length + text.length) :
    slice (before ++ (text ++ after)) start stop = text := by
  subst hstart hstop
  rw [slice, bound_natCast, bound_natCast, ← List.append_assoc,
    List.take_left' (List.length_append ..), List.drop_left]

theorem sliceFrom_append (before text : Text) :
    sliceFrom (before ++ text) before.length = text := by
  rw [sliceFrom, bound_natCast, List.drop_left]

/-! ## Words -/

/-- The characters that separate words. -/
def isBlank (c : Char) : Bool :=
  c == ' ' || c == '\t'

theorem isSpace_of_isBlank {c : Char} (h : isBlank c = true) : isSpace c = true := by
  have hc : c = ' ' ∨ c = '\t' := by simpa [isBlank] using h
  rcases hc with rfl | rfl <;> decide

theorem words_blank_cons {c : Char} (hc : isBlank c = true) (text : Text) :
    words (c :: text) = words text := by
  have hreplace : replace '\t' ' ' (c :: text) = [] ++ ' ' :: replace '\t' ' ' text := by
    have hc : c = ' ' ∨ c = '\t' := by simpa [isBlank] using hc
    rcases hc with rfl | rfl <;> rfl
  rw [words, hreplace, List.splitOn_append_cons_self]
  rfl

theorem words_blanks_append {blanks : Text} (hblanks : ∀ c ∈ blanks, isBlank c = true)
    (text : Text) : words (blanks ++ text) = words text := by
  induction blanks with
  | nil => rfl
  | cons c blanks ih =>
    rw [List.cons_append, words_blank_cons (hblanks c (by simp)),
      ih fun d hd => hblanks d (by simp [hd])]

theorem replace_word {word : Text} (h : ∀ c ∈ word, isBlank c = false) :
    replace '\t' ' ' word = word ∧ ' ' ∉ word := by
  refine ⟨?_, fun hmem => absurd (h _ hmem) (by decide)⟩
  rw [replace]
  refine (List.map_congr_left fun c hc => if_neg ?_).trans (List.map_id word)
  intro heq
  subst heq
  exact absurd (h _ hc) (by decide)

/-- A text without blanks is one word at most. -/
theorem words_of_no_blank {word : Text} (h : ∀ c ∈ word, isBlank c = false) :
    (words word).length ≤ 1 := by
  obtain ⟨hreplace, hsep⟩ := replace_word h
  rw [words, hreplace, List.splitOn_eq_singleton hsep]
  exact List.length_filter_le _ _

theorem words_word {word : Text} (hne : word ≠ []) (h : ∀ c ∈ word, isBlank c = false) :
    words word = [word] := by
  obtain ⟨hreplace, hsep⟩ := replace_word h
  rw [words, hreplace, List.splitOn_eq_singleton hsep]
  simp [hne]

/-- A word ends at the next blank. -/
theorem words_word_cons {word : Text} (hne : word ≠ []) (h : ∀ c ∈ word, isBlank c = false)
    {c : Char} (hc : isBlank c = true) (rest : Text) :
    words (word ++ c :: rest) = word :: words rest := by
  obtain ⟨hreplace, hsep⟩ := replace_word h
  have hblank : replace '\t' ' ' (word ++ c :: rest) = word ++ ' ' :: replace '\t' ' ' rest := by
    have hc : c = ' ' ∨ c = '\t' := by simpa [isBlank] using hc
    rw [replace, List.map_append, ← replace, hreplace]
    rcases hc with rfl | rfl <;> rfl
  rw [words, hblank, List.splitOn_append_cons_self_of_not_mem hsep]
  simp [hne, words]

/-! ## Numerals -/

/-- The number that decimal digits denote. -/
def decimal (digits : Text) : Nat :=
  digits.foldl (fun value c => 10 * value + digitValue c) 0

theorem numeralFrom_digits {digits : Text} (h : ∀ c ∈ digits, c.isDigit = true) (value : Nat) :
    numeralFrom value digits =
      some (digits.foldl (fun value c => 10 * value + digitValue c) value) := by
  induction digits generalizing value with
  | nil => rfl
  | cons c digits ih =>
    have hc := h c (by simp)
    rw [numeralFrom.eq_def]
    split
    · simp_all
    · rename_i heq
      injection heq with heq _
      subst heq
      exact absurd hc (by decide)
    · rename_i heq
      injection heq with h1 h2
      subst h1 h2
      rw [if_pos hc, ih fun d hd => h d (by simp [hd])]
      rfl

theorem isSpace_of_isDigit {c : Char} (h : c.isDigit = true) : isSpace c = false := by
  have hrange : 48 ≤ c.toNat ∧ c.toNat ≤ 57 := Char.isDigit_iff_toNat.mp h
  simp [isSpace]
  omega

theorem toInt_digits {digits : Text} (hne : digits ≠ []) (h : ∀ c ∈ digits, c.isDigit = true) :
    toInt digits = some (decimal digits) := by
  rw [toInt, (trimmed_of_forall hne fun c hc => isSpace_of_isDigit (h c hc)).strip_eq]
  obtain ⟨c, rest, rfl⟩ := List.exists_cons_of_ne_nil hne
  have hc := h c (by simp)
  have hnumeral : numeral (c :: rest) = some (decimal (c :: rest)) := by
    rw [numeral, if_pos hc, numeralFrom_digits fun d hd => h d (by simp [hd])]
    simp [decimal]
  split
  · rename_i heq
    injection heq with heq _
    subst heq
    exact absurd hc (by decide)
  · rename_i heq
    injection heq with heq _
    subst heq
    exact absurd hc (by decide)
  · rw [hnumeral]
    rfl

end PyText
