import Ros2Serial.Generator.FieldTypes

/-!
# The scan of a line

A line is followed from the left.  `scanLine_append` takes it as spacing, a
head without comment sign, and the rest, and gives the content that is left of
it when the parser has removed the comment.  `scanLine_glued` is the same for a
comment that follows the head at once: there the last character of the head is
lost.

The lemmas on `scanContent` say what becomes of the content: it is skipped when
its type has a bound, it is no field when it has an equals sign, and otherwise
its first two words are type and name.
-/

namespace Ros2Serial.Generator

open PyText

/-! ## Comments -/

theorem beforeComment_of_not_mem {text : Text} (h : '#' ∉ text) : beforeComment text = text :=
  if_neg h

theorem beforeComment_hash {before : Text} (h : '#' ∉ before) (after : Text) :
    beforeComment (before ++ '#' :: after) = before.dropLast := by
  have htake : (before ++ '#' :: after).takeWhile (· ≠ '#') = before := by
    rw [List.takeWhile_append_of_pos]
    · simp
    · intro c hc
      simp only [ne_eq, decide_not, Bool.not_eq_eq_eq_not, Bool.not_true, decide_eq_false_iff_not]
      intro heq
      subst heq
      exact h hc
  rw [beforeComment, if_pos (by simp), htake]

/-- A text with a `#` at its first occurrence. -/
theorem hash_cases (text : Text) :
    '#' ∉ text ∨ ∃ before after, '#' ∉ before ∧ text = before ++ '#' :: after := by
  by_cases h : '#' ∈ text
  · obtain ⟨before, after, heq, hbefore⟩ := List.eq_append_cons_of_mem h
    exact .inr ⟨before, after, hbefore, heq⟩
  · exact .inl h

/-- The comment of a text is the one of its right part when the left part has
none and the right part does not start with it. -/
theorem beforeComment_append {left : Text} (hleft : '#' ∉ left) {right : Text}
    (hright : right.head? ≠ some '#') :
    beforeComment (left ++ right) = left ++ beforeComment right := by
  rcases hash_cases right with h | ⟨before, after, hbefore, rfl⟩
  · rw [beforeComment_of_not_mem h, beforeComment_of_not_mem (by simp [hleft, h])]
  · have hne : before ≠ [] := by
      intro heq
      subst heq
      exact hright rfl
    rw [← List.append_assoc, beforeComment_hash (by simp [hleft, hbefore]),
      beforeComment_hash hbefore, List.dropLast_append_of_ne_nil hne]

theorem stripComment_eq {text : Text} (h : text.head? ≠ some '#') :
    stripComment text = beforeComment text := by
  rcases hash_cases text with hmem | ⟨before, after, hbefore, rfl⟩
  · rw [stripComment, find_of_not_mem hmem, if_neg (by decide), beforeComment_of_not_mem hmem]
  · have hne : before ≠ [] := by
      intro heq
      subst heq
      exact h rfl
    have hlength := List.length_pos_iff.mpr hne
    have hcut : (before.length : Int) - 1 = (before.length - 1 : Nat) := by omega
    rw [stripComment, find_append hbefore, if_pos (by omega), hcut, slice_zero,
      beforeComment_hash hbefore, List.take_append_of_le_length (by omega),
      List.dropLast_eq_take]

theorem rstrip_hash (comment : Text) : rstrip ('#' :: comment) = '#' :: rstrip comment := by
  have hhash : rstrip ['#'] = ['#'] := by decide
  exact rstrip_append hhash comment

theorem head?_of_le {before text : Text} (h : before <+: text) {c : Char}
    (hc : before.head? = some c) : text.head? = some c := by
  obtain ⟨after, rfl⟩ := h
  rw [List.head?_append, hc]
  rfl

theorem beforeComment_le (text : Text) : beforeComment text <+: text := by
  unfold beforeComment
  split
  · exact (List.dropLast_prefix _).trans (List.takeWhile_prefix _)
  · exact List.prefix_rfl

/-- Spaces at the end of the line do not matter to the content. -/
theorem rstrip_beforeComment (text : Text) :
    rstrip (beforeComment (rstrip text)) = rstrip (beforeComment text) := by
  rcases hash_cases text with h | ⟨before, after, hbefore, rfl⟩
  · rw [beforeComment_of_not_mem h, beforeComment_of_not_mem fun hmem => h (mem_of_mem_rstrip hmem),
      rstrip_rstrip]
  · have hlast : rstrip (before ++ ['#']) = before ++ ['#'] := rstrip_concat (by decide) before
    have hstrip : rstrip (before ++ '#' :: after) = before ++ '#' :: rstrip after := by
      simpa using rstrip_append hlast after
    rw [hstrip, beforeComment_hash hbefore, beforeComment_hash hbefore]

/-! ## The content of a line -/

theorem scanLine_of_rstrip {line content : Text} (h : rstrip (lstrip line) = content)
    (hne : content ≠ []) (hhash : content.head? ≠ some '#') :
    scanLine line = scanContent (rstrip (strip (stripComment content))) := by
  have hlength : content.length ≠ 0 := by simpa using hne
  rw [scanLine, rstrip_strip, strip, h, if_neg hlength, if_neg hhash]

theorem head?_append_ne_hash {head : Text} (hne : head ≠ []) (hhash : '#' ∉ head) (rest : Text) :
    (head ++ rest).head? ≠ some '#' := by
  obtain ⟨c, tail, rfl⟩ := List.exists_cons_of_ne_nil hne
  intro heq
  injection heq with heq
  exact hhash (by simp [heq])

/-- The content of a line with a head and a rest that does not start with the
comment. -/
theorem scanLine_append {lead head rest : Text} (hlead : ∀ c ∈ lead, isBlank c = true)
    (hhead : Trimmed head) (hhash : '#' ∉ head) (hrest : rest.head? ≠ some '#') :
    scanLine (lead ++ (head ++ rest)) = scanContent (head ++ rstrip (beforeComment rest)) := by
  have hcontent : rstrip (lstrip (lead ++ (head ++ rest))) = head ++ rstrip rest := by
    rw [lstrip_spaces_append (spaces_of_blanks hlead), lstrip_append hhead.2.1 hhead.1,
      rstrip_append hhead.2.2]
  have hstart : (head ++ rstrip rest).head? ≠ some '#' := head?_append_ne_hash hhead.1 hhash _
  have hrest' : (rstrip rest).head? ≠ some '#' := fun h =>
    hrest (head?_of_le (List.rdropWhile_prefix _ _) h)
  rw [scanLine_of_rstrip hcontent (by simp [hhead.1]) hstart, stripComment_eq hstart,
    beforeComment_append hhash hrest', rstrip_strip, strip, lstrip_append hhead.2.1 hhead.1,
    rstrip_append hhead.2.2, rstrip_beforeComment]

/-- The content of a line whose comment follows the head at once. -/
theorem scanLine_glued {lead head : Text} (hlead : ∀ c ∈ lead, isBlank c = true)
    (hhead : Trimmed head) (hhash : '#' ∉ head) (comment : Text) :
    scanLine (lead ++ (head ++ '#' :: comment)) = scanContent (strip head.dropLast) := by
  have hcontent : rstrip (lstrip (lead ++ (head ++ '#' :: comment))) =
      head ++ '#' :: rstrip comment := by
    rw [lstrip_spaces_append (spaces_of_blanks hlead), lstrip_append hhead.2.1 hhead.1,
      rstrip_append hhead.2.2, rstrip_hash]
  have hstart := head?_append_ne_hash hhead.1 hhash ('#' :: rstrip comment)
  rw [scanLine_of_rstrip hcontent (by simp) hstart, stripComment_eq hstart,
    beforeComment_hash hhash, rstrip_strip]

theorem scanLine_blank (spacing : Spacing) : scanLine spacing.1 = .skipped := by
  have hspaces := spaces_of_blanks spacing.blank
  have hnil : lstrip spacing.1 = [] := List.dropWhile_eq_nil_iff.mpr hspaces
  rw [scanLine, rstrip_strip, strip, hnil]
  rfl

theorem scanLine_comment (lead : Spacing) (text : Text) :
    scanLine (lead.1 ++ '#' :: text) = .skipped := by
  have hhash : lstrip ['#'] = ['#'] := by decide
  have hleft : lstrip ('#' :: text) = '#' :: text := lstrip_append hhash (by simp) text
  have hcontent : strip (lead.1 ++ '#' :: text) = '#' :: rstrip text := by
    rw [strip_spaces_append (spaces_of_blanks lead.blank), strip, hleft, rstrip_hash]
  rw [scanLine, rstrip_strip, hcontent]
  rfl

/-! ## Scanning the content -/

/-- A type with a bound is cut at the equals sign of the bound. -/
theorem scanContent_bounded {type : FieldType} (h : ¬type.Unbounded) (rest : Text) :
    scanContent (type.text ++ rest) = .skipped := by
  obtain ⟨before, after, heq, hbefore⟩ :=
    List.eq_append_cons_of_mem (type.equals_mem_iff.mpr h)
  have hblank : ∀ c ∈ before, isBlank c = false := fun c hc =>
    type.text_no_blank c (by simp [heq, hc])
  have hwords := words_of_no_blank hblank
  rw [scanContent, heq, List.append_assoc, List.cons_append, find_append hbefore,
    if_pos (by omega), if_pos (by omega), slice_zero, List.take_left]
  rcases hcases : words before with _ | ⟨word, _ | ⟨other, rest⟩⟩
  · rfl
  · rfl
  · simp [hcases] at hwords

/-- A content with an equals sign is no field. -/
theorem scanContent_equals (underscore : Text → Text) (package : Text) {content : Text}
    (h : '=' ∈ content) : (scanContent content).dataType? underscore package = none := by
  obtain ⟨before, after, rfl, hbefore⟩ := List.eq_append_cons_of_mem h
  rw [scanContent, find_append hbefore, if_pos (by omega), if_pos (by omega)]
  split <;> simp_all [Scanned.dataType?]

/-- A content without one is a field when it has two words. -/
theorem scanContent_field {content ty name : Text} {others : List Text} (h : '=' ∉ content)
    (hwords : words content = ty :: name :: others) : scanContent content = .field ty name := by
  rw [scanContent, find_of_not_mem h, if_neg (by decide), if_neg (by decide), hwords]

/-- Everything after the first equals sign is the value. -/
theorem scanContent_enumeration {before ty name : Text} {others : List Text} (h : '=' ∉ before)
    (hwords : words before = ty :: name :: others) (after : Text) :
    scanContent (before ++ '=' :: after) = .enumeration ⟨name, ty, strip after⟩ := by
  have hcut : (before.length : Int) + 1 = (before ++ ['=']).length := by simp
  have hafter : before ++ '=' :: after = before ++ ['='] ++ after := by simp
  rw [scanContent, find_append h, if_pos (by omega), if_pos (by omega), slice_zero,
    List.take_left, hwords, hcut, hafter, sliceFrom_append]

end Ros2Serial.Generator
