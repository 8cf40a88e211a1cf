import Mathlib.Data.List.Basic
import Mathlib.Tactic.Common

/-!
# Reading a stream on request

A reader asks for a number of symbols under a label, gets them, and chooses the
next request by what it has got so far.  Its history `Follows` the requests.

What such a reader has got is a matter of the stream alone.  Two histories on
streams of which one begins with the other agree as far as they both go
(`Follows.agree`), and the longer stream has the longer history once its reader
waits (`Follows.isPrefix`).
-/

namespace Ros2Serial.Requests

variable {κ α : Type} {request : List (κ × List α) → κ × Nat} {handed other : List (κ × List α)}

/-- Each entry is what was requested after those before it. -/
def Follows (request : List (κ × List α) → κ × Nat) (handed : List (κ × List α)) : Prop :=
  ∀ done entry, done ++ [entry] <+: handed → request done = (entry.1, entry.2.length)

theorem follows_nil : Follows request [] := by
  rintro done entry ⟨more, hmore⟩
  simp at hmore

theorem Follows.append (h : Follows request handed) {label : κ} {symbols : List α}
    (hnext : request handed = (label, symbols.length)) :
    Follows request (handed ++ [(label, symbols)]) := by
  intro done entry hdone
  rcases List.prefix_concat_iff.mp hdone with heq | hbefore
  · obtain ⟨rfl, hentry⟩ := List.append_inj' heq rfl
    obtain rfl := (List.cons.inj hentry).1
    exact hnext
  · exact h done entry hbefore

/-- The first entries of a history are a first part of the stream. -/
theorem flatMap_take_le (handed : List (κ × List α)) (rest : List α) (i : Nat) :
    (handed.take i).flatMap Prod.snd <+: handed.flatMap Prod.snd ++ rest := by
  refine ⟨(handed.drop i).flatMap Prod.snd ++ rest, ?_⟩
  rw [← List.append_assoc, ← List.flatMap_append, List.take_append_drop]

/-- Histories on streams of which one begins with the other agree. -/
theorem Follows.agree (h : Follows request handed) (h' : Follows request other)
    {rest rest' : List α}
    (hstream : handed.flatMap Prod.snd ++ rest <+: other.flatMap Prod.snd ++ rest') {i : Nat}
    (hi : i ≤ handed.length) (hi' : i ≤ other.length) : handed.take i = other.take i := by
  induction i with
  | zero => rfl
  | succ i ih =>
    have hsame := ih (Nat.le_of_succ_le hi) (Nat.le_of_succ_le hi')
    have htake := List.take_succ_eq_append_getElem hi
    have htake' := List.take_succ_eq_append_getElem hi'
    have hrequest := h (handed.take i) handed[i] (htake ▸ List.take_prefix (i + 1) handed)
    have hrequest' := h' (other.take i) other[i] (htake' ▸ List.take_prefix (i + 1) other)
    rw [hsame, hrequest', Prod.mk.injEq] at hrequest
    obtain ⟨hlabel, hlength⟩ := hrequest
    -- both are first parts of the longer stream
    have hpart := (flatMap_take_le handed rest (i + 1)).trans hstream
    have hpart' := flatMap_take_le other rest' (i + 1)
    rw [htake, hsame, List.flatMap_append, List.flatMap_singleton] at hpart
    rw [htake', List.flatMap_append, List.flatMap_singleton] at hpart'
    have hlengths : ((other.take i).flatMap Prod.snd ++ handed[i].2).length =
        ((other.take i).flatMap Prod.snd ++ other[i].2).length := by
      rw [List.length_append, List.length_append, hlength]
    have hboth := List.prefix_of_prefix_length_le hpart hpart' (Nat.le_of_eq hlengths)
    have hsymbols := hboth.eq_of_length hlengths
    rw [htake, htake', hsame, Prod.ext hlabel.symm (List.append_cancel_left hsymbols)]

/-- A reader whose next request is for more than the rest of the stream has got all that a
reader of less has got. -/
theorem Follows.isPrefix (h : Follows request handed) (h' : Follows request other)
    {rest rest' : List α}
    (hstream : handed.flatMap Prod.snd ++ rest <+: other.flatMap Prod.snd ++ rest')
    (hshort : rest'.length < (request other).2) : handed <+: other := by
  rcases Nat.lt_or_ge other.length handed.length with hmore | hless
  · exfalso
    have hsame := h.agree h' hstream (Nat.le_of_lt hmore) (Nat.le_refl _)
    rw [List.take_length] at hsame
    have htake := List.take_succ_eq_append_getElem hmore
    have hrequest := h (handed.take other.length) handed[other.length]
      (htake ▸ List.take_prefix (other.length + 1) handed)
    have hpart := (flatMap_take_le handed rest (other.length + 1)).trans hstream
    rw [htake, hsame, List.flatMap_append, List.flatMap_singleton, List.prefix_append_right_inj]
      at hpart
    rw [hsame] at hrequest
    rw [hrequest] at hshort
    exact absurd hpart.length_le (Nat.not_le_of_lt hshort)
  · have hsame := h.agree h' hstream (Nat.le_refl _) hless
    rw [List.take_length] at hsame
    rw [hsame]
    exact List.take_prefix _ _

end Ros2Serial.Requests
