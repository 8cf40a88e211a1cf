import Mathlib.Data.List.Nodup
import Ros2Serial.Generator.Accepts
import Ros2Serial.Generator.RoundTrip

/-!
# What a run writes and what it leaves

The object that `cdr_deserialize` runs on is not a new one.  It holds strings
and blocks of earlier runs, and nothing in a run clears them.  After a run on an
accepted layout, though, all that can be read from the object is from this run:
the strings are those of the layout, and the cells of the blocks, as far as the
lengths reach, have been written.

`Tracking` is the record that the proof keeps beside the heap: of what class the
elements of a block are, and which cells the run has written.  `Sound` says of
an object that its blocks have the right class and, for an object that belongs
to the run (`own`), that its strings and cells do too.  A write changes the heap
and adds to the record, so what was sound stays sound (`Sound.mono`).
-/

namespace Ros2Serial.Generator

open Bytes PlainCdr Ucdr

/-! ## The record beside the heap -/

/-- `ends` holds of the places where a text starts that has its end in the
input, `types` are the classes of the elements of the blocks, and `written`
holds of the cells that the run has written. -/
structure Tracking where
  ends : Nat → Prop
  types : Nat → Option DataClass
  written : Nat → Nat → Prop

/-- What is recorded is not taken back. -/
structure Tracking.Le (t t' : Tracking) : Prop where
  ends : t'.ends = t.ends
  types : ∀ b cls, t.types b = some cls → t'.types b = some cls
  written : ∀ b j, t.written b j → t'.written b j

theorem Tracking.Le.refl (t : Tracking) : t.Le t := ⟨rfl, fun _ _ h => h, fun _ _ h => h⟩

theorem Tracking.Le.trans {t t' t'' : Tracking} (h : t.Le t') (h' : t'.Le t'') : t.Le t'' where
  ends := h'.ends.trans h.ends
  types b cls hb := h'.types b cls (h.types b cls hb)
  written b j hj := h'.written b j (h.written b j hj)

/-! ## Sound objects -/

/-- A string of the run ends in the input. -/
def Tracking.StringSound (t : Tracking) (own : Prop) (o : Obj) : Prop :=
  own → ∀ i, o = .chars (.input i) → t.ends i

/-- What `Sound` asks of the members of a field.  No statement assigns to an
element of an array of strings.  The static element of a variable array cannot
be read from outside, so it need not belong to the run. -/
def fieldSound (t : Tracking) (name : String) (cls : DataClass) (sound : Prop → Obj → Prop)
    (own : Prop) : ArraySize → Members → Prop
  | .single, this => sound own (this name)
  | .fixed n, this =>
    (this name).elems.length ≤ n ∧
      ∀ o ∈ (this name).elems, sound own o ∧ (cls = .string → ∀ i, o ≠ .chars (.input i))
  | .dynamic, this =>
    (∀ b, (this name).asPointer = some b → t.types b = some cls ∧
      (own → ∀ j < (this (name ++ "_length")).asValue, t.written b j)) ∧
    sound False (this ("st_" ++ name))

mutual

/-- The blocks of an element have the right class and, where it belongs to the
run, so do the strings and cells that can be read from it. -/
def DataClass.Sound (t : Tracking) : DataClass → Prop → Obj → Prop
  | .primitive _, _, _ => True
  | .string, own, o => t.StringSound own o
  | .message D, own, o => D.Sound t own o.members

/-- The same for an object. -/
def MessageDef.Sound (t : Tracking) : MessageDef → Prop → Members → Prop
  | .nil, _, _ => True
  | .cons name cls size rest, own, this =>
    fieldSound t name cls (fun own o => cls.Sound t own o) own size this ∧ rest.Sound t own this

end

section Mono

variable {t t' : Tracking} {own own' : Prop}

theorem fieldSound_mono (htypes : ∀ b cls, t.types b = some cls → t'.types b = some cls)
    (hown : own' → own ∧ t.Le t') {cls : DataClass} {sound sound' : Prop → Obj → Prop}
    (hsound : ∀ {own own'} o, (own' → own ∧ t.Le t') → sound own o → sound' own' o)
    {name : String} {size : ArraySize} {this : Members}
    (h : fieldSound t name cls sound own size this) :
    fieldSound t' name cls sound' own' size this := by
  cases size with
  | single => exact hsound _ hown h
  | fixed n => exact ⟨h.1, fun o ho => ⟨hsound o hown (h.2 o ho).1, (h.2 o ho).2⟩⟩
  | dynamic =>
    refine ⟨fun b hb => ⟨htypes b cls (h.1 b hb).1, fun ho j hj => ?_⟩, hsound _ False.elim h.2⟩
    exact (hown ho).2.written b j ((h.1 b hb).2 (hown ho).1 j hj)

mutual

theorem DataClass.Sound.mono (htypes : ∀ b cls, t.types b = some cls → t'.types b = some cls)
    {cls : DataClass} {own own' : Prop} (o : Obj) (hown : own' → own ∧ t.Le t')
    (h : cls.Sound t own o) : cls.Sound t' own' o := by
  match cls with
  | .primitive _ => trivial
  | .string =>
    intro ho i hi
    rw [(hown ho).2.ends]
    exact h (hown ho).1 i hi
  | .message D => exact MessageDef.Sound.mono htypes hown h

/-- What was sound stays sound. -/
theorem MessageDef.Sound.mono (htypes : ∀ b cls, t.types b = some cls → t'.types b = some cls)
    {D : MessageDef} {own own' : Prop} {this : Members} (hown : own' → own ∧ t.Le t')
    (h : D.Sound t own this) : D.Sound t' own' this := by
  match D with
  | .nil => trivial
  | .cons name cls size rest =>
    exact ⟨fieldSound_mono htypes hown (fun o ho hs => DataClass.Sound.mono htypes o ho hs) h.1,
      MessageDef.Sound.mono htypes hown h.2⟩

end

end Mono

mutual

theorem DataClass.sound_indeterminate (t : Tracking) (cls : DataClass) (own : Prop) :
    cls.Sound t own .indeterminate := by
  match cls with
  | .primitive _ => trivial
  | .string => exact fun _ i hi => nomatch hi
  | .message D => exact D.sound_indeterminate t own

/-- What `realloc` leaves uninitialised holds nothing. -/
theorem MessageDef.sound_indeterminate (t : Tracking) (D : MessageDef) (own : Prop) :
    D.Sound t own fun _ => .indeterminate := by
  match D with
  | .nil => trivial
  | .cons name cls size rest =>
    refine ⟨?_, rest.sound_indeterminate t own⟩
    cases size with
    | single => exact cls.sound_indeterminate t own
    | fixed n => exact ⟨Nat.zero_le n, fun o ho => nomatch ho⟩
    | dynamic => exact ⟨fun b hb => (nomatch hb), cls.sound_indeterminate t False⟩

end

/-! ## Members of other fields -/

/-- The member is as it was, or it is one of the declared strings and has got
another text. -/
def Tracking.Rewritten (t : Tracking) (own : Prop) (declared : List (String × MemberType))
    (this this' : Members) (m : String) : Prop :=
  this' m = this m ∨ ((m, MemberType.constCharPtr) ∈ declared ∧ t.StringSound own (this' m))

section Declared

variable {t : Tracking} {own : Prop} {declared : List (String × MemberType)}
  {this this' this'' : Members}

theorem Tracking.Rewritten.trans {t' : Tracking} {m : String} (hle : t.Le t')
    (h : t.Rewritten own declared this this' m) (h' : t'.Rewritten own declared this' this'' m) :
    t'.Rewritten own declared this this'' m := by
  rcases h' with h' | h'
  · rcases h with h | ⟨hm, hs⟩
    · exact Or.inl (h'.trans h)
    · refine Or.inr ⟨hm, ?_⟩
      rw [h']
      intro ho i hi
      rw [hle.ends]
      exact hs ho i hi
  · exact Or.inr h'

/-- Of the members of a field, only a single string is declared as one. -/
theorem string_of_declared (hnodup : (declared.map Prod.fst).Nodup) {name : String}
    {cls : DataClass} {size : ArraySize} (hsub : fieldMembers name cls size ⊆ declared) {m : String}
    (hm : m ∈ fieldNames name size) (hstr : (m, MemberType.constCharPtr) ∈ declared) :
    size = .single ∧ cls = .string := by
  rw [← fieldMembers_names name cls size] at hm
  obtain ⟨⟨m', type⟩, hmem, rfl⟩ := List.mem_map.mp hm
  have heq := List.inj_on_of_nodup_map hnodup (hsub hmem) hstr rfl
  rw [heq] at hmem
  cases size <;> cases cls <;> simp [fieldMembers] at hmem ⊢

theorem fieldSound_frame (hnodup : (declared.map Prod.fst).Nodup) {name : String}
    {cls : DataClass} {size : ArraySize} (hsub : fieldMembers name cls size ⊆ declared)
    (hframe : ∀ m ∈ fieldNames name size, t.Rewritten own declared this this' m)
    (h : fieldSound t name cls (fun own o => cls.Sound t own o) own size this) :
    fieldSound t name cls (fun own o => cls.Sound t own o) own size this' := by
  by_cases hstr : size = .single ∧ cls = .string
  · obtain ⟨rfl, rfl⟩ := hstr
    rcases hframe name (List.mem_singleton_self _) with heq | ⟨-, hs⟩
    · show t.StringSound own (this' name)
      rw [heq]
      exact h
    · exact hs
  · have hsame : ∀ m ∈ fieldNames name size, this' m = this m := by
      intro m hm
      rcases hframe m hm with heq | ⟨hdeclared, -⟩
      · exact heq
      · exact absurd (string_of_declared hnodup hsub hm hdeclared) hstr
    cases size with
    | single => simpa [fieldSound, hsame name (by simp [fieldNames])] using h
    | fixed n => simpa [fieldSound, hsame name (by simp [fieldNames])] using h
    | dynamic =>
      simpa [fieldSound, hsame name (by simp [fieldNames]),
        hsame (name ++ "_length") (by simp [fieldNames]),
        hsame ("st_" ++ name) (by simp [fieldNames])] using h

/-- An object stays sound when only strings in it get another text. -/
theorem MessageDef.Sound.frame (hnodup : (declared.map Prod.fst).Nodup) {D : MessageDef}
    (hsub : D.members ⊆ declared)
    (hframe : ∀ m ∈ D.names, t.Rewritten own declared this this' m) (h : D.Sound t own this) :
    D.Sound t own this' := by
  match D with
  | .nil => trivial
  | .cons name cls size rest =>
    rw [MessageDef.names_cons] at hframe
    have hsub' : fieldMembers name cls size ++ rest.members ⊆ declared := hsub
    obtain ⟨hfield, hrest⟩ := List.append_subset.mp hsub'
    exact ⟨fieldSound_frame hnodup hfield
        (fun m hm => hframe m (List.mem_append_left _ hm)) h.1,
      MessageDef.Sound.frame hnodup hrest (fun m hm => hframe m (List.mem_append_right _ hm)) h.2⟩

end Declared

/-! ## The heap -/

/-- What `realloc` returns is a new block: no cells but those of the old one,
and cells that nothing has been written to. -/
theorem Decoder.realloc_new (P : Platform) (cls : DataClass) (p : Option Nat) (n : Nat)
    (dec : Decoder) :
    ∃ cells, (dec.realloc P cls p n).1.heap dec.next = some cells ∧
      ∀ o ∈ cells, o = .indeterminate ∨ ∃ kept, p.bind dec.heap = some kept ∧ o ∈ kept := by
  refine ⟨_, Function.update_self .., fun o ho => ?_⟩
  rcases List.mem_append.mp ho with hkept | hnew
  · cases hheap : p.bind dec.heap with
    | none =>
      rw [hheap] at hkept
      exact absurd (List.mem_of_mem_take hkept) List.not_mem_nil
    | some kept =>
      rw [hheap] at hkept
      exact Or.inr ⟨kept, rfl, List.mem_of_mem_take hkept⟩
  · exact Or.inl (List.eq_of_mem_replicate hnew)

/-- Of the other blocks, the old one is gone. -/
theorem Decoder.realloc_other (P : Platform) (cls : DataClass) (p : Option Nat) (n : Nat)
    (dec : Decoder) {b : Nat} (hb : b ≠ dec.next) :
    (dec.realloc P cls p n).1.heap b = none ∨
      (dec.realloc P cls p n).1.heap b = dec.heap b := by
  simp only [Decoder.realloc, Function.update_of_ne hb]
  cases p with
  | none => exact Or.inr rfl
  | some block =>
    by_cases hblock : b = block
    · subst hblock
      exact Or.inl (Function.update_self ..)
    · exact Or.inr (Function.update_of_ne hblock ..)

/-- After `memcpy`, the cells are the old ones, except for the one that was written. -/
theorem Decoder.memcpy_cells {block i b : Nat} {o : Obj} {dec : Decoder} {cells : List Obj}
    (h : (dec.memcpy (some block) i o).heap b = some cells) :
    ∃ old, dec.heap b = some old ∧ ∀ (j : Nat) o', cells[j]? = some o' →
      (b = block ∧ j = i ∧ o' = o) ∨ ((b = block → j ≠ i) ∧ old[j]? = some o') := by
  simp only [Decoder.memcpy] at h
  split at h
  · rename_i old hold
    by_cases hi : i < old.length
    · rw [if_pos hi] at h
      dsimp only at h
      by_cases hb : b = block
      · subst hb
        rw [Function.update_self] at h
        obtain rfl := Option.some.inj h
        refine ⟨old, hold, fun j o' hj => ?_⟩
        by_cases hji : j = i
        · subst hji
          rw [List.getElem?_set_self hi] at hj
          exact Or.inl ⟨rfl, rfl, (Option.some.inj hj).symm⟩
        · rw [List.getElem?_set_ne (Ne.symm hji)] at hj
          exact Or.inr ⟨fun _ => hji, hj⟩
      · rw [Function.update_of_ne hb] at h
        refine ⟨cells, h, fun j o' hj => ?_⟩
        exact Or.inr ⟨fun heq => absurd heq hb, hj⟩
    · rw [if_neg hi] at h
      refine ⟨cells, h, fun j o' hj => Or.inr ⟨fun heq hji => ?_, hj⟩⟩
      subst heq hji
      obtain rfl := Option.some.inj (hold.symm.trans h)
      exact hi (List.getElem?_eq_some_iff.mp hj).1
  · rename_i hnone
    refine ⟨cells, h, fun j o' hj => Or.inr ⟨fun heq => ?_, hj⟩⟩
    subst heq
    rw [hnone] at h
    cases h

/-- The record is true of the heap: blocks that are not allocated are not in
it, and the cells have the class of their block.  A cell that the run has
written belongs to the run. -/
structure Tracking.Describes (t : Tracking) (own : Prop) (dec : Decoder) : Prop where
  fresh : ∀ b, dec.next ≤ b → dec.heap b = none ∧ t.types b = none
  written : ∀ b j, t.written b j → t.types b ≠ none
  cells : ∀ b cells cls, dec.heap b = some cells → t.types b = some cls →
    ∀ (j : Nat) o, cells[j]? = some o → cls.Sound t (own ∧ t.written b j) o

/-- The record of a new block. -/
def Tracking.allot (t : Tracking) (b : Nat) (cls : DataClass) : Tracking :=
  { t with types := Function.update t.types b (some cls) }

/-- The record of a write. -/
def Tracking.write (t : Tracking) (b j : Nat) : Tracking :=
  { t with written := fun b' j' => (b' = b ∧ j' = j) ∨ t.written b' j' }

@[simp] theorem Tracking.allot_types_self (t : Tracking) (b : Nat) (cls : DataClass) :
    (t.allot b cls).types b = some cls :=
  Function.update_self ..

theorem Tracking.allot_types_of_ne (t : Tracking) {b b' : Nat} (h : b' ≠ b) (cls : DataClass) :
    (t.allot b cls).types b' = t.types b' :=
  Function.update_of_ne h ..

theorem Tracking.le_allot {t : Tracking} {b : Nat} (h : t.types b = none) (cls : DataClass) :
    t.Le (t.allot b cls) where
  ends := rfl
  written _ _ hj := hj
  types b' cls' hb' := by
    rw [Tracking.allot_types_of_ne]
    · exact hb'
    · intro heq
      subst heq
      rw [h] at hb'
      cases hb'

theorem Tracking.le_write (t : Tracking) (b j : Nat) : t.Le (t.write b j) :=
  ⟨rfl, fun _ _ hb => hb, fun _ _ hj => Or.inr hj⟩

section Heap

variable {t : Tracking} {own : Prop} {dec dec' : Decoder}

theorem Tracking.Describes.congr (h : t.Describes own dec) (hsame : SameHeap dec dec') :
    t.Describes own dec' where
  fresh b hb := by
    rw [hsame.1]
    exact h.fresh b (hsame.2 ▸ hb)
  written := h.written
  cells := by
    rw [hsame.1]
    exact h.cells

/-- The cells of the old block come along into the new one, but none of them is
written there. -/
theorem Tracking.Describes.realloc (h : t.Describes own dec) (P : Platform) {cls : DataClass}
    {p : Option Nat} (hp : ∀ b, p = some b → t.types b = some cls) (n : Nat) :
    (t.allot dec.next cls).Describes own (dec.realloc P cls p n).1 := by
  have hnew := (h.fresh dec.next (Nat.le_refl _)).2
  have hle := Tracking.le_allot hnew cls
  refine ⟨fun b hb => ?_, fun b j hj => ?_, fun b cells cls' hcells hcls' j o hj => ?_⟩
  · have hb' : dec.next + 1 ≤ b := hb
    have hne : b ≠ dec.next := by omega
    obtain ⟨hnone, htype⟩ := h.fresh b (by omega)
    refine ⟨?_, (t.allot_types_of_ne hne cls).trans htype⟩
    rcases Decoder.realloc_other P cls p n dec hne with hgone | hsame
    · exact hgone
    · exact hsame.trans hnone
  · have hne : b ≠ dec.next := by
      intro heq
      subst heq
      exact h.written _ _ hj hnew
    rw [t.allot_types_of_ne hne cls]
    exact h.written b j hj
  · by_cases hb : b = dec.next
    · subst hb
      rw [Tracking.allot_types_self] at hcls'
      obtain rfl : cls = cls' := Option.some.inj hcls'
      obtain ⟨cells', hcells', hkept⟩ := Decoder.realloc_new P cls p n dec
      obtain rfl : cells' = cells := Option.some.inj (hcells'.symm.trans hcells)
      rcases hkept o (List.mem_of_getElem? hj) with rfl | ⟨kept, hold, hmem⟩
      · exact cls.sound_indeterminate _ _
      · obtain ⟨block, rfl, hblock⟩ := Option.bind_eq_some_iff.mp hold
        obtain ⟨i, hi⟩ := List.mem_iff_getElem?.mp hmem
        refine (h.cells block kept cls hblock (hp block rfl) i o hi).mono hle.types o fun hw => ?_
        exact absurd hnew (h.written _ _ hw.2)
    · rw [t.allot_types_of_ne hb cls] at hcls'
      rcases Decoder.realloc_other P cls p n dec hb with hgone | hsame
      · rw [hgone] at hcells
        cases hcells
      · exact (h.cells b cells cls' (hsame ▸ hcells) hcls' j o hj).mono hle.types o
          fun hw => ⟨hw, hle⟩

/-- A cell gets an element of the class of its block, and is written then. -/
theorem Tracking.Describes.memcpy (h : t.Describes own dec) {cls : DataClass} {p : Option Nat}
    (hp : ∀ b, p = some b → t.types b = some cls) (i : Nat) {o : Obj} (ho : cls.Sound t own o) :
    ∃ t', t.Le t' ∧ t'.Describes own (dec.memcpy p i o) ∧ ∀ b, p = some b → t'.written b i := by
  cases p with
  | none => exact ⟨t, Tracking.Le.refl t, h.congr ⟨rfl, rfl⟩, fun b hb => nomatch hb⟩
  | some block =>
    have hblock := hp block rfl
    have hle := t.le_write block i
    refine ⟨t.write block i, hle, ⟨fun b hb => ?_, fun b j hj => ?_, ?_⟩, ?_⟩
    · rw [Decoder.memcpy_next] at hb
      obtain ⟨hnone, htype⟩ := h.fresh b hb
      refine ⟨?_, htype⟩
      cases hcells : (dec.memcpy (some block) i o).heap b with
      | none => rfl
      | some cells =>
        obtain ⟨old, hold, -⟩ := Decoder.memcpy_cells hcells
        rw [hnone] at hold
        cases hold
    · rcases hj with ⟨rfl, rfl⟩ | hj
      · show t.types b ≠ none
        rw [hblock]
        exact Option.some_ne_none cls
      · exact h.written b j hj
    · intro b cells cls' hcells hcls' j o' hj
      obtain ⟨old, hold, hcell⟩ := Decoder.memcpy_cells hcells
      rcases hcell j o' hj with ⟨rfl, rfl, rfl⟩ | ⟨hother, hj'⟩
      · obtain rfl : cls = cls' := Option.some.inj (hblock.symm.trans hcls')
        exact ho.mono hle.types o' fun hw => ⟨hw.1, hle⟩
      · refine (h.cells b old cls' hold hcls' j o' hj').mono hle.types o' fun hw => ⟨⟨hw.1, ?_⟩, hle⟩
        rcases hw.2 with hnow | hbefore
        · exact absurd hnow.2 (hother hnow.1)
        · exact hbefore
    · intro b hb
      exact Or.inl ⟨(Option.some.inj hb).symm, rfl⟩

end Heap

end Ros2Serial.Generator
