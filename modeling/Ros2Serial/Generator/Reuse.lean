import Ros2Serial.Generator.Storage

/-!
# Objects that are used again

`msg` of a subscriber is one object for all frames.  A variable array in it keeps the block
of the longest value so far, and the elements of earlier values are in there.

* `Shaped` and `Stored` say what any run leaves of an object: the fixed arrays have their
  elements, and the block of a variable array is its own, with room for `x_length`.
* That is enough for the next value (`MessageDef.restored_replay`), where `RoundTrip.lean`
  asks for a fresh object.  What a field holds is not touched by the statements for the
  others, because every block belongs to one path (`DataClass.readBack_keep`).
-/

namespace Ros2Serial.Generator

open Bytes PlainCdr Ucdr

/-! ## Shapes -/

/-- The elements of a fixed array are there. -/
def fieldShaped (shaped : Obj → Prop) (name : String) : ArraySize → Members → Prop
  | .single, this => shaped (this name)
  | .fixed n, this => (this name).elems.length = n ∧ ∀ o ∈ (this name).elems, shaped o
  | .dynamic, this => shaped (this ("st_" ++ name))

mutual

def DataClass.Shaped : DataClass → Obj → Prop
  | .primitive _, _ => True
  | .string, _ => True
  | .message D, o => D.Shaped o.members

/-- The fixed arrays of an object have their elements, at any depth. -/
def MessageDef.Shaped : MessageDef → Members → Prop
  | .nil, _ => True
  | .cons name cls size rest, this =>
    fieldShaped (fun o => cls.Shaped o) name size this ∧ rest.Shaped this

end

theorem fieldShaped_congr {shaped : Obj → Prop} {name : String} {size : ArraySize}
    {this this' : Members} (hthis : ∀ m ∈ fieldNames name size, this' m = this m)
    (h : fieldShaped shaped name size this) : fieldShaped shaped name size this' := by
  have hname := hthis name (name_mem_fieldNames name size)
  cases size with
  | single => simpa only [fieldShaped, hname] using h
  | fixed n => simpa only [fieldShaped, hname] using h
  | dynamic =>
    have hstatic := hthis ("st_" ++ name) (by simp [fieldNames])
    simpa only [fieldShaped, hstatic] using h

/-- The shape depends on the members that are no plain strings. -/
theorem MessageDef.Shaped.congr {D : MessageDef} {this this' : Members}
    (hthis : ∀ m, (m, MemberType.other) ∈ D.members → this' m = this m) (h : D.Shaped this) :
    D.Shaped this' := by
  match D with
  | .nil => trivial
  | .cons name cls size rest =>
    refine ⟨?_, MessageDef.Shaped.congr (fun m hm => hthis m (mem_members_of_mem_rest hm)) h.2⟩
    by_cases hs : cls = .string ∧ size = .single
    · obtain ⟨rfl, rfl⟩ := hs
      trivial
    · exact fieldShaped_congr (fun m hm => hthis m (mem_members_of_mem_fieldNames
        (fun h1 h2 => hs ⟨h1, h2⟩) hm)) h.1

mutual

theorem DataClass.Ready.shaped {cls : DataClass} {o : Obj} (h : cls.Ready o) : cls.Shaped o := by
  match cls with
  | .primitive _ => trivial
  | .string => trivial
  | .message D => exact MessageDef.Ready.shaped (D := D) h

/-- An object that can be decoded into has its shape. -/
theorem MessageDef.Ready.shaped {D : MessageDef} {this : Members} (h : D.Ready this) :
    D.Shaped this := by
  match D with
  | .nil => trivial
  | .cons name cls size rest =>
    refine ⟨?_, MessageDef.Ready.shaped h.2⟩
    cases size with
    | single => exact DataClass.Ready.shaped h.1
    | fixed n => exact ⟨h.1.1, fun o ho => DataClass.Ready.shaped (h.1.2 o ho)⟩
    | dynamic => exact DataClass.Ready.shaped h.1.2.2

end

/-! ## Any run keeps the shape -/

section Shaped

variable {P : Platform} {mem : List UInt8} {name : String} {cls : DataClass}

/-- A loop keeps what its rounds keep. -/
theorem forLoop_keeps {I : Activation → Prop} {body : Nat → Activation → Bool × Activation}
    {N : Nat} (h : ∀ i < N, ∀ a, I a → I (body i a).2) (count i : Nat) (hi : i + count ≤ N)
    {a : Activation} (ha : I a) : I (forLoop body count i a).2 := by
  induction count generalizing i a with
  | zero => exact ha
  | succ count ih =>
    rw [forLoop_succ]
    split
    · exact ih (i + 1) (by omega) (h i (by omega) a ha)
    · exact h i (by omega) a ha

/-- The statements for an element assign an object of the right shape, or nothing. -/
def ElementShapes (P : Platform) (mem : List UInt8) (cls : DataClass) : Prop :=
  ∀ place a, cls.Shaped (place.load a.this) →
    (cls.cdrDeserialize P mem place a).2.this = a.this ∨
      ∃ o, cls.Shaped o ∧ (cls.cdrDeserialize P mem place a).2.this = place.store a.this o

theorem elementShapes_primitive (P : Platform) (mem : List UInt8) (p : Primitive) :
    ElementShapes P mem (.primitive p) := by
  intro place a _
  unfold DataClass.cdrDeserialize
  split
  · exact Or.inr ⟨_, trivial, rfl⟩
  · exact Or.inl rfl

/-- A field whose elements are no strings. -/
theorem deserializeField_shaped (hel : ElementShapes P mem cls) {size : ArraySize}
    (hnames : (fieldNames name size).Nodup) {a : Activation}
    (h : fieldShaped (fun o => cls.Shaped o) name size a.this) :
    fieldShaped (fun o => cls.Shaped o) name size
      (deserializeField P mem name cls (fun place => cls.cdrDeserialize P mem place) size
        a).2.this := by
  cases size with
  | single =>
    rcases hel (.member name) a h with hsame | ⟨o, ho, hstore⟩
    · exact hsame ▸ h
    · show cls.Shaped ((cls.cdrDeserialize P mem (.member name) a).2.this name)
      rw [hstore, Place.store, Function.update_self]
      exact ho
  | fixed n =>
    refine forLoop_keeps (N := n) (I := fun a =>
      fieldShaped (fun o => cls.Shaped o) name (.fixed n) a.this) ?_ n 0 (by omega) h
    intro i hi a ha
    obtain ⟨hlength, helems⟩ := ha
    have hlt : i < (a.this name).elems.length := hlength ▸ hi
    have hget : (a.this name).elems[i]? = some (a.this name).elems[i] :=
      List.getElem?_eq_getElem hlt
    have hload : cls.Shaped ((Place.element name i).load a.this) := by
      rw [Place.load, List.getD_eq_getElem?_getD, hget]
      exact helems _ (List.mem_of_getElem? hget)
    rcases hel (.element name i) a hload with hsame | ⟨o, ho, hstore⟩
    · rw [hsame]
      exact ⟨hlength, helems⟩
    · rw [hstore]
      refine ⟨?_, fun x hx => ?_⟩
      · rw [Place.elems_store_element, List.length_set]
        exact hlength
      · rw [Place.elems_store_element] at hx
        rcases List.mem_or_eq_of_mem_set hx with hold | rfl
        · exact helems x hold
        · exact ho
  | dynamic =>
    obtain ⟨hls, hln, hsn⟩ := fieldNames_dynamic_nodup hnames
    rw [deserializeField_dynamic]
    refine forLoop_keeps (I := fun a => cls.Shaped (a.this ("st_" ++ name))) ?_ _ 0 (Nat.le_refl _)
      ?_
    · intro i _ a ha
      have helement : cls.Shaped
          ((cls.cdrDeserialize P mem (.member ("st_" ++ name)) a).2.this ("st_" ++ name)) := by
        rcases hel (.member ("st_" ++ name)) a ha with hsame | ⟨o, ho, hstore⟩
        · rw [hsame]
          exact ha
        · rw [hstore, Place.store, Function.update_self]
          exact ho
      rw [copyRound_eq]
      split
      · exact helement
      · exact helement
    · rw [growArray_frame P cls _ _ hsn (Ne.symm hls)]
      exact h

mutual

theorem DataClass.elementShapes {reserved : String → Prop} {cls : DataClass}
    (h : cls.Compiles reserved) (hinv : cls.Invertible) (hstr : cls ≠ .string) :
    ElementShapes P mem cls := by
  match cls with
  | .primitive p => exact elementShapes_primitive P mem p
  | .string => exact absurd rfl hstr
  | .message D =>
    intro place a hshaped
    have hsub : D.Shaped
        (D.cdrDeserialize P mem ⟨(place.load a.this).members, a.dec⟩).2.this :=
      MessageDef.cdrDeserialize_shaped (MessageDef.Compiles.partOf h) hinv hshaped
    exact Or.inr ⟨.message _, hsub, rfl⟩

/-- Whatever the input is, `cdr_deserialize` keeps the shape of its object. -/
theorem MessageDef.cdrDeserialize_shaped {reserved : String → Prop}
    {members : List (String × MemberType)} {D : MessageDef} (h : D.PartOf reserved members)
    (hinv : D.Invertible) {a : Activation} (hshaped : D.Shaped a.this) :
    D.Shaped (D.cdrDeserialize P mem a).2.this := by
  match D with
  | .nil => exact hshaped
  | .cons name cls size rest =>
    have hfield : fieldShaped (fun o => cls.Shaped o) name size (deserializeField P mem name cls
        (fun place => cls.cdrDeserialize P mem place) size a).2.this := by
      by_cases hstr : cls = .string
      · subst hstr
        cases size with
        | single => trivial
        | fixed n =>
          rcases hinv.1 with rfl | ⟨hne, -⟩
          · exact hshaped.1
          · exact absurd rfl hne
        | dynamic => exact absurd rfl h.dynamic_ne_string
      · have hcls : size ≠ .fixed 0 → cls.Invertible := by
          intro hsize
          cases size with
          | single => exact hinv.1
          | fixed n => exact (hinv.1.resolve_left fun h0 => hsize (h0 ▸ rfl)).2
          | dynamic => exact hinv.1.2.1
        by_cases hsize : size = .fixed 0
        · subst hsize
          exact hshaped.1
        · exact deserializeField_shaped
            (DataClass.elementShapes h.compiles.2.1 (hcls hsize) hstr) h.wellNamed.field hshaped.1
    have hrest : rest.Shaped (deserializeField P mem name cls
        (fun place => cls.cdrDeserialize P mem place) size a).2.this := by
      refine hshaped.2.congr fun m hm => ?_
      have hnames : m ∈ rest.names := List.mem_map_of_mem hm
      exact deserializeField_keepsMember P mem (fun hf => h.wellNamed.disjoint hf hnames)
        (fun hs he => h.unique (mem_members_of_mem_rest hm) (he ▸ h.compiles.1 hs)) a
    have hothers : rest.Shaped (rest.cdrDeserialize P mem (deserializeField P mem name cls
        (fun place => cls.cdrDeserialize P mem place) size a).2).2.this :=
      MessageDef.cdrDeserialize_shaped h.rest hinv.2 hrest
    rw [MessageDef.cdrDeserialize_cons]
    dsimp only
    split
    · refine ⟨?_, hothers⟩
      by_cases hs : cls = .string ∧ size = .single
      · obtain ⟨rfl, rfl⟩ := hs
        trivial
      · refine fieldShaped_congr (fun m hm => ?_) hfield
        have hother : (m, MemberType.other) ∈ (MessageDef.cons name cls size rest).members :=
          mem_members_of_mem_fieldNames (fun h1 h2 => hs ⟨h1, h2⟩) hm
        exact MessageDef.cdrDeserialize_keepsMember P mem h.rest (h.wellNamed.disjoint hm)
          (h.unique hother) _
    · exact ⟨hfield, hrest⟩

end

end Shaped

/-! ## What is held -/

/-- What `Invertible` asks of a field. -/
def fieldInvertible (cls : DataClass) : ArraySize → Prop
  | .single => cls.Invertible
  | .fixed n => n = 0 ∨ cls ≠ .string ∧ cls.Invertible
  | .dynamic => cls ≠ .string ∧ cls.Invertible ∧ ¬ cls.HasDynamic

theorem MessageDef.Invertible.field {name : String} {cls : DataClass} {size : ArraySize}
    {rest : MessageDef} (h : (MessageDef.cons name cls size rest).Invertible) :
    fieldInvertible cls size := by
  cases size with
  | single => exact h.1
  | fixed n => exact h.1
  | dynamic => exact h.1

/-- The elements of a field hold the values. -/
def FieldHolds (mem : List UInt8) (heap : Nat → Option (List Obj)) (name : String)
    (cls : DataClass) (size : ArraySize) (vs : List cls.Val) (this : Members) : Prop :=
  ∃ os, fieldElems heap name size this = some os ∧ Hold (cls.readBack mem heap) os vs

section Keep

variable {P : Platform} {mem : List UInt8} {touched : Path → Prop} {owner owner' : Nat → Path}
  {dec dec' : Decoder}

/-- The elements of a field, after code that touches the blocks of other paths. -/
theorem fieldElems_keep {path : Path} {name : String} {cls : DataClass} {size : ArraySize}
    {stored : Path → Obj → Prop} {this : Members} {os : List Obj}
    (hstored : fieldStored P owner dec path name cls stored size this)
    (hkeeps : Keeps touched owner owner' dec dec')
    (hpath : ∀ i, ¬ touched (path ++ [(name, i)]))
    (h : fieldElems dec.heap name size this = some os) :
    fieldElems dec'.heap name size this = some os := by
  cases size with
  | single => exact h
  | fixed n => exact h
  | dynamic =>
    simp only [fieldElems] at h ⊢
    split at h
    · next h0 => rwa [if_pos h0]
    · next h0 =>
      rw [if_neg h0]
      cases hpointer : (this name).asPointer with
      | none => rwa [hpointer] at h
      | some b =>
        obtain ⟨hlt, howner⟩ := hstored.1.owned b hpointer
        rw [hpointer, Option.bind_some] at h
        rw [Option.bind_some, hkeeps.heap b hlt (howner ▸ hpath 0)]
        exact h

theorem FieldHolds.keep {path : Path} {name : String} {cls : DataClass} {size : ArraySize}
    {vs : List cls.Val} {this : Members} (hsize : size.Admits vs.length)
    (hinv : fieldInvertible cls size)
    (hel : cls.Invertible → ∀ path o v, cls.Stored P owner dec path o →
      (∀ more, ¬ touched (path ++ more)) →
      cls.readBack mem dec.heap o = some v → cls.readBack mem dec'.heap o = some v)
    (hstored : fieldStored P owner dec path name cls
      (fun path o => cls.Stored P owner dec path o) size this)
    (hkeeps : Keeps touched owner owner' dec dec')
    (hpath : ∀ i more, ¬ touched (path ++ (name, i) :: more))
    (h : FieldHolds mem dec.heap name cls size vs this) :
    FieldHolds mem dec'.heap name cls size vs this := by
  have happend : ∀ i more, ¬ touched (path ++ [(name, i)] ++ more) := by
    intro i more
    rw [List.append_assoc]
    exact hpath i more
  obtain ⟨os, hos, hhold⟩ := h
  refine ⟨os, fieldElems_keep hstored hkeeps (fun i => hpath i []) hos, ?_⟩
  cases size with
  | single =>
    obtain rfl : [this name] = os := Option.some.inj hos
    obtain ⟨v, rfl⟩ := List.length_eq_one_iff.mp hsize
    cases hhold with
    | cons hv _ => exact .cons (hel hinv _ _ _ hstored (happend 0) hv) .nil
  | fixed n =>
    obtain rfl : (this name).elems = os := Option.some.inj hos
    rcases hinv with rfl | ⟨-, hcls⟩
    · have hvs := List.eq_nil_of_length_eq_zero hsize
      have hos := List.eq_nil_of_length_eq_zero (hhold.length_eq.trans hsize)
      rw [hvs, hos]
      exact .nil
    · refine List.forall₂_of_length_eq_of_get hhold.length_eq fun i hi hi' => ?_
      exact hel hcls _ _ _ (hstored i _ (List.getElem?_eq_getElem hi)) (happend i)
        (hhold.get hi hi')
  | dynamic =>
    exact hhold.mono (cls.readBack_mono fun hd => absurd hd hinv.2.2)

mutual

/-- What an element holds, it holds after code that touches the blocks of other paths. -/
theorem DataClass.readBack_keep {cls : DataClass} (hinv : cls.Invertible) {path : Path} {o : Obj}
    {v : cls.Val} (hstored : cls.Stored P owner dec path o)
    (hkeeps : Keeps touched owner owner' dec dec') (hpath : ∀ more, ¬ touched (path ++ more))
    (h : cls.readBack mem dec.heap o = some v) : cls.readBack mem dec'.heap o = some v := by
  match cls, o with
  | .primitive p, _ => exact h
  | .string, _ => exact h
  | .message D, .message members =>
    exact MessageDef.readBack_keep (D := D) hinv hstored hkeeps
      (fun m _ i more => hpath ((m, i) :: more)) h

theorem MessageDef.readBack_keep {D : MessageDef} (hinv : D.Invertible) {path : Path}
    {this : Members} {v : D.Val} (hstored : D.Stored P owner dec path this)
    (hkeeps : Keeps touched owner owner' dec dec')
    (hpath : ∀ m ∈ D.names, ∀ i more, ¬ touched (path ++ (m, i) :: more))
    (h : D.readBack mem dec.heap this = some v) : D.readBack mem dec'.heap this = some v := by
  match D, v with
  | .nil, _ => exact h
  | .cons name cls size rest, (field, more) =>
    rw [MessageDef.names_cons] at hpath
    obtain ⟨hfield, hmore⟩ := readBack_cons.mp h
    have hname : ∀ i more, ¬ touched (path ++ (name, i) :: more) :=
      hpath name (List.mem_append_left _ (name_mem_fieldNames name size))
    refine readBack_cons.mpr ⟨?_, MessageDef.readBack_keep hinv.2 hstored.2 hkeeps
      (fun m hm => hpath m (List.mem_append_right _ hm)) hmore⟩
    exact FieldHolds.keep field.property hinv.field
      (fun hcls path o v ho hpath => DataClass.readBack_keep hcls ho hkeeps hpath) hstored.1 hkeeps
      hname hfield

end

end Keep

/-! ## The next value -/

/-- After the statements for an element, `o` stands at its place.  It holds the value, and can
be used again. -/
structure DataClass.Restored (P : Platform) (mem : List UInt8) (cls : DataClass) (v : cls.Val)
    (path : Path) (o : Obj) (owner : Nat → Path) (dec dec' : Decoder) : Prop where
  holds : cls.readBack mem dec'.heap o = some v
  shaped : cls.Shaped o
  stored : ∃ owner', Keeps (path <+: ·) owner owner' dec dec' ∧ cls.Stored P owner' dec' path o

/-- The same for the members of a field. -/
structure FieldRestored (P : Platform) (mem : List UInt8) (name : String) (cls : DataClass)
    (size : ArraySize) (vs : List cls.Val) (path : Path) (owner : Nat → Path)
    (a a' : Activation) : Prop where
  holds : FieldHolds mem a'.dec.heap name cls size vs a'.this
  frame : ∀ m, m ∉ fieldNames name size → a'.this m = a.this m
  shaped : fieldShaped (fun o => cls.Shaped o) name size a'.this
  stored : ∃ owner', Keeps (OfField path name) owner owner' a.dec a'.dec ∧
    fieldStored P owner' a'.dec path name cls (fun path o => cls.Stored P owner' a'.dec path o)
      size a'.this

/-- After `cdr_deserialize`, the object holds the value, and can be used again. -/
structure MessageDef.Restored (P : Platform) (mem : List UInt8) (D : MessageDef) (v : D.Val)
    (path : Path) (owner : Nat → Path) (a a' : Activation) : Prop where
  holds : D.readBack mem a'.dec.heap a'.this = some v
  frame : ∀ m, m ∉ D.names → a'.this m = a.this m
  shaped : D.Shaped a'.this
  stored : ∃ owner', Keeps (OfFields path D) owner owner' a.dec a'.dec ∧
    D.Stored P owner' a'.dec path a'.this

/-- The statements for an element do what they should, on an element that was used. -/
def ElementRestores (P : Platform) (mem : List UInt8) (cls : DataClass) : Prop :=
  ∀ (owner : Nat → Path) (path : Path) (v : cls.Val) (place : Place) (a : Activation),
    place.Suits cls → cls.Shaped (place.load a.this) →
    cls.Stored P owner a.dec path (place.load a.this) → Ahead mem a.dec.ub (cls.items v) →
    ∃ o, (cls.replay P v place a).this = place.store a.this o ∧
      cls.Restored P mem v path o owner a.dec (cls.replay P v place a).dec

theorem elementRestores_string (P : Platform) (mem : List UInt8) :
    ElementRestores P mem .string := by
  intro owner path s place a hsuits _ _ hahead
  obtain ⟨name, rfl, hmangle⟩ := hsuits rfl
  have hbytes := (Ahead.cons hahead).2.octets
  simp only [List.length_append, List.length_cons, List.length_nil, Nat.zero_add] at hbytes
  have hsame : SameHeap a.dec (DataClass.string.replay P s (.member name) a).dec := ⟨rfl, rfl⟩
  refine ⟨.chars (.input (a.dec.ub.after (.prim .four (s.val.length + 1))).iterator), ?_,
    readString_input hbytes, trivial, owner, hsame.keeps _ owner, trivial⟩
  simp [DataClass.replay, replayString, Place.text, hmangle, Place.store, Activation.accept]

theorem elementRestores_primitive (P : Platform) (mem : List UInt8) (p : Primitive) :
    ElementRestores P mem (.primitive p) := by
  intro owner path v place a _ _ _ _
  have hsame : SameHeap a.dec ((DataClass.primitive p).replay P v place a).dec := ⟨rfl, rfl⟩
  refine ⟨.value (show Fin p.card from v), rfl, ?_, trivial, owner, hsame.keeps _ owner, trivial⟩
  exact dif_pos (show Fin p.card from v).isLt

section Loops

variable {P : Platform} {mem : List UInt8} {path : Path} {name : String} {cls : DataClass}

/-- The blocks of the elements from the `i`-th on. -/
def FromElement (path : Path) (name : String) (i : Nat) (q : Path) : Prop :=
  ∃ j, i ≤ j ∧ path ++ [(name, j)] <+: q

theorem not_fromElement {i j : Nat} (h : j < i) (more : Path) :
    ¬ FromElement path name i (path ++ [(name, j)] ++ more) := by
  rintro ⟨k, hk, hprefix⟩
  rw [List.append_assoc] at hprefix
  exact not_prefix_of_ne (fun heq => by
    have hkj : k = j := (Prod.mk.inj heq).2
    omega) hprefix

/-- The loop of a fixed array.  Each round decodes into the next element, and those in front
of it keep what they hold. -/
theorem restored_fixedLoop (hel : ElementRestores P mem cls) (hstr : cls ≠ .string)
    (hinv : cls.Invertible) (vs : List cls.Val) :
    ∀ (i : Nat) (owner : Nat → Path) (a : Activation),
      (a.this name).elems.length = i + vs.length →
      (∀ j o, i ≤ j → (a.this name).elems[j]? = some o →
        cls.Shaped o ∧ cls.Stored P owner a.dec (path ++ [(name, j)]) o) →
      Ahead mem a.dec.ub (vs.flatMap cls.items) →
      ∃ a' os owner', replayLoop (fun i v => cls.replay P v (.element name i)) vs i a = a' ∧
        (a'.this name).elems = (a.this name).elems.take i ++ os ∧
        Hold (cls.readBack mem a'.dec.heap) os vs ∧
        (∀ m, m ≠ name → a'.this m = a.this m) ∧
        Keeps (FromElement path name i) owner owner' a.dec a'.dec ∧
        ∀ k o, os[k]? = some o →
          cls.Shaped o ∧ cls.Stored P owner' a'.dec (path ++ [(name, i + k)]) o := by
  induction vs with
  | nil =>
    intro i owner a hlen _ _
    refine ⟨a, [], owner, rfl, ?_, .nil, fun _ _ => rfl, (SameHeap.refl _).keeps _ owner,
      fun k o hk => absurd hk (by simp)⟩
    rw [List.append_nil, List.take_of_length_le (by simp at hlen; omega)]
  | cons v rest ih =>
    intro i owner a hlen hready hahead
    rw [List.length_cons] at hlen
    rw [List.flatMap_cons] at hahead
    obtain ⟨hv, hrest⟩ := hahead.split
    have hi : i < (a.this name).elems.length := by omega
    have hget := List.getElem?_eq_getElem hi
    obtain ⟨hshaped, hstored⟩ := hready i _ (Nat.le_refl i) hget
    have hload : (Place.element name i).load a.this = (a.this name).elems[i] := by
      rw [Place.load, List.getD_eq_getElem?_getD, hget, Option.getD_some]
    obtain ⟨o, hthis, hdec⟩ := hel owner (path ++ [(name, i)]) v (.element name i) a
      (Place.suits_of_ne hstr _) (hload ▸ hshaped) (hload ▸ hstored) hv
    obtain ⟨owner₁, hkeeps, ho⟩ := hdec.stored
    have helems : ((cls.replay P v (.element name i) a).this name).elems =
        (a.this name).elems.set i o := by
      rw [hthis, Place.elems_store_element]
    rw [← (DataClass.hasRead_replay P cls v (.element name i) a).1] at hrest
    obtain ⟨a', os, owner₂, ha', hos, hhold, hframe, hkeeps', hlater⟩ :=
      ih (i + 1) owner₁ (cls.replay P v (.element name i) a)
        (by rw [helems, List.length_set]; omega)
        (by
          intro j x hj hx
          rw [helems, List.getElem?_set_ne (by omega)] at hx
          obtain ⟨hxshaped, hxstored⟩ := hready j x (by omega) hx
          refine ⟨hxshaped, hxstored.keep hkeeps fun more => ?_⟩
          rw [List.append_assoc]
          exact not_prefix_of_ne fun heq => by
            have hij : i = j := (Prod.mk.inj heq).2
            omega)
        hrest
    have hfirst : ∀ more, ¬ FromElement path name (i + 1) (path ++ [(name, i)] ++ more) :=
      not_fromElement (Nat.lt_succ_self i)
    refine ⟨a', o :: os, owner₂, ha', ?_, .cons ?_ hhold, ?_, ?_, ?_⟩
    · rw [hos, helems, take_succ_set hi, List.append_assoc, List.singleton_append]
    · exact DataClass.readBack_keep hinv ho hkeeps' hfirst hdec.holds
    · intro m hm
      rw [hframe m hm, hthis, Place.store, Function.update_of_ne hm]
    · refine (hkeeps.mono fun q hq => ?_).trans (hkeeps'.mono fun q hq => ?_)
      · exact ⟨i, Nat.le_refl i, hq⟩
      · obtain ⟨j, hj, hprefix⟩ := hq
        exact ⟨j, by omega, hprefix⟩
    · intro k x hk
      cases k with
      | zero =>
        obtain rfl : o = x := Option.some.inj hk
        exact ⟨hdec.shaped, ho.keep hkeeps' hfirst⟩
      | succ k =>
        have hindex : i + (k + 1) = i + 1 + k := by omega
        rw [hindex]
        exact hlater k x hk

/-- The loop of a variable array.  The static element is decoded into, over and over, and its
copies replace what is in the block. -/
theorem restored_dynamicLoop (hel : ElementRestores P mem cls) (hstr : cls ≠ .string)
    (hstatic : ¬ cls.HasDynamic) (hne : "st_" ++ name ≠ name) {block count : Nat}
    (vs : List cls.Val) :
    ∀ (i : Nat) (owner : Nat → Path) (a : Activation) (cells : List Obj),
      Copying P owner path name cls block count a → a.dec.heap block = some cells →
      i + vs.length ≤ count → cls.Shaped (a.this ("st_" ++ name)) →
      Ahead mem a.dec.ub (vs.flatMap cls.items) →
      ∃ a' os owner', replayLoop
          (fun i v a => copyElement name i (cls.replay P v (.member ("st_" ++ name)) a)) vs i a =
            a' ∧
        Copying P owner' path name cls block count a' ∧
        Keeps (OfField path name) owner owner' a.dec a'.dec ∧
        a'.dec.heap block = some (cells.take i ++ os ++ cells.drop (i + vs.length)) ∧
        (∀ heap, Hold (cls.readBack mem heap) os vs) ∧
        (∀ m, m ≠ "st_" ++ name → a'.this m = a.this m) ∧
        cls.Shaped (a'.this ("st_" ++ name)) := by
  induction vs with
  | nil =>
    intro i owner a cells hcopying hcells _ hshaped _
    refine ⟨a, [], owner, rfl, hcopying, (SameHeap.refl _).keeps _ owner, ?_, fun _ => .nil,
      fun _ _ => rfl, hshaped⟩
    rw [List.append_nil, List.length_nil, Nat.add_zero, List.take_append_drop, hcells]
  | cons v rest ih =>
    intro i owner a cells hcopying hcells hle hshaped hahead
    rw [List.length_cons] at hle
    rw [List.flatMap_cons] at hahead
    obtain ⟨hv, hrest⟩ := hahead.split
    obtain ⟨cells', hcells', hcount⟩ := hcopying.cells
    obtain rfl : cells = cells' := Option.some.inj (hcells.symm.trans hcells')
    obtain ⟨o, hthis, hdec⟩ := hel owner (path ++ [(name, 1)]) v (.member ("st_" ++ name)) a
      (Place.suits_of_ne hstr _) hshaped hcopying.static hv
    obtain ⟨owner₁, hkeeps, ho⟩ := hdec.stored
    have hload : (cls.replay P v (.member ("st_" ++ name)) a).this ("st_" ++ name) = o := by
      rw [hthis, Place.store, Function.update_self]
    have hname : (cls.replay P v (.member ("st_" ++ name)) a).this name = a.this name := by
      rw [hthis, Place.store, Function.update_of_ne (Ne.symm hne)]
    have helement := hcopying.element hkeeps hname (hload.symm ▸ ho)
    have hblock : (cls.replay P v (.member ("st_" ++ name)) a).dec.heap block = some cells := by
      rw [hkeeps.heap block hcopying.allocated (hcopying.owned ▸ not_prefix_of_ne (by simp))]
      exact hcells
    have hi : i < cells.length := by omega
    obtain ⟨hkeeps₁, hcopied⟩ := helement.copyElement (i := i) (by omega)
    -- the round: a copy of `o` in the block
    have hset : (copyElement name i (cls.replay P v (.member ("st_" ++ name)) a)).dec.heap block =
        some (cells.set i o) := by
      rw [copyElement, helement.pointer, Decoder.memcpy_some hblock, if_pos hi, hload]
      exact Function.update_self ..
    have hub := (hasRead_copyElement name i (cls.replay P v (.member ("st_" ++ name)) a)).1
    rw [← (DataClass.hasRead_replay P cls v (.member ("st_" ++ name)) a).1] at hrest
    obtain ⟨a', os, owner₂, ha', hend, hkeeps₂, hheap, hhold, hframe, hlast⟩ :=
      ih (i + 1) owner₁ (copyElement name i (cls.replay P v (.member ("st_" ++ name)) a))
        (cells.set i o) hcopied hset (by omega) (hload.symm ▸ hdec.shaped)
        (by rw [hub]; exact hrest)
    refine ⟨a', o :: os, owner₂, ha', hend, ?_, ?_, ?_, ?_, hlast⟩
    · exact ((hkeeps.mono fun q hq => ⟨1, hq⟩).trans
        (hkeeps₁.mono fun q hq => ⟨0, hq⟩)).trans hkeeps₂
    · have hindex : i + 1 + rest.length = i + (rest.length + 1) := by omega
      rw [hheap, take_succ_set hi, List.drop_set_of_lt (by omega), hindex, List.length_cons]
      simp
    · intro heap
      exact .cons (cls.readBack_mono (fun hd => absurd hd hstatic) o v hdec.holds) (hhold heap)
    · intro m hm
      rw [hframe m hm, copyElement, hthis]
      exact Function.update_of_ne hm _ _

/-! ## The fields -/

variable {owner : Nat → Path} {a : Activation}

/-- A field without brackets. -/
theorem restored_single (hel : ElementRestores P mem cls) (hid : isIdentifier name = true)
    {vs : List cls.Val} (hsize : ArraySize.single.Admits vs.length)
    (hshaped : cls.Shaped (a.this name))
    (hstored : cls.Stored P owner a.dec (path ++ [(name, 0)]) (a.this name))
    (hahead : Ahead mem a.dec.ub (vs.flatMap cls.items)) :
    FieldRestored P mem name cls .single vs path owner a
      (replayField P name cls (fun v place => cls.replay P v place) .single vs a) := by
  obtain ⟨v, rfl⟩ := List.length_eq_one_iff.mp hsize
  obtain ⟨o, hthis, hdec⟩ := hel owner (path ++ [(name, 0)]) v (.member name) a
    (fun _ => ⟨name, rfl, mangle_of_isIdentifier hid⟩) hshaped hstored (by simpa using hahead)
  obtain ⟨owner', hkeeps, ho⟩ := hdec.stored
  have hload : (cls.replay P v (.member name) a).this name = o := by
    rw [hthis, Place.store, Function.update_self]
  refine ⟨⟨[o], ?_, .cons hdec.holds .nil⟩, ?_, ?_, owner', hkeeps.mono fun q hq => ⟨0, hq⟩, ?_⟩
  · exact congrArg (fun o => some [o]) hload
  · intro m hm
    have hne : m ≠ name := by simpa [fieldNames] using hm
    simp [replayField, replayLoop, hthis, Place.store, hne]
  · show cls.Shaped ((cls.replay P v (.member name) a).this name)
    rw [hload]
    exact hdec.shaped
  · show cls.Stored P owner' _ _ ((cls.replay P v (.member name) a).this name)
    rw [hload]
    exact ho

/-- A fixed array, of no strings. -/
theorem restored_fixed (hel : ElementRestores P mem cls) (hstr : cls ≠ .string)
    (hinv : cls.Invertible) {n : Nat} {vs : List cls.Val}
    (hsize : (ArraySize.fixed n).Admits vs.length)
    (hshaped : fieldShaped (fun o => cls.Shaped o) name (.fixed n) a.this)
    (hstored : fieldStored P owner a.dec path name cls
      (fun path o => cls.Stored P owner a.dec path o) (.fixed n) a.this)
    (hahead : Ahead mem a.dec.ub (vs.flatMap cls.items)) :
    FieldRestored P mem name cls (.fixed n) vs path owner a
      (replayField P name cls (fun v place => cls.replay P v place) (.fixed n) vs a) := by
  have hn : vs.length = n := hsize
  obtain ⟨a', os, owner', ha', hos, hhold, hframe, hkeeps, hlater⟩ :=
    restored_fixedLoop hel hstr hinv vs 0 owner a (by rw [hshaped.1, hn, Nat.zero_add])
      (fun j o _ hj => ⟨hshaped.2 o (List.mem_of_getElem? hj), hstored j o hj⟩) hahead
  rw [List.take_zero, List.nil_append] at hos
  rw [replayField, ha']
  refine ⟨⟨os, by rw [fieldElems, hos], hhold⟩, ?_, ⟨?_, ?_⟩, owner', hkeeps.mono ?_, ?_⟩
  · intro m hm
    exact hframe m (by simpa [fieldNames] using hm)
  · rw [hos, hhold.length_eq, hn]
  · intro o ho
    rw [hos] at ho
    obtain ⟨k, hk⟩ := List.mem_iff_getElem?.mp ho
    exact (hlater k o hk).1
  · rintro q ⟨j, -, hprefix⟩
    exact ⟨j, hprefix⟩
  · intro k o hk
    rw [hos] at hk
    have hstored' := (hlater k o hk).2
    rwa [Nat.zero_add] at hstored'

/-- A fixed array of no elements. -/
theorem restored_fixed_zero {vs : List cls.Val} (hsize : (ArraySize.fixed 0).Admits vs.length)
    (hshaped : fieldShaped (fun o => cls.Shaped o) name (.fixed 0) a.this)
    (hstored : fieldStored P owner a.dec path name cls
      (fun path o => cls.Stored P owner a.dec path o) (.fixed 0) a.this) :
    FieldRestored P mem name cls (.fixed 0) vs path owner a
      (replayField P name cls (fun v place => cls.replay P v place) (.fixed 0) vs a) := by
  have hvs := List.eq_nil_of_length_eq_zero hsize
  have hos := List.eq_nil_of_length_eq_zero hshaped.1
  subst hvs
  exact ⟨⟨[], by simp [replayField, replayLoop, fieldElems, hos], .nil⟩, fun _ _ => rfl, hshaped,
    owner, (SameHeap.refl _).keeps _ owner, hstored⟩

/-- A variable array, whose elements are no strings and contain no variable array. -/
theorem restored_dynamic (hP : P.Allocates) (hel : ElementRestores P mem cls)
    (hstr : cls ≠ .string) (hstatic : ¬ cls.HasDynamic)
    (hnames : (fieldNames name .dynamic).Nodup) {vs : List cls.Val}
    (hshaped : cls.Shaped (a.this ("st_" ++ name)))
    (hstored : fieldStored P owner a.dec path name cls
      (fun path o => cls.Stored P owner a.dec path o) .dynamic a.this)
    (hahead : Ahead mem a.dec.ub
      (ArraySize.dynamic.lengthItems vs.length ++ vs.flatMap cls.items)) :
    FieldRestored P mem name cls .dynamic vs path owner a
      (replayField P name cls (fun v place => cls.replay P v place) .dynamic vs a) := by
  obtain ⟨hls, hln, hsn⟩ := fieldNames_dynamic_nodup hnames
  have hrest := (Ahead.cons hahead).2
  have hsame : SameHeap a.dec (a.accept (.prim .four vs.length)).dec := ⟨rfl, rfl⟩
  have hread := hsame.keeps (fun _ => False) owner
  have haccepted : fieldStored P owner (a.accept (.prim .four vs.length)).dec path name cls
      (fun path o => cls.Stored P owner (a.accept (.prim .four vs.length)).dec path o) .dynamic
      (a.accept (.prim .four vs.length)).this :=
    fieldStored_keep (fun _ _ => rfl) hread (fun _ _ ho => DataClass.Stored.keep ho hread
      fun _ => id) (fun _ => id) hstored
  rcases Nat.eq_zero_or_pos vs.length with hlen | hpos
  · have hvs := List.eq_nil_of_length_eq_zero hlen
    subst hvs
    have hthis : (replayField P name cls (fun v place => cls.replay P v place) .dynamic [] a).this =
        Function.update a.this (name ++ "_length") (.value 0) := by
      simp [replayField, replayLoop, growArray_zero, Activation.accept]
    have hdec : (replayField P name cls (fun v place => cls.replay P v place) .dynamic [] a).dec =
        (a.accept (.prim .four 0)).dec := by
      simp [replayField, replayLoop, growArray_zero, Activation.accept]
    refine ⟨⟨[], ?_, .nil⟩, ?_, ?_, owner, ?_, ⟨?_, ?_, ?_⟩, ?_⟩
    · rw [hthis]
      simp [fieldElems, Obj.asValue]
    · intro m hm
      rw [hthis, Function.update_of_ne (notMem_fieldNames_dynamic hm).1]
    · show cls.Shaped _
      rw [hthis, Function.update_of_ne (Ne.symm hls)]
      exact hshaped
    · rw [hdec]
      exact hread.mono fun _ => False.elim
    · rw [hthis, hdec, Function.update_of_ne (Ne.symm hln)]
      exact haccepted.1.owned
    · exact hP cls _
    · rw [hthis, Function.update_self]
      exact fun h => absurd h (Nat.lt_irrefl 0)
    · rw [hthis, hdec, Function.update_of_ne (Ne.symm hls)]
      exact haccepted.2
  · have hdown : P.FitsDown := fun cls m _ _ _ => hP cls m
    obtain ⟨owner₁, block, count, hcount, hkeeps, hcopying⟩ :=
      copying_growArray hdown hnames hpos haccepted
    obtain ⟨cells, hcells, hlength⟩ := hcopying.cells
    have hub := (hasRead_growArray P name cls vs.length (a.accept (.prim .four vs.length))).1
    have hgrown : (growArray P name cls vs.length (a.accept (.prim .four vs.length))).this
        ("st_" ++ name) = a.this ("st_" ++ name) :=
      growArray_frame P cls vs.length (a.accept (.prim .four vs.length)) hsn (Ne.symm hls)
    obtain ⟨a', os, owner₂, ha', hend, hkeeps', hheap, hhold, hframe, hlast⟩ :=
      restored_dynamicLoop hel hstr hstatic hsn vs 0 owner₁
        (growArray P name cls vs.length (a.accept (.prim .four vs.length))) cells hcopying hcells
        (by rw [Nat.zero_add]; exact hcount.mpr (hP cls _)) (hgrown.symm ▸ hshaped)
        (by rw [hub]; exact hrest)
    rw [List.take_zero, List.nil_append, Nat.zero_add] at hheap
    have hos : os.length = vs.length := (hhold a'.dec.heap).length_eq
    have hvalue : a'.this (name ++ "_length") = .value vs.length := by
      rw [hframe _ hls]
      simp [growArray]
    rw [replayField, ha']
    refine ⟨⟨os, ?_, hhold _⟩, ?_, hlast, owner₂, ?_, ?_⟩
    · have hblock : (a'.this name).asPointer.bind a'.dec.heap =
          some (os ++ cells.drop vs.length) := by
        rw [hend.pointer, Option.bind_some, hheap]
      have hroom : vs.length ≤ (os ++ cells.drop vs.length).length := by
        rw [List.length_append, hos]
        exact Nat.le_add_right _ _
      rw [fieldElems, hvalue]
      simp only [Obj.asValue, hblock, if_neg (Nat.pos_iff_ne_zero.mp hpos)]
      exact (if_pos hroom).trans (congrArg some (List.take_left' hos))
    · intro m hm
      obtain ⟨hl, hst, hne⟩ := notMem_fieldNames_dynamic hm
      rw [hframe m hst, growArray_frame P cls _ _ hne hl]
      rfl
    · exact (hread.mono fun _ => False.elim).trans (hkeeps.trans hkeeps')
    · exact hend.fieldStored hvalue (hP cls _) (hcount.mpr (hP cls _))

end Loops

/-! ## The induction over the definition -/

section Runs

variable {P : Platform} {mem : List UInt8} {reserved : String → Prop}

mutual

theorem DataClass.elementRestores (hP : P.Allocates) {cls : DataClass}
    (h : cls.Compiles reserved) (hinv : cls.Invertible) : ElementRestores P mem cls := by
  match cls with
  | .primitive p => exact elementRestores_primitive P mem p
  | .string => exact elementRestores_string P mem
  | .message D =>
    intro owner path v place a _ hshaped hstored hahead
    have hsub : D.Restored P mem v path owner ⟨(place.load a.this).members, a.dec⟩
        (D.replay P v ⟨(place.load a.this).members, a.dec⟩) :=
      MessageDef.restored_replay hP (MessageDef.Compiles.partOf h) hinv hshaped hstored hahead
    obtain ⟨owner', hkeeps, hsubStored⟩ := hsub.stored
    exact ⟨.message (D.replay P v ⟨(place.load a.this).members, a.dec⟩).this, rfl, hsub.holds,
      hsub.shaped, owner', hkeeps.mono fun _ => OfFields.prefix, hsubStored⟩

/-- After a run on the layout of a value, an object that was used holds the value. -/
theorem MessageDef.restored_replay (hP : P.Allocates) {members : List (String × MemberType)}
    {D : MessageDef} (h : D.PartOf reserved members) (hinv : D.Invertible) {v : D.Val}
    {path : Path} {owner : Nat → Path} {a : Activation} (hshaped : D.Shaped a.this)
    (hstored : D.Stored P owner a.dec path a.this) (hahead : Ahead mem a.dec.ub (D.items v)) :
    D.Restored P mem v path owner a (D.replay P v a) := by
  match D, v with
  | .nil, _ =>
    exact ⟨rfl, fun _ _ => rfl, trivial, owner, (SameHeap.refl _).keeps _ owner, trivial⟩
  | .cons name cls size rest, (field, more) =>
    obtain ⟨hfield, hmore⟩ := Ahead.split hahead
    have hread := hasRead_replayField P name cls (DataClass.hasRead_replay P cls) size field.val a
    have hel : cls.Invertible → ElementRestores P mem cls :=
      fun hcls => DataClass.elementRestores hP h.compiles.2.1 hcls
    have hdec : FieldRestored P mem name cls size field.val path owner a
        (replayField P name cls (fun v place => cls.replay P v place) size field.val a) := by
      obtain ⟨vs, hsize⟩ := field
      cases size with
      | single =>
        have hid := h.wellNamed.identifier name (by simp [MessageDef.names_cons, fieldNames])
        exact restored_single (hel hinv.1) hid hsize hshaped.1 hstored.1 hfield
      | fixed n =>
        rcases hinv.1 with rfl | ⟨hstr, hcls⟩
        · exact restored_fixed_zero hsize hshaped.1 hstored.1
        · exact restored_fixed (hel hcls) hstr hcls hsize hshaped.1 hstored.1 hfield
      | dynamic =>
        obtain ⟨hstr, hcls, hstatic⟩ := hinv.1
        exact restored_dynamic hP (hel hcls) hstr hstatic h.wellNamed.field hshaped.1 hstored.1
          hfield
    rw [← hread.1] at hmore
    obtain ⟨owner₁, hkeeps, hfieldStored⟩ := hdec.stored
    have hdisjoint : ∀ m, (m, MemberType.other) ∈ rest.members → m ∉ fieldNames name size :=
      fun m hm hf => h.wellNamed.disjoint hf (List.mem_map_of_mem hm)
    have hother : ∀ m, (m, MemberType.other) ∈ rest.members →
        (replayField P name cls (fun v place => cls.replay P v place) size field.val a).this m =
          a.this m := fun m hm => hdec.frame m (hdisjoint m hm)
    have hne : ∀ m ∈ rest.names, name ≠ m := by
      rintro m hm rfl
      exact h.wellNamed.disjoint (name_mem_fieldNames name size) hm
    have hrestStored := hstored.2.keep hother hkeeps fun m hm i more => not_ofField (hne m hm) i
    have hrest : rest.Restored P mem more path owner₁
        (replayField P name cls (fun v place => cls.replay P v place) size field.val a)
        (rest.replay P more
          (replayField P name cls (fun v place => cls.replay P v place) size field.val a)) :=
      MessageDef.restored_replay hP h.rest hinv.2 (hshaped.2.congr hother) hrestStored hmore
    obtain ⟨owner₂, hkeeps', hothers⟩ := hrest.stored
    -- the statements for the other fields leave the first one
    have hsame : ∀ m ∈ fieldNames name size, _ := fun m hm =>
      hrest.frame m (h.wellNamed.disjoint hm)
    have hapart : ∀ i more, ¬ OfFields path rest (path ++ (name, i) :: more) := by
      rintro i more ⟨m, hm, hq⟩
      exact not_ofField (Ne.symm (hne m hm)) i hq
    have happend : ∀ i more, ¬ OfFields path rest (path ++ [(name, i)] ++ more) := by
      intro i more
      rw [List.append_assoc]
      exact hapart i more
    obtain ⟨os, hos, hhold⟩ := FieldHolds.keep field.property hinv.field
      (fun hcls path o v ho hpath => DataClass.readBack_keep hcls ho hkeeps' hpath) hfieldStored
      hkeeps' hapart hdec.holds
    refine ⟨readBack_cons.mpr ⟨⟨os, ?_, hhold⟩, hrest.holds⟩, ?_,
      ⟨fieldShaped_congr hsame hdec.shaped, hrest.shaped⟩, owner₂,
      (hkeeps.mono fun _ => OfFields.of_field).trans (hkeeps'.mono fun _ => OfFields.of_rest),
      fieldStored_keep hsame hkeeps' (fun i o ho => DataClass.Stored.keep ho hkeeps' (happend i))
        (fun i => hapart i []) hfieldStored, hothers⟩
    · exact fieldElems_mono (fun _ => Extends.refl _) hsame hos
    · intro m hm
      rw [MessageDef.names_cons, List.mem_append, not_or] at hm
      exact (hrest.frame m hm.2).trans (hdec.frame m hm.1)

end

end Runs

end Ros2Serial.Generator
