import Ros2Serial.Generator.RoundTrip
import Mathlib.Data.List.Nodup

/-!
# Objects that lose what was decoded

The definitions outside `MessageDef.Invertible`.  For each of them there is a
value that the object does not hold after a run, because some element of it
cannot be read at all.

* An array of strings.  The generator drops the brackets of `x[i]`, so the
  pointers go to a member `xi`, if there is one, and the elements of `x` stay
  null.
* A variable array inside the elements of a variable array.  The elements are
  decoded through one static element and copied with `memcpy`, so the copies
  share its blocks.  If the second element has a longer array than the first
  one, `realloc` frees the block that the copy of the first one points at.

The proofs are about the assignments of a run, `replay`, for any definition.
`Later` is what every run does to the heap, `replay_frame` says which members
it leaves alone, and `Own` bounds the blocks that it can touch.
-/

namespace Ros2Serial.Generator

open Bytes PlainCdr Ucdr

/-! ## What every run does to the heap -/

/-- Identities are given out in order, and a block that is gone stays gone. -/
structure Later (dec dec' : Decoder) : Prop where
  next_le : dec.next ≤ dec'.next
  gone : ∀ id, id < dec.next → dec.heap id = none → dec'.heap id = none
  fresh : dec.Fresh → dec'.Fresh

theorem Later.refl (dec : Decoder) : Later dec dec := ⟨Nat.le_refl _, fun _ _ h => h, id⟩

theorem Later.trans {d1 d2 d3 : Decoder} (h : Later d1 d2) (h' : Later d2 d3) : Later d1 d3 where
  next_le := Nat.le_trans h.next_le h'.next_le
  gone id hid hn := h'.gone id (Nat.lt_of_lt_of_le hid h.next_le) (h.gone id hid hn)
  fresh hf := h'.fresh (h.fresh hf)

theorem later_accept (it : Item) (a : Activation) : Later a.dec (a.accept it).dec :=
  ⟨Nat.le_refl _, fun _ _ h => h, id⟩

/-- Releasing a block makes no other one. -/
theorem released_eq_none {heap : Nat → Option (List Obj)} {id : Nat} (h : heap id = none)
    (block : Nat) : Function.update heap block none id = none := by
  rcases eq_or_ne id block with rfl | hne
  · exact Function.update_self ..
  · rw [Function.update_of_ne hne, h]

/-- `realloc` takes the next identity and releases at most one block. -/
theorem later_realloc (P : Platform) (cls : DataClass) (p : Option Nat) (n : Nat)
    (dec : Decoder) : Later dec (dec.realloc P cls p n).1 := by
  refine ⟨Nat.le_succ _, fun id hid hn => ?_, fun hf id hid => ?_⟩
  · simp only [Decoder.realloc]
    rw [Function.update_of_ne (Nat.ne_of_lt hid)]
    cases p with
    | none => exact hn
    | some block => exact released_eq_none hn block
  · have hlt : dec.next < id := hid
    have hn := hf id (Nat.le_of_lt hlt)
    simp only [Decoder.realloc]
    rw [Function.update_of_ne (Nat.ne_of_gt hlt)]
    cases p with
    | none => exact hn
    | some block => exact released_eq_none hn block

/-- `memcpy` writes into a block that is there. -/
theorem memcpy_heap_of_ne {p : Option Nat} {i : Nat} {o : Obj} {dec : Decoder} {id : Nat}
    (h : p ≠ some id) : (dec.memcpy p i o).heap id = dec.heap id := by
  simp only [Decoder.memcpy]
  split
  · next block =>
    split
    · split
      · have hne : id ≠ block := fun he => h (by rw [he])
        exact Function.update_of_ne hne _ _
      · rfl
    · rfl
  · rfl

theorem memcpy_heap_of_none {p : Option Nat} {i : Nat} {o : Obj} {dec : Decoder} {id : Nat}
    (h : dec.heap id = none) : (dec.memcpy p i o).heap id = none := by
  rcases eq_or_ne p (some id) with rfl | hne
  · simp [Decoder.memcpy, h]
  · rw [memcpy_heap_of_ne hne, h]

theorem later_copyElement (name : String) (i : Nat) (a : Activation) :
    Later a.dec (copyElement name i a).dec where
  next_le := Nat.le_of_eq (Decoder.memcpy_next _ _ _ _).symm
  gone _ _ hn := memcpy_heap_of_none hn
  fresh hf id hid := memcpy_heap_of_none (hf id (by rwa [copyElement, Decoder.memcpy_next] at hid))

theorem later_growArray (P : Platform) (name : String) (cls : DataClass) (n : Nat)
    (a : Activation) : Later a.dec (growArray P name cls n a).dec := by
  simp only [growArray]
  split
  · exact later_realloc P cls _ n a.dec
  · exact Later.refl _

theorem later_replayLoop {α : Type} {body : Nat → α → Activation → Activation}
    (h : ∀ i v a, Later a.dec (body i v a).dec) (vs : List α) (i : Nat) (a : Activation) :
    Later a.dec (replayLoop body vs i a).dec := by
  induction vs generalizing i a with
  | nil => exact Later.refl _
  | cons v rest ih => exact (h i v a).trans (ih (i + 1) (body i v a))

theorem later_replayField {α : Type} (P : Platform) (name : String) (cls : DataClass)
    {element : α → Place → Activation → Activation}
    (h : ∀ v place a, Later a.dec (element v place a).dec) (size : ArraySize) (vs : List α)
    (a : Activation) : Later a.dec (replayField P name cls element size vs a).dec := by
  cases size with
  | single => exact later_replayLoop (fun _ v a => h v _ a) vs 0 a
  | fixed n => exact later_replayLoop (fun _ v a => h v _ a) vs 0 a
  | dynamic =>
    refine ((later_accept (.prim .four vs.length) a).trans
      (later_growArray P name cls vs.length _)).trans ?_
    exact later_replayLoop (fun i v a => (h v _ a).trans (later_copyElement name i _)) vs 0 _

mutual

theorem DataClass.later_replay (P : Platform) (cls : DataClass) (v : cls.Val) (place : Place)
    (a : Activation) : Later a.dec (cls.replay P v place a).dec := by
  match cls, v with
  | .primitive p, v => exact later_accept _ a
  | .string, s => exact ⟨Nat.le_refl _, fun _ _ h => h, id⟩
  | .message D, v => exact D.later_replay P v ⟨(place.load a.this).members, a.dec⟩

theorem MessageDef.later_replay (P : Platform) (D : MessageDef) (v : D.Val) (a : Activation) :
    Later a.dec (D.replay P v a).dec := by
  match D, v with
  | .nil, _ => exact Later.refl _
  | .cons name cls size rest, (field, more) =>
    have hfield := later_replayField P name cls (DataClass.later_replay P cls) size field.val a
    exact hfield.trans (MessageDef.later_replay P rest more _)

end

/-! ## The members that a run leaves alone -/

/-- The last fields of a class with the given members, which compiles. -/
structure MessageDef.PartOf (reserved : String → Prop) (members : List (String × MemberType))
    (D : MessageDef) : Prop where
  nodup : (members.map Prod.fst).Nodup
  identifier : ∀ m ∈ members, isIdentifier m.1 = true
  sub : D.members.Sublist members
  compiles : D.FieldsCompile reserved members

theorem MessageDef.Compiles.partOf {reserved : String → Prop} {D : MessageDef}
    (h : D.Compiles reserved) : D.PartOf reserved D.members :=
  ⟨h.1, fun m hm => (h.2.1 m hm).1, List.Sublist.refl _, h.2.2⟩

section PartOf

variable {reserved : String → Prop} {members : List (String × MemberType)} {name : String}
  {cls : DataClass} {size : ArraySize} {more : MessageDef}

theorem MessageDef.PartOf.rest (h : (MessageDef.cons name cls size more).PartOf reserved members) :
    more.PartOf reserved members :=
  ⟨h.nodup, h.identifier, (List.sublist_append_right _ _).trans h.sub, h.compiles.2.2⟩

theorem MessageDef.PartOf.wellNamed {D : MessageDef} (h : D.PartOf reserved members) :
    D.WellNamed where
  nodup := (h.sub.map Prod.fst).nodup h.nodup
  identifier m hm := by
    obtain ⟨p, hp, rfl⟩ := List.mem_map.mp hm
    exact h.identifier p (h.sub.mem hp)

/-- A member has one type. -/
theorem MessageDef.PartOf.unique {D : MessageDef} (h : D.PartOf reserved members) {m : String}
    (hm : (m, MemberType.other) ∈ D.members) : (m, MemberType.constCharPtr) ∉ members := by
  intro hc
  have := List.inj_on_of_nodup_map h.nodup (h.sub.mem hm) hc rfl
  exact absurd this (by simp)

/-- The members of a field that is not a plain string. -/
theorem mem_members_of_mem_fieldNames (h : cls = .string → size ≠ .single) {m : String}
    (hm : m ∈ fieldNames name size) :
    (m, MemberType.other) ∈ (MessageDef.cons name cls size more).members := by
  refine List.mem_append_left _ ?_
  cases size with
  | single =>
    have hname : m = name := by simpa [fieldNames] using hm
    cases cls with
    | string => exact absurd rfl (h rfl)
    | primitive p => simp [fieldMembers, hname]
    | message D => simp [fieldMembers, hname]
  | fixed n => simpa [fieldMembers, fieldNames] using hm
  | dynamic => simpa [fieldMembers, fieldNames] using hm

theorem mem_members_of_mem_rest {m : String} (hm : (m, MemberType.other) ∈ more.members) :
    (m, MemberType.other) ∈ (MessageDef.cons name cls size more).members :=
  List.mem_append_right _ hm

/-- A class with a variable array of strings does not compile: the static
element is a `char*`. -/
theorem MessageDef.PartOf.dynamic_ne_string
    (h : (MessageDef.cons name cls .dynamic more).PartOf reserved members) : cls ≠ .string := by
  intro hs
  have hmem : ("st_" ++ name, MemberType.other) ∈
      (MessageDef.cons name cls .dynamic more).members :=
    mem_members_of_mem_fieldNames (by simp) (by simp [fieldNames])
  have hid := h.identifier _ (h.sub.mem hmem)
  have htarget := h.compiles.1 hs
  rw [stringTarget, mangle_of_isIdentifier hid] at htarget
  exact h.unique hmem htarget

end PartOf

/-- The statements for an element that is no string write to its place. -/
theorem DataClass.replay_store (P : Platform) {cls : DataClass} (hstr : cls ≠ .string)
    (v : cls.Val) (place : Place) (a : Activation) :
    ∃ o, (cls.replay P v place a).this = place.store a.this o := by
  match cls, v with
  | .primitive p, v => exact ⟨_, rfl⟩
  | .string, s => exact absurd rfl hstr
  | .message D, v => exact ⟨_, rfl⟩

/-- A member that is neither the one of the place nor the target of a string. -/
theorem DataClass.replay_frame (P : Platform) (cls : DataClass) (v : cls.Val) (place : Place)
    (a : Activation) {m : String} (hm : ∀ o, place.store a.this o m = a.this m)
    (hs : cls = .string → m ≠ mangle place.text) :
    (cls.replay P v place a).this m = a.this m := by
  by_cases hstr : cls = .string
  · subst hstr
    exact Function.update_of_ne (hs rfl) _ _
  · obtain ⟨o, ho⟩ := cls.replay_store P hstr v place a
    rw [ho, hm o]

theorem replayLoop_frame {α : Type} {body : Nat → α → Activation → Activation} {m : String}
    (h : ∀ i v a, (body i v a).this m = a.this m) (vs : List α) (i : Nat) (a : Activation) :
    (replayLoop body vs i a).this m = a.this m := by
  induction vs generalizing i a with
  | nil => rfl
  | cons v rest ih => rw [replayLoop, ih, h]

theorem growArray_frame (P : Platform) {name : String} (cls : DataClass) (n : Nat)
    (a : Activation) {m : String} (hm : m ≠ name) (hl : m ≠ name ++ "_length") :
    (growArray P name cls n a).this m = a.this m := by
  simp only [growArray]
  rw [Function.update_of_ne hl]
  split
  · exact Function.update_of_ne hm _ _
  · rfl

/-- A member that is neither one of the field nor the target of its strings. -/
theorem replayField_frame (P : Platform) {name : String} (cls : DataClass) {size : ArraySize}
    (vs : List cls.Val) (a : Activation) {m : String} (hm : m ∉ fieldNames name size)
    (hs : cls = .string → m ≠ stringTarget name size) :
    (replayField P name cls (fun v place => cls.replay P v place) size vs a).this m =
      a.this m := by
  cases size with
  | single =>
    have hne : m ≠ name := by simpa [fieldNames] using hm
    exact replayLoop_frame (fun _ v a => cls.replay_frame P v (.member name) a
      (fun _ => Function.update_of_ne hne _ _) hs) vs 0 a
  | fixed n =>
    have hne : m ≠ name := by simpa [fieldNames] using hm
    exact replayLoop_frame (fun i v a => cls.replay_frame P v (.element name i) a
      (fun _ => Function.update_of_ne hne _ _) hs) vs 0 a
  | dynamic =>
    obtain ⟨hl, hst, hne⟩ := notMem_fieldNames_dynamic hm
    refine (replayLoop_frame (fun i v a => ?_) vs 0 _).trans
      (growArray_frame P cls vs.length _ hne hl)
    exact cls.replay_frame P v (.member ("st_" ++ name)) a
      (fun _ => Function.update_of_ne hst _ _) hs

/-- A member that is not declared by the fields, and is not a `const char*`. -/
theorem MessageDef.replay_frame {reserved : String → Prop} {members : List (String × MemberType)}
    (P : Platform) {D : MessageDef} (h : D.PartOf reserved members) (v : D.Val) (a : Activation)
    {m : String} (hm : m ∉ D.names) (hc : (m, MemberType.constCharPtr) ∉ members) :
    (D.replay P v a).this m = a.this m := by
  match D, v with
  | .nil, _ => rfl
  | .cons name cls size rest, (field, more) =>
    rw [MessageDef.names_cons, List.mem_append, not_or] at hm
    rw [MessageDef.replay, MessageDef.replay_frame P h.rest more _ hm.2 hc]
    exact replayField_frame P cls field.val a hm.1
      fun hs he => hc (he ▸ h.compiles.1 hs)

/-! ## The blocks that a run can touch -/

def fieldOwn (own : Obj → Prop) (k : Nat) (name : String) : ArraySize → Members → Prop
  | .single, this => own (this name)
  | .fixed _, this => ∀ o ∈ (this name).elems, own o
  | .dynamic, this =>
    (∀ block, (this name).asPointer = some block → k ≤ block) ∧ own (this ("st_" ++ name))

mutual

/-- Every block that the element points at, itself or through its parts, has
an identity from `k` on.  The copies in a block are no parts: the decoder
never follows a pointer that it finds in a copy. -/
def DataClass.Own (k : Nat) : DataClass → Obj → Prop
  | .primitive _, _ => True
  | .string, _ => True
  | .message D, o => D.Own k o.members

def MessageDef.Own (k : Nat) : MessageDef → Members → Prop
  | .nil, _ => True
  | .cons name cls size rest, this =>
    fieldOwn (fun o => cls.Own k o) k name size this ∧ rest.Own k this

end

theorem fieldOwn_congr {own : Obj → Prop} {k : Nat} {name : String} {size : ArraySize}
    {this this' : Members} (hthis : ∀ m ∈ fieldNames name size, this' m = this m)
    (h : fieldOwn own k name size this) : fieldOwn own k name size this' := by
  have hname := hthis name (name_mem_fieldNames name size)
  cases size with
  | single => simpa only [fieldOwn, hname] using h
  | fixed n => simpa only [fieldOwn, hname] using h
  | dynamic =>
    have hstatic := hthis ("st_" ++ name) (by simp [fieldNames])
    simpa only [fieldOwn, hname, hstatic] using h

theorem MessageDef.Own.congr {k : Nat} {D : MessageDef} {this this' : Members}
    (hthis : ∀ m, (m, MemberType.other) ∈ D.members → this' m = this m) (h : D.Own k this) :
    D.Own k this' := by
  match D with
  | .nil => trivial
  | .cons name cls size rest =>
    refine ⟨?_, MessageDef.Own.congr (fun m hm => hthis m (mem_members_of_mem_rest hm)) h.2⟩
    by_cases hs : cls = .string ∧ size = .single
    · obtain ⟨rfl, rfl⟩ := hs
      trivial
    · exact fieldOwn_congr (fun m hm => hthis m (mem_members_of_mem_fieldNames
        (fun h1 h2 => hs ⟨h1, h2⟩) hm)) h.1

mutual

theorem DataClass.own_indeterminate (k : Nat) (cls : DataClass) : cls.Own k .indeterminate := by
  match cls with
  | .primitive _ => trivial
  | .string => trivial
  | .message D => exact D.own_indeterminate k

theorem MessageDef.own_indeterminate (k : Nat) (D : MessageDef) :
    D.Own k fun _ => .indeterminate := by
  match D with
  | .nil => trivial
  | .cons name cls size rest =>
    have hcls := DataClass.own_indeterminate k cls
    refine ⟨?_, MessageDef.own_indeterminate k rest⟩
    cases size with
    | single => exact hcls
    | fixed n => simp [fieldOwn, Obj.elems]
    | dynamic => exact ⟨by simp [Obj.asPointer], hcls⟩

end

/-- The blocks below `k` are as they were. -/
def Below (k : Nat) (dec dec' : Decoder) : Prop := ∀ id, id < k → dec'.heap id = dec.heap id

theorem Below.refl (k : Nat) (dec : Decoder) : Below k dec dec := fun _ _ => rfl

theorem Below.trans {k : Nat} {d1 d2 d3 : Decoder} (h : Below k d1 d2) (h' : Below k d2 d3) :
    Below k d1 d3 := fun id hid => (h' id hid).trans (h id hid)

/-- The statements for an element touch the blocks that it points at and new
ones, and leave it with such blocks. -/
def ElementOwns (P : Platform) (k : Nat) (cls : DataClass) : Prop :=
  ∀ (v : cls.Val) (place : Place) (a : Activation), cls.Own k (place.load a.this) →
    k ≤ a.dec.next →
    ∃ o, (cls.replay P v place a).this = place.store a.this o ∧ cls.Own k o ∧
      Below k a.dec (cls.replay P v place a).dec

/-- A loop over strings touches no block. -/
theorem below_stringLoop {k : Nat} {P : Platform} (place : Nat → Place)
    (vs : List DataClass.string.Val) (i : Nat) (a : Activation) :
    Below k a.dec (replayLoop (fun i v => DataClass.string.replay P v (place i)) vs i a).dec := by
  induction vs generalizing i a with
  | nil => exact Below.refl _ _
  | cons v rest ih => exact ih (i + 1) (DataClass.string.replay P v (place i) a)

theorem own_fixedLoop {P : Platform} {k : Nat} {name : String} {cls : DataClass}
    (hel : ElementOwns P k cls) (vs : List cls.Val) (i : Nat) (a : Activation)
    (hown : ∀ o ∈ (a.this name).elems, cls.Own k o) (hk : k ≤ a.dec.next) :
    (∀ o ∈ ((replayLoop (fun i v => cls.replay P v (.element name i)) vs i a).this name).elems,
        cls.Own k o) ∧
      Below k a.dec (replayLoop (fun i v => cls.replay P v (.element name i)) vs i a).dec := by
  induction vs generalizing i a with
  | nil => exact ⟨hown, Below.refl _ _⟩
  | cons v rest ih =>
    have hload : cls.Own k ((Place.element name i).load a.this) := by
      rw [Place.load, List.getD_eq_getElem?_getD]
      cases h : (a.this name).elems[i]? with
      | none => exact cls.own_indeterminate k
      | some o => exact hown o (List.mem_of_getElem? h)
    obtain ⟨o, hthis, ho, hbelow⟩ := hel v (.element name i) a hload hk
    have hlater := cls.later_replay P v (.element name i) a
    obtain ⟨hown', hbelow'⟩ := ih (i + 1) (cls.replay P v (.element name i) a)
      (by
        rw [hthis]
        intro x hx
        simp only [Place.store, Function.update_self, Obj.elems] at hx
        rcases List.mem_or_eq_of_mem_set hx with hx | rfl
        · exact hown x hx
        · exact ho)
      (Nat.le_trans hk hlater.next_le)
    exact ⟨hown', hbelow.trans hbelow'⟩

theorem own_dynamicLoop {P : Platform} {k : Nat} {name : String} {cls : DataClass}
    (hel : ElementOwns P k cls) (hne : name ≠ "st_" ++ name) (vs : List cls.Val) (i : Nat)
    (a : Activation) (hptr : ∀ block, (a.this name).asPointer = some block → k ≤ block)
    (hown : cls.Own k (a.this ("st_" ++ name))) (hk : k ≤ a.dec.next) :
    let a' := replayLoop
      (fun i v a => copyElement name i (cls.replay P v (.member ("st_" ++ name)) a)) vs i a
    cls.Own k (a'.this ("st_" ++ name)) ∧ a'.this name = a.this name ∧ Below k a.dec a'.dec := by
  induction vs generalizing i a with
  | nil => exact ⟨hown, rfl, Below.refl _ _⟩
  | cons v rest ih =>
    obtain ⟨o, hthis, ho, hbelow⟩ := hel v (.member ("st_" ++ name)) a hown hk
    have hlater := cls.later_replay P v (.member ("st_" ++ name)) a
    have hname : (cls.replay P v (.member ("st_" ++ name)) a).this name = a.this name := by
      rw [hthis, Place.store, Function.update_of_ne hne]
    have hcopy : Below k (cls.replay P v (.member ("st_" ++ name)) a).dec
        (copyElement name i (cls.replay P v (.member ("st_" ++ name)) a)).dec := by
      intro id hid
      refine memcpy_heap_of_ne fun hp => ?_
      rw [hname] at hp
      have := hptr id hp
      omega
    obtain ⟨hown', hname', hbelow'⟩ :=
      ih (i + 1) (copyElement name i (cls.replay P v (.member ("st_" ++ name)) a))
        (by
          intro block hb
          rw [copyElement, hname] at hb
          exact hptr block hb)
        (by
          rw [copyElement, hthis]
          simpa [Place.store] using ho)
        (by
          rw [copyElement, Decoder.memcpy_next]
          exact Nat.le_trans hk hlater.next_le)
    exact ⟨hown', hname'.trans hname, (hbelow.trans hcopy).trans hbelow'⟩

/-- The block in front of the loop of a variable array is new, and the one it
replaces is its own. -/
theorem own_growArray (P : Platform) {k : Nat} {name : String} (cls : DataClass) (n : Nat)
    {a : Activation} (hptr : ∀ block, (a.this name).asPointer = some block → k ≤ block)
    (hk : k ≤ a.dec.next) (hne : name ≠ name ++ "_length") :
    (∀ block, ((growArray P name cls n a).this name).asPointer = some block → k ≤ block) ∧
      Below k a.dec (growArray P name cls n a).dec := by
  simp only [growArray]
  rw [Function.update_of_ne hne]
  split
  · refine ⟨fun block hb => ?_, fun id hid => ?_⟩
    · simp only [Function.update_self, Obj.asPointer, Decoder.realloc, Option.some.injEq] at hb
      omega
    · simp only [Decoder.realloc]
      rw [Function.update_of_ne (by omega)]
      cases hp : (a.this name).asPointer with
      | none => rfl
      | some block =>
        have := hptr block hp
        exact Function.update_of_ne (by omega) _ _
  · exact ⟨hptr, Below.refl _ _⟩

section Own

variable {reserved : String → Prop} {P : Platform} {k : Nat}

theorem own_replayField {members : List (String × MemberType)} {name : String} {cls : DataClass}
    {size : ArraySize} {more : MessageDef}
    (h : (MessageDef.cons name cls size more).PartOf reserved members)
    (hel : cls ≠ .string → ElementOwns P k cls) (vs : List cls.Val) {a : Activation}
    (hown : fieldOwn (fun o => cls.Own k o) k name size a.this) (hk : k ≤ a.dec.next) :
    let a' := replayField P name cls (fun v place => cls.replay P v place) size vs a
    fieldOwn (fun o => cls.Own k o) k name size a'.this ∧ Below k a.dec a'.dec := by
  by_cases hstr : cls = .string
  · subst hstr
    cases size with
    | single => exact ⟨trivial, below_stringLoop (fun _ => .member name) vs 0 a⟩
    | fixed n =>
      exact ⟨fun _ _ => trivial, below_stringLoop (fun i => .element name i) vs 0 a⟩
    | dynamic => exact absurd rfl h.dynamic_ne_string
  · have hel := hel hstr
    cases size with
    | single =>
      suffices hloop : ∀ (vs : List cls.Val) (i : Nat) (a : Activation), cls.Own k (a.this name) →
          k ≤ a.dec.next →
          let a' := replayLoop (fun _ v => cls.replay P v (.member name)) vs i a
          cls.Own k (a'.this name) ∧ Below k a.dec a'.dec from hloop vs 0 a hown hk
      intro vs
      induction vs with
      | nil => exact fun _ a hown _ => ⟨hown, Below.refl _ _⟩
      | cons v rest ih =>
        intro i a hown hk
        obtain ⟨o, hthis, ho, hbelow⟩ := hel v (.member name) a hown hk
        have hlater := cls.later_replay P v (.member name) a
        obtain ⟨hown', hbelow'⟩ := ih (i + 1) (cls.replay P v (.member name) a)
          (by rw [hthis]; simpa [Place.store] using ho) (Nat.le_trans hk hlater.next_le)
        exact ⟨hown', hbelow.trans hbelow'⟩
    | fixed n => exact own_fixedLoop hel vs 0 a hown hk
    | dynamic =>
      have hn := h.wellNamed.field
      obtain ⟨hls, hln, hsn⟩ := fieldNames_dynamic_nodup hn
      obtain ⟨hptr, hbelow⟩ := own_growArray P cls vs.length (a := a.accept (.prim .four vs.length))
        hown.1 hk (Ne.symm hln)
      have hlater := later_growArray P name cls vs.length (a.accept (.prim .four vs.length))
      obtain ⟨hst, hname, hbelow'⟩ := own_dynamicLoop hel (Ne.symm hsn) vs 0
        (growArray P name cls vs.length (a.accept (.prim .four vs.length))) hptr
        (by rw [growArray_frame P cls _ _ hsn (Ne.symm hls)]; exact hown.2)
        (Nat.le_trans hk hlater.next_le)
      exact ⟨⟨by rw [replayField, hname]; exact hptr, hst⟩, hbelow.trans hbelow'⟩

mutual

theorem DataClass.elementOwns {cls : DataClass} (h : cls.Compiles reserved) (hstr : cls ≠ .string) :
    ElementOwns P k cls := by
  match cls with
  | .primitive p => exact fun v place a _ _ => ⟨_, rfl, trivial, Below.refl _ _⟩
  | .string => exact absurd rfl hstr
  | .message D =>
    intro v place a hown hk
    have hpart : D.PartOf reserved D.members := MessageDef.Compiles.partOf h
    have hsub := MessageDef.own_replay hpart v
      (a := ⟨(place.load a.this).members, a.dec⟩) hown hk
    exact ⟨.message (D.replay P v ⟨(place.load a.this).members, a.dec⟩).this, rfl, hsub⟩

/-- `cdr_deserialize` touches the blocks of its object and new ones only. -/
theorem MessageDef.own_replay {members : List (String × MemberType)} {D : MessageDef}
    (h : D.PartOf reserved members) (v : D.Val) {a : Activation} (hown : D.Own k a.this)
    (hk : k ≤ a.dec.next) :
    D.Own k (D.replay P v a).this ∧ Below k a.dec (D.replay P v a).dec := by
  match D, v with
  | .nil, _ => exact ⟨trivial, Below.refl _ _⟩
  | .cons name cls size rest, (field, more) =>
    obtain ⟨hfown, hbelow⟩ := own_replayField h
      (fun hstr => DataClass.elementOwns h.compiles.2.1 hstr) field.val hown.1 hk
    have hlater := later_replayField P name cls (DataClass.later_replay P cls) size field.val a
    have hkeep : ∀ m, (m, MemberType.other) ∈ rest.members →
        (replayField P name cls (fun v place => cls.replay P v place) size field.val a).this m =
          a.this m := by
      intro m hm
      have hnames : m ∈ rest.names := List.mem_map_of_mem (f := Prod.fst) hm
      refine replayField_frame P cls field.val a (fun hf => h.wellNamed.disjoint hf hnames)
        fun hs he => h.unique (mem_members_of_mem_rest hm) (he ▸ h.compiles.1 hs)
    obtain ⟨hrown, hbelow'⟩ := MessageDef.own_replay h.rest more (hown.2.congr hkeep)
      (Nat.le_trans hk hlater.next_le)
    refine ⟨⟨?_, hrown⟩, hbelow.trans hbelow'⟩
    by_cases hs : cls = .string ∧ size = .single
    · obtain ⟨rfl, rfl⟩ := hs
      trivial
    · refine fieldOwn_congr (fun m hm => ?_) hfown
      have hother : (m, MemberType.other) ∈ (MessageDef.cons name cls size rest).members :=
        mem_members_of_mem_fieldNames (fun h1 h2 => hs ⟨h1, h2⟩) hm
      exact MessageDef.replay_frame P h.rest more _ (h.wellNamed.disjoint hm) (h.unique hother)

end

end Own

end Ros2Serial.Generator
