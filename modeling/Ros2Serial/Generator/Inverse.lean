import Ros2Serial.Generator.Aliasing

/-!
# Which generated pairs are inverse

`MessageDef.Inverse` says that the class compiles and that decoding what was
encoded gives back every value.  `inverse_iff` settles it: the class has to
compile and the definition has to be `Invertible`.

One direction is `MessageDef.decoded_replay`.  For the other one, a definition
that is not `Invertible` gets a value that is lost
(`MessageDef.exists_lost`).  The value is found by recursion over the
definition: at the field that breaks it, a list of elements that shows the
defect, and everywhere else sample values.
-/

namespace Ros2Serial.Generator

open Bytes PlainCdr Ucdr

/-! ## Sample values -/

def ArraySize.sampleLength (k : Nat) : ArraySize → Nat
  | .single => 1
  | .fixed n => n
  | .dynamic => k

theorem ArraySize.admits_sampleLength (size : ArraySize) {k : Nat} (hk : k < 2 ^ 32) :
    size.Admits (size.sampleLength k) := by
  cases size with
  | single => rfl
  | fixed n => rfl
  | dynamic => exact hk

mutual

/-- The number `k`, empty strings, and `k` elements in each variable array. -/
def DataClass.sample (k : Nat) (hk : k < 2 ^ 32) : (cls : DataClass) → cls.Val
  | .primitive p => (⟨k % p.card, Nat.mod_lt k p.card_pos⟩ : Fin p.card)
  | .string => (⟨[], by simp, by simp⟩ : CString)
  | .message D => D.sample k hk

def MessageDef.sample (k : Nat) (hk : k < 2 ^ 32) : (D : MessageDef) → D.Val
  | .nil => ()
  | .cons _ cls size rest =>
    (⟨List.replicate (size.sampleLength k) (cls.sample k hk), by
        simpa using size.admits_sampleLength hk⟩, rest.sample k hk)

end

/-! ## Constructed objects -/

/-- The members are as the constructor leaves them.  Strings do not matter. -/
def Constructed (D : MessageDef) (this : Members) : Prop :=
  ∀ m, (m, MemberType.other) ∈ D.members → this m = D.construct m

section Constructed

variable {name : String} {cls : DataClass} {more : MessageDef} {this : Members}

theorem Constructed.rest {size : ArraySize}
    (h : Constructed (.cons name cls size more) this)
    (hnamed : (MessageDef.cons name cls size more).WellNamed) : Constructed more this := by
  intro m hm
  rw [h m (mem_members_of_mem_rest hm)]
  have hnames : m ∈ more.names := List.mem_map_of_mem hm
  exact construct_cons_of_notMem fun hf => hnamed.disjoint hf hnames

theorem Constructed.single (h : Constructed (.cons name cls .single more) this)
    (hstr : cls ≠ .string) : this name = cls.construct := by
  rw [h name (mem_members_of_mem_fieldNames (fun hs => absurd hs hstr) (by simp [fieldNames]))]
  cases cls with
  | string => exact absurd rfl hstr
  | primitive p => simp [MessageDef.construct]
  | message D => simp [MessageDef.construct]

theorem Constructed.fixed {n : Nat} (h : Constructed (.cons name cls (.fixed n) more) this) :
    (this name).elems = List.replicate n cls.construct := by
  rw [h name (mem_members_of_mem_fieldNames (by simp) (by simp [fieldNames]))]
  simp [MessageDef.construct, Obj.elems]

theorem Constructed.dynamic (h : Constructed (.cons name cls .dynamic more) this)
    (hnames : (fieldNames name .dynamic).Nodup) :
    (this (name ++ "_length")).asValue = 0 ∧ (this name).asPointer = none ∧
      this ("st_" ++ name) = cls.construct := by
  have hother : ∀ m ∈ fieldNames name .dynamic, this m =
      (MessageDef.cons name cls .dynamic more).construct m := fun m hm =>
    h m (mem_members_of_mem_fieldNames (by simp) hm)
  obtain ⟨hls, hln, hsn⟩ := fieldNames_dynamic_nodup hnames
  rw [hother _ (by simp [fieldNames]), hother name (by simp [fieldNames]),
    hother ("st_" ++ name) (by simp [fieldNames])]
  simp [MessageDef.construct, hls, hln, hsn, Obj.asValue, Obj.asPointer]

end Constructed

theorem constructed_construct (D : MessageDef) : Constructed D D.construct := fun _ _ => rfl

mutual

/-- A value-initialised element points at nothing. -/
theorem DataClass.own_construct (k : Nat) {cls : DataClass} (h : cls.AllWellNamed) :
    cls.Own k cls.construct := by
  match cls with
  | .primitive _ => trivial
  | .string => trivial
  | .message D => exact MessageDef.own_of_constructed k h.1 h.2 (constructed_construct D)

theorem MessageDef.own_of_constructed (k : Nat) {D : MessageDef} (hnamed : D.WellNamed)
    (hfields : D.FieldsWellNamed) {this : Members} (h : Constructed D this) : D.Own k this := by
  match D with
  | .nil => trivial
  | .cons name cls size rest =>
    have hcls := DataClass.own_construct k hfields.1
    refine ⟨?_, MessageDef.own_of_constructed k hnamed.rest hfields.2 (h.rest hnamed)⟩
    cases size with
    | single =>
      by_cases hstr : cls = .string
      · subst hstr
        trivial
      · simpa only [fieldOwn, h.single hstr] using hcls
    | fixed n =>
      intro o ho
      rw [h.fixed] at ho
      rw [List.eq_of_mem_replicate ho]
      exact hcls
    | dynamic =>
      obtain ⟨-, hptr, hst⟩ := h.dynamic hnamed.field
      exact ⟨by simp [hptr], by rw [hst]; exact hcls⟩

end

/-- A run from any member values leaves the later fields as constructed. -/
theorem Constructed.replayField {reserved : String → Prop}
    {members : List (String × MemberType)} (P : Platform) {name : String} {cls : DataClass}
    {size : ArraySize} {more : MessageDef}
    (hpart : (MessageDef.cons name cls size more).PartOf reserved members) {a : Activation}
    (h : Constructed (.cons name cls size more) a.this) (vs : List cls.Val) :
    Constructed more
      (replayField P name cls (fun v place => cls.replay P v place) size vs a).this := by
  intro m hm
  have hnames : m ∈ more.names := List.mem_map_of_mem hm
  rw [replayField_frame P cls vs a (fun hf => hpart.wellNamed.disjoint hf hnames)
    fun hs he => hpart.unique (mem_members_of_mem_rest hm) (he ▸ hpart.compiles.1 hs)]
  exact h.rest hpart.wellNamed m hm

/-! ## Pointers at released blocks -/

def fieldPointsAt (inner : Obj → Prop) (block : Nat) (name : String) :
    ArraySize → Members → Prop
  | .single, this => inner (this name)
  | .fixed n, this => ∃ i o, i < n ∧ (this name).elems[i]? = some o ∧ inner o
  | .dynamic, this =>
    (this (name ++ "_length")).asValue = 1 ∧ (this name).asPointer = some block

mutual

/-- The element has a variable array of one element, in the given block. -/
def DataClass.PointsAt (block : Nat) : DataClass → Obj → Prop
  | .primitive _, _ => False
  | .string, _ => False
  | .message D, o => D.PointsAt block o.members

def MessageDef.PointsAt (block : Nat) : MessageDef → Members → Prop
  | .nil, _ => False
  | .cons name cls size rest, this =>
    fieldPointsAt (fun o => cls.PointsAt block o) block name size this ∨ rest.PointsAt block this

end

theorem fieldPointsAt_congr {inner : Obj → Prop} {block : Nat} {name : String} {size : ArraySize}
    {this this' : Members} (hthis : ∀ m ∈ fieldNames name size, this' m = this m)
    (h : fieldPointsAt inner block name size this) :
    fieldPointsAt inner block name size this' := by
  have hname := hthis name (name_mem_fieldNames name size)
  cases size with
  | single => simpa only [fieldPointsAt, hname] using h
  | fixed n => simpa only [fieldPointsAt, hname] using h
  | dynamic =>
    have hlength := hthis (name ++ "_length") (by simp [fieldNames])
    simpa only [fieldPointsAt, hname, hlength] using h

theorem MessageDef.PointsAt.congr {block : Nat} {D : MessageDef} {this this' : Members}
    (hthis : ∀ m, (m, MemberType.other) ∈ D.members → this' m = this m)
    (h : D.PointsAt block this) : D.PointsAt block this' := by
  match D with
  | .nil => exact h
  | .cons name cls size rest =>
    rcases h with h | h
    · refine Or.inl (fieldPointsAt_congr (fun m hm => hthis m (mem_members_of_mem_fieldNames
        (fun hs h1 => ?_) hm)) h)
      subst hs h1
      exact h
    · exact Or.inr (MessageDef.PointsAt.congr
        (fun m hm => hthis m (mem_members_of_mem_rest hm)) h)

/-- Objects that hold values can be read. -/
theorem Hold.exists_of_mem {α : Type} {read : Obj → Option α} {os : List Obj} {vs : List α}
    (h : Hold read os vs) {o : Obj} (ho : o ∈ os) : ∃ v, read o = some v := by
  induction h with
  | nil => simp at ho
  | cons hv _ ih =>
    rcases List.mem_cons.mp ho with rfl | hmem
    · exact ⟨_, hv⟩
    · exact ih hmem

mutual

/-- An element with a pointer at a released block cannot be read. -/
theorem DataClass.PointsAt.not_readable {mem : List UInt8} {heap : Nat → Option (List Obj)}
    {block : Nat} (hgone : heap block = none) {cls : DataClass} {o : Obj}
    (h : cls.PointsAt block o) (v : cls.Val) : cls.readBack mem heap o ≠ some v := by
  match cls, o with
  | .message D, o =>
    exact fun hread => MessageDef.PointsAt.not_readable hgone h v (readBack_message hread)

theorem MessageDef.PointsAt.not_readable {mem : List UInt8} {heap : Nat → Option (List Obj)}
    {block : Nat} (hgone : heap block = none) {D : MessageDef} {this : Members}
    (h : D.PointsAt block this) (v : D.Val) : D.readBack mem heap this ≠ some v := by
  match D, v with
  | .cons name cls size rest, (field, more) =>
    intro hread
    obtain ⟨⟨os, hos, hhold⟩, hmore⟩ := readBack_cons.mp hread
    rcases h with h | h
    · cases size with
      | single =>
        have hmem : this name ∈ os := by
          rw [fieldElems, Option.some.injEq] at hos
          simp [← hos]
        obtain ⟨w, hw⟩ := hhold.exists_of_mem hmem
        exact DataClass.PointsAt.not_readable hgone h w hw
      | fixed n =>
        obtain ⟨i, o, -, ho, hpoints⟩ := h
        rw [fieldElems, Option.some.injEq] at hos
        obtain ⟨w, hw⟩ := hhold.exists_of_mem (hos ▸ List.mem_of_getElem? ho)
        exact DataClass.PointsAt.not_readable hgone hpoints w hw
      | dynamic =>
        obtain ⟨hlen, hptr⟩ := h
        simp [fieldElems, hlen, hptr, hgone] at hos
    · exact MessageDef.PointsAt.not_readable hgone h more hmore

end

/-! ## The first run makes such a pointer -/

/-- The loop of a fixed array leaves the elements in front alone. -/
theorem fixedLoop_getElem? {P : Platform} {name : String} {cls : DataClass} (hstr : cls ≠ .string)
    (vs : List cls.Val) (i : Nat) (a : Activation) {j : Nat} (hj : j < i) :
    ((replayLoop (fun i v => cls.replay P v (.element name i)) vs i a).this name).elems[j]? =
      (a.this name).elems[j]? := by
  induction vs generalizing i a with
  | nil => rfl
  | cons v rest ih =>
    obtain ⟨o, ho⟩ := cls.replay_store P hstr v (.element name i) a
    rw [replayLoop, ih (i + 1) _ (by omega), ho, Place.elems_store_element,
      List.getElem?_set_ne (by omega)]

section Runs

variable {reserved : String → Prop} {P : Platform}

theorem pointsAt_replayField (hP : P.Allocates) {members : List (String × MemberType)}
    {name : String} {cls : DataClass} {size : ArraySize} {more : MessageDef}
    (hpart : (MessageDef.cons name cls size more).PartOf reserved members)
    (hdyn : size.HasDynamic cls.HasDynamic) (v : cls.Val)
    (hel : cls.HasDynamic → ∀ (place : Place) (a : Activation),
      place.load a.this = cls.construct →
      ∃ o block, (cls.replay P v place a).this = place.store a.this o ∧ a.dec.next ≤ block ∧
        block < (cls.replay P v place a).dec.next ∧ cls.PointsAt block o)
    {a : Activation} (h : Constructed (.cons name cls size more) a.this) {vs : List cls.Val}
    (hvs : vs = List.replicate (size.sampleLength 1) v) :
    let a' := replayField P name cls (fun v place => cls.replay P v place) size vs a
    ∃ block, a.dec.next ≤ block ∧ block < a'.dec.next ∧
      fieldPointsAt (fun o => cls.PointsAt block o) block name size a'.this := by
  subst hvs
  have hstr : cls.HasDynamic → cls ≠ .string := by
    intro hd heq
    subst heq
    exact hd
  cases size with
  | single =>
    obtain ⟨o, block, hthis, hle, hlt, hpoints⟩ := hel hdyn (.member name) a (h.single (hstr hdyn))
    refine ⟨block, hle, hlt, ?_⟩
    simpa [replayField, replayLoop, ArraySize.sampleLength, fieldPointsAt, hthis, Place.store]
      using hpoints
  | fixed n =>
    obtain ⟨hpos, hd⟩ := hdyn
    obtain ⟨n, rfl⟩ : ∃ m, n = m + 1 := ⟨n - 1, by omega⟩
    have helems := h.fixed
    obtain ⟨o, block, hthis, hle, hlt, hpoints⟩ := hel hd (.element name 0) a (by
      rw [Place.load, helems]
      simp [List.replicate_succ])
    refine ⟨block, hle, ?_, 0, o, hpos, ?_, hpoints⟩
    · exact Nat.lt_of_lt_of_le hlt (later_replayLoop
        (fun i v a => cls.later_replay P v (.element name i) a) _ 1 _).next_le
    · simp only [replayField, ArraySize.sampleLength, List.replicate_succ, replayLoop]
      rw [fixedLoop_getElem? (hstr hd) _ 1 _ (by omega), hthis, Place.elems_store_element, helems]
      simp
  | dynamic =>
    have hn := hpart.wellNamed.field
    obtain ⟨h0, hnone, -⟩ := h.dynamic hn
    obtain ⟨hls, hln, hsn⟩ := fieldNames_dynamic_nodup hn
    obtain ⟨cells, -, hgrow⟩ := growArray_pos hP cls (Nat.succ_pos 0)
      (a := a.accept (.prim .four 1)) h0 hnone
    have hframe : ∀ m, m ≠ "st_" ++ name →
        ∀ a, (replayLoop (fun i v a => copyElement name i
          (cls.replay P v (.member ("st_" ++ name)) a)) [v] 0 a).this m = a.this m := by
      intro m hm a
      refine replayLoop_frame (fun i v a => ?_) [v] 0 a
      exact cls.replay_frame P v (.member ("st_" ++ name)) a
        (fun _ => Function.update_of_ne hm _ _) (fun hs => absurd hs hpart.dynamic_ne_string)
    refine ⟨a.dec.next, Nat.le_refl _, ?_, ?_, ?_⟩
    · have hlater := later_replayLoop (fun i v a => (cls.later_replay P v
        (.member ("st_" ++ name)) a).trans (later_copyElement name i _)) [v] 0
        (growArray P name cls 1 (a.accept (.prim .four 1)))
      refine Nat.lt_of_lt_of_le ?_ hlater.next_le
      rw [hgrow]
      exact Nat.lt_succ_self _
    · simp only [replayField, ArraySize.sampleLength, List.replicate_one, List.length_singleton]
      rw [hframe _ hls, hgrow]
      simp [Obj.asValue]
    · simp only [replayField, ArraySize.sampleLength, List.replicate_one, List.length_singleton]
      rw [hframe _ (Ne.symm hsn), hgrow]
      simp [Function.update_of_ne (Ne.symm hln), Obj.asPointer, Activation.accept]

mutual

/-- After the sample with arrays of one element, an element with a variable
array points at a block of its own. -/
theorem DataClass.pointsAt_replay (hP : P.Allocates) {cls : DataClass}
    (h : cls.Compiles reserved) (hd : cls.HasDynamic) (place : Place) (a : Activation)
    (hload : place.load a.this = cls.construct) :
    ∃ o block, (cls.replay P (cls.sample 1 (by decide)) place a).this = place.store a.this o ∧
      a.dec.next ≤ block ∧ block < (cls.replay P (cls.sample 1 (by decide)) place a).dec.next ∧
      cls.PointsAt block o := by
  match cls with
  | .message D =>
    obtain ⟨block, hle, hlt, hpoints⟩ := MessageDef.pointsAt_replay hP
      (MessageDef.Compiles.partOf h) hd (a := ⟨(place.load a.this).members, a.dec⟩)
      (by rw [hload]; exact constructed_construct D)
    exact ⟨_, block, rfl, hle, hlt, hpoints⟩

theorem MessageDef.pointsAt_replay (hP : P.Allocates) {members : List (String × MemberType)}
    {D : MessageDef} (hpart : D.PartOf reserved members) (hd : D.HasDynamic) {a : Activation}
    (h : Constructed D a.this) :
    ∃ block, a.dec.next ≤ block ∧ block < (D.replay P (D.sample 1 (by decide)) a).dec.next ∧
      D.PointsAt block (D.replay P (D.sample 1 (by decide)) a).this := by
  match D with
  | .cons name cls size rest =>
    have hlater := later_replayField P name cls (DataClass.later_replay P cls) size
      (List.replicate (size.sampleLength 1) (cls.sample 1 (by decide))) a
    have hmore := h.replayField P hpart
      (List.replicate (size.sampleLength 1) (cls.sample 1 (by decide)))
    rcases hd with hd | hd
    · obtain ⟨block, hle, hlt, hpoints⟩ := pointsAt_replayField hP hpart hd
        (cls.sample 1 (by decide))
        (fun hd place a => DataClass.pointsAt_replay hP hpart.compiles.2.1 hd place a) h rfl
      refine ⟨block, hle, Nat.lt_of_lt_of_le hlt (rest.later_replay P _ _).next_le, Or.inl ?_⟩
      refine fieldPointsAt_congr (fun m hm => ?_) hpoints
      have hother : (m, MemberType.other) ∈ (MessageDef.cons name cls size rest).members := by
        refine mem_members_of_mem_fieldNames (fun hs h1 => ?_) hm
        subst hs h1
        exact hd
      exact MessageDef.replay_frame P hpart.rest _ _ (hpart.wellNamed.disjoint hm)
        (hpart.unique hother)
    · obtain ⟨block, hle, hlt, hpoints⟩ := MessageDef.pointsAt_replay hP hpart.rest hd hmore
      exact ⟨block, Nat.le_trans hlater.next_le hle, hlt, Or.inr hpoints⟩

end

/-! ## The second run releases the block -/

theorem gone_fixedLoop {block : Nat} {name : String} {cls : DataClass} (v : cls.Val)
    (hstr : cls ≠ .string)
    (hel : ∀ (place : Place) (a : Activation), cls.PointsAt block (place.load a.this) →
      block < a.dec.next → (cls.replay P v place a).dec.heap block = none)
    (n i : Nat) (a : Activation) {j : Nat} {o : Obj} (hij : i ≤ j) (hj : j < i + n)
    (ho : (a.this name).elems[j]? = some o) (hpoints : cls.PointsAt block o)
    (hlt : block < a.dec.next) :
    (replayLoop (fun i v => cls.replay P v (.element name i)) (List.replicate n v) i a).dec.heap
      block = none := by
  induction n generalizing i a with
  | zero => omega
  | succ n ih =>
    rw [List.replicate_succ, replayLoop]
    have hlater := cls.later_replay P v (.element name i) a
    rcases Nat.eq_or_lt_of_le hij with rfl | hij
    · have hgone := hel (.element name i) a (by
        rw [Place.load, List.getD_eq_getElem?_getD, ho]
        exact hpoints) hlt
      exact (later_replayLoop (fun i v a => cls.later_replay P v (.element name i) a) _ _ _).gone
        block (Nat.lt_of_lt_of_le hlt hlater.next_le) hgone
    · obtain ⟨x, hx⟩ := cls.replay_store P hstr v (.element name i) a
      refine ih (i + 1) _ hij (by omega) ?_ (Nat.lt_of_lt_of_le hlt hlater.next_le)
      rw [hx, Place.elems_store_element, List.getElem?_set_ne (Nat.ne_of_lt hij), ho]

theorem gone_replayField {block : Nat} {name : String} {cls : DataClass} {size : ArraySize}
    (v : cls.Val)
    (hel : ∀ (place : Place) (a : Activation), cls.PointsAt block (place.load a.this) →
      block < a.dec.next → (cls.replay P v place a).dec.heap block = none)
    {a : Activation}
    (hpoints : fieldPointsAt (fun o => cls.PointsAt block o) block name size a.this)
    (hlt : block < a.dec.next) {vs : List cls.Val}
    (hvs : vs = List.replicate (size.sampleLength 2) v) :
    (replayField P name cls (fun v place => cls.replay P v place) size vs a).dec.heap block =
      none := by
  subst hvs
  cases size with
  | single => exact hel (.member name) a hpoints hlt
  | fixed n =>
    obtain ⟨j, o, hj, ho, hpo⟩ := hpoints
    refine gone_fixedLoop v ?_ hel n 0 a (Nat.zero_le j) (by omega) ho hpo hlt
    intro heq
    subst heq
    exact hpo
  | dynamic =>
    obtain ⟨hlen, hptr⟩ := hpoints
    have hgone : (growArray P name cls 2 (a.accept (.prim .four 2))).dec.heap block = none := by
      have hne : block ≠ a.dec.next := Nat.ne_of_lt hlt
      simp [growArray, hlen, hptr, Decoder.realloc, Activation.accept, Function.update_of_ne hne]
    have hlater := later_growArray P name cls 2 (a.accept (.prim .four 2))
    exact (later_replayLoop (fun i v a => (cls.later_replay P v
      (.member ("st_" ++ name)) a).trans (later_copyElement name i _)) _ 0 _).gone block
      (Nat.lt_of_lt_of_le hlt hlater.next_le) hgone

mutual

/-- The sample with arrays of two elements releases the block of an array of
one element. -/
theorem DataClass.gone_replay {cls : DataClass} (h : cls.Compiles reserved) {block : Nat}
    (place : Place) (a : Activation) (hpoints : cls.PointsAt block (place.load a.this))
    (hlt : block < a.dec.next) :
    (cls.replay P (cls.sample 2 (by decide)) place a).dec.heap block = none := by
  match cls with
  | .message D =>
    exact MessageDef.gone_replay (MessageDef.Compiles.partOf h)
      (a := ⟨(place.load a.this).members, a.dec⟩) hpoints hlt

theorem MessageDef.gone_replay {members : List (String × MemberType)} {D : MessageDef}
    (hpart : D.PartOf reserved members) {block : Nat} {a : Activation}
    (hpoints : D.PointsAt block a.this) (hlt : block < a.dec.next) :
    (D.replay P (D.sample 2 (by decide)) a).dec.heap block = none := by
  match D with
  | .cons name cls size rest =>
    have hlater := later_replayField P name cls (DataClass.later_replay P cls) size
      (List.replicate (size.sampleLength 2) (cls.sample 2 (by decide))) a
    have hlt' := Nat.lt_of_lt_of_le hlt hlater.next_le
    rcases hpoints with hpoints | hpoints
    · have hgone := gone_replayField (P := P) (cls.sample 2 (by decide))
        (fun place a => DataClass.gone_replay hpart.compiles.2.1 place a) hpoints hlt rfl
      exact (rest.later_replay P _ _).gone block hlt' hgone
    · refine MessageDef.gone_replay hpart.rest (hpoints.congr fun m hm => ?_) hlt'
      have hnames : m ∈ rest.names := List.mem_map_of_mem hm
      exact replayField_frame P cls _ a (fun hf => hpart.wellNamed.disjoint hf hnames)
        fun hs he => hpart.unique (mem_members_of_mem_rest hm) (he ▸ hpart.compiles.1 hs)

end

end Runs

/-! ## Lost elements -/

/-- The blocks that were given out between `first` and now are as they are
now. -/
def Within (first : Nat) (dec : Decoder) (heap : Nat → Option (List Obj)) : Prop :=
  ∀ id, first ≤ id → id < dec.next → heap id = dec.heap id

/-- The element cannot be read, whatever happens to blocks outside the range. -/
def Lost (first : Nat) (dec : Decoder) (cls : DataClass) (o : Obj) : Prop :=
  ∀ (mem : List UInt8) (heap : Nat → Option (List Obj)), Within first dec heap →
    ∀ v, cls.readBack mem heap o ≠ some v

/-- The value is lost by the run of an element into a constructed place. -/
def LosesElement (P : Platform) (cls : DataClass) (v : cls.Val) : Prop :=
  ∀ (place : Place) (a : Activation), place.load a.this = cls.construct →
    ∃ o, (cls.replay P v place a).this = place.store a.this o ∧
      Lost a.dec.next (cls.replay P v place a).dec cls o

/-- The values of a field are lost by the run of the field. -/
def LosesField (P : Platform) (name : String) (cls : DataClass) (size : ArraySize)
    (more : MessageDef) (vs : List cls.Val) : Prop :=
  ∀ a : Activation, Constructed (.cons name cls size more) a.this →
    let a' := replayField P name cls (fun v place => cls.replay P v place) size vs a
    ∀ (mem : List UInt8) (heap : Nat → Option (List Obj)) (this : Members),
      Within a.dec.next a'.dec heap → (∀ m ∈ fieldNames name size, this m = a'.this m) →
      ∀ os ws, fieldElems heap name size this = some os → ¬ Hold (cls.readBack mem heap) os ws

section Lost

variable {reserved : String → Prop} {P : Platform} {name : String} {cls : DataClass}
  {more : MessageDef}

/-- A nested message that is lost. -/
theorem losesField_single (hstr : cls ≠ .string) {v : cls.Val} (hv : LosesElement P cls v) :
    LosesField P name cls .single more [v] := by
  intro a h a' mem heap this hwithin hthis os ws hos hhold
  obtain ⟨o, ho, hlost⟩ := hv (.member name) a (h.single hstr)
  have hname : this name = o := by
    rw [hthis name (by simp [fieldNames])]
    simp [a', replayField, replayLoop, ho, Place.store]
  have hmem : o ∈ os := by
    rw [fieldElems, hname, Option.some.injEq] at hos
    simp [← hos]
  obtain ⟨w, hw⟩ := hhold.exists_of_mem hmem
  exact hlost mem heap hwithin w hw

/-- A fixed array of strings: no element is ever assigned. -/
theorem losesField_fixedString {members : List (String × MemberType)} {n : Nat} (hn : 0 < n)
    (hpart : (MessageDef.cons name .string (.fixed n) more).PartOf reserved members)
    (vs : List DataClass.string.Val) : LosesField P name .string (.fixed n) more vs := by
  intro a h a' mem heap this _ hthis os ws hos hhold
  have hother : (name, MemberType.other) ∈
      (MessageDef.cons name .string (.fixed n) more).members :=
    mem_members_of_mem_fieldNames (by simp) (by simp [fieldNames])
  have hne : name ≠ mangle (name ++ "[i]") := by
    intro he
    have htarget := hpart.compiles.1 rfl
    rw [stringTarget, ← he] at htarget
    exact hpart.unique hother htarget
  have hname : a'.this name = a.this name :=
    replayLoop_frame (fun i v a => Function.update_of_ne hne _ _) vs 0 a
  rw [fieldElems, hthis name (by simp [fieldNames]), hname, h.fixed, Option.some.injEq] at hos
  obtain ⟨w, hw⟩ := hhold.exists_of_mem (hos ▸ List.mem_replicate.mpr ⟨by omega, rfl⟩)
  exact absurd hw (by simp [DataClass.construct, DataClass.readBack, readChars, readString])

/-- The loop of a fixed array loses its last element. -/
theorem exists_lost_fixedLoop {v : cls.Val} (hv : LosesElement P cls v)
    (n i : Nat) (a : Activation)
    (hel : ∀ j, i ≤ j → j < i + (n + 1) → (a.this name).elems[j]? = some cls.construct) :
    let a' := replayLoop (fun i v => cls.replay P v (.element name i))
      (List.replicate (n + 1) v) i a
    ∃ o ∈ (a'.this name).elems, Lost a.dec.next a'.dec cls o := by
  have hload : (Place.element name i).load a.this = cls.construct := by
    rw [Place.load, List.getD_eq_getElem?_getD, hel i (Nat.le_refl i) (by omega)]
    rfl
  obtain ⟨o, ho, hlost⟩ := hv (.element name i) a hload
  have hlater := cls.later_replay P v (.element name i) a
  induction n generalizing i a o with
  | zero =>
    refine ⟨o, ?_, hlost⟩
    obtain ⟨hi, -⟩ := List.getElem?_eq_some_iff.mp (hel i (Nat.le_refl i) (by omega))
    show o ∈ ((cls.replay P v (.element name i) a).this name).elems
    rw [ho, Place.elems_store_element]
    exact List.mem_set hi o
  | succ n ih =>
    have hel' : ∀ j, i + 1 ≤ j → j < i + 1 + (n + 1) →
        ((cls.replay P v (.element name i) a).this name).elems[j]? = some cls.construct := by
      intro j hij hj
      rw [ho, Place.elems_store_element, List.getElem?_set_ne (by omega)]
      exact hel j (by omega) (by omega)
    have hload' : (Place.element name (i + 1)).load
        (cls.replay P v (.element name i) a).this = cls.construct := by
      rw [Place.load, List.getD_eq_getElem?_getD, hel' (i + 1) (Nat.le_refl _) (by omega)]
      rfl
    obtain ⟨o', ho', hlost'⟩ := hv (.element name (i + 1)) _ hload'
    obtain ⟨x, hx, hxlost⟩ := ih (i + 1) (cls.replay P v (.element name i) a) hel' hload' o' ho'
      hlost' (cls.later_replay P v _ _)
    rw [List.replicate_succ, replayLoop]
    exact ⟨x, hx, fun mem heap hw => hxlost mem heap fun id hid =>
      hw id (Nat.le_trans hlater.next_le hid)⟩

/-- A fixed array of nested messages that are lost. -/
theorem losesField_fixed {v : cls.Val} (hv : LosesElement P cls v)
    {n : Nat} (hn : 0 < n) : LosesField P name cls (.fixed n) more (List.replicate n v) := by
  intro a h a' mem heap this hwithin hthis os ws hos hhold
  obtain ⟨n, rfl⟩ : ∃ m, n = m + 1 := ⟨n - 1, by omega⟩
  obtain ⟨o, ho, hlost⟩ := exists_lost_fixedLoop hv n 0 a
    (fun j _ hj => by rw [h.fixed, List.getElem?_replicate, if_pos (by omega)])
  rw [fieldElems, hthis name (by simp [fieldNames]), Option.some.injEq] at hos
  obtain ⟨w, hw⟩ := hhold.exists_of_mem (hos ▸ ho)
  exact hlost mem heap hwithin w hw

/-- The first round of the loop of a variable array, on a constructed object:
the block is the first new one, and the element is the only thing that has
run since. -/
theorem firstRound (hP : P.Allocates) {members : List (String × MemberType)}
    (hpart : (MessageDef.cons name cls .dynamic more).PartOf reserved members) {n : Nat}
    (hn : 0 < n) {a : Activation} (h : Constructed (.cons name cls .dynamic more) a.this) :
    ∃ b cells, growArray P name cls n (a.accept (.prim .four n)) = b ∧ n ≤ cells.length ∧
      (b.this (name ++ "_length")).asValue = n ∧ (b.this name).asPointer = some a.dec.next ∧
      b.this ("st_" ++ name) = cls.construct ∧ b.dec.next = a.dec.next + 1 ∧
      b.dec.heap a.dec.next = some cells := by
  have hnames := hpart.wellNamed.field
  obtain ⟨h0, hnone, hst⟩ := h.dynamic hnames
  obtain ⟨hls, hln, hsn⟩ := fieldNames_dynamic_nodup hnames
  obtain ⟨cells, hcells, hgrow⟩ := growArray_pos hP cls hn (a := a.accept (.prim .four n)) h0 hnone
  refine ⟨_, cells, rfl, hcells, ?_, ?_, ?_, ?_, ?_⟩
  · rw [hgrow]
    simp [Obj.asValue]
  · rw [hgrow]
    simp [Function.update_of_ne (Ne.symm hln), Obj.asPointer, Activation.accept]
  · rw [growArray_frame P cls n _ hsn (Ne.symm hls)]
    exact hst
  · rw [hgrow]
    rfl
  · rw [hgrow]
    simp [Activation.accept]

/-- One element and its copy: the block is still there and has the copy, and
no other block changes with the copy. -/
theorem round_element {v : cls.Val} {i : Nat} {block : Nat} {cells : List Obj} {b : Activation}
    (hel : ElementOwns P (block + 1) cls) (hne : name ≠ "st_" ++ name)
    (hptr : (b.this name).asPointer = some block) (hcells : b.dec.heap block = some cells)
    (hi : i < cells.length) (hown : cls.Own (block + 1) (b.this ("st_" ++ name)))
    (hlt : block < b.dec.next) :
    ∃ o, (cls.replay P v (.member ("st_" ++ name)) b).this =
        Function.update b.this ("st_" ++ name) o ∧
      cls.Own (block + 1) o ∧
      (copyElement name i (cls.replay P v (.member ("st_" ++ name)) b)).dec.heap =
        Function.update (cls.replay P v (.member ("st_" ++ name)) b).dec.heap block
          (some (cells.set i o)) ∧
      (copyElement name i (cls.replay P v (.member ("st_" ++ name)) b)).dec.next =
        (cls.replay P v (.member ("st_" ++ name)) b).dec.next := by
  obtain ⟨o, ho, hoown, hbelow⟩ := hel v (.member ("st_" ++ name)) b hown hlt
  have hptr' : ((cls.replay P v (.member ("st_" ++ name)) b).this name).asPointer =
      some block := by
    rw [ho, Place.store, Function.update_of_ne hne]
    exact hptr
  have hcells' : (cls.replay P v (.member ("st_" ++ name)) b).dec.heap block = some cells := by
    rw [hbelow block (Nat.lt_succ_self block), hcells]
  refine ⟨o, ho, hoown, ?_, Decoder.memcpy_next _ _ _ _⟩
  simp only [copyElement, hptr', Decoder.memcpy, hcells', if_pos hi]
  rw [ho]
  simp [Place.store]

/-- The static element has what was stored last. -/
theorem store_member_inj {m : String} {o o' : Obj} {this : Members}
    (h : (Place.member m).store this o' = Function.update this m o) : o' = o := by
  have hm := congrFun h m
  simpa [Place.store] using hm

/-- The elements of a variable array whose block is there. -/
theorem fieldElems_block {heap : Nat → Option (List Obj)} {this : Members} {block : Nat}
    {cells os : List Obj} (hos : fieldElems heap name .dynamic this = some os)
    (hptr : (this name).asPointer = some block) (hblock : heap block = some cells)
    (hlength : (this (name ++ "_length")).asValue ≠ 0) :
    os = cells.take (this (name ++ "_length")).asValue := by
  simp only [fieldElems, if_neg hlength, hptr, Option.bind_some, hblock] at hos
  split at hos
  · exact (Option.some.inj hos).symm
  · cases hos

/-- A variable array of nested messages that are lost. -/
theorem losesField_dynamic (hP : P.Allocates) {members : List (String × MemberType)}
    (hpart : (MessageDef.cons name cls .dynamic more).PartOf reserved members) {v : cls.Val}
    (hv : LosesElement P cls v) : LosesField P name cls .dynamic more [v] := by
  intro a h a' mem heap this hwithin hthis os ws hos hhold
  obtain ⟨b, cells, hb, hlen, hlength, hptr, hst, hnext, hcells⟩ :=
    firstRound hP hpart (Nat.succ_pos 0) h
  have hnames := hpart.wellNamed.field
  obtain ⟨hls, hln, hsn⟩ := fieldNames_dynamic_nodup hnames
  have hcompiles := hpart.compiles.2.1
  obtain ⟨o, ho, -, hheap, hnext'⟩ := round_element (v := v) (i := 0)
    (DataClass.elementOwns hcompiles hpart.dynamic_ne_string) (Ne.symm hsn) hptr hcells
    (Nat.lt_of_lt_of_le Nat.one_pos hlen)
    (by rw [hst]; exact DataClass.own_construct _ hcompiles.allWellNamed) (by omega)
  obtain ⟨o', ho', hlost⟩ := hv (.member ("st_" ++ name)) b hst
  obtain rfl : o' = o := store_member_inj (ho'.symm.trans ho)
  have ha' : a' = copyElement name 0 (cls.replay P v (.member ("st_" ++ name)) b) := by
    simp [a', replayField, replayLoop, hb]
  have hnext'' := (cls.later_replay P v (.member ("st_" ++ name)) b).next_le
  have hblock : heap a.dec.next = some (cells.set 0 o') := by
    rw [hwithin a.dec.next (Nat.le_refl _) (by rw [ha', hnext']; omega), ha', hheap,
      Function.update_self]
  have hlength' : (this (name ++ "_length")).asValue = 1 := by
    rw [hthis _ (by simp [fieldNames]), ha', copyElement, ho, Function.update_of_ne hls]
    exact hlength
  have hptr' : (this name).asPointer = some a.dec.next := by
    rw [hthis _ (by simp [fieldNames]), ha', copyElement, ho, Function.update_of_ne (Ne.symm hsn)]
    exact hptr
  have hmem : o' ∈ os := by
    rw [fieldElems_block hos hptr' hblock (by omega), hlength']
    refine List.mem_of_getElem? (i := 0) ?_
    rw [List.getElem?_take_of_lt Nat.one_pos, List.getElem?_set_self (by omega)]
  obtain ⟨w, hw⟩ := hhold.exists_of_mem hmem
  refine hlost mem heap (fun id hid hlt => ?_) w hw
  rw [hwithin id (by omega) (by rw [ha', hnext']; exact hlt), ha', hheap,
    Function.update_of_ne (by omega)]

/-- A variable array whose elements contain a variable array: the second
element releases the block of the first one. -/
theorem losesField_nested (hP : P.Allocates) {members : List (String × MemberType)}
    (hpart : (MessageDef.cons name cls .dynamic more).PartOf reserved members)
    (hd : cls.HasDynamic) :
    LosesField P name cls .dynamic more
      [cls.sample 1 (by decide), cls.sample 2 (by decide)] := by
  intro a h a' mem heap this hwithin hthis os ws hos hhold
  obtain ⟨b, cells, hb, hlen, hlength, hptr, hst, hnext, hcells⟩ :=
    firstRound hP hpart (Nat.succ_pos 1) h
  have hnames := hpart.wellNamed.field
  obtain ⟨hls, hln, hsn⟩ := fieldNames_dynamic_nodup hnames
  have hcompiles := hpart.compiles.2.1
  have hel : ElementOwns P (a.dec.next + 1) cls :=
    DataClass.elementOwns hcompiles hpart.dynamic_ne_string
  -- the first element, which points at a block of its own
  obtain ⟨o, ho, hown, hheap, hnext1⟩ := round_element (v := cls.sample 1 (by decide)) (i := 0)
    hel (Ne.symm hsn) hptr hcells (by omega)
    (by rw [hst]; exact DataClass.own_construct _ hcompiles.allWellNamed) (by omega)
  obtain ⟨o', block, ho', hle, hlt, hpoints⟩ :=
    DataClass.pointsAt_replay hP hcompiles hd (.member ("st_" ++ name)) b hst
  obtain rfl : o' = o := store_member_inj (ho'.symm.trans ho)
  have hnext1' :=
    (cls.later_replay P (cls.sample 1 (by decide)) (.member ("st_" ++ name)) b).next_le
  -- the second element, which releases that block
  obtain ⟨c, hc⟩ : ∃ c, copyElement name 0
      (cls.replay P (cls.sample 1 (by decide)) (.member ("st_" ++ name)) b) = c := ⟨_, rfl⟩
  have hcst : c.this ("st_" ++ name) = o' := by
    rw [← hc, copyElement, ho, Function.update_self]
  have hcname : c.this name = b.this name := by
    rw [← hc, copyElement, ho, Function.update_of_ne (Ne.symm hsn)]
  have hclength : c.this (name ++ "_length") = b.this (name ++ "_length") := by
    rw [← hc, copyElement, ho, Function.update_of_ne hls]
  have hccells : c.dec.heap a.dec.next = some (cells.set 0 o') := by
    rw [← hc, hheap, Function.update_self]
  have hcnext : c.dec.next =
      (cls.replay P (cls.sample 1 (by decide)) (.member ("st_" ++ name)) b).dec.next := by
    rw [← hc, hnext1]
  obtain ⟨o2, ho2, -, hheap2, hnext2⟩ := round_element (v := cls.sample 2 (by decide)) (i := 1)
    (b := c) hel (Ne.symm hsn) (by rw [hcname, hptr]) hccells (by rw [List.length_set]; omega)
    (by rw [hcst]; exact hown) (by omega)
  have hgone := DataClass.gone_replay (P := P) hcompiles (.member ("st_" ++ name)) c
     (by rw [Place.load, hcst]; exact hpoints) (by omega)
  have hnext2' :=
    (cls.later_replay P (cls.sample 2 (by decide)) (.member ("st_" ++ name)) c).next_le
  have ha' : a' = copyElement name 1
      (cls.replay P (cls.sample 2 (by decide)) (.member ("st_" ++ name)) c) := by
    simp [a', replayField, replayLoop, hb, hc]
  have hblock : heap a.dec.next = some ((cells.set 0 o').set 1 o2) := by
    rw [hwithin a.dec.next (Nat.le_refl _) (by rw [ha', hnext2]; omega), ha', hheap2,
      Function.update_self]
  have hfreed : heap block = none := by
    rw [hwithin block (by omega) (by rw [ha', hnext2]; omega), ha', hheap2,
      Function.update_of_ne (by omega), hgone]
  have hlength' : (this (name ++ "_length")).asValue = 2 := by
    rw [hthis _ (by simp [fieldNames]), ha', copyElement, ho2, Function.update_of_ne hls, hclength]
    exact hlength
  have hptr' : (this name).asPointer = some a.dec.next := by
    rw [hthis _ (by simp [fieldNames]), ha', copyElement, ho2,
      Function.update_of_ne (Ne.symm hsn), hcname]
    exact hptr
  have hmem : o' ∈ os := by
    rw [fieldElems_block hos hptr' hblock (by omega), hlength']
    refine List.mem_of_getElem? (i := 0) ?_
    rw [List.getElem?_take_of_lt Nat.two_pos, List.getElem?_set_ne Nat.one_ne_zero,
      List.getElem?_set_self (by omega)]
  obtain ⟨w, hw⟩ := hhold.exists_of_mem hmem
  exact DataClass.PointsAt.not_readable hfreed hpoints w hw

end Lost

/-! ## A lost value of every other definition -/

mutual

/-- An element of a class that is not invertible has a value that is lost. -/
theorem DataClass.exists_lost {reserved : String → Prop} {P : Platform} (hP : P.Allocates)
    {cls : DataClass} (h : cls.Compiles reserved) (hinv : ¬ cls.Invertible) :
    ∃ v, LosesElement P cls v := by
  match cls with
  | .primitive _ => exact absurd trivial hinv
  | .string => exact absurd trivial hinv
  | .message D =>
    obtain ⟨v, hv⟩ := MessageDef.exists_lost hP (MessageDef.Compiles.partOf h) hinv
    refine ⟨v, fun place a hload => ⟨_, rfl, fun mem heap hw w hr => ?_⟩⟩
    exact hv ⟨(place.load a.this).members, a.dec⟩
      (by rw [hload]; exact constructed_construct D) mem heap hw w (readBack_message hr)

/-- A definition that is not invertible has a value that an object cannot
hold after a run. -/
theorem MessageDef.exists_lost {reserved : String → Prop} {P : Platform} (hP : P.Allocates)
    {members : List (String × MemberType)} {D : MessageDef} (hpart : D.PartOf reserved members)
    (hinv : ¬ D.Invertible) :
    ∃ v : D.Val, ∀ a : Activation, Constructed D a.this →
      ∀ (mem : List UInt8) (heap : Nat → Option (List Obj)),
        Within a.dec.next (D.replay P v a).dec heap →
        ∀ w, D.readBack mem heap (D.replay P v a).this ≠ some w := by
  match D with
  | .nil => exact absurd trivial hinv
  | .cons name cls size rest =>
    by_cases hrest : rest.Invertible
    · -- the field is the reason: its values are lost, and the rest does not repair them
      obtain ⟨vs, hsize, hns, hlost⟩ : ∃ vs : List cls.Val, size.Admits vs.length ∧
          (cls = .string → size ≠ .single) ∧ LosesField P name cls size rest vs := by
        have hfield := fun hf => hinv ⟨hf, hrest⟩
        cases size with
        | single =>
          have hcls : ¬ cls.Invertible := hfield
          have hstr : cls ≠ .string := by
            intro heq
            subst heq
            exact hcls trivial
          obtain ⟨v, hv⟩ := DataClass.exists_lost hP hpart.compiles.2.1 hcls
          exact ⟨[v], rfl, fun hs => absurd hs hstr, losesField_single hstr hv⟩
        | fixed n =>
          have hn : 0 < n := Nat.pos_of_ne_zero fun h0 => hfield (Or.inl h0)
          by_cases hstr : cls = .string
          · subst hstr
            exact ⟨List.replicate n (DataClass.string.sample 1 (by decide)),
              List.length_replicate, by simp, losesField_fixedString hn hpart _⟩
          · obtain ⟨v, hv⟩ := DataClass.exists_lost hP hpart.compiles.2.1
              fun hi => hfield (Or.inr ⟨hstr, hi⟩)
            exact ⟨List.replicate n v, List.length_replicate, by simp,
              losesField_fixed hv hn⟩
        | dynamic =>
          have hstr := hpart.dynamic_ne_string
          by_cases hcls : cls.Invertible
          · have hd : cls.HasDynamic := by
              by_contra hno
              exact hfield ⟨hstr, hcls, hno⟩
            exact ⟨[cls.sample 1 (by decide), cls.sample 2 (by decide)],
              show (2 : Nat) < 2 ^ 32 by decide, by simp, losesField_nested hP hpart hd⟩
          · obtain ⟨v, hv⟩ := DataClass.exists_lost hP hpart.compiles.2.1 hcls
            exact ⟨[v], show (1 : Nat) < 2 ^ 32 by decide, by simp,
              losesField_dynamic hP hpart hv⟩
      refine ⟨(⟨vs, hsize⟩, rest.sample 1 (by decide)), fun a h mem heap hw w hread => ?_⟩
      obtain ⟨⟨os, hos, hhold⟩, -⟩ := readBack_cons.mp (show _ = some (w.1, w.2) from hread)
      have hlater := later_replayField P name cls (DataClass.later_replay P cls) size vs a
      have hown := MessageDef.own_of_constructed
        (replayField P name cls (fun v place => cls.replay P v place) size vs a).dec.next
        hpart.rest.wellNamed hpart.rest.compiles.fieldsWellNamed (h.replayField P hpart vs)
      obtain ⟨-, hbelow⟩ := MessageDef.own_replay (P := P) hpart.rest
        (rest.sample 1 (by decide)) hown (Nat.le_refl _)
      have hlater' := rest.later_replay P (rest.sample 1 (by decide))
        (replayField P name cls (fun v place => cls.replay P v place) size vs a)
      refine hlost a h mem heap _ (fun id hid hlt => ?_) (fun m hm => ?_) os w.1.val hos hhold
      · rw [hw id hid (Nat.lt_of_lt_of_le hlt hlater'.next_le)]
        exact hbelow id hlt
      · exact MessageDef.replay_frame P hpart.rest _ _ (hpart.wellNamed.disjoint hm)
          (hpart.unique (mem_members_of_mem_fieldNames hns hm))
    · -- a later field is the reason
      obtain ⟨more, hmore⟩ := MessageDef.exists_lost hP hpart.rest hrest
      refine ⟨(⟨List.replicate (size.sampleLength 1) (cls.sample 1 (by decide)), by
        simpa using size.admits_sampleLength (by decide)⟩, more), fun a h mem heap hw w hread => ?_⟩
      obtain ⟨-, hr⟩ := readBack_cons.mp (show _ = some (w.1, w.2) from hread)
      have hlater := later_replayField P name cls (DataClass.later_replay P cls) size
        (List.replicate (size.sampleLength 1) (cls.sample 1 (by decide))) a
      exact hmore _ (h.replayField P hpart _) mem heap
        (fun id hid hlt => hw id (Nat.le_trans hlater.next_le hid) hlt) w.2 hr

end

/-! ## Inverse pairs -/

/-- What was written is ahead of the buffer that it was written to. -/
theorem ahead_of_writeItems {cdr : Cdr} {items : List Item} (hlive : cdr.ub.Live)
    (hmem : cdr.ub.final ≤ cdr.mem.length)
    (hfit : cdr.ub.init + endPos cdr.ub.offset items ≤ cdr.ub.final) :
    Ahead (writeItems items cdr).mem cdr.ub items := by
  obtain ⟨-, hlaid⟩ := writeItems_fits hlive hfit hmem
  exact ⟨hlive, hfit, hlaid.length.symm ▸ hmem, hlaid.layout⟩

/-- `cdr_serialize`, and then `cdr_deserialize` on a fresh object over the same
bytes: it returns `true`, consumes what was written, and the object holds the
value. -/
def RoundTrips (P : Platform) (D : MessageDef) (v : D.Val) (cdr : Cdr) : Prop :=
  let written := D.cdrSerialize v cdr
  let run := D.cdrDeserialize P written.mem ⟨D.construct, Decoder.start cdr.ub⟩
  run.1 = true ∧ run.2.dec.ub.iterator = written.ub.iterator ∧
    D.readBack written.mem run.2.dec.heap run.2.this = some v

instance (P : Platform) (D : MessageDef) (v : D.Val) (cdr : Cdr) :
    Decidable (RoundTrips P D v cdr) :=
  inferInstanceAs (Decidable (_ ∧ _ ∧ _))

/-- The generated class compiles, and every value that fits the buffer makes
the round trip. -/
def MessageDef.Inverse (P : Platform) (reserved : String → Prop) (D : MessageDef) : Prop :=
  D.Compiles reserved ∧
    ∀ (v : D.Val) (cdr : Cdr), cdr.ub.Live → cdr.ub.final ≤ cdr.mem.length →
      (D.cdrSerialize v cdr).ub.error = false → RoundTrips P D v cdr

/-- The round trip, with the assignments in place of the run. -/
theorem roundTrips_iff (P : Platform) {D : MessageDef} {v : D.Val} {cdr : Cdr}
    (hlive : cdr.ub.Live) (hmem : cdr.ub.final ≤ cdr.mem.length)
    (hfit : cdr.ub.init + endPos cdr.ub.offset (D.items v) ≤ cdr.ub.final) :
    RoundTrips P D v cdr ↔
      D.readBack (writeItems (D.items v) cdr).mem
        (D.replay P v ⟨D.construct, Decoder.start cdr.ub⟩).dec.heap
        (D.replay P v ⟨D.construct, Decoder.start cdr.ub⟩).this = some v := by
  have hahead := ahead_of_writeItems hlive hmem hfit
  have hrun := D.cdrDeserialize_eq_replay P v ⟨D.construct, Decoder.start cdr.ub⟩ hahead
  have hread := (D.hasRead_replay P v ⟨D.construct, Decoder.start cdr.ub⟩).1
  have hub := (writeItems_fits hlive hfit hmem).1
  simp only [RoundTrips, D.cdrSerialize_eq_writeItems, hrun, true_and]
  exact and_iff_right (by rw [hread, hub]; rfl)

/-- A fresh decoder has no block. -/
theorem fresh_start (ub : Buffer) : (Decoder.start ub).Fresh := fun _ _ => rfl

/-! ## A message with nested variable arrays -/

/-- A cleared buffer of the given size. -/
def clearBuffer (size : Nat) : Cdr where
  ub := initBuffer 0 size
  mem := List.replicate size 0

/-- `uint8[] points`. -/
def polyline : MessageDef := .cons "points" (.primitive .uint8) .dynamic .nil

/-- `Polyline[] lines`. -/
def polylines : MessageDef := .cons "lines" (.message polyline) .dynamic .nil

/-- The lines `[1]` and `[2, 2]`. -/
def twoLines : polylines.Val :=
  (⟨[(⟨[(1 : Fin 256)], by decide⟩, ()), (⟨[(2 : Fin 256), (2 : Fin 256)], by decide⟩, ())],
    by decide⟩, ())

theorem polyline_compiles : polyline.Compiles fun _ => False :=
  ⟨by decide, by simp [polyline, MessageDef.members, fieldMembers]; decide, by simp, trivial,
    trivial⟩

theorem polylines_compiles : polylines.Compiles fun _ => False :=
  ⟨by decide, by simp [polylines, MessageDef.members, fieldMembers]; decide, by simp,
    polyline_compiles, trivial⟩

/-! ## When they are inverse -/

/-- The generated serializer and deserializer of a definition are inverse
exactly if the class compiles and the definition has neither an array of
strings nor a variable array inside the elements of a variable array. -/
theorem inverse_iff {P : Platform} (hP : P.Allocates) (reserved : String → Prop)
    (D : MessageDef) : D.Inverse P reserved ↔ D.Compiles reserved ∧ D.Invertible := by
  constructor
  · rintro ⟨hcompiles, hround⟩
    refine ⟨hcompiles, ?_⟩
    by_contra hinv
    obtain ⟨v, hlost⟩ := MessageDef.exists_lost hP hcompiles.partOf hinv
    -- a buffer that just holds the value
    obtain ⟨cdr, hcdr⟩ : ∃ cdr : Cdr, cdr =
        { ub := initBuffer 0 (endPos 0 (D.items v))
          mem := List.replicate (endPos 0 (D.items v)) 0 } := ⟨_, rfl⟩
    have hlive : cdr.ub.Live := hcdr ▸ initBuffer_live 0 _
    have hmem : cdr.ub.final ≤ cdr.mem.length := by simp [hcdr, initBuffer]
    have hfit : cdr.ub.init + endPos cdr.ub.offset (D.items v) ≤ cdr.ub.final := by
      simp [hcdr, initBuffer]
    have herror : (D.cdrSerialize v cdr).ub.error = false := by
      rw [D.cdrSerialize_eq_writeItems]
      exact (writeItems_error_eq_false hlive hmem _).mpr hfit
    have hread := (roundTrips_iff P hlive hmem hfit).mp (hround v cdr hlive hmem herror)
    exact hlost _ (constructed_construct D) _ _ (fun _ _ _ => rfl) v hread
  · rintro ⟨hcompiles, hinv⟩
    refine ⟨hcompiles, fun v cdr hlive hmem herror => ?_⟩
    rw [D.cdrSerialize_eq_writeItems] at herror
    have hfit := (writeItems_error_eq_false hlive hmem _).mp herror
    have hnamed := hcompiles.allWellNamed
    refine (roundTrips_iff P hlive hmem hfit).mpr ?_
    exact (MessageDef.decoded_replay hP hnamed.1 hnamed.2 hinv
      (MessageDef.ready_construct hnamed.1 hnamed.2) (fresh_start cdr.ub)
      (ahead_of_writeItems hlive hmem hfit)).holds

/-- One line of points is no nested array. -/
theorem polyline_inverse : polyline.Inverse exactPlatform fun _ => False :=
  (inverse_iff exactPlatform_allocates _ polyline).mpr ⟨polyline_compiles, by
    simp [MessageDef.Invertible, DataClass.Invertible, DataClass.HasDynamic, polyline]⟩

/-- Decoding two lines, of one point and of two points, loses the first one:
the second `realloc` frees the block that the copy of it points at. -/
theorem polylines_not_roundTrips :
    polylines.Compiles (fun _ => False) ∧ (clearBuffer 32).ub.Live ∧
      (clearBuffer 32).ub.final ≤ (clearBuffer 32).mem.length ∧
      (polylines.cdrSerialize twoLines (clearBuffer 32)).ub.error = false ∧
      ¬ RoundTrips exactPlatform polylines twoLines (clearBuffer 32) := by
  refine ⟨polylines_compiles, initBuffer_live 0 32, by decide, by decide, fun hround => ?_⟩
  have hread := (roundTrips_iff exactPlatform (initBuffer_live 0 32) (by decide)
    (by decide)).mp hround
  obtain ⟨⟨os, hos, hhold⟩, -⟩ := readBack_cons.mp hread
  exact losesField_nested exactPlatform_allocates polylines_compiles.partOf (Or.inl trivial)
    ⟨polylines.construct, Decoder.start (clearBuffer 32).ub⟩ (constructed_construct polylines) _ _ _
    (fun _ _ _ => rfl) (fun _ _ => rfl) os _ hos hhold

end Ros2Serial.Generator
