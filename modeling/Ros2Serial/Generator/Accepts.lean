import Ros2Serial.Generator.Replay

/-!
# What the decoder takes without an error

`cdr_deserialize` does not ask whether its input is the layout of a value.  It
takes any two bytes for a `uint16_t` and any text with a zero byte at its end
for a string.  `MessageDef.Accepts` is the grammar of the layouts on which no
statement fails, and the layouts of the values are among them
(`accepts_items`).

On an accepted layout a run is determined by the layout: two memories that
both have it at the iterator give the same run, whatever else they hold
(`cdrDeserialize_determined`).
-/

namespace Ros2Serial.Generator

open Bytes PlainCdr Ucdr

/-! ## The grammar -/

mutual

/-- The items that the statements for an element take. -/
def DataClass.Accepts : DataClass → List Item → Prop
  | .primitive p, items => ∃ n < 256 ^ p.width.bytes, items = [.prim p.width n]
  | .string, items => ∃ text : List UInt8, text.length + 1 < 2 ^ 32 ∧ items = stringItems text
  | .message D, items => D.Accepts items

/-- The items that `cdr_deserialize` takes: for each field the count of a
variable array, and the items of as many elements as there are. -/
def MessageDef.Accepts : MessageDef → List Item → Prop
  | .nil, items => items = []
  | .cons _ cls size rest, items =>
    ∃ (field : List (List Item)) (more : List Item), size.Admits field.length ∧
      (∀ element ∈ field, cls.Accepts element) ∧ rest.Accepts more ∧
      items = size.lengthItems field.length ++ field.flatten ++ more

end

mutual

theorem DataClass.accepts_items (cls : DataClass) (v : cls.Val) : cls.Accepts (cls.items v) := by
  match cls, v with
  | .primitive p, (v : Fin p.card) =>
    exact ⟨v, Nat.lt_of_lt_of_le v.isLt p.card_le, rfl⟩
  | .string, (s : CString) => exact ⟨s.val, s.property.2, rfl⟩
  | .message D, v => exact D.accepts_items v

/-- The layout of a value is accepted. -/
theorem MessageDef.accepts_items (D : MessageDef) (v : D.Val) : D.Accepts (D.items v) := by
  match D, v with
  | .nil, _ => exact rfl
  | .cons _ cls size rest, (field, more) =>
    refine ⟨field.val.map cls.items, rest.items more, ?_, ?_, rest.accepts_items more, ?_⟩
    · rw [List.length_map]
      exact field.property
    · intro element helement
      obtain ⟨v, -, rfl⟩ := List.mem_map.mp helement
      exact DataClass.accepts_items cls v
    · rw [List.length_map]
      rfl

end

/-! ## The loop of a variable array -/

/-- A round: the statements for the static element, and the copy of it. -/
def copyRound (name : String) (element : Activation → Bool × Activation) (i : Nat)
    (a : Activation) : Bool × Activation :=
  match element a with
  | (true, a) => (true, copyElement name i a)
  | (false, a) => (false, a)

theorem copyRound_eq (name : String) (element : Activation → Bool × Activation) (i : Nat)
    (a : Activation) :
    copyRound name element i a =
      if (element a).1 = true then (true, copyElement name i (element a).2) else element a := by
  unfold copyRound
  split
  · rename_i heq
    rw [heq, if_pos rfl]
  · rename_i heq
    rw [heq, if_neg Bool.false_ne_true]

/-- The statements for a variable array: the count, room for the elements, and
the rounds. -/
theorem deserializeField_dynamic (P : Platform) (mem : List UInt8) (name : String)
    (cls : DataClass) (element : Place → Activation → Bool × Activation) (a : Activation) :
    deserializeField P mem name cls element .dynamic a =
      let read := a.dec.read mem .four
      let lengthT := read.2.getD (P.uninitialised read.1.reads.length)
      forLoop (copyRound name (element (.member ("st_" ++ name)))) lengthT 0
        (growArray P name cls lengthT ⟨a.this, read.1⟩) :=
  rfl

/-! ## Runs on an accepted layout -/

/-- Two pieces of code, on two memories with these items at the iterator, do
the same: they read the items and return `true`. -/
def Determined (mem mem' : List UInt8) (items : List Item)
    (code code' : Activation → Bool × Activation) : Prop :=
  ∀ a, Ahead mem a.dec.ub items → Ahead mem' a.dec.ub items →
    ∃ a', code a = (true, a') ∧ code' a = (true, a') ∧ HasRead items a a'

section Determined

variable {mem mem' : List UInt8}

/-- A loop is determined by the items of its rounds. -/
theorem determined_forLoop {body body' : Nat → Activation → Bool × Activation} :
    ∀ {field : List (List Item)} (i : Nat),
      (∀ i, ∀ element ∈ field, Determined mem mem' element (body i) (body' i)) →
      Determined mem mem' field.flatten (forLoop body field.length i)
        (forLoop body' field.length i)
  | [], _, _ => fun a _ _ => ⟨a, rfl, rfl, HasRead.refl a⟩
  | element :: rest, i, h => by
    intro a hahead hahead'
    rw [List.flatten_cons] at hahead hahead'
    obtain ⟨a₁, hbody, hbody', hread⟩ :=
      h i element List.mem_cons_self a hahead.split.1 hahead'.split.1
    have hrest := hahead.split.2
    have hrest' := hahead'.split.2
    rw [← hread.1] at hrest hrest'
    obtain ⟨a₂, hloop, hloop', hread'⟩ := determined_forLoop (i + 1)
      (fun i element hmem => h i element (List.mem_cons_of_mem _ hmem)) a₁ hrest hrest'
    refine ⟨a₂, ?_, ?_, hread.trans hread'⟩
    · rw [List.length_cons, forLoop, hbody]
      exact hloop
    · rw [List.length_cons, forLoop, hbody']
      exact hloop'

/-- The statements for a field are determined by its items, if those for an
element are. -/
theorem determined_field (P : Platform) (name : String) (cls : DataClass)
    {element element' : Place → Activation → Bool × Activation} {size : ArraySize}
    {field : List (List Item)} (hsize : size.Admits field.length)
    (h : ∀ place, ∀ items ∈ field, Determined mem mem' items (element place) (element' place)) :
    Determined mem mem' (size.lengthItems field.length ++ field.flatten)
      (deserializeField P mem name cls element size)
      (deserializeField P mem' name cls element' size) := by
  cases size with
  | single =>
    obtain ⟨items, rfl⟩ := List.length_eq_one_iff.mp hsize
    intro a hahead hahead'
    simp only [ArraySize.lengthItems, List.nil_append, List.flatten_singleton] at hahead hahead' ⊢
    exact h (.member name) items (List.mem_singleton_self _) a hahead hahead'
  | fixed n =>
    have hn : n = field.length := Eq.symm hsize
    subst hn
    exact determined_forLoop 0 fun i items hitems => h (.element name i) items hitems
  | dynamic =>
    intro a hahead hahead'
    have hlt : field.length < 2 ^ 32 := hsize
    have hread := Ahead.read a.dec (Ahead.cons hahead).1 (by simpa [Width.bytes] using hlt)
    have hread' := Ahead.read a.dec (Ahead.cons hahead').1 (by simpa [Width.bytes] using hlt)
    have hgrow := hasRead_growArray P name cls field.length (a.accept (.prim .four field.length))
    have hrest := (Ahead.cons hahead).2
    have hrest' := (Ahead.cons hahead').2
    have hround : ∀ i, ∀ items ∈ field, Determined mem mem' items
        (copyRound name (element (.member ("st_" ++ name))) i)
        (copyRound name (element' (.member ("st_" ++ name))) i) := by
      intro i items hitems a hahead hahead'
      obtain ⟨a₁, helement, helement', hread⟩ :=
        h (.member ("st_" ++ name)) items hitems a hahead hahead'
      refine ⟨copyElement name i a₁, ?_, ?_, ?_⟩
      · rw [copyRound, helement]
      · rw [copyRound, helement']
      · simpa using hread.trans (hasRead_copyElement name i a₁)
    obtain ⟨a₁, hloop, hloop', hdone⟩ := determined_forLoop 0 hround
      (growArray P name cls field.length (a.accept (.prim .four field.length)))
      (by rw [hgrow.1]; exact hrest) (by rw [hgrow.1]; exact hrest')
    refine ⟨a₁, ?_, ?_, ?_⟩
    · rw [deserializeField_dynamic, hread]
      exact hloop
    · rw [deserializeField_dynamic, hread']
      exact hloop'
    · exact ((hasRead_accept _ a).trans hgrow).trans hdone

mutual

theorem DataClass.cdrDeserialize_determined (P : Platform) (cls : DataClass) {items : List Item}
    (h : cls.Accepts items) (place : Place) :
    Determined mem mem' items (cls.cdrDeserialize P mem place)
      (cls.cdrDeserialize P mem' place) := by
  match cls with
  | .primitive p =>
    obtain ⟨n, hn, rfl⟩ := h
    intro a hahead hahead'
    refine ⟨{ a.accept (.prim p.width n) with
        this := place.store a.this (.value (p.cast n)) }, ?_, ?_,
      hasRead_accept _ a⟩
    · simp only [DataClass.cdrDeserialize, Ahead.read a.dec hahead hn]
      rfl
    · simp only [DataClass.cdrDeserialize, Ahead.read a.dec hahead' hn]
      rfl
  | .string =>
    obtain ⟨text, htext, rfl⟩ := h
    intro a hahead hahead'
    exact ⟨replayString place text a, deserializeString_eq_replay place htext hahead,
      deserializeString_eq_replay place htext hahead', hasRead_replayString place text a⟩
  | .message D =>
    intro a hahead hahead'
    obtain ⟨sub, hsub, hsub', hread⟩ := D.cdrDeserialize_determined P h
      ⟨(place.load a.this).members, a.dec⟩ hahead hahead'
    refine ⟨⟨place.store a.this (.message sub.this), sub.dec⟩, ?_, ?_, hread⟩
    · simp only [DataClass.cdrDeserialize, hsub]
    · simp only [DataClass.cdrDeserialize, hsub']

/-- `cdr_deserialize` is determined by the items that it accepts. -/
theorem MessageDef.cdrDeserialize_determined (P : Platform) (D : MessageDef) {items : List Item}
    (h : D.Accepts items) :
    Determined mem mem' items (D.cdrDeserialize P mem) (D.cdrDeserialize P mem') := by
  match D with
  | .nil =>
    obtain rfl : items = [] := h
    exact fun a _ _ => ⟨a, rfl, rfl, HasRead.refl a⟩
  | .cons name cls size rest =>
    obtain ⟨field, more, hsize, helements, hmore, rfl⟩ := h
    intro a hahead hahead'
    obtain ⟨a₁, hfield, hfield', hread⟩ := determined_field P name cls hsize
      (fun place items hitems => DataClass.cdrDeserialize_determined P cls
        (helements items hitems) place) a hahead.split.1 hahead'.split.1
    have hrest := hahead.split.2
    have hrest' := hahead'.split.2
    rw [← hread.1] at hrest hrest'
    obtain ⟨a₂, hdone, hdone', hread'⟩ :=
      MessageDef.cdrDeserialize_determined P rest hmore a₁ hrest hrest'
    refine ⟨a₂, ?_, ?_, hread.trans hread'⟩
    · rw [MessageDef.cdrDeserialize, hfield]
      exact hdone
    · rw [MessageDef.cdrDeserialize, hfield']
      exact hdone'

end

end Determined

end Ros2Serial.Generator
