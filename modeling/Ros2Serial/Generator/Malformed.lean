import Ros2Serial.Generator.Storage
import Ros2Serial.Lib.Runs

/-!
# Input that is not an encoding

What `cdr_deserialize` makes of any input, on a target with 32-bit addresses.
A call is `Checked` if it returns `true` exactly for the complete input, and
touches no memory outside of the input or outside of the blocks.

The generated code does not look at what the primitive readers return, nor at
what a nested `cdr_deserialize` returns.  So it gets to its end, and returns
`true`, on most input that is not complete.  `Target.Sound` says what is left,
and `checked_iff` that it is all that is left.
-/

namespace Ros2Serial.Generator

open Bytes PlainCdr Ucdr Runs

/-! ## The target -/

/-- A target with 32-bit sizes: what `sizeof` says of the classes, the most bytes that `realloc`
finds, and what an uninitialised local holds. -/
structure Target where
  sizeOf : DataClass → Nat
  sizeOf_pos : ∀ cls, 0 < sizeOf cls
  available : Nat
  uninitialised : Nat → Nat

/-- The argument `n * sizeof(T)` of `realloc` is a `uint32_t`.  Without memory for it there is no
block, so that no element has room. -/
def Target.platform (T : Target) : Platform where
  uninitialised := T.uninitialised
  blockLength cls n :=
    let bytes := n * T.sizeOf cls % 2 ^ 32
    if bytes ≤ T.available then bytes / T.sizeOf cls else 0

/-- The size of the block is no more than `uint32_t` holds and `realloc` finds. -/
def Target.Fits (T : Target) (cls : DataClass) (n : Nat) : Prop :=
  n * T.sizeOf cls < 2 ^ 32 ∧ n * T.sizeOf cls ≤ T.available

theorem Target.platform_fits (T : Target) (cls : DataClass) (n : Nat) :
    T.platform.Fits cls n ↔ T.Fits cls n := by
  have hpos := T.sizeOf_pos cls
  have hmod := Nat.mod_le (n * T.sizeOf cls) (2 ^ 32)
  have hlt := Nat.mod_lt (n * T.sizeOf cls) (by decide : 0 < 2 ^ 32)
  simp only [Platform.Fits, Target.platform, Target.Fits]
  constructor
  · intro h
    split at h
    · rename_i havailable
      rw [Nat.le_div_iff_mul_le hpos] at h
      omega
    · obtain rfl : n = 0 := Nat.le_zero.mp h
      omega
  · rintro ⟨hsmall, havailable⟩
    rw [Nat.mod_eq_of_lt hsmall, if_pos havailable, Nat.mul_div_cancel _ hpos]

theorem Target.fitsDown (T : Target) : T.platform.FitsDown := by
  intro cls m n hle h
  rw [T.platform_fits] at h ⊢
  have hmul := Nat.mul_le_mul_right (T.sizeOf cls) hle
  exact ⟨Nat.lt_of_le_of_lt hmul h.1, Nat.le_trans hmul h.2⟩

/-! ## The calls -/

/-- What is passed to a call: a buffer over the bytes up to its end. -/
structure Input where
  mem : List UInt8
  ub : Buffer
  live : ub.Live
  atEnd : AtEnd mem ub

/-- The input begins with a complete encoding. -/
def MessageDef.Complete (D : MessageDef) (input : Input) : Prop :=
  ∃ items, D.Accepts items ∧ Ahead input.mem input.ub items

section Calls

variable (T : Target) (D : MessageDef)

/-- A call of `cdr_deserialize`. -/
def Target.cdrDeserialize (a : Activation) (input : Input) : Bool × Activation :=
  D.cdrDeserialize T.platform input.mem ⟨a.this, { a.dec with ub := input.ub, reads := [] }⟩

/-- The object, and the heap, after a call. -/
def Target.step (a : Activation) (input : Input) : Activation := (T.cdrDeserialize D a input).2

/-- It returns `true` exactly for the complete input, and touches nothing else. -/
def Target.Checked (a : Activation) (input : Input) : Prop :=
  ((T.cdrDeserialize D a input).1 = true ↔ D.Complete input) ∧
    (T.cdrDeserialize D a input).2.dec.fault = false

/-- Either the input is complete and its counts fit, or it leads to a string of the message itself
that is refused. -/
def Target.Sound (input : Input) : Prop :=
  (D.Complete input ∧
      ∃ c, D.Reads T.Fits T.uninitialised input.mem (.live input.ub 0) true c) ∨
    ∃ c, D.Reads T.Fits T.uninitialised input.mem (.live input.ub 0) false c

/-- A new object. -/
def MessageDef.fresh : Activation := ⟨D.construct, .start (initBuffer 0 0)⟩

/-- Between two calls: no fault so far, and the variable arrays have room for their elements. -/
def Target.Kept (a : Activation) : Prop :=
  a.dec.fault = false ∧ ∃ owner, D.Stored T.platform owner a.dec [] a.this

end Calls

section Runs

variable {T : Target} {reserved : String → Prop} {D : MessageDef} {a : Activation}

/-- On the complete input a call returns `true`. -/
theorem MessageDef.Complete.returns {input : Input} (h : D.Complete input) :
    (T.cdrDeserialize D a input).1 = true := by
  obtain ⟨items, haccepts, hahead⟩ := h
  obtain ⟨a', hrun, -, -⟩ := D.cdrDeserialize_determined T.platform haccepts
    ⟨a.this, { a.dec with ub := input.ub, reads := [] }⟩ hahead hahead
  rw [Target.cdrDeserialize, hrun]

theorem Input.of_live (input : Input) (dec : Decoder) :
    (Cursor.live input.ub 0).Of input.mem { dec with ub := input.ub, reads := [] } := by
  refine ⟨rfl, rfl, ⟨input.live, ?_, Nat.le_of_eq input.atEnd.1, ?_⟩, input.atEnd⟩
  · have hinside := input.live.inside
    rw [input.live.iterator_eq] at hinside
    exact hinside
  · simpa [encode] using matches_nil

/-- A call follows the reading. -/
theorem Target.cdrDeserialize_follows (hD : D.Compiles reserved) (h : T.Kept D a) (input : Input) :
    Follows input.mem (D.Reads T.Fits T.uninitialised input.mem (.live input.ub 0))
      (T.cdrDeserialize D a input) (T.Kept D (T.step D a input)) := by
  obtain ⟨hfault, owner, hstored⟩ := h
  have hsame : SameHeap a.dec { a.dec with ub := input.ub, reads := [] } := ⟨rfl, rfl⟩
  have hstored' := hstored.keep (fun _ _ => rfl) (hsame.keeps (fun _ => False) owner)
    fun _ _ _ _ => id
  have hfits : T.platform.Fits = T.Fits :=
    funext fun cls => funext fun n => propext (T.platform_fits cls n)
  obtain ⟨hreads, hleaves⟩ := MessageDef.cdrDeserialize_follows T.fitsDown
    (MessageDef.Compiles.partOf hD)
    (a := ⟨a.this, { a.dec with ub := input.ub, reads := [] }⟩) (input.of_live a.dec) hfault
    hstored' _ rfl
  rw [hfits] at hreads hleaves
  refine ⟨hreads, fun done c hc => ?_⟩
  obtain ⟨hquiet, hreturn, hof, owner', -, hkept⟩ := hleaves done c hc
  exact ⟨hquiet, hreturn, hof, hquiet, owner', hkept⟩

/-- A call is checked if and only if its input is sound. -/
theorem Target.checked_iff_sound (hD : D.Compiles reserved) (h : T.Kept D a) (input : Input) :
    T.Checked D a input ↔ T.Sound D input := by
  obtain ⟨hreads, hleaves⟩ := Target.cdrDeserialize_follows hD h input
  constructor
  · rintro ⟨hreturns, hquiet⟩
    obtain ⟨done, c, hc⟩ := hreads hquiet
    obtain ⟨-, hreturn, -⟩ := hleaves done c hc
    cases done with
    | true => exact .inl ⟨hreturns.mp hreturn, c, hc⟩
    | false => exact .inr ⟨c, hc⟩
  · rintro (⟨hcomplete, c, hc⟩ | ⟨c, hc⟩)
    · obtain ⟨hquiet, hreturn, -⟩ := hleaves true c hc
      exact ⟨iff_of_true hreturn hcomplete, hquiet⟩
    · obtain ⟨hquiet, hreturn, -⟩ := hleaves false c hc
      refine ⟨iff_of_false (by rw [hreturn]; exact Bool.false_ne_true) fun hcomplete => ?_, hquiet⟩
      have htrue := hcomplete.returns (T := T) (a := a)
      rw [hreturn] at htrue
      cases htrue

/-- A sound input leaves the object as the next call needs it. -/
theorem Target.Kept.step (hD : D.Compiles reserved) (h : T.Kept D a) {input : Input}
    (hsound : T.Sound D input) : T.Kept D (T.step D a input) := by
  obtain ⟨-, hleaves⟩ := Target.cdrDeserialize_follows hD h input
  rcases hsound with ⟨-, c, hc⟩ | ⟨c, hc⟩
  · exact (hleaves true c hc).2.2.2
  · exact (hleaves false c hc).2.2.2

theorem MessageDef.fresh_kept (hD : D.Compiles reserved) : T.Kept D D.fresh :=
  have hnamed := DataClass.Compiles.allWellNamed hD
  ⟨rfl, fun _ => [], MessageDef.stored_construct hnamed.1 hnamed.2 []⟩

end Runs

/-- A sequence of calls on one object does what it should, throughout, if and only if every input
is sound. -/
theorem checked_iff (T : Target) {reserved : String → Prop} {D : MessageDef}
    (hD : D.Compiles reserved) (inputs : List Input) :
    Throughout (T.step D) (T.Checked D) D.fresh inputs ↔ ∀ input ∈ inputs, T.Sound D input := by
  have hcalls : Throughout (T.step D) (T.Checked D) D.fresh inputs ↔
      Throughout (T.step D) (fun _ input => T.Sound D input) D.fresh inputs :=
    throughout_congr (P := T.Kept D) (MessageDef.fresh_kept hD)
      (fun _ input h => Target.checked_iff_sound hD h input)
      fun _ _ h hsound => Target.Kept.step hD h hsound
  exact hcalls.trans throughout_iff_forall

/-! ## A number and a text -/

/-- A target with 20 KiB of free memory, where local variables happen to hold zero. -/
def smallTarget : Target where
  sizeOf
    | .primitive p => p.width.bytes
    | .string => 4
    | .message D => 4 * (D.members.length + 1)
  sizeOf_pos
    | .primitive p => by cases p <;> decide
    | .string => by decide
    | .message D => Nat.mul_pos (by decide) (Nat.succ_pos _)
  available := 20480
  uninitialised _ := 0

/-- A buffer over some bytes. -/
def Input.over (bytes : List UInt8) (h : bytes.length < 2 ^ 32) : Input where
  mem := bytes
  ub := initBuffer 0 bytes.length
  live := initBuffer_live 0 bytes.length
  atEnd := ⟨by simp [initBuffer], h⟩

/-- `uint32 data`. -/
def countDef : MessageDef := .cons "data" (.primitive .uint32) .single .nil

/-- `string data`. -/
def labelDef : MessageDef := .cons "data" .string .single .nil

/-- Half of a number. -/
def halfNumber : Input := .over [1, 0] (by decide)

/-- The length of a text, which is zero. -/
def zeroLength : Input := .over [0, 0, 0, 0] (by decide)

theorem labelDef_compiles : labelDef.Compiles fun _ => False :=
  ⟨by decide, by simp [labelDef, MessageDef.members, fieldMembers]; decide, by
    simp [labelDef, MessageDef.members, fieldMembers, stringTarget]; decide, trivial, trivial⟩

/-- A text of one letter. -/
def oneLetter : Input := .over [2, 0, 0, 0, 0x68, 0] (by decide)

theorem oneLetter_sound : smallTarget.Sound labelDef oneLetter := by
  have hahead : Ahead [2, 0, 0, 0, 0x68, 0] (initBuffer 0 6) (stringItems [0x68]) := by
    refine ⟨initBuffer_live 0 6, by decide, by decide, ?_⟩
    simp only [Matches, encode, stringItems, initBuffer, slice]
    decide +kernel
  have haccepts : labelDef.Accepts (stringItems [0x68]) :=
    ⟨[stringItems [0x68]], [], rfl, by simpa using ⟨[0x68], by decide, rfl⟩, rfl, rfl⟩
  exact .inl ⟨⟨stringItems [0x68], haccepts, hahead⟩, _, .inl ⟨_, .text (by decide) hahead,
    rfl, rfl⟩⟩

/-- A text is there, or its length is cut. -/
theorem cutLabels_checked :
    Throughout (smallTarget.step labelDef) (smallTarget.Checked labelDef) labelDef.fresh
      [.over [] (by decide), oneLetter, .over [7, 0] (by decide)] := by
  refine (checked_iff smallTarget labelDef_compiles _).mpr ?_
  have hcut : ∀ bytes : List UInt8, ∀ h : bytes.length < 2 ^ 32, bytes.length < 4 →
      smallTarget.Sound labelDef (.over bytes h) := by
    intro bytes h hcut
    refine .inr ⟨_, .inr ⟨rfl, .noLength (.short ?_)⟩⟩
    show 0 + bytes.length < 0 + (0 + padding 4 0 + 4)
    simpa [padding] using hcut
  simp only [List.mem_cons, List.not_mem_nil, or_false]
  rintro input (rfl | rfl | rfl)
  · exact hcut _ _ (by decide)
  · exact oneLetter_sound
  · exact hcut _ _ (by decide)

/-- On half of a number a call returns `true`, and it probes outside of the input where a
text has the length zero. -/
theorem halfNumber_not_checked :
    (¬ Throughout (smallTarget.step countDef) (smallTarget.Checked countDef) countDef.fresh
      [halfNumber]) ∧
    ¬ Throughout (smallTarget.step labelDef) (smallTarget.Checked labelDef) labelDef.fresh
      [zeroLength] := by
  constructor
  · intro h
    obtain ⟨hreturns, -⟩ := (throughout_cons.mp h).1
    have hdone : (smallTarget.cdrDeserialize countDef countDef.fresh halfNumber).1 = true := by
      decide
    obtain ⟨items, ⟨field, more, hsize, helements, rfl, rfl⟩, hahead⟩ := hreturns.mp hdone
    obtain ⟨element, rfl⟩ := List.length_eq_one_iff.mp hsize
    obtain ⟨n, -, rfl⟩ := helements element (List.mem_singleton_self _)
    have hfits : 0 + (0 + padding 4 0 + 4) ≤ 2 := hahead.fits
    exact absurd hfits (by decide)
  · intro h
    obtain ⟨-, hquiet⟩ := (throughout_cons.mp h).1
    revert hquiet
    decide

end Ros2Serial.Generator
