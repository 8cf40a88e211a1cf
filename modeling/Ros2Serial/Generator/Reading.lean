import Ros2Serial.Generator.Soundness

/-!
# How any input is read

`cdr_deserialize` does not stop at what is missing.  A primitive that is not
there is left as it was, a count that is not there is what the uninitialised
local holds, and a nested message is left at a string that it refuses.  The
statements behind it go on.  A string of the message itself, though, ends the
run.

`MessageDef.Reads` says for any input how it is read: from which cursor to which
one, and whether the reading gets to the end.  It leaves the objects out, and it
has no step where the code would probe outside of the input, or where a count
does not fit.
-/

namespace Ros2Serial.Generator

open Bytes PlainCdr Ucdr

/-! ## What is ahead of the iterator -/

section Ahead

variable {mem : List UInt8} {ub : Buffer}

/-- What is ahead, and what is ahead behind it. -/
theorem Ahead.append {xs ys : List Item} (hx : Ahead mem ub xs)
    (hy : Ahead mem (ub.afterAll xs) ys) : Ahead mem ub (xs ++ ys) where
  live := hx.live
  fits := by
    rw [endPos_append]
    simpa using hy.fits
  bound := hx.bound
  layout := by
    have hit := hx.live.iterator_eq
    have hit' := hy.live.iterator_eq
    have hend := endPos_eq ub.offset xs
    have hstart : (ub.afterAll xs).iterator = ub.iterator + (encode ub.offset xs).length := by
      rw [hit', Buffer.afterAll_init, Buffer.afterAll_offset, hend, hit]
      omega
    have hlay := hy.layout
    rw [hstart, Buffer.afterAll_offset] at hlay
    rw [encode_append, List.length_append, slice_add]
    exact hx.layout.append hlay

/-- Where there is room for a primitive, there is one. -/
theorem exists_ahead_prim (hnil : Ahead mem ub []) {w : Width}
    (hroom : ub.init + endPos ub.offset [.prim w 0] ≤ ub.final) :
    ∃ n < 256 ^ w.bytes, Ahead mem ub [.prim w n] := by
  have hit := hnil.live.iterator_eq
  have hbound := hnil.bound
  have hin : ub.iterator + (padding w.bytes ub.offset + w.bytes) ≤ mem.length := by
    have hfits : ub.init + (ub.offset + padding w.bytes ub.offset + w.bytes) ≤ ub.final := hroom
    omega
  have hinside : ub.iterator + padding w.bytes ub.offset + w.bytes ≤ mem.length := by omega
  have hlength := slice_length hinside
  refine ⟨LittleEndian.decode (slice mem (ub.iterator + padding w.bytes ub.offset) w.bytes), ?_,
    hnil.live, hroom, hbound, ?_⟩
  · have hlt := LittleEndian.decode_lt (slice mem (ub.iterator + padding w.bytes ub.offset) w.bytes)
    rwa [hlength] at hlt
  · have hbytes := LittleEndian.encode_decode
      (slice mem (ub.iterator + padding w.bytes ub.offset) w.bytes)
    rw [hlength] at hbytes
    have hpad := matches_replicate_none (slice mem ub.iterator (padding w.bytes ub.offset))
    rw [slice_length (by omega)] at hpad
    simp only [encode, Item.encode, List.append_nil, hbytes, List.length_append,
      List.length_replicate, List.length_map, hlength, slice_add]
    exact hpad.append (matches_map_some.mpr rfl)

/-- Bytes that are there, and of which the last one is zero, are a string. -/
theorem exists_text {n : Nat} (hahead : Ahead mem ub [.prim .four n]) (hpos : 0 < n)
    (hinside : (ub.after (.prim .four n)).iterator + n ≤ ub.final)
    (hlast : mem.getD ((ub.after (.prim .four n)).iterator + (n - 1)) 0 = 0) :
    ∃ text : List UInt8, text.length + 1 = n ∧ Ahead mem ub (stringItems text) := by
  cases n with
  | zero => exact absurd hpos (Nat.lt_irrefl 0)
  | succ k =>
    rw [Nat.add_sub_cancel] at hlast
    have hbound := hahead.bound
    have hlive : (ub.after (.prim .four (k + 1))).Live := hahead.live.after _ hahead.fits
    have hit := hlive.iterator_eq
    generalize hub : ub.after (.prim .four (k + 1)) = ub' at hinside hlast hlive hit
    have hfinal : ub'.final = ub.final := by
      rw [← hub]
      rfl
    have hlength : (slice mem ub'.iterator k).length = k := slice_length (by omega)
    have hzero : slice mem (ub'.iterator + k) 1 = [0] := by
      have hlt : ub'.iterator + k < mem.length := by omega
      rw [List.getD_eq_getElem?_getD, List.getElem?_eq_getElem hlt] at hlast
      rw [slice, List.drop_eq_getElem_cons hlt, List.take_succ_cons, List.take_zero]
      exact congrArg (· :: []) hlast
    refine ⟨slice mem ub'.iterator k, by rw [hlength], ?_⟩
    have htext : Ahead mem ub' [.octets (slice mem ub'.iterator k ++ [0])] := by
      refine ⟨hlive, ?_, hfinal ▸ hbound, ?_⟩
      · simp only [endPos, Item.endPos, List.length_append, List.length_singleton, hlength]
        omega
      · simp only [encode, Item.encode, List.append_nil, List.length_map, List.length_append,
          List.length_singleton, hlength, slice_add, hzero]
        exact matches_map_some.mpr rfl
    have hall : Ahead mem ub
        ([.prim .four (k + 1)] ++ [.octets (slice mem ub'.iterator k ++ [0])]) :=
      hahead.append (hub ▸ htext)
    rw [stringItems, hlength]
    exact hall

end Ahead

/-! ## The cursor -/

/-- Where the reading is, and how many reads there were.  Behind a read that has failed the
input is spent. -/
inductive Cursor
  | live (ub : Buffer) (reads : Nat)
  | spent (reads : Nat)

def Cursor.reads : Cursor → Nat
  | .live _ reads => reads
  | .spent reads => reads

/-- The end of the buffer is the end of the memory, which is below the top of the addresses. -/
def AtEnd (mem : List UInt8) (ub : Buffer) : Prop := ub.final = mem.length ∧ mem.length < 2 ^ 32

/-- The decoder is at the cursor. -/
def Cursor.Of (mem : List UInt8) : Cursor → Decoder → Prop
  | .live ub reads, dec =>
    dec.ub = ub ∧ dec.reads.length = reads ∧ Ahead mem ub [] ∧ AtEnd mem ub
  | .spent reads, dec => dec.ub.error = true ∧ dec.reads.length = reads

/-- A primitive is read, or is not there. -/
inductive Cursor.Reads (mem : List UInt8) (w : Width) : Cursor → Option Nat → Cursor → Prop
  | there {ub : Buffer} {reads n : Nat} (hn : n < 256 ^ w.bytes)
    (hahead : Ahead mem ub [.prim w n]) :
    Reads mem w (.live ub reads) (some n) (.live (ub.after (.prim w n)) (reads + 1))
  | short {ub : Buffer} {reads : Nat}
    (hshort : ub.final < ub.init + endPos ub.offset [.prim w 0]) :
    Reads mem w (.live ub reads) none (.spent reads)
  | spent {reads : Nat} : Reads mem w (.spent reads) none (.spent reads)

/-- A string is read (`true`), or is refused: its length is not there, or all of its bytes are
there and the last one is not zero. -/
inductive Cursor.ReadsString (mem : List UInt8) : Cursor → Bool → Cursor → Prop
  | text {ub : Buffer} {reads : Nat} {text : List UInt8} (htext : text.length + 1 < 2 ^ 32)
    (hahead : Ahead mem ub (stringItems text)) :
    ReadsString mem (.live ub reads) true (.live (ub.afterAll (stringItems text)) (reads + 2))
  | noLength {c c' : Cursor} (h : c.Reads mem .four none c') : ReadsString mem c false c'
  | noEnd {ub : Buffer} {reads n : Nat} (hlt : n < 2 ^ 32) (hahead : Ahead mem ub [.prim .four n])
    (hpos : 0 < n) (hinside : (ub.after (.prim .four n)).iterator + n ≤ ub.final)
    (hlast : mem.getD ((ub.after (.prim .four n)).iterator + (n - 1)) 0 ≠ 0) :
    ReadsString mem (.live ub reads) false (.live (ub.after (.prim .four n)) (reads + 1))

/-! ## The reading of a message -/

/-- A loop, which a refused string ends. -/
def loopReads (element : Cursor → Bool → Cursor → Prop) : Nat → Cursor → Bool → Cursor → Prop
  | 0, c, done, c' => done = true ∧ c' = c
  | count + 1, c, done, c' =>
    (∃ c₁, element c true c₁ ∧ loopReads element count c₁ done c') ∨
      (done = false ∧ element c false c')

/-- A field.  A variable array of so many elements has to fit. -/
def fieldReads (fits : DataClass → Nat → Prop) (uninitialised : Nat → Nat) (mem : List UInt8)
    (cls : DataClass) (element : Cursor → Bool → Cursor → Prop) :
    ArraySize → Cursor → Bool → Cursor → Prop
  | .single, c, done, c' => element c done c'
  | .fixed n, c, done, c' => loopReads element n c done c'
  | .dynamic, c, done, c' =>
    ∃ read c₁, c.Reads mem .four read c₁ ∧ fits cls (read.getD (uninitialised c₁.reads)) ∧
      loopReads element (read.getD (uninitialised c₁.reads)) c₁ done c'

mutual

/-- An element.  What becomes of a nested message does not count. -/
def DataClass.Reads (fits : DataClass → Nat → Prop) (uninitialised : Nat → Nat)
    (mem : List UInt8) : DataClass → Cursor → Bool → Cursor → Prop
  | .primitive p, c, done, c' => done = true ∧ ∃ read, c.Reads mem p.width read c'
  | .string, c, done, c' => c.ReadsString mem done c'
  | .message D, c, done, c' => done = true ∧ ∃ stopped, D.Reads fits uninitialised mem c stopped c'

/-- A message, field by field: to its end (`true`), or to a string of its own that is refused. -/
def MessageDef.Reads (fits : DataClass → Nat → Prop) (uninitialised : Nat → Nat)
    (mem : List UInt8) : MessageDef → Cursor → Bool → Cursor → Prop
  | .nil, c, done, c' => done = true ∧ c' = c
  | .cons _ cls size rest, c, done, c' =>
    (∃ c₁, fieldReads fits uninitialised mem cls
        (fun c done c' => cls.Reads fits uninitialised mem c done c') size c true c₁ ∧
      rest.Reads fits uninitialised mem c₁ done c') ∨
    (done = false ∧ fieldReads fits uninitialised mem cls
      (fun c done c' => cls.Reads fits uninitialised mem c done c') size c false c')

end

/-! ## The code follows the reading -/

/-- A run has no fault if and only if the input leads somewhere.  Then it gets there. -/
structure Follows (mem : List UInt8) (leads : Bool → Cursor → Prop) (run : Bool × Activation)
    (post : Prop) : Prop where
  reads : run.2.dec.fault = false → ∃ done c, leads done c
  leaves : ∀ done c, leads done c →
    run.2.dec.fault = false ∧ run.1 = done ∧ c.Of mem run.2.dec ∧ post

section Follows

variable {mem : List UInt8} {w : Width} {c c' : Cursor} {dec dec' : Decoder} {read : Option Nat}

theorem Cursor.Of.congr (h : c.Of mem dec) (hub : dec'.ub = dec.ub)
    (hreads : dec'.reads = dec.reads) :
    c.Of mem dec' := by
  cases c with
  | live ub reads => exact ⟨hub.trans h.1, hreads ▸ h.2.1, h.2.2⟩
  | spent reads => exact ⟨hub ▸ h.1, hreads ▸ h.2⟩

theorem Cursor.Of.length (h : c.Of mem dec) : dec.reads.length = c.reads := by
  cases c with
  | live ub reads => exact h.2.1
  | spent reads => exact h.2

theorem Cursor.Of.exists_reads (h : c.Of mem dec) (w : Width) :
    ∃ read c', c.Reads mem w read c' := by
  cases c with
  | live ub reads =>
    rcases Nat.lt_or_ge ub.final (ub.init + endPos ub.offset [.prim w 0]) with hshort | hroom
    · exact ⟨_, _, .short hshort⟩
    · obtain ⟨n, hn, hahead⟩ := exists_ahead_prim h.2.2.1 hroom
      exact ⟨_, _, .there hn hahead⟩
  | spent reads => exact ⟨_, _, .spent⟩

/-- A live cursor behind items that are there. -/
theorem Cursor.of_ahead (dec : Decoder) {ub : Buffer} {items : List Item}
    (hahead : Ahead mem ub items) (hend : AtEnd mem ub) (hub : dec.ub = ub.afterAll items) :
    (Cursor.live (ub.afterAll items) dec.reads.length).Of mem dec := by
  refine ⟨hub, rfl, (Ahead.split (by rw [List.append_nil]; exact hahead)).2, ?_⟩
  rw [AtEnd, Buffer.afterAll_final]
  exact hend

/-- A read does what the reading says, and nothing else. -/
theorem Cursor.Reads.run (hread : c.Reads mem w read c') (h : c.Of mem dec) :
    ∃ ub reads, dec.read mem w = ({ dec with ub := ub, reads := reads }, read) ∧
      c'.Of mem { dec with ub := ub, reads := reads } := by
  have hnone : (deserialize mem w dec.ub).2 = none →
      dec.read mem w = ({ dec with ub := (deserialize mem w dec.ub).1 }, none) := by
    intro hnone
    unfold Decoder.read
    split
    · rename_i heq
      rw [heq] at hnone
      cases hnone
    · rename_i heq
      rw [heq]
  cases hread with
  | there hn hahead =>
    obtain ⟨rfl, rfl, -, hend⟩ := h
    have hread := Ahead.read dec hahead hn
    have hof := Cursor.of_ahead (dec.read mem w).1 hahead hend (by rw [hread]; rfl)
    rw [hread] at hof
    refine ⟨_, _, hread, ?_⟩
    simpa using hof
  | short hshort =>
    obtain ⟨rfl, rfl, hnil, -⟩ := h
    obtain ⟨herror, hfailed⟩ := deserialize_overflow hnil.live mem w 0 hshort
    exact ⟨_, _, hnone hfailed, herror, rfl⟩
  | spent =>
    obtain ⟨herror, hfailed⟩ := deserialize_error h.1 mem w
    exact ⟨_, _, hnone hfailed, herror, h.2⟩

/-- The statements for a string after its length has been read. -/
theorem deserializeString_text (place : Place) {a : Activation} {n : Nat}
    (hread : a.dec.read mem .four = (dec, some n)) :
    (deserializeString mem place a).2.dec.fault =
        (dec.fault || decide (mem.length ≤ dec.ub.iterator + (n + (2 ^ 32 - 1)) % 2 ^ 32)) ∧
      (mem.getD (dec.ub.iterator + (n + (2 ^ 32 - 1)) % 2 ^ 32) 0 ≠ 0 →
        ∃ this fault, deserializeString mem place a =
          (false, ⟨this, { dec with fault := fault }⟩)) := by
  rw [deserializeString, hread]
  dsimp only
  split
  · exact ⟨rfl, fun _ => ⟨_, _, rfl⟩⟩
  · rename_i hlast
    exact ⟨rfl, fun h => absurd h hlast⟩

/-- The statements for a string. -/
theorem deserializeString_follows (place : Place) {a : Activation} (hc : c.Of mem a.dec)
    (hfault : a.dec.fault = false) :
    Follows mem (c.ReadsString mem) (deserializeString mem place a)
      (SameHeap a.dec (deserializeString mem place a).2.dec) where
  reads hrun := by
    obtain ⟨read, c', hread⟩ := hc.exists_reads .four
    cases hread with
    | there hn hahead =>
      rename_i ub reads n
      obtain ⟨rfl, rfl, -, hend⟩ := hc
      have hlt : n < 2 ^ 32 := by simpa [Width.bytes] using hn
      have hprobe := (deserializeString_text place (Ahead.read a.dec hahead hn)).1
      rw [hrun, hfault, Bool.false_or] at hprobe
      have hin := Nat.not_le.mp (of_decide_eq_false hprobe.symm)
      dsimp only at hin
      -- the probe is inside: the length is not zero, and the text is all there
      have hpos : 0 < n := by
        have := hend.2
        rcases Nat.eq_zero_or_pos n with rfl | hpos
        · omega
        · exact hpos
      have hinside : (a.dec.ub.after (.prim .four n)).iterator + n ≤ a.dec.ub.final := by
        have := hend.1
        omega
      by_cases hlast : mem.getD ((a.dec.ub.after (.prim .four n)).iterator + (n - 1)) 0 = 0
      · obtain ⟨text, rfl, htext⟩ := exists_text hahead hpos hinside hlast
        exact ⟨_, _, .text hlt htext⟩
      · exact ⟨_, _, .noEnd hlt hahead hpos hinside hlast⟩
    | short hshort => exact ⟨_, _, .noLength (.short hshort)⟩
    | spent => exact ⟨_, _, .noLength .spent⟩
  leaves done c' hreads := by
    cases hreads with
    | text htext hahead =>
      rename_i ub reads text
      obtain ⟨rfl, rfl, -, hend⟩ := hc
      have hrun := deserializeString_eq_replay place htext hahead
      obtain ⟨hub, hreads⟩ := hasRead_replayString place text a
      have hof := Cursor.of_ahead (replayString place text a).dec hahead hend hub
      rw [hreads, List.length_append] at hof
      rw [hrun]
      exact ⟨hfault, rfl, hof, rfl, rfl⟩
    | noLength hread =>
      obtain ⟨ub, reads, hrun, hof⟩ := hread.run hc
      rw [deserializeString, hrun]
      exact ⟨hfault, rfl, hof, rfl, rfl⟩
    | noEnd hlt hahead hpos hinside hlast =>
      rename_i ub reads n
      obtain ⟨rfl, rfl, -, hend⟩ := hc
      have hn : n < 256 ^ Width.four.bytes := by simpa [Width.bytes] using hlt
      have hread := Ahead.read a.dec hahead hn
      obtain ⟨hprobe, hrefused⟩ := deserializeString_text place hread
      have hindex : (n + (2 ^ 32 - 1)) % 2 ^ 32 = n - 1 := by omega
      rw [hindex] at hprobe hrefused
      obtain ⟨this, fault, hrun⟩ := hrefused hlast
      have hof := Cursor.of_ahead (deserializeString mem place a).2.dec hahead hend
        (by rw [hrun]; rfl)
      have hcount : (deserializeString mem place a).2.dec.reads.length =
          a.dec.reads.length + 1 := by
        rw [hrun]
        simp
      rw [hcount] at hof
      refine ⟨?_, by rw [hrun], hof, by rw [hrun]; exact ⟨rfl, rfl⟩⟩
      rw [hprobe]
      show (a.dec.fault || _) = false
      rw [hfault, Bool.false_or]
      refine decide_eq_false (Nat.not_le.mpr ?_)
      have := hend.1
      dsimp only
      omega

theorem Follows.congr {leads leads' : Bool → Cursor → Prop} {run : Bool × Activation} {post : Prop}
    (h : Follows mem leads run post) (hiff : ∀ done c, leads' done c ↔ leads done c) :
    Follows mem leads' run post where
  reads hrun := by
    obtain ⟨done, c, hc⟩ := h.reads hrun
    exact ⟨done, c, (hiff done c).mpr hc⟩
  leaves done c hc := h.leaves done c ((hiff done c).mp hc)

theorem Follows.imp {leads : Bool → Cursor → Prop} {run : Bool × Activation} {post post' : Prop}
    (h : Follows mem leads run post) (hpost : post → post') : Follows mem leads run post' where
  reads := h.reads
  leaves done c hc := by
    obtain ⟨hquiet, hreturn, hof, hp⟩ := h.leaves done c hc
    exact ⟨hquiet, hreturn, hof, hpost hp⟩

/-- Code that does nothing. -/
theorem Follows.skip {a : Activation} {post : Prop} (hc : c.Of mem a.dec)
    (hfault : a.dec.fault = false) (hpost : post) :
    Follows mem (fun done c' => done = true ∧ c' = c) (true, a) post where
  reads _ := ⟨true, c, rfl, rfl⟩
  leaves done c' hstays := by
    obtain ⟨rfl, rfl⟩ := hstays
    exact ⟨hfault, rfl, hc, hpost⟩

/-- Code that goes on with `next`, unless it is to stop. -/
theorem Follows.seq {leads : Bool → Cursor → Prop} {first : Bool × Activation}
    {next : Activation → Bool × Activation} {before : Prop}
    (leads' : Cursor → Bool → Cursor → Prop) (after : Bool × Activation → Prop)
    (hfirst : Follows mem leads first before)
    (hkeep : first.2.dec.fault = true → (next first.2).2.dec.fault = true)
    (hnext : ∀ c, leads true c → first.2.dec.fault = false → c.Of mem first.2.dec → before →
      Follows mem (leads' c) (next first.2) (after (next first.2)))
    (hstop : ∀ c, leads false c → before → after first) :
    ∀ run, run = (if first.1 = true then next first.2 else first) →
    Follows mem
      (fun done c' => (∃ c, leads true c ∧ leads' c done c') ∨ (done = false ∧ leads false c'))
      run (after run) := by
  intro run hrun
  subst hrun
  constructor
  · intro hrun
    have hquiet : first.2.dec.fault = false := by
      cases hfault : first.2.dec.fault with
      | false => rfl
      | true =>
        split at hrun
        · rw [hkeep hfault] at hrun
          cases hrun
        · rw [hfault] at hrun
          cases hrun
    obtain ⟨done, c, hc⟩ := hfirst.reads hquiet
    obtain ⟨-, hreturn, hof, hbefore⟩ := hfirst.leaves done c hc
    cases done with
    | false => exact ⟨false, c, .inr ⟨rfl, hc⟩⟩
    | true =>
      rw [if_pos hreturn] at hrun
      obtain ⟨done, c', hc'⟩ := (hnext c hc hquiet hof hbefore).reads hrun
      exact ⟨done, c', .inl ⟨c, hc, hc'⟩⟩
  · rintro done c' (⟨c, hc, hc'⟩ | ⟨rfl, hc⟩)
    · obtain ⟨hquiet, hreturn, hof, hbefore⟩ := hfirst.leaves true c hc
      rw [if_pos hreturn]
      exact (hnext c hc hquiet hof hbefore).leaves done c' hc'
    · obtain ⟨hquiet, hreturn, hof, hbefore⟩ := hfirst.leaves false c' hc
      rw [if_neg (by rw [hreturn]; exact Bool.false_ne_true)]
      exact ⟨hquiet, hreturn, hof, hstop c' hc hbefore⟩

end Follows

end Ros2Serial.Generator
