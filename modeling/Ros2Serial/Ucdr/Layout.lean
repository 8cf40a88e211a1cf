import Ros2Serial.Ucdr.Buffer

/-!
# What the Micro-CDR operations do

`Buffer.Live` is the state in which operations have an effect: no error yet,
the iterator inside the buffer, and the shortcut through `lastDataSize`
justified.  On a live buffer an item either fits or it does not.

* If it fits, `Buffer.after` is the new buffer, and the PLAIN_CDR layout of
  the item is in memory (`writeItem_fits`).  Reading goes over the same range
  (`deserialize_fits`, `bufferToArray_fits`).
* If it does not, `error` is set for good and no later item is written
  (`writeItem_error`).  The iterator then stands at the end of the buffer,
  unless the item is a primitive that straddles that end
  (`writeItem_overflow`).

The lemmas about `writeItems` repeat this for a whole layout.
-/

namespace Ros2Serial.Ucdr

open Bytes PlainCdr

/-- The states in which the buffer operations have an effect.  `aligned` is
what makes the test `data_size > last_data_size` of `ucdr_buffer_alignment` a
shortcut and not a change of the layout. -/
structure Buffer.Live (ub : Buffer) : Prop where
  error : ub.error = false
  inside : ub.iterator ≤ ub.final
  iterator_eq : ub.iterator = ub.init + ub.offset
  aligned : ∀ w : Width, w.bytes ≤ ub.lastDataSize → w.bytes ∣ ub.offset

/-- The number of bytes between the two ends of the buffer. -/
def Buffer.capacity (ub : Buffer) : Nat := ub.final - ub.init

/-- `lastDataSize` after an item. -/
def lastSize : Item → Nat
  | .prim w _ => w.bytes
  | .octets _ => 1

/-- The buffer after an item that fits. -/
def Buffer.after (ub : Buffer) (it : Item) : Buffer :=
  { ub with
    iterator := ub.init + it.endPos ub.offset
    offset := it.endPos ub.offset
    lastDataSize := lastSize it }

/-- The buffer after a layout that fits. -/
def Buffer.afterAll (ub : Buffer) (items : List Item) : Buffer := items.foldl Buffer.after ub

@[simp] theorem Buffer.after_init (ub : Buffer) (it : Item) : (ub.after it).init = ub.init := rfl
@[simp] theorem Buffer.after_final (ub : Buffer) (it : Item) : (ub.after it).final = ub.final := rfl
@[simp] theorem Buffer.after_origin (ub : Buffer) (it : Item) :
    (ub.after it).origin = ub.origin := rfl
@[simp] theorem Buffer.after_error (ub : Buffer) (it : Item) : (ub.after it).error = ub.error := rfl
@[simp] theorem Buffer.after_offset (ub : Buffer) (it : Item) :
    (ub.after it).offset = it.endPos ub.offset := rfl
@[simp] theorem Buffer.after_iterator (ub : Buffer) (it : Item) :
    (ub.after it).iterator = ub.init + it.endPos ub.offset := rfl

@[simp] theorem Buffer.afterAll_nil (ub : Buffer) : ub.afterAll [] = ub := rfl

@[simp] theorem Buffer.afterAll_cons (ub : Buffer) (it : Item) (rest : List Item) :
    ub.afterAll (it :: rest) = (ub.after it).afterAll rest := rfl

theorem Buffer.afterAll_append (ub : Buffer) (xs ys : List Item) :
    ub.afterAll (xs ++ ys) = (ub.afterAll xs).afterAll ys := by
  simp [Buffer.afterAll]

@[simp] theorem Buffer.afterAll_init (ub : Buffer) (items : List Item) :
    (ub.afterAll items).init = ub.init := by
  induction items generalizing ub with
  | nil => rfl
  | cons it rest ih => simp [ih]

@[simp] theorem Buffer.afterAll_final (ub : Buffer) (items : List Item) :
    (ub.afterAll items).final = ub.final := by
  induction items generalizing ub with
  | nil => rfl
  | cons it rest ih => simp [ih]

@[simp] theorem Buffer.afterAll_origin (ub : Buffer) (items : List Item) :
    (ub.afterAll items).origin = ub.origin := by
  induction items generalizing ub with
  | nil => rfl
  | cons it rest ih => simp [ih]

@[simp] theorem Buffer.afterAll_offset (ub : Buffer) (items : List Item) :
    (ub.afterAll items).offset = endPos ub.offset items := by
  induction items generalizing ub with
  | nil => rfl
  | cons it rest ih => simp [ih, endPos]

/-- An item that fits leaves the buffer live. -/
theorem Buffer.Live.after {ub : Buffer} (h : ub.Live) (it : Item)
    (hfit : ub.init + it.endPos ub.offset ≤ ub.final) : (ub.after it).Live where
  error := h.error
  inside := hfit
  iterator_eq := rfl
  aligned w hw := by
    cases it with
    | octets bytes =>
      have hone : w = .one := by cases w <;> simp [Buffer.after, lastSize, Width.bytes] at hw ⊢
      subst hone
      exact Nat.one_dvd _
    | prim w' value =>
      have hdvd : w'.bytes ∣ ub.offset + padding w'.bytes ub.offset + w'.bytes :=
        Nat.dvd_add (dvd_add_padding w' ub.offset) (Nat.dvd_refl _)
      have hww : w.bytes ∣ w'.bytes := by
        cases w <;> cases w' <;> simp [Buffer.after, lastSize, Width.bytes] at hw ⊢
      exact Nat.dvd_trans hww hdvd

/-- A layout that fits leaves the buffer live. -/
theorem Buffer.Live.afterAll {ub : Buffer} (h : ub.Live) (items : List Item)
    (hfit : ub.init + endPos ub.offset items ≤ ub.final) : (ub.afterAll items).Live := by
  induction items generalizing ub with
  | nil => exact h
  | cons it rest ih =>
    have hle := le_endPos (it.endPos ub.offset) rest
    have hit := h.after it (by rw [endPos] at hfit; omega)
    exact ih hit (by simpa [endPos] using hfit)

/-- A freshly initialised buffer is live. -/
theorem initBuffer_live (data size : Nat) : (initBuffer data size).Live where
  error := rfl
  inside := by simp [initBuffer]
  iterator_eq := rfl
  aligned w hw := Nat.dvd_zero _

/-- A buffer whose origin is its first byte is live after a reset. -/
theorem resetBuffer_live {ub : Buffer} (ho : ub.origin = 0) (hle : ub.init ≤ ub.final) :
    (resetBuffer ub).Live where
  error := rfl
  inside := hle
  iterator_eq := by simp [resetBuffer, ho]
  aligned w hw := by simp [resetBuffer, ho]

/-! ## Moving the iterator -/

/-- On a live buffer the alignment is the padding of the layout. -/
theorem Buffer.Live.bufferAlignment {ub : Buffer} (h : ub.Live) (w : Width) :
    bufferAlignment ub w.bytes = padding w.bytes ub.offset := by
  have hmod : ub.offset % 2 ^ 32 % w.bytes = ub.offset % w.bytes :=
    Nat.mod_mod_of_dvd _ (by cases w <;> decide)
  have hand : ∀ n, n &&& (w.bytes - 1) = n % w.bytes := by
    intro n
    cases w
    · exact Nat.and_two_pow_sub_one_eq_mod n 0
    · exact Nat.and_two_pow_sub_one_eq_mod n 1
    · exact Nat.and_two_pow_sub_one_eq_mod n 2
    · exact Nat.and_two_pow_sub_one_eq_mod n 3
  rw [Ucdr.bufferAlignment]
  split
  · rw [hmod, hand, padding]
  · exact (padding_eq_zero (h.aligned w (by omega))).symm

theorem checkBufferAvailableFor_iff {ub : Buffer} {bytes : Nat} :
    checkBufferAvailableFor ub bytes = true ↔
      ub.error = false ∧ ub.iterator + bytes ≤ ub.final := by
  simp [checkBufferAvailableFor]

/-- After an error the fill loop does nothing. -/
theorem fillLoop_error {ub : Buffer} (h : ub.error = true) (fuel remaining : Nat) :
    fillLoop fuel ub remaining = (ub, 0) := by
  cases fuel with
  | zero => rfl
  | succ fuel => simp [fillLoop, checkFinalBufferBehaviorArray, h]

/-- Without room the fill loop fills the buffer up and sets the error. -/
theorem fillLoop_full {ub : Buffer} {remaining : Nat} (he : ub.error = false)
    (hin : ub.iterator ≤ ub.final) (hover : ub.final < ub.iterator + remaining) :
    fillLoop (remaining + 1) ub remaining =
      ({ ub with
          iterator := ub.final, offset := ub.offset + (ub.final - ub.iterator), error := true },
        ub.final - ub.iterator) := by
  rcases Nat.lt_or_ge ub.iterator ub.final with hlt | hge
  · -- one round moves to the end of the buffer, the next one sets the error
    obtain ⟨r, rfl⟩ : ∃ r, remaining = r + 1 := ⟨remaining - 1, by omega⟩
    have hmin : min (r + 1) (ub.final - ub.iterator) = ub.final - ub.iterator := by omega
    have hne : ub.final - ub.iterator ≠ 0 := by omega
    have hrest : 0 < r + 1 - (ub.final - ub.iterator) := by omega
    have hend : ub.iterator + (ub.final - ub.iterator) = ub.final := by omega
    simp [fillLoop, checkFinalBufferBehaviorArray, bufferRemaining, he, Nat.not_le.mpr hlt, hmin,
      hne, hend, hrest]
  · have heq : ub.iterator = ub.final := Nat.le_antisymm hin hge
    have hpos : 0 < remaining := by omega
    simp [fillLoop, checkFinalBufferBehaviorArray, he, heq, hpos]

/-- Padding that fits. -/
theorem advanceBuffer_fits {ub : Buffer} (size : Nat) (he : ub.error = false)
    (hfit : ub.iterator + size ≤ ub.final) :
    advanceBuffer ub size =
      { ub with
        iterator := ub.iterator + size, offset := ub.offset + size, lastDataSize := 1 } := by
  simp [advanceBuffer, checkBufferAvailableFor, he, hfit]

/-- Padding that does not fit. -/
theorem advanceBuffer_full {ub : Buffer} {size : Nat} (he : ub.error = false)
    (hin : ub.iterator ≤ ub.final) (hover : ub.final < ub.iterator + size) :
    advanceBuffer ub size =
      { ub with
        iterator := ub.final
        offset := ub.offset + (ub.final - ub.iterator)
        lastDataSize := 1
        error := true } := by
  have hno : ¬ ub.iterator + size ≤ ub.final := by omega
  simp [advanceBuffer, checkBufferAvailableFor, he, hno, fillLoop_full he hin hover]

theorem advanceBuffer_error {ub : Buffer} (h : ub.error = true) (size : Nat) :
    advanceBuffer ub size = { ub with lastDataSize := 1 } := by
  simp [advanceBuffer, checkBufferAvailableFor, h, fillLoop_error h]

/-! ## Items that fit -/

theorem checkFinalBufferBehavior_room {ub : Buffer} (he : ub.error = false)
    (hlt : ub.iterator < ub.final) : checkFinalBufferBehavior ub = (ub, true) := by
  simp [checkFinalBufferBehavior, he, Nat.not_le.mpr hlt]

theorem checkFinalBufferBehavior_full {ub : Buffer} (he : ub.error = false)
    (hge : ub.final ≤ ub.iterator) :
    checkFinalBufferBehavior ub = ({ ub with error := true }, false) := by
  simp [checkFinalBufferBehavior, he, hge]

theorem checkFinalBufferBehavior_error {ub : Buffer} (h : ub.error = true) :
    checkFinalBufferBehavior ub = (ub, false) := by
  simp [checkFinalBufferBehavior, h]

@[simp] theorem padding_one (pos : Nat) : padding 1 pos = 0 := by
  simp [padding, Nat.mod_one]

/-- A primitive that fits: the new buffer, and where its bytes go. -/
theorem serialize_fits {c : Cdr} (h : c.ub.Live) (w : Width) (value : Nat)
    (hfit : c.ub.init + (Item.prim w value).endPos c.ub.offset ≤ c.ub.final) :
    serialize w value c =
      { ub := c.ub.after (.prim w value)
        mem := overwrite c.mem (c.ub.iterator + padding w.bytes c.ub.offset)
          (LittleEndian.encode w.bytes value) } := by
  have he := h.error
  have hit := h.iterator_eq
  simp only [Item.endPos] at hfit
  by_cases hw : w = .one
  · subst hw
    simp only [Width.bytes, padding_one] at hfit
    have hroom := checkFinalBufferBehavior_room he (by omega)
    simp [serialize, serializeByte1, hroom, Buffer.after, Item.endPos, lastSize, Width.bytes, hit,
      Nat.add_assoc]
  · have hN : serialize w value c = serializeByteN w.bytes value c := by
      cases w <;> simp [serialize] at hw ⊢
    have hadv := advanceBuffer_fits (padding w.bytes c.ub.offset) he (by omega)
    have hav : checkBufferAvailableFor { c.ub with
        iterator := c.ub.iterator + padding w.bytes c.ub.offset
        offset := c.ub.offset + padding w.bytes c.ub.offset, lastDataSize := 1 } w.bytes = true :=
      checkBufferAvailableFor_iff.mpr ⟨he, by show _ + _ + _ ≤ c.ub.final; omega⟩
    simp only [hN, serializeByteN, h.bufferAlignment w, hadv, hav, if_true]
    simp [Buffer.after, Item.endPos, lastSize, hit, Nat.add_assoc]

/-- Bytes that fit. -/
theorem arrayToBuffer_fits {c : Cdr} (h : c.ub.Live) (bytes : List UInt8)
    (hfit : c.ub.iterator + bytes.length ≤ c.ub.final) :
    arrayToBuffer bytes c =
      { ub := c.ub.after (.octets bytes), mem := overwrite c.mem c.ub.iterator bytes } := by
  have hav : checkBufferAvailableFor c.ub bytes.length = true :=
    checkBufferAvailableFor_iff.mpr ⟨h.error, hfit⟩
  have hit := h.iterator_eq
  simp [arrayToBuffer, hav, Buffer.after, Item.endPos, lastSize, hit, Nat.add_assoc]

/-- An item that fits is laid out at the iterator, and the iterator goes to
its end. -/
theorem writeItem_fits {c : Cdr} (h : c.ub.Live) {it : Item}
    (hfit : c.ub.init + it.endPos c.ub.offset ≤ c.ub.final) (hmem : c.ub.final ≤ c.mem.length) :
    (writeItem it c).ub = c.ub.after it ∧
      Laid c.mem (writeItem it c).mem c.ub.iterator (it.encode c.ub.offset) := by
  have hit := h.iterator_eq
  cases it with
  | prim w value =>
    rw [writeItem, serialize_fits h w value hfit]
    simp only [Item.endPos] at hfit
    refine ⟨rfl, ?_⟩
    have hpad : Laid c.mem c.mem c.ub.iterator
        (List.replicate (padding w.bytes c.ub.offset) none) := laid_padding (by omega)
    refine hpad.append ?_
    rw [List.length_replicate]
    exact laid_overwrite (by rw [LittleEndian.encode_length]; omega)
  | octets bytes =>
    simp only [Item.endPos] at hfit
    rw [writeItem, arrayToBuffer_fits h bytes (by omega)]
    exact ⟨rfl, laid_overwrite (by omega)⟩

/-- A layout that fits is in memory after the calls that write it. -/
theorem writeItems_fits {c : Cdr} (h : c.ub.Live) {items : List Item}
    (hfit : c.ub.init + endPos c.ub.offset items ≤ c.ub.final)
    (hmem : c.ub.final ≤ c.mem.length) :
    (writeItems items c).ub = c.ub.afterAll items ∧
      Laid c.mem (writeItems items c).mem c.ub.iterator (encode c.ub.offset items) := by
  induction items generalizing c with
  | nil => exact ⟨rfl, Laid.nil _ _⟩
  | cons it rest ih =>
    rw [endPos] at hfit
    have hle := le_endPos (it.endPos c.ub.offset) rest
    have hitfit : c.ub.init + it.endPos c.ub.offset ≤ c.ub.final := by omega
    obtain ⟨hub, hlaid⟩ := writeItem_fits h hitfit hmem
    have hlive : (writeItem it c).ub.Live := hub ▸ h.after it hitfit
    have hlen := hlaid.length
    obtain ⟨hub', hlaid'⟩ := ih hlive (by simpa [hub] using hfit) (by simpa [hub, hlen] using hmem)
    refine ⟨by rw [writeItems_cons, hub', hub, Buffer.afterAll_cons], ?_⟩
    have hstart : (writeItem it c).ub.iterator =
        c.ub.iterator + (it.encode c.ub.offset).length := by
      rw [hub, Buffer.after_iterator, it.endPos_eq, h.iterator_eq]
      omega
    rw [hstart, hub] at hlaid'
    exact hlaid.append hlaid'

/-! ## Reading over the same range -/

/-- A primitive that fits is read from where writing it would put it. -/
theorem deserialize_fits {ub : Buffer} (h : ub.Live) (mem : List UInt8) (w : Width) (value : Nat)
    (hfit : ub.init + (Item.prim w value).endPos ub.offset ≤ ub.final) :
    deserialize mem w ub = (ub.after (.prim w value),
      some (LittleEndian.decode
        (slice mem (ub.iterator + padding w.bytes ub.offset) w.bytes))) := by
  have he := h.error
  have hit := h.iterator_eq
  simp only [Item.endPos] at hfit
  by_cases hw : w = .one
  · subst hw
    simp only [Width.bytes, padding_one] at hfit
    have hroom := checkFinalBufferBehavior_room he (by omega)
    simp [deserialize, deserializeByte1, hroom, Buffer.after, Item.endPos, lastSize, Width.bytes,
      hit, Nat.add_assoc]
  · have hN : deserialize mem w ub = deserializeByteN mem w.bytes ub := by
      cases w <;> simp [deserialize] at hw ⊢
    have hadv := advanceBuffer_fits (padding w.bytes ub.offset) he (by omega)
    have hav : checkBufferAvailableFor { ub with
        iterator := ub.iterator + padding w.bytes ub.offset
        offset := ub.offset + padding w.bytes ub.offset, lastDataSize := 1 } w.bytes = true :=
      checkBufferAvailableFor_iff.mpr ⟨he, by show _ + _ + _ ≤ ub.final; omega⟩
    simp only [hN, deserializeByteN, h.bufferAlignment w, hadv, hav, if_true]
    simp [Buffer.after, Item.endPos, lastSize, hit, Nat.add_assoc]

/-- Bytes that fit are read from the iterator on. -/
theorem bufferToArray_fits {ub : Buffer} (h : ub.Live) (mem : List UInt8) (bytes : List UInt8)
    (hfit : ub.iterator + bytes.length ≤ ub.final) :
    bufferToArray mem bytes.length ub =
      (ub.after (.octets bytes), slice mem ub.iterator bytes.length) := by
  have hav : checkBufferAvailableFor ub bytes.length = true :=
    checkBufferAvailableFor_iff.mpr ⟨h.error, hfit⟩
  have hit := h.iterator_eq
  simp [bufferToArray, hav, Buffer.after, Item.endPos, lastSize, hit, Nat.add_assoc]

/-- Skipping over bytes that fit. -/
theorem advanceBuffer_octets {ub : Buffer} (h : ub.Live) (bytes : List UInt8)
    (hfit : ub.iterator + bytes.length ≤ ub.final) :
    advanceBuffer ub bytes.length = ub.after (.octets bytes) := by
  rw [advanceBuffer_fits _ h.error hfit, Buffer.after, h.iterator_eq]
  simp [Item.endPos, lastSize, Nat.add_assoc]

/-- A primitive whose layout is in memory is read back as itself. -/
theorem deserialize_matches {ub : Buffer} (h : ub.Live) {mem : List UInt8} {w : Width}
    {value : Nat} (hvalue : value < 256 ^ w.bytes)
    (hfit : ub.init + (Item.prim w value).endPos ub.offset ≤ ub.final)
    (hm : Matches ((Item.prim w value).encode ub.offset)
      (slice mem ub.iterator ((Item.prim w value).encode ub.offset).length)) :
    deserialize mem w ub = (ub.after (.prim w value), some value) := by
  have hbytes : slice mem (ub.iterator + padding w.bytes ub.offset) w.bytes =
      LittleEndian.encode w.bytes value := by
    have hm' := hm.split.2
    rw [matches_map_some] at hm'
    rw [← hm']
    simp [Item.encode, slice, List.drop_take]
  rw [deserialize_fits h mem w value hfit, hbytes, LittleEndian.decode_encode hvalue]

/-! ## Items that do not fit -/

/-- After an error nothing is written, and no pointer moves. -/
theorem writeItem_error {c : Cdr} (h : c.ub.error = true) (it : Item) :
    ∃ k, writeItem it c = { c with ub := { c.ub with lastDataSize := k } } := by
  cases it with
  | prim w value =>
    by_cases hw : w = .one
    · subst hw
      exact ⟨c.ub.lastDataSize, by
        simp [writeItem, serialize, serializeByte1, checkFinalBufferBehavior_error h]⟩
    · have hN : writeItem (.prim w value) c = serializeByteN w.bytes value c := by
        cases w <;> simp [writeItem, serialize] at hw ⊢
      rw [hN, serializeByteN]
      simp only [advanceBuffer_error h]
      by_cases hlt : c.ub.iterator < c.ub.final
      · refine ⟨c.ub.lastDataSize, ?_⟩
        simp [checkBufferAvailableFor, checkFinalBufferBehavior, h, hlt]
      · refine ⟨1, ?_⟩
        simp [checkBufferAvailableFor, checkFinalBufferBehavior, h, hlt]
  | octets bytes =>
    exact ⟨1, by
      simp [writeItem, arrayToBuffer, checkBufferAvailableFor, h, fillLoop_error h]⟩

/-- After an error no item of a layout is written. -/
theorem writeItems_error {c : Cdr} (h : c.ub.error = true) (items : List Item) :
    ∃ k, writeItems items c = { c with ub := { c.ub with lastDataSize := k } } := by
  induction items generalizing c with
  | nil => exact ⟨c.ub.lastDataSize, rfl⟩
  | cons it rest ih =>
    obtain ⟨k, hk⟩ := writeItem_error h it
    obtain ⟨k', hk'⟩ := ih (c := writeItem it c) (by rw [hk]; exact h)
    exact ⟨k', by rw [writeItems_cons, hk', hk]⟩

/-- What is left of a buffer whose last item did not fit: the error is set,
the ends are where they were, and the iterator has stopped short of the end
exactly if `short` holds. -/
structure Overflowed (c c' : Cdr) (short : Prop) : Prop where
  error : c'.ub.error = true
  init : c'.ub.init = c.ub.init
  final : c'.ub.final = c.ub.final
  origin : c'.ub.origin = c.ub.origin
  iterator_le : c'.ub.iterator ≤ c.ub.final
  iterator_lt : c'.ub.iterator < c.ub.final ↔ short
  length : c'.mem.length = c.mem.length

/-- A primitive that does not fit. -/
theorem serialize_overflow {c : Cdr} (h : c.ub.Live) (w : Width) (value : Nat)
    (hover : c.ub.final < c.ub.init + (Item.prim w value).endPos c.ub.offset) :
    Overflowed c (serialize w value c)
      ((Item.prim w value).Straddles c.ub.capacity c.ub.offset) := by
  have he := h.error
  have hit := h.iterator_eq
  have hin := h.inside
  have hcap : c.ub.capacity = c.ub.final - c.ub.init := rfl
  simp only [Item.endPos] at hover
  by_cases hw : w = .one
  · subst hw
    simp only [Width.bytes, padding_one] at hover
    have hfull := checkFinalBufferBehavior_full he (by omega : c.ub.final ≤ c.ub.iterator)
    have hser : serialize .one value c = { c with ub := { c.ub with error := true } } := by
      simp [serialize, serializeByte1, hfull]
    rw [hser]
    refine ⟨rfl, rfl, rfl, rfl, hin, ?_, rfl⟩
    simp only [Item.Straddles, Width.bytes, padding_one]
    omega
  · have hN : serialize w value c = serializeByteN w.bytes value c := by
      cases w <;> simp [serialize] at hw ⊢
    rw [hN, serializeByteN]
    simp only [h.bufferAlignment w]
    simp only [Item.Straddles]
    rcases Nat.lt_or_ge c.ub.final (c.ub.iterator + padding w.bytes c.ub.offset) with hp | hp
    · -- the padding itself does not fit, so the iterator goes to the end
      rw [advanceBuffer_full he hin hp]
      simp only [checkBufferAvailableFor, checkFinalBufferBehavior, Bool.not_true, Bool.false_and,
        Nat.lt_irrefl, if_false, Bool.false_eq_true]
      refine ⟨rfl, rfl, rfl, rfl, Nat.le_refl _, ?_, rfl⟩
      show c.ub.final < c.ub.final ↔ _
      omega
    · rw [advanceBuffer_fits _ he hp]
      have hno : ¬ c.ub.iterator + padding w.bytes c.ub.offset + w.bytes ≤ c.ub.final := by omega
      rcases Nat.lt_or_ge (c.ub.iterator + padding w.bytes c.ub.offset) c.ub.final with hlt | hge
      · -- some room is left: the iterator is moved to the end and back
        have hend : c.ub.iterator + padding w.bytes c.ub.offset +
            (c.ub.final - (c.ub.iterator + padding w.bytes c.ub.offset)) = c.ub.final := by omega
        simp only [checkBufferAvailableFor, checkFinalBufferBehavior, he, hno, hlt, hend,
          Bool.not_false, Bool.true_and, decide_false, decide_true, Nat.le_refl, if_true,
          Bool.not_true, if_false, Bool.false_eq_true]
        refine ⟨rfl, rfl, rfl, rfl, Nat.sub_le _ _, ?_, rfl⟩
        show _ - _ < _ ↔ _
        omega
      · have hlt : ¬ c.ub.iterator + padding w.bytes c.ub.offset < c.ub.final := by omega
        simp only [checkBufferAvailableFor, checkFinalBufferBehavior, he, hno, hlt, hge,
          Bool.not_false, Bool.true_and, decide_false, decide_true, if_true, Bool.not_true,
          if_false, Bool.false_eq_true]
        refine ⟨rfl, rfl, rfl, rfl, hp, ?_, rfl⟩
        show _ + _ < _ ↔ _
        omega

/-- A primitive that is not there is not read, and no other one is after it. -/
theorem deserialize_overflow {ub : Buffer} (h : ub.Live) (mem : List UInt8) (w : Width)
    (value : Nat) (hover : ub.final < ub.init + (Item.prim w value).endPos ub.offset) :
    (deserialize mem w ub).1.error = true ∧ (deserialize mem w ub).2 = none := by
  have he := h.error
  have hit := h.iterator_eq
  have hin := h.inside
  simp only [Item.endPos] at hover
  by_cases hw : w = .one
  · subst hw
    simp only [Width.bytes, padding_one] at hover
    have hfull := checkFinalBufferBehavior_full he (by omega : ub.final ≤ ub.iterator)
    simp [deserialize, deserializeByte1, hfull]
  · have hN : deserialize mem w ub = deserializeByteN mem w.bytes ub := by
      cases w <;> simp [deserialize] at hw ⊢
    rw [hN, deserializeByteN]
    simp only [h.bufferAlignment w]
    rcases Nat.lt_or_ge ub.final (ub.iterator + padding w.bytes ub.offset) with hp | hp
    · -- the padding itself is not there
      rw [advanceBuffer_full he hin hp]
      simp only [checkBufferAvailableFor, checkFinalBufferBehavior, Bool.not_true, Bool.false_and,
        Nat.lt_irrefl, if_false, Bool.false_eq_true, and_self]
    · rw [advanceBuffer_fits _ he hp]
      have hno : ¬ ub.iterator + padding w.bytes ub.offset + w.bytes ≤ ub.final := by omega
      rcases Nat.lt_or_ge (ub.iterator + padding w.bytes ub.offset) ub.final with hlt | hge
      · -- the first bytes of it are there
        have hend : ub.iterator + padding w.bytes ub.offset +
            (ub.final - (ub.iterator + padding w.bytes ub.offset)) = ub.final := by omega
        simp only [checkBufferAvailableFor, checkFinalBufferBehavior, he, hno, hlt, hend,
          Bool.not_false, Bool.true_and, decide_false, decide_true, Nat.le_refl, if_true,
          Bool.not_true, if_false, Bool.false_eq_true, and_self]
      · have hlt : ¬ ub.iterator + padding w.bytes ub.offset < ub.final := by omega
        simp only [checkBufferAvailableFor, checkFinalBufferBehavior, he, hno, hlt, hge,
          Bool.not_false, Bool.true_and, decide_false, decide_true, if_true, Bool.not_true,
          if_false, Bool.false_eq_true, and_self]

/-- After an error nothing is read. -/
theorem deserialize_error {ub : Buffer} (h : ub.error = true) (mem : List UInt8) (w : Width) :
    (deserialize mem w ub).1.error = true ∧ (deserialize mem w ub).2 = none := by
  by_cases hw : w = .one
  · subst hw
    simp [deserialize, deserializeByte1, checkFinalBufferBehavior_error h, h]
  · have hN : deserialize mem w ub = deserializeByteN mem w.bytes ub := by
      cases w <;> simp [deserialize] at hw ⊢
    rw [hN, deserializeByteN, advanceBuffer_error h]
    simp only [checkBufferAvailableFor, checkFinalBufferBehavior, h, Bool.not_true, Bool.false_and,
      if_false, Bool.false_eq_true]
    split <;> exact ⟨rfl, rfl⟩

/-- Bytes that do not fit fill the buffer up. -/
theorem arrayToBuffer_overflow {c : Cdr} (h : c.ub.Live) (bytes : List UInt8)
    (hover : c.ub.final < c.ub.iterator + bytes.length) (hmem : c.ub.final ≤ c.mem.length) :
    Overflowed c (arrayToBuffer bytes c) False := by
  have he := h.error
  have hin := h.inside
  have hno : ¬ c.ub.iterator + bytes.length ≤ c.ub.final := by omega
  have hcall : arrayToBuffer bytes c =
      { ub := { c.ub with
          iterator := c.ub.final
          offset := c.ub.offset + (c.ub.final - c.ub.iterator)
          lastDataSize := 1
          error := true }
        mem := overwrite c.mem c.ub.iterator (bytes.take (c.ub.final - c.ub.iterator)) } := by
    simp [arrayToBuffer, checkBufferAvailableFor, he, hno, fillLoop_full he hin hover]
  rw [hcall]
  refine ⟨rfl, rfl, rfl, rfl, Nat.le_refl _, by simp, ?_⟩
  exact overwrite_length (by rw [List.length_take]; omega)

/-- An item that does not fit. -/
theorem writeItem_overflow {c : Cdr} (h : c.ub.Live) {it : Item}
    (hover : c.ub.final < c.ub.init + it.endPos c.ub.offset) (hmem : c.ub.final ≤ c.mem.length) :
    Overflowed c (writeItem it c) (it.Straddles c.ub.capacity c.ub.offset) := by
  cases it with
  | prim w value => exact serialize_overflow h w value hover
  | octets bytes =>
    have hit := h.iterator_eq
    simp only [Item.endPos] at hover
    exact arrayToBuffer_overflow h bytes (by omega) hmem

/-- A layout that does not fit.  The items in front of the one that does not
fit are written, that one sets the error, and the rest is ignored; so the
iterator stops short of the end exactly if that item is a primitive across the
end. -/
theorem writeItems_overflow {c : Cdr} (h : c.ub.Live) {items : List Item}
    (hover : c.ub.final < c.ub.init + endPos c.ub.offset items)
    (hmem : c.ub.final ≤ c.mem.length) :
    Overflowed c (writeItems items c) (Straddles c.ub.capacity c.ub.offset items) := by
  induction items generalizing c with
  | nil =>
    have hit := h.iterator_eq
    have hin := h.inside
    rw [endPos] at hover
    omega
  | cons it rest ih =>
    have hcap : c.ub.capacity = c.ub.final - c.ub.init := rfl
    rw [endPos] at hover
    rw [writeItems_cons, Straddles]
    rcases Nat.lt_or_ge c.ub.final (c.ub.init + it.endPos c.ub.offset) with hno | hfit
    · have hfirst := writeItem_overflow h hno hmem
      obtain ⟨k, hk⟩ := writeItems_error hfirst.error rest
      have hrest : ¬ Straddles c.ub.capacity (it.endPos c.ub.offset) rest :=
        not_straddles_of_le rest (by omega)
      rw [hk, or_iff_left hrest]
      exact ⟨hfirst.error, hfirst.init, hfirst.final, hfirst.origin, hfirst.iterator_le,
        hfirst.iterator_lt, hfirst.length⟩
    · obtain ⟨hub, hlaid⟩ := writeItem_fits h hfit hmem
      have hinside := h.inside
      have hit := h.iterator_eq
      have hfirst : ¬ it.Straddles c.ub.capacity c.ub.offset := by
        have hone : ¬ Straddles c.ub.capacity c.ub.offset [it] :=
          not_straddles_of_endPos_le (by simp only [endPos]; omega)
        exact fun hs => hone (Or.inl hs)
      have hrest := ih (c := writeItem it c) (hub ▸ h.after it hfit) (by simpa [hub] using hover)
        (by simpa [hub, hlaid.length] using hmem)
      rw [or_iff_right hfirst]
      have hcap' : (writeItem it c).ub.capacity = c.ub.capacity := by
        simp [hub, Buffer.capacity]
      have hoff : (writeItem it c).ub.offset = it.endPos c.ub.offset := by simp [hub]
      rw [hcap', hoff] at hrest
      exact ⟨hrest.error, by simp [hrest.init, hub], by simp [hrest.final, hub],
        by simp [hrest.origin, hub], by simpa [hub] using hrest.iterator_le,
        by simpa [hub] using hrest.iterator_lt, hrest.length.trans hlaid.length⟩

/-- A layout fits exactly if writing it sets no error. -/
theorem writeItems_error_eq_false {c : Cdr} (h : c.ub.Live) (hmem : c.ub.final ≤ c.mem.length)
    (items : List Item) :
    (writeItems items c).ub.error = false ↔
      c.ub.init + endPos c.ub.offset items ≤ c.ub.final := by
  rcases Nat.lt_or_ge c.ub.final (c.ub.init + endPos c.ub.offset items) with hover | hfit
  · simp [(writeItems_overflow h hover hmem).error, Nat.not_le.mpr hover]
  · have hub := (writeItems_fits h hfit hmem).1
    simp [hub, (h.afterAll items hfit).error, hfit]

/-! ## The ends of a buffer

Whatever is read, and whether or not it is there, only the iterator, the
offset and the flags of a buffer change. -/

/-- `ub'` lies over the same memory as `ub`. -/
structure SameEnds (ub ub' : Buffer) : Prop where
  init : ub'.init = ub.init
  final : ub'.final = ub.final
  origin : ub'.origin = ub.origin

theorem SameEnds.refl (ub : Buffer) : SameEnds ub ub := ⟨rfl, rfl, rfl⟩

theorem SameEnds.trans {a b c : Buffer} (h : SameEnds a b) (h' : SameEnds b c) : SameEnds a c :=
  ⟨h'.init.trans h.init, h'.final.trans h.final, h'.origin.trans h.origin⟩

theorem SameEnds.moveTo {ub ub' : Buffer} (h : SameEnds ub ub') (iterator offset : Nat) :
    SameEnds ub { ub' with iterator := iterator, offset := offset } :=
  ⟨h.init, h.final, h.origin⟩

theorem resetBuffer_sameEnds (ub : Buffer) : SameEnds ub (resetBuffer ub) := ⟨rfl, rfl, rfl⟩

theorem checkFinalBufferBehavior_sameEnds (ub : Buffer) :
    SameEnds ub (checkFinalBufferBehavior ub).1 := by
  simp only [checkFinalBufferBehavior]
  split <;> exact ⟨rfl, rfl, rfl⟩

theorem checkFinalBufferBehaviorArray_sameEnds (ub : Buffer) (bytes : Nat) :
    SameEnds ub (checkFinalBufferBehaviorArray ub bytes).1 := by
  simp only [checkFinalBufferBehaviorArray]
  split <;> exact ⟨rfl, rfl, rfl⟩

theorem fillLoop_sameEnds (fuel : Nat) (ub : Buffer) (remaining : Nat) :
    SameEnds ub (fillLoop fuel ub remaining).1 := by
  induction fuel generalizing ub remaining with
  | zero => exact SameEnds.refl ub
  | succ fuel ih =>
    have hcheck := checkFinalBufferBehaviorArray_sameEnds ub remaining
    simp only [fillLoop]
    split
    · exact hcheck
    · exact (hcheck.moveTo _ _).trans (ih _ _)

theorem advanceBuffer_sameEnds (ub : Buffer) (size : Nat) : SameEnds ub (advanceBuffer ub size) := by
  simp only [advanceBuffer]
  split
  · exact ⟨rfl, rfl, rfl⟩
  · exact (fillLoop_sameEnds _ ub size).trans ⟨rfl, rfl, rfl⟩

theorem bufferToArray_sameEnds (mem : List UInt8) (size : Nat) (ub : Buffer) :
    SameEnds ub (bufferToArray mem size ub).1 := by
  simp only [bufferToArray]
  split
  · exact ⟨rfl, rfl, rfl⟩
  · exact (fillLoop_sameEnds _ ub size).trans ⟨rfl, rfl, rfl⟩

theorem deserialize_sameEnds (mem : List UInt8) (w : Width) (ub : Buffer) :
    SameEnds ub (deserialize mem w ub).1 := by
  have hbyteN : SameEnds ub (deserializeByteN mem w.bytes ub).1 := by
    have hadv := advanceBuffer_sameEnds ub (bufferAlignment ub w.bytes)
    simp only [deserializeByteN]
    split
    · exact hadv.trans ⟨rfl, rfl, rfl⟩
    · split
      · have hall := fun iterator offset =>
          (hadv.moveTo iterator offset).trans (checkFinalBufferBehavior_sameEnds _)
        split <;> exact (hall _ _).trans ⟨rfl, rfl, rfl⟩
      · have hall := hadv.trans (checkFinalBufferBehavior_sameEnds _)
        split
        · exact hall.trans ⟨rfl, rfl, rfl⟩
        · exact hall
  cases w with
  | one =>
    have hcheck := checkFinalBufferBehavior_sameEnds ub
    simp only [deserialize, deserializeByte1]
    split
    · exact hcheck.trans ⟨rfl, rfl, rfl⟩
    · exact hcheck
  | two => exact hbyteN
  | four => exact hbyteN
  | eight => exact hbyteN

end Ros2Serial.Ucdr
