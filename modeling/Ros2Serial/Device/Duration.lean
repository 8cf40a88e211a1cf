import Ros2Serial.Device.Clock
import Ros2Serial.Lib.Checked

/-!
# Durations

`Duration` of `ros/duration.h` and the differences of `Time` of `ros/time.h`.
Both go through `normalizeSecNSecSigned`, which moves whole seconds from the
nanoseconds to the seconds until the nanoseconds are in their range.

Signed overflow is undefined in C++, so every `int32_t` operation is `checked`
and a result is `none` when one of them overflows.  Conversions between
`uint32_t` and `int32_t` keep the value modulo 2^32.

`normalizeSecNSecSigned_eq_some_iff` says what the two loops do.  They leave
1000000000 nanoseconds where they are, so that not every result is in normal
form.  `operation_exact_iff` says which are.
-/

namespace Ros2Serial.Device

open Checked

/-! ## `normalizeSecNSecSigned` -/

/-- `Duration`. -/
structure Duration where
  sec : Int32
  nsec : Int32
  deriving DecidableEq

theorem Duration.eq_iff {d e : Duration} :
    d = e ↔ e.sec.toInt = d.sec.toInt ∧ e.nsec.toInt = d.nsec.toInt := by
  rw [Int32.toInt_inj, Int32.toInt_inj]
  constructor
  · intro heq
    subst heq
    exact ⟨rfl, rfl⟩
  · rintro ⟨hsec, hnsec⟩
    cases d
    cases e
    subst hsec hnsec
    rfl

/-- `while (nsec_part > 1000000000L)`. -/
def carryLoop (secPart nsecPart : Int32) : Option Duration :=
  if nsecPart.toInt > 1000000000 then
    match _h : checked (nsecPart.toInt - 1000000000), checked (secPart.toInt + 1) with
    | some nsecPart', some secPart' => carryLoop secPart' nsecPart'
    | _, _ => none
  else some ⟨secPart, nsecPart⟩
termination_by nsecPart.toInt.toNat
decreasing_by
  rw [checked_eq_some_iff.mp _h]
  omega

/-- `while (nsec_part < 0)`. -/
def borrowLoop (secPart nsecPart : Int32) : Option Duration :=
  if nsecPart.toInt < 0 then
    match _h : checked (nsecPart.toInt + 1000000000), checked (secPart.toInt - 1) with
    | some nsecPart', some secPart' => borrowLoop secPart' nsecPart'
    | _, _ => none
  else some ⟨secPart, nsecPart⟩
termination_by (-nsecPart.toInt).toNat
decreasing_by
  rw [checked_eq_some_iff.mp _h]
  omega

/-- `normalizeSecNSecSigned`. -/
def normalizeSecNSecSigned (sec nsec : Int32) : Option Duration :=
  (carryLoop sec nsec).bind fun part => borrowLoop part.sec part.nsec

/-- The seconds that the first loop moves. -/
def carried (nsec : Int) : Int := if nsec > 1000000000 then (nsec - 1) / 1000000000 else 0

/-- The seconds that the second loop moves. -/
def borrowed (nsec : Int) : Int := if nsec < 0 then nsec / 1000000000 else 0

theorem carried_step {nsec : Int} (h : nsec > 1000000000) :
    carried nsec = carried (nsec - 1000000000) + 1 := by
  unfold carried
  rw [if_pos h]
  split <;> omega

theorem borrowed_step {nsec : Int} (h : nsec < 0) :
    borrowed nsec = borrowed (nsec + 1000000000) - 1 := by
  unfold borrowed
  rw [if_pos h]
  split <;> omega

/-- Of two operations one overflows.  If it is not the first, it is the second. -/
theorem not_checked {n m : Int} (hn : Fits n)
    (h : ∀ x y : Int32, checked n = some x → checked m = some y → False) : ¬ Fits m := by
  intro hm
  obtain ⟨x, hx, -⟩ := exists_checked hn
  obtain ⟨y, hy, -⟩ := exists_checked hm
  exact h x y hx hy

theorem carryLoop_eq_some_iff (sec nsec : Int32) (d : Duration) :
    carryLoop sec nsec = some d ↔
      d.sec.toInt = sec.toInt + carried nsec.toInt ∧
        d.nsec.toInt = nsec.toInt - carried nsec.toInt * 1000000000 := by
  fun_induction carryLoop sec nsec with
  | case1 sec nsec hgt nsec' sec' hn hs ih =>
    rw [checked_eq_some_iff] at hn hs
    rw [ih, hn, hs, carried_step hgt]
    omega
  | case2 sec nsec hgt hnone =>
    have hnsec := fits_toInt nsec
    have hsec := fits_toInt sec
    have hd := fits_toInt d.sec
    unfold Fits at hnsec hsec hd
    have hover : ¬ Fits (sec.toInt + 1) := not_checked (by unfold Fits; omega) hnone
    unfold Fits at hover
    constructor
    · intro h
      cases h
    · rintro ⟨h, -⟩
      rw [carried, if_pos hgt] at h
      omega
  | case3 sec nsec hle =>
    rw [carried, if_neg hle, Option.some.injEq, Duration.eq_iff]
    simp

theorem borrowLoop_eq_some_iff (sec nsec : Int32) (d : Duration) :
    borrowLoop sec nsec = some d ↔
      d.sec.toInt = sec.toInt + borrowed nsec.toInt ∧
        d.nsec.toInt = nsec.toInt - borrowed nsec.toInt * 1000000000 := by
  fun_induction borrowLoop sec nsec with
  | case1 sec nsec hlt nsec' sec' hn hs ih =>
    rw [checked_eq_some_iff] at hn hs
    rw [ih, hn, hs, borrowed_step hlt]
    omega
  | case2 sec nsec hlt hnone =>
    have hnsec := fits_toInt nsec
    have hsec := fits_toInt sec
    have hd := fits_toInt d.sec
    unfold Fits at hnsec hsec hd
    have hover : ¬ Fits (sec.toInt - 1) := not_checked (by unfold Fits; omega) hnone
    unfold Fits at hover
    constructor
    · intro h
      cases h
    · rintro ⟨h, -⟩
      rw [borrowed, if_pos hlt] at h
      omega
  | case3 sec nsec hge =>
    rw [borrowed, if_neg hge, Option.some.injEq, Duration.eq_iff]
    simp

/-- The seconds that `normalizeSecNSecSigned` moves. -/
def moved (nsec : Int) : Int := if 0 < nsec then (nsec - 1) / 1000000000 else nsec / 1000000000

theorem moved_eq (nsec : Int) :
    moved nsec = carried nsec + borrowed (nsec - carried nsec * 1000000000) := by
  unfold moved carried borrowed
  split <;> split <;> split <;> omega

/-- Whole seconds are moved, all but one second of a positive number of nanoseconds.  There is
no result if the seconds overflow. -/
theorem normalizeSecNSecSigned_eq_some_iff (sec nsec : Int32) (d : Duration) :
    normalizeSecNSecSigned sec nsec = some d ↔
      d.sec.toInt = sec.toInt + moved nsec.toInt ∧
        d.nsec.toInt = nsec.toInt - moved nsec.toInt * 1000000000 := by
  have hnsec := fits_toInt nsec
  have hsec := fits_toInt sec
  have hd := fits_toInt d.sec
  rw [normalizeSecNSecSigned, Option.bind_eq_some_iff, moved_eq]
  constructor
  · rintro ⟨part, hpart, hloop⟩
    rw [carryLoop_eq_some_iff] at hpart
    rw [borrowLoop_eq_some_iff, hpart.1, hpart.2] at hloop
    omega
  · rintro ⟨hdsec, hdnsec⟩
    -- one of the two loops moves nothing
    have hone : carried nsec.toInt = 0 ∨
        borrowed (nsec.toInt - carried nsec.toInt * 1000000000) = 0 := by
      unfold carried borrowed
      split <;> split <;> omega
    have hpos : 0 ≤ carried nsec.toInt := by
      unfold carried
      split <;> omega
    have hleft : 0 ≤ nsec.toInt → nsec.toInt - carried nsec.toInt * 1000000000 ≤ 1000000000 := by
      unfold carried
      split <;> omega
    unfold Fits at hnsec hsec hd
    obtain ⟨s, -, hs⟩ := exists_checked (n := sec.toInt + carried nsec.toInt) (by
      unfold Fits
      rcases hone with h | h <;> omega)
    obtain ⟨n, -, hn⟩ := exists_checked (n := nsec.toInt - carried nsec.toInt * 1000000000) (by
      unfold Fits
      unfold carried
      split <;> omega)
    refine ⟨⟨s, n⟩, (carryLoop_eq_some_iff ..).mpr ⟨hs, hn⟩, (borrowLoop_eq_some_iff ..).mpr ?_⟩
    show d.sec.toInt = s.toInt + borrowed n.toInt ∧
      d.nsec.toInt = n.toInt - borrowed n.toInt * 1000000000
    rw [hs, hn]
    omega

/-! ## The operators -/

/-- `Duration(_sec, _nsec)`. -/
def Duration.new (sec nsec : Int32) : Option Duration := normalizeSecNSecSigned sec nsec

/-- `Duration::operator+=`. -/
def Duration.addAssign (d rhs : Duration) : Option Duration := do
  let sec ← checked (d.sec.toInt + rhs.sec.toInt)
  let nsec ← checked (d.nsec.toInt + rhs.nsec.toInt)
  normalizeSecNSecSigned sec nsec

/-- `Duration::operator-=`. -/
def Duration.subAssign (d rhs : Duration) : Option Duration := do
  let minusSec ← checked (-rhs.sec.toInt)
  let sec ← checked (d.sec.toInt + minusSec.toInt)
  let minusNsec ← checked (-rhs.nsec.toInt)
  let nsec ← checked (d.nsec.toInt + minusNsec.toInt)
  normalizeSecNSecSigned sec nsec

/-- `Time`. -/
structure Time where
  sec : UInt32
  nsec : UInt32
  deriving DecidableEq

/-- `Time::operator-`.  The members of `d` are assigned from `uint32_t`. -/
def Time.sub (t rhs : Time) : Option Duration :=
  let sec := if t.sec > rhs.sec then t.sec - rhs.sec else -(rhs.sec - t.sec)
  let nsec := if t.nsec > rhs.nsec then t.nsec - rhs.nsec else -(rhs.nsec - t.nsec)
  normalizeSecNSecSigned sec.toInt32 nsec.toInt32

/-! ## Normal form -/

/-- The nanoseconds are less than a second. -/
def Duration.Normal (d : Duration) : Prop := 0 ≤ d.nsec.toInt ∧ d.nsec.toInt < 1000000000

instance (d : Duration) : Decidable d.Normal :=
  inferInstanceAs (Decidable (0 ≤ d.nsec.toInt ∧ d.nsec.toInt < 1000000000))

/-- The nanoseconds are less than a second. -/
def Time.Normal (t : Time) : Prop := t.nsec < 1000000000

instance (t : Time) : Decidable t.Normal := inferInstanceAs (Decidable (t.nsec < 1000000000))

/-- A duration in nanoseconds. -/
def Duration.total (d : Duration) : Int := d.sec.toInt * 1000000000 + d.nsec.toInt

/-- A normal form is determined by its length. -/
theorem Duration.Normal.eq_of_total {d e : Duration} (hd : d.Normal) (he : e.Normal)
    (h : e.total = d.total) : e = d := by
  unfold Duration.Normal at hd he
  unfold Duration.total at h
  apply Duration.eq_iff.mpr
  omega

/-- The difference of the seconds, the one that an `int32_t` has. -/
def Time.secondsBetween (t rhs : Time) : Int :=
  ((t.sec.toNat : Int) - rhs.sec.toNat).bmod 4294967296

/-- What `Time::operator-` normalises. -/
theorem Time.sub_eq (t rhs : Time) (ht : t.Normal) (hrhs : rhs.Normal) :
    ∃ sec nsec : Int32, t.sub rhs = normalizeSecNSecSigned sec nsec ∧
      sec.toInt = t.secondsBetween rhs ∧
      nsec.toInt = (t.nsec.toNat : Int) - rhs.nsec.toNat := by
  have hdiff : ∀ x y : UInt32, (if x > y then x - y else -(y - x)) = x - y := by
    intro x y
    split
    · rfl
    · exact UInt32.neg_sub ..
  have hsub : ∀ x y : UInt32,
      (x - y).toInt32.toInt = ((x.toNat : Int) - y.toNat).bmod 4294967296 := by
    intro x y
    have hx := x.toNat_lt
    have hy := y.toNat_lt
    rw [toInt_toInt32, UInt32.toNat_sub, Int.bmod_def, Int.bmod_def]
    omega
  refine ⟨(t.sec - rhs.sec).toInt32, (t.nsec - rhs.nsec).toInt32, ?_, hsub .., ?_⟩
  · unfold Time.sub
    rw [hdiff, hdiff]
  · have ht' : t.nsec.toNat < 1000000000 := ht
    have hrhs' : rhs.nsec.toNat < 1000000000 := hrhs
    rw [hsub, Int.bmod_def]
    omega

/-! ## What the operators give -/

/-- An operation that gives a duration.  Its operands are in normal form. -/
inductive Operation
  | construct (sec nsec : Int32)
  | addAssign (d rhs : {d : Duration // d.Normal})
  | subAssign (d rhs : {d : Duration // d.Normal})
  | difference (t rhs : {t : Time // t.Normal})

/-- The computed duration. -/
def Operation.result : Operation → Option Duration
  | .construct sec nsec => Duration.new sec nsec
  | .addAssign d rhs => d.1.addAssign rhs.1
  | .subAssign d rhs => d.1.subAssign rhs.1
  | .difference t rhs => t.1.sub rhs.1

/-- The exact length. -/
def Operation.total : Operation → Int
  | .construct sec nsec => sec.toInt * 1000000000 + nsec.toInt
  | .addAssign d rhs => d.1.total + rhs.1.total
  | .subAssign d rhs => d.1.total - rhs.1.total
  | .difference t rhs =>
    t.1.secondsBetween rhs.1 * 1000000000 + ((t.1.nsec.toNat : Int) - rhs.1.nsec.toNat)

/-- The seconds of the exact length fit an `int32_t`. -/
def Operation.InRange (op : Operation) : Prop := Fits (op.total / 1000000000)

instance (op : Operation) : Decidable op.InRange :=
  inferInstanceAs (Decidable (Fits (op.total / 1000000000)))

/-- If the seconds fit, nothing overflows, and the result is the normal form of the
exact length, the only one. -/
def Operation.Exact (op : Operation) : Prop :=
  op.InRange → ∃ d, op.result = some d ∧ d.Normal ∧ d.total = op.total ∧
    ∀ e : Duration, e.Normal → e.total = op.total → e = d

/-- No positive number of whole seconds in the nanoseconds of a construction, or
in the sum of two; and no overflow before the seconds that are carried or
borrowed are. -/
def Operation.Regular : Operation → Prop
  | .construct _ nsec => nsec.toInt ≤ 0 ∨ nsec.toInt % 1000000000 ≠ 0
  | .addAssign d rhs =>
    Fits (d.1.sec.toInt + rhs.1.sec.toInt) ∧ d.1.nsec.toInt + rhs.1.nsec.toInt ≠ 1000000000
  | .subAssign d rhs => Fits (-rhs.1.sec.toInt) ∧ Fits (d.1.sec.toInt - rhs.1.sec.toInt)
  | .difference _ _ => True

/-- An operation that normalises its exact length is exact if no positive number of whole
seconds is in the nanoseconds. -/
theorem Operation.exact_of_normalized {op : Operation} {sec nsec : Int32}
    (hresult : op.result = normalizeSecNSecSigned sec nsec)
    (htotal : op.total = sec.toInt * 1000000000 + nsec.toInt) :
    op.Exact ↔ (op.InRange → nsec.toInt ≤ 0 ∨ nsec.toInt % 1000000000 ≠ 0) := by
  have hmoved : nsec.toInt ≤ 0 ∨ nsec.toInt % 1000000000 ≠ 0 ↔
      moved nsec.toInt = nsec.toInt / 1000000000 := by
    unfold moved
    split <;> omega
  unfold Operation.Exact Operation.InRange
  rw [hresult, htotal, hmoved]
  constructor
  · intro hexact hrange
    obtain ⟨d, hd, hnormal, -, -⟩ := hexact hrange
    rw [normalizeSecNSecSigned_eq_some_iff] at hd
    unfold Duration.Normal at hnormal
    omega
  · intro hregular hrange
    have hsec := hregular hrange
    have hsum : (sec.toInt * 1000000000 + nsec.toInt) / 1000000000 =
        sec.toInt + moved nsec.toInt := by
      omega
    rw [hsum] at hrange
    obtain ⟨s, -, hs⟩ := exists_checked hrange
    obtain ⟨n, -, hn⟩ := exists_checked (n := nsec.toInt - moved nsec.toInt * 1000000000) (by
      unfold Fits
      omega)
    have hnormal : Duration.Normal ⟨s, n⟩ := by
      show 0 ≤ n.toInt ∧ n.toInt < 1000000000
      omega
    have hlength : Duration.total ⟨s, n⟩ = sec.toInt * 1000000000 + nsec.toInt := by
      show s.toInt * 1000000000 + n.toInt = _
      omega
    refine ⟨⟨s, n⟩, (normalizeSecNSecSigned_eq_some_iff ..).mpr ⟨hs, hn⟩, hnormal, hlength, ?_⟩
    intro e he hesame
    exact hnormal.eq_of_total he (hesame.trans hlength.symm)

/-- An operation that overflows is exact only if its seconds do not fit anyway. -/
theorem Operation.exact_of_none {op : Operation} (h : op.result = none) :
    op.Exact ↔ ¬ op.InRange := by
  unfold Operation.Exact
  rw [h]
  constructor
  · intro hexact hrange
    obtain ⟨d, hd, -⟩ := hexact hrange
    cases hd
  · intro hno hrange
    exact absurd hrange hno

theorem addAssign_exact_iff (d rhs : {d : Duration // d.Normal}) :
    (Operation.addAssign d rhs).Exact ↔
      ((Operation.addAssign d rhs).InRange → (Operation.addAssign d rhs).Regular) := by
  have hd := d.2
  have hrhs := rhs.2
  unfold Duration.Normal at hd hrhs
  by_cases hsum : Fits (d.1.sec.toInt + rhs.1.sec.toInt)
  · obtain ⟨sec, hsec, hs⟩ := exists_checked hsum
    obtain ⟨nsec, hnsec, hn⟩ := exists_checked (n := d.1.nsec.toInt + rhs.1.nsec.toInt) (by
      unfold Fits
      omega)
    have hresult : (Operation.addAssign d rhs).result = normalizeSecNSecSigned sec nsec := by
      show d.1.addAssign rhs.1 = _
      rw [Duration.addAssign, hsec, hnsec]
      rfl
    have htotal : (Operation.addAssign d rhs).total = sec.toInt * 1000000000 + nsec.toInt := by
      show d.1.total + rhs.1.total = _
      unfold Duration.total
      omega
    rw [Operation.exact_of_normalized hresult htotal]
    have hcond : nsec.toInt ≤ 0 ∨ nsec.toInt % 1000000000 ≠ 0 ↔
        (Operation.addAssign d rhs).Regular := by
      show _ ↔ Fits _ ∧ d.1.nsec.toInt + rhs.1.nsec.toInt ≠ 1000000000
      rw [and_iff_right hsum]
      omega
    rw [hcond]
  · have hresult : (Operation.addAssign d rhs).result = none := by
      show d.1.addAssign rhs.1 = none
      rw [Duration.addAssign, checked_eq_none_iff.mpr hsum]
      rfl
    rw [Operation.exact_of_none hresult]
    have hregular : ¬ (Operation.addAssign d rhs).Regular := fun h => hsum h.1
    exact ⟨fun hno hrange => absurd hrange hno, fun h hrange => hregular (h hrange)⟩

theorem subAssign_exact_iff (d rhs : {d : Duration // d.Normal}) :
    (Operation.subAssign d rhs).Exact ↔
      ((Operation.subAssign d rhs).InRange → (Operation.subAssign d rhs).Regular) := by
  have hd := d.2
  have hrhs := rhs.2
  unfold Duration.Normal at hd hrhs
  by_cases hregular : (Operation.subAssign d rhs).Regular
  · obtain ⟨hminus, hdiff⟩ := hregular
    obtain ⟨minusSec, hminusSec, hms⟩ := exists_checked hminus
    obtain ⟨sec, hsec, hs⟩ := exists_checked (n := d.1.sec.toInt + minusSec.toInt) (by
      rw [hms]
      exact hdiff)
    obtain ⟨minusNsec, hminusNsec, hmn⟩ := exists_checked (n := -rhs.1.nsec.toInt) (by
      unfold Fits
      omega)
    obtain ⟨nsec, hnsec, hn⟩ := exists_checked (n := d.1.nsec.toInt + minusNsec.toInt) (by
      unfold Fits
      omega)
    have hresult : (Operation.subAssign d rhs).result = normalizeSecNSecSigned sec nsec := by
      show d.1.subAssign rhs.1 = _
      simp only [Duration.subAssign, hminusSec, hsec, hminusNsec, hnsec, Option.bind_eq_bind,
        Option.bind_some]
    have htotal : (Operation.subAssign d rhs).total = sec.toInt * 1000000000 + nsec.toInt := by
      show d.1.total - rhs.1.total = _
      unfold Duration.total
      omega
    rw [Operation.exact_of_normalized hresult htotal]
    refine ⟨fun _ _ => ⟨hminus, hdiff⟩, fun _ _ => ?_⟩
    omega
  · have hresult : (Operation.subAssign d rhs).result = none := by
      show d.1.subAssign rhs.1 = none
      unfold Duration.subAssign
      by_cases hminus : Fits (-rhs.1.sec.toInt)
      · obtain ⟨minusSec, hminusSec, hms⟩ := exists_checked hminus
        have hover : ¬ Fits (d.1.sec.toInt + minusSec.toInt) := by
          rw [hms]
          exact fun hdiff => hregular ⟨hminus, hdiff⟩
        rw [hminusSec, Option.bind_eq_bind, Option.bind_some, checked_eq_none_iff.mpr hover]
        rfl
      · rw [checked_eq_none_iff.mpr hminus]
        rfl
    rw [Operation.exact_of_none hresult]
    exact ⟨fun hno hrange => absurd hrange hno, fun h hrange => hregular (h hrange)⟩

theorem difference_exact (t rhs : {t : Time // t.Normal}) : (Operation.difference t rhs).Exact := by
  have ht : t.1.nsec.toNat < 1000000000 := t.2
  have hrhs : rhs.1.nsec.toNat < 1000000000 := rhs.2
  obtain ⟨sec, nsec, hsub, hs, hn⟩ := t.1.sub_eq rhs.1 t.2 rhs.2
  have hresult : (Operation.difference t rhs).result = normalizeSecNSecSigned sec nsec := hsub
  have htotal : (Operation.difference t rhs).total = sec.toInt * 1000000000 + nsec.toInt := by
    show t.1.secondsBetween rhs.1 * 1000000000 + ((t.1.nsec.toNat : Int) - rhs.1.nsec.toNat) = _
    omega
  apply (Operation.exact_of_normalized hresult htotal).mpr
  intro _
  omega

/-- The duration that an operation gives is the normal form of the exact length, for all
operations whose seconds fit an `int32_t` and which are regular, and for no others. -/
theorem operation_exact_iff (op : Operation) : op.Exact ↔ (op.InRange → op.Regular) := by
  cases op with
  | construct sec nsec => exact Operation.exact_of_normalized rfl rfl
  | addAssign d rhs => exact addAssign_exact_iff d rhs
  | subAssign d rhs => exact subAssign_exact_iff d rhs
  | difference t rhs => exact ⟨fun _ _ => trivial, fun _ => difference_exact t rhs⟩

/-- One second, given in nanoseconds, stays a billion of them. -/
theorem wholeSecond_not_exact : ¬ (Operation.construct 0 1000000000).Exact := by
  intro hexact
  obtain ⟨d, hd, hnormal, -⟩ := hexact (by decide)
  have hloops : normalizeSecNSecSigned 0 1000000000 = some d := hd
  rw [normalizeSecNSecSigned_eq_some_iff] at hloops
  have hmoved : moved (1000000000 : Int32).toInt = 0 := by decide
  have hnsec : (1000000000 : Int32).toInt = 1000000000 := by decide
  unfold Duration.Normal at hnormal
  rw [hmoved, hnsec] at hloops
  omega

end Ros2Serial.Device
