import Ros2Serial.Device.Duration

/-!
# Times and durations

The operators of `Time` in `time.cpp`.  The seconds of a time start again after
`period`, and durations act on times modulo it.

Both `operator+=` and `operator-=` borrow a second, so that no intermediate
number of nanoseconds leaves the range of `uint32_t` (`addAssign_spec`,
`subAssign_spec`).  `operator-` takes the difference of the seconds that an
`int32_t` has and borrows afterwards.  The borrow overflows where that
difference is the smallest `int32_t`, although the duration has a normal form
then: this is the only place where the laws fail (`acts_iff`).
-/

namespace Ros2Serial.Device

open Checked

/-! ## The operators -/

/-- `Time::operator+=`. -/
def Time.addAssign (t : Time) (rhs : Duration) : Time :=
  let (sec, nsec) := normalizeSecNSec (t.sec - 1 + rhs.sec.toUInt32)
    (t.nsec + 1000000000 + rhs.nsec.toUInt32)
  ⟨sec, nsec⟩

/-- `Time::operator-=`. -/
def Time.subAssign (t : Time) (rhs : Duration) : Time :=
  let (sec, nsec) := normalizeSecNSec (t.sec - 1 - rhs.sec.toUInt32)
    (t.nsec + 1000000000 - rhs.nsec.toUInt32)
  ⟨sec, nsec⟩

/-- A time in nanoseconds. -/
def Time.total (t : Time) : Int := nanos t.sec t.nsec

theorem Time.Normal.eq_of_total {t u : Time} (ht : t.Normal) (hu : u.Normal)
    (h : u.total = t.total) : u = t := by
  have ht' : t.nsec.toNat < 1000000000 := ht
  have hu' : u.nsec.toNat < 1000000000 := hu
  unfold Time.total nanos at h
  have hsec : u.sec = t.sec := by
    apply UInt32.toNat_inj.mp
    omega
  have hnsec : u.nsec = t.nsec := by
    apply UInt32.toNat_inj.mp
    omega
  cases t
  cases u
  subst hsec hnsec
  rfl

theorem Time.Normal.total_emod {t : Time} (h : t.Normal) : t.total % period = t.total := by
  have hlt : nanos t.sec t.nsec < period := nanos_lt h
  unfold Time.total
  unfold period at hlt ⊢
  omega

section Operators

variable {t u : Time} {d : Duration}

/-- A sum of nanoseconds that stays below 2^32 is normalised exactly. -/
theorem normalizeSecNSec_total (sec nsec : UInt32) :
    Time.Normal ⟨(normalizeSecNSec sec nsec).1, (normalizeSecNSec sec nsec).2⟩ ∧
      Time.total ⟨(normalizeSecNSec sec nsec).1, (normalizeSecNSec sec nsec).2⟩ =
        ((sec.toNat : Int) * 1000000000 + nsec.toNat) % period := by
  obtain ⟨hbound, hnanos⟩ := normalizeSecNSec_spec sec nsec
  refine ⟨hbound, ?_⟩
  have hlt : nanos (normalizeSecNSec sec nsec).1 (normalizeSecNSec sec nsec).2 < period :=
    nanos_lt hbound
  rw [Nat.mod_eq_of_lt hlt] at hnanos
  show ((nanos _ _ : Nat) : Int) = _
  rw [hnanos]
  unfold nanos period
  omega

/-- The sum of a time and a duration, modulo `period`. -/
theorem addAssign_spec (ht : t.Normal) (hd : d.Normal) :
    (t.addAssign d).Normal ∧ (t.addAssign d).total = (t.total + d.total) % period := by
  have ht' : t.nsec.toNat < 1000000000 := ht
  have hdsec := toNat_toUInt32 d.sec
  have hdnsec := toNat_toUInt32 d.nsec
  have htsec := t.sec.toNat_lt
  obtain ⟨hnormal, htotal⟩ := normalizeSecNSec_total (t.sec - 1 + d.sec.toUInt32)
    (t.nsec + 1000000000 + d.nsec.toUInt32)
  refine ⟨hnormal, Eq.trans htotal ?_⟩
  unfold Duration.Normal at hd
  unfold Time.total Duration.total nanos period
  simp only [UInt32.toNat_add, UInt32.toNat_sub, UInt32.reduceToNat]
  omega

/-- The difference of a time and a duration, modulo `period`. -/
theorem subAssign_spec (ht : t.Normal) (hd : d.Normal) :
    (t.subAssign d).Normal ∧ (t.subAssign d).total = (t.total - d.total) % period := by
  have ht' : t.nsec.toNat < 1000000000 := ht
  have hdsec := toNat_toUInt32 d.sec
  have hdnsec := toNat_toUInt32 d.nsec
  have htsec := t.sec.toNat_lt
  obtain ⟨hnormal, htotal⟩ := normalizeSecNSec_total (t.sec - 1 - d.sec.toUInt32)
    (t.nsec + 1000000000 - d.nsec.toUInt32)
  refine ⟨hnormal, Eq.trans htotal ?_⟩
  unfold Duration.Normal at hd
  unfold Time.total Duration.total nanos period
  simp only [UInt32.toNat_add, UInt32.toNat_sub, UInt32.reduceToNat]
  omega

/-- The difference of two times is the normal form of the difference of the seconds that an
`int32_t` has, and of the nanoseconds. -/
theorem sub_eq_some_iff (ht : t.Normal) (hu : u.Normal) :
    t.sub u = some d ↔
      d.Normal ∧ d.total =
        t.secondsBetween u * 1000000000 + ((t.nsec.toNat : Int) - u.nsec.toNat) := by
  have ht' : t.nsec.toNat < 1000000000 := ht
  have hu' : u.nsec.toNat < 1000000000 := hu
  obtain ⟨sec, nsec, hsub, hsec, hnsec⟩ := t.sub_eq u ht hu
  have hmoved : moved nsec.toInt = nsec.toInt / 1000000000 := by
    unfold moved
    split <;> omega
  rw [hsub, normalizeSecNSecSigned_eq_some_iff, hmoved]
  unfold Duration.Normal Duration.total
  omega

/-- A difference of seconds fits an `int32_t`. -/
theorem secondsBetween_fits (t u : Time) : Fits (t.secondsBetween u) := by
  unfold Fits Time.secondsBetween
  rw [Int.bmod_def]
  omega

/-- There is a difference unless that of the seconds is the smallest `int32_t`. -/
theorem exists_sub (ht : t.Normal) (hu : u.Normal) (h : t.secondsBetween u ≠ -2147483648) :
    ∃ d, t.sub u = some d := by
  have ht' : t.nsec.toNat < 1000000000 := ht
  have hu' : u.nsec.toNat < 1000000000 := hu
  have hfits := secondsBetween_fits t u
  unfold Fits at hfits
  obtain ⟨sec, -, hsec⟩ := exists_checked (n := t.secondsBetween u +
      ((t.nsec.toNat : Int) - u.nsec.toNat) / 1000000000) (by
    unfold Fits
    omega)
  obtain ⟨nsec, -, hnsec⟩ := exists_checked
      (n := ((t.nsec.toNat : Int) - u.nsec.toNat) % 1000000000) (by
    unfold Fits
    omega)
  refine ⟨⟨sec, nsec⟩, (sub_eq_some_iff ht hu).mpr ⟨?_, ?_⟩⟩
  · show 0 ≤ nsec.toInt ∧ nsec.toInt < 1000000000
    omega
  · show sec.toInt * 1000000000 + nsec.toInt = _
    omega

/-- A difference is exact modulo `period`. -/
theorem sub_total (ht : t.Normal) (hu : u.Normal) (h : t.sub u = some d) :
    d.total % period = (t.total - u.total) % period := by
  obtain ⟨-, htotal⟩ := (sub_eq_some_iff ht hu).mp h
  rw [htotal]
  unfold Time.secondsBetween Time.total nanos period
  rw [Int.bmod_def]
  split <;> omega

end Operators

/-! ## The laws -/

/-- What the operators do to two times and a duration.  The results are in range and exact
modulo `period`, a duration can be taken back, and it is the difference that it makes. -/
structure Time.Acts (t u : Time) (d : Duration) : Prop where
  addNormal : (t.addAssign d).Normal
  addExact : (t.addAssign d).total = (t.total + d.total) % period
  subNormal : (t.subAssign d).Normal
  subExact : (t.subAssign d).total = (t.total - d.total) % period
  addSub : (t.addAssign d).subAssign d = t
  addDifference : (t.addAssign d).sub t = some d
  difference : u.secondsBetween t ≠ -2147483648 → ∃ e, u.sub t = some e ∧ e.Normal ∧
    e.total % period = (u.total - t.total) % period ∧ t.addAssign e = u

section Laws

variable {t u : Time} {d : Duration}

/-- `(t += d) -= d` is `t`. -/
theorem addAssign_subAssign (ht : t.Normal) (hd : d.Normal) :
    (t.addAssign d).subAssign d = t := by
  obtain ⟨hadd, hsum⟩ := addAssign_spec ht hd
  obtain ⟨hsub, hback⟩ := subAssign_spec hadd hd
  apply ht.eq_of_total hsub
  rw [hback, hsum, Int.emod_sub_emod, Int.add_sub_cancel, ht.total_emod]

/-- `t += (u - t)` is `u`. -/
theorem addAssign_sub (ht : t.Normal) (hu : u.Normal) (h : u.sub t = some d) :
    t.addAssign d = u := by
  obtain ⟨hd, -⟩ := (sub_eq_some_iff hu ht).mp h
  obtain ⟨hadd, hsum⟩ := addAssign_spec ht hd
  apply hu.eq_of_total hadd
  rw [hsum, ← Int.add_emod_emod, sub_total hu ht h, Int.add_emod_emod, Int.add_comm,
    Int.sub_add_cancel, hu.total_emod]

/-- `(t += d) - t` is `d`, unless the seconds of `d` are the greatest `int32_t` and the
nanoseconds make up another second. -/
theorem addAssign_sub_self_iff (ht : t.Normal) (hd : d.Normal) :
    (t.addAssign d).sub t = some d ↔
      d.sec.toInt ≠ 2147483647 ∨ t.nsec.toNat + d.nsec.toInt < 1000000000 := by
  obtain ⟨hadd, hsum⟩ := addAssign_spec ht hd
  have ht' : t.nsec.toNat < 1000000000 := ht
  have hadd' : (t.addAssign d).nsec.toNat < 1000000000 := hadd
  have htsec := t.sec.toNat_lt
  have hasec := (t.addAssign d).sec.toNat_lt
  have hdsec := fits_toInt d.sec
  rw [sub_eq_some_iff hadd ht, and_iff_right hd]
  unfold Fits at hdsec
  unfold Duration.Normal at hd
  unfold Time.total Duration.total nanos period at hsum
  unfold Time.secondsBetween Duration.total
  rw [Int.bmod_def]
  split <;> omega

end Laws

/-- The laws hold of all times and durations in normal form, except where `(t += d) - t` borrows
from the smallest `int32_t`: the seconds of `d` are the greatest `int32_t`, and the nanoseconds
of `t` and `d` make up another second. -/
theorem acts_iff (t u : {t : Time // t.Normal}) (d : {d : Duration // d.Normal}) :
    t.1.Acts u.1 d.1 ↔
      d.1.sec.toInt ≠ 2147483647 ∨ t.1.nsec.toNat + d.1.nsec.toInt < 1000000000 := by
  have hself := addAssign_sub_self_iff t.2 d.2
  constructor
  · intro hacts
    exact hself.mp hacts.addDifference
  · intro hcond
    obtain ⟨haddNormal, haddExact⟩ := addAssign_spec t.2 d.2
    obtain ⟨hsubNormal, hsubExact⟩ := subAssign_spec t.2 d.2
    refine ⟨haddNormal, haddExact, hsubNormal, hsubExact, addAssign_subAssign t.2 d.2,
      hself.mpr hcond, fun hne => ?_⟩
    obtain ⟨e, he⟩ := exists_sub u.2 t.2 hne
    obtain ⟨henormal, -⟩ := (sub_eq_some_iff u.2 t.2).mp he
    exact ⟨e, he, henormal, sub_total u.2 t.2 he, addAssign_sub t.2 u.2 he⟩

/-- The time 0.999999999 s plus 2147483647.000000001 s is 2147483648 s, and the difference to the
first time overflows. -/
theorem greatestDuration_not_acts :
    ¬ Time.Acts ⟨0, 999999999⟩ ⟨0, 0⟩ ⟨2147483647, 1⟩ := by
  intro hacts
  have hsum : Time.addAssign ⟨0, 999999999⟩ ⟨2147483647, 1⟩ = ⟨2147483648, 0⟩ := by decide
  have hsub := hacts.addDifference
  rw [hsum] at hsub
  have htotal := ((sub_eq_some_iff (by decide) (by decide)).mp hsub).2
  exact absurd htotal (by decide)

end Ros2Serial.Device
