import AccessContext.Location
import Mathlib.Algebra.Order.Ring.Int
import Mathlib.Tactic.Linarith
import Mathlib.Tactic.SplitIfs

/-!
# The plane of the location checks

Squared distances from points of the earth are words, and the way that can be travelled is cut off
far beyond any of them, so the checks agree with the geometry of the plane whatever radius, speed and
hours there are. More hours and more speed lead no less far, and a blacklisted disk that covers the
authorized one leaves no place. Main statement: `LocationWitness.verify_plane`.
-/

namespace AccessContext

/-! ### Distances -/

namespace GeoPoint

/-- The squared distance of two points, which no word bounds. -/
def planeDistSq (p q : GeoPoint) : Int :=
  (p.lat.toInt - q.lat.toInt) * (p.lat.toInt - q.lat.toInt)
    + (p.lon.toInt - q.lon.toInt) * (p.lon.toInt - q.lon.toInt)

/-- The box that the constraints leave to a point. Its lower bounds are those of the earth; its
upper bounds are powers of two above them. -/
structure InBox (p : GeoPoint) : Prop where
  lat_ge : -9000 ≤ p.lat.toInt
  lat_lt : p.lat.toInt < 2 ^ 15 - 9000
  lon_ge : -18000 ≤ p.lon.toInt
  lon_lt : p.lon.toInt < 2 ^ 16 - 18000

theorem mul_self_le {x b : Int} (hlow : -b ≤ x) (hhigh : x ≤ b) : x * x ≤ b * b := by
  nlinarith

theorem planeDistSq_nonneg (p q : GeoPoint) : 0 ≤ planeDistSq p q :=
  add_nonneg (mul_self_nonneg _) (mul_self_nonneg _)

theorem planeDistSq_le (p q : GeoPoint) : planeDistSq p q ≤ 2 ^ 65 := by
  have h₁ := p.lat.le_toInt
  have h₂ := p.lat.toInt_lt
  have h₃ := q.lat.le_toInt
  have h₄ := q.lat.toInt_lt
  have h₅ := p.lon.le_toInt
  have h₆ := p.lon.toInt_lt
  have h₇ := q.lon.le_toInt
  have h₈ := q.lon.toInt_lt
  have hlat := mul_self_le (x := p.lat.toInt - q.lat.toInt) (b := 2 ^ 32) (by omega) (by omega)
  have hlon := mul_self_le (x := p.lon.toInt - q.lon.toInt) (b := 2 ^ 32) (by omega) (by omega)
  unfold planeDistSq
  omega

theorem inBox_of_fault? {p : GeoPoint} (h : p.fault? = none) : p.InBox := by
  have hlat : maxLat.toInt = 9000 := rfl
  have hlon : maxLon.toInt = 18000 := rfl
  have hlat' : (-maxLat).toInt = -9000 := rfl
  have hlon' : (-maxLon).toInt = -18000 := rfl
  unfold fault? at h
  split_ifs at h with h₁ h₂
  rw [Int32.le_iff_toInt_le, Int32.le_iff_toInt_le] at h₁ h₂
  constructor
  · omega
  · omega
  · omega
  · omega

theorem toNat_coordinateGap (a b : Int32) :
    (coordinateGap a b).toNat = (a.toInt - b.toInt).natAbs := by
  have h₁ := a.le_toInt
  have h₂ := a.toInt_lt
  have h₃ := b.le_toInt
  have h₄ := b.toInt_lt
  unfold coordinateGap
  rw [UInt64.toNat_ofNat']
  omega

/-- The distance in words is the plane one if one of the points is in the box. -/
theorem toNat_distSq {p : GeoPoint} (hp : p.InBox) (q : GeoPoint) :
    ((p.distSq q).toNat : Int) = planeDistSq p q := by
  obtain ⟨h₁, h₂, h₃, h₄⟩ := hp
  have h₅ := q.lat.le_toInt
  have h₆ := q.lat.toInt_lt
  have h₇ := q.lon.le_toInt
  have h₈ := q.lon.toInt_lt
  have hlat := mul_self_le (x := p.lat.toInt - q.lat.toInt) (b := 2 ^ 31 + 2 ^ 17) (by omega)
    (by omega)
  have hlon := mul_self_le (x := p.lon.toInt - q.lon.toInt) (b := 2 ^ 31 + 2 ^ 17) (by omega)
    (by omega)
  rw [← Int.natAbs_mul_self] at hlat hlon
  unfold distSq planeDistSq
  rw [← Int.natAbs_mul_self, ← Int.natAbs_mul_self, ← Nat.cast_add, Nat.cast_inj]
  simp only [UInt64.toNat_add, UInt64.toNat_mul, toNat_coordinateGap]
  omega

end GeoPoint

/-- Saturation beyond 128 bits does not change whether a distance of 64 bits is in reach. -/
theorem toBool_withinReach {p q : GeoPoint} {hours : Int64} {speed : UInt64} (hp : p.InBox)
    (hhours : 0 ≤ hours.toInt) :
    (withinReach p q hours speed).toBool =
      decide (p.planeDistSq q ≤ hours.toInt * speed.toNat * (hours.toInt * speed.toNat)) := by
  have hbound := hours.toInt_lt
  have hspeed := speed.toNat_lt
  have hdist := (p.distSq q).toNat_lt
  obtain ⟨h, hh⟩ := Int.eq_ofNat_of_zero_le hhours
  have hreach : h * speed.toNat ≤ 2 ^ 63 * 2 ^ 64 := Nat.mul_le_mul (by omega) hspeed.le
  have hmin : min (h * speed.toNat) 340282366920938463463374607431768211455 = h * speed.toNat :=
    Nat.min_eq_left (by omega)
  unfold withinReach saturate128
  rw [Bit.toBool_leq, hh, Int.toNat_natCast, decide_eq_decide, ← GeoPoint.toNat_distSq hp, hmin,
    ← Nat.cast_mul, ← Nat.cast_mul, Nat.cast_le]
  omega

/-! ### Well-formed input -/

namespace LocationWitness

variable {w : LocationWitness}

theorem bounds_of_fault? (h : w.fault? = none) :
    w.current.fault? = none ∧ w.previous.fault? = none ∧ w.ipDerived.fault? = none ∧
      0 ≤ w.travelHours.toInt := by
  unfold fault? at h
  split at h
  · cases h
  · rename_i hcurrent
    split at h
    · cases h
    · rename_i hprevious
      split at h
      · cases h
      · rename_i hip
        split_ifs at h with hnegative
        rw [Int64.lt_iff_toInt_lt, show (0 : Int64).toInt = 0 from rfl] at hnegative
        exact ⟨hcurrent, hprevious, hip, by omega⟩

/-- Input stays well-formed if more hours are granted. -/
theorem fault?_travelHours {hours : Int64} (hw : w.fault? = none) (h : w.travelHours ≤ hours) :
    fault? { w with travelHours := hours } = none := by
  obtain ⟨hcurrent, hprevious, hip, hhours⟩ := bounds_of_fault? hw
  have hle := Int64.le_iff_toInt_le.mp h
  have hnonneg : ¬ hours < 0 := by
    rw [Int64.lt_iff_toInt_lt, show (0 : Int64).toInt = 0 from rfl]
    omega
  rw [fault?, hcurrent, hprevious, hip]
  dsimp only
  rw [if_neg hnonneg]

end LocationWitness

/-! ### Checks -/

/-- Whether checks are what a place of access comes to under a policy. -/
structure LocationChecks.IsOutcome (c : LocationChecks) (w : LocationWitness) (p : LocationPolicy) :
    Prop where
  authorized : c.authorized = true ↔
    w.current.planeDistSq p.authorized.center ≤ p.authorized.radiusSq.toNat
  notBlacklisted : c.notBlacklisted = true ↔ ∀ region, p.blacklisted = some region →
    region.radiusSq.toNat < w.current.planeDistSq region.center
  travelOk : c.travelOk = true ↔
    w.current.planeDistSq w.previous ≤ (w.travelHours.toInt * p.maxSpeed.toNat) ^ 2
  ipOk : c.ipOk = true ↔ p.requireIp = false ∨
    w.current.planeDistSq w.ipDerived ≤ p.ipToleranceSq.toNat
  verified : c.verified = true ↔ c.authorized = true ∧ c.notBlacklisted = true ∧
    c.travelOk = true ∧ c.ipOk = true
  proofHash : c.proofHash = p.proofHash c.verified

theorem LocationWitness.isOutcome_checks {w : LocationWitness} {p : LocationPolicy}
    (hcurrent : w.current.InBox) (hhours : 0 ≤ w.travelHours.toInt) :
    (w.checks p).IsOutcome w p := by
  constructor
  · simp [checks, Region.contains, UInt64.le_iff_toNat_le, ← GeoPoint.toNat_distSq hcurrent]
  · have hcheck : (w.checks p).notBlacklisted = (w.notBlacklisted p).toBool := rfl
    rw [hcheck, notBlacklisted]
    cases p.blacklisted with
    | none => simp [Bit.one, Bit.toBool]
    | some region => simp [UInt64.lt_iff_toNat_lt, ← GeoPoint.toNat_distSq hcurrent]
  · simp [checks, toBool_withinReach hcurrent hhours, sq]
  · simp [checks, UInt64.le_iff_toNat_le, ← GeoPoint.toNat_distSq hcurrent]
  · simp [checks]
  · rfl

namespace LocationChecks.IsOutcome

variable {c c' : LocationChecks} {w w' : LocationWitness} {p p' : LocationPolicy}

/-- More hours and more speed lead no less far. -/
theorem travelOk_mono (h : c.IsOutcome w p) (h' : c'.IsOutcome w' p')
    (hcurrent : w'.current = w.current) (hprevious : w'.previous = w.previous)
    (hnonneg : 0 ≤ w.travelHours.toInt) (hhours : w.travelHours ≤ w'.travelHours)
    (hspeed : p.maxSpeed ≤ p'.maxSpeed) (hc : c.travelOk = true) : c'.travelOk = true := by
  have hle := Int64.le_iff_toInt_le.mp hhours
  have hreach : w.travelHours.toInt * p.maxSpeed.toNat ≤ w'.travelHours.toInt * p'.maxSpeed.toNat :=
    mul_le_mul hle (Int.ofNat_le.mpr (UInt64.le_iff_toNat_le.mp hspeed)) (Int.natCast_nonneg _)
      (hnonneg.trans hle)
  have hstart : 0 ≤ w.travelHours.toInt * p.maxSpeed.toNat :=
    mul_nonneg hnonneg (Int.natCast_nonneg _)
  rw [h'.travelOk, hcurrent, hprevious]
  exact (h.travelOk.mp hc).trans (pow_le_pow_left₀ hstart hreach 2)

/-- A blacklisted disk that covers the authorized one leaves no place. -/
theorem not_verified_of_covered (h : c.IsOutcome w p) {region : Region}
    (hregion : p.blacklisted = some region) (hcenter : region.center = p.authorized.center)
    (hradius : p.authorized.radiusSq ≤ region.radiusSq) : c.verified = false := by
  rw [Bool.eq_false_iff, ne_eq, h.verified, h.authorized, h.notBlacklisted]
  rintro ⟨hinside, houtside, -⟩
  have hfar := houtside region hregion
  have hle := UInt64.le_iff_toNat_le.mp hradius
  rw [hcenter] at hfar
  omega

end LocationChecks.IsOutcome

namespace LocationWitness

/-- A well-formed place is judged by its distances in the plane, at any radius, tolerance, speed and
hours. Who can make the way still can with more hours and more speed, and nobody passes if the
blacklisted disk covers the authorized one. -/
theorem verify_plane (w : LocationWitness) (p : LocationPolicy) (hw : w.fault? = none) :
    ∃ c, w.verify p = .ok c ∧ c.IsOutcome w p ∧
      (∀ (hours : Int64) (p' : LocationPolicy), w.travelHours ≤ hours → p.maxSpeed ≤ p'.maxSpeed →
        ∃ c', verify { w with travelHours := hours } p' = .ok c' ∧
          (c.travelOk = true → c'.travelOk = true)) ∧
      ∀ region, p.blacklisted = some region → region.center = p.authorized.center →
        p.authorized.radiusSq ≤ region.radiusSq → c.verified = false := by
  obtain ⟨hcurrent, -, -, hnonneg⟩ := bounds_of_fault? hw
  have hbox := GeoPoint.inBox_of_fault? hcurrent
  have houtcome : (w.checks p).IsOutcome w p := isOutcome_checks hbox hnonneg
  refine ⟨w.checks p, ?_, houtcome, fun hours p' hhours hspeed => ?_,
    fun region => houtcome.not_verified_of_covered⟩
  · rw [verify, hw]
  · have hle := Int64.le_iff_toInt_le.mp hhours
    have houtcome' : (checks { w with travelHours := hours } p').IsOutcome
        { w with travelHours := hours } p' := isOutcome_checks hbox (hnonneg.trans hle)
    refine ⟨checks { w with travelHours := hours } p', ?_, ?_⟩
    · rw [verify, fault?_travelHours hw hhours]
    · exact houtcome.travelOk_mono houtcome' rfl rfl hnonneg hhours hspeed

/-- From one corner of the map to the opposite one in an hour. -/
def acrossMap : LocationWitness :=
  ⟨⟨-9000, -18000⟩, ⟨9000, 18000⟩, ⟨-9000, -18000⟩, 1⟩

/-- A policy that authorizes one point, and blacklists it. -/
def nowhere (maxSpeed : UInt64) : LocationPolicy :=
  ⟨⟨⟨-9000, -18000⟩, 0⟩, some ⟨⟨-9000, -18000⟩, 0⟩, maxSpeed, 0, true⟩

theorem verify_plane_acrossMap : acrossMap.fault? = none ∧
    ∃ c c', acrossMap.verify (nowhere 40250) = .ok c ∧ c.travelOk = true ∧ c.verified = false ∧
      verify { acrossMap with travelHours := Int64.maxValue } (nowhere 18446744073709551615) = .ok c' ∧
      c'.travelOk = true := by
  obtain ⟨c, hc, houtcome, hmono, hcovered⟩ := verify_plane acrossMap (nowhere 40250) (by decide)
  have htravel : c.travelOk = true := houtcome.travelOk.mpr (by decide)
  obtain ⟨c', hc', htravel'⟩ :=
    hmono Int64.maxValue (nowhere 18446744073709551615) (by decide) (by decide)
  exact ⟨by decide, c, c', hc, htravel, hcovered _ rfl rfl (by decide), hc', htravel' htravel⟩

end LocationWitness

end AccessContext
