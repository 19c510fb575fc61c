import AccessContext.Proofs.Arithmetic.Machine
import AccessContext.Proofs.Plane

/-!
# The arithmetic of the location category

Every operation on integers in the checks on a place of access. Squared distances from a point of
the earth fit into words of 64 bits; the square of the way that can be travelled may not fit into
128 bits, but saturates far beyond any distance.
-/

namespace AccessContext

open Arithmetic

/-- The squared distance. -/
def GeoPoint.distSqIn (mode : Mode) (p q : GeoPoint) : Machine Int := do
  let lat ← store mode i64 (p.lat.toInt - q.lat.toInt)
  let latGap ← store mode u64 lat.natAbs
  let lon ← store mode i64 (p.lon.toInt - q.lon.toInt)
  let lonGap ← store mode u64 lon.natAbs
  let latSq ← store mode u64 (latGap * latGap)
  let lonSq ← store mode u64 (lonGap * lonGap)
  store mode u64 (latSq + lonSq)

/-- Whether a point lies in a disk. -/
def Region.containsIn (mode : Mode) (region : Region) (point : GeoPoint) : Machine Int := do
  let distance ← point.distSqIn mode region.center
  return (decide (distance ≤ region.radiusSq.toNat)).toInt

/-- Whether the way from one point to another can be made in some hours. -/
def withinReachIn (mode : Mode) (current previous : GeoPoint) (hours : Int64) (maxSpeed : UInt64) :
    Machine Int := do
  let hours ← store mode u128 (max hours.toInt 0)
  let reach := saturate mode u128 (hours * maxSpeed.toNat)
  let square := saturate mode u128 (reach * reach)
  let distance ← current.distSqIn mode previous
  return (decide (distance ≤ square)).toInt

section Parts

variable (mode : Mode) {p : GeoPoint}

theorem GeoPoint.distSqIn_eq (hp : p.InBox) (q : GeoPoint) :
    p.distSqIn mode q = .ok (p.distSq q).toNat := by
  have hbox := hp
  obtain ⟨h₁, h₂, h₃, h₄⟩ := hp
  have h₅ := q.lat.le_toInt
  have h₆ := q.lat.toInt_lt
  have h₇ := q.lon.le_toInt
  have h₈ := q.lon.toInt_lt
  have hlat := mul_self_le (x := p.lat.toInt - q.lat.toInt) (b := 2 ^ 31 + 2 ^ 17) (by omega)
    (by omega)
  have hlon := mul_self_le (x := p.lon.toInt - q.lon.toInt) (b := 2 ^ 31 + 2 ^ 17) (by omega)
    (by omega)
  have hlat' := mul_self_nonneg (p.lat.toInt - q.lat.toInt)
  have hlon' := mul_self_nonneg (p.lon.toInt - q.lon.toInt)
  rw [distSqIn, store_signed mode (by omega) (by omega), ok_bind,
    store_unsigned mode (by omega) (by omega), ok_bind, store_signed mode (by omega) (by omega),
    ok_bind, store_unsigned mode (by omega) (by omega), ok_bind, Int.natAbs_mul_self',
    Int.natAbs_mul_self', store_unsigned mode hlat' (by omega), ok_bind,
    store_unsigned mode hlon' (by omega), ok_bind, store_unsigned mode (by omega) (by omega),
    toNat_distSq hbox q]
  rfl

theorem Region.containsIn_eq (region : Region) (hp : p.InBox) :
    region.containsIn mode p = .ok (region.contains p).toBool.toInt := by
  rw [containsIn, p.distSqIn_eq mode hp, ok_bind, contains, Bit.toBool_leq]
  simp [UInt64.le_iff_toNat_le, pure, Except.pure]

theorem withinReachIn_eq (hp : p.InBox) (q : GeoPoint) {hours : Int64} (hhours : 0 ≤ hours.toInt)
    (speed : UInt64) :
    withinReachIn mode p q hours speed = .ok (withinReach p q hours speed).toBool.toInt := by
  have hbound := hours.toInt_lt
  have hspeed := speed.toNat_lt
  have hdist := (p.distSq q).toNat_lt
  have hreach : hours.toInt * speed.toNat ≤ 2 ^ 63 * 2 ^ 64 :=
    mul_le_mul hbound.le (by omega) (Int.natCast_nonneg _) (by decide)
  have hnonneg : 0 ≤ hours.toInt * speed.toNat := mul_nonneg hhours (Int.natCast_nonneg _)
  rw [withinReachIn, max_eq_left hhours, store_unsigned mode hhours (by omega), ok_bind,
    saturate_unsigned mode hnonneg (by omega), p.distSqIn_eq mode hp, ok_bind,
    toBool_withinReach hp hhours, ← GeoPoint.toNat_distSq hp]
  have hholds : u128.Holds (p.distSq q).toNat :=
    ⟨Int.natCast_nonneg _, show ((p.distSq q).toNat : Int) < 2 ^ 128 by omega⟩
  simp only [le_saturate_iff mode hholds (mul_nonneg hnonneg hnonneg)]
  rfl

end Parts

namespace LocationWitness

/-- Whether the place lies outside the blacklisted disk, if there is one. -/
def notBlacklistedIn (mode : Mode) (w : LocationWitness) (p : LocationPolicy) : Machine Int :=
  match p.blacklisted with
  | some region => do
    let distance ← w.current.distSqIn mode region.center
    return (decide ((region.radiusSq.toNat : Int) < distance)).toInt
  | none => return 1

/-- The checks on a place of access. -/
def checksIn (mode : Mode) (w : LocationWitness) (p : LocationPolicy) : Machine LocationChecks := do
  let authorized ← p.authorized.containsIn mode w.current
  let notBlacklisted ← w.notBlacklistedIn mode p
  let travelOk ← withinReachIn mode w.current w.previous w.travelHours p.maxSpeed
  let distance ← w.current.distSqIn mode w.ipDerived
  let ipOk ← bitIfRequired mode (decide (distance ≤ p.ipToleranceSq.toNat)).toInt p.requireIp
  let verified ← bitAll mode [authorized, notBlacklisted, travelOk, ipOk]
  return {
    authorized := isSet authorized
    notBlacklisted := isSet notBlacklisted
    travelOk := isSet travelOk
    ipOk := isSet ipOk
    verified := isSet verified
    proofHash := p.proofHash (isSet verified) }

/-- The checks on a place whose input is well formed. -/
def verifyIn (mode : Mode) (w : LocationWitness) (p : LocationPolicy) : Run LocationChecks :=
  match w.fault? with
  | some fault => throw (.invalidInput fault)
  | none => w.checksIn mode p

variable (mode : Mode) {w : LocationWitness}

theorem notBlacklistedIn_eq (p : LocationPolicy) (h : w.current.InBox) :
    w.notBlacklistedIn mode p = .ok (w.notBlacklisted p).toBool.toInt := by
  rw [notBlacklistedIn, notBlacklisted]
  cases p.blacklisted with
  | none => rfl
  | some region =>
    dsimp only
    rw [w.current.distSqIn_eq mode h, ok_bind, Bit.toBool_lt]
    simp [UInt64.lt_iff_toNat_lt, pure, Except.pure]

theorem checksIn_eq (p : LocationPolicy) (h : w.fault? = none) :
    w.checksIn mode p = .ok (w.checks p) := by
  obtain ⟨hcurrent, -, -, hhours⟩ := bounds_of_fault? h
  have hbox := GeoPoint.inBox_of_fault? hcurrent
  rw [checksIn, Region.containsIn_eq mode _ hbox, ok_bind, notBlacklistedIn_eq mode p hbox, ok_bind,
    withinReachIn_eq mode hbox _ hhours, ok_bind, GeoPoint.distSqIn_eq mode hbox, ok_bind,
    bitIfRequired_toInt, ok_bind]
  refine (bind_ok (bitAll_toInt mode [_, _, _, _])).trans ?_
  simp [checks, UInt64.le_iff_toNat_le, pure, Except.pure]

theorem verifyIn_computes (p : LocationPolicy) : Computes (w.verifyIn mode p) (w.verify p) := by
  rw [verifyIn, verify]
  cases hfault : w.fault? with
  | some fault => exact computes_throw _
  | none => exact Computes.of_eq (checksIn_eq mode p hfault)

end LocationWitness

end AccessContext
