import AccessContext.Proofs.Plane
import AccessContext.Proofs.R1cs.HonestGadgets
import AccessContext.Proofs.R1cs.Wires
import AccessContext.R1cs.LocationRelation

/-!
# The location relation

What the location relation says of its points: the authorized disk, the blacklisted one, the way
that can be travelled and the place of the network address. Distances of points in range stay
below the square at which the way is capped, so the cap changes no verdict.
-/

namespace AccessContext

open R1cs

namespace GeoPoint

/-- Whether the variables of a point are known to be its coordinates. -/
structure IsNamed (known : Path → Scalar → Prop) (p : GeoPoint) : Prop where
  lat : known ["lat", "num"] (.ofInt p.lat.toInt)
  lon : known ["lon", "num"] (.ofInt p.lon.toInt)

/-- Points in the box are closer than the longest reach. -/
theorem planeDistSq_le_of_inBox {p q : GeoPoint} (hp : p.InBox) (hq : q.InBox) :
    planeDistSq p q ≤ longestReach * longestReach := by
  obtain ⟨h₁, h₂, h₃, h₄⟩ := hp
  obtain ⟨h₅, h₆, h₇, h₈⟩ := hq
  have hlat := mul_self_le (x := p.lat.toInt - q.lat.toInt) (b := 2 ^ 15) (by omega) (by omega)
  have hlon := mul_self_le (x := p.lon.toInt - q.lon.toInt) (b := 2 ^ 16) (by omega) (by omega)
  unfold planeDistSq longestReach
  omega

end GeoPoint

namespace R1cs

open Fin.CommRing
open Circuit

namespace LocationInput

/-- The verdict on a place of access, from its integers. -/
def verdict (i : LocationInput) (p : LocationPolicy) : Bool :=
  i.present && decide (i.current.planeDistSq p.authorized.center ≤ p.authorized.radiusSq.toNat)
    && p.blacklisted.all (fun r =>
      decide ((r.radiusSq.toNat : Int) < i.current.planeDistSq r.center))
    && decide (i.current.planeDistSq i.previous ≤
      i.travelHours * p.maxSpeed.toNat * (i.travelHours * p.maxSpeed.toNat))
    && (!p.requireIp || decide (i.current.planeDistSq i.ipDerived ≤ p.ipToleranceSq.toNat))

/-- The ranges that the constraints leave to the integers. The constraints bound the hours by 64
bits, but hours beyond the longest reach are worth no more than fewer ones. -/
structure InRange (i : LocationInput) : Prop where
  current : i.current.InBox
  previous : i.previous.InBox
  ipDerived : i.ipDerived.InBox
  travelHours_nonneg : 0 ≤ i.travelHours
  travelHours_lt : i.travelHours < 2 ^ 63

structure PointsInBox (i : LocationInput) : Prop where
  current : i.current.InBox
  previous : i.previous.InBox
  ipDerived : i.ipDerived.InBox

/-- Whether the private variables of the location relation are known to be the integers. -/
structure IsNamed (known : Path → Scalar → Prop) (i : LocationInput) : Prop where
  present : known ["present", "boolean"] (.ofBool i.present)
  current : i.current.IsNamed fun path => known ("current" :: path)
  previous : i.previous.IsNamed fun path => known ("previous" :: path)
  ipDerived : i.ipDerived.IsNamed fun path => known ("ip" :: path)
  travelHours : known ["hours", "num"] (.ofInt i.travelHours)

theorem absent_inRange : absent.InRange := by
  have horigin : GeoPoint.origin.InBox := by
    constructor <;> decide
  exact ⟨horigin, horigin, horigin, by decide, by decide⟩

/-! ### Native checks -/

theorem inRange_of_fault? {w : LocationWitness} (h : w.fault? = none) :
    (ofWitness (some w)).InRange := by
  obtain ⟨hcurrent, hprevious, hip, hhours⟩ := LocationWitness.bounds_of_fault? h
  exact {
    current := GeoPoint.inBox_of_fault? hcurrent
    previous := GeoPoint.inBox_of_fault? hprevious
    ipDerived := GeoPoint.inBox_of_fault? hip
    travelHours_nonneg := hhours
    travelHours_lt := w.travelHours.toInt_lt }

/-- The native verdict is the verdict on the integers. -/
theorem verified_checks {p : LocationPolicy} {w : LocationWitness}
    (h : (ofWitness (some w)).InRange) :
    (w.checks p).verified = (ofWitness (some w)).verdict p := by
  have houtcome : (w.checks p).IsOutcome w p :=
    LocationWitness.isOutcome_checks h.current h.travelHours_nonneg
  unfold verdict ofWitness
  dsimp only
  rw [Bool.eq_iff_iff, houtcome.verified, houtcome.authorized, houtcome.notBlacklisted,
    houtcome.travelOk, houtcome.ipOk]
  simp [Option.all_eq_true, sq, and_assoc]

theorem verdict_eq_all (i : LocationInput) (p : LocationPolicy) :
    i.verdict p = [i.present,
      decide (i.current.planeDistSq p.authorized.center ≤ p.authorized.radiusSq.toNat),
      p.blacklisted.all fun r => decide ((r.radiusSq.toNat : Int) < i.current.planeDistSq r.center),
      decide (i.current.planeDistSq i.previous ≤
        i.travelHours * p.maxSpeed.toNat * (i.travelHours * p.maxSpeed.toNat)),
      !p.requireIp ||
        decide (i.current.planeDistSq i.ipDerived ≤ p.ipToleranceSq.toNat)].all id := by
  simp [verdict, Bool.and_assoc]

end LocationInput

/-! ### The circuit -/

open LocationInput

variable {a : Assignment} {known : Path → Scalar → Prop}

/-- Whether the coordinates of a point are those that terms stand for. -/
structure PointTerm.StandsFor (a : Assignment) (t : PointTerm) (p : GeoPoint) : Prop where
  lat : t.lat.StandsFor a p.lat.toInt
  lon : t.lon.StandsFor a p.lon.toInt

/-- Whether the coordinates of a point are those that terms carry. -/
structure PointTerm.Carries (a : Assignment) (t : PointTerm) (p : GeoPoint) : Prop where
  lat : t.lat.Carries a p.lat.toInt
  lon : t.lon.Carries a p.lon.toInt

/-- The bit that tells whether a place is not blacklisted; the disk that stands in for a missing
blacklist does not matter. -/
theorem toInt_notBlacklisted (p : LocationPolicy) (q : GeoPoint) :
    1 - p.blacklisted.isSome.toInt
        * (decide (q.planeDistSq (p.blacklisted.getD ⟨.origin, 0⟩).center ≤
            (p.blacklisted.getD ⟨.origin, 0⟩).radiusSq.toNat)).toInt =
      (p.blacklisted.all fun r =>
        decide ((r.radiusSq.toNat : Int) < q.planeDistSq r.center)).toInt := by
  cases p.blacklisted with
  | none => simp [Bool.toInt]
  | some r =>
    by_cases h : q.planeDistSq r.center ≤ r.radiusSq.toNat
    · simp [Bool.toInt, h, not_lt.mpr h]
    · simp [Bool.toInt, h, not_le.mp h]

/-- The capped way tells the same distances apart as the whole way. -/
theorem le_capped_iff {d reach : Int} (hreach : 0 ≤ reach)
    (hd : d ≤ longestReach * longestReach) :
    d ≤ min reach longestReach * min reach longestReach ↔ d ≤ reach * reach := by
  unfold longestReach at *
  rcases le_total reach 131071 with h | h
  · rw [min_eq_left h]
  · rw [min_eq_right h]
    have := mul_le_mul h h (by decide) hreach
    exact ⟨fun hle => hle.trans this, fun _ => hd⟩

/-- Hours of 63 bits reach as far as any, since longer ways are capped. -/
theorem min_reach_eq {h s : Int} (hh : 0 ≤ h) (hs : 0 ≤ s) :
    min (h * s) longestReach = min (min h (2 ^ 63 - 1) * s) longestReach := by
  rcases le_total h (2 ^ 63 - 1) with hle | hle
  · rw [min_eq_left hle]
  · rw [min_eq_right hle]
    rcases hs.eq_or_lt with rfl | hpos
    · simp
    · have h₁ : (2 ^ 63 - 1) * 1 ≤ h * s := mul_le_mul hle hpos (by decide) hh
      have h₂ : (2 ^ 63 - 1) * 1 ≤ (2 ^ 63 - 1) * s := mul_le_mul_of_nonneg_left hpos (by decide)
      unfold longestReach
      omega

theorem capped_bounds {reach : Int} (hreach : 0 ≤ reach) :
    0 ≤ min reach longestReach * min reach longestReach ∧
      min reach longestReach * min reach longestReach ≤ 131071 * 131071 := by
  have hlow : 0 ≤ min reach longestReach := le_min hreach (by decide)
  have hhigh : min reach longestReach ≤ 131071 := min_le_right _ _
  exact ⟨mul_self_nonneg _, mul_le_mul hhigh hhigh hlow (by decide)⟩

theorem shows_allocPoint {p : GeoPoint} :
    Shows a known (allocPoint p) fun t =>
      ∃ q : GeoPoint, q.IsNamed known ∧ q.InBox ∧ t.StandsFor a q := by
  unfold allocPoint
  refine Shows.bind (.scope shows_freshInteger) ?_
  intro lat hlatKnown
  refine Shows.bind (.scope shows_freshInteger) ?_
  intro lon hlonKnown
  refine Shows.next (.scope forces_enforceWidth) ?_
  rintro _ ⟨k, hk, hk₁, hlat⟩
  refine Shows.next (.scope forces_enforceWidth) ?_
  rintro _ ⟨l, hl, hl₁, hlon⟩
  have hlat₁ : lat.StandsFor a (k - 9000) := hlat.of_addConstant
  have hlon₁ : lon.StandsFor a (l - 18000) := hlon.of_addConstant
  have hk₂ : (Int32.ofInt (k - 9000)).toInt = k - 9000 :=
    Int32.toInt_ofInt_of_le (by omega) (by omega)
  have hl₂ : (Int32.ofInt (l - 18000)).toInt = l - 18000 :=
    Int32.toInt_ofInt_of_le (by omega) (by omega)
  rw [← hk₂] at hlat₁
  rw [← hl₂] at hlon₁
  refine Shows.pure ⟨⟨.ofInt (k - 9000), .ofInt (l - 18000)⟩,
    ⟨hlat₁.known hlatKnown, hlon₁.known hlonKnown⟩, ⟨?_, ?_, ?_, ?_⟩, ⟨hlat₁, hlon₁⟩⟩
  · dsimp only
    omega
  · dsimp only
    omega
  · dsimp only
    omega
  · dsimp only
    omega

theorem forces_distSq {s t : PointTerm} {p q : GeoPoint} (hs : s.StandsFor a p)
    (ht : t.StandsFor a q) :
    Forces a (distSq s t) fun d => d.StandsFor a (p.planeDistSq q) := by
  unfold distSq
  dsimp only
  refine Forces.bind (.scope (forces_mul (hs.lat.sub ht.lat) (hs.lat.sub ht.lat))) ?_
  intro _ hlat
  refine Forces.bind (.scope (forces_mul (hs.lon.sub ht.lon) (hs.lon.sub ht.lon))) ?_
  intro _ hlon
  exact Forces.pure (hlat.add hlon)

/-- The reach, replaced by the cap if it is far. -/
theorem clamp_eq_min (reach : Int) :
    reach + (decide (longestReach ≤ reach)).toInt * (longestReach - reach) =
      min reach longestReach := by
  by_cases h : longestReach ≤ reach
  · simp [h, Bool.toInt]
  · simp [h, Bool.toInt]
    omega

/-- Whatever the prover did, the variable of the squared reach is the square of the capped one. -/
theorem shows_reachSquared {hours speed : Term} {h s : Int} (hhours : hours.StandsFor a h)
    (hspeed : speed.StandsFor a s) (hh : 0 ≤ h ∧ h < 2 ^ 64) (hs : 0 ≤ s ∧ s < 2 ^ 64) :
    Shows a known (reachSquared hours speed) fun t =>
      known ["reach_sq", "product", "num"]
        (.ofInt (min (h * s) longestReach * min (h * s) longestReach)) ∧
      t.StandsFor a (min (h * s) longestReach * min (h * s) longestReach) := by
  have hlow : 0 ≤ h * s := mul_nonneg hh.1 hs.1
  have hhigh : h * s ≤ 2 ^ 64 * 2 ^ 64 := mul_le_mul hh.2.le hs.2.le hs.1 (by decide)
  unfold reachSquared
  dsimp only
  refine Shows.next (.scope (forces_mul hhours hspeed)) ?_
  intro reach hreach
  have hcap := Term.StandsFor.constant (a := a) longestReach
  refine Shows.next (.scope (forces_leq hcap hreach (by unfold longestReach; omega)
    (by unfold longestReach; omega) (by decide))) ?_
  intro far hfar
  refine Shows.next (.scope (forces_mul hfar (hcap.sub hreach))) ?_
  intro clamp hclamp
  have hcapped := hreach.add hclamp
  rw [clamp_eq_min] at hcapped
  exact .scope (shows_mul hcapped hcapped)

/-- Whatever the prover did, the variables are some integers in range, and the result is the verdict
on them. The cap on the reach shows in its square only. -/
theorem shows_enforceLocation {input : LocationInput} {z : LocationVector (Wire Scalar)}
    {p : LocationPolicy} (hz : z.Holds a p.vector) :
    Shows a known (enforceLocation input z) fun t =>
      ∃ i : LocationInput, i.IsNamed known ∧ i.PointsInBox ∧
        (0 ≤ i.travelHours ∧ i.travelHours < 2 ^ 64) ∧
        known ["reach_sq", "product", "num"]
          (.ofInt (min (i.travelHours * p.maxSpeed.toNat) longestReach
            * min (i.travelHours * p.maxSpeed.toNat) longestReach)) ∧
        t.StandsFor a (i.verdict p).toInt := by
  obtain ⟨hauthorized, hhas, hblacklisted, hspeed, htolerance, hrequire⟩ := hz
  have hradius := hauthorized.radiusSq.bounds
  have hradius₁ := hblacklisted.radiusSq.bounds
  have htolerance₁ := htolerance.bounds
  have hspeed₁ := hspeed.bounds
  have hspeed₂ : 0 ≤ p.vector.maxSpeed := Int.natCast_nonneg _
  unfold enforceLocation wideWidth
  dsimp only
  refine Shows.bind (.scope shows_freshBit) ?_
  rintro present ⟨b, hbKnown, hpresent⟩
  refine Shows.bind (.scope shows_allocPoint) ?_
  rintro current ⟨c, hcKnown, hc, hcurrent⟩
  refine Shows.bind (.scope shows_allocPoint) ?_
  rintro previous ⟨d, hdKnown, hd, hprevious⟩
  refine Shows.bind (.scope shows_allocPoint) ?_
  rintro ip ⟨e, heKnown, he, hip⟩
  refine Shows.bind (.scope shows_freshInteger) ?_
  intro hours hhoursKnown
  refine Shows.next (.scope forces_enforceWidth) ?_
  rintro _ ⟨h, hh, hh₁, hhours⟩
  refine Shows.next (.scope (forces_distSq hcurrent (q := p.authorized.center)
    ⟨hauthorized.lat.standsFor, hauthorized.lon.standsFor⟩)) ?_
  intro fromCenter hfromCenter
  have hcenter := c.planeDistSq_le p.authorized.center
  have hcenter₁ := c.planeDistSq_nonneg p.authorized.center
  refine Shows.next (.scope (forces_leq hfromCenter hauthorized.radiusSq.standsFor (by omega)
    (by omega) (by decide))) ?_
  intro authorized hauthorized
  refine Shows.next (.scope (forces_distSq hcurrent
    (q := (p.blacklisted.getD ⟨.origin, 0⟩).center)
    ⟨hblacklisted.lat.standsFor, hblacklisted.lon.standsFor⟩)) ?_
  intro fromBlocked hfromBlocked
  have hblocked := c.planeDistSq_le (p.blacklisted.getD ⟨.origin, 0⟩).center
  have hblocked₁ := c.planeDistSq_nonneg (p.blacklisted.getD ⟨.origin, 0⟩).center
  refine Shows.next (.scope (forces_leq hfromBlocked hblacklisted.radiusSq.standsFor (by omega)
    (by omega) (by decide))) ?_
  intro inside hinside
  refine Shows.next (.scope (forces_mul hhas.standsFor hinside)) ?_
  intro blocked hblocked
  have hnotBlocked : (Term.constant 1 - blocked).StandsFor a (p.blacklisted.all fun r =>
      decide ((r.radiusSq.toNat : Int) < c.planeDistSq r.center)).toInt := by
    rw [← toInt_notBlacklisted]
    exact (Term.StandsFor.constant 1).sub hblocked
  refine Shows.bind (shows_reachSquared hhours hspeed.standsFor ⟨hh, hh₁⟩ ⟨hspeed₂, hspeed₁.2⟩) ?_
  rintro reachSq ⟨hreachKnown, hreachSq⟩
  have hreach : 0 ≤ h * p.vector.maxSpeed := mul_nonneg hh hspeed₂
  have hcapped := capped_bounds hreach
  have htravel := c.planeDistSq_le d
  have htravel₁ := c.planeDistSq_nonneg d
  refine Shows.next (.scope (forces_distSq hcurrent hprevious)) ?_
  intro travelled htravelled
  refine Shows.next (.scope (forces_leq htravelled hreachSq (by omega) (by omega) (by decide))) ?_
  intro travelOk htravelOk
  rw [decide_eq_decide.mpr (le_capped_iff hreach (GeoPoint.planeDistSq_le_of_inBox hc hd))]
    at htravelOk
  have hfar := c.planeDistSq_le e
  have hfar₁ := c.planeDistSq_nonneg e
  refine Shows.next (.scope (forces_distSq hcurrent hip)) ?_
  intro fromIp hfromIp
  refine Shows.next (.scope (forces_leq hfromIp htolerance.standsFor (by omega) (by omega)
    (by decide))) ?_
  intro ipClose hipClose
  refine Shows.next (.scope (forces_implies hrequire.standsFor hipClose)) ?_
  intro ipOk hipOk
  refine .last (.scope ((forces_conjunction (.cons hpresent <| .cons hauthorized <|
    .cons hnotBlocked <| .cons htravelOk <| .cons hipOk .nil)).mono
    fun t ht => ⟨⟨b, c, d, e, h⟩, ?_, ⟨hc, hd, he⟩, ⟨hh, hh₁⟩, hreachKnown, ?_⟩))
  · exact ⟨hbKnown, hcKnown, hdKnown, heKnown, hhours.known hhoursKnown⟩
  · rw [verdict_eq_all]
    exact ht

/-- Hours beyond those of a signed word are worth no more than the most hours of one. -/
theorem verdict_of_min_hours {i : LocationInput} {p : LocationPolicy} (hi : i.PointsInBox)
    (hhours : 0 ≤ i.travelHours) :
    { i with travelHours := min i.travelHours (2 ^ 63 - 1) }.verdict p = i.verdict p := by
  have hspeed : 0 ≤ (p.maxSpeed.toNat : Int) := Int.natCast_nonneg _
  have hdist := GeoPoint.planeDistSq_le_of_inBox hi.current hi.previous
  have hreach : 0 ≤ i.travelHours * p.maxSpeed.toNat := mul_nonneg hhours hspeed
  have hreach₁ : 0 ≤ min i.travelHours (2 ^ 63 - 1) * p.maxSpeed.toNat :=
    mul_nonneg (by omega) hspeed
  have htravel : i.current.planeDistSq i.previous ≤
      min i.travelHours (2 ^ 63 - 1) * p.maxSpeed.toNat
        * (min i.travelHours (2 ^ 63 - 1) * p.maxSpeed.toNat) ↔
      i.current.planeDistSq i.previous ≤
        i.travelHours * p.maxSpeed.toNat * (i.travelHours * p.maxSpeed.toNat) := by
    rw [← le_capped_iff hreach hdist, ← le_capped_iff hreach₁ hdist, min_reach_eq hhours hspeed]
  unfold verdict
  dsimp only
  rw [decide_eq_decide.mpr htravel]

theorem forces_enforceLocation {input : LocationInput} {z : LocationVector (Wire Scalar)}
    {p : LocationPolicy} (hz : z.Holds a p.vector) :
    Forces a (enforceLocation input z) fun t =>
      ∃ i : LocationInput, i.InRange ∧ t.StandsFor a (i.verdict p).toInt := by
  refine (shows_enforceLocation hz).forces.mono ?_
  rintro t ⟨i, -, hpoints, ⟨hhours, -⟩, -, ht⟩
  refine ⟨{ i with travelHours := min i.travelHours (2 ^ 63 - 1) },
    ⟨hpoints.current, hpoints.previous, hpoints.ipDerived, ?_, ?_⟩, ?_⟩
  · dsimp only
    omega
  · dsimp only
    omega
  · rwa [verdict_of_min_hours hpoints hhours]

/-! ### The honest run -/

theorem runs_allocPoint {p : GeoPoint} (hp : p.InBox) :
    Runs a (allocPoint p) True fun t => t.Carries a p := by
  obtain ⟨h₁, h₂, h₃, h₄⟩ := hp
  unfold allocPoint
  refine Runs.bind (.scope (runs_freshInteger rfl)) ?_
  intro lat hlat
  refine Runs.bind (.scope (runs_freshInteger rfl)) ?_
  intro lon hlon
  have hlat₁ : (lat.addConstant GeoPoint.maxLat.toInt).Carries a (p.lat.toInt + 9000) :=
    hlat.addConstant (show Fits (p.lat.toInt + 9000) from ⟨by omega, by omega⟩)
  have hlon₁ : (lon.addConstant GeoPoint.maxLon.toInt).Carries a (p.lon.toInt + 18000) :=
    hlon.addConstant (show Fits (p.lon.toInt + 18000) from ⟨by omega, by omega⟩)
  refine Runs.next (.scope (runs_enforceWidth hlat₁ (by omega) (by omega) (by omega))) ?_
  refine Runs.next (.scope (runs_enforceWidth hlon₁ (by omega) (by omega) (by omega))) ?_
  exact Runs.pure ⟨hlat, hlon⟩

theorem runs_distSq {s t : PointTerm} {p q : GeoPoint} (hs : s.Carries a p)
    (ht : t.Carries a q) :
    Runs a (distSq s t) True fun d => d.Carries a (p.planeDistSq q) := by
  have h₁ := p.lat.le_toInt
  have h₂ := p.lat.toInt_lt
  have h₃ := q.lat.le_toInt
  have h₄ := q.lat.toInt_lt
  have h₅ := p.lon.le_toInt
  have h₆ := p.lon.toInt_lt
  have h₇ := q.lon.le_toInt
  have h₈ := q.lon.toInt_lt
  have hlat := GeoPoint.mul_self_le (x := p.lat.toInt - q.lat.toInt) (b := 2 ^ 32) (by omega)
    (by omega)
  have hlon := GeoPoint.mul_self_le (x := p.lon.toInt - q.lon.toInt) (b := 2 ^ 32) (by omega)
    (by omega)
  have hlat₁ := mul_self_nonneg (p.lat.toInt - q.lat.toInt)
  have hlon₁ := mul_self_nonneg (p.lon.toInt - q.lon.toInt)
  unfold distSq
  dsimp only
  have hdlat := hs.lat.sub ht.lat ⟨by omega, by omega⟩
  have hdlon := hs.lon.sub ht.lon ⟨by omega, by omega⟩
  refine Runs.bind (.scope (runs_mul hdlat hdlat ⟨by omega, by omega⟩)) ?_
  intro _ hlatSq
  refine Runs.bind (.scope (runs_mul hdlon hdlon ⟨by omega, by omega⟩)) ?_
  intro _ hlonSq
  exact Runs.pure (hlatSq.add hlonSq ⟨by omega, by omega⟩)

theorem runs_reachSquared {hours speed : Term} {h s : Int} (hhours : hours.Carries a h)
    (hspeed : speed.Carries a s) (hh : 0 ≤ h ∧ h < 2 ^ 63) (hs : 0 ≤ s ∧ s < 2 ^ 64) :
    Runs a (reachSquared hours speed) True fun t =>
      t.Carries a (min (h * s) longestReach * min (h * s) longestReach) := by
  have hlow : 0 ≤ h * s := mul_nonneg hh.1 hs.1
  have hhigh : h * s ≤ (2 ^ 63 - 1) * 2 ^ 64 :=
    mul_le_mul (by omega) hs.2.le hs.1 (by decide)
  have hcapped := capped_bounds hlow
  unfold reachSquared
  dsimp only
  refine Runs.bind (.scope (runs_mul hhours hspeed ⟨by omega, by omega⟩)) ?_
  intro reach hreach
  have hcap := Term.Carries.constant (a := a) longestReach
  have hdiff : Fits (longestReach - h * s) :=
    ⟨by unfold longestReach; omega, by unfold longestReach; omega⟩
  have hdiff₁ : Fits (h * s - longestReach) :=
    ⟨by unfold longestReach; omega, by unfold longestReach; omega⟩
  refine Runs.bind (.scope (runs_leq hcap hreach (by unfold longestReach; omega)
    (by unfold longestReach; omega) hdiff₁)) ?_
  intro far hfar
  have hclampFits : Fits ((decide (longestReach ≤ h * s)).toInt * (longestReach - h * s)) := by
    cases decide (longestReach ≤ h * s)
    · exact ⟨by simp [Bool.toInt], by simp [Bool.toInt]⟩
    · simpa [Bool.toInt] using hdiff
  refine Runs.bind (.scope (runs_mul hfar (hcap.sub hreach hdiff) hclampFits)) ?_
  intro clamp hclamp
  have hmin := clamp_eq_min (h * s)
  have hsum := hreach.add hclamp (by
    rw [hmin]
    exact ⟨by unfold longestReach; omega, by unfold longestReach; omega⟩)
  rw [hmin] at hsum
  exact .scope (runs_mul hsum hsum ⟨by omega, by omega⟩)

/-- The honest run on integers in range is satisfied, and gives their verdict. -/
theorem runs_enforceLocation {i : LocationInput} {z : LocationVector (Wire Scalar)}
    {p : LocationPolicy} (hz : z.Holds a p.vector) (hi : i.InRange) :
    Runs a (enforceLocation i z) True fun t => t.Carries a (i.verdict p).toInt := by
  obtain ⟨hauthorized, hhas, hblacklisted, hspeed, htolerance, hrequire⟩ := hz
  have hradius := hauthorized.radiusSq.bounds
  have hradius₁ := hblacklisted.radiusSq.bounds
  have htolerance₁ := htolerance.bounds
  have hspeed₁ := hspeed.bounds
  have hspeed₂ : 0 ≤ p.vector.maxSpeed := Int.natCast_nonneg _
  obtain ⟨hc, hd, he, hh, hh₁⟩ := hi
  unfold enforceLocation wideWidth
  dsimp only
  refine Runs.bind (.scope (runs_freshBit rfl)) ?_
  intro present hpresent
  refine Runs.bind (.scope (runs_allocPoint hc)) ?_
  intro current hcurrent
  refine Runs.bind (.scope (runs_allocPoint hd)) ?_
  intro previous hprevious
  refine Runs.bind (.scope (runs_allocPoint he)) ?_
  intro ip hip
  refine Runs.bind (.scope (runs_freshInteger rfl)) ?_
  intro hours hhours
  refine Runs.next (.scope (runs_enforceWidth hhours hh (by omega) (by omega))) ?_
  refine Runs.bind (.scope (runs_distSq hcurrent (q := p.authorized.center)
    ⟨hauthorized.lat.carries, hauthorized.lon.carries⟩)) ?_
  intro fromCenter hfromCenter
  have hcenter := i.current.planeDistSq_le p.authorized.center
  have hcenter₁ := i.current.planeDistSq_nonneg p.authorized.center
  refine Runs.bind (.scope (runs_leq hfromCenter hauthorized.radiusSq.carries (by omega)
    (by omega) ⟨by omega, by omega⟩)) ?_
  intro authorized hauthorized
  refine Runs.bind (.scope (runs_distSq hcurrent
    (q := (p.blacklisted.getD ⟨.origin, 0⟩).center)
    ⟨hblacklisted.lat.carries, hblacklisted.lon.carries⟩)) ?_
  intro fromBlocked hfromBlocked
  have hblocked := i.current.planeDistSq_le (p.blacklisted.getD ⟨.origin, 0⟩).center
  have hblocked₁ := i.current.planeDistSq_nonneg (p.blacklisted.getD ⟨.origin, 0⟩).center
  refine Runs.bind (.scope (runs_leq hfromBlocked hblacklisted.radiusSq.carries (by omega)
    (by omega) ⟨by omega, by omega⟩)) ?_
  intro inside hinside
  have hhas₁ : (Term.ofNumber z.hasBlacklist).Carries a p.blacklisted.isSome.toInt := hhas.carries
  refine Runs.bind (.scope (runs_mul hhas₁ hinside
    (by rw [← toInt_and]; exact fits_toInt _))) ?_
  intro blocked hblocked
  have hnotBlocked : (Term.constant 1 - blocked).Carries a (p.blacklisted.all fun r =>
      decide ((r.radiusSq.toNat : Int) < i.current.planeDistSq r.center)).toInt := by
    have hfits : Fits (p.blacklisted.all fun r =>
      decide ((r.radiusSq.toNat : Int) < i.current.planeDistSq r.center)).toInt := fits_toInt _
    rw [← toInt_notBlacklisted] at hfits ⊢
    exact (Term.Carries.constant 1).sub hblocked hfits
  refine Runs.bind (runs_reachSquared hhours hspeed.carries ⟨hh, hh₁⟩ ⟨hspeed₂, hspeed₁.2⟩) ?_
  intro reachSq hreachSq
  have hreach : 0 ≤ i.travelHours * p.vector.maxSpeed := mul_nonneg hh hspeed₂
  have hcapped := capped_bounds hreach
  have htravel := GeoPoint.planeDistSq_le_of_inBox hc hd
  have htravel₁ := i.current.planeDistSq_nonneg i.previous
  refine Runs.bind (.scope (runs_distSq hcurrent hprevious)) ?_
  intro travelled htravelled
  unfold longestReach at htravel
  refine Runs.bind (.scope (runs_leq htravelled hreachSq (by omega) (by omega)
    ⟨by omega, by omega⟩)) ?_
  intro travelOk htravelOk
  rw [decide_eq_decide.mpr (le_capped_iff hreach (GeoPoint.planeDistSq_le_of_inBox hc hd))]
    at htravelOk
  have hfar := i.current.planeDistSq_le i.ipDerived
  have hfar₁ := i.current.planeDistSq_nonneg i.ipDerived
  refine Runs.bind (.scope (runs_distSq hcurrent hip)) ?_
  intro fromIp hfromIp
  refine Runs.bind (.scope (runs_leq hfromIp htolerance.carries (by omega) (by omega)
    ⟨by omega, by omega⟩)) ?_
  intro ipClose hipClose
  refine Runs.bind (.scope (runs_implies hrequire.carries hipClose)) ?_
  intro ipOk hipOk
  refine .scope ((runs_conjunction (.cons hpresent <| .cons hauthorized <|
    .cons hnotBlocked <| .cons htravelOk <| .cons hipOk .nil)).mono fun t ht => ?_)
  rw [verdict_eq_all]
  exact ht

end R1cs

end AccessContext
