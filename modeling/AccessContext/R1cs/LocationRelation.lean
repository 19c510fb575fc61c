import AccessContext.R1cs.TimeRelation

/-!
# Relation of the location

Recomputes the verdict on a place of access from points that stay private. The way that can be
travelled is capped before it is squared; beyond the cap every pair of points is in reach.
-/

namespace AccessContext.R1cs

open Circuit

/-- The private integers of the location relation. -/
structure LocationInput where
  present : Bool
  current : GeoPoint
  previous : GeoPoint
  ipDerived : GeoPoint
  travelHours : Int
deriving DecidableEq

namespace LocationInput

/-- No place of access. -/
def absent : LocationInput := ⟨false, .origin, .origin, .origin, 0⟩

/-- The integers of a witness. -/
def ofWitness : Option LocationWitness → LocationInput
  | none => absent
  | some w => ⟨true, w.current, w.previous, w.ipDerived, w.travelHours.toInt⟩

end LocationInput

/-- A point whose coordinates are terms. -/
structure PointTerm where
  lat : Term
  lon : Term

/-- Allocates a point and confines it to a box that holds every point of the earth. -/
def allocPoint (p : GeoPoint) : Circuit PointTerm := do
  let lat ← scope "lat" (freshInteger (some p.lat.toInt))
  let lon ← scope "lon" (freshInteger (some p.lon.toInt))
  scope "lat_range" (enforceWidth (lat.addConstant GeoPoint.maxLat.toInt) 15)
  scope "lon_range" (enforceWidth (lon.addConstant GeoPoint.maxLon.toInt) 16)
  return ⟨lat, lon⟩

/-- The squared distance of two points. -/
def distSq (p q : PointTerm) : Circuit Term := do
  let dlat := p.lat - q.lat
  let dlon := p.lon - q.lon
  let dlatSq ← scope "dx2" (mul dlat dlat)
  let dlonSq ← scope "dy2" (mul dlon dlon)
  return dlatSq + dlonSq

/-- The largest way that is told apart from longer ones: 17 bits. -/
def longestReach : Int := 131071

/-- The square of the way that can be travelled, capped. -/
def reachSquared (hours speed : Term) : Circuit Term := do
  let reach ← scope "reach" (mul hours speed)
  let cap := Term.constant longestReach
  let far ← scope "far" (leq cap reach 130)
  let clamp ← scope "clamp" (mul far (cap - reach))
  let capped := reach + clamp
  scope "reach_sq" (mul capped capped)

/-- The verdict on a place of access. -/
def enforceLocation (input : LocationInput) (z : LocationVector (Wire Scalar)) :
    Circuit Term := do
  let policy := z.map Term.ofNumber
  let present ← scope "present" (freshBit (some input.present))
  let current ← scope "current" (allocPoint input.current)
  let previous ← scope "previous" (allocPoint input.previous)
  let ip ← scope "ip" (allocPoint input.ipDerived)
  let hours ← scope "hours" (freshInteger (some input.travelHours))
  scope "hours_range" (enforceWidth hours 64)
  let fromCenter ← scope "d_auth"
    (distSq current ⟨policy.authorized.lat, policy.authorized.lon⟩)
  let authorized ← scope "authorized" (leq fromCenter policy.authorized.radiusSq wideWidth)
  let fromBlocked ← scope "d_blocked"
    (distSq current ⟨policy.blacklisted.lat, policy.blacklisted.lon⟩)
  let insideBlocked ← scope "inside_blocked"
    (leq fromBlocked policy.blacklisted.radiusSq wideWidth)
  let blocked ← scope "blocked" (mul policy.hasBlacklist insideBlocked)
  let notBlocked := .constant 1 - blocked
  let reachSq ← reachSquared hours policy.maxSpeed
  let travelled ← scope "d_travel" (distSq current previous)
  let travelOk ← scope "travel" (leq travelled reachSq 36)
  let fromIp ← scope "d_ip" (distSq current ip)
  let ipClose ← scope "ip_close" (leq fromIp policy.ipToleranceSq wideWidth)
  let ipOk ← scope "ip_selector" (implies policy.requireIp ipClose)
  scope "verdict" (conjunction [present, authorized, notBlocked, travelOk, ipOk])

end AccessContext.R1cs
