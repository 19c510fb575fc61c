import AccessContext.Bit
import AccessContext.Commitment
import AccessContext.Error

/-!
# Location

The place of an access has to lie in an authorized disk and outside a blacklisted one, within
reach of the place before, and near the place that the network address suggests if the policy
asks for that. Disks are closed: a point on the rim is inside.
-/

namespace AccessContext

/-- What a policy demands of the place of access. -/
structure LocationPolicy where
  authorized : Region
  blacklisted : Option Region
  /-- Hundredths of a degree per hour. -/
  maxSpeed : UInt64
  ipToleranceSq : UInt64
  requireIp : Bool
deriving DecidableEq

/-- The place of the access, the one before, and the one that the address suggests. -/
structure LocationWitness where
  current : GeoPoint
  previous : GeoPoint
  ipDerived : GeoPoint
  travelHours : Int64
deriving DecidableEq

namespace LocationPolicy

open Json in
def codec : Codec LocationPolicy :=
  .record "LocationPolicy"
    (.field "authorized" Region.codec none <|
      .field "blacklisted" Region.codec.nullable (some none) <|
      .field "max_speed_per_hour" .u64 none <| .field "ip_tolerance_radius_sq" .u64 none <|
      .field "require_ip_consistency" .bool (some false) .done)
    (fun (authorized, blacklisted, maxSpeed, ipToleranceSq, requireIp, ()) =>
      ⟨authorized, blacklisted, maxSpeed, ipToleranceSq, requireIp⟩)
    (fun p => (p.authorized, p.blacklisted, p.maxSpeed, p.ipToleranceSq, p.requireIp, ()))

/-- The first center that is no point of the earth. -/
def fault? (p : LocationPolicy) : Option PolicyFault :=
  match p.authorized.center.fault? with
  | some fault => some (.center "location.authorized.center" fault)
  | none =>
    match p.blacklisted.bind fun r => r.center.fault? with
    | some fault => some (.center "location.blacklisted.center" fault)
    | none => none

/-- The parts that the location category contributes to the audit commitment. -/
def proofParts (p : LocationPolicy) (verified : Bool) : List (List UInt8) :=
  [p.authorized.center.toBytes, leBytes 8 p.authorized.radiusSq.toNat, [boolByte verified]]

/-- Binds the authorized region and the verdict. -/
def proofHash (p : LocationPolicy) (verified : Bool) : Digest :=
  commit (utf8 "zkctx/location-proof/v1") (p.proofParts verified)

end LocationPolicy

/-- Whether a point lies in a disk. -/
def Region.contains (region : Region) (point : GeoPoint) : Bit :=
  Bit.leq (point.distSq region.center) region.radiusSq

/-- A natural moved to the nearest word of 128 bits. -/
def saturate128 (n : Nat) : Nat :=
  min n 340282366920938463463374607431768211455

/-- Whether the way from one point to another can be made in some hours, of which negative ones
count as none. -/
def withinReach (current previous : GeoPoint) (hours : Int64) (maxSpeed : UInt64) : Bit :=
  let reach := saturate128 (hours.toInt.toNat * maxSpeed.toNat)
  Bit.leq (current.distSq previous).toNat (saturate128 (reach * reach))

/-- Outcome of each check on the place of access. -/
structure LocationChecks where
  authorized : Bool
  notBlacklisted : Bool
  travelOk : Bool
  ipOk : Bool
  verified : Bool
  proofHash : Digest
deriving DecidableEq

namespace LocationWitness

/-- The first coordinate out of range, or a negative travel time. -/
def fault? (w : LocationWitness) : Option InputFault :=
  match w.current.fault? with
  | some fault => some (.coordinate "location.current" fault)
  | none =>
    match w.previous.fault? with
    | some fault => some (.coordinate "location.previous" fault)
    | none =>
      match w.ipDerived.fault? with
      | some fault => some (.coordinate "location.ip_derived" fault)
      | none => if w.travelHours < 0 then some .negativeTravelTime else none

/-- Whether the place lies outside the blacklisted disk, if there is one. -/
def notBlacklisted (w : LocationWitness) (p : LocationPolicy) : Bit :=
  match p.blacklisted with
  | some region => Bit.lt region.radiusSq (w.current.distSq region.center)
  | none => .one

/-- The checks on a place of access. -/
def checks (w : LocationWitness) (p : LocationPolicy) : LocationChecks :=
  let authorized := p.authorized.contains w.current
  let notBlacklisted := w.notBlacklisted p
  let travelOk := withinReach w.current w.previous w.travelHours p.maxSpeed
  let ipClose := Bit.leq (w.current.distSq w.ipDerived) p.ipToleranceSq
  let ipOk := Bit.ifRequired ipClose p.requireIp
  let verified := (Bit.all [authorized, notBlacklisted, travelOk, ipOk]).toBool
  { authorized := authorized.toBool
    notBlacklisted := notBlacklisted.toBool
    travelOk := travelOk.toBool
    ipOk := ipOk.toBool
    verified
    proofHash := p.proofHash verified }

/-- The checks on a place whose input is well formed. -/
def verify (w : LocationWitness) (p : LocationPolicy) : Except ContextError LocationChecks :=
  match w.fault? with
  | some fault => .error (.invalidInput fault)
  | none => .ok (w.checks p)

end LocationWitness

end AccessContext
