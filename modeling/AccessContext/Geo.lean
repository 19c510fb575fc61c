import AccessContext.Bytes
import AccessContext.Json.Codec

/-!
# Points and regions

Coordinates count hundredths of a degree. Distances are compared squared in the plane of the
coordinates, and a region is a closed disk given by its squared radius.
-/

namespace AccessContext

/-- A point by latitude and longitude. -/
structure GeoPoint where
  lat : Int32
  lon : Int32
deriving DecidableEq

/-- A coordinate that no point of the earth has. -/
inductive CoordinateFault
  | latitude (value : Int32)
  | longitude (value : Int32)
deriving DecidableEq

namespace GeoPoint

/-- Largest magnitude of a latitude. -/
def maxLat : Int32 := 9000

/-- Largest magnitude of a longitude. -/
def maxLon : Int32 := 18000

def origin : GeoPoint := ⟨0, 0⟩

/-- The first coordinate out of range, latitude before longitude. -/
def fault? (p : GeoPoint) : Option CoordinateFault :=
  if ¬ (-maxLat ≤ p.lat ∧ p.lat ≤ maxLat) then some (.latitude p.lat)
  else if ¬ (-maxLon ≤ p.lon ∧ p.lon ≤ maxLon) then some (.longitude p.lon)
  else none

/-- The distance of two coordinates. -/
def coordinateGap (a b : Int32) : UInt64 :=
  UInt64.ofNat (a.toInt - b.toInt).natAbs

/-- The squared distance, in words of 64 bits. -/
def distSq (p q : GeoPoint) : UInt64 :=
  let dlat := coordinateGap p.lat q.lat
  let dlon := coordinateGap p.lon q.lon
  dlat * dlat + dlon * dlon

/-- Both coordinates as little-endian words. -/
def toBytes (p : GeoPoint) : List UInt8 :=
  leBytes 4 p.lat.toUInt32.toNat ++ leBytes 4 p.lon.toUInt32.toNat

open Json in
def codec : Codec GeoPoint :=
  .record "GeoPoint" (.field "lat" .i32 none <| .field "lon" .i32 none .done)
    (fun (lat, lon, ()) => ⟨lat, lon⟩) (fun p => (p.lat, p.lon, ()))

end GeoPoint

namespace CoordinateFault

def message : CoordinateFault → String
  | latitude value => s!"latitude {value} outside ±{GeoPoint.maxLat}"
  | longitude value => s!"longitude {value} outside ±{GeoPoint.maxLon}"

end CoordinateFault

/-- A closed disk. -/
structure Region where
  center : GeoPoint
  radiusSq : UInt64
deriving DecidableEq

namespace Region

open Json in
def codec : Codec Region :=
  .record "Region" (.field "center" GeoPoint.codec none <| .field "radius_sq" .u64 none .done)
    (fun (center, radiusSq, ()) => ⟨center, radiusSq⟩) (fun r => (r.center, r.radiusSq, ()))

end Region

end AccessContext
