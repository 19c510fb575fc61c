import AccessContext.Proof.Seal
import AccessContext.R1cs.Scalar

/-!
# Public vectors

The numbers that both sides of a relation know: the ten signals, the policy parameters that the
relation reads, and a number that binds the statement. A vector is a record over any kind of
number, so that integers, scalars and variables are told apart by type and not by place; its
list form has the same order for all of them.
-/

namespace AccessContext.R1cs

/-- The ten public signals. -/
structure SignalVector (α : Type) where
  device : α
  time : α
  location : α
  pattern : α
  overall : α
  trust : α
  levelMet : α
  level : α
  requirements : α
  risk : α
deriving DecidableEq

namespace SignalVector

def toList {α : Type} (v : SignalVector α) : List α :=
  [v.device, v.time, v.location, v.pattern, v.overall, v.trust, v.levelMet, v.level,
    v.requirements, v.risk]

/-- Ten numbers and the rest of a list. -/
def take? {α : Type} : List α → Option (SignalVector α × List α)
  | device :: time :: location :: pattern :: overall :: trust :: levelMet :: level ::
      requirements :: risk :: rest =>
    some (⟨device, time, location, pattern, overall, trust, levelMet, level, requirements, risk⟩,
      rest)
  | _ => none

def ofList? {α : Type} (l : List α) : Option (SignalVector α) :=
  match take? l with
  | some (v, []) => some v
  | _ => none

def map {α β : Type} (f : α → β) (v : SignalVector α) : SignalVector β :=
  ⟨f v.device, f v.time, f v.location, f v.pattern, f v.overall, f v.trust, f v.levelMet,
    f v.level, f v.requirements, f v.risk⟩

@[simp] theorem ofList?_toList {α : Type} (v : SignalVector α) : ofList? v.toList = some v := rfl

end SignalVector

/-- What the time relation reads of a policy. -/
structure TimeVector (α : Type) where
  earliest : α
  latest : α
  minInterval : α
  opens : α
  closes : α
  requireHours : α
  requireCode : α
  expectedCode : α
deriving DecidableEq

namespace TimeVector

def toList {α : Type} (v : TimeVector α) : List α :=
  [v.earliest, v.latest, v.minInterval, v.opens, v.closes, v.requireHours, v.requireCode,
    v.expectedCode]

/-- Eight numbers and the rest of a list. -/
def take? {α : Type} : List α → Option (TimeVector α × List α)
  | earliest :: latest :: minInterval :: opens :: closes :: requireHours :: requireCode ::
      expectedCode :: rest =>
    some (⟨earliest, latest, minInterval, opens, closes, requireHours, requireCode,
      expectedCode⟩, rest)
  | _ => none

def map {α β : Type} (f : α → β) (v : TimeVector α) : TimeVector β :=
  ⟨f v.earliest, f v.latest, f v.minInterval, f v.opens, f v.closes, f v.requireHours,
    f v.requireCode, f v.expectedCode⟩

end TimeVector

/-- A disk by its center and squared radius. -/
structure DiskVector (α : Type) where
  lat : α
  lon : α
  radiusSq : α
deriving DecidableEq

namespace DiskVector

def toList {α : Type} (v : DiskVector α) : List α :=
  [v.lat, v.lon, v.radiusSq]

def map {α β : Type} (f : α → β) (v : DiskVector α) : DiskVector β :=
  ⟨f v.lat, f v.lon, f v.radiusSq⟩

end DiskVector

/-- What the location relation reads of a policy. -/
structure LocationVector (α : Type) where
  authorized : DiskVector α
  /-- Whether there is a blacklisted disk; if not, the next one is of no account. -/
  hasBlacklist : α
  blacklisted : DiskVector α
  maxSpeed : α
  ipToleranceSq : α
  requireIp : α
deriving DecidableEq

namespace LocationVector

def toList {α : Type} (v : LocationVector α) : List α :=
  v.authorized.toList ++ v.hasBlacklist :: v.blacklisted.toList
    ++ [v.maxSpeed, v.ipToleranceSq, v.requireIp]

/-- Ten numbers and the rest of a list. -/
def take? {α : Type} : List α → Option (LocationVector α × List α)
  | lat :: lon :: radiusSq :: hasBlacklist :: lat₁ :: lon₁ :: radiusSq₁ :: maxSpeed ::
      ipToleranceSq :: requireIp :: rest =>
    some (⟨⟨lat, lon, radiusSq⟩, hasBlacklist, ⟨lat₁, lon₁, radiusSq₁⟩, maxSpeed, ipToleranceSq,
      requireIp⟩, rest)
  | _ => none

def map {α β : Type} (f : α → β) (v : LocationVector α) : LocationVector β :=
  ⟨v.authorized.map f, f v.hasBlacklist, v.blacklisted.map f, f v.maxSpeed, f v.ipToleranceSq,
    f v.requireIp⟩

end LocationVector

/-- What the pattern relation reads of a policy. -/
structure PatternVector (α : Type) where
  minSession : α
  maxSession : α
  minTyping : α
  maxTyping : α
  maxVariance : α
  riskThreshold : α
deriving DecidableEq

namespace PatternVector

def toList {α : Type} (v : PatternVector α) : List α :=
  [v.minSession, v.maxSession, v.minTyping, v.maxTyping, v.maxVariance, v.riskThreshold]

/-- Six numbers and the rest of a list. -/
def take? {α : Type} : List α → Option (PatternVector α × List α)
  | minSession :: maxSession :: minTyping :: maxTyping :: maxVariance :: riskThreshold :: rest =>
    some (⟨minSession, maxSession, minTyping, maxTyping, maxVariance, riskThreshold⟩, rest)
  | _ => none

def map {α β : Type} (f : α → β) (v : PatternVector α) : PatternVector β :=
  ⟨f v.minSession, f v.maxSession, f v.minTyping, f v.maxTyping, f v.maxVariance,
    f v.riskThreshold⟩

end PatternVector

/-- Signals, policy parameters and binding of one statement. -/
structure ContextVector (α : Type) where
  signals : SignalVector α
  time : TimeVector α
  location : LocationVector α
  pattern : PatternVector α
  binding : α
deriving DecidableEq

namespace ContextVector

/-- The length of the list form. -/
def arity : Nat := 35

def toList {α : Type} (v : ContextVector α) : List α :=
  v.signals.toList ++ v.time.toList ++ v.location.toList ++ v.pattern.toList ++ [v.binding]

def ofList? {α : Type} (l : List α) : Option (ContextVector α) := do
  let (signals, l) ← SignalVector.take? l
  let (time, l) ← TimeVector.take? l
  let (location, l) ← LocationVector.take? l
  let (pattern, l) ← PatternVector.take? l
  match l with
  | [binding] => some ⟨signals, time, location, pattern, binding⟩
  | _ => none

@[simp] theorem ofList?_toList {α : Type} (v : ContextVector α) : ofList? v.toList = some v := rfl

theorem length_toList {α : Type} (v : ContextVector α) : v.toList.length = arity := rfl

end ContextVector

end AccessContext.R1cs

/-! ### Statements as vectors -/

namespace AccessContext

open R1cs

/-- The signals as integers. -/
def PublicSignals.vector (s : PublicSignals) : SignalVector Int where
  device := s.device.toInt
  time := s.time.toInt
  location := s.location.toInt
  pattern := s.pattern.toInt
  overall := s.overall.toInt
  trust := s.trust.toNat
  levelMet := s.levelMet.toInt
  level := s.level.number.toNat
  requirements := s.requirements.bits.toNat
  risk := s.risk.toNat

def TimePolicy.vector (p : TimePolicy) : TimeVector Int where
  earliest := p.earliest.toInt
  latest := p.latest.toInt
  minInterval := p.minInterval.toInt
  opens := p.opens.toNat
  closes := p.closes.toNat
  requireHours := p.requireHours.toInt
  requireCode := p.requireCode.toInt
  expectedCode := p.expectedCode.toNat

def Region.vector (r : Region) : DiskVector Int where
  lat := r.center.lat.toInt
  lon := r.center.lon.toInt
  radiusSq := r.radiusSq.toNat

/-- A missing blacklist is a disk of radius zero about the origin, and marked as missing. -/
def LocationPolicy.vector (p : LocationPolicy) : LocationVector Int where
  authorized := p.authorized.vector
  hasBlacklist := p.blacklisted.isSome.toInt
  blacklisted := (p.blacklisted.getD ⟨.origin, 0⟩).vector
  maxSpeed := p.maxSpeed.toNat
  ipToleranceSq := p.ipToleranceSq.toNat
  requireIp := p.requireIp.toInt

def PatternPolicy.vector (p : PatternPolicy) : PatternVector Int where
  minSession := p.minSession.toInt
  maxSession := p.maxSession.toInt
  minTyping := p.minTyping.toNat
  maxTyping := p.maxTyping.toNat
  maxVariance := p.maxVariance.toNat
  riskThreshold := p.riskThreshold.toNat

/-- The first 24 bytes of a digest as three words, the first of them the most significant. -/
def bindingNumber (hash : Digest) : Nat :=
  let word (place : Nat) : Nat := ofLeBytes ((hash.toList.drop place).take 8)
  (word 0 * UInt64.size + word 8) * UInt64.size + word 16

namespace Statement

/-- The public vector of a statement. -/
def publicVector (s : Statement) : ContextVector Scalar :=
  let p := s.snapshot.policy
  { signals := s.signals.vector.map .ofInt
    time := p.time.vector.map .ofInt
    location := p.location.vector.map .ofInt
    pattern := p.pattern.vector.map .ofInt
    binding := .ofNat (bindingNumber s.hash) }

end Statement

end AccessContext
