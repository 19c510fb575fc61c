import AccessContext.Signals

/-!
# Decisions

The verdicts of the four categories make one decision: whether every required category passed, a
trust score, whether it reaches the level of the policy, and a commitment for the audit service.
Nothing is clamped; a score out of range is an error.
-/

namespace AccessContext

/-- The public verdicts of the categories, and the risk. -/
structure Verdicts where
  device : Bool
  time : Bool
  location : Bool
  pattern : Bool
  risk : UInt8
deriving DecidableEq

namespace Verdicts

def get (v : Verdicts) : Category → Bool
  | .device => v.device
  | .time => v.time
  | .location => v.location
  | .pattern => v.pattern

end Verdicts

/-- What each category contributes to the audit commitment. -/
structure Contributions where
  device : Digest
  time : Digest
  location : Digest
  pattern : Digest
deriving DecidableEq

/-- The contributions that a policy implies for given verdicts. -/
def Policy.contributions (p : Policy) (nonce : Nonce) (v : Verdicts) : Contributions where
  device := p.device.proofHash nonce v.device
  time := p.time.proofHash v.time
  location := p.location.proofHash v.location
  pattern := p.pattern.proofHash v.pattern v.risk

/-- The summary that is handed out. -/
structure Artifact where
  device : Bool
  time : Bool
  location : Bool
  pattern : Bool
  overall : Bool
  trust : UInt8
  levelMet : Bool
  audit : Digest
deriving DecidableEq

namespace Artifact

def verdict (a : Artifact) : Category → Bool
  | .device => a.device
  | .time => a.time
  | .location => a.location
  | .pattern => a.pattern

/-- The categories that failed, required or not. -/
def failed (a : Artifact) : List Category :=
  Category.all.filter fun c => !a.verdict c

/-- The name under which an audit service files the decision. -/
def reference (a : Artifact) : String :=
  Hex.encode a.audit.toList

open Json in
def codec : Codec Artifact :=
  .record "ProofArtifact"
    (.field "device_verified" .bool none <| .field "timestamp_verified" .bool none <|
      .field "location_verified" .bool none <| .field "pattern_verified" .bool none <|
      .field "overall_valid" .bool none <| .field "trust_score" .u8 none <|
      .field "verification_level_met" .bool none <|
      .field "audit_commitment" .hex32 none .done)
    (fun (device, time, location, pattern, overall, trust, levelMet, audit, ()) =>
      ⟨device, time, location, pattern, overall, trust, levelMet, audit⟩)
    (fun a => (a.device, a.time, a.location, a.pattern, a.overall, a.trust, a.levelMet, a.audit,
      ()))

end Artifact

/-- A category counts if it is required; otherwise it passes. -/
def Requirements.passes (r : Requirements) (c : Category) (verdict : Bool) : Bit :=
  Bit.ifRequired (.ofBool verdict) (r.contains c)

namespace Verdicts

/-- Whether every required category passed. -/
def overall (v : Verdicts) (r : Requirements) : Bool :=
  (Bit.all (Category.all.map fun c => r.passes c (v.get c))).toBool

/-- The trust score: 30, 20 and 25 points for device, time and location, and a quarter of what
the risk leaves of 100, rounded down together. -/
def trust (v : Verdicts) : Except ContextError UInt8 :=
  let risk := v.risk.toUInt64
  if 100 < risk then .error (.riskOutOfRange risk.toNat)
  else
    let word := PublicSignals.boolWord
    let score := (120 * word v.device + 80 * word v.time + 100 * word v.location
      + (100 - risk)) / 4
    if 100 < score then .error (.trustOutOfRange score.toNat) else .ok score.toUInt8

end Verdicts

/-- Whether a trust score reaches a level. -/
def Level.isReached (level : Level) (trust : UInt8) : Bool :=
  (Bit.leq level.minTrust trust).toBool

/-- The parts of the audit commitment. -/
def auditParts (overall : Bool) (trust : UInt8) (access : AccessPolicy) (nonce : Nonce)
    (version : UInt64) (hashes : Contributions) : List (List UInt8) :=
  [[boolByte overall, trust, access.level.number, access.requirements.bits], nonce.bytes,
    leBytes 8 version.toNat, hashes.device.toList, hashes.time.toList, hashes.location.toList,
    hashes.pattern.toList]

/-- Binds the decision, the challenge, the policy version and all categories. -/
def auditDigest (overall : Bool) (trust : UInt8) (access : AccessPolicy) (nonce : Nonce)
    (version : UInt64) (hashes : Contributions) : Digest :=
  commit (utf8 "zkctx/audit/v1") (auditParts overall trust access nonce version hashes)

/-- A decision, as the artifact and as signals. -/
structure Decision where
  artifact : Artifact
  signals : PublicSignals
deriving DecidableEq

namespace Verdicts

/-- The decision that verdicts lead to under an access policy. -/
def decision (v : Verdicts) (hashes : Contributions) (access : AccessPolicy) (nonce : Nonce)
    (version : UInt64) : Except ContextError Decision := do
  let overall := v.overall access.requirements
  let trust ← v.trust
  let levelMet := access.level.isReached trust
  let audit := auditDigest overall trust access nonce version hashes
  return {
    artifact := ⟨v.device, v.time, v.location, v.pattern, overall, trust, levelMet, audit⟩
    signals := ⟨v.device, v.time, v.location, v.pattern, overall, trust, levelMet, access.level,
      access.requirements, v.risk⟩ }

end Verdicts

end AccessContext
