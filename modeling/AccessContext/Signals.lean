import AccessContext.Policy.Basic

/-!
# Public signals

What a proof says in public, as ten words in a fixed order. Reading the words accepts exactly
what writing signals with known requirements produces.
-/

namespace AccessContext

/-- The public outcome of a request. -/
structure PublicSignals where
  device : Bool
  time : Bool
  location : Bool
  pattern : Bool
  overall : Bool
  trust : UInt8
  levelMet : Bool
  level : Level
  requirements : Requirements
  risk : UInt8
deriving DecidableEq

namespace PublicSignals

/-- A truth value as a word. -/
def boolWord (b : Bool) : UInt64 :=
  if b then 1 else 0

/-- The ten words. -/
def toList (s : PublicSignals) : List UInt64 :=
  [boolWord s.device, boolWord s.time, boolWord s.location, boolWord s.pattern,
    boolWord s.overall, s.trust.toUInt64, boolWord s.levelMet, s.level.number.toUInt64,
    s.requirements.bits.toUInt64, s.risk.toUInt64]

/-- The bytes that a statement hashes. -/
def toBytes (s : PublicSignals) : List UInt8 :=
  s.toList.flatMap fun word => leBytes 8 word.toNat

/-- A word that stands for a truth value. -/
def readBool (index : Nat) (word : UInt64) : Except ContextError Bool :=
  if word = 0 then .ok false
  else if word = 1 then .ok true
  else .error (.malformedProof (.notBoolean index word))

/-- A word that fits into a byte. -/
def readByte (index : Nat) (word : UInt64) : Except ContextError UInt8 :=
  if word < 256 then .ok word.toUInt8 else .error (.malformedProof (.outOfRange index word))

/-- A word that stands for requirements without unknown bits. -/
def readRequirements (word : UInt64) : Except ContextError Requirements := do
  let bits ← readByte 8 word
  if (Requirements.mk bits).isKnown then return ⟨bits⟩
  else throw (.malformedProof (.unknownRequirements word))

/-- The signals that ten words stand for. The requirements are read first, then the words in
their order. -/
def ofList : List UInt64 → Except ContextError PublicSignals
  | [device, time, location, pattern, overall, trust, levelMet, level, requirements, risk] => do
    let requirements ← readRequirements requirements
    let device ← readBool 0 device
    let time ← readBool 1 time
    let location ← readBool 2 location
    let pattern ← readBool 3 pattern
    let overall ← readBool 4 overall
    let trust ← readByte 5 trust
    let levelMet ← readBool 6 levelMet
    let number ← readByte 7 level
    let level ← AccessPolicy.levelOfNumber number
    let risk ← readByte 9 risk
    return ⟨device, time, location, pattern, overall, trust, levelMet, level, requirements, risk⟩
  | words => throw (.malformedProof (.signalCount words.length))

open Json in
def codec : Codec PublicSignals :=
  .record "PublicSignals"
    (.field "device" .bool none <| .field "time" .bool none <| .field "location" .bool none <|
      .field "pattern" .bool none <| .field "overall" .bool none <|
      .field "trust_score" .u8 none <| .field "level_met" .bool none <|
      .field "level" AccessPolicy.levelCodec none <|
      .field "mask" AccessPolicy.requirementsCodec none <| .field "risk_score" .u8 none .done)
    (fun (device, time, location, pattern, overall, trust, levelMet, level, requirements, risk,
        ()) =>
      ⟨device, time, location, pattern, overall, trust, levelMet, level, requirements, risk⟩)
    (fun s => (s.device, s.time, s.location, s.pattern, s.overall, s.trust, s.levelMet, s.level,
      s.requirements, s.risk, ()))

end PublicSignals

end AccessContext
