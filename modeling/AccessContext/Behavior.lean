import AccessContext.Bit
import AccessContext.Commitment
import AccessContext.Error

/-!
# Pattern of behavior

The behavior of a session is compared with a baseline that the policy pins as a commitment. From
the outcome of the checks and from how irregular the timing is, a risk between 0 and 100 is
computed; it stays public, so that trust can fall gradually.
-/

namespace AccessContext

/-- What a policy demands of the behavior. -/
structure PatternPolicy where
  /-- The commitment to the baseline. -/
  commitment : Digest
  minSession : Int64
  maxSession : Int64
  minTyping : UInt32
  maxTyping : UInt32
  /-- Largest mean deviation of the timing, in milliseconds. -/
  maxVariance : UInt64
  /-- The risk has to stay below this. -/
  riskThreshold : UInt8
  requiredConfidence : UInt8
deriving DecidableEq

/-- The behavior of one session. -/
structure BehaviorWitness where
  actions : Vector UInt32 10
  /-- Milliseconds between consecutive actions. -/
  intervals : Vector UInt64 9
  session : Int64
  typing : UInt32
  pointer : UInt32
  frequency : UInt32
  salt : Bytes32
deriving DecidableEq

/-- The largest risk, also given to a session that shows no behavior. -/
def fullRisk : UInt8 := 100

namespace PatternPolicy

open Json in
def codec : Codec PatternPolicy :=
  .record "PatternPolicy"
    (.field "expected_commitment" .hex32 none <| .field "min_session_secs" .i64 none <|
      .field "max_session_secs" .i64 none <| .field "min_typing_speed" .u32 none <|
      .field "max_typing_speed" .u32 none <| .field "max_timing_variance" .u64 none <|
      .field "risk_threshold" .u8 none <| .field "required_confidence" .u8 none .done)
    (fun (commitment, minSession, maxSession, minTyping, maxTyping, maxVariance, riskThreshold,
        requiredConfidence, ()) =>
      ⟨commitment, minSession, maxSession, minTyping, maxTyping, maxVariance, riskThreshold,
        requiredConfidence⟩)
    (fun p => (p.commitment, p.minSession, p.maxSession, p.minTyping, p.maxTyping,
      p.maxVariance, p.riskThreshold, p.requiredConfidence, ()))

/-- The first thing that makes the policy unusable. -/
def fault? (p : PatternPolicy) : Option PolicyFault :=
  if p.maxSession < p.minSession then some .emptySessionBounds
  else if p.maxTyping < p.minTyping then some .emptyTypingBounds
  else if p.maxVariance = 0 then some .zeroVariance
  else if 100 < p.riskThreshold ∨ 100 < p.requiredConfidence then some .notPercentages
  else none

/-- A usable policy leaves room for irregular timing. -/
theorem maxVariance_ne_zero_of_fault? {p : PatternPolicy} (h : p.fault? = none) :
    p.maxVariance ≠ 0 := by
  intro hzero
  rw [fault?, if_pos hzero] at h
  split at h
  · cases h
  · split at h
    · cases h
    · cases h

/-- The parts that the pattern category contributes to the audit commitment. -/
def proofParts (p : PatternPolicy) (verified : Bool) (risk : UInt8) : List (List UInt8) :=
  [p.commitment.toList, leBytes 8 p.maxVariance.toNat, [p.riskThreshold, p.requiredConfidence],
    [boolByte verified, risk]]

/-- Binds the baseline, the thresholds, the verdict and the risk. -/
def proofHash (p : PatternPolicy) (verified : Bool) (risk : UInt8) : Digest :=
  commit (utf8 "zkctx/pattern-proof/v1") (p.proofParts verified risk)

end PatternPolicy

/-- The sum of a list. -/
def total : List Nat → Nat
  | [] => 0
  | n :: ns => n + total ns

/-- The mean of the intervals and their mean distance from it, both rounded down. -/
def meanAndDeviation (intervals : Vector UInt64 9) : UInt64 × UInt64 :=
  let mean := UInt64.ofNat (total (intervals.toList.map UInt64.toNat) / 9)
  let gap (x : UInt64) : Nat := ((x.toNat : Int) - mean.toNat).natAbs
  (mean, UInt64.ofNat (total (intervals.toList.map gap) / 9))

/-- The risk in four fixed parts, for the checks that fail, and up to 30 points in proportion to
the deviation of the timing. -/
def behaviorRisk (patternOk sessionOk typingOk timingOk : Bit) (deviation maxVariance : UInt64) :
    Except ContextError UInt8 :=
  if maxVariance = 0 then .error (.invalidPolicy .zeroVariance)
  else
    let continuous := UInt64.ofNat (min (deviation.toNat * 30 / maxVariance.toNat) 30)
    let risk := 25 * patternOk.not.value + 20 * sessionOk.not.value + 15 * typingOk.not.value
      + 10 * timingOk.not.value + continuous
    if risk ≤ fullRisk.toUInt64 then .ok risk.toUInt8 else .error (.riskOutOfRange risk.toNat)

/-- Outcome of each check on the behavior. -/
structure PatternChecks where
  patternOk : Bool
  sessionOk : Bool
  typingOk : Bool
  timingOk : Bool
  risk : UInt8
  /-- What the risk leaves of 100. -/
  confidence : UInt8
  confidenceOk : Bool
  verified : Bool
  proofHash : Digest
deriving DecidableEq

namespace BehaviorWitness

def fault? (w : BehaviorWitness) : Option InputFault :=
  if w.session < 0 then some .negativeSession else none

/-- The parts of the commitment to a behavior. Timing enters by mean and deviation alone, so
that a baseline bears jitter which keeps them. -/
def commitmentParts (w : BehaviorWitness) : List (List UInt8) :=
  let (mean, deviation) := meanAndDeviation w.intervals
  [w.actions.toList.flatMap fun a => leBytes 4 a.toNat, leBytes 8 mean.toNat,
    leBytes 8 deviation.toNat, leBytes 4 w.typing.toNat, leBytes 4 w.pointer.toNat,
    leBytes 4 w.frequency.toNat, w.salt.toList]

/-- The commitment that a policy pins as a baseline. -/
def commitment (w : BehaviorWitness) : Digest :=
  commit (utf8 "zkctx/behavior-commit/v1") w.commitmentParts

/-- The checks on a behavior. -/
def checks (w : BehaviorWitness) (p : PatternPolicy) : Except ContextError PatternChecks :=
  let patternOk := Bit.digestEq w.commitment p.commitment
  let sessionOk := Bit.between w.session p.minSession p.maxSession
  let typingOk := Bit.between w.typing p.minTyping p.maxTyping
  let deviation := (meanAndDeviation w.intervals).2
  let timingOk := Bit.leq deviation p.maxVariance
  match behaviorRisk patternOk sessionOk typingOk timingOk deviation p.maxVariance with
  | .error e => .error e
  | .ok risk =>
    let belowThreshold := Bit.lt risk p.riskThreshold
    let confidence := fullRisk - risk
    let verified := (Bit.all [patternOk, sessionOk, typingOk, timingOk, belowThreshold]).toBool
    .ok
      { patternOk := patternOk.toBool
        sessionOk := sessionOk.toBool
        typingOk := typingOk.toBool
        timingOk := timingOk.toBool
        risk
        confidence
        confidenceOk := p.requiredConfidence ≤ confidence
        verified
        proofHash := p.proofHash verified risk }

/-- The checks on a behavior whose input is well formed. -/
def verify (w : BehaviorWitness) (p : PatternPolicy) : Except ContextError PatternChecks :=
  match w.fault? with
  | some fault => .error (.invalidInput fault)
  | none => w.checks p

end BehaviorWitness

end AccessContext
