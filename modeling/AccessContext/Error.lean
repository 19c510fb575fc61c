import AccessContext.Geo
import AccessContext.Json.Fault
import AccessContext.Requirements

/-!
# Errors

A context that does not satisfy its policy is no error but a decision. Errors are what stops a
request: input that is malformed, a policy that cannot be used, a proof that does not hold
together. Every error is a cause; its wording is a function of the cause.
-/

namespace AccessContext

/-- What is wrong with the private input of a request. -/
inductive InputFault
  | blankFingerprint
  | currentBeforeEpoch
  | currentTooLate (latest : Int64)
  | previousBeforeEpoch
  | previousAfterCurrent
  | offsetTooLarge (offset limit : Int32)
  | coordinate (field : String) (fault : CoordinateFault)
  | negativeTravelTime
  | negativeSession
deriving DecidableEq

namespace InputFault

/-- The field at fault. -/
def field : InputFault → String
  | blankFingerprint => "device.fingerprint"
  | currentBeforeEpoch | currentTooLate _ => "time.current_timestamp"
  | previousBeforeEpoch | previousAfterCurrent => "time.previous_timestamp"
  | offsetTooLarge _ _ => "time.timezone_offset_secs"
  | coordinate field _ => field
  | negativeTravelTime => "location.travel_time_hours"
  | negativeSession => "pattern.session_duration_secs"

def reason : InputFault → String
  | blankFingerprint => "empty or whitespace-only fingerprint"
  | currentBeforeEpoch | previousBeforeEpoch => "timestamp before the unix epoch"
  | currentTooLate latest => s!"timestamp beyond {latest}"
  | previousAfterCurrent => "previous access is after the current one (negative interval)"
  | offsetTooLarge offset limit => s!"offset {offset} beyond ±{limit}"
  | coordinate _ fault => fault.message
  | negativeTravelTime => "negative travel time"
  | negativeSession => "negative session duration"

end InputFault

/-- What makes a policy unusable. -/
inductive PolicyFault
  | emptyWindow
  | negativeInterval
  | hoursOutOfRange (opens closes : UInt8)
  | zeroCodeStep
  | center (field : String) (fault : CoordinateFault)
  | emptySessionBounds
  | emptyTypingBounds
  | zeroVariance
  | notPercentages
  | unknownRequirements (bits : UInt8)
  | levelOutOfRange (number : UInt8)
deriving DecidableEq

namespace PolicyFault

/-- The field at fault. -/
def field : PolicyFault → String
  | emptyWindow => "time.min_timestamp"
  | negativeInterval => "time.min_interval_secs"
  | hoursOutOfRange _ _ => "time.business_hours"
  | zeroCodeStep => "time.rolling_code_step_secs"
  | center field _ => field
  | emptySessionBounds => "pattern.session_bounds"
  | emptyTypingBounds => "pattern.typing_bounds"
  | zeroVariance => "pattern.max_timing_variance"
  | notPercentages => "pattern.risk_threshold"
  | unknownRequirements _ => "access.requirements"
  | levelOutOfRange _ => "access.level"

def reason : PolicyFault → String
  | emptyWindow => "allowed range is empty (min > max)"
  | negativeInterval => "negative interval"
  | hoursOutOfRange opens closes => s!"hours {opens}..{closes} outside 0..=24"
  | zeroCodeStep => "step must be non-zero"
  | center _ fault => fault.message
  | emptySessionBounds | emptyTypingBounds => "min > max"
  | zeroVariance => "must be non-zero"
  | notPercentages => "risk threshold and confidence are percentages"
  | unknownRequirements bits =>
    "unknown requirement bits " ++ Requirements.binaryText bits.toNat
  | levelOutOfRange number => s!"verification level {number} outside 1..=4"

end PolicyFault

/-- Why a proof is rejected. -/
inductive ProofFault
  | signalCount (count : Nat)
  | notBoolean (index : Nat) (value : UInt64)
  | outOfRange (index : Nat) (value : UInt64)
  | unknownRequirements (bits : UInt64)
  | accessDiffers
  | relationViolated
  | artifactDiffers
  | sealRejected (backend : String)
deriving DecidableEq

namespace ProofFault

/-- How many public signals a proof carries. -/
def wantedSignals : Nat := 10

def reason : ProofFault → String
  | signalCount count => s!"expected {wantedSignals} public signals, got {count}"
  | notBoolean index value => s!"signal {index} is not boolean: {value}"
  | outOfRange index value => s!"signal {index} out of range: {value}"
  | unknownRequirements bits =>
    "unknown requirement bits: " ++ Requirements.binaryText bits.toNat
  | accessDiffers => "access policy in signals differs from snapshot"
  | relationViolated => "public signals violate the aggregator relation"
  | artifactDiffers => "artifact does not match public signals"
  | sealRejected backend => backend ++ " backend rejected the proof"

end ProofFault

/-- Whether the caller's request is at fault, or something that repeating it cannot change. -/
inductive ErrorClass
  | invalidInput
  | structural
deriving DecidableEq

/-- What stops a request. -/
inductive ContextError
  | invalidInput (fault : InputFault)
  | missingContext (category : Category)
  | blankNonce
  | invalidPolicy (fault : PolicyFault)
  | versionMismatch (expected found : UInt64)
  | trustOutOfRange (score : Nat)
  | riskOutOfRange (score : Nat)
  | malformedProof (fault : ProofFault)
  | unknownPolicy (key : String)
  | badDocument (fault : Json.Fault)
deriving DecidableEq

namespace ContextError

def message : ContextError → String
  | invalidInput fault => "Invalid input `" ++ fault.field ++ "`: " ++ fault.reason
  | missingContext category => "Missing required context: " ++ category.name
  | blankNonce => "Invalid challenge nonce: must be non-empty"
  | invalidPolicy fault => "Invalid policy `" ++ fault.field ++ "`: " ++ fault.reason
  | versionMismatch expected found =>
    s!"Policy version mismatch: witness built for {found}, snapshot is {expected}"
  | trustOutOfRange score => s!"Trust score {score} outside [0, 100]"
  | riskOutOfRange score => s!"Risk score {score} outside [0, 100]"
  | malformedProof fault => "Malformed proof: " ++ fault.reason
  | unknownPolicy key => "Unknown policy: " ++ key
  | badDocument fault => "Policy config error: " ++ fault.message

/-- Malformed input, a missing category and a blank challenge are the caller's; all else is
structural. -/
def errorClass : ContextError → ErrorClass
  | invalidInput _ | missingContext _ | blankNonce => .invalidInput
  | _ => .structural

end ContextError

/-! ### Chains of steps that may fail -/

section Except

variable {ε α β : Type}

theorem bind_eq_ok_iff {x : Except ε α} {f : α → Except ε β} {b : β} :
    (x >>= f) = .ok b ↔ ∃ a, x = .ok a ∧ f a = .ok b := by
  cases x with
  | error e => simp [bind, Except.bind]
  | ok a => simp [bind, Except.bind]

theorem bind_eq_error_iff {x : Except ε α} {f : α → Except ε β} {e : ε} :
    (x >>= f) = .error e ↔ x = .error e ∨ ∃ a, x = .ok a ∧ f a = .error e := by
  cases x with
  | error e' => simp [bind, Except.bind]
  | ok a => simp [bind, Except.bind]

theorem ok_bind (a : α) (f : α → Except ε β) : (Except.ok a >>= f) = f a :=
  rfl

theorem error_bind (e : ε) (f : α → Except ε β) : (Except.error e >>= f) = .error e :=
  rfl

end Except

end AccessContext
