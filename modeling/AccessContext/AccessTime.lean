import AccessContext.Bit
import AccessContext.Commitment
import AccessContext.Error
import AccessContext.Hash.Sha256

/-!
# Time of access

The time of an access has to fall into the policy's window and keep a distance from the access
before. Two more checks count only if the policy asks for them: local business hours, which may
wrap past midnight, and a six-digit code that changes with the time.
-/

namespace AccessContext

/-- What a policy demands of the time of access. -/
structure TimePolicy where
  earliest : Int64
  latest : Int64
  /-- Least number of seconds since the access before. -/
  minInterval : Int64
  /-- Hour at which business opens. -/
  opens : UInt8
  /-- Hour at which business has closed. -/
  closes : UInt8
  codeStep : UInt32
  expectedCode : UInt32
  requireHours : Bool
  requireCode : Bool
deriving DecidableEq

/-- Seconds of the access and the one before, and what makes local time and code. -/
structure TimeWitness where
  current : Int64
  previous : Int64
  offset : Int32
  seed : Bytes32
deriving DecidableEq

namespace TimePolicy

open Json in
def codec : Codec TimePolicy :=
  .record "TimePolicy"
    (.field "min_timestamp" .i64 none <| .field "max_timestamp" .i64 none <|
      .field "min_interval_secs" .i64 none <| .field "business_hours_start" .u8 none <|
      .field "business_hours_end" .u8 none <| .field "rolling_code_step_secs" .u32 none <|
      .field "expected_rolling_code" .u32 none <|
      .field "require_business_hours" .bool (some false) <|
      .field "require_rolling_code" .bool (some false) .done)
    (fun (earliest, latest, minInterval, opens, closes, codeStep, expectedCode, requireHours,
        requireCode, ()) =>
      ⟨earliest, latest, minInterval, opens, closes, codeStep, expectedCode, requireHours,
        requireCode⟩)
    (fun p => (p.earliest, p.latest, p.minInterval, p.opens, p.closes, p.codeStep,
      p.expectedCode, p.requireHours, p.requireCode, ()))

/-- The first thing that makes the policy unusable. -/
def fault? (p : TimePolicy) : Option PolicyFault :=
  if p.latest < p.earliest then some .emptyWindow
  else if p.minInterval < 0 then some .negativeInterval
  else if 23 < p.opens ∨ 24 < p.closes then some (.hoursOutOfRange p.opens p.closes)
  else if p.codeStep = 0 then some .zeroCodeStep
  else none

/-- The parts that the time category contributes to the audit commitment. -/
def proofParts (p : TimePolicy) (verified : Bool) : List (List UInt8) :=
  [leBytes 8 p.earliest.toUInt64.toNat, leBytes 8 p.latest.toUInt64.toNat,
    leBytes 8 p.minInterval.toUInt64.toNat,
    [p.opens, p.closes, boolByte p.requireHours, boolByte p.requireCode],
    leBytes 4 p.codeStep.toNat, leBytes 4 p.expectedCode.toNat, [boolByte verified]]

/-- Binds the policy and the verdict. -/
def proofHash (p : TimePolicy) (verified : Bool) : Digest :=
  commit (utf8 "zkctx/time-proof/v1") (p.proofParts verified)

end TimePolicy

def secondsPerDay : Int := 86400

def secondsPerHour : Int := 3600

/-- The number of the step that a time falls into, rounded down. -/
def stepNumber (time : Int64) (step : UInt32) : Int64 :=
  .ofInt (time.toInt / max step.toNat 1)

/-- Six digits from a seed for one step: four bytes of a hash, from a place that its last byte
names, without their top bit. -/
def codeAt (seed : Bytes32) (step : Int64) : UInt32 :=
  let hash := (sha256 (utf8 "zkctx/rolling-code/v1" ++ seed.toList
    ++ beBytes 8 step.toUInt64.toNat)).toList
  let place := (hash.getD 31 0).toNat % 16
  UInt32.ofNat (ofBeBytes ((hash.drop place).take 4) % 2147483648 % 1000000)

/-- The hour of the day where clocks differ by `offset` seconds. -/
def clockHour (time : Int64) (offset : Int32) : UInt8 :=
  UInt8.ofNat ((time.toInt + offset.toInt) % secondsPerDay / secondsPerHour).toNat

/-- Whether an hour lies in the half-open range, which wraps past midnight if it opens later
than it closes. -/
def withinHours (hour opens closes : UInt8) : Bit :=
  let afterOpening := Bit.leq opens hour
  let beforeClosing := Bit.lt hour closes
  (Bit.leq opens closes).ite (afterOpening.and beforeClosing) (afterOpening.or beforeClosing)

/-- An integer moved to the nearest word of 64 bits. -/
def saturate64 (n : Int) : Int64 :=
  if n < Int64.minValue.toInt then Int64.minValue
  else if Int64.maxValue.toInt < n then Int64.maxValue
  else .ofInt n

/-- Outcome of each check on the time of access. -/
structure TimeChecks where
  inWindow : Bool
  rateLimitOk : Bool
  hoursOk : Bool
  codeOk : Bool
  verified : Bool
  proofHash : Digest
deriving DecidableEq

namespace TimeWitness

/-- The last second of the year 9999. -/
def maxTime : Int64 := 253402300799

/-- Fourteen hours in seconds. -/
def maxOffset : Int32 := 50400

/-- The first thing wrong with the input. -/
def fault? (w : TimeWitness) : Option InputFault :=
  if w.current < 0 then some .currentBeforeEpoch
  else if maxTime < w.current then some (.currentTooLate maxTime)
  else if w.previous < 0 then some .previousBeforeEpoch
  else if w.current < w.previous then some .previousAfterCurrent
  else if maxOffset < w.offset.abs then some (.offsetTooLarge w.offset maxOffset)
  else none

/-- The code of the step that the access falls into. -/
def code (w : TimeWitness) (p : TimePolicy) : UInt32 :=
  codeAt w.seed (stepNumber w.current p.codeStep)

/-- The checks on a time of access. -/
def checks (w : TimeWitness) (p : TimePolicy) : TimeChecks :=
  let inWindow := Bit.between w.current p.earliest p.latest
  let elapsed := saturate64 (w.current.toInt - w.previous.toInt)
  let rateLimitOk := Bit.leq p.minInterval elapsed
  let hour := clockHour w.current w.offset
  let hoursOk := Bit.ifRequired (withinHours hour p.opens p.closes) p.requireHours
  let codeOk := Bit.ifRequired (.ofBool (w.code p = p.expectedCode)) p.requireCode
  let verified := (Bit.all [inWindow, rateLimitOk, hoursOk, codeOk]).toBool
  { inWindow := inWindow.toBool
    rateLimitOk := rateLimitOk.toBool
    hoursOk := hoursOk.toBool
    codeOk := codeOk.toBool
    verified
    proofHash := p.proofHash verified }

/-- The checks on a time whose input is well formed. -/
def verify (w : TimeWitness) (p : TimePolicy) : Except ContextError TimeChecks :=
  match w.fault? with
  | some fault => .error (.invalidInput fault)
  | none => .ok (w.checks p)

end TimeWitness

end AccessContext
