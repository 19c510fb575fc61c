import AccessContext.R1cs.Gadget
import AccessContext.R1cs.PublicVector

/-!
# Relation of the time

Recomputes the verdict on a time of access from integers that stay private: the window, the
distance from the access before, the local hour and the hours of business. How the rolling code
comes about stays outside; the code itself enters as an integer.
-/

namespace AccessContext.R1cs

open Circuit

/-- The private integers of the time relation. -/
structure TimeInput where
  present : Bool
  now : Int
  previous : Int
  offset : Int
  code : Int
deriving DecidableEq

namespace TimeInput

/-- No time of access. -/
def absent : TimeInput := ⟨false, 0, 0, 0, 0⟩

/-- The integers of a witness, with the code for a policy. -/
def ofWitness (p : TimePolicy) : Option TimeWitness → TimeInput
  | none => absent
  | some w => ⟨true, w.current.toInt, w.previous.toInt, w.offset.toInt, (w.code p).toNat⟩

end TimeInput

/-- Width of comparisons between values of 64 bits. -/
def wideWidth : Nat := 66

/-- Width of comparisons between hours, thresholds and other small values. -/
def smallWidth : Nat := 9

/-- Width of times in seconds. -/
def timeWidth : Nat := 38

/-- The hour of the day that starts at a number of seconds, with its parts allocated: a day, the
hour and the seconds after it, each within its range. A day is added first, so that a negative
offset keeps the number of days from being negative. -/
def hourOfDay (now offset : Term) : Circuit Term := do
  let shifted := (now + offset).addConstant secondsPerDay
  let days ← scope "days" (freshInteger (shifted.value.map fun s => s.tdiv secondsPerDay))
  let hour ← scope "hour"
    (freshInteger (shifted.value.map fun s => (s.tmod secondsPerDay).tdiv secondsPerHour))
  let rest ← scope "rest" (freshInteger (shifted.value.map fun s => s.tmod secondsPerHour))
  scope "days_range" (enforceWidth days 32)
  scope "hour_range" (enforceWidth hour 5)
  scope "hour_below_24" (enforceWidth (.constant 23 - hour) 5)
  scope "rest_range" (enforceWidth rest 12)
  scope "rest_below_hour" (enforceWidth (.constant (secondsPerHour - 1) - rest) 12)
  equateTerms "local_time" (days.scale secondsPerDay + hour.scale secondsPerHour + rest) shifted
  return hour

/-- Whether an hour lies between opening and closing, which may wrap past midnight. -/
def enforceHours (hour opens closes required : Term) : Circuit Term := do
  let afterOpening ← scope "after_open" (leq opens hour smallWidth)
  let beforeClosing ← scope "before_close" (lt hour closes smallWidth)
  let sameDay ← scope "same_day" (leq opens closes smallWidth)
  let both ← scope "both" (mul afterOpening beforeClosing)
  let either := afterOpening + beforeClosing - both
  let adjust ← scope "select_window" (mul sameDay (both - either))
  scope "hours_selector" (implies required (either + adjust))

/-- Whether the code is the expected one, if one is required. -/
def enforceCode (code : Int) (expected required : Term) : Circuit Term := do
  let code ← scope "code" (freshInteger (some code))
  scope "code_range" (enforceWidth code 20)
  let equal ← scope "code_matches" (equalBit code expected)
  scope "code_selector" (implies required equal)

/-- The verdict on a time of access. -/
def enforceTime (input : TimeInput) (z : TimeVector (Wire Scalar)) : Circuit Term := do
  let policy := z.map Term.ofNumber
  let present ← scope "present" (freshBit (some input.present))
  let now ← scope "now" (freshInteger (some input.now))
  let previous ← scope "previous" (freshInteger (some input.previous))
  let offset ← scope "offset" (freshInteger (some input.offset))
  let elapsed := now - previous
  scope "now_range" (enforceWidth now timeWidth)
  scope "previous_range" (enforceWidth previous timeWidth)
  scope "elapsed_range" (enforceWidth elapsed timeWidth)
  scope "offset_range" (enforceWidth (offset.addConstant TimeWitness.maxOffset.toInt) 17)
  let afterEarliest ← scope "after_min" (leq policy.earliest now wideWidth)
  let beforeLatest ← scope "before_max" (leq now policy.latest wideWidth)
  let rateOk ← scope "rate_limit" (leq policy.minInterval elapsed wideWidth)
  let hour ← hourOfDay now offset
  let hoursOk ← enforceHours hour policy.opens policy.closes policy.requireHours
  let codeOk ← enforceCode input.code policy.expectedCode policy.requireCode
  scope "verdict" (conjunction [present, afterEarliest, beforeLatest, rateOk, hoursOk, codeOk])

end AccessContext.R1cs
