import AccessContext.R1cs.TimeRelation

/-!
# Relation of the pattern

Recomputes the verdict on a behavior and its risk from integers that stay private: mean and
deviation of the timing, the ranges of session and typing, and the weighted risk. Whether the
behavior matches the pinned commitment enters as a bit.
-/

namespace AccessContext.R1cs

open Circuit

/-- The private integers of the pattern relation. -/
structure PatternInput where
  present : Bool
  baselineMatches : Bool
  session : Int
  typing : Int
  intervals : Vector Int 9
deriving DecidableEq

namespace PatternInput

/-- No behavior. -/
def absent : PatternInput := ⟨false, false, 0, 0, Vector.replicate 9 0⟩

/-- The integers of a witness, compared with the baseline of a policy. -/
def ofWitness (p : PatternPolicy) : Option BehaviorWitness → PatternInput
  | none => absent
  | some w =>
    ⟨true, decide (w.commitment = p.commitment), w.session.toInt, w.typing.toNat,
      w.intervals.map fun x => x.toNat⟩

end PatternInput

/-- The number of intervals. -/
def intervalCount : Int := 9

/-- Most that irregular timing adds to the risk. -/
def timingWeight : Int := 30

/-- Whether a term lies between two others; `name` tells the checks apart. -/
def enforceRange (name : String) (x low high : Term) : Circuit Term := do
  let aboveLow ← scope (name ++ "_min") (leq low x wideWidth)
  let belowHigh ← scope (name ++ "_max") (leq x high wideWidth)
  scope (name ++ "_ok") (conjunction [aboveLow, belowHigh])

/-- Allocates intervals, the first of them with number `k`. -/
def allocIntervals : Nat → List Int → Circuit (List Term)
  | _, [] => return []
  | k, value :: values => do
    let x ← scope ("interval_" ++ toString k) (freshInteger (some value))
    scope ("interval_" ++ toString k ++ "_range") (enforceWidth x 64)
    let rest ← allocIntervals (k + 1) values
    return x :: rest

/-- Adds the distances of terms from a mean to `acc`; the first term has number `k`. With `c` the
bit that the difference `d` is not negative, its magnitude is `2cd - d`. -/
def addDistances (mean : Term) : Nat → Term → List Term → Circuit Term
  | _, acc, [] => return acc
  | k, acc, x :: rest => do
    let delta := x - mean
    let above ← scope ("above_" ++ toString k) (leq mean x wideWidth)
    let gated ← scope ("abs_" ++ toString k) (mul above delta)
    addDistances mean (k + 1) (acc + (gated.scale 2 - delta)) rest

/-- The mean distance of intervals from their mean, both rounded down. -/
def meanDeviation (intervals : List Term) : Circuit Term := do
  let sum := intervals.foldl (· + ·) (.constant 0)
  let mean ← scope "mean" (divideDown sum intervalCount)
  let total ← addDistances mean 0 (.constant 0) intervals
  scope "mad" (divideDown total intervalCount)

/-- The share of the risk that grows with the deviation: `30 * deviation / maxVariance` rounded
down, and at most 30. -/
def timingRisk (deviation maxVariance : Term) : Circuit Term := do
  let weighted := deviation.scale timingWeight
  let divided (f : Int → Int → Int) : Option Int :=
    combine (fun n d => if d = 0 then none else signed128? (f n d)) weighted.value
      maxVariance.value
  let quotient ← scope "quotient" (freshInteger (divided Int.tdiv))
  let rem ← scope "rem" (freshInteger (divided Int.tmod))
  scope "quotient_range" (enforceWidth quotient 70)
  scope "rem_range" (enforceWidth rem 64)
  scope "rem_below_divisor" (enforceWidth ((maxVariance - rem).addConstant (-1)) 64)
  let product ← scope "divided" (mul maxVariance quotient)
  equateTerms "variance_division" (product + rem) weighted
  let weight := Term.constant timingWeight
  let saturated ← scope "saturated" (leq weight quotient 72)
  let clamp ← scope "clamp" (mul saturated (weight - quotient))
  return quotient + clamp

/-- The verdict on a behavior, and the risk; without a behavior the risk is the largest. -/
def enforcePattern (input : PatternInput) (z : PatternVector (Wire Scalar)) :
    Circuit (Term × Term) := do
  let policy := z.map Term.ofNumber
  let present ← scope "present" (freshBit (some input.present))
  let baselineOk ← scope "matches" (freshBit (some input.baselineMatches))
  let session ← scope "session" (freshInteger (some input.session))
  let typing ← scope "typing" (freshInteger (some input.typing))
  scope "session_range" (enforceWidth session 64)
  scope "typing_range" (enforceWidth typing 32)
  let sessionOk ← enforceRange "session" session policy.minSession policy.maxSession
  let typingOk ← enforceRange "typing" typing policy.minTyping policy.maxTyping
  let intervals ← allocIntervals 0 input.intervals.toList
  let deviation ← meanDeviation intervals
  let timingOk ← scope "timing_ok" (leq deviation policy.maxVariance wideWidth)
  let continuous ← timingRisk deviation policy.maxVariance
  let risk := .constant (25 + 20 + 15 + 10) - baselineOk.scale 25 - sessionOk.scale 20
    - typingOk.scale 15 - timingOk.scale 10 + continuous
  let below ← scope "below_threshold" (lt risk policy.riskThreshold smallWidth)
  let verdict ← scope "verdict"
    (conjunction [present, baselineOk, sessionOk, typingOk, timingOk, below])
  let largest := Term.constant fullRisk.toNat
  let gated ← scope "risk_present" (mul present (risk - largest))
  return (verdict, largest + gated)

end AccessContext.R1cs
