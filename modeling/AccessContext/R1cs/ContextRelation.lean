import AccessContext.R1cs.LocationRelation
import AccessContext.R1cs.PatternRelation
import AccessContext.R1cs.SignalRelation

/-!
# Relation of the context

The relation that ties public signals to a private witness: the signals obey the decision rule,
and the verdicts on time, location and pattern and the risk are the ones that the witness leads
to. The verdict on the device stays a public claim.
-/

namespace AccessContext.R1cs

open Circuit

/-- The private integers of all relations. -/
structure ContextInput where
  time : TimeInput
  location : LocationInput
  pattern : PatternInput
deriving DecidableEq

/-- The integers of a witness under a policy. -/
def ContextInput.ofWitness (w : Witness) (p : Policy) : ContextInput where
  time := .ofWitness p.time w.time
  location := .ofWitness w.location
  pattern := .ofWitness p.pattern w.behavior

/-- Enforces that the signals follow from the input. -/
def enforceContext (input : ContextInput) (z : ContextVector (Wire Scalar)) : Circuit Unit := do
  scope "aggregate" (enforceDecision z.signals)
  let time ← scope "time" (enforceTime input.time z.time)
  let location ← scope "location" (enforceLocation input.location z.location)
  let (pattern, risk) ← scope "pattern" (enforcePattern input.pattern z.pattern)
  equateTerms "time_signal" time (.ofNumber z.signals.time)
  equateTerms "location_signal" location (.ofNumber z.signals.location)
  equateTerms "pattern_signal" pattern (.ofNumber z.signals.pattern)
  equateTerms "risk_signal" risk (.ofNumber z.signals.risk)

/-- The relation of a witness and a public vector. -/
def contextRelation (input : ContextInput) : Relation where
  arity := ContextVector.arity
  circuit z :=
    match ContextVector.ofList? z with
    | none => .error .unsatisfiable
    | some v => .ok do
      enforceContext input v
      return z

end AccessContext.R1cs
