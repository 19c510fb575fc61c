import AccessContext.R1cs.PublicVector
import AccessContext.R1cs.System

/-!
# Relation of the signals

The decision rule as constraints: verdicts are bits, the overall verdict is the conjunction of
the required ones, the trust score is the weighted sum rounded down, and the level is met exactly
if the score reaches it. Honest values are computed in words of 64 bits, which wrap; where they
wrap, some constraint fails.
-/

namespace AccessContext.R1cs

open Circuit

/-- The word on a wire. -/
def Wire.word? (w : Wire Scalar) : Option UInt64 :=
  w.value.bind Scalar.toWord?

/-- Enforces that a variable is zero or one. -/
def enforceBit (name : String) (v : Var) : Circuit Unit :=
  enforce (name ++ "_boolean") v (.one - v) 0

/-- The bits of a word. -/
def wordBits (name : String) (word : Option UInt64) (width : Nat) : Circuit (List (Wire Bool)) :=
  bitsFrom (name ++ "_bit_") (fun j => word.map fun w => w.toNat.testBit j) 0 width

/-- A running product: its form and its honest value. -/
structure Product where
  form : LinearForm
  value : Option Scalar

/-- A scalar operation on two values that may be missing. -/
def combineScalars (f : Scalar → Scalar → Scalar) (a b : Option Scalar) : Option Scalar :=
  match a, b with
  | some x, some y => some (f x y)
  | _, _ => none

/-- Multiplies by the complement of each blocked verdict. A verdict is blocked if it is required
and false; the first pair of bit and verdict has number `k`. -/
def unblockedFrom : Nat → Product → List (Wire Bool × Wire Scalar) → Circuit Product
  | _, product, [] => return product
  | k, product, (required, verdict) :: rest => do
    let blockedValue : Option Bool :=
      match required.value, verdict.word? with
      | some r, some v => some (r && v == 0)
      | _, _ => none
    let blocked ← scope ("blocked_" ++ toString k) (number (blockedValue.map Scalar.ofBool))
    enforce ("blocked_" ++ toString k ++ "_def") required (.one - verdict) blocked
    let next ← scope ("and_" ++ toString k)
      (number (combineScalars (fun p b => p * (1 - b)) product.value blocked.value))
    enforce ("and_" ++ toString k ++ "_def") product.form (.one - blocked) next
    unblockedFrom (k + 1) ⟨next, next.value⟩ rest

/-- What the honest prover has left over when the trust score is rounded down. -/
def weightedWord (device time location risk : UInt64) : UInt64 :=
  120 * device + 80 * time + 100 * location + 100 - risk

/-- The slack of the level check: the trust score is at or above the threshold, or below it. -/
def levelSlack (met trust level : UInt64) : UInt64 :=
  let floor := 25 * level
  if met = 1 then trust - floor else floor - trust - 1

/-- Enforces the decision rule on ten signals. -/
def enforceDecision (z : SignalVector (Wire Scalar)) : Circuit Unit := do
  enforceBit "device" z.device.var
  enforceBit "time" z.time.var
  enforceBit "location" z.location.var
  enforceBit "pattern" z.pattern.var
  enforceBit "overall" z.overall.var
  enforceBit "level_met" z.levelMet.var
  let required ← wordBits "mask" z.requirements.word? 4
  equate "mask_decomposition" (binaryForm required) z.requirements
  let product ← unblockedFrom 0 ⟨.one, some 1⟩
    (required.zip [z.device, z.time, z.location, z.pattern])
  equate "overall_is_and" product.form z.overall
  let riskBits ← wordBits "risk" z.risk.word? 7
  equate "risk_range" (binaryForm riskBits) z.risk
  let headroom ← wordBits "risk_headroom" (z.risk.word?.map (100 - ·)) 7
  equate "risk_at_most_100" (binaryForm headroom) (.constant 100 - z.risk)
  let trustBits ← wordBits "trust" z.trust.word? 7
  equate "trust_range" (binaryForm trustBits) z.trust
  let remainder : Option UInt64 :=
    match z.device.word?, z.time.word?, z.location.word?, z.risk.word? with
    | some d, some t, some l, some r => some (weightedWord d t l r % 4)
    | _, _, _, _ => none
  let remainderBits ← wordBits "trust_rem" remainder 2
  equate "trust_score_relation"
    (binaryForm remainderBits + LinearForm.scale 4 z.trust)
    (LinearForm.scale 120 z.device + LinearForm.scale 80 z.time + LinearForm.scale 100 z.location
      + .constant 100 - z.risk)
  let levelBits ← wordBits "level" (z.level.word?.map (· - 1)) 2
  equate "level_range" (binaryForm levelBits) (z.level - .one)
  let gateValue : Option Scalar :=
    match z.levelMet.value, z.trust.value, z.level.value with
    | some m, some t, some l => some (m * (t + t - 50 * l + 1))
    | _, _, _ => none
  let gate ← scope "level_gate_product" (number gateValue)
  enforce "level_gate_product_def" z.levelMet
    (LinearForm.scale 2 z.trust - LinearForm.scale 50 z.level + .one) gate
  let slack : Option UInt64 :=
    match z.levelMet.word?, z.trust.word?, z.level.word? with
    | some m, some t, some l => some (levelSlack m t l)
    | _, _, _ => none
  let slackBits ← wordBits "level_slack" slack 8
  equate "level_gate" (binaryForm slackBits) (gate + LinearForm.scale 25 z.level - z.trust - .one)

/-- The relation of ten signals. -/
def signalRelation : Relation where
  arity := 10
  circuit z :=
    match SignalVector.ofList? z with
    | none => .error .unsatisfiable
    | some signals => .ok do
      enforceDecision signals
      return z

end AccessContext.R1cs
