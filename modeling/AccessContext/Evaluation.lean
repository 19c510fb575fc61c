import AccessContext.Decision
import AccessContext.Witness

/-!
# Evaluation

A request is evaluated against one snapshot: input errors come first and in a fixed order, then
the checks of every category that is present, then the decision. A category that is absent fails,
and an absent pattern carries the largest risk. A policy that is not satisfied is no error.
-/

namespace AccessContext

/-- The outcome of every check, which stays with the prover, and the decision. -/
structure Evaluation where
  device : Option DeviceChecks
  time : Option TimeChecks
  location : Option LocationChecks
  pattern : Option PatternChecks
  decision : Decision
deriving DecidableEq

/-- The outcome of a category that may be absent. -/
def ifPresent {α β : Type} (part : Option α) (verify : α → Except ContextError β) :
    Except ContextError (Option β) :=
  match part with
  | none => .ok none
  | some a => (verify a).map some

/-- Verdicts of the checks that were made. -/
def Verdicts.ofChecks (device : Option DeviceChecks) (time : Option TimeChecks)
    (location : Option LocationChecks) (pattern : Option PatternChecks) : Verdicts where
  device := device.any DeviceChecks.verified
  time := time.any TimeChecks.verified
  location := location.any LocationChecks.verified
  pattern := pattern.any PatternChecks.verified
  risk := (pattern.map PatternChecks.risk).getD fullRisk

/-- Contributions of the checks that were made; an absent category contributes its failure. -/
def Contributions.ofChecks (p : Policy) (nonce : Nonce) (device : Option DeviceChecks)
    (time : Option TimeChecks) (location : Option LocationChecks)
    (pattern : Option PatternChecks) : Contributions where
  device := (device.map DeviceChecks.proofHash).getD (p.device.proofHash nonce false)
  time := (time.map TimeChecks.proofHash).getD (p.time.proofHash false)
  location := (location.map LocationChecks.proofHash).getD (p.location.proofHash false)
  pattern := (pattern.map PatternChecks.proofHash).getD (p.pattern.proofHash false fullRisk)

namespace Witness

/-- A witness gathered for a policy version is only good for that version. -/
def checkVersion (w : Witness) (s : Snapshot) : Except ContextError Unit :=
  match w.policyVersion with
  | some found =>
    if found = s.version then .ok () else .error (.versionMismatch s.version found)
  | none => .ok ()

/-- Every required category has to be present. -/
def checkRequired (w : Witness) (s : Snapshot) : Except ContextError Unit :=
  match Category.all.find? fun c => s.policy.access.requirements.contains c && !w.has c with
  | some missing => .error (.missingContext missing)
  | none => .ok ()

/-- Judges a request. -/
def evaluate (w : Witness) (s : Snapshot) (nonce : Nonce) : Except ContextError Evaluation := do
  nonce.validate
  w.checkVersion s
  w.checkRequired s
  w.validate
  let p := s.policy
  let device ← ifPresent w.device fun d => d.verify p.device nonce
  let time ← ifPresent w.time fun t => t.verify p.time
  let location ← ifPresent w.location fun l => l.verify p.location
  let pattern ← ifPresent w.behavior fun b => b.verify p.pattern
  let verdicts := Verdicts.ofChecks device time location pattern
  let hashes := Contributions.ofChecks p nonce device time location pattern
  let decision ← verdicts.decision hashes p.access nonce s.version
  return ⟨device, time, location, pattern, decision⟩

end Witness

end AccessContext
