import AccessContext.Proof.Basic

/-!
# Verification of proofs

The relying party needs the proof, the snapshot it pinned and the challenge it issued. It decodes
the signals, makes the decision again from the verdicts in them, and compares everything.
-/

namespace AccessContext

/-- The outcome of a verification, for audits. -/
structure Report where
  proofId : String
  valid : Bool
  error : Option String
deriving DecidableEq

namespace ContextProof

/-- Checks a proof and says why it fails. -/
def check (p : ContextProof) (s : Snapshot) (nonce : Nonce) : Except ContextError Unit := do
  nonce.validate
  unless p.policyVersion = s.version do
    throw (.versionMismatch s.version p.policyVersion)
  let signals ← PublicSignals.ofList p.signals
  let access := s.policy.access
  unless signals.level = access.level ∧ signals.requirements = access.requirements do
    throw (.malformedProof .accessDiffers)
  let verdicts : Verdicts :=
    ⟨signals.device, signals.time, signals.location, signals.pattern, signals.risk⟩
  let hashes := s.policy.contributions nonce verdicts
  let expected ← verdicts.decision hashes access nonce s.version
  unless expected.signals = signals do
    throw (.malformedProof .relationViolated)
  unless expected.artifact = p.artifact do
    throw (.malformedProof .artifactDiffers)
  unless p.sealed.seals ⟨s, nonce, signals⟩ do
    throw (.malformedProof (.sealRejected sealName))

/-- Whether a proof holds against a snapshot and a challenge. -/
def verify (p : ContextProof) (s : Snapshot) (nonce : Nonce) : Bool :=
  match p.check s nonce with
  | .ok () => true
  | .error _ => false

/-- Whether a proof holds, with its name and the reason if it does not. -/
def report (p : ContextProof) (s : Snapshot) (nonce : Nonce) : Report :=
  match p.check s nonce with
  | .ok () => ⟨p.artifact.reference, true, none⟩
  | .error e => ⟨p.artifact.reference, false, some e.message⟩

end ContextProof

/-- One answer for each proof with its challenge, in order. -/
def verifyAll (pairs : List (ContextProof × Nonce)) (s : Snapshot) : List Bool :=
  pairs.map fun (p, nonce) => p.verify s nonce

end AccessContext
