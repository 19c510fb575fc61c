import AccessContext.Evaluation
import AccessContext.Policy.Store
import AccessContext.Proof.Seal

/-!
# Context proofs

What leaves the prover: the artifact, the public signals, the policy version and a seal. A proof
is issued for every request that can be evaluated, whether its decision is good or bad.
-/

namespace AccessContext

/-- What the relying party receives. -/
structure ContextProof where
  artifact : Artifact
  signals : List UInt64
  policyVersion : UInt64
  sealed : SealedProof
deriving DecidableEq

namespace ContextProof

open Json in
def codec : Codec ContextProof :=
  .record "ContextProof"
    (.field "artifact" Artifact.codec none <| .field "public_signals" Codec.u64.list none <|
      .field "policy_version" .u64 none <| .field "proof" SealedProof.codec none .done)
    (fun (artifact, signals, policyVersion, sealed, ()) =>
      ⟨artifact, signals, policyVersion, sealed⟩)
    (fun p => (p.artifact, p.signals, p.policyVersion, p.sealed, ()))

/-- The compact document. -/
def document (p : ContextProof) : String :=
  codec.encode p

end ContextProof

namespace Witness

/-- Judges a request and seals the decision. -/
def prove (w : Witness) (s : Snapshot) (nonce : Nonce) (blinding : Bytes32) :
    Except ContextError ContextProof := do
  let evaluation ← w.evaluate s nonce
  let decision := evaluation.decision
  let statement : Statement := ⟨s, nonce, decision.signals⟩
  return ⟨decision.artifact, decision.signals.toList, s.version, statement.sealWith w blinding⟩

/-- Proves against the current snapshot for a key, which is returned with the proof. -/
def proveCurrent (w : Witness) (store : PolicyStore) (key : PolicyKey) (nonce : Nonce)
    (blinding : Bytes32) : Except ContextError (Snapshot × ContextProof) := do
  let snapshot ← store.snapshot key
  let proof ← w.prove snapshot nonce blinding
  return (snapshot, proof)

end Witness

end AccessContext
