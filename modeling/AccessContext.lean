import AccessContext.Proof.Verification
import AccessContext.R1cs.ContextRelation
import AccessContext.Theory.Preimages
import AccessContext.Theory.Words
import AccessContext.Proofs.Decision
import AccessContext.Proofs.Evaluation
import AccessContext.Proofs.Refusal
import AccessContext.Proofs.PublicSignals
import AccessContext.Proofs.Acceptance
import AccessContext.Proofs.Issued
import AccessContext.Proofs.Binding
import AccessContext.Proofs.R1cs.Context
import AccessContext.Proofs.Arithmetic.Evaluation
import AccessContext.Proofs.Audit
import AccessContext.Policy.Runs
import AccessContext.Proofs.Publication
import AccessContext.Proofs.Rotation
import AccessContext.Proofs.OptionalCategories
import AccessContext.Proofs.ProofDocument
import AccessContext.Proofs.R1cs.Alike
import AccessContext.Proofs.R1cs.Uniformity
import AccessContext.Proofs.R1cs.PrivateVariables
import AccessContext.Proofs.Membership
import AccessContext.Proofs.Commitment
import AccessContext.Proofs.Device
import AccessContext.Proofs.Risk
import AccessContext.Proofs.Calendar
import AccessContext.Proofs.Plane
import AccessContext.Proofs.Trust
import AccessContext.Proofs.Statements
import AccessContext.Proofs.WitnessCommitment
import AccessContext.Proofs.R1cs.Separation
import AccessContext.Proofs.R1cs.Comparison
import AccessContext.Proofs.Timing
import AccessContext.Proofs.R1cs.Coherence
