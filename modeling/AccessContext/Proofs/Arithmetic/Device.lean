import AccessContext.Device
import AccessContext.Proofs.Arithmetic.Machine

/-!
# The arithmetic of the device category

Every operation on integers in the checks on a device: the way up a Merkle tree halves the place of
the leaf, and the checks are bits.
-/

namespace AccessContext

open Arithmetic

namespace MerklePath

/-- The root that the siblings lead to, and what is left of the place. -/
def climbIn (mode : Mode) : List Digest → Int → Digest → Machine (Int × Digest)
  | [], index, hash => return (index, hash)
  | sibling :: rest, index, hash => do
    let side ← remainder mode u64 index 2
    let above ← divide mode u64 index 2
    climbIn mode rest above (if side = 0 then nodeHash hash sibling else nodeHash sibling hash)

/-- Whether the path leads to the root. -/
def verifyIn (mode : Mode) (path : MerklePath) (root : Digest) : Machine Bool := do
  let (index, hash) ← climbIn mode path.siblings path.index.toNat (leafHash path.leaf)
  return index == 0 && hash == root

variable (mode : Mode)

theorem climbIn_eq (siblings : List Digest) {index : Nat} (h : index < 2 ^ 64) (hash : Digest) :
    climbIn mode siblings index hash =
      .ok ((climb siblings index hash).1, (climb siblings index hash).2) := by
  induction siblings generalizing index hash with
  | nil => rfl
  | cons sibling rest ih =>
    have hside : (index : Int) % 2 = (index % 2 : Nat) := rfl
    have habove : (index : Int) / 2 = (index / 2 : Nat) := rfl
    rw [climbIn, remainder, if_neg (by decide), store_unsigned mode (by omega) (by omega), ok_bind,
      divide_unsigned mode (by omega) (by decide) (by omega), ok_bind, hside, habove,
      ih (by omega), climb]
    simp only [Nat.cast_eq_zero]

theorem verifyIn_eq (path : MerklePath) (root : Digest) :
    path.verifyIn mode root = .ok (path.verify root) := by
  have hzero (n : Nat) : ((n : Int) == 0) = (n == 0) := by
    rw [Bool.eq_iff_iff, beq_iff_eq, beq_iff_eq, Nat.cast_eq_zero]
  rw [verifyIn, climbIn_eq mode path.siblings path.index.toNat_lt, ok_bind, verify]
  exact congrArg (fun b => Except.ok (b && _)) (hzero _)

end MerklePath

namespace DeviceWitness

/-- Whether the device is on the whitelist. -/
def whitelistedIn (mode : Mode) (w : DeviceWitness) (p : DevicePolicy) (commitment : Digest) :
    Machine Int :=
  match p.whitelistRoot, w.whitelistPath with
  | none, _ => return 1
  | some root, some path => do
    let member ← path.verifyIn mode root
    bitAnd mode (decide (path.leaf = commitment)).toInt member.toInt
  | some _, none => return 0

/-- The checks on a device. -/
def checksIn (mode : Mode) (w : DeviceWitness) (p : DevicePolicy) (nonce : Nonce) :
    Machine DeviceChecks := do
  let commitment := fingerprintCommitment w.fingerprint w.salt
  let commitmentOk := (decide (commitment = p.commitment)).toInt
  let signerOk := (decide (publicKeyOf w.signerSecret = p.signerKey)).toInt
  let signatureOk :=
    (decide (expectedSignature w.signerSecret w.fingerprint nonce = w.signature)).toInt
  let notRevoked ← bitNot mode (p.revoked.contains commitment).toInt
  let whitelisted ← w.whitelistedIn mode p commitment
  let verified ← bitAll mode [commitmentOk, signerOk, signatureOk, notRevoked, whitelisted]
  return {
    commitmentOk := isSet commitmentOk
    signerOk := isSet signerOk
    signatureOk := isSet signatureOk
    notRevoked := isSet notRevoked
    whitelisted := isSet whitelisted
    verified := isSet verified
    proofHash := p.proofHash nonce (isSet verified) }

/-- The checks on a device whose input is well formed. -/
def verifyIn (mode : Mode) (w : DeviceWitness) (p : DevicePolicy) (nonce : Nonce) :
    Run DeviceChecks :=
  match w.fault? with
  | some fault => throw (.invalidInput fault)
  | none => w.checksIn mode p nonce

variable (mode : Mode) {w : DeviceWitness}

theorem whitelistedIn_eq (p : DevicePolicy) (commitment : Digest) :
    w.whitelistedIn mode p commitment = .ok (w.whitelisted p commitment).toBool.toInt := by
  rw [whitelistedIn, whitelisted]
  cases p.whitelistRoot with
  | none => rfl
  | some root =>
    cases w.whitelistPath with
    | none => rfl
    | some path =>
      dsimp only
      rw [MerklePath.verifyIn_eq, ok_bind, bitAnd_toInt, Bit.toBool_and, Bit.toBool_digestEq,
        Bit.toBool_ofBool]

theorem checksIn_eq (p : DevicePolicy) (nonce : Nonce) :
    w.checksIn mode p nonce = .ok (w.checks p nonce) := by
  rw [checksIn, bitNot_toInt, ok_bind, whitelistedIn_eq, ok_bind]
  refine (bind_ok (bitAll_toInt mode [_, _, _, _, _])).trans ?_
  simp [checks, pure, Except.pure]

theorem verifyIn_computes (p : DevicePolicy) (nonce : Nonce) :
    Computes (w.verifyIn mode p nonce) (w.verify p nonce) := by
  rw [verifyIn, verify]
  cases w.fault? with
  | some fault => exact computes_throw _
  | none => exact Computes.of_eq (checksIn_eq mode p nonce)

end DeviceWitness

end AccessContext
