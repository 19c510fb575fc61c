import AccessContext.Bit
import AccessContext.Commitment
import AccessContext.Merkle
import AccessContext.Nonce

/-!
# Device

A device proves its identity by opening a commitment that the policy pins, showing a signature
over its fingerprint and the challenge, and belonging to a whitelist without being revoked.
There is no partial credit: all five checks must pass.
-/

namespace AccessContext

/-- What a policy demands of the device. -/
structure DevicePolicy where
  /-- The commitment to fingerprint and salt. -/
  commitment : Digest
  signerKey : Digest
  /-- Root of the whitelist; without one every device is listed. -/
  whitelistRoot : Option Digest
  revoked : List Digest
deriving DecidableEq

/-- What a device keeps secret. -/
structure DeviceWitness where
  fingerprint : String
  salt : Bytes32
  /-- Issued by the identity service for one challenge. -/
  signature : Bytes32
  signerSecret : Bytes32
  whitelistPath : Option MerklePath
deriving DecidableEq

namespace DevicePolicy

open Json in
def codec : Codec DevicePolicy :=
  .record "DevicePolicy"
    (.field "expected_commitment" .hex32 none <| .field "signer_public_key" .hex32 none <|
      .field "whitelist_root" .hex32Option (some none) <|
      .field "revoked_commitments" .hex32List (some []) .done)
    (fun (commitment, signerKey, whitelistRoot, revoked, ()) =>
      ⟨commitment, signerKey, whitelistRoot, revoked⟩)
    (fun p => (p.commitment, p.signerKey, p.whitelistRoot, p.revoked, ()))

/-- The parts that the device category contributes to the audit commitment. -/
def proofParts (p : DevicePolicy) (nonce : Nonce) (verified : Bool) : List (List UInt8) :=
  [p.commitment.toList, p.signerKey.toList, (p.whitelistRoot.getD Bytes32.zero).toList,
    nonce.bytes, [boolByte verified]]

/-- Binds the public part of the policy, the challenge and the verdict. -/
def proofHash (p : DevicePolicy) (nonce : Nonce) (verified : Bool) : Digest :=
  commit (utf8 "zkctx/device-proof/v1") (p.proofParts nonce verified)

end DevicePolicy

/-- The commitment to a fingerprint that policies pin. -/
def fingerprintCommitment (fingerprint : String) (salt : Bytes32) : Digest :=
  commit (utf8 "zkctx/device-commit/v1") [utf8 fingerprint, salt.toList]

/-- The public half of a signing key. -/
def publicKeyOf (secret : Bytes32) : Digest :=
  commit (utf8 "zkctx/signer-pk/v1") [secret.toList]

/-- The signature over a fingerprint for one challenge. -/
def expectedSignature (secret : Bytes32) (fingerprint : String) (nonce : Nonce) : Digest :=
  commit (utf8 "zkctx/device-sig/v1") [secret.toList, utf8 fingerprint, nonce.bytes]

/-- A signing key of the identity service. -/
structure SigningKey where
  secret : Bytes32

namespace SigningKey

/-- A key from 32 random bytes. -/
def ofEntropy (entropy : Bytes32) : SigningKey :=
  ⟨entropy⟩

def publicKey (key : SigningKey) : Digest :=
  publicKeyOf key.secret

def sign (key : SigningKey) (fingerprint : String) (nonce : Nonce) : Bytes32 :=
  expectedSignature key.secret fingerprint nonce

end SigningKey

/-- Outcome of each check on the device. -/
structure DeviceChecks where
  commitmentOk : Bool
  signerOk : Bool
  signatureOk : Bool
  notRevoked : Bool
  whitelisted : Bool
  verified : Bool
  proofHash : Digest
deriving DecidableEq

namespace DeviceWitness

/-- A fingerprint has to hold a character that is not blank. -/
def fault? (w : DeviceWitness) : Option InputFault :=
  if w.fingerprint.toList.all Text.isBlank then some .blankFingerprint else none

/-- Whether the device is on the whitelist, by the path it shows. -/
def whitelisted (w : DeviceWitness) (p : DevicePolicy) (commitment : Digest) : Bit :=
  match p.whitelistRoot, w.whitelistPath with
  | none, _ => .one
  | some root, some path =>
    (Bit.digestEq path.leaf commitment).and (.ofBool (path.verify root))
  | some _, none => .zero

/-- The checks on a device. -/
def checks (w : DeviceWitness) (p : DevicePolicy) (nonce : Nonce) : DeviceChecks :=
  let commitment := fingerprintCommitment w.fingerprint w.salt
  let commitmentOk := Bit.digestEq commitment p.commitment
  let signerOk := Bit.digestEq (publicKeyOf w.signerSecret) p.signerKey
  let signatureOk := Bit.digestEq (expectedSignature w.signerSecret w.fingerprint nonce) w.signature
  let notRevoked := (Bit.ofBool (p.revoked.contains commitment)).not
  let whitelisted := w.whitelisted p commitment
  let verified :=
    (Bit.all [commitmentOk, signerOk, signatureOk, notRevoked, whitelisted]).toBool
  { commitmentOk := commitmentOk.toBool
    signerOk := signerOk.toBool
    signatureOk := signatureOk.toBool
    notRevoked := notRevoked.toBool
    whitelisted := whitelisted.toBool
    verified
    proofHash := p.proofHash nonce verified }

/-- The checks on a device whose input is well formed. -/
def verify (w : DeviceWitness) (p : DevicePolicy) (nonce : Nonce) :
    Except ContextError DeviceChecks :=
  match w.fault? with
  | some fault => .error (.invalidInput fault)
  | none => .ok (w.checks p nonce)

end DeviceWitness

end AccessContext
