import AccessContext.Device
import AccessContext.Proofs.Membership
import AccessContext.Theory.Words

/-!
# Signed and listed devices

A device that the identity service signed for a challenge, and whose commitment is a leaf of the
whitelist, passes every check unless it is revoked. What it shows cannot be exchanged: fingerprint
and salt are bound by the commitment, the secret by the public key, and the challenge by the
signature. The hash that a device policy contributes to the audit binds the policy's commitment, key
and whitelist and the challenge, but it does not tell a policy without whitelist from one whose
whitelist is empty. Main statements: `Enrollment.verify_witness`, `DevicePolicy.proofHash_eq_iff`.
-/

namespace AccessContext

/-! ### Strings -/

/-- The string behind the commitment to a fingerprint. -/
def fingerprintPreimage (fingerprint : String) (salt : Bytes32) : List UInt8 :=
  commitPreimage (utf8 "zkctx/device-commit/v1") [utf8 fingerprint, salt.toList]

/-- The string behind a public key. -/
def publicKeyPreimage (secret : Bytes32) : List UInt8 :=
  commitPreimage (utf8 "zkctx/signer-pk/v1") [secret.toList]

/-- The string behind a signature. -/
def signaturePreimage (secret : Bytes32) (fingerprint : String) (nonce : Nonce) : List UInt8 :=
  commitPreimage (utf8 "zkctx/device-sig/v1") [secret.toList, utf8 fingerprint, nonce.bytes]

theorem fingerprintPreimage_inj {f f' : String} {s s' : Bytes32}
    (h : fingerprintPreimage f s = fingerprintPreimage f' s') : f = f' ∧ s = s' := by
  have hparts := commitPreimage_inj_of_sum (by simp [Bytes32.length_toList]) h
  simp only [List.cons.injEq, Bytes32.toList_inj] at hparts
  exact ⟨utf8_inj hparts.1, hparts.2.1⟩

theorem publicKeyPreimage_inj {s s' : Bytes32} (h : publicKeyPreimage s = publicKeyPreimage s') :
    s = s' := by
  have hparts := commitPreimage_inj (by simp [Bytes32.length_toList]) h
  exact Bytes32.ext (List.cons.inj hparts).1

/-- Fingerprint and challenge stand side by side, and neither has a fixed length; for one fingerprint
the string determines the challenge. -/
theorem signaturePreimage_inj {s : Bytes32} {f : String} {m n : Nonce}
    (h : signaturePreimage s f m = signaturePreimage s f n) : m = n := by
  have hparts := commitPreimage_inj_of_sum (by simp) h
  simp only [List.cons.injEq, true_and] at hparts
  exact congrArg Nonce.mk hparts.1

/-! ### Checks -/

namespace DeviceWitness

variable {w : DeviceWitness} {p : DevicePolicy} {m n : Nonce}

/-- Whether the fingerprint holds a character that is not blank. -/
def IsPlain (w : DeviceWitness) : Prop :=
  w.fingerprint.toList.all Text.isBlank = false

/-- What it takes to pass every check. -/
@[mk_iff]
structure Passes (w : DeviceWitness) (p : DevicePolicy) (nonce : Nonce) : Prop where
  commitment : fingerprintCommitment w.fingerprint w.salt = p.commitment
  signer : publicKeyOf w.signerSecret = p.signerKey
  signature : expectedSignature w.signerSecret w.fingerprint nonce = w.signature
  notRevoked : fingerprintCommitment w.fingerprint w.salt ∉ p.revoked
  whitelisted : (w.whitelisted p (fingerprintCommitment w.fingerprint w.salt)).toBool = true

theorem verified_checks_iff : (w.checks p n).verified = true ↔ w.Passes p n := by
  rw [passes_iff]
  simp [checks]

theorem verify_eq_ok_iff {c : DeviceChecks} :
    w.verify p n = .ok c ↔ w.IsPlain ∧ w.checks p n = c := by
  rw [verify, fault?, IsPlain]
  cases w.fingerprint.toList.all Text.isBlank <;> simp

theorem exists_verified_iff :
    (∃ c, w.verify p n = .ok c ∧ c.verified = true) ↔ w.IsPlain ∧ w.Passes p n := by
  simp only [verify_eq_ok_iff, ← verified_checks_iff]
  constructor
  · rintro ⟨c, ⟨hplain, rfl⟩, hverified⟩
    exact ⟨hplain, hverified⟩
  · rintro ⟨hplain, hverified⟩
    exact ⟨_, ⟨hplain, rfl⟩, hverified⟩

/-- A whitelist lets through the devices that show a path from their own commitment to its root. -/
theorem whitelisted_iff {root commitment : Digest} (h : p.whitelistRoot = some root) :
    (w.whitelisted p commitment).toBool = true ↔
      ∃ path, w.whitelistPath = some path ∧ path.leaf = commitment ∧ path.verify root = true := by
  rw [whitelisted, h]
  cases w.whitelistPath with
  | none => simp [Bit.zero, Bit.toBool]
  | some path => simp

/-- Whether the hash tells apart the strings that two devices hash in the same place. -/
structure Apart (w : DeviceWitness) (m : Nonce) (w' : DeviceWitness) (n : Nonce) : Prop where
  commitment : ¬ Collide (fingerprintPreimage w.fingerprint w.salt)
    (fingerprintPreimage w'.fingerprint w'.salt)
  publicKey : ¬ Collide (publicKeyPreimage w.signerSecret) (publicKeyPreimage w'.signerSecret)
  signature : ¬ Collide (signaturePreimage w.signerSecret w.fingerprint m)
    (signaturePreimage w'.signerSecret w'.fingerprint n)

/-- One thing that a device shows is exchanged for another, or left out, or the challenge is another
one. -/
inductive Exchanged (w : DeviceWitness) (m : Nonce) : DeviceWitness → Nonce → Prop
  | nonce {n : Nonce} (h : n ≠ m) : Exchanged w m w n
  | fingerprint {f : String} (h : f ≠ w.fingerprint) (hplain : f.toList.all Text.isBlank = false) :
    Exchanged w m { w with fingerprint := f } m
  | salt {s : Bytes32} (h : s ≠ w.salt) : Exchanged w m { w with salt := s } m
  | signature {s : Bytes32} (h : s ≠ w.signature) : Exchanged w m { w with signature := s } m
  | signerSecret {s : Bytes32} (h : s ≠ w.signerSecret) : Exchanged w m { w with signerSecret := s } m
  | noPath : Exchanged w m { w with whitelistPath := none } m

theorem Exchanged.isPlain {w' : DeviceWitness} (h : Exchanged w m w' n) (hw : w.IsPlain) :
    w'.IsPlain := by
  cases h with
  | fingerprint _ hplain => exact hplain
  | nonce | salt | signature | signerSecret | noPath => exact hw

/-- A signature answers one challenge. -/
theorem Passes.eq_nonce (h : w.Passes p m) (h' : w.Passes p n)
    (hcollide : ¬ Collide (signaturePreimage w.signerSecret w.fingerprint m)
      (signaturePreimage w.signerSecret w.fingerprint n)) : m = n :=
  signaturePreimage_inj (eq_of_not_collide hcollide (h.signature.trans h'.signature.symm))

end DeviceWitness

/-! ### Enrolled devices -/

/-- A device as the identity service knows it. -/
structure Enrollment where
  key : SigningKey
  fingerprint : String
  salt : Bytes32
  /-- The commitments on the whitelist. -/
  leaves : List Digest
  /-- The place of the device among them. -/
  index : UInt64
  isPlain : fingerprint.toList.all Text.isBlank = false
  isListed : leaves[index.toNat]? = some (fingerprintCommitment fingerprint salt)

namespace Enrollment

open DeviceWitness

variable {e : Enrollment} {revoked : List Digest} {nonce : Nonce}

def commitment (e : Enrollment) : Digest :=
  fingerprintCommitment e.fingerprint e.salt

/-- The policy that pins the device, the key and the whitelist. -/
def policy (e : Enrollment) (revoked : List Digest) : DevicePolicy where
  commitment := e.commitment
  signerKey := e.key.publicKey
  whitelistRoot := some (MerkleTree.ofLeaves e.leaves).root
  revoked := revoked

/-- What the device shows for a challenge. -/
def witness (e : Enrollment) (nonce : Nonce) : DeviceWitness where
  fingerprint := e.fingerprint
  salt := e.salt
  signature := e.key.sign e.fingerprint nonce
  signerSecret := e.key.secret
  whitelistPath := (MerkleTree.ofLeaves e.leaves).prove e.index

theorem whitelisted_witness :
    ((e.witness nonce).whitelisted (e.policy revoked) e.commitment).toBool = true := by
  obtain ⟨path, hpath, hleaf, -, -, hverify⟩ := MerkleTree.exists_prove e.isListed
  exact (whitelisted_iff rfl).mpr ⟨path, hpath, hleaf, hverify⟩

theorem passes_witness_iff :
    (e.witness nonce).Passes (e.policy revoked) nonce ↔ e.commitment ∉ revoked :=
  ⟨Passes.notRevoked, fun h => ⟨rfl, rfl, rfl, h, whitelisted_witness⟩⟩

/-- Whatever is exchanged fails the check that covers it. -/
theorem not_passes_of_exchanged {w : DeviceWitness} {n : Nonce}
    (h : Exchanged (e.witness nonce) nonce w n) (hapart : Apart (e.witness nonce) nonce w n) :
    ¬ w.Passes (e.policy revoked) n := by
  intro hpasses
  cases h with
  | nonce h =>
    have hstring := eq_of_not_collide hapart.signature hpasses.signature.symm
    exact h (signaturePreimage_inj hstring).symm
  | fingerprint h =>
    have hstring := eq_of_not_collide hapart.commitment hpasses.commitment.symm
    exact h (fingerprintPreimage_inj hstring).1.symm
  | salt h =>
    have hstring := eq_of_not_collide hapart.commitment hpasses.commitment.symm
    exact h (fingerprintPreimage_inj hstring).2.symm
  | signature h => exact h hpasses.signature.symm
  | signerSecret h =>
    have hstring := eq_of_not_collide hapart.publicKey hpasses.signer.symm
    exact h (publicKeyPreimage_inj hstring).symm
  | noPath =>
    obtain ⟨path, hpath, -⟩ := (whitelisted_iff rfl).mp hpasses.whitelisted
    cases hpath

/-- An enrolled device that was signed for a challenge is verified exactly if it is not revoked,
whatever the hash does. If the hash tells apart what is hashed in the same place, then nothing that
the device shows can be exchanged or left out, and what any device shows is verified for one challenge
only. -/
theorem verify_witness (e : Enrollment) (revoked : List Digest) (nonce : Nonce) :
    (∃ c, (e.witness nonce).verify (e.policy revoked) nonce = .ok c ∧
      (c.verified = true ↔ e.commitment ∉ revoked)) ∧
    (∀ w n, Exchanged (e.witness nonce) nonce w n → Apart (e.witness nonce) nonce w n →
      ∃ c, w.verify (e.policy revoked) n = .ok c ∧ c.verified = false) ∧
    (∀ (w : DeviceWitness) (p : DevicePolicy) (m n : Nonce), Apart w m w n →
      (∃ c, w.verify p m = .ok c ∧ c.verified = true) →
        ((∃ c, w.verify p n = .ok c ∧ c.verified = true) ↔ m = n)) := by
  have hplain : (e.witness nonce).IsPlain := e.isPlain
  refine ⟨⟨_, verify_eq_ok_iff.mpr ⟨hplain, rfl⟩, ?_⟩, fun w n h hapart => ?_,
    fun w p m n hapart hm => ?_⟩
  · rw [verified_checks_iff, passes_witness_iff]
  · refine ⟨_, verify_eq_ok_iff.mpr ⟨h.isPlain hplain, rfl⟩, ?_⟩
    rw [Bool.eq_false_iff, ne_eq, verified_checks_iff]
    exact not_passes_of_exchanged h hapart
  · constructor
    · intro hn
      obtain ⟨-, hpasses⟩ := exists_verified_iff.mp hm
      obtain ⟨-, hpasses'⟩ := exists_verified_iff.mp hn
      exact hpasses.eq_nonce hpasses' hapart.signature
    · rintro rfl
      exact hm

/-- A device that is alone on the whitelist. -/
def alone : Enrollment where
  key := ⟨.zero⟩
  fingerprint := "a"
  salt := .zero
  leaves := [fingerprintCommitment "a" .zero]
  index := 0
  isPlain := by decide +kernel
  isListed := rfl

theorem signature_alone_ne :
    expectedSignature .zero "a" ⟨[1]⟩ ≠ expectedSignature .zero "a" ⟨[2]⟩ := by
  decide +kernel

/-- What the device shows for one challenge is not verified for another. -/
theorem verify_witness_alone :
    (∃ c, (alone.witness ⟨[1]⟩).verify (alone.policy []) ⟨[1]⟩ = .ok c ∧ c.verified = true) ∧
    (∃ c, (alone.witness ⟨[1]⟩).verify (alone.policy []) ⟨[2]⟩ = .ok c ∧ c.verified = false) ∧
    ¬ ∃ c, (alone.witness ⟨[1]⟩).verify (alone.policy []) ⟨[2]⟩ = .ok c ∧ c.verified = true := by
  have hne : Nonce.mk [2] ≠ ⟨[1]⟩ := by decide
  have hapart : Apart (alone.witness ⟨[1]⟩) ⟨[1]⟩ (alone.witness ⟨[1]⟩) ⟨[2]⟩ :=
    ⟨not_collide_self _, not_collide_self _, fun h => signature_alone_ne h.2⟩
  obtain ⟨⟨c, hc, hiff⟩, hexchanged, hanswers⟩ := verify_witness alone [] ⟨[1]⟩
  have hverified := hiff.mpr List.not_mem_nil
  refine ⟨⟨c, hc, hverified⟩, hexchanged _ _ (.nonce hne) hapart, ?_⟩
  rw [hanswers _ _ _ _ hapart ⟨c, hc, hverified⟩]
  exact hne.symm

end Enrollment

/-! ### The contribution to the audit -/

namespace DevicePolicy

variable {p q : DevicePolicy} {m n : Nonce} {v v' : Bool}

/-- The string that the device category hashes. -/
def proofPreimage (p : DevicePolicy) (nonce : Nonce) (verified : Bool) : List UInt8 :=
  commitPreimage (utf8 "zkctx/device-proof/v1") (p.proofParts nonce verified)

theorem proofParts_inj :
    p.proofParts m v = q.proofParts n v' ↔ p.commitment = q.commitment ∧ p.signerKey = q.signerKey ∧
      p.whitelistRoot.getD .zero = q.whitelistRoot.getD .zero ∧ m = n ∧ v = v' := by
  cases m
  cases n
  simp [proofParts, Bytes32.toList_inj, boolByte_eq_iff]

theorem proofPreimage_eq_iff :
    p.proofPreimage m v = q.proofPreimage n v' ↔ p.proofParts m v = q.proofParts n v' := by
  constructor
  · exact commitPreimage_inj_of_sum (by simp [proofParts, Bytes32.length_toList])
  · exact congrArg (commitPreimage _)

/-- A root of zeros, as the empty whitelist has it, is written where there is no whitelist. -/
theorem getD_root_eq_iff {r r' : Option Digest} : r.getD .zero = r'.getD .zero ↔
    r = r' ∨ r = none ∧ r' = some (MerkleTree.ofLeaves []).root ∨
      r = some (MerkleTree.ofLeaves []).root ∧ r' = none := by
  have hroot : (MerkleTree.ofLeaves []).root = .zero := rfl
  rw [hroot]
  cases r <;> cases r' <;> simp [eq_comm]

/-- The hash binds the commitment, the key, the root of the whitelist, the challenge and the verdict,
if the hash tells the two strings apart. There is one exception: having no whitelist is not told from
having the empty one. -/
theorem proofHash_eq_iff (p q : DevicePolicy) (m n : Nonce) (v v' : Bool)
    (hcollide : ¬ Collide (p.proofPreimage m v) (q.proofPreimage n v')) :
    p.proofHash m v = q.proofHash n v' ↔
      p.commitment = q.commitment ∧ p.signerKey = q.signerKey ∧
      (p.whitelistRoot = q.whitelistRoot ∨
        p.whitelistRoot = none ∧ q.whitelistRoot = some (MerkleTree.ofLeaves []).root ∨
        p.whitelistRoot = some (MerkleTree.ofLeaves []).root ∧ q.whitelistRoot = none) ∧
      m = n ∧ v = v' := by
  rw [← getD_root_eq_iff, ← proofParts_inj, ← proofPreimage_eq_iff]
  exact ⟨eq_of_not_collide hcollide, congrArg sha3⟩

/-- Policies that differ in revoked devices only. -/
theorem proofHash_eq_iff_revoked :
    proofHash ⟨.zero, .zero, none, []⟩ ⟨[1]⟩ true =
      proofHash ⟨.zero, .zero, none, [.zero]⟩ ⟨[1]⟩ true :=
  (proofHash_eq_iff ⟨.zero, .zero, none, []⟩ ⟨.zero, .zero, none, [.zero]⟩ ⟨[1]⟩ ⟨[1]⟩ true true
    (not_collide_self _)).mpr ⟨rfl, rfl, .inl rfl, rfl, rfl⟩

/-- A policy without whitelist and one with the empty whitelist share their hash, as the strings are
the same, and yet a device without a path is let through by the first and not by the second. -/
theorem proofHash_emptyWhitelist :
    none ≠ some (MerkleTree.ofLeaves []).root ∧
    ¬ Collide (proofPreimage ⟨.zero, .zero, none, []⟩ ⟨[1]⟩ true)
      (proofPreimage ⟨.zero, .zero, some (MerkleTree.ofLeaves []).root, []⟩ ⟨[1]⟩ true) ∧
    proofHash ⟨.zero, .zero, none, []⟩ ⟨[1]⟩ true =
      proofHash ⟨.zero, .zero, some (MerkleTree.ofLeaves []).root, []⟩ ⟨[1]⟩ true ∧
    DeviceWitness.whitelisted ⟨"a", .zero, .zero, .zero, none⟩
      ⟨.zero, .zero, none, []⟩ .zero = .one ∧
    DeviceWitness.whitelisted ⟨"a", .zero, .zero, .zero, none⟩
      ⟨.zero, .zero, some (MerkleTree.ofLeaves []).root, []⟩ .zero = .zero :=
  ⟨nofun, not_collide_self _, rfl, rfl, rfl⟩

end DevicePolicy

end AccessContext
