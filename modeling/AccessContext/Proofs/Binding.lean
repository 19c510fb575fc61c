import AccessContext.Proofs.Acceptance
import AccessContext.Proofs.PolicyDocument

/-!
# Proofs are bound to one policy and one challenge

The seal of a proof holds the hash of its statement, the statement holds the digest of the policy,
and the digest is that of the policy's document, which determines the policy. So a proof that holds
against two snapshots and challenges forces them to be equal, unless the hash fails to tell two
statements apart, or two documents. Main statement: `ContextProof.verify_iff_eq`.
-/

namespace AccessContext

theorem Snapshot.eq_of_digest {s t : Snapshot}
    (hcollide : ¬ Collide s.policy.preimage t.policy.preimage) (h : s.digest = t.digest) :
    s = t := by
  rw [s.digest_eq, t.digest_eq] at h
  exact Snapshot.ext ((Policy.digest_eq_iff.mp h).resolve_right hcollide)

namespace ContextProof

variable {p : ContextProof} {s t : Snapshot} {m n : Nonce}

/-- The string whose hash the seal of a proof holds, if the proof is good for a snapshot and a
challenge. -/
def preimage (p : ContextProof) (s : Snapshot) (nonce : Nonce) : List UInt8 :=
  commitPreimage (utf8 "zkctx/public-inputs/v1")
    [leBytes 8 s.version.toNat, s.digest.toList, nonce.bytes,
      p.signals.flatMap fun word => leBytes 8 word.toNat]

/-- The string behind the statement of a proof determines the digest of the policy and the
challenge, as the other parts have fixed lengths. -/
theorem preimage_inj (h : p.preimage s m = p.preimage t n) : s.digest = t.digest ∧ m = n := by
  have hparts := commitPreimage_inj_of_sum (by simp [Bytes32.length_toList]) h
  simp only [List.cons.injEq, Bytes32.toList_inj] at hparts
  obtain ⟨-, hdigest, hbytes, -⟩ := hparts
  exact ⟨hdigest, congrArg Nonce.mk hbytes⟩

theorem statementHash_of_verify (h : p.verify s m = true) :
    p.sealed.statementHash = sha3 (p.preimage s m) := by
  obtain ⟨-, -, g, d, hg, -, -, -, -, hseal⟩ := check_eq_ok_iff.mp (verify_eq_true_iff.mp h)
  obtain ⟨hsignals, -⟩ := PublicSignals.ofList_eq_ok_iff.mp hg
  obtain ⟨c, hhash, -⟩ := SealedProof.seals_iff.mp hseal
  rw [hhash, preimage, hsignals]
  rfl

/-- A proof that holds against a snapshot and a challenge holds against no other ones: neither the
challenge nor any part of the policy can be exchanged. The hash has to tell apart the two strings
behind the digests of the policies and the two strings behind the hashes of the statements. -/
theorem verify_iff_eq (p : ContextProof) (s t : Snapshot) (m n : Nonce)
    (hpolicy : ¬ Collide s.policy.preimage t.policy.preimage)
    (hstatement : ¬ Collide (p.preimage s m) (p.preimage t n)) (h : p.verify s m = true) :
    p.verify t n = true ↔ m = n ∧ s.policy = t.policy := by
  constructor
  · intro h'
    have hhash := statementHash_of_verify h
    rw [statementHash_of_verify h'] at hhash
    obtain ⟨hdigest, hnonce⟩ := preimage_inj (eq_of_not_collide hstatement hhash.symm)
    exact ⟨hnonce, congrArg Snapshot.policy (Snapshot.eq_of_digest hpolicy hdigest)⟩
  · rintro ⟨rfl, heq⟩
    obtain rfl := Snapshot.ext heq
    exact h

theorem verify_iff_eq_lenient : ∃ p : ContextProof, p.verify Snapshot.lenient ⟨[1]⟩ = true ∧
    (p.verify Snapshot.lenient ⟨[1]⟩ = true ↔ Nonce.mk [1] = ⟨[1]⟩ ∧
      Snapshot.lenient.policy = Snapshot.lenient.policy) := by
  have hrisk : (100 : UInt8) ≤ 100 := by decide
  obtain ⟨d, hd⟩ := Verdicts.exists_decision (v := ⟨false, false, false, false, 100⟩) hrisk
    (Snapshot.lenient.policy.contributions ⟨[1]⟩ ⟨false, false, false, false, 100⟩)
    Snapshot.lenient.policy.access ⟨[1]⟩ Snapshot.lenient.version
  have hverify : (made Snapshot.lenient ⟨[1]⟩ d .zero).verify Snapshot.lenient ⟨[1]⟩ = true :=
    verify_iff_exists_made.mpr ⟨⟨1, List.mem_singleton_self 1, rfl⟩, _, d, .zero, hrisk, hd, rfl⟩
  exact ⟨_, hverify, verify_iff_eq _ _ _ _ _ (not_collide_self _) (not_collide_self _) hverify⟩

end ContextProof

end AccessContext
