import AccessContext.Proof.Verification
import AccessContext.Proofs.Evaluation
import AccessContext.Proofs.PublicSignals
import AccessContext.Proofs.Seal

/-!
# Accepted proofs

A proof is accepted exactly if it is made of verdicts, a risk on the scale and a commitment, as the
snapshot and the challenge prescribe: the signals and the artifact are those of the decision on the
verdicts, and the seal is laid out from the commitment, its tag and the hash of the statement. What
is accepted is determined by the signals and the commitment. Main statement:
`ContextProof.verify_iff_made`.
-/

namespace AccessContext.ContextProof

variable {p : ContextProof} {s : Snapshot} {nonce : Nonce}

theorem verify_eq_true_iff : p.verify s nonce = true ↔ p.check s nonce = .ok () := by
  rw [verify]
  cases p.check s nonce with
  | error e => simp
  | ok u => simp

section Except

variable {ε α β : Type} {c : Prop} [Decidable c] {e : ε}

/-- A condition that stops a computation unless it holds. -/
theorem unless_throw_eq_ok_iff {x : Except ε α} {f : β → Except ε α} {a : α} :
    (if c then x else throw e >>= f) = .ok a ↔ c ∧ x = .ok a := by
  by_cases h : c
  · rw [if_pos h]
    exact ⟨fun hx => ⟨h, hx⟩, fun hx => hx.2⟩
  · rw [if_neg h]
    exact ⟨nofun, fun hx => absurd hx.1 h⟩

theorem pure_or_throw_eq_ok_iff :
    (if c then pure () else throw e : Except ε Unit) = .ok () ↔ c := by
  by_cases h : c
  · rw [if_pos h]
    exact ⟨fun _ => h, fun _ => rfl⟩
  · rw [if_neg h]
    exact ⟨nofun, fun hc => absurd hc h⟩

end Except

/-- What the checks of a proof come to. -/
theorem check_eq_ok_iff : p.check s nonce = .ok () ↔
    nonce.validate = .ok () ∧ p.policyVersion = s.version ∧
      ∃ (g : PublicSignals) (d : Decision), PublicSignals.ofList p.signals = .ok g ∧
        g.access = s.policy.access ∧
        g.verdicts.decision (s.policy.contributions nonce g.verdicts) s.policy.access nonce
          s.version = .ok d ∧
        d.signals = g ∧ d.artifact = p.artifact ∧ p.sealed.seals ⟨s, nonce, g⟩ = true := by
  rw [check]
  simp only [bind_eq_ok_iff, unless_throw_eq_ok_iff, pure_or_throw_eq_ok_iff]
  constructor
  · rintro ⟨_, hnonce, hversion, g, hg, ⟨hlevel, hrequirements⟩, d, hd, hsignals, hartifact, hseal⟩
    refine ⟨hnonce, hversion, g, d, hg, ?_, hd, hsignals, hartifact, hseal⟩
    rw [PublicSignals.access, hlevel, hrequirements]
  · rintro ⟨hnonce, hversion, g, d, hg, haccess, hd, hsignals, hartifact, hseal⟩
    exact ⟨(), hnonce, hversion, g, hg, ⟨congrArg AccessPolicy.level haccess,
      congrArg AccessPolicy.requirements haccess⟩, d, hd, hsignals, hartifact, hseal⟩

/-- The proof that a decision and a commitment make under a snapshot and for a challenge. -/
def made (s : Snapshot) (nonce : Nonce) (d : Decision) (commitment : Digest) : ContextProof :=
  let h := Statement.hash ⟨s, nonce, d.signals⟩
  ⟨d.artifact, d.signals.toList, s.version,
    ⟨sealBytes commitment (sealTag s.version h commitment) h, h⟩⟩

/-- A decision under a snapshot is read back from its signals. -/
theorem ofList_of_decision {v : Verdicts} {hashes : Contributions} {version : UInt64}
    {d : Decision} (h : v.decision hashes s.policy.access nonce version = .ok d) :
    PublicSignals.ofList d.signals.toList = .ok d.signals := by
  have haccess := (PublicSignals.of_decision h).2.2
  refine PublicSignals.ofList_eq_ok_iff.mpr ⟨rfl, ?_⟩
  rw [show d.signals.requirements = s.policy.access.requirements from
    congrArg AccessPolicy.requirements haccess]
  exact s.isKnown_requirements

theorem verify_iff_exists_made : p.verify s nonce = true ↔
    (∃ b ∈ nonce.bytes, Text.isAsciiBlank b = false) ∧
      ∃ (v : Verdicts) (d : Decision) (commitment : Digest), v.risk ≤ 100 ∧
        v.decision (s.policy.contributions nonce v) s.policy.access nonce s.version = .ok d ∧
        p = made s nonce d commitment := by
  rw [verify_eq_true_iff, check_eq_ok_iff, Nonce.validate_eq_ok_iff]
  constructor
  · rintro ⟨hnonce, hversion, g, d, hg, -, hd, rfl, hartifact, hseal⟩
    obtain ⟨commitment, hhash, hbytes⟩ := SealedProof.seals_iff.mp hseal
    have hrisk := (Verdicts.trust_eq_ok_iff.mp (PublicSignals.of_decision hd).1.trust).1
    refine ⟨hnonce, d.signals.verdicts, d, commitment, UInt8.le_iff_toNat_le.mpr hrisk, hd, ?_⟩
    rcases p with ⟨artifact, signals, version, ⟨bytes, statementHash⟩⟩
    obtain ⟨rfl, -⟩ := PublicSignals.ofList_eq_ok_iff.mp hg
    subst hversion hartifact hhash hbytes
    rfl
  · rintro ⟨hnonce, v, d, commitment, -, hd, rfl⟩
    obtain ⟨-, hverdicts, haccess⟩ := PublicSignals.of_decision hd
    refine ⟨hnonce, rfl, d.signals, d, ofList_of_decision hd, haccess, ?_, rfl, rfl, ?_⟩
    · rw [hverdicts]
      exact hd
    · exact SealedProof.seals_iff.mpr ⟨commitment, rfl, rfl⟩

/-- Signals determine the decision they come from, so the proofs that are accepted differ in their
signals or their commitment. -/
theorem eq_of_verify {q : ContextProof} (hp : p.verify s nonce = true)
    (hq : q.verify s nonce = true) (hsignals : p.signals = q.signals)
    (hcommitment : (p.sealed.bytes.drop 3).take 32 = (q.sealed.bytes.drop 3).take 32) : p = q := by
  obtain ⟨-, v, d, c, -, hd, rfl⟩ := verify_iff_exists_made.mp hp
  obtain ⟨-, v', d', c', -, hd', rfl⟩ := verify_iff_exists_made.mp hq
  have hlist : d.signals.toList = d'.signals.toList := hsignals
  have hread := ofList_of_decision hd
  rw [hlist, ofList_of_decision hd'] at hread
  have hverdicts : v = v' := by
    rw [← (PublicSignals.of_decision hd).2.1, ← (PublicSignals.of_decision hd').2.1,
      Except.ok.inj hread]
  subst hverdicts
  obtain rfl := Except.ok.inj (hd.symm.trans hd')
  have hfirst : c.toList = c'.toList := by
    rw [← SealedProof.commitment_of_bytes (p := (made s nonce d c).sealed) rfl,
      ← SealedProof.commitment_of_bytes (p := (made s nonce d c').sealed) rfl]
    exact hcommitment
  rw [Bytes32.ext hfirst]

/-- A proof is accepted exactly if it is made of some verdicts and a commitment, and there is one
for each choice of them. Proofs with the same signals and the same commitment are the same. -/
theorem verify_iff_made (p : ContextProof) (s : Snapshot) (nonce : Nonce) :
    (p.verify s nonce = true ↔
      (∃ b ∈ nonce.bytes, Text.isAsciiBlank b = false) ∧ p.policyVersion = s.version ∧
        ∃ (v : Verdicts) (commitment : Bytes32) (d : Decision) (h : Digest), v.risk ≤ 100 ∧
          v.decision (s.policy.contributions nonce v) s.policy.access nonce s.version = .ok d ∧
          h = Statement.hash ⟨s, nonce, d.signals⟩ ∧
          p.signals = d.signals.toList ∧ p.artifact = d.artifact ∧ p.sealed.statementHash = h ∧
          p.sealed.bytes = [0x01, 0x0a, 0x00] ++ commitment.toList
            ++ (sealTag s.version h commitment).toList ++ h.toList) ∧
      (∀ v : Verdicts, v.risk ≤ 100 → ∃ d,
        v.decision (s.policy.contributions nonce v) s.policy.access nonce s.version = .ok d) ∧
      ∀ q : ContextProof, p.verify s nonce = true → q.verify s nonce = true →
        p.signals = q.signals →
        (p.sealed.bytes.drop 3).take 32 = (q.sealed.bytes.drop 3).take 32 → p = q := by
  refine ⟨?_, fun v hv => Verdicts.exists_decision hv _ _ _ _, fun q => eq_of_verify⟩
  rw [verify_iff_exists_made]
  constructor
  · rintro ⟨hnonce, v, d, commitment, hrisk, hd, rfl⟩
    exact ⟨hnonce, rfl, v, commitment, d, _, hrisk, hd, rfl, rfl, rfl, rfl, rfl⟩
  · rintro ⟨hnonce, hversion, v, commitment, d, h, hrisk, hd, rfl, hsignals, hartifact, hhash,
      hbytes⟩
    refine ⟨hnonce, v, d, commitment, hrisk, hd, ?_⟩
    rcases p with ⟨artifact, signals, version, ⟨bytes, statementHash⟩⟩
    subst hversion hsignals hartifact hhash hbytes
    rfl

end AccessContext.ContextProof
