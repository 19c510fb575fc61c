import AccessContext.Proofs.Acceptance
import AccessContext.Proofs.Calendar
import AccessContext.Proofs.Device
import AccessContext.Proofs.Refusal

/-!
# Issued proofs

A proof that is issued verifies, whichever categories are present and whether the decision is good
or bad: words are read back as the signals they were written from, the contributions of the checks
are those that the policy implies for their verdicts, and the seal is laid out as it is read. Main
statement: `Witness.verify_of_prove`.
-/

namespace AccessContext

/-! ### Contributions -/

/-- Present or absent, every category contributes what the policy implies for its verdict. -/
theorem Evaluation.IsOutcome.contributions_eq {e : Evaluation} {w : Witness} {s : Snapshot}
    {nonce : Nonce} (h : e.IsOutcome w s nonce) :
    Contributions.ofChecks s.policy nonce e.device e.time e.location e.pattern =
      s.policy.contributions nonce (.ofChecks e.device e.time e.location e.pattern) := by
  have hpattern : (e.pattern.map PatternChecks.proofHash).getD
      (s.policy.pattern.proofHash false fullRisk) = s.policy.pattern.proofHash
        (e.pattern.any PatternChecks.verified)
        ((e.pattern.map PatternChecks.risk).getD fullRisk) := by
    cases hc : e.pattern with
    | none => rfl
    | some c =>
      obtain ⟨b, -, hb⟩ := exists_of_ifPresent h.pattern_checks hc
      exact (BehaviorWitness.isOutcome_of_checks hb).2.proofHash
  rw [Contributions.ofChecks, Policy.contributions, hpattern, h.device_eq, h.time_eq, h.location_eq]
  cases w.device <;> cases w.time <;> cases w.location <;> rfl

/-- The verdicts and the risk that the checks came to. -/
def Evaluation.verdicts (e : Evaluation) : Verdicts :=
  .ofChecks e.device e.time e.location e.pattern

/-- The decision depends on the witness through the verdicts and the risk alone. -/
theorem Evaluation.IsOutcome.decision_of_verdicts {e : Evaluation} {w : Witness} {s : Snapshot}
    {nonce : Nonce} (h : e.IsOutcome w s nonce) :
    e.verdicts.decision (s.policy.contributions nonce e.verdicts) s.policy.access nonce s.version =
      .ok e.decision := by
  rw [verdicts, ← h.contributions_eq]
  exact h.decision

theorem Statement.seals_sealWith (s : Statement) (w : Witness) (blinding : Bytes32) :
    (s.sealWith w blinding).seals s = true :=
  SealedProof.seals_iff.mpr ⟨w.blinded blinding, rfl, rfl⟩

namespace Witness

variable {w : Witness} {s : Snapshot} {nonce : Nonce} {blinding : Bytes32}

/-- A proof is issued exactly for an evaluation, and holds its decision. -/
theorem prove_eq_ok_iff {p : ContextProof} :
    w.prove s nonce blinding = .ok p ↔ ∃ e, w.evaluate s nonce = .ok e ∧
      p = ⟨e.decision.artifact, e.decision.signals.toList, s.version,
        Statement.sealWith ⟨s, nonce, e.decision.signals⟩ w blinding⟩ := by
  rw [prove]
  rw [bind_eq_ok_iff]
  constructor
  · rintro ⟨e, he, hp⟩
    exact ⟨e, he, (Except.ok.inj hp).symm⟩
  · rintro ⟨e, he, rfl⟩
    exact ⟨e, he, rfl⟩

theorem check_of_prove {p : ContextProof} (h : w.prove s nonce blinding = .ok p) :
    p.check s nonce = .ok () := by
  obtain ⟨e, he, rfl⟩ := prove_eq_ok_iff.mp h
  have houtcome := evaluate_eq_ok_iff.mp he
  have hdecision : e.decision.signals.verdicts.decision
      (s.policy.contributions nonce e.decision.signals.verdicts) s.policy.access nonce s.version =
        .ok e.decision := by
    rw [houtcome.verdicts_eq]
    exact houtcome.decision_of_verdicts
  exact ContextProof.check_eq_ok_iff.mpr ⟨houtcome.challenge, rfl, e.decision.signals, e.decision,
    ContextProof.ofList_of_decision houtcome.decision,
    (PublicSignals.of_decision houtcome.decision).2.2, hdecision, rfl, rfl,
    Statement.seals_sealWith _ w blinding⟩

/-! ### A request that shows every category -/

/-- A request that shows an enrolled device, a time, a place and a session with irregular timing. -/
def fullContext : Witness where
  device := some (Enrollment.alone.witness ⟨[1]⟩)
  time := some .lateEvening
  location := some ⟨.origin, .origin, .origin, 1⟩
  behavior := some .jittery
  policyVersion := some 1

/-- A snapshot that requires all of it. -/
def guarded (level : Level) : Snapshot where
  policy :=
    { version := 1
      device := Enrollment.alone.policy []
      time := TimeWitness.nightShift
      location := ⟨⟨.origin, 2500⟩, none, 100, 0, true⟩
      pattern := BehaviorWitness.learned 176
      access := ⟨.all, level⟩ }
  digest := _
  fault?_eq := by cases level <;> decide +kernel
  digest_eq := rfl

theorem exists_evaluate_guarded (level : Level) :
    ∃ e, fullContext.evaluate (guarded level) ⟨[1]⟩ = .ok e := by
  have hfault : fullContext.fault? = none := by decide +kernel
  have hcomplete (c : Category) : ¬ fullContext.Lacks (guarded level) c := by
    rintro ⟨-, habsent⟩
    cases c <;> cases habsent
  exact exists_evaluate rfl rfl (checkRequired_eq_ok_iff.mpr hcomplete) hfault

/-! ### Verification -/

/-- A proof is issued whenever a request can be evaluated, and every proof that is issued verifies
against the snapshot and the challenge it was made for. -/
theorem verify_of_prove (w : Witness) (s : Snapshot) (nonce : Nonce) (blinding : Bytes32) :
    ((∃ p, w.prove s nonce blinding = .ok p) ↔ ∃ e, w.evaluate s nonce = .ok e) ∧
      ∀ p, w.prove s nonce blinding = .ok p →
        p.check s nonce = .ok () ∧ p.verify s nonce = true := by
  constructor
  · constructor
    · rintro ⟨p, hp⟩
      obtain ⟨e, he, -⟩ := prove_eq_ok_iff.mp hp
      exact ⟨e, he⟩
    · rintro ⟨e, he⟩
      exact ⟨_, prove_eq_ok_iff.mpr ⟨e, he, rfl⟩⟩
  · intro p hp
    have hcheck := check_of_prove hp
    refine ⟨hcheck, ?_⟩
    rw [ContextProof.verify, hcheck]

theorem verify_of_prove_fullContext :
    ∃ p, fullContext.prove (guarded .maximum) ⟨[1]⟩ .zero = .ok p ∧
      p.check (guarded .maximum) ⟨[1]⟩ = .ok () ∧ p.verify (guarded .maximum) ⟨[1]⟩ = true := by
  obtain ⟨hissued, hverifies⟩ := verify_of_prove fullContext (guarded .maximum) ⟨[1]⟩ .zero
  obtain ⟨p, hp⟩ := hissued.mpr (exists_evaluate_guarded .maximum)
  exact ⟨p, hp, hverifies p hp⟩

end Witness

end AccessContext
