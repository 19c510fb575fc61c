import AccessContext.Proofs.Device
import AccessContext.Proofs.Disclosure

/-!
# What an audit commitment binds

An audit commitment is a hash of hashes: over the decision, the challenge, the version of the policy
and a hash for each category, which in turn covers a part of the policy and the verdict. Every field
stands in one place of one hashed string, so two decisions with the same commitment agree in all of
them, unless the hash fails to tell two strings apart that stand in the same place. Of the device's
policy the list of revoked devices is not covered, and a policy without whitelist is not told from one
whose whitelist has a zero root; of the location's policy the authorized region alone is covered.
Main statement: `Witness.audit_eq_iff`.
-/

namespace AccessContext

/-! ### The strings that are hashed -/

/-- The string that a category hashes under a policy, for a challenge and its verdict. -/
def Policy.categoryPreimage (p : Policy) (nonce : Nonce) (v : Verdicts) : Category → List UInt8
  | .device => commitPreimage (utf8 "zkctx/device-proof/v1") (p.device.proofParts nonce v.device)
  | .time => commitPreimage (utf8 "zkctx/time-proof/v1") (p.time.proofParts v.time)
  | .location => commitPreimage (utf8 "zkctx/location-proof/v1") (p.location.proofParts v.location)
  | .pattern =>
    commitPreimage (utf8 "zkctx/pattern-proof/v1") (p.pattern.proofParts v.pattern v.risk)

/-- The string behind the audit commitment of an evaluation. -/
def Evaluation.auditPreimage (e : Evaluation) (s : Snapshot) (nonce : Nonce) : List UInt8 :=
  commitPreimage (utf8 "zkctx/audit/v1")
    (auditParts e.decision.signals.overall e.decision.signals.trust s.policy.access nonce s.version
      (s.policy.contributions nonce e.verdicts))

/-! ### The parts of each string -/

theorem TimePolicy.proofParts_inj {p q : TimePolicy} {v v' : Bool} :
    p.proofParts v = q.proofParts v' ↔ p = q ∧ v = v' := by
  cases p
  cases q
  simp only [proofParts, List.cons.injEq, leBytes_int64_inj, leBytes_uint32_inj, boolByte_eq_iff,
    TimePolicy.mk.injEq]
  tauto

theorem LocationPolicy.proofParts_inj {p q : LocationPolicy} {v v' : Bool} :
    p.proofParts v = q.proofParts v' ↔ p.authorized = q.authorized ∧ v = v' := by
  rcases p with ⟨⟨center, radiusSq⟩, _⟩
  rcases q with ⟨⟨center', radiusSq'⟩, _⟩
  simp [proofParts, leBytes_uint64_inj, GeoPoint.toBytes_inj, boolByte_eq_iff, and_assoc]

theorem PatternPolicy.proofParts_inj {p q : PatternPolicy} {v v' : Bool} {risk risk' : UInt8} :
    p.proofParts v risk = q.proofParts v' risk' ↔ p.commitment = q.commitment ∧
      p.maxVariance = q.maxVariance ∧ p.riskThreshold = q.riskThreshold ∧
      p.requiredConfidence = q.requiredConfidence ∧ v = v' ∧ risk = risk' := by
  simp [proofParts, Bytes32.toList_inj, leBytes_uint64_inj, boolByte_eq_iff, and_assoc]

/-- The string behind an audit commitment determines the decision, the challenge, the version and the
contributions of the categories, as all parts but the challenge have fixed lengths. -/
theorem auditParts_inj {overall overall' : Bool} {trust trust' : UInt8}
    {access access' : AccessPolicy} {m n : Nonce} {version version' : UInt64}
    {hashes hashes' : Contributions}
    (h : commitPreimage (utf8 "zkctx/audit/v1")
        (auditParts overall trust access m version hashes) =
      commitPreimage (utf8 "zkctx/audit/v1")
        (auditParts overall' trust' access' n version' hashes')) :
    access = access' ∧ m = n ∧ version = version' ∧ hashes = hashes' := by
  have hparts := commitPreimage_inj_of_sum (by simp [auditParts, Bytes32.length_toList]) h
  simp only [auditParts, List.cons.injEq, leBytes_uint64_inj, Bytes32.toList_inj] at hparts
  obtain ⟨⟨-, -, hlevel, hrequirements, -⟩, hbytes, hversion, hdevice, htime, hlocation, hpattern,
    -⟩ := hparts
  refine ⟨?_, congrArg Nonce.mk hbytes, hversion, ?_⟩
  · cases access
    cases access'
    rw [AccessPolicy.mk.injEq]
    exact ⟨congrArg Requirements.mk hrequirements, Level.number_inj hlevel⟩
  · cases hashes
    cases hashes'
    rw [Contributions.mk.injEq]
    exact ⟨hdevice, htime, hlocation, hpattern⟩

/-! ### Policies that are audited alike -/

namespace Policy

/-- Whether two policies agree in all that an audit commitment binds beside the decision. -/
structure AuditedAlike (p q : Policy) : Prop where
  version : p.version = q.version
  time : p.time = q.time
  authorized : p.location.authorized = q.location.authorized
  deviceCommitment : p.device.commitment = q.device.commitment
  signerKey : p.device.signerKey = q.device.signerKey
  whitelistRoot : p.device.whitelistRoot.getD .zero = q.device.whitelistRoot.getD .zero
  baseline : p.pattern.commitment = q.pattern.commitment
  maxVariance : p.pattern.maxVariance = q.pattern.maxVariance
  riskThreshold : p.pattern.riskThreshold = q.pattern.riskThreshold
  requiredConfidence : p.pattern.requiredConfidence = q.pattern.requiredConfidence

variable {p q : Policy} {n : Nonce} {v v' : Verdicts}

/-- Verdicts contribute the same under policies that are audited alike. -/
theorem AuditedAlike.contributions_eq (h : p.AuditedAlike q) :
    p.contributions n v = q.contributions n v := by
  have hdevice : p.device.proofParts n v.device = q.device.proofParts n v.device :=
    DevicePolicy.proofParts_inj.mpr ⟨h.deviceCommitment, h.signerKey, h.whitelistRoot, rfl, rfl⟩
  have hlocation : p.location.proofParts v.location = q.location.proofParts v.location :=
    LocationPolicy.proofParts_inj.mpr ⟨h.authorized, rfl⟩
  have hpattern : p.pattern.proofParts v.pattern v.risk = q.pattern.proofParts v.pattern v.risk :=
    PatternPolicy.proofParts_inj.mpr
      ⟨h.baseline, h.maxVariance, h.riskThreshold, h.requiredConfidence, rfl, rfl⟩
  simp only [contributions, DevicePolicy.proofHash, LocationPolicy.proofHash,
    PatternPolicy.proofHash, h.time, hdevice, hlocation, hpattern]

/-- Contributions that agree come from the same verdicts and from policies that agree in what is
hashed, unless two strings of one category collide. -/
theorem eq_of_contributions (hversion : p.version = q.version)
    (hcollide : ∀ c, ¬ Collide (p.categoryPreimage n v c) (q.categoryPreimage n v' c))
    (h : p.contributions n v = q.contributions n v') : v = v' ∧ p.AuditedAlike q := by
  simp only [contributions, Contributions.mk.injEq] at h
  obtain ⟨hdevice, htime, hlocation, hpattern⟩ := h
  obtain ⟨hcommitment, hkey, hroot, -, hdeviceVerdict⟩ := DevicePolicy.proofParts_inj.mp
    (parts_eq_of_commit (hcollide .device)
      (by simp [DevicePolicy.proofParts, Bytes32.length_toList]) hdevice)
  obtain ⟨htimePolicy, htimeVerdict⟩ := TimePolicy.proofParts_inj.mp
    (parts_eq_of_commit (hcollide .time) (by simp [TimePolicy.proofParts]) htime)
  obtain ⟨hregion, hlocationVerdict⟩ := LocationPolicy.proofParts_inj.mp
    (parts_eq_of_commit (hcollide .location)
      (by simp [LocationPolicy.proofParts, GeoPoint.toBytes]) hlocation)
  obtain ⟨hbaseline, hvariance, hthreshold, hconfidence, hpatternVerdict, hrisk⟩ :=
    PatternPolicy.proofParts_inj.mp (parts_eq_of_commit (hcollide .pattern)
      (by simp [PatternPolicy.proofParts, Bytes32.length_toList]) hpattern)
  refine ⟨?_, ⟨hversion, htimePolicy, hregion, hcommitment, hkey, hroot, hbaseline, hvariance,
    hthreshold, hconfidence⟩⟩
  apply Verdicts.ext_get
  · intro c
    cases c with
    | device => exact hdeviceVerdict
    | time => exact htimeVerdict
    | location => exact hlocationVerdict
    | pattern => exact hpatternVerdict
  · exact hrisk

end Policy

/-! ### Decisions -/

/-- Signals are determined by their verdicts, their risk and the access policy. -/
theorem PublicSignals.IsConsistent.eq {g g' : PublicSignals} (h : g.IsConsistent)
    (h' : g'.IsConsistent) (hverdicts : g.verdicts = g'.verdicts) (haccess : g.access = g'.access) :
    g = g' := by
  obtain ⟨hrequirements, hlevel⟩ := AccessPolicy.mk.inj haccess
  have htrust : g.trust = g'.trust := by
    have htrust := h.trust
    rw [hverdicts, h'.trust] at htrust
    exact (Except.ok.inj htrust).symm
  have hoverall : g.overall = g'.overall := by
    rw [h.overall, h'.overall, hverdicts, hrequirements]
  have hlevelMet : g.levelMet = g'.levelMet := by
    rw [h.levelMet, h'.levelMet, hlevel, htrust]
  obtain ⟨hdevice, htime, hlocation, hpattern, hrisk⟩ := Verdicts.mk.inj hverdicts
  cases g
  cases g'
  rw [PublicSignals.mk.injEq]
  exact ⟨hdevice, htime, hlocation, hpattern, hoverall, htrust, hlevelMet, hlevel, hrequirements,
    hrisk⟩

theorem Verdicts.audit_of_decision {v : Verdicts} {hashes : Contributions} {access : AccessPolicy}
    {nonce : Nonce} {version : UInt64} {d : Decision}
    (h : v.decision hashes access nonce version = .ok d) :
    d.artifact.audit =
      auditDigest d.signals.overall d.signals.trust access nonce version hashes := by
  obtain ⟨t, -, rfl⟩ := decision_eq_ok_iff.mp h
  rfl

theorem Evaluation.IsOutcome.audit_eq {e : Evaluation} {w : Witness} {s : Snapshot} {nonce : Nonce}
    (h : e.IsOutcome w s nonce) : e.decision.artifact.audit = sha3 (e.auditPreimage s nonce) :=
  Verdicts.audit_of_decision h.decision_of_verdicts

namespace Witness

/-- Two evaluations have the same audit commitment exactly if they agree in all public signals, in the
challenge, in the version of the policy and in the parts of the policy that are hashed. The hash has
to tell apart the two strings behind the commitments, and for each category the two strings behind
its contributions. -/
theorem audit_eq_iff (w w' : Witness) (s s' : Snapshot) (n n' : Nonce) (e e' : Evaluation)
    (he : w.evaluate s n = .ok e) (he' : w'.evaluate s' n' = .ok e')
    (haudit : ¬ Collide (e.auditPreimage s n) (e'.auditPreimage s' n'))
    (hcategory : ∀ c, ¬ Collide (s.policy.categoryPreimage n e.verdicts c)
      (s'.policy.categoryPreimage n' e'.verdicts c)) :
    e.decision.artifact.audit = e'.decision.artifact.audit ↔
      e.decision.signals = e'.decision.signals ∧ n = n' ∧ s.policy.AuditedAlike s'.policy := by
  have houtcome := evaluate_eq_ok_iff.mp he
  have houtcome' := evaluate_eq_ok_iff.mp he'
  obtain ⟨hconsistent, hverdicts, haccess⟩ := PublicSignals.of_decision houtcome.decision
  obtain ⟨hconsistent', hverdicts', haccess'⟩ := PublicSignals.of_decision houtcome'.decision
  rw [houtcome.audit_eq, houtcome'.audit_eq]
  constructor
  · intro h
    obtain ⟨haccessEq, rfl, hversion, hhashes⟩ :=
      auditParts_inj (eq_of_not_collide haudit h)
    obtain ⟨hverdictsEq, halike⟩ := Policy.eq_of_contributions hversion hcategory hhashes
    refine ⟨hconsistent.eq hconsistent' ?_ ?_, rfl, halike⟩
    · exact hverdicts.trans (hverdictsEq.trans hverdicts'.symm)
    · exact haccess.trans (haccessEq.trans haccess'.symm)
  · rintro ⟨hsignals, rfl, halike⟩
    have hverdictsEq : e.verdicts = e'.verdicts :=
      hverdicts.symm.trans ((congrArg PublicSignals.verdicts hsignals).trans hverdicts')
    have haccessEq : s.policy.access = s'.policy.access :=
      haccess.symm.trans ((congrArg PublicSignals.access hsignals).trans haccess')
    have hversion : s.version = s'.version := halike.version
    rw [Evaluation.auditPreimage, Evaluation.auditPreimage, hsignals, haccessEq, hversion,
      hverdictsEq, halike.contributions_eq]

theorem audit_eq_iff_farAway : ∃ e e', empty.evaluate Snapshot.lenient ⟨[1]⟩ = .ok e ∧
    farAway.evaluate Snapshot.lenient ⟨[1]⟩ = .ok e' ∧
      e.decision.artifact.audit = e'.decision.artifact.audit ∧
      (e.decision.artifact.audit = e'.decision.artifact.audit ↔
        e.decision.signals = e'.decision.signals ∧ Nonce.mk [1] = ⟨[1]⟩ ∧
          Snapshot.lenient.policy.AuditedAlike Snapshot.lenient.policy) := by
  obtain ⟨e, e', he, he', hverdicts⟩ := exists_evaluate_farAway
  have hdecision : e.decision = e'.decision :=
    (evaluate_eq_ok_iff.mp he).decision_congr (evaluate_eq_ok_iff.mp he') hverdicts
  have haudit : ¬ Collide (e.auditPreimage Snapshot.lenient ⟨[1]⟩)
      (e'.auditPreimage Snapshot.lenient ⟨[1]⟩) := by
    rw [Evaluation.auditPreimage, Evaluation.auditPreimage, hdecision, hverdicts]
    exact not_collide_self _
  have hcategory (c : Category) :
      ¬ Collide (Snapshot.lenient.policy.categoryPreimage ⟨[1]⟩ e.verdicts c)
        (Snapshot.lenient.policy.categoryPreimage ⟨[1]⟩ e'.verdicts c) := by
    rw [hverdicts]
    exact not_collide_self _
  have hiff := audit_eq_iff empty farAway Snapshot.lenient Snapshot.lenient ⟨[1]⟩ ⟨[1]⟩ e e' he he'
    haudit hcategory
  refine ⟨e, e', he, he', ?_, hiff⟩
  rw [hdecision]

end Witness

end AccessContext
