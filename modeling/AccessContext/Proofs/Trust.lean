import AccessContext.Proofs.Calendar
import AccessContext.Proofs.Device
import AccessContext.Proofs.Disclosure

/-!
# Trust in a full context

A request that passes in all four categories passes overall, whatever a policy requires, and what is
left between it and the whole scale is the share of its timing in the risk. The share is at most 30
points of 400, so every level but the highest is met; the highest takes the whole scale, and is met
exactly if the share is rounded down to nothing. So a context can pass everywhere and still be denied.
Main statement: `Witness.evaluate_allPassed`.
-/

namespace AccessContext

/-! ### Verdicts -/

namespace Verdicts

variable {v : Verdicts}

theorem overall_of_allPassed (hpass : ∀ c, v.get c = true) (r : Requirements) :
    v.overall r = true := by
  rw [overall_eq_all, List.all_eq_true]
  intro c _
  rw [hpass c, Bool.or_true]

theorem trust_of_allPassed (hpass : ∀ c, v.get c = true) {t : UInt8} (ht : v.trust = .ok t) :
    t.toNat = (400 - v.risk.toNat) / 4 := by
  have hdevice : v.device = true := hpass .device
  have htime : v.time = true := hpass .time
  have hlocation : v.location = true := hpass .location
  obtain ⟨hrisk, htrust⟩ := trust_eq_ok_iff.mp ht
  rw [htrust, points, hdevice, htime, hlocation]
  simp only [Bool.toNat_true]
  omega

end Verdicts

/-- The score of a full context reaches every level but the highest, which takes the whole scale. -/
theorem Level.isReached_iff_of_le {t : UInt8} (hlow : 92 ≤ t.toNat) (hhigh : t.toNat ≤ 100)
    (level : Level) : level.isReached t = true ↔ level ≠ .maximum ∨ t = 100 := by
  have hscale : t = 100 ↔ t.toNat = 100 := UInt8.toNat_inj.symm
  rw [hscale, isReached_eq, decide_eq_true_iff]
  cases level
  all_goals
    simp [number]
    omega

/-! ### Decisions -/

/-- Whether a decision is the one on a behavior and three other categories that all passed. -/
structure Decision.AllPassed (d : Decision) (b : BehaviorWitness) (p : Policy) : Prop where
  overall : d.artifact.overall = true
  risk : d.signals.risk.toNat = 30 * b.deviation.toNat / p.pattern.maxVariance.toNat
  risk_le : d.signals.risk.toNat ≤ 30
  risk_lt : d.signals.risk < p.pattern.riskThreshold
  trust : d.artifact.trust.toNat = (400 - d.signals.risk.toNat) / 4
  trust_ge : 92 ≤ d.artifact.trust.toNat
  trust_le : d.artifact.trust.toNat ≤ 100
  trust_eq_iff : d.artifact.trust = 100 ↔ 30 * b.deviation.toNat < p.pattern.maxVariance.toNat
  levelMet_iff : d.artifact.levelMet = true ↔
    p.access.level ≠ .maximum ∨ 30 * b.deviation.toNat < p.pattern.maxVariance.toNat

/-- Whether two snapshots differ at most in the access policy. -/
def Snapshot.AgreeOffAccess (s s' : Snapshot) : Prop :=
  s'.policy = { s.policy with access := s'.policy.access }

namespace Evaluation.IsOutcome

variable {e e' : Evaluation} {w : Witness} {s s' : Snapshot} {nonce : Nonce}

theorem verdict_eq (h : e.IsOutcome w s nonce) (c : Category) :
    e.decision.artifact.verdict c = e.verdicts.get c :=
  Verdicts.verdict_of_decision h.decision c

/-- The behavior that passed, with its checks. -/
theorem exists_behavior (h : e.IsOutcome w s nonce) (hpass : e.verdicts.get .pattern = true) :
    ∃ (b : BehaviorWitness) (c : PatternChecks), w.behavior = some b ∧
      c.IsOutcome b s.policy.pattern ∧ c.verified = true ∧ e.verdicts.risk = c.risk := by
  have hany : e.pattern.any PatternChecks.verified = true := hpass
  obtain ⟨c, hc, hverified⟩ := (Option.any_eq_true _ _).mp hany
  obtain ⟨b, hb, hchecks⟩ := exists_of_ifPresent h.pattern_checks hc
  have hrisk : e.verdicts.risk = (e.pattern.map PatternChecks.risk).getD fullRisk := rfl
  refine ⟨b, c, hb, (BehaviorWitness.isOutcome_of_checks hchecks).2, hverified, ?_⟩
  rw [hrisk, hc]
  rfl

theorem allPassed (h : e.IsOutcome w s nonce) (hpass : ∀ c, e.verdicts.get c = true) :
    ∃ b, w.behavior = some b ∧ e.decision.AllPassed b s.policy := by
  obtain ⟨b, c, hb, houtcome, hverified, hrisk⟩ := h.exists_behavior (hpass .pattern)
  obtain ⟨hshare, hle, hlt⟩ := houtcome.risk_of_verified hverified
  obtain ⟨t, htrust, hd⟩ := Verdicts.decision_eq_ok_iff.mp h.decision_of_verdicts
  have hscore := Verdicts.trust_of_allPassed hpass htrust
  rw [hrisk] at hscore
  have hlow : 92 ≤ t.toNat := by omega
  have hhigh : t.toNat ≤ 100 := by omega
  -- The scale is whole exactly if the share of the timing is rounded down to nothing.
  have hwhole : t = 100 ↔ 30 * b.deviation.toNat < s.policy.pattern.maxVariance.toNat := by
    have hnone : t = 100 ↔ c.risk.toNat = 0 := by
      rw [← UInt8.toNat_inj, hscore, show (100 : UInt8).toNat = 100 from rfl]
      omega
    have hpos := toNat_pos_of_ne_zero s.maxVariance_ne_zero
    rw [hnone, hshare, Nat.div_eq_zero_iff_lt hpos]
  refine ⟨b, hb, ?_⟩
  rw [hd, hrisk]
  exact
    { overall := Verdicts.overall_of_allPassed hpass _
      risk := hshare
      risk_le := hle
      risk_lt := hlt
      trust := hscore
      trust_ge := hlow
      trust_le := hhigh
      trust_eq_iff := hwhole
      levelMet_iff := by rw [← hwhole]; exact Level.isReached_iff_of_le hlow hhigh _ }

/-- No check depends on the access policy. -/
theorem verdicts_congr_access (h : e.IsOutcome w s nonce) (h' : e'.IsOutcome w s' nonce)
    (hagree : s.AgreeOffAccess s') : e.verdicts = e'.verdicts := by
  have hpattern : e.pattern = e'.pattern := by
    have hchecks := h'.pattern_checks
    rw [hagree, h.pattern_checks] at hchecks
    exact Except.ok.inj hchecks
  rw [verdicts, verdicts, h.device_eq, h.time_eq, h.location_eq, h'.device_eq, h'.time_eq,
    h'.location_eq, hpattern, hagree]

end Evaluation.IsOutcome

namespace Witness

variable {w : Witness} {s s' : Snapshot} {nonce : Nonce} {e : Evaluation}

/-- Whatever is required of a request that shows every category, it lacks none. -/
theorem exists_evaluate_access (h : e.IsOutcome w s nonce) (hagree : s.AgreeOffAccess s')
    (hhas : ∀ c, w.has c = true) : ∃ e', w.evaluate s' nonce = .ok e' := by
  have hversion : s'.version = s.version := by rw [Snapshot.version, hagree, Snapshot.version]
  refine exists_evaluate h.challenge ?_ ?_ h.fault?_eq
  · rw [checkVersion_eq_ok_iff, hversion]
    exact checkVersion_eq_ok_iff.mp h.version
  · refine checkRequired_eq_ok_iff.mpr fun c hlacks => ?_
    have hpresent := hhas c
    rw [hlacks.2] at hpresent
    cases hpresent

/-- Of a request that passes in all four categories, the risk is the share of its timing, rounded down,
and the trust score is a quarter of what the risk leaves, rounded down. It passes overall and reaches
every level but the highest, which it reaches exactly if nothing is left of the share; and it comes to
the same under any other access policy. -/
theorem evaluate_allPassed (w : Witness) (s : Snapshot) (nonce : Nonce) (e : Evaluation)
    (he : w.evaluate s nonce = .ok e) (hpass : ∀ c, e.decision.artifact.verdict c = true) :
    ∃ b, w.behavior = some b ∧ e.decision.AllPassed b s.policy ∧
      ∀ s', s.AgreeOffAccess s' →
        ∃ e', w.evaluate s' nonce = .ok e' ∧ e'.decision.AllPassed b s'.policy := by
  have houtcome := evaluate_eq_ok_iff.mp he
  have hverdicts (c : Category) : e.verdicts.get c = true := by
    rw [← houtcome.verdict_eq, hpass]
  have hhas (c : Category) : w.has c = true := by
    by_contra habsent
    have hfailed := houtcome.verdict_of_absent (Bool.eq_false_iff.mpr habsent)
    rw [hverdicts] at hfailed
    cases hfailed
  obtain ⟨b, hb, hallPassed⟩ := houtcome.allPassed hverdicts
  refine ⟨b, hb, hallPassed, fun s' hagree => ?_⟩
  obtain ⟨e', he'⟩ := exists_evaluate_access houtcome hagree hhas
  have houtcome' := evaluate_eq_ok_iff.mp he'
  obtain ⟨b', hb', hallPassed'⟩ := houtcome'.allPassed
    (houtcome.verdicts_congr_access houtcome' hagree ▸ hverdicts)
  obtain rfl := Option.some.inj (hb.symm.trans hb')
  exact ⟨e', he', hallPassed'⟩

theorem verdict_guarded {level : Level} (he : fullContext.evaluate (guarded level) ⟨[1]⟩ = .ok e)
    (c : Category) : e.decision.artifact.verdict c = true := by
  have houtcome := evaluate_eq_ok_iff.mp he
  rw [houtcome.verdict_eq]
  cases c with
  | device =>
    have hpasses : (Enrollment.alone.witness ⟨[1]⟩).Passes (Enrollment.alone.policy []) ⟨[1]⟩ :=
      Enrollment.passes_witness_iff.mpr List.not_mem_nil
    have hdevice : e.device = some (DeviceWitness.checks _ _ _) := houtcome.device_eq
    change e.device.any DeviceChecks.verified = true
    rw [hdevice, Option.any_some]
    exact DeviceWitness.verified_checks_iff.mpr hpasses
  | time =>
    have hchecks : (TimeWitness.lateEvening.checks TimeWitness.nightShift).IsOutcome _ _ :=
      TimeWitness.isOutcome_checks (by decide) (by decide)
    have htime : e.time = some (TimeWitness.checks _ _) := houtcome.time_eq
    change e.time.any TimeChecks.verified = true
    rw [htime, Option.any_some]
    exact TimeWitness.verified_lateEvening hchecks
  | location =>
    have hverified : (LocationWitness.checks ⟨.origin, .origin, .origin, 1⟩
      ⟨⟨.origin, 2500⟩, none, 100, 0, true⟩).verified = true := by decide
    have hlocation : e.location = some (LocationWitness.checks _ _) := houtcome.location_eq
    change e.location.any LocationChecks.verified = true
    rw [hlocation, Option.any_some]
    exact hverified
  | pattern =>
    obtain ⟨c, hc, hchecks⟩ := BehaviorWitness.exists_checks (w := .jittery)
      (p := BehaviorWitness.learned 176) (by decide)
    have hpattern : e.pattern = some c := by
      have hpresent := houtcome.pattern_checks
      change (BehaviorWitness.checks .jittery (BehaviorWitness.learned 176)).map some = _ at hpresent
      rw [hc] at hpresent
      exact (Except.ok.inj hpresent).symm
    change e.pattern.any PatternChecks.verified = true
    rw [hpattern]
    exact (BehaviorWitness.verified_jittery hchecks).1

/-- The request passes everywhere, and reaches the third level but not the fourth. -/
theorem evaluate_allPassed_guarded :
    ∃ e e', fullContext.evaluate (guarded .maximum) ⟨[1]⟩ = .ok e ∧
      (∀ c, e.decision.artifact.verdict c = true) ∧ e.decision.artifact.overall = true ∧
      e.decision.signals.risk.toNat = 15 ∧ e.decision.artifact.trust.toNat = 96 ∧
      e.decision.artifact.levelMet = false ∧
      fullContext.evaluate (guarded .high) ⟨[1]⟩ = .ok e' ∧ e'.decision.artifact.levelMet = true := by
  obtain ⟨e, he⟩ := exists_evaluate_guarded .maximum
  have hpass (c : Category) : e.decision.artifact.verdict c = true := verdict_guarded he c
  obtain ⟨b, hb, hallPassed, haccess⟩ :=
    evaluate_allPassed fullContext (guarded .maximum) ⟨[1]⟩ e he hpass
  obtain rfl := Option.some.inj hb
  obtain ⟨e', he', hallPassed'⟩ := haccess (guarded .high) rfl
  have hrisk : e.decision.signals.risk.toNat = 15 := by
    rw [hallPassed.risk, BehaviorWitness.deviation_jittery]
    decide
  have hlevel : ¬ e.decision.artifact.levelMet = true := by
    rw [hallPassed.levelMet_iff, BehaviorWitness.deviation_jittery]
    decide
  refine ⟨e, e', he, hpass, hallPassed.overall, hrisk, ?_, Bool.eq_false_iff.mpr hlevel, he',
    hallPassed'.levelMet_iff.mpr (.inl (by decide))⟩
  rw [hallPassed.trust, hrisk]

end Witness

end AccessContext
