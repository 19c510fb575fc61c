import AccessContext.Proofs.Disclosure

/-!
# Categories that are not required

Two requests that differ in one category alone, in what they show of it or in showing it at all, are
compared under a policy that does not require the category. Nothing else is judged differently, the
overall decision is the same, and the trust scores differ by the category's share of the scale: each
weight is a multiple of four, so rounding the sum of the points down to a quarter loses none of it.
Main statement: `Witness.evaluate_optional`.
-/

namespace AccessContext

/-- The part of the trust score that a category decides about. -/
def Category.share : Category → Nat
  | device => 30
  | time => 20
  | location => 25
  | pattern => 25

/-- What one category contributes. -/
def Contributions.get (hashes : Contributions) : Category → Digest
  | .device => hashes.device
  | .time => hashes.time
  | .location => hashes.location
  | .pattern => hashes.pattern

/-! ### Verdicts that differ in one category -/

namespace Verdicts

variable {v v' : Verdicts} {c : Category} {r : Requirements}

/-- The overall verdict looks at required categories alone. -/
theorem overall_congr (h : ∀ d, r.contains d = true → v.get d = v'.get d) :
    v.overall r = v'.overall r := by
  have hchecks : (fun d => !r.contains d || v.get d) = fun d => !r.contains d || v'.get d := by
    funext d
    cases hd : r.contains d with
    | false => rfl
    | true => rw [h d hd]
  rw [overall_eq_all, overall_eq_all, hchecks]

/-- Whether verdicts say the same of all categories but one; the risk belongs to the pattern. -/
structure AgreeOff (v v' : Verdicts) (c : Category) : Prop where
  get_eq : ∀ d, d ≠ c → v.get d = v'.get d
  risk_eq : c ≠ .pattern → v.risk = v'.risk

theorem AgreeOff.symm (h : v.AgreeOff v' c) : v'.AgreeOff v c where
  get_eq d hd := (h.get_eq d hd).symm
  risk_eq hc := (h.risk_eq hc).symm

/-- A category other than the pattern is worth four times its share in points. -/
theorem AgreeOff.points_eq (h : v.AgreeOff v' c) (hc : c ≠ .pattern) :
    v.points + 4 * (c.share * (v'.get c).toNat) = v'.points + 4 * (c.share * (v.get c).toNat) := by
  have hrisk := h.risk_eq hc
  cases c with
  | device =>
    have htime : v.time = v'.time := h.get_eq .time nofun
    have hlocation : v.location = v'.location := h.get_eq .location nofun
    simp only [points, Category.share, get, htime, hlocation, hrisk]
    omega
  | time =>
    have hdevice : v.device = v'.device := h.get_eq .device nofun
    have hlocation : v.location = v'.location := h.get_eq .location nofun
    simp only [points, Category.share, get, hdevice, hlocation, hrisk]
    omega
  | location =>
    have hdevice : v.device = v'.device := h.get_eq .device nofun
    have htime : v.time = v'.time := h.get_eq .time nofun
    simp only [points, Category.share, get, hdevice, htime, hrisk]
    omega
  | pattern => exact absurd rfl hc

/-- No category is worth more than four times its share. -/
theorem AgreeOff.points_le (h : v.AgreeOff v' c) : v.points ≤ v'.points + 4 * c.share := by
  by_cases hc : c = .pattern
  · subst hc
    have hdevice : v.device = v'.device := h.get_eq .device nofun
    have htime : v.time = v'.time := h.get_eq .time nofun
    have hlocation : v.location = v'.location := h.get_eq .location nofun
    simp only [points, Category.share, hdevice, htime, hlocation]
    omega
  · have heq := h.points_eq hc
    have hle : c.share * (v.get c).toNat ≤ c.share * 1 :=
      Nat.mul_le_mul_left c.share (v.get c).toNat_le
    omega

/-- The share survives rounding: trust scores are equal if the verdicts on the category are, and else
the better verdict has exactly its share more. -/
theorem AgreeOff.trust_eq (h : v.AgreeOff v' c) (hc : c ≠ .pattern) {t t' : UInt8}
    (ht : v.trust = .ok t) (ht' : v'.trust = .ok t') :
    t.toNat + c.share * (v'.get c).toNat = t'.toNat + c.share * (v.get c).toNat := by
  have hpoints := h.points_eq hc
  rw [(trust_eq_ok_iff.mp ht).2, (trust_eq_ok_iff.mp ht').2]
  omega

theorem AgreeOff.trust_le (h : v.AgreeOff v' c) {t t' : UInt8} (ht : v.trust = .ok t)
    (ht' : v'.trust = .ok t') : t.toNat ≤ t'.toNat + c.share := by
  have hpoints := h.points_le
  rw [(trust_eq_ok_iff.mp ht).2, (trust_eq_ok_iff.mp ht').2]
  omega

end Verdicts

/-! ### Evaluations -/

namespace Evaluation

/-- What the categories contribute to the audit commitment of an evaluation. -/
def contributions (e : Evaluation) (s : Snapshot) (nonce : Nonce) : Contributions :=
  .ofChecks s.policy nonce e.device e.time e.location e.pattern

variable {e e' : Evaluation} {c : Category}

theorem AgreeOn.contributions_eq (h : e.AgreeOn e' c) (s : Snapshot) (nonce : Nonce) :
    (e.contributions s nonce).get c = (e'.contributions s nonce).get c := by
  cases c with
  | device =>
    have hdevice : e.device = e'.device := h
    simp only [contributions, Contributions.ofChecks, Contributions.get, hdevice]
  | time =>
    have htime : e.time = e'.time := h
    simp only [contributions, Contributions.ofChecks, Contributions.get, htime]
  | location =>
    have hlocation : e.location = e'.location := h
    simp only [contributions, Contributions.ofChecks, Contributions.get, hlocation]
  | pattern =>
    have hpattern : e.pattern = e'.pattern := h
    simp only [contributions, Contributions.ofChecks, Contributions.get, hpattern]

theorem verdicts_agreeOff (h : ∀ d, d ≠ c → e.AgreeOn e' d) :
    e.verdicts.AgreeOff e'.verdicts c where
  get_eq d hd := (h d hd).verdict_eq
  risk_eq hc := (h .pattern (Ne.symm hc)).risk_eq

end Evaluation

namespace Witness

/-- Of two requests that differ in one category, under a policy that does not require it, both are
judged alike in every other category, down to what these contribute to the audit commitment, and the
overall decisions agree. The trust scores differ by no more than the share of the category. For
device, time and location they agree if the verdicts on the category do, and else the request that
passes has exactly the share more. -/
theorem evaluate_optional (w w' : Witness) (s : Snapshot) (nonce : Nonce) (c : Category)
    (e e' : Evaluation) (hoptional : s.policy.access.requirements.contains c = false)
    (hagree : ∀ d, d ≠ c → w.AgreeOn w' d) (he : w.evaluate s nonce = .ok e)
    (he' : w'.evaluate s nonce = .ok e') :
    e.decision.artifact.overall = e'.decision.artifact.overall ∧
      (∀ d, d ≠ c → e.AgreeOn e' d ∧
        (e.contributions s nonce).get d = (e'.contributions s nonce).get d) ∧
      e.decision.artifact.trust.toNat ≤ e'.decision.artifact.trust.toNat + c.share ∧
      e'.decision.artifact.trust.toNat ≤ e.decision.artifact.trust.toNat + c.share ∧
      (c ≠ .pattern →
        (e.verdicts.get c = e'.verdicts.get c →
          e.decision.artifact.trust = e'.decision.artifact.trust) ∧
        (e.verdicts.get c = true → e'.verdicts.get c = false →
          e.decision.artifact.trust.toNat = e'.decision.artifact.trust.toNat + c.share) ∧
        (e.verdicts.get c = false → e'.verdicts.get c = true →
          e'.decision.artifact.trust.toNat = e.decision.artifact.trust.toNat + c.share)) := by
  have houtcome := evaluate_eq_ok_iff.mp he
  have houtcome' := evaluate_eq_ok_iff.mp he'
  obtain ⟨hoverall, htrust⟩ := Verdicts.artifact_of_decision houtcome.decision_of_verdicts
  obtain ⟨hoverall', htrust'⟩ := Verdicts.artifact_of_decision houtcome'.decision_of_verdicts
  have hchecks (d : Category) (hd : d ≠ c) : e.AgreeOn e' d :=
    houtcome.checks_congr houtcome' (hagree d hd)
  have hverdicts := Evaluation.verdicts_agreeOff hchecks
  refine ⟨?_, fun d hd => ⟨hchecks d hd, (hchecks d hd).contributions_eq s nonce⟩,
    hverdicts.trust_le htrust htrust', hverdicts.symm.trust_le htrust' htrust, fun hc => ?_⟩
  · rw [hoverall, hoverall']
    apply Verdicts.overall_congr
    intro d hd
    apply hverdicts.get_eq
    rintro rfl
    rw [hoptional] at hd
    cases hd
  · have heq := hverdicts.trust_eq hc htrust htrust'
    refine ⟨fun hsame => ?_, fun hpassed hfailed => ?_, fun hfailed hpassed => ?_⟩
    · rw [hsame] at heq
      exact UInt8.toNat_inj.mp (Nat.add_right_cancel heq)
    · simpa [hpassed, hfailed] using heq
    · simpa [hpassed, hfailed] using heq.symm

/-- A place that the lenient policy authorizes. -/
def nearby : Witness :=
  { empty with location := some ⟨⟨30, 40⟩, .origin, .origin, 1⟩ }

theorem evaluate_optional_nearby :
    Snapshot.lenient.policy.access.requirements.contains .location = false ∧
      (∀ d, d ≠ .location → nearby.AgreeOn farAway d) ∧
      ∃ e e', nearby.evaluate Snapshot.lenient ⟨[1]⟩ = .ok e ∧
        farAway.evaluate Snapshot.lenient ⟨[1]⟩ = .ok e' ∧
        e.decision.artifact.overall = e'.decision.artifact.overall ∧
        e.decision.artifact.trust.toNat = e'.decision.artifact.trust.toNat + 25 := by
  have hoptional : Snapshot.lenient.policy.access.requirements.contains .location = false := by decide
  have hagree (d : Category) (hd : d ≠ .location) : nearby.AgreeOn farAway d := by
    cases d with
    | location => exact absurd rfl hd
    | _ => rfl
  have hfault : nearby.fault? = none := by decide
  obtain ⟨e, he⟩ : ∃ e, nearby.evaluate Snapshot.lenient ⟨[1]⟩ = .ok e :=
    exists_evaluate rfl rfl rfl hfault
  obtain ⟨-, e', -, he', -⟩ := exists_evaluate_farAway
  have hpassed : e.verdicts.get .location = true := by
    change e.location.any LocationChecks.verified = true
    rw [(evaluate_eq_ok_iff.mp he).location_eq]
    decide
  have hfailed : e'.verdicts.get .location = false := by
    change e'.location.any LocationChecks.verified = false
    rw [(evaluate_eq_ok_iff.mp he').location_eq]
    decide
  obtain ⟨hoverall, -, -, -, htrust⟩ := evaluate_optional nearby farAway Snapshot.lenient ⟨[1]⟩
    .location e e' hoptional hagree he he'
  exact ⟨hoptional, hagree, e, e', he, he', hoverall, (htrust nofun).2.1 hpassed hfailed⟩

end Witness

end AccessContext
