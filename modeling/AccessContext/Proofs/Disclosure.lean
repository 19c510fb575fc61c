import AccessContext.Proofs.Issued
import AccessContext.Proofs.Refusal

/-!
# What a proof discloses

Of the whole witness, only the four verdicts and the risk leave the prover. Two requests that are
judged alike under one policy, for one challenge, lead to proofs that agree in everything but the
commitment to the witness and the tag over it, and the tag is computed from what is public. Nothing
tells a category that is absent from one that was shown and failed. That the commitment hides the
witness is not claimed. Main statement: `Witness.prove_alike`.
-/

namespace AccessContext

/-- Verdicts are the same if they say the same of every category and hold the same risk. -/
theorem Verdicts.ext_get {v v' : Verdicts} (hget : ∀ c, v.get c = v'.get c)
    (hrisk : v.risk = v'.risk) : v = v' := by
  have hdevice : v.device = v'.device := hget .device
  have htime : v.time = v'.time := hget .time
  have hlocation : v.location = v'.location := hget .location
  have hpattern : v.pattern = v'.pattern := hget .pattern
  cases v
  cases v'
  simp_all

/-! ### Parts of a witness -/

namespace Witness

/-- Whether two witnesses show the same of a category, or both nothing. -/
def AgreeOn (w w' : Witness) : Category → Prop
  | .device => w.device = w'.device
  | .time => w.time = w'.time
  | .location => w.location = w'.location
  | .pattern => w.behavior = w'.behavior

/-- The witness that keeps a category to itself. -/
def without (w : Witness) : Category → Witness
  | .device => { w with device := none }
  | .time => { w with time := none }
  | .location => { w with location := none }
  | .pattern => { w with behavior := none }

variable {w : Witness} {c d : Category}

theorem has_without_self : (w.without c).has c = false := by
  cases c <;> rfl

theorem without_agreeOn (h : d ≠ c) : (w.without c).AgreeOn w d := by
  cases c <;> cases d <;> first | rfl | exact absurd rfl h

theorem policyVersion_without : (w.without c).policyVersion = w.policyVersion := by
  cases c <;> rfl

/-- A witness agrees with the empty one on what it does not show. -/
theorem agreeOn_empty (h : w.has c = false) : w.AgreeOn empty c := by
  cases c <;> exact Option.isNone_iff_eq_none.mp (Option.isSome_eq_false_iff.mp h)

theorem AgreeOn.has_eq {w' : Witness} (h : w.AgreeOn w' c) : w.has c = w'.has c := by
  cases c <;> exact congrArg Option.isSome h

/-- What is in order stays so when a category is left out. -/
theorem fault?_without (h : w.fault? = none) : (w.without c).fault? = none := by
  obtain ⟨hdevice, htime, hlocation, hbehavior⟩ := fault?_eq_none_iff.mp h
  cases c with
  | device => exact fault?_eq_none_iff.mpr ⟨nofun, htime, hlocation, hbehavior⟩
  | time => exact fault?_eq_none_iff.mpr ⟨hdevice, nofun, hlocation, hbehavior⟩
  | location => exact fault?_eq_none_iff.mpr ⟨hdevice, htime, nofun, hbehavior⟩
  | pattern => exact fault?_eq_none_iff.mpr ⟨hdevice, htime, hlocation, nofun⟩

/-- A category that is not required can be left out. -/
theorem exists_evaluate_without {s : Snapshot} {nonce : Nonce} {e : Evaluation}
    (h : w.evaluate s nonce = .ok e)
    (hoptional : s.policy.access.requirements.contains c = false) :
    ∃ e', (w.without c).evaluate s nonce = .ok e' := by
  have houtcome := evaluate_eq_ok_iff.mp h
  have hversion : (w.without c).checkVersion s = .ok () := by
    rw [checkVersion_eq_ok_iff, policyVersion_without]
    exact checkVersion_eq_ok_iff.mp houtcome.version
  have hrequired : (w.without c).checkRequired s = .ok () := by
    apply checkRequired_eq_ok_iff.mpr
    rintro d ⟨hcontains, habsent⟩
    by_cases hd : d = c
    · rw [hd, hoptional] at hcontains
      cases hcontains
    · rw [(without_agreeOn hd).has_eq] at habsent
      exact checkRequired_eq_ok_iff.mp houtcome.required d ⟨hcontains, habsent⟩
  exact exists_evaluate houtcome.challenge hversion hrequired (fault?_without houtcome.fault?_eq)

end Witness

/-! ### The values that a witness is summed up to -/

namespace Evaluation

/-- Whether two evaluations have the same outcome of the checks on a category, or both none. -/
def AgreeOn (e e' : Evaluation) : Category → Prop
  | .device => e.device = e'.device
  | .time => e.time = e'.time
  | .location => e.location = e'.location
  | .pattern => e.pattern = e'.pattern

variable {e e' : Evaluation} {c : Category}

theorem AgreeOn.verdict_eq (h : e.AgreeOn e' c) : e.verdicts.get c = e'.verdicts.get c := by
  cases c with
  | device => exact congrArg (Option.any DeviceChecks.verified) h
  | time => exact congrArg (Option.any TimeChecks.verified) h
  | location => exact congrArg (Option.any LocationChecks.verified) h
  | pattern => exact congrArg (Option.any PatternChecks.verified) h

/-- The risk belongs to the pattern. -/
theorem AgreeOn.risk_eq (h : e.AgreeOn e' .pattern) : e.verdicts.risk = e'.verdicts.risk :=
  congrArg (fun pattern => (pattern.map PatternChecks.risk).getD fullRisk) h

end Evaluation

namespace Evaluation.IsOutcome

variable {e e' : Evaluation} {w w' : Witness} {s : Snapshot} {nonce : Nonce} {c : Category}

theorem decision_congr (h : e.IsOutcome w s nonce) (h' : e'.IsOutcome w' s nonce)
    (hverdicts : e.verdicts = e'.verdicts) : e.decision = e'.decision := by
  have hdecision := h.decision_of_verdicts
  rw [hverdicts, h'.decision_of_verdicts] at hdecision
  exact (Except.ok.inj hdecision).symm

/-- A category is checked by what is shown of it, and for nothing else. -/
theorem checks_congr (h : e.IsOutcome w s nonce) (h' : e'.IsOutcome w' s nonce)
    (hagree : w.AgreeOn w' c) : e.AgreeOn e' c := by
  cases c with
  | device =>
    have hdevice : w.device = w'.device := hagree
    exact h.device_eq.trans ((congrArg _ hdevice).trans h'.device_eq.symm)
  | time =>
    have htime : w.time = w'.time := hagree
    exact h.time_eq.trans ((congrArg _ htime).trans h'.time_eq.symm)
  | location =>
    have hlocation : w.location = w'.location := hagree
    exact h.location_eq.trans ((congrArg _ hlocation).trans h'.location_eq.symm)
  | pattern =>
    have hbehavior : w.behavior = w'.behavior := hagree
    have hpattern := h.pattern_checks
    rw [hbehavior, h'.pattern_checks] at hpattern
    exact (Except.ok.inj hpattern).symm

theorem pattern_eq_none (h : e.IsOutcome w s nonce) (habsent : w.behavior = none) :
    e.pattern = none := by
  have hpattern := h.pattern_checks
  rw [habsent] at hpattern
  exact (Except.ok.inj hpattern).symm

/-- A category that is absent fails. -/
theorem verdict_of_absent (h : e.IsOutcome w s nonce) (habsent : w.has c = false) :
    e.verdicts.get c = false := by
  have hempty := Witness.agreeOn_empty habsent
  cases c with
  | device =>
    change e.device.any DeviceChecks.verified = false
    rw [h.device_eq, show w.device = none from hempty]
    rfl
  | time =>
    change e.time.any TimeChecks.verified = false
    rw [h.time_eq, show w.time = none from hempty]
    rfl
  | location =>
    change e.location.any LocationChecks.verified = false
    rw [h.location_eq, show w.location = none from hempty]
    rfl
  | pattern =>
    change e.pattern.any PatternChecks.verified = false
    rw [h.pattern_eq_none hempty]
    rfl

/-- A session that shows no behavior carries the largest risk. -/
theorem risk_of_absent (h : e.IsOutcome w s nonce) (habsent : w.has .pattern = false) :
    e.verdicts.risk = fullRisk := by
  change (e.pattern.map PatternChecks.risk).getD fullRisk = fullRisk
  rw [h.pattern_eq_none (Witness.agreeOn_empty habsent)]
  rfl

/-- A category that failed is judged as if it were absent. -/
theorem verdicts_without (h : e.IsOutcome w s nonce) (h' : e'.IsOutcome (w.without c) s nonce)
    (hfailed : e.verdicts.get c = false) (hrisk : c = .pattern → e.verdicts.risk = fullRisk) :
    e.verdicts = e'.verdicts := by
  apply Verdicts.ext_get
  · intro d
    by_cases hd : d = c
    · rw [hd, hfailed, h'.verdict_of_absent Witness.has_without_self]
    · exact (h'.checks_congr h (Witness.without_agreeOn hd)).verdict_eq.symm
  · by_cases hpattern : c = .pattern
    · subst hpattern
      rw [hrisk rfl, h'.risk_of_absent Witness.has_without_self]
    · exact (h'.checks_congr h (Witness.without_agreeOn (Ne.symm hpattern))).risk_eq.symm

end Evaluation.IsOutcome

/-! ### Proofs that are alike -/

namespace ContextProof

/-- Whether two proofs differ at most in the commitment to the witness and the tag over it. -/
structure Alike (p q : ContextProof) : Prop where
  artifact : p.artifact = q.artifact
  signals : p.signals = q.signals
  policyVersion : p.policyVersion = q.policyVersion
  statementHash : p.sealed.statementHash = q.sealed.statementHash
  size : p.sealed.bytes.length = q.sealed.bytes.length
  bytes : ∀ i, i < 3 ∨ 67 ≤ i → p.sealed.bytes[i]? = q.sealed.bytes[i]?

/-- Whether the tag of a proof is the one for its version, its statement and its commitment. -/
def IsTagged (p : ContextProof) : Prop :=
  ∃ commitment, p.sealed.field? 3 = some commitment ∧
    p.sealed.field? 35 = some (sealTag p.policyVersion p.sealed.statementHash commitment)

variable {s : Snapshot} {nonce : Nonce} {d : Decision}

theorem made_isTagged (commitment : Digest) : (made s nonce d commitment).IsTagged := by
  obtain ⟨-, hcommitment, htag, -⟩ :=
    SealedProof.fields_of_bytes (p := (made s nonce d commitment).sealed) rfl
  exact ⟨commitment, hcommitment, htag⟩

/-- Outside of commitment and tag, a seal depends on the hash of the statement alone. -/
theorem sealBytes_getElem? (c c' t t' h : Digest) {i : Nat} (hi : i < 3 ∨ 67 ≤ i) :
    (sealBytes c t h)[i]? = (sealBytes c' t' h)[i]? := by
  rcases hi with hfront | hback
  · have hheader : i < sealHeader.length := hfront
    simp only [sealBytes, List.append_assoc, List.getElem?_append_left hheader]
  · have hfields (c t : Digest) : (sealHeader ++ c.toList ++ t.toList).length = 67 := by
      simp [Bytes32.length_toList, sealHeader]
    simp only [sealBytes]
    rw [List.getElem?_append_right (by rw [hfields]; exact hback),
      List.getElem?_append_right (by rw [hfields]; exact hback), hfields, hfields]

theorem length_sealBytes (c t h : Digest) : (sealBytes c t h).length = sealSize := by
  simp [sealBytes, sealHeader, sealSize, Bytes32.length_toList]

/-- A decision leads to proofs that are alike, whatever the commitment. -/
theorem made_alike (c c' : Digest) : (made s nonce d c).Alike (made s nonce d c') := by
  dsimp only [made]
  exact
    { artifact := rfl
      signals := rfl
      policyVersion := rfl
      statementHash := rfl
      size := (length_sealBytes _ _ _).trans (length_sealBytes _ _ _).symm
      bytes := fun _ hi => sealBytes_getElem? _ _ _ _ _ hi }

end ContextProof

namespace Witness

theorem prove_eq_made {w : Witness} {s : Snapshot} {nonce : Nonce} {blinding : Bytes32}
    {p : ContextProof} {e : Evaluation} (hp : w.prove s nonce blinding = .ok p)
    (he : w.evaluate s nonce = .ok e) :
    p = ContextProof.made s nonce e.decision (w.blinded blinding) := by
  obtain ⟨e', he', rfl⟩ := prove_eq_ok_iff.mp hp
  obtain rfl := Except.ok.inj (he.symm.trans he')
  rfl

/-- Requests with the same verdicts and the same risk lead to proofs that are alike, and the tag in
each is computed from its version, its statement and its commitment. An absent category fails, with
the largest risk, and the proof does not tell it from one that was shown and failed. -/
theorem prove_alike (w w' : Witness) (s : Snapshot) (nonce : Nonce) (blinding blinding' : Bytes32)
    (p p' : ContextProof) (e e' : Evaluation) (hp : w.prove s nonce blinding = .ok p)
    (hp' : w'.prove s nonce blinding' = .ok p') (he : w.evaluate s nonce = .ok e)
    (he' : w'.evaluate s nonce = .ok e') (hverdicts : e.verdicts = e'.verdicts) :
    p.Alike p' ∧ p.IsTagged ∧ p'.IsTagged ∧
      (∀ c, w.has c = false →
        e.verdicts.get c = false ∧ (c = .pattern → e.verdicts.risk = 100)) ∧
      ∀ c, s.policy.access.requirements.contains c = false → e.verdicts.get c = false →
        (c = .pattern → e.verdicts.risk = 100) →
        ∃ q, (w.without c).prove s nonce blinding' = .ok q ∧ p.Alike q := by
  obtain rfl := prove_eq_made hp he
  obtain rfl := prove_eq_made hp' he'
  have houtcome := evaluate_eq_ok_iff.mp he
  refine ⟨?_, ContextProof.made_isTagged _, ContextProof.made_isTagged _, ?_, ?_⟩
  · rw [houtcome.decision_congr (evaluate_eq_ok_iff.mp he') hverdicts]
    exact ContextProof.made_alike _ _
  · intro c habsent
    refine ⟨houtcome.verdict_of_absent habsent, ?_⟩
    rintro rfl
    exact houtcome.risk_of_absent habsent
  · intro c hoptional hfailed hrisk
    obtain ⟨e₀, he₀⟩ := exists_evaluate_without he hoptional
    have houtcome₀ := evaluate_eq_ok_iff.mp he₀
    refine ⟨_, prove_eq_ok_iff.mpr ⟨e₀, he₀, rfl⟩, ?_⟩
    rw [houtcome.decision_congr houtcome₀ (houtcome.verdicts_without houtcome₀ hfailed hrisk)]
    exact ContextProof.made_alike _ _

/-- A place far from the one that the lenient policy authorizes. -/
def farAway : Witness :=
  { empty with location := some ⟨⟨1000, 1000⟩, ⟨1000, 1000⟩, ⟨1000, 1000⟩, 1⟩ }

/-- The lenient policy judges it as it judges a request that shows nothing. -/
theorem exists_evaluate_farAway : ∃ e e', empty.evaluate Snapshot.lenient ⟨[1]⟩ = .ok e ∧
    farAway.evaluate Snapshot.lenient ⟨[1]⟩ = .ok e' ∧ e.verdicts = e'.verdicts := by
  have hfault : farAway.fault? = none := by decide
  obtain ⟨e, he⟩ : ∃ e, empty.evaluate Snapshot.lenient ⟨[1]⟩ = .ok e :=
    exists_evaluate rfl rfl rfl rfl
  obtain ⟨e', he'⟩ : ∃ e, farAway.evaluate Snapshot.lenient ⟨[1]⟩ = .ok e :=
    exists_evaluate rfl rfl rfl hfault
  have houtcome' := evaluate_eq_ok_iff.mp he'
  have hempty : e.IsOutcome (farAway.without .location) Snapshot.lenient ⟨[1]⟩ :=
    evaluate_eq_ok_iff.mp he
  have hfailed : e'.verdicts.get .location = false := by
    change e'.location.any LocationChecks.verified = false
    rw [houtcome'.location_eq]
    decide
  exact ⟨e, e', he, he', (houtcome'.verdicts_without hempty hfailed nofun).symm⟩

theorem prove_alike_farAway :
    ∃ p p' e e', empty.prove Snapshot.lenient ⟨[1]⟩ .zero = .ok p ∧
      farAway.prove Snapshot.lenient ⟨[1]⟩ .zero = .ok p' ∧
      empty.evaluate Snapshot.lenient ⟨[1]⟩ = .ok e ∧
      farAway.evaluate Snapshot.lenient ⟨[1]⟩ = .ok e' ∧ e.verdicts = e'.verdicts ∧ p.Alike p' := by
  obtain ⟨e, e', he, he', hverdicts⟩ := exists_evaluate_farAway
  obtain ⟨p, hp⟩ : ∃ p, empty.prove Snapshot.lenient ⟨[1]⟩ .zero = .ok p :=
    ⟨_, prove_eq_ok_iff.mpr ⟨e, he, rfl⟩⟩
  obtain ⟨p', hp'⟩ : ∃ p, farAway.prove Snapshot.lenient ⟨[1]⟩ .zero = .ok p :=
    ⟨_, prove_eq_ok_iff.mpr ⟨e', he', rfl⟩⟩
  have hconclusion := prove_alike empty farAway Snapshot.lenient ⟨[1]⟩ .zero .zero p p' e e' hp hp' he
    he' hverdicts
  exact ⟨p, p', e, e', hp, hp', he, he', hverdicts, hconclusion.1⟩

end Witness

end AccessContext
