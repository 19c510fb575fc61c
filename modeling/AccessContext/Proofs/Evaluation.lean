import AccessContext.Evaluation
import AccessContext.Proofs.Decision

/-!
# Evaluations

An evaluation exists exactly if challenge, version and input are in order; it then holds the
outcome of every check and the decision on their verdicts. Categories that are present were
checked, and an absent category has no outcome.
-/

namespace AccessContext

section IfPresent

variable {α β : Type} {part : Option α} {verify : α → Except ContextError β}

/-- An outcome comes from the category that is present. -/
theorem exists_of_ifPresent {r : Option β} {b : β} (h : ifPresent part verify = .ok r)
    (hb : r = some b) : ∃ a, part = some a ∧ verify a = .ok b := by
  subst hb
  cases part with
  | none => cases h
  | some a =>
    refine ⟨a, rfl, ?_⟩
    unfold ifPresent at h
    dsimp only at h
    cases hverify : verify a with
    | error e =>
      rw [hverify] at h
      cases h
    | ok c =>
      rw [hverify] at h
      cases h
      rfl

/-- Checks that cannot fail give an outcome whenever the category is present. -/
theorem ifPresent_eq_map {f : α → β} (h : ∀ a, part = some a → verify a = .ok (f a)) :
    ifPresent part verify = .ok (part.map f) := by
  cases part with
  | none => rfl
  | some a =>
    unfold ifPresent
    dsimp only
    rw [h a rfl]
    rfl

end IfPresent

namespace Nonce

variable {nonce : Nonce}

theorem validate_eq_ok_iff :
    nonce.validate = .ok () ↔ ∃ b ∈ nonce.bytes, Text.isAsciiBlank b = false := by
  rw [validate]
  cases h : nonce.isBlank with
  | true =>
    have hall := List.all_eq_true.mp h
    simpa using hall
  | false =>
    have hsome := List.all_eq_false.mp h
    simpa using hsome

theorem validate_of_blank (h : ∀ b ∈ nonce.bytes, Text.isAsciiBlank b = true) :
    nonce.validate = .error .blankNonce := by
  have hblank : nonce.isBlank = true := List.all_eq_true.mpr h
  rw [validate, if_pos hblank]

end Nonce

namespace Witness

theorem validate_eq_ok_iff {w : Witness} : w.validate = .ok () ↔ w.fault? = none := by
  unfold validate
  cases w.fault? with
  | none => simp
  | some fault => simp

/-- Input is in order exactly if every category that is present is. -/
theorem fault?_eq_none_iff {w : Witness} :
    w.fault? = none ↔ (∀ d, w.device = some d → d.fault? = none) ∧
      (∀ t, w.time = some t → t.fault? = none) ∧ (∀ l, w.location = some l → l.fault? = none) ∧
      ∀ b, w.behavior = some b → b.fault? = none := by
  unfold fault?
  simp only [Option.orElse_eq_orElse, Option.orElse_eq_or, Option.or_eq_none_iff,
    Option.bind_eq_none_iff]

variable {w : Witness}

theorem ifPresent_device (h : w.fault? = none) (p : DevicePolicy) (nonce : Nonce) :
    ifPresent w.device (fun d => d.verify p nonce) = .ok (w.device.map fun d => d.checks p nonce) :=
  ifPresent_eq_map fun d hd => by
    rw [DeviceWitness.verify, (fault?_eq_none_iff.mp h).1 d hd]

theorem ifPresent_time (h : w.fault? = none) (p : TimePolicy) :
    ifPresent w.time (fun t => t.verify p) = .ok (w.time.map fun t => t.checks p) :=
  ifPresent_eq_map fun t ht => by
    rw [TimeWitness.verify, (fault?_eq_none_iff.mp h).2.1 t ht]

theorem ifPresent_location (h : w.fault? = none) (p : LocationPolicy) :
    ifPresent w.location (fun l => l.verify p) = .ok (w.location.map fun l => l.checks p) :=
  ifPresent_eq_map fun l hl => by
    rw [LocationWitness.verify, (fault?_eq_none_iff.mp h).2.2.1 l hl]

end Witness

namespace Snapshot

theorem faults_eq_none (s : Snapshot) : s.policy.time.fault? = none ∧
    s.policy.location.fault? = none ∧ s.policy.pattern.fault? = none ∧
      s.policy.access.fault? = none := by
  have h := s.fault?_eq
  unfold Policy.fault? at h
  simpa only [Option.orElse_eq_orElse, Option.orElse_eq_or, Option.or_eq_none_iff] using h

theorem maxVariance_ne_zero (s : Snapshot) : s.policy.pattern.maxVariance ≠ 0 :=
  PatternPolicy.maxVariance_ne_zero_of_fault? s.faults_eq_none.2.2.1

/-- A usable policy requires known categories alone. -/
theorem isKnown_requirements (s : Snapshot) : s.policy.access.requirements.isKnown = true := by
  have h := s.faults_eq_none.2.2.2
  unfold AccessPolicy.fault? at h
  split_ifs at h with hknown
  exact hknown

end Snapshot

/-- Whether an evaluation is what a request comes to. -/
structure Evaluation.IsOutcome (e : Evaluation) (w : Witness) (s : Snapshot) (nonce : Nonce) :
    Prop where
  challenge : nonce.validate = .ok ()
  version : w.checkVersion s = .ok ()
  required : w.checkRequired s = .ok ()
  fault?_eq : w.fault? = none
  device : ifPresent w.device (fun d => d.verify s.policy.device nonce) = .ok e.device
  time : ifPresent w.time (fun t => t.verify s.policy.time) = .ok e.time
  location : ifPresent w.location (fun l => l.verify s.policy.location) = .ok e.location
  pattern : ifPresent w.behavior (fun b => b.verify s.policy.pattern) = .ok e.pattern
  decision : (Verdicts.ofChecks e.device e.time e.location e.pattern).decision
    (.ofChecks s.policy nonce e.device e.time e.location e.pattern) s.policy.access nonce
      s.version = .ok e.decision

theorem Witness.evaluate_eq_ok_iff {w : Witness} {s : Snapshot} {nonce : Nonce} {e : Evaluation} :
    w.evaluate s nonce = .ok e ↔ e.IsOutcome w s nonce := by
  unfold Witness.evaluate
  simp only [bind_eq_ok_iff]
  constructor
  · rintro ⟨_, hnonce, _, hversion, _, hrequired, _, hvalid, d, hd, t, ht, l, hl, b, hb, c, hc, he⟩
    obtain rfl := Except.ok.inj he
    exact ⟨hnonce, hversion, hrequired, validate_eq_ok_iff.mp hvalid, hd, ht, hl, hb, hc⟩
  · rintro ⟨hnonce, hversion, hrequired, hvalid, hd, ht, hl, hb, hc⟩
    exact ⟨(), hnonce, (), hversion, (), hrequired, (), validate_eq_ok_iff.mpr hvalid, _, hd, _, ht,
      _, hl, _, hb, _, hc, rfl⟩

namespace Evaluation.IsOutcome

variable {e : Evaluation} {w : Witness} {s : Snapshot} {nonce : Nonce}

theorem device_eq (h : e.IsOutcome w s nonce) :
    e.device = w.device.map fun d => d.checks s.policy.device nonce :=
  Except.ok.inj (h.device.symm.trans (Witness.ifPresent_device h.fault?_eq _ _))

theorem time_eq (h : e.IsOutcome w s nonce) :
    e.time = w.time.map fun t => t.checks s.policy.time :=
  Except.ok.inj (h.time.symm.trans (Witness.ifPresent_time h.fault?_eq _))

theorem location_eq (h : e.IsOutcome w s nonce) :
    e.location = w.location.map fun l => l.checks s.policy.location :=
  Except.ok.inj (h.location.symm.trans (Witness.ifPresent_location h.fault?_eq _))

/-- The checks on a behavior, which unlike the others can fail to have an outcome. -/
theorem pattern_checks (h : e.IsOutcome w s nonce) :
    ifPresent w.behavior (fun b => b.checks s.policy.pattern) = .ok e.pattern := by
  have hfault := (Witness.fault?_eq_none_iff.mp h.fault?_eq).2.2.2
  rw [← h.pattern]
  unfold ifPresent
  cases hb : w.behavior with
  | none => rfl
  | some b =>
    dsimp only
    rw [BehaviorWitness.verify, hfault b hb]

/-- The verdicts and the risk of the decision are those of the checks. -/
theorem verdicts_eq (h : e.IsOutcome w s nonce) :
    e.decision.signals.verdicts = .ofChecks e.device e.time e.location e.pattern :=
  (PublicSignals.of_decision h.decision).2.1

end Evaluation.IsOutcome

end AccessContext
