import AccessContext.Proof.Basic
import AccessContext.Proofs.Evaluation
import AccessContext.Proofs.Risk

/-!
# Refused requests

A request is refused for a blank challenge, for a policy version it was not gathered for, for a
required category that it lacks, or for a fault of its input, in this order. Nothing else stops an
evaluation: on a usable policy every check has an outcome, and the decision on the outcomes stays
within its scales. Main statement: `Witness.evaluate_refuses_iff`.
-/

namespace AccessContext

namespace Witness

variable {w : Witness} {s : Snapshot} {nonce : Nonce}

/-- Whether a required category is absent. -/
def Lacks (w : Witness) (s : Snapshot) (c : Category) : Prop :=
  s.policy.access.requirements.contains c = true ∧ w.has c = false

/-- The first fault of each category that is present, required or not. -/
def faults (w : Witness) : List InputFault :=
  (w.device.bind DeviceWitness.fault?).toList ++ (w.time.bind TimeWitness.fault?).toList
    ++ (w.location.bind LocationWitness.fault?).toList
    ++ (w.behavior.bind BehaviorWitness.fault?).toList

theorem fault?_eq_head? (w : Witness) : w.fault? = w.faults.head? := by
  rw [fault?, faults]
  cases w.device.bind DeviceWitness.fault? with
  | some fault => rfl
  | none =>
    cases w.time.bind TimeWitness.fault? with
    | some fault => rfl
    | none =>
      cases w.location.bind LocationWitness.fault? with
      | some fault => rfl
      | none => cases w.behavior.bind BehaviorWitness.fault? <;> rfl

/-- The error for which a request is refused. Each case is a check that fails after the ones
before it have passed. -/
inductive IsRefused (w : Witness) (s : Snapshot) (nonce : Nonce) : ContextError → Prop
  | challenge (blank : ∀ b ∈ nonce.bytes, Text.isAsciiBlank b = true) :
      IsRefused w s nonce .blankNonce
  | version {found : UInt64} (filled : ∃ b ∈ nonce.bytes, Text.isAsciiBlank b = false)
      (gathered : w.policyVersion = some found) (other : found ≠ s.version) :
      IsRefused w s nonce (.versionMismatch s.version found)
  | missing {before after : List Category} {c : Category}
      (filled : ∃ b ∈ nonce.bytes, Text.isAsciiBlank b = false)
      (current : ∀ found, w.policyVersion = some found → found = s.version)
      (split : Category.all = before ++ c :: after) (present : ∀ d ∈ before, ¬ w.Lacks s d)
      (lacks : w.Lacks s c) : IsRefused w s nonce (.missingContext c)
  | input {fault : InputFault} {rest : List InputFault}
      (filled : ∃ b ∈ nonce.bytes, Text.isAsciiBlank b = false)
      (current : ∀ found, w.policyVersion = some found → found = s.version)
      (complete : ∀ c, ¬ w.Lacks s c) (faulty : w.faults = fault :: rest) :
      IsRefused w s nonce (.invalidInput fault)

/-! ### The checks before evaluation -/

theorem checkVersion_eq_ok_iff :
    w.checkVersion s = .ok () ↔ ∀ found, w.policyVersion = some found → found = s.version := by
  rw [checkVersion]
  cases w.policyVersion with
  | none => simp
  | some found => by_cases h : found = s.version <;> simp [h]

theorem checkVersion_of_ne {found : UInt64} (h : w.policyVersion = some found)
    (hne : found ≠ s.version) : w.checkVersion s = .error (.versionMismatch s.version found) := by
  rw [checkVersion]
  rw [h]
  exact if_neg hne

theorem lacks_iff {c : Category} :
    w.Lacks s c ↔ (s.policy.access.requirements.contains c && !w.has c) = true := by
  simp [Lacks]

theorem checkRequired_eq_ok_iff : w.checkRequired s = .ok () ↔ ∀ c, ¬ w.Lacks s c := by
  rw [checkRequired]
  cases h : Category.all.find? fun c => s.policy.access.requirements.contains c && !w.has c with
  | none =>
    rw [List.find?_eq_none] at h
    exact ⟨fun _ c hc => h c c.mem_all (lacks_iff.mp hc), fun _ => rfl⟩
  | some c =>
    have hc := List.find?_some h
    exact ⟨nofun, fun hnone => absurd (lacks_iff.mpr hc) (hnone c)⟩

theorem checkRequired_cases :
    w.checkRequired s = .ok () ∨ ∃ c, w.checkRequired s = .error (.missingContext c) := by
  rw [checkRequired]
  split
  · exact .inr ⟨_, rfl⟩
  · exact .inl rfl

theorem checkRequired_eq_missing_iff {c : Category} :
    w.checkRequired s = .error (.missingContext c) ↔ ∃ before after,
      Category.all = before ++ c :: after ∧ (∀ d ∈ before, ¬ w.Lacks s d) ∧ w.Lacks s c := by
  have hsplit : Category.all.find? (fun c => s.policy.access.requirements.contains c && !w.has c) =
      some c ↔ ∃ before after, Category.all = before ++ c :: after ∧
        (∀ d ∈ before, ¬ w.Lacks s d) ∧ w.Lacks s c := by
    rw [List.find?_eq_some_iff_append]
    constructor
    · rintro ⟨hc, before, after, hall, hbefore⟩
      refine ⟨before, after, hall, fun d hd hlacks => ?_, lacks_iff.mpr hc⟩
      have := hbefore d hd
      rw [lacks_iff.mp hlacks] at this
      cases this
    · rintro ⟨before, after, hall, hbefore, hc⟩
      refine ⟨lacks_iff.mp hc, before, after, hall, fun d hd => ?_⟩
      rw [Bool.not_eq_true']
      exact Bool.eq_false_iff.mpr fun h => hbefore d hd (lacks_iff.mpr h)
  rw [← hsplit]
  rw [checkRequired]
  cases Category.all.find? fun c => s.policy.access.requirements.contains c && !w.has c <;> simp

/-- Validation reports the first of the faults. -/
theorem validate_eq_error_iff {e : ContextError} :
    w.validate = .error e ↔ ∃ fault rest, w.faults = fault :: rest ∧ e = .invalidInput fault := by
  rw [validate, fault?_eq_head?]
  cases w.faults with
  | nil => simp
  | cons fault rest => simp [eq_comm]

/-! ### Checks that have an outcome -/

/-- On a usable policy a behavior without fault has an outcome, whose risk is on the scale. -/
theorem exists_pattern (h : w.fault? = none) :
    ∃ pattern, ifPresent w.behavior (fun b => b.verify s.policy.pattern) = .ok pattern ∧
      (pattern.map PatternChecks.risk).getD fullRisk ≤ 100 := by
  cases hb : w.behavior with
  | none => exact ⟨none, rfl, by decide⟩
  | some b =>
    have hfault : b.fault? = none := (fault?_eq_none_iff.mp h).2.2.2 b hb
    obtain ⟨c, hc, houtcome⟩ := BehaviorWitness.exists_verify hfault s.maxVariance_ne_zero
    refine ⟨some c, ?_, UInt8.le_iff_toNat_le.mpr houtcome.risk_le⟩
    unfold ifPresent
    dsimp only
    rw [hc]
    rfl

/-- A request that passes the checks of its input has an evaluation, good or bad. -/
theorem exists_evaluate (hnonce : nonce.validate = .ok ()) (hversion : w.checkVersion s = .ok ())
    (hrequired : w.checkRequired s = .ok ()) (hfault : w.fault? = none) :
    ∃ e, w.evaluate s nonce = .ok e := by
  obtain ⟨pattern, hpattern, hrisk⟩ := exists_pattern (s := s) hfault
  have hdevice := ifPresent_device hfault s.policy.device nonce
  have htime := ifPresent_time hfault s.policy.time
  have hlocation := ifPresent_location hfault s.policy.location
  obtain ⟨d, hd⟩ := Verdicts.exists_decision (v := .ofChecks
    (w.device.map fun d => d.checks s.policy.device nonce)
    (w.time.map fun t => t.checks s.policy.time)
    (w.location.map fun l => l.checks s.policy.location) pattern) hrisk
    (.ofChecks s.policy nonce _ _ _ pattern) s.policy.access nonce s.version
  exact ⟨⟨_, _, _, pattern, d⟩, evaluate_eq_ok_iff.mpr
    ⟨hnonce, hversion, hrequired, hfault, hdevice, htime, hlocation, hpattern, hd⟩⟩

/-! ### Refusals -/

/-- A request that is refused for an error ends with that error. -/
theorem IsRefused.evaluate_eq {e : ContextError} (h : w.IsRefused s nonce e) :
    w.evaluate s nonce = .error e := by
  rw [evaluate]
  cases h with
  | challenge hblank => rw [Nonce.validate_of_blank hblank, error_bind]
  | version hfilled hgathered hother =>
    rw [Nonce.validate_eq_ok_iff.mpr hfilled, ok_bind, checkVersion_of_ne hgathered hother,
      error_bind]
  | missing hfilled hcurrent hsplit hpresent hlacks =>
    rw [Nonce.validate_eq_ok_iff.mpr hfilled, ok_bind, checkVersion_eq_ok_iff.mpr hcurrent, ok_bind,
      checkRequired_eq_missing_iff.mpr ⟨_, _, hsplit, hpresent, hlacks⟩, error_bind]
  | input hfilled hcurrent hcomplete hfaulty =>
    rw [Nonce.validate_eq_ok_iff.mpr hfilled, ok_bind, checkVersion_eq_ok_iff.mpr hcurrent, ok_bind,
      checkRequired_eq_ok_iff.mpr hcomplete, ok_bind, validate_eq_error_iff.mpr ⟨_, _, hfaulty, rfl⟩,
      error_bind]

/-- A request is refused or evaluated: the checks are gone through in their order. -/
theorem isRefused_or_evaluated (w : Witness) (s : Snapshot) (nonce : Nonce) :
    (∃ e, w.IsRefused s nonce e) ∨ ∃ e, w.evaluate s nonce = .ok e := by
  by_cases hblank : ∀ b ∈ nonce.bytes, Text.isAsciiBlank b = true
  · exact .inl ⟨_, .challenge hblank⟩
  have hfilled : ∃ b ∈ nonce.bytes, Text.isAsciiBlank b = false := by simpa using hblank
  by_cases hcurrent : ∀ found, w.policyVersion = some found → found = s.version
  swap
  · push Not at hcurrent
    obtain ⟨found, hgathered, hother⟩ := hcurrent
    exact .inl ⟨_, .version hfilled hgathered hother⟩
  rcases checkRequired_cases (w := w) (s := s) with hrequired | ⟨c, hmissing⟩
  swap
  · obtain ⟨before, after, hsplit, hpresent, hlacks⟩ := checkRequired_eq_missing_iff.mp hmissing
    exact .inl ⟨_, .missing hfilled hcurrent hsplit hpresent hlacks⟩
  cases hfaults : w.faults with
  | cons fault rest =>
    exact .inl ⟨_, .input hfilled hcurrent (checkRequired_eq_ok_iff.mp hrequired) hfaults⟩
  | nil =>
    have hfault : w.fault? = none := by
      rw [fault?_eq_head?, hfaults]
      rfl
    exact .inr (exists_evaluate (Nonce.validate_eq_ok_iff.mpr hfilled)
      (checkVersion_eq_ok_iff.mpr hcurrent) hrequired hfault)

theorem evaluate_eq_error_iff {e : ContextError} :
    w.evaluate s nonce = .error e ↔ w.IsRefused s nonce e := by
  constructor
  · intro h
    rcases isRefused_or_evaluated w s nonce with ⟨e', hrefused⟩ | ⟨r, hr⟩
    · obtain rfl := Except.error.inj (h.symm.trans hrefused.evaluate_eq)
      exact hrefused
    · rw [hr] at h
      cases h
  · exact IsRefused.evaluate_eq

/-- Issuing a proof fails when the evaluation fails, and with its error. -/
theorem prove_eq_error_iff {blinding : Bytes32} {e : ContextError} :
    w.prove s nonce blinding = .error e ↔ w.evaluate s nonce = .error e := by
  rw [prove]
  cases w.evaluate s nonce with
  | error e' => rw [error_bind, Except.error.injEq, Except.error.injEq]
  | ok r => exact ⟨nofun, nofun⟩

/-- A request is evaluated unless it is refused, and refused exactly for its challenge, its version,
a category it lacks or a fault of its input, whichever is found first. So neither a score out of
range nor a policy that cannot be used stops an evaluation, and neither does a policy that is not
satisfied. Proofs are refused for the same errors. -/
theorem evaluate_refuses_iff (w : Witness) (s : Snapshot) (nonce : Nonce) :
    (∀ e, w.evaluate s nonce = .error e ↔ w.IsRefused s nonce e) ∧
      ((∃ r, w.evaluate s nonce = .ok r) ↔ ∀ e, ¬ w.IsRefused s nonce e) ∧
      (∀ score, w.evaluate s nonce ≠ .error (.riskOutOfRange score)) ∧
      (∀ score, w.evaluate s nonce ≠ .error (.trustOutOfRange score)) ∧
      (∀ fault, w.evaluate s nonce ≠ .error (.invalidPolicy fault)) ∧
      (∀ e, w.validate = .error e ↔
        ∃ fault rest, w.faults = fault :: rest ∧ e = .invalidInput fault) ∧
      ∀ blinding e, w.prove s nonce blinding = .error e ↔ w.IsRefused s nonce e := by
  refine ⟨fun e => evaluate_eq_error_iff, ?_, ?_, ?_, ?_, fun e => validate_eq_error_iff,
    fun blinding e => ?_⟩
  · constructor
    · rintro ⟨r, hr⟩ e hrefused
      rw [hrefused.evaluate_eq] at hr
      cases hr
    · intro hnone
      rcases isRefused_or_evaluated w s nonce with ⟨e, hrefused⟩ | hevaluated
      · exact absurd hrefused (hnone e)
      · exact hevaluated
  · intro score h
    cases evaluate_eq_error_iff.mp h
  · intro score h
    cases evaluate_eq_error_iff.mp h
  · intro fault h
    cases evaluate_eq_error_iff.mp h
  · rw [prove_eq_error_iff, evaluate_eq_error_iff]

end Witness

end AccessContext
