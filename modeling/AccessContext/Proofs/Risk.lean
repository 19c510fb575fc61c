import AccessContext.Behavior
import Mathlib.Order.Lattice
import Mathlib.Order.MinMax
import Mathlib.Tactic.Common
import Mathlib.Tactic.SplitIfs

/-!
# The risk of a behavior

Each check on a behavior that fails adds its penalty to the risk, and irregular timing adds a share in
proportion to the deviation that the policy allows, up to 30 points. Timing that fails its check has
the whole share on top of its penalty, so the two never disagree, and all of them together are the
whole scale. Main statement: `BehaviorWitness.verify_risk`.
-/

namespace AccessContext

/-- What a check adds to the risk. -/
def penalty (weight : Nat) (passed : Bool) : Nat :=
  if passed then 0 else weight

theorem penalty_le (weight : Nat) (passed : Bool) : penalty weight passed ≤ weight := by
  cases passed <;> simp [penalty]

theorem penalty_anti {weight : Nat} {passed passed' : Bool} (h : passed' = true → passed = true) :
    penalty weight passed ≤ penalty weight passed' := by
  cases passed' with
  | false => exact penalty_le weight passed
  | true => rw [h rfl]

/-- A penalty in words: the weight times the negated bit. -/
theorem mul_toNat_not (weight : Nat) (b : Bit) :
    weight * b.not.value.toNat = penalty weight b.toBool := by
  rw [Bit.value_eq_toNat, Bit.toBool_not]
  cases b.toBool <;> simp [penalty]

/-- What irregular timing adds to the risk, in proportion to the deviation that is allowed. -/
def timingShare (deviation maxVariance : UInt64) : Nat :=
  min 30 (30 * deviation.toNat / maxVariance.toNat)

section Share

variable {d d' v v' : UInt64}

theorem timingShare_le : timingShare d v ≤ 30 :=
  Nat.min_le_left _ _

theorem toNat_pos_of_ne_zero (h : v ≠ 0) : 0 < v.toNat :=
  Nat.pos_of_ne_zero fun hzero => h (UInt64.toNat_inj.mp hzero)

/-- Timing that is too irregular has the whole share. -/
theorem timingShare_of_lt (hv : v ≠ 0) (h : v < d) : timingShare d v = 30 := by
  have hlt := UInt64.lt_iff_toNat_lt.mp h
  have hle : 30 ≤ 30 * d.toNat / v.toNat :=
    (Nat.le_div_iff_mul_le (toNat_pos_of_ne_zero hv)).mpr (Nat.mul_le_mul_left 30 hlt.le)
  exact Nat.min_eq_left hle

/-- Nothing is cut off the share of timing that is regular enough. -/
theorem timingShare_of_le (h : d ≤ v) : timingShare d v = 30 * d.toNat / v.toNat := by
  have hle : 30 * d.toNat ≤ 30 * v.toNat := Nat.mul_le_mul_left 30 (UInt64.le_iff_toNat_le.mp h)
  exact Nat.min_eq_right (Nat.div_le_of_le_mul (by omega))

theorem timingShare_mono (hv' : v' ≠ 0) (hd : d ≤ d') (hv : v' ≤ v) :
    timingShare d v ≤ timingShare d' v' := by
  have hnum : 30 * d.toNat ≤ 30 * d'.toNat := Nat.mul_le_mul_left 30 (UInt64.le_iff_toNat_le.mp hd)
  exact min_le_min_left 30
    (Nat.div_le_div hnum (UInt64.le_iff_toNat_le.mp hv) (toNat_pos_of_ne_zero hv').ne')

/-- The penalties and the whole share are the whole scale. -/
theorem riskPoints_le {patternOk sessionOk typingOk timingOk : Bool} :
    penalty 25 patternOk + penalty 20 sessionOk + penalty 15 typingOk + penalty 10 timingOk
      + timingShare d v ≤ 100 := by
  have hpattern := penalty_le 25 patternOk
  have hsession := penalty_le 20 sessionOk
  have htyping := penalty_le 15 typingOk
  have htiming := penalty_le 10 timingOk
  have hshare : timingShare d v ≤ 30 := timingShare_le
  omega

theorem toInt_bounds (b : Bool) : 0 ≤ b.toInt ∧ b.toInt ≤ 1 := by
  cases b <;> decide

theorem cast_penalty (weight : Nat) (passed : Bool) :
    ((penalty weight passed : Nat) : Int) = weight * (!passed).toInt := by
  cases passed <;> simp [penalty, Bool.toInt]

theorem cast_timingShare (d v : UInt64) :
    ((timingShare d v : Nat) : Int) = min ((d.toNat : Int) * 30 / v.toNat) 30 := by
  have hshare : ((30 * d.toNat / v.toNat : Nat) : Int) = (d.toNat : Int) * 30 / v.toNat := by
    rw [Nat.mul_comm, Int.natCast_ediv, Int.natCast_mul]
    rfl
  rw [timingShare, ← hshare]
  omega

/-- The risk in words does not wrap, and never leaves the scale. -/
theorem exists_behaviorRisk (patternOk sessionOk typingOk timingOk : Bit) (d : UInt64) (hv : v ≠ 0) :
    ∃ r, behaviorRisk patternOk sessionOk typingOk timingOk d v = .ok r ∧
      r.toNat = penalty 25 patternOk.toBool + penalty 20 sessionOk.toBool
        + penalty 15 typingOk.toBool + penalty 10 timingOk.toBool + timingShare d v := by
  have hshare : min (d.toNat * 30 / v.toNat) 30 = timingShare d v := by
    rw [timingShare, Nat.min_comm, Nat.mul_comm]
  have hpattern := mul_toNat_not 25 patternOk
  have hsession := mul_toNat_not 20 sessionOk
  have htyping := mul_toNat_not 15 typingOk
  have htiming := mul_toNat_not 10 timingOk
  have hpoints : penalty 25 patternOk.toBool + penalty 20 sessionOk.toBool
    + penalty 15 typingOk.toBool + penalty 10 timingOk.toBool + timingShare d v ≤ 100 :=
      riskPoints_le
  obtain ⟨risk, hrisk⟩ : ∃ r : UInt64, r = 25 * patternOk.not.value + 20 * sessionOk.not.value
    + 15 * typingOk.not.value + 10 * timingOk.not.value + UInt64.ofNat (timingShare d v) := ⟨_, rfl⟩
  -- A sum of at most 100 points is the same in words and in numbers.
  have hnat : risk.toNat = penalty 25 patternOk.toBool + penalty 20 sessionOk.toBool
      + penalty 15 typingOk.toBool + penalty 10 timingOk.toBool + timingShare d v := by
    rw [hrisk]
    simp only [UInt64.toNat_add, UInt64.toNat_mul, UInt64.toNat_ofNat', UInt64.reduceToNat, hpattern,
      hsession, htyping, htiming]
    omega
  refine ⟨risk.toUInt8, ?_, ?_⟩
  · have hle : risk ≤ fullRisk.toUInt64 := UInt64.le_iff_toNat_le.mpr (hnat.trans_le hpoints)
    rw [behaviorRisk, if_neg hv]
    dsimp only
    rw [hshare, ← hrisk, if_pos hle]
  · rw [UInt64.toNat_toUInt8, hnat]
    omega

end Share

/-- The mean distance of the intervals from their mean. -/
def BehaviorWitness.deviation (w : BehaviorWitness) : UInt64 :=
  (meanAndDeviation w.intervals).2

/-- Whether checks are what a behavior comes to under a policy. -/
structure PatternChecks.IsOutcome (c : PatternChecks) (w : BehaviorWitness) (p : PatternPolicy) :
    Prop where
  patternOk : c.patternOk = decide (w.commitment = p.commitment)
  sessionOk : c.sessionOk = (decide (p.minSession ≤ w.session) && decide (w.session ≤ p.maxSession))
  typingOk : c.typingOk = (decide (p.minTyping ≤ w.typing) && decide (w.typing ≤ p.maxTyping))
  timingOk : c.timingOk = decide (w.deviation ≤ p.maxVariance)
  risk : c.risk.toNat = penalty 25 c.patternOk + penalty 20 c.sessionOk + penalty 15 c.typingOk
    + penalty 10 c.timingOk + timingShare w.deviation p.maxVariance
  confidence : c.confidence.toNat = 100 - c.risk.toNat
  confidenceOk : c.confidenceOk = decide (p.requiredConfidence ≤ c.confidence)
  verified : c.verified = (c.patternOk && c.sessionOk && c.typingOk && c.timingOk
    && decide (c.risk < p.riskThreshold))
  proofHash : c.proofHash = p.proofHash c.verified c.risk

namespace BehaviorWitness

variable {w w' : BehaviorWitness} {p p' : PatternPolicy} {c c' : PatternChecks}

theorem exists_checks (h : p.maxVariance ≠ 0) : ∃ c, w.checks p = .ok c ∧ c.IsOutcome w p := by
  obtain ⟨r, hr, hrisk⟩ := exists_behaviorRisk (Bit.digestEq w.commitment p.commitment)
    (Bit.between w.session p.minSession p.maxSession) (Bit.between w.typing p.minTyping p.maxTyping)
    (Bit.leq w.deviation p.maxVariance) w.deviation h
  have hle : r ≤ fullRisk := UInt8.le_iff_toNat_le.mpr (hrisk.trans_le riskPoints_le)
  rw [deviation] at hr
  rw [checks]
  dsimp only
  rw [hr]
  refine ⟨_, rfl, ?_⟩
  constructor
  · exact Bit.toBool_digestEq _ _
  · exact Bit.toBool_between _ _ _
  · exact Bit.toBool_between _ _ _
  · exact Bit.toBool_leq _ _
  · exact hrisk
  · exact UInt8.toNat_sub_of_le _ _ hle
  · rfl
  · simp [Bool.and_assoc]
  · rfl

theorem isOutcome_of_checks (h : w.checks p = .ok c) : p.maxVariance ≠ 0 ∧ c.IsOutcome w p := by
  have hvariance : p.maxVariance ≠ 0 := by
    intro hzero
    rw [checks, behaviorRisk, if_pos hzero] at h
    cases h
  obtain ⟨c', hc', houtcome⟩ := exists_checks (w := w) hvariance
  rw [hc'] at h
  cases h
  exact ⟨hvariance, houtcome⟩

theorem checks_of_verify (h : w.verify p = .ok c) : w.checks p = .ok c := by
  rw [verify] at h
  split at h
  · cases h
  · exact h

theorem exists_verify (hfault : w.fault? = none) (hvariance : p.maxVariance ≠ 0) :
    ∃ c, w.verify p = .ok c ∧ c.IsOutcome w p := by
  rw [verify, hfault]
  exact exists_checks hvariance

end BehaviorWitness

namespace PatternChecks.IsOutcome

variable {c c' : PatternChecks} {w w' : BehaviorWitness} {p p' : PatternPolicy}

theorem risk_le (h : c.IsOutcome w p) : c.risk.toNat ≤ 100 :=
  h.risk.trans_le riskPoints_le

/-- Timing that is too irregular costs its penalty and the whole share. -/
theorem risk_of_irregular (h : c.IsOutcome w p) (hvariance : p.maxVariance ≠ 0)
    (htiming : c.timingOk = false) :
    timingShare w.deviation p.maxVariance = 30 ∧ 40 ≤ c.risk.toNat := by
  have hshare : timingShare w.deviation p.maxVariance = 30 := by
    have hfailed := h.timingOk.symm.trans htiming
    exact timingShare_of_lt hvariance (UInt64.not_le.mp (of_decide_eq_false hfailed))
  refine ⟨hshare, ?_⟩
  rw [h.risk, hshare, htiming, penalty, penalty, penalty, penalty]
  simp

theorem verified_iff (h : c.IsOutcome w p) : c.verified = true ↔
    c.patternOk = true ∧ c.sessionOk = true ∧ c.typingOk = true ∧ c.timingOk = true ∧
      c.risk < p.riskThreshold := by
  rw [h.verified]
  simp [and_assoc]

/-- Of a behavior that passes, the risk is the share of the timing alone. -/
theorem risk_of_verified (h : c.IsOutcome w p) (hverified : c.verified = true) :
    c.risk.toNat = 30 * w.deviation.toNat / p.maxVariance.toNat ∧ c.risk.toNat ≤ 30 ∧
      c.risk < p.riskThreshold := by
  obtain ⟨hpattern, hsession, htyping, htiming, hbelow⟩ := h.verified_iff.mp hverified
  have hshare : c.risk.toNat = timingShare w.deviation p.maxVariance := by
    rw [h.risk, hpattern, hsession, htyping, htiming]
    simp [penalty]
  have hregular := of_decide_eq_true (h.timingOk.symm.trans htiming)
  refine ⟨hshare.trans (timingShare_of_le hregular), hshare.trans_le timingShare_le, hbelow⟩

/-- With the other checks as before, less regular timing or less room for it is no better. -/
theorem risk_mono (h : c.IsOutcome w p) (h' : c'.IsOutcome w' p') (hvariance' : p'.maxVariance ≠ 0)
    (hpattern : c.patternOk = c'.patternOk) (hsession : c.sessionOk = c'.sessionOk)
    (htyping : c.typingOk = c'.typingOk) (hdeviation : w.deviation ≤ w'.deviation)
    (hvariance : p'.maxVariance ≤ p.maxVariance) :
    (c'.timingOk = true → c.timingOk = true) ∧ c.risk ≤ c'.risk := by
  have htiming : c'.timingOk = true → c.timingOk = true := by
    rw [h.timingOk, h'.timingOk, decide_eq_true_iff, decide_eq_true_iff]
    exact fun hle => UInt64.le_trans (UInt64.le_trans hdeviation hle) hvariance
  have hpenalty : penalty 10 c.timingOk ≤ penalty 10 c'.timingOk := penalty_anti htiming
  have hshare := timingShare_mono hvariance' hdeviation hvariance
  refine ⟨htiming, UInt8.le_iff_toNat_le.mpr ?_⟩
  rw [h.risk, h'.risk, hpattern, hsession, htyping]
  omega

end PatternChecks.IsOutcome

namespace BehaviorWitness

/-- A behavior is judged whenever its session is not negative and the policy leaves room for irregular
timing. The risk is what the failed checks add and what the timing adds, and stays on its scale; too
irregular timing has the whole of its share, and a behavior that passes has nothing else. With the
other checks as before, more deviation or less room for it never lowers the risk, and lets no behavior
pass that did not. -/
theorem verify_risk (w : BehaviorWitness) (p : PatternPolicy) (hsession : 0 ≤ w.session)
    (hvariance : p.maxVariance ≠ 0) :
    ∃ c, w.verify p = .ok c ∧ c.IsOutcome w p ∧ c.risk.toNat ≤ 100 ∧
      (c.timingOk = false → timingShare w.deviation p.maxVariance = 30 ∧ 40 ≤ c.risk.toNat) ∧
      (c.verified = true → c.risk.toNat ≤ 30 ∧ c.risk < p.riskThreshold) ∧
      ∀ (w' : BehaviorWitness) (p' : PatternPolicy) (c' : PatternChecks),
        w'.verify p' = .ok c' → c.patternOk = c'.patternOk →
        c.sessionOk = c'.sessionOk → c.typingOk = c'.typingOk → w.deviation ≤ w'.deviation →
        p'.maxVariance ≤ p.maxVariance → c.risk ≤ c'.risk ∧
          (p'.riskThreshold ≤ p.riskThreshold → c'.verified = true → c.verified = true) := by
  have hfault : w.fault? = none := if_neg (Int64.not_lt.mpr hsession)
  obtain ⟨c, hc, houtcome⟩ := exists_verify hfault hvariance
  refine ⟨c, hc, houtcome, houtcome.risk_le, houtcome.risk_of_irregular hvariance,
    fun hverified => (houtcome.risk_of_verified hverified).2, ?_⟩
  intro w' p' c' hc' hpattern hsame htyping hdeviation hroom
  obtain ⟨hvariance', houtcome'⟩ := isOutcome_of_checks (checks_of_verify hc')
  obtain ⟨htiming, hrisk⟩ := houtcome.risk_mono houtcome' hvariance' hpattern hsame htyping
    hdeviation hroom
  refine ⟨hrisk, fun hthreshold hverified => ?_⟩
  obtain ⟨hpattern', hsession', htyping', htiming', hbelow⟩ := houtcome'.verified_iff.mp hverified
  exact houtcome.verified_iff.mpr ⟨hpattern.trans hpattern', hsame.trans hsession',
    htyping.trans htyping', htiming htiming', UInt8.lt_of_le_of_lt hrisk
      (UInt8.lt_of_lt_of_le hbelow hthreshold)⟩

/-- A session with irregular timing. -/
def jittery : BehaviorWitness :=
  ⟨#v[1, 2, 3, 4, 5, 1, 2, 3, 4, 5], #v[100, 300, 100, 300, 100, 300, 100, 300, 200], 600, 60, 40, 3,
    .zero⟩

/-- The policy that was learned from it, with some room for irregular timing. -/
def learned (maxVariance : UInt64) : PatternPolicy :=
  ⟨jittery.commitment, 60, 3600, 10, 200, maxVariance, 30, 70⟩

theorem deviation_jittery : jittery.deviation = 88 := by
  decide

/-- The session passes with half of the share. -/
theorem verified_jittery {c : PatternChecks} (h : c.IsOutcome jittery (learned 176)) :
    c.verified = true ∧ c.risk.toNat = 15 := by
  have hpattern : c.patternOk = true := h.patternOk.trans (decide_eq_true rfl)
  have hsession : c.sessionOk = true := h.sessionOk.trans (by decide)
  have htyping : c.typingOk = true := h.typingOk.trans (by decide)
  have htiming : c.timingOk = true := by
    rw [h.timingOk, deviation_jittery]
    decide
  have hrisk : c.risk.toNat = 15 := by
    rw [h.risk, hpattern, hsession, htyping, htiming, deviation_jittery]
    decide
  refine ⟨h.verified_iff.mpr ⟨hpattern, hsession, htyping, htiming, ?_⟩, hrisk⟩
  rw [UInt8.lt_iff_toNat_lt, hrisk]
  decide

theorem verify_risk_jittery : 0 ≤ jittery.session ∧ (learned 176).maxVariance ≠ 0 ∧
    ∃ c c', jittery.verify (learned 176) = .ok c ∧ c.verified = true ∧ c.risk.toNat = 15 ∧
      jittery.verify (learned 80) = .ok c' ∧ 40 ≤ c'.risk.toNat ∧ c.risk ≤ c'.risk := by
  have hsession : 0 ≤ jittery.session := by decide
  obtain ⟨c, hc, houtcome, -, -, -, hmono⟩ := verify_risk jittery (learned 176) hsession (by decide)
  obtain ⟨c', hc', houtcome', -, hirregular, -⟩ :=
    verify_risk jittery (learned 80) hsession (by decide)
  obtain ⟨hverified, hrisk⟩ := verified_jittery houtcome
  have htiming' : c'.timingOk = false := by
    rw [houtcome'.timingOk, deviation_jittery]
    decide
  have hle : c.risk ≤ c'.risk :=
    (hmono jittery (learned 80) c' hc' (houtcome.patternOk.trans houtcome'.patternOk.symm)
      (houtcome.sessionOk.trans houtcome'.sessionOk.symm)
      (houtcome.typingOk.trans houtcome'.typingOk.symm) (UInt64.le_refl _) (by decide)).1
  exact ⟨hsession, by decide, c, c', hc, hverified, hrisk, hc', (hirregular htiming').2, hle⟩

end BehaviorWitness

end AccessContext
