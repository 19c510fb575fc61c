import AccessContext.Proofs.Arithmetic.Machine
import AccessContext.Proofs.Timing

/-!
# The arithmetic of the pattern category

Every operation on integers in the checks on a behavior: sums of nine intervals stay far below 128
bits, mean and deviation are words again, and the risk does not leave its scale.
-/

namespace AccessContext

open Arithmetic

/-- The sum of a list, from left to right. -/
def sumIn (mode : Mode) (xs : List Int) : Machine Int :=
  xs.foldlM (fun sum x => store mode u128 (sum + x)) 0

/-- The distances of integers from another. -/
def gapsIn (mode : Mode) (mean : Int) (xs : List Int) : Machine (List Int) :=
  xs.mapM fun x => store mode u64 (x - mean).natAbs

/-- A mean of nine, as a word. -/
def meanIn (mode : Mode) (xs : List Int) : Machine Int := do
  let sum ← sumIn mode xs
  store mode u64 (← divide mode u128 sum 9)

/-- The mean of the intervals and their mean distance from it. -/
def statisticsIn (mode : Mode) (intervals : Vector UInt64 9) : Machine (Int × Int) := do
  let xs := intervalNumbers intervals
  let mean ← meanIn mode xs
  let deviation ← meanIn mode (← gapsIn mode mean xs)
  return (mean, deviation)

/-- The weight of a check if it failed. -/
def penaltyIn (mode : Mode) (weight passed : Int) : Machine Int := do
  store mode u64 (weight * (← bitNot mode passed))

/-- The points of the risk, of which there may be too many. -/
def riskPointsIn (mode : Mode) (patternOk sessionOk typingOk timingOk deviation maxVariance : Int) :
    Machine Int := do
  let weighted ← store mode u128 (deviation * 30)
  let share ← divide mode u128 weighted maxVariance
  let continuous ← store mode u64 (min share 30)
  let pattern ← penaltyIn mode 25 patternOk
  let session ← penaltyIn mode 20 sessionOk
  let typing ← penaltyIn mode 15 typingOk
  let timing ← penaltyIn mode 10 timingOk
  let two ← store mode u64 (pattern + session)
  let three ← store mode u64 (two + typing)
  let four ← store mode u64 (three + timing)
  store mode u64 (four + continuous)

section Parts

variable (mode : Mode)

theorem foldlM_store {xs : List Int} {bound sum : Int} (hsum : 0 ≤ sum)
    (h : ∀ x ∈ xs, 0 ≤ x ∧ x ≤ bound) (htop : sum + xs.length * bound < 2 ^ 128) :
    xs.foldlM (fun sum x => store mode u128 (sum + x)) sum = .ok (sum + xs.sum) := by
  induction xs generalizing sum with
  | nil =>
    rw [List.sum_nil, add_zero]
    rfl
  | cons x xs ih =>
    obtain ⟨hx, hxs⟩ := List.forall_mem_cons.mp h
    obtain ⟨hnonneg, hle⟩ := sum_bounds hxs
    rw [mul_zero] at hnonneg
    rw [List.length_cons, Nat.cast_add, Nat.cast_one, add_mul, one_mul] at htop
    rw [List.foldlM_cons, store_unsigned mode (by omega) (by omega), ok_bind,
      ih (by omega) hxs (by omega), List.sum_cons, add_assoc]

theorem meanIn_eq {xs : List Int} (hlength : xs.length = 9) (hwords : AreWords xs) :
    meanIn mode xs = .ok (meanInterval xs) := by
  obtain ⟨hnonneg, hle⟩ := hwords.sum_nine_bounds hlength
  rw [meanIn, sumIn, foldlM_store mode le_rfl hwords.le (by rw [hlength]; decide), ok_bind,
    zero_add, divide_unsigned mode hnonneg (by decide) (by omega), ok_bind,
    store_unsigned mode (by omega) (by omega), meanInterval]

theorem gapsIn_eq {mean : Int} {xs : List Int} (hmean : 0 ≤ mean ∧ mean < 2 ^ 64)
    (hwords : AreWords xs) : gapsIn mode mean xs = .ok (distances mean xs) := by
  induction xs with
  | nil => rfl
  | cons x xs ih =>
    obtain ⟨hx, hxs⟩ := List.forall_mem_cons.mp hwords
    have hrest := ih hxs
    rw [gapsIn] at hrest
    rw [gapsIn, List.mapM_cons, store_unsigned mode (by omega) (by omega), ok_bind, hrest]
    rfl

theorem statisticsIn_eq (intervals : Vector UInt64 9) :
    statisticsIn mode intervals =
      .ok ((meanAndDeviation intervals).1.toNat, (meanAndDeviation intervals).2.toNat) := by
  have hwords := areWords_intervalNumbers intervals
  have hmean := hwords.mean_bounds length_intervalNumbers
  have hdistances := hwords.distances_words hmean
  rw [toNat_mean, toNat_deviation, statisticsIn, meanIn_eq mode length_intervalNumbers hwords,
    ok_bind, gapsIn_eq mode hmean hwords, ok_bind,
    meanIn_eq mode (length_distances.trans length_intervalNumbers) hdistances]
  rfl

theorem penaltyIn_eq {weight : Int} (hnonneg : 0 ≤ weight) (hle : weight ≤ 100) (passed : Bool) :
    penaltyIn mode weight passed.toInt = .ok (weight * (!passed).toInt) := by
  rw [penaltyIn, bitNot_toInt, ok_bind]
  cases passed with
  | true => exact store_unsigned mode (by simp) (by simp)
  | false => exact store_unsigned mode (by simpa using hnonneg) (by simp; omega)

theorem riskPointsIn_eq (patternOk sessionOk typingOk timingOk : Bool) (deviation : UInt64)
    {maxVariance : UInt64} (h : maxVariance ≠ 0) :
    riskPointsIn mode patternOk.toInt sessionOk.toInt typingOk.toInt timingOk.toInt deviation.toNat
        maxVariance.toNat =
      .ok ↑(penalty 25 patternOk + penalty 20 sessionOk + penalty 15 typingOk + penalty 10 timingOk
        + timingShare deviation maxVariance) := by
  have hdeviation := deviation.toNat_lt
  have hpos : 0 < (maxVariance.toNat : Int) := Int.natCast_pos.mpr (toNat_pos_of_ne_zero h)
  have hshare : 0 ≤ (deviation.toNat : Int) * 30 / maxVariance.toNat :=
    Int.ediv_nonneg (by omega) hpos.le
  have hpattern := toInt_bounds (!patternOk)
  have hsession := toInt_bounds (!sessionOk)
  have htyping := toInt_bounds (!typingOk)
  have htiming := toInt_bounds (!timingOk)
  rw [riskPointsIn, store_unsigned mode (by omega) (by omega), ok_bind,
    divide_unsigned mode (by omega) hpos (by omega), ok_bind,
    store_unsigned mode (by omega) (by omega), ok_bind,
    penaltyIn_eq mode (by decide) (by decide), ok_bind,
    penaltyIn_eq mode (by decide) (by decide), ok_bind,
    penaltyIn_eq mode (by decide) (by decide), ok_bind,
    penaltyIn_eq mode (by decide) (by decide), ok_bind, store_unsigned mode (by omega) (by omega),
    ok_bind, store_unsigned mode (by omega) (by omega), ok_bind,
    store_unsigned mode (by omega) (by omega), ok_bind, store_unsigned mode (by omega) (by omega)]
  push_cast [cast_penalty, cast_timingShare]
  rfl

end Parts

/-- The risk, refused if it leaves the scale. -/
def behaviorRiskIn (mode : Mode) (patternOk sessionOk typingOk timingOk deviation : Int)
    (maxVariance : UInt64) : Run Int := do
  if maxVariance = 0 then throw (.invalidPolicy .zeroVariance)
  let risk ← riskPointsIn mode patternOk sessionOk typingOk timingOk deviation maxVariance.toNat
  if risk ≤ fullRisk.toNat then return risk else throw (.riskOutOfRange risk.toNat)

/-- The risk never leaves the scale, so only a policy without a variance is refused. -/
theorem behaviorRiskIn_computes (mode : Mode) (patternOk sessionOk typingOk timingOk : Bit)
    (deviation : UInt64) {maxVariance : UInt64} (h : maxVariance ≠ 0) :
    ∃ r, behaviorRisk patternOk sessionOk typingOk timingOk deviation maxVariance = .ok r ∧
      r.toNat ≤ 100 ∧
      Computes (behaviorRiskIn mode patternOk.toBool.toInt sessionOk.toBool.toInt
        typingOk.toBool.toInt timingOk.toBool.toInt deviation.toNat maxVariance) (.ok r.toNat) := by
  obtain ⟨r, hr, hrisk⟩ := exists_behaviorRisk patternOk sessionOk typingOk timingOk deviation h
  have hle : r.toNat ≤ 100 := hrisk.trans_le riskPoints_le
  refine ⟨r, hr, hle, ?_⟩
  rw [behaviorRiskIn, if_neg h]
  apply Computes.lift (riskPointsIn_eq mode _ _ _ _ deviation h)
  rw [← hrisk, if_pos (by simpa [fullRisk] using hle)]
  exact computes_pure_iff.mpr rfl

namespace BehaviorWitness

/-- The commitment to a behavior. -/
def commitmentIn (mode : Mode) (w : BehaviorWitness) : Machine Digest := do
  let (mean, deviation) ← statisticsIn mode w.intervals
  return commit (utf8 "zkctx/behavior-commit/v1")
    [w.actions.toList.flatMap fun a => leBytes 4 a.toNat, leBytes 8 mean.toNat,
      leBytes 8 deviation.toNat, leBytes 4 w.typing.toNat, leBytes 4 w.pointer.toNat,
      leBytes 4 w.frequency.toNat, w.salt.toList]

/-- The checks on a behavior. -/
def checksIn (mode : Mode) (w : BehaviorWitness) (p : PatternPolicy) : Run PatternChecks := do
  let commitment ← w.commitmentIn mode
  let patternOk := (decide (commitment = p.commitment)).toInt
  let sessionOk ← bitAnd mode (decide (p.minSession ≤ w.session)).toInt
    (decide (w.session ≤ p.maxSession)).toInt
  let typingOk ← bitAnd mode (decide (p.minTyping ≤ w.typing)).toInt
    (decide (w.typing ≤ p.maxTyping)).toInt
  let (_, deviation) ← statisticsIn mode w.intervals
  let timingOk := (decide (deviation ≤ p.maxVariance.toNat)).toInt
  let risk ← behaviorRiskIn mode patternOk sessionOk typingOk timingOk deviation p.maxVariance
  let belowThreshold := (decide (risk < p.riskThreshold.toNat)).toInt
  let confidence ← store mode u8 (fullRisk.toNat - risk)
  let verified ← bitAll mode [patternOk, sessionOk, typingOk, timingOk, belowThreshold]
  return {
    patternOk := isSet patternOk
    sessionOk := isSet sessionOk
    typingOk := isSet typingOk
    timingOk := isSet timingOk
    risk := UInt8.ofNat risk.toNat
    confidence := UInt8.ofNat confidence.toNat
    confidenceOk := decide ((p.requiredConfidence.toNat : Int) ≤ confidence)
    verified := isSet verified
    proofHash := p.proofHash (isSet verified) (UInt8.ofNat risk.toNat) }

/-- The checks on a behavior whose input is well formed. -/
def verifyIn (mode : Mode) (w : BehaviorWitness) (p : PatternPolicy) : Run PatternChecks :=
  match w.fault? with
  | some fault => throw (.invalidInput fault)
  | none => w.checksIn mode p

variable (mode : Mode) {w : BehaviorWitness}

theorem commitmentIn_eq : w.commitmentIn mode = .ok w.commitment := by
  rw [commitmentIn, statisticsIn_eq]
  rfl

theorem checksIn_computes (p : PatternPolicy) : Computes (w.checksIn mode p) (w.checks p) := by
  rw [checksIn, checks]
  apply Computes.lift (commitmentIn_eq mode)
  apply Computes.lift (bitAnd_toInt mode _ _)
  apply Computes.lift (bitAnd_toInt mode _ _)
  apply Computes.lift (statisticsIn_eq mode w.intervals)
  have htiming : decide (((meanAndDeviation w.intervals).2.toNat : Int) ≤ p.maxVariance.toNat) =
      (Bit.leq (meanAndDeviation w.intervals).2 p.maxVariance).toBool := by
    rw [Bit.toBool_leq, decide_eq_decide, UInt64.le_iff_toNat_le, Nat.cast_le]
  rw [← Bit.toBool_digestEq, ← Bit.toBool_between, ← Bit.toBool_between]
  dsimp only
  rw [htiming]
  by_cases hzero : p.maxVariance = 0
  · rw [behaviorRisk, if_pos hzero]
    apply Computes.bind_error
    rw [behaviorRiskIn, if_pos hzero]
    exact computes_throw _
  · obtain ⟨r, hr, hle, hrisk⟩ := behaviorRiskIn_computes mode
      (Bit.digestEq w.commitment p.commitment) (Bit.between w.session p.minSession p.maxSession)
      (Bit.between w.typing p.minTyping p.maxTyping)
      (Bit.leq (meanAndDeviation w.intervals).2 p.maxVariance) (meanAndDeviation w.intervals).2 hzero
    rw [hr]
    apply hrisk.bind_ok
    have hfull : (fullRisk.toNat : Int) = 100 := rfl
    have hconfidence : (fullRisk - r).toNat = 100 - r.toNat :=
      UInt8.toNat_sub_of_le _ _ (UInt8.le_iff_toNat_le.mpr hle)
    have hcast : (100 : Int) - r.toNat = (fullRisk - r).toNat := by omega
    rw [hfull, hcast]
    apply Computes.lift (store_unsigned mode (by omega) (by omega))
    apply Computes.lift (bitAll_toInt mode [_, _, _, _, _])
    simp [computes_pure_iff, UInt8.lt_iff_toNat_lt, UInt8.le_iff_toNat_le]

theorem verifyIn_computes (p : PatternPolicy) : Computes (w.verifyIn mode p) (w.verify p) := by
  rw [verifyIn, verify]
  cases w.fault? with
  | some fault => exact computes_throw _
  | none => exact checksIn_computes mode p

end BehaviorWitness

end AccessContext
