import AccessContext.Proofs.Arithmetic.Machine
import AccessContext.Proofs.Decision

/-!
# The arithmetic of decisions

Every operation on integers that leads from verdicts to a decision. Points and score stay on their
scale, so that neither is refused unless the risk is out of range.
-/

namespace AccessContext

open Arithmetic

/-- Whether a trust score reaches a level. -/
def Level.isReachedIn (mode : Mode) (level : Level) (trust : Int) : Machine Bool := do
  let least ← store mode u8 (level.number.toNat * 25)
  return decide (least ≤ trust)

namespace Verdicts

/-- Whether every required category passed. -/
def overallIn (mode : Mode) (v : Verdicts) (r : Requirements) : Machine Bool := do
  let checks ← Category.all.mapM fun c => bitIfRequired mode (v.get c).toInt (r.contains c)
  return isSet (← bitAll mode checks)

/-- The points of verdicts, of which a quarter is the trust score. -/
def pointsIn (mode : Mode) (v : Verdicts) : Machine Int := do
  let device ← store mode u64 (120 * v.device.toInt)
  let time ← store mode u64 (80 * v.time.toInt)
  let location ← store mode u64 (100 * v.location.toInt)
  let room ← store mode u64 (100 - v.risk.toNat)
  let two ← store mode u64 (device + time)
  let three ← store mode u64 (two + location)
  store mode u64 (three + room)

/-- The trust score. -/
def trustIn (mode : Mode) (v : Verdicts) : Run Int := do
  if 100 < v.risk.toNat then throw (.riskOutOfRange v.risk.toNat)
  let points ← v.pointsIn mode
  let score ← divide mode u64 points 4
  if 100 < score then throw (.trustOutOfRange score.toNat)
  store mode u8 score

/-- The decision that verdicts lead to under an access policy. -/
def decisionIn (mode : Mode) (v : Verdicts) (hashes : Contributions) (access : AccessPolicy)
    (nonce : Nonce) (version : UInt64) : Run Decision := do
  let overall ← v.overallIn mode access.requirements
  let score ← v.trustIn mode
  let levelMet ← access.level.isReachedIn mode score
  let trust := UInt8.ofNat score.toNat
  let audit := auditDigest overall trust access nonce version hashes
  return {
    artifact := ⟨v.device, v.time, v.location, v.pattern, overall, trust, levelMet, audit⟩
    signals := ⟨v.device, v.time, v.location, v.pattern, overall, trust, levelMet, access.level,
      access.requirements, v.risk⟩ }

end Verdicts

variable (mode : Mode)

theorem Level.isReachedIn_eq (level : Level) (trust : UInt8) :
    level.isReachedIn mode trust.toNat = .ok (level.isReached trust) := by
  have hnumber : level.number.toNat ≤ 4 := by
    cases level <;> decide
  rw [isReachedIn, store_unsigned mode (by omega) (by omega), ok_bind, isReached_eq, mul_comm]
  exact congrArg Except.ok (decide_eq_decide.mpr (by omega))

namespace Verdicts

variable {v : Verdicts}

theorem overallIn_eq (r : Requirements) : v.overallIn mode r = .ok (v.overall r) := by
  rw [overallIn, overall_eq_all, Category.all]
  simp only [List.mapM_cons, List.mapM_nil, bitIfRequired_toInt, ok_bind, pure_bind]
  refine (bind_ok (bitAll_toInt mode [_, _, _, _])).trans ?_
  rw [isSet_toInt]
  rfl

theorem pointsIn_eq (h : v.risk.toNat ≤ 100) : v.pointsIn mode = .ok v.points := by
  have hbit (b : Bool) : b.toInt = b.toNat ∧ b.toNat ≤ 1 := by
    cases b <;> exact ⟨rfl, by decide⟩
  obtain ⟨hdevice, hdevice'⟩ := hbit v.device
  obtain ⟨htime, htime'⟩ := hbit v.time
  obtain ⟨hlocation, hlocation'⟩ := hbit v.location
  rw [pointsIn, hdevice, htime, hlocation, store_unsigned mode (by omega) (by omega), ok_bind,
    store_unsigned mode (by omega) (by omega), ok_bind, store_unsigned mode (by omega) (by omega),
    ok_bind, store_unsigned mode (by omega) (by omega), ok_bind,
    store_unsigned mode (by omega) (by omega), ok_bind, store_unsigned mode (by omega) (by omega),
    ok_bind, store_unsigned mode (by omega) (by omega), points]
  exact congrArg Except.ok (by omega)

theorem points_le (v : Verdicts) : v.points ≤ 400 := by
  have hdevice := v.device.toNat_le
  have htime := v.time.toNat_le
  have hlocation := v.location.toNat_le
  rw [points]
  omega

theorem trustIn_of_le (h : v.risk.toNat ≤ 100) :
    ∃ t, v.trust = .ok t ∧ Computes (v.trustIn mode) (.ok t.toNat) := by
  obtain ⟨t, ht⟩ := exists_trust (UInt8.le_iff_toNat_le.mpr h)
  have hpoints := v.points_le
  have hscore := (trust_eq_ok_iff.mp ht).2
  have hcast : (v.points : Int) / 4 = t.toNat := by omega
  refine ⟨t, ht, ?_⟩
  rw [trustIn, if_neg (by omega)]
  apply Computes.lift (pointsIn_eq mode h)
  apply Computes.lift (divide_unsigned mode (by omega) (by decide) (by omega))
  rw [hcast, if_neg (by omega)]
  exact Computes.of_eq (store_unsigned mode (by omega) (by omega))

theorem trustIn_of_lt (h : 100 < v.risk.toNat) :
    v.trust = .error (.riskOutOfRange v.risk.toNat) ∧
      Computes (v.trustIn mode) (.error (.riskOutOfRange v.risk.toNat)) := by
  constructor
  · have hrisk : (100 : UInt64) < v.risk.toUInt64 := by
      rw [UInt64.lt_iff_toNat_lt, UInt8.toNat_toUInt64]
      exact h
    rw [trust, if_pos hrisk, UInt8.toNat_toUInt64]
  · rw [trustIn, if_pos h]
    exact computes_throw _

theorem decisionIn_computes (hashes : Contributions) (access : AccessPolicy) (nonce : Nonce)
    (version : UInt64) :
    Computes (v.decisionIn mode hashes access nonce version)
      (v.decision hashes access nonce version) := by
  rw [decisionIn, decision]
  apply Computes.lift (overallIn_eq mode access.requirements)
  rcases Nat.lt_or_ge 100 v.risk.toNat with hlt | hle
  · obtain ⟨htrust, hcomputes⟩ := trustIn_of_lt mode hlt
    rw [htrust]
    exact hcomputes.bind_error
  · obtain ⟨t, htrust, hcomputes⟩ := trustIn_of_le mode hle
    rw [htrust]
    apply hcomputes.bind_ok
    apply Computes.lift (Level.isReachedIn_eq mode access.level t)
    rw [Int.toNat_natCast, UInt8.ofNat_toNat]
    exact computes_pure_iff.mpr rfl

end Verdicts

end AccessContext
