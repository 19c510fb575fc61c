import AccessContext.AccessTime
import Mathlib.Algebra.Order.Ring.Int
import Mathlib.Tactic.Common
import Mathlib.Tactic.SplitIfs

/-!
# The calendar of the time checks

The hour that a local clock shows decides whether business is open at a second of the day: on the
hours from opening to closing, over midnight if it closes before it opens, and never if it closes as
it opens. The code is the one of the only step that the time falls into. Times in range are so close
that their distance is not cut off, and clocks that differ by whole days agree in every check. Main
statement: `TimeWitness.verify_calendar`.
-/

namespace AccessContext

/-! ### Words -/

theorem toInt_saturate64 {n : Int} (hlow : 0 ≤ n) (hhigh : n < 2 ^ 63) :
    (saturate64 n).toInt = n := by
  have hmin : Int64.minValue.toInt = -2 ^ 63 := rfl
  have hmax : Int64.maxValue.toInt = 2 ^ 63 - 1 := rfl
  unfold saturate64
  rw [if_neg (by omega), if_neg (by omega)]
  exact Int64.toInt_ofInt_of_le (by omega) (by omega)

/-- The magnitude of an offset, unless it is the one whose magnitude overflows. -/
theorem toInt_abs {offset : Int32} (h : offset ≠ Int32.minValue) :
    offset.abs.toInt = offset.toInt.natAbs := by
  refine BitVec.toInt_abs_eq_natAbs_of_ne_intMin fun heq => h ?_
  exact Int32.toBitVec_inj.mp heq

theorem toNat_clockHour (time : Int64) (offset : Int32) :
    ((clockHour time offset).toNat : Int) = (time.toInt + offset.toInt) % 86400 / 3600 := by
  unfold clockHour secondsPerDay secondsPerHour
  rw [UInt8.toNat_ofNat']
  omega

theorem toInt_stepNumber {time : Int64} {step : UInt32} (htime : 0 ≤ time.toInt) (hstep : step ≠ 0) :
    (stepNumber time step).toInt = time.toInt / step.toNat := by
  have htop := time.toInt_lt
  have hpos : 0 < step.toNat := Nat.pos_of_ne_zero fun h => hstep (UInt32.toNat_inj.mp h)
  have hle : time.toInt / step.toNat ≤ time.toInt := Int.ediv_le_self _ htime
  have hnonneg : 0 ≤ time.toInt / step.toNat := Int.ediv_nonneg htime (Int.natCast_nonneg _)
  rw [stepNumber, Nat.max_eq_left hpos, Int64.toInt_ofInt_of_le (by omega) (by omega)]

/-! ### Steps -/

/-- Whether a time falls into the step with a number. -/
def InStep (time : Int64) (step : UInt32) (number : Int) : Prop :=
  number * step.toNat ≤ time.toInt ∧ time.toInt < (number + 1) * step.toNat

/-- A time falls into one step, the one whose number is computed. -/
theorem inStep_iff {time : Int64} {step : UInt32} (htime : 0 ≤ time.toInt) (hstep : step ≠ 0)
    (number : Int) : InStep time step number ↔ number = (stepNumber time step).toInt := by
  have hpos : (0 : Int) < step.toNat :=
    Int.natCast_pos.mpr (Nat.pos_of_ne_zero fun h => hstep (UInt32.toNat_inj.mp h))
  -- Both bounds are bounds of the quotient, and leave one integer between them.
  rw [InStep, toInt_stepNumber htime hstep, ← Int.le_ediv_iff_mul_le hpos,
    ← Int.ediv_lt_iff_lt_mul hpos]
  omega

/-! ### Hours -/

namespace TimePolicy

/-- Whether business is open at a second of the day. It opens and closes on the hour; if it closes
before it opens, it is open over midnight, and if it closes as it opens, it never is. -/
def OpenAt (p : TimePolicy) (second : Int) : Prop :=
  (p.opens ≤ p.closes ∧ 3600 * (p.opens.toNat : Int) ≤ second ∧
      second < 3600 * (p.closes.toNat : Int)) ∨
    (p.closes < p.opens ∧
      (3600 * (p.opens.toNat : Int) ≤ second ∨ second < 3600 * (p.closes.toNat : Int)))

instance (p : TimePolicy) (second : Int) : Decidable (p.OpenAt second) :=
  inferInstanceAs (Decidable (_ ∨ _))

theorem codeStep_ne_zero_of_fault? {p : TimePolicy} (h : p.fault? = none) : p.codeStep ≠ 0 := by
  unfold fault? at h
  intro hzero
  rw [if_pos hzero] at h
  split_ifs at h

end TimePolicy

namespace TimeWitness

variable {w : TimeWitness} {p : TimePolicy}

/-- The seconds since midnight where clocks differ by the offset. -/
def secondOfDay (w : TimeWitness) : Int :=
  (w.current.toInt + w.offset.toInt) % 86400

/-- Business opens and closes on the hour, so the hour on the clock decides. -/
theorem toBool_withinHours_iff :
    (withinHours (clockHour w.current w.offset) p.opens p.closes).toBool = true ↔
      p.OpenAt w.secondOfDay := by
  have hhour : ((clockHour w.current w.offset).toNat : Int) = w.secondOfDay / 3600 :=
    toNat_clockHour w.current w.offset
  unfold TimePolicy.OpenAt
  simp only [withinHours, Bit.toBool_ite, Bit.toBool_and, Bit.toBool_or, Bit.toBool_leq,
    Bit.toBool_lt, decide_eq_true_eq, UInt8.le_iff_toNat_le, UInt8.lt_iff_toNat_lt]
  split
  · simp
    omega
  · simp
    omega

/-! ### Well-formed input -/

/-- The times of well-formed input are in order, whatever the offset. -/
theorem times_of_fault? (h : w.fault? = none) :
    0 ≤ w.previous.toInt ∧ w.previous.toInt ≤ w.current.toInt ∧
      w.current.toInt ≤ 253402300799 := by
  have hmax : maxTime.toInt = 253402300799 := rfl
  have hzero : (0 : Int64).toInt = 0 := rfl
  unfold fault? at h
  split_ifs at h with h₁ h₂ h₃ h₄
  rw [Int64.lt_iff_toInt_lt] at h₁ h₂ h₃ h₄
  exact ⟨by omega, by omega, by omega⟩

/-- What well-formed input says of times and offset. -/
theorem bounds_of_fault? (h : w.fault? = none) (hoffset : w.offset ≠ Int32.minValue) :
    0 ≤ w.previous.toInt ∧ w.previous.toInt ≤ w.current.toInt ∧ w.current.toInt ≤ 253402300799 ∧
      (w.offset.toInt.natAbs : Int) ≤ 50400 := by
  obtain ⟨hprevious, hle, hcurrent⟩ := times_of_fault? h
  have hbound : maxOffset.toInt = 50400 := rfl
  unfold fault? at h
  split_ifs at h with h₁ h₂ h₃ h₄ h₅
  rw [Int32.lt_iff_toInt_lt, toInt_abs hoffset, hbound] at h₅
  exact ⟨hprevious, hle, hcurrent, by omega⟩

/-- The distance of well-formed times is a word. -/
theorem toInt_elapsed (h : w.fault? = none) :
    (saturate64 (w.current.toInt - w.previous.toInt)).toInt = w.current.toInt - w.previous.toInt := by
  obtain ⟨hprevious, hle, -⟩ := times_of_fault? h
  have htop := w.current.toInt_lt
  exact toInt_saturate64 (by omega) (by omega)

end TimeWitness

/-! ### Checks -/

/-- Whether checks are what a time of access comes to under a policy. -/
structure TimeChecks.IsOutcome (c : TimeChecks) (w : TimeWitness) (p : TimePolicy) : Prop where
  inWindow : c.inWindow = true ↔
    p.earliest.toInt ≤ w.current.toInt ∧ w.current.toInt ≤ p.latest.toInt
  rateLimitOk : c.rateLimitOk = true ↔ p.minInterval.toInt ≤ w.current.toInt - w.previous.toInt
  hoursOk : c.hoursOk = true ↔ p.requireHours = false ∨ p.OpenAt w.secondOfDay
  codeOk : ∃ k : Int64, (∀ number, InStep w.current p.codeStep number ↔ number = k.toInt) ∧
    (c.codeOk = true ↔ p.requireCode = false ∨ codeAt w.seed k = p.expectedCode)
  verified : c.verified = true ↔ c.inWindow = true ∧ c.rateLimitOk = true ∧ c.hoursOk = true ∧
    c.codeOk = true
  proofHash : c.proofHash = p.proofHash c.verified

namespace TimeWitness

variable {w : TimeWitness} {p : TimePolicy}

theorem isOutcome_checks (hw : w.fault? = none) (hp : p.fault? = none) :
    (w.checks p).IsOutcome w p := by
  obtain ⟨hprevious, hle, -⟩ := times_of_fault? hw
  constructor
  · simp [checks, Int64.le_iff_toInt_le]
  · simp [checks, Int64.le_iff_toInt_le, toInt_elapsed hw]
  · rw [← toBool_withinHours_iff]
    simp [checks]
  · refine ⟨stepNumber w.current p.codeStep,
      inStep_iff (by omega) (TimePolicy.codeStep_ne_zero_of_fault? hp), ?_⟩
    change _ ↔ _ ∨ w.code p = p.expectedCode
    simp [checks]
  · simp [checks, and_assoc]
  · rfl

/-- The offset enters the checks by the second of the day alone. -/
theorem checks_of_second {offset : Int32} (h : secondOfDay { w with offset } = w.secondOfDay) :
    checks { w with offset } p = w.checks p := by
  have hsecond : (w.current.toInt + offset.toInt) % 86400 =
      (w.current.toInt + w.offset.toInt) % 86400 := h
  have hhour : clockHour w.current offset = clockHour w.current w.offset := by
    have hshifted := toNat_clockHour w.current offset
    rw [hsecond, ← toNat_clockHour] at hshifted
    exact UInt8.toNat_inj.mp (Int.ofNat_inj.mp hshifted)
  unfold checks code
  dsimp only
  rw [hhour]

/-- A well-formed time is judged by the calendar: the window, the distance from the access before,
which nothing cuts off, the second of the local day, and the code of the step that the time falls
into. Clocks that differ by whole days agree in everything. -/
theorem verify_calendar (w : TimeWitness) (p : TimePolicy) (hw : w.fault? = none)
    (hp : p.fault? = none) :
    ∃ c, w.verify p = .ok c ∧ c.IsOutcome w p ∧
      (saturate64 (w.current.toInt - w.previous.toInt)).toInt =
        w.current.toInt - w.previous.toInt ∧
      ∀ (offset : Int32) (days : Int), fault? { w with offset } = none →
        offset.toInt = w.offset.toInt + 86400 * days → verify { w with offset } p = .ok c := by
  refine ⟨w.checks p, ?_, isOutcome_checks hw hp, toInt_elapsed hw, fun offset days ho hshift => ?_⟩
  · rw [verify, hw]
  · have hsecond : secondOfDay { w with offset } = w.secondOfDay := by
      unfold secondOfDay
      dsimp only
      omega
    rw [verify, ho, checks_of_second hsecond]

/-- An hour before midnight, at clocks that are eleven hours ahead. -/
def lateEvening : TimeWitness :=
  ⟨1705320000, 1705316400, 39600, .zero⟩

/-- A policy that opens from ten at night to six in the morning. -/
def nightShift : TimePolicy :=
  ⟨1705316400, 1705323600, 60, 22, 6, 30, 0, true, false⟩

theorem verified_lateEvening {c : TimeChecks} (h : c.IsOutcome lateEvening nightShift) :
    c.verified = true := by
  obtain ⟨k, -, hcode⟩ := h.codeOk
  exact h.verified.mpr ⟨h.inWindow.mpr (by decide), h.rateLimitOk.mpr (by decide),
    h.hoursOk.mpr (.inr (by decide)), hcode.mpr (.inl rfl)⟩

/-- Clocks that are thirteen hours behind show the same hour of the day before. -/
theorem verify_calendar_midnight : lateEvening.fault? = none ∧ nightShift.fault? = none ∧
    ∃ c, lateEvening.verify nightShift = .ok c ∧ c.verified = true ∧
      verify { lateEvening with offset := -46800 } nightShift = .ok c := by
  obtain ⟨c, hc, houtcome, -, hshift⟩ :=
    verify_calendar lateEvening nightShift (by decide) (by decide)
  exact ⟨by decide, by decide, c, hc, verified_lateEvening houtcome,
    hshift (-46800) (-1) (by decide) (by decide)⟩

end TimeWitness

end AccessContext
