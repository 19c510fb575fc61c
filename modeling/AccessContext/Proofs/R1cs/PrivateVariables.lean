import AccessContext.Proofs.R1cs.Location
import AccessContext.Proofs.R1cs.Pattern
import AccessContext.Proofs.R1cs.Time

/-!
# What the private variables decide

An assignment that satisfies the constraints of a verdict may come from anyone. Its private
variables are nevertheless integers within the widths of their range checks, the variables in
between are computed from these, and the result is the verdict that the policy gives on them.
Main statements: `enforceTime_decides`, `enforceLocation_decides`, `enforcePattern_decides`.
-/

namespace AccessContext.R1cs

open Fin.CommRing
open Circuit

variable {a : Assignment}

theorem Term.StandsFor.eval_eq_ofBool {t : Term} {b : Bool} (h : t.StandsFor a b.toInt) :
    a.eval t.form = .ofBool b :=
  h.trans (Scalar.ofBool_eq_cast b).symm

theorem Term.StandsFor.eval_eq_ofInt {t : Term} {x : Int} (h : t.StandsFor a x) :
    a.eval t.form = .ofInt x :=
  h.trans (Scalar.ofInt_eq_cast x).symm

/-- A policy for a place that opens at night. -/
def nightPolicy : Policy where
  version := 1
  device := ⟨.zero, .zero, none, []⟩
  time := ⟨1600000000, 1800000000, 3600, 22, 6, 30, 123456, true, true⟩
  location := ⟨⟨⟨5200, 1300⟩, 2500⟩, some ⟨⟨5300, 1300⟩, 100⟩, 100, 100, true⟩
  pattern := ⟨.zero, 60, 3600, 10, 100, 100, 50, 50⟩
  access := ⟨.ofCategories [.time, .location, .pattern], .basic⟩

/-- A claim that the policy is met. -/
def nightStatement : Statement where
  snapshot := ⟨nightPolicy, nightPolicy.digest, rfl, rfl⟩
  nonce := ⟨[1]⟩
  signals := ⟨false, true, true, true, true, 69, true, .basic,
    .ofCategories [.time, .location, .pattern], 2⟩

/-! ### Time -/

theorem isOpen_eq_true_iff {hour opens closes : Int} :
    isOpen hour opens closes = true ↔
      if opens ≤ closes then opens ≤ hour ∧ hour < closes else opens ≤ hour ∨ hour < closes := by
  unfold isOpen
  split
  · simp
  · simp

theorem TimeInput.verdict_eq_true_iff (i : TimeInput) (p : TimePolicy) :
    i.verdict p = true ↔
      i.present = true ∧ p.earliest.toInt ≤ i.now ∧ i.now ≤ p.latest.toInt ∧
      p.minInterval.toInt ≤ i.now - i.previous ∧
      (p.requireHours = true →
        isOpen (localHour i.now i.offset) p.opens.toNat p.closes.toNat = true) ∧
      (p.requireCode = true → i.code = p.expectedCode.toNat) := by
  simp [verdict_eq_all, Bool.or_eq_true, imp_iff_not_or]

/-- Times and offsets in range are words, and the clock tells their hour. -/
theorem toNat_clockHour_ofInt {i : TimeInput} (hi : i.InRange) :
    ((clockHour (.ofInt i.now) (.ofInt i.offset)).toNat : Int) = localHour i.now i.offset := by
  obtain ⟨hprevious, hle, hnow, hoffset, hoffset₁, -, -⟩ := hi
  rw [TimeInput.toNat_clockHour, Int64.toInt_ofInt_of_le (by omega) (by omega),
    Int32.toInt_ofInt_of_le (by omega) (by omega)]

/-- The verdict on a time of access is that on the integers of its private variables, and its hour
is the local one, whatever values an assignment gives to the variables. -/
theorem enforceTime_decides {z : TimeVector (Wire Scalar)} {p : TimePolicy}
    (hz : z.Holds a p.vector) (input : TimeInput) (n : Nat)
    (hhold : Step.Hold a (enforceTime input z n).2) :
    ∃ (i : TimeInput) (hour : Int),
      i.IsNamed (Gives a (enforceTime input z) n) ∧
      Gives a (enforceTime input z) n ["hour", "num"] (.ofInt hour) ∧
      (0 ≤ i.previous ∧ i.previous ≤ i.now ∧ i.now < 2 ^ 38) ∧
      (-50400 ≤ i.offset ∧ i.offset < 2 ^ 17 - 50400) ∧ (0 ≤ i.code ∧ i.code < 2 ^ 20) ∧
      hour = (i.now + i.offset) % 86400 / 3600 ∧
      hour = (clockHour (.ofInt i.now) (.ofInt i.offset)).toNat ∧
      ∃ verdict : Bool, a.eval (enforceTime input z n).1.form = .ofBool verdict ∧
        (verdict = true ↔
          i.present = true ∧ p.earliest.toInt ≤ i.now ∧ i.now ≤ p.latest.toInt ∧
          p.minInterval.toInt ≤ i.now - i.previous ∧
          (p.requireHours = true →
            if p.opens ≤ p.closes then (p.opens.toNat : Int) ≤ hour ∧ hour < p.closes.toNat
            else (p.opens.toNat : Int) ≤ hour ∨ hour < p.closes.toNat) ∧
          (p.requireCode = true → i.code = p.expectedCode.toNat)) ∧
        ∀ w : TimeWitness, .ofWitness p (some w) = i → (w.checks p).verified = verdict := by
  obtain ⟨i, hnamed, hrange, hhour, ht⟩ :=
    (shows_enforceTime hz).of_gives hhold
  refine ⟨i, localHour i.now i.offset, hnamed, hhour,
    ⟨hrange.previous_nonneg, hrange.previous_le, hrange.now_lt⟩,
    ⟨hrange.offset_ge, hrange.offset_lt⟩, ⟨hrange.code_nonneg, hrange.code_lt⟩, rfl,
    (toNat_clockHour_ofInt hrange).symm, i.verdict p, ht.eval_eq_ofBool, ?_, ?_⟩
  · rw [TimeInput.verdict_eq_true_iff, isOpen_eq_true_iff]
    simp only [UInt8.le_iff_toNat_le, Nat.cast_le]
  · rintro w rfl
    exact TimeInput.verified_checks hrange

/-- Shortly after midnight, two hours east. -/
def nightTime : TimeInput := ⟨true, 1700000000, 1699990000, 7200, 123456⟩

theorem enforceTime_decides_night :
    ∃ a : Assignment,
      nightStatement.publicVector.wires.time.Holds a nightPolicy.time.vector ∧
      Step.Hold a
        (enforceTime nightTime nightStatement.publicVector.wires.time ContextVector.arity).2 ∧
      ∃ (i : TimeInput) (hour : Int), i.present = true ∧ 3600 ≤ i.now - i.previous ∧
        hour = (i.now + i.offset) % 86400 / 3600 ∧ (22 ≤ hour ∨ hour < 6) ∧ i.code = 123456 := by
  have hrange : nightTime.InRange := by
    constructor <;> decide
  obtain ⟨a, ha, hhold, hcarries⟩ := Circuit.exists_hold (z := nightStatement.publicVector.toList)
    (fun a ha => runs_enforceTime (holds_time_wires ha) hrange) .intro
  rw [ContextVector.length_toList] at hhold hcarries
  have hz := holds_time_wires ha
  obtain ⟨i, hour, -, -, -, -, -, hhour, -, verdict, hverdict, hiff, -⟩ :=
    enforceTime_decides hz nightTime _ hhold
  have htrue : nightTime.verdict nightPolicy.time = true := by decide
  obtain rfl : verdict = true :=
    (Scalar.ofBool_inj (hverdict.symm.trans hcarries.standsFor.eval_eq_ofBool)).trans htrue
  obtain ⟨hpresent, -, -, hinterval, hhours, hcode⟩ := hiff.mp rfl
  exact ⟨a, hz, hhold, i, hour, hpresent, hinterval, hhour, hhours rfl, hcode rfl⟩

/-! ### Location -/

theorem LocationInput.verdict_eq_true_iff (i : LocationInput) (p : LocationPolicy) :
    i.verdict p = true ↔
      i.present = true ∧
      i.current.planeDistSq p.authorized.center ≤ p.authorized.radiusSq.toNat ∧
      (∀ r, p.blacklisted = some r → (r.radiusSq.toNat : Int) < i.current.planeDistSq r.center) ∧
      i.current.planeDistSq i.previous ≤
        i.travelHours * p.maxSpeed.toNat * (i.travelHours * p.maxSpeed.toNat) ∧
      (p.requireIp = true → i.current.planeDistSq i.ipDerived ≤ p.ipToleranceSq.toNat) := by
  simp [verdict_eq_all, Bool.or_eq_true, imp_iff_not_or, Option.all_eq_true]

/-- The verdict on a place of access is that on the points and hours of its private variables,
whatever values an assignment gives to the variables. The way that can be travelled is capped before
it is squared, which does not change whether the points are in reach. -/
theorem enforceLocation_decides {z : LocationVector (Wire Scalar)} {p : LocationPolicy}
    (hz : z.Holds a p.vector) (input : LocationInput) (n : Nat)
    (hhold : Step.Hold a (enforceLocation input z n).2) :
    ∃ (i : LocationInput) (reach : Int),
      i.IsNamed (Gives a (enforceLocation input z) n) ∧
      Gives a (enforceLocation input z) n ["reach_sq", "product", "num"]
        (.ofInt (min reach (2 ^ 17 - 1) ^ 2)) ∧
      i.PointsInBox ∧ (0 ≤ i.travelHours ∧ i.travelHours < 2 ^ 64) ∧
      reach = i.travelHours * p.maxSpeed.toNat ∧
      (i.current.planeDistSq i.previous ≤ min reach (2 ^ 17 - 1) ^ 2 ↔
        i.current.planeDistSq i.previous ≤ reach ^ 2) ∧
      ∃ verdict : Bool, a.eval (enforceLocation input z n).1.form = .ofBool verdict ∧
        (verdict = true ↔
          i.present = true ∧
          i.current.planeDistSq p.authorized.center ≤ p.authorized.radiusSq.toNat ∧
          (∀ r, p.blacklisted = some r →
            (r.radiusSq.toNat : Int) < i.current.planeDistSq r.center) ∧
          i.current.planeDistSq i.previous ≤ reach ^ 2 ∧
          (p.requireIp = true → i.current.planeDistSq i.ipDerived ≤ p.ipToleranceSq.toNat)) ∧
        ∀ w : LocationWitness, .ofWitness (some w) = i → (w.checks p).verified = verdict := by
  obtain ⟨i, hnamed, hpoints, hhours, hreachSq, ht⟩ :=
    (shows_enforceLocation hz).of_gives hhold
  have hreach : 0 ≤ i.travelHours * p.maxSpeed.toNat :=
    mul_nonneg hhours.1 (Int.natCast_nonneg _)
  have hcap := le_capped_iff hreach
    (GeoPoint.planeDistSq_le_of_inBox hpoints.current hpoints.previous)
  simp only [← pow_two] at hreachSq hcap
  refine ⟨i, _, hnamed, hreachSq, hpoints, hhours, rfl, hcap, i.verdict p, ht.eval_eq_ofBool, ?_,
    ?_⟩
  · rw [LocationInput.verdict_eq_true_iff]
    simp only [← pow_two]
  · rintro w rfl
    exact LocationInput.verified_checks ⟨hpoints.current, hpoints.previous, hpoints.ipDerived,
      hhours.1, w.travelHours.toInt_lt⟩

/-- Near the authorized center, and fifty units from the place an hour before. -/
def nightPlace : LocationInput := ⟨true, ⟨5210, 1310⟩, ⟨5250, 1340⟩, ⟨5213, 1314⟩, 1⟩

theorem enforceLocation_decides_night :
    ∃ a : Assignment,
      nightStatement.publicVector.wires.location.Holds a nightPolicy.location.vector ∧
      Step.Hold a
        (enforceLocation nightPlace nightStatement.publicVector.wires.location
          ContextVector.arity).2 ∧
      ∃ (i : LocationInput) (reach : Int), i.present = true ∧ reach = i.travelHours * 100 ∧
        i.current.planeDistSq ⟨5200, 1300⟩ ≤ 2500 ∧ 100 < i.current.planeDistSq ⟨5300, 1300⟩ ∧
        i.current.planeDistSq i.previous ≤ reach ^ 2 ∧
        i.current.planeDistSq i.ipDerived ≤ 100 := by
  have hrange : nightPlace.InRange := by
    constructor
    · constructor <;> decide
    · constructor <;> decide
    · constructor <;> decide
    · decide
    · decide
  obtain ⟨a, ha, hhold, hcarries⟩ := Circuit.exists_hold (z := nightStatement.publicVector.toList)
    (fun a ha => runs_enforceLocation (holds_location_wires ha) hrange) .intro
  rw [ContextVector.length_toList] at hhold hcarries
  have hz := holds_location_wires ha
  obtain ⟨i, reach, -, -, -, -, hreach, -, verdict, hverdict, hiff, -⟩ :=
    enforceLocation_decides hz nightPlace _ hhold
  have htrue : nightPlace.verdict nightPolicy.location = true := by decide
  obtain rfl : verdict = true :=
    (Scalar.ofBool_inj (hverdict.symm.trans hcarries.standsFor.eval_eq_ofBool)).trans htrue
  obtain ⟨hpresent, hcenter, hblocked, htravel, hip⟩ := hiff.mp rfl
  have houtside := hblocked ⟨⟨5300, 1300⟩, 100⟩ rfl
  exact ⟨a, hz, hhold, i, reach, hpresent, hreach, hcenter, houtside, htravel, hip rfl⟩

/-! ### Pattern -/

theorem PatternInput.verdict_eq_true_iff (i : PatternInput) (p : PatternPolicy) :
    i.verdict p = true ↔
      i.present = true ∧ i.baselineMatches = true ∧
      (p.minSession.toInt ≤ i.session ∧ i.session ≤ p.maxSession.toInt) ∧
      ((p.minTyping.toNat : Int) ≤ i.typing ∧ i.typing ≤ p.maxTyping.toNat) ∧
      timingDeviation i.intervals.toList ≤ p.maxVariance.toNat ∧
      i.shownRisk p < p.riskThreshold.toNat := by
  simp [verdict_eq_all, sessionOk, typingOk, timingOk]

/-- The weight of a check counts if the check fails. -/
theorem weight_mul_not (w : Int) (b : Bool) : w * (!b).toInt = if b then 0 else w := by
  cases b <;> simp

theorem PatternInput.shownRisk_eq (i : PatternInput) (p : PatternPolicy) :
    i.shownRisk p =
      (if i.baselineMatches then 0 else 25)
        + (if p.minSession.toInt ≤ i.session ∧ i.session ≤ p.maxSession.toInt then 0 else 20)
        + (if (p.minTyping.toNat : Int) ≤ i.typing ∧ i.typing ≤ p.maxTyping.toNat then 0 else 15)
        + (if timingDeviation i.intervals.toList ≤ p.maxVariance.toNat then 0 else 10)
        + min 30 (30 * timingDeviation i.intervals.toList / p.maxVariance.toNat) := by
  unfold shownRisk timingWeight
  simp only [weight_mul_not, sessionOk, typingOk, timingOk, Bool.and_eq_true, decide_eq_true_eq]
  rw [min_comm, mul_comm 30]

/-- The verdict on a behavior and its risk are those of the integers of its private variables,
whatever values an assignment gives to the variables; the variables in between are the mean of the
intervals, their deviation and its share of the risk, each rounded down. -/
theorem enforcePattern_decides {z : PatternVector (Wire Scalar)} {p : PatternPolicy}
    (hz : z.Holds a p.vector) (hp : p.fault? = none) (input : PatternInput) (n : Nat)
    (hhold : Step.Hold a (enforcePattern input z n).2) :
    ∃ (i : PatternInput) (mean mad share : Int),
      i.IsNamed (Gives a (enforcePattern input z) n) ∧
      Gives a (enforcePattern input z) n ["mean", "quotient", "num"] (.ofInt mean) ∧
      Gives a (enforcePattern input z) n ["mad", "quotient", "num"] (.ofInt mad) ∧
      Gives a (enforcePattern input z) n ["quotient", "num"] (.ofInt share) ∧
      (0 ≤ i.session ∧ i.session < 2 ^ 64) ∧ (0 ≤ i.typing ∧ i.typing < 2 ^ 32) ∧
      (∀ x ∈ i.intervals.toList, 0 ≤ x ∧ x < 2 ^ 64) ∧
      mean = i.intervals.toList.sum / 9 ∧
      mad = (i.intervals.toList.map fun x => ((x - mean).natAbs : Int)).sum / 9 ∧
      share = 30 * mad / p.maxVariance.toNat ∧
      ∃ (verdict : Bool) (risk : Int),
        a.eval (enforcePattern input z n).1.1.form = .ofBool verdict ∧
        a.eval (enforcePattern input z n).1.2.form = .ofInt (if i.present then risk else 100) ∧
        (verdict = true ↔
          i.present = true ∧ i.baselineMatches = true ∧
          (p.minSession.toInt ≤ i.session ∧ i.session ≤ p.maxSession.toInt) ∧
          ((p.minTyping.toNat : Int) ≤ i.typing ∧ i.typing ≤ p.maxTyping.toNat) ∧
          mad ≤ p.maxVariance.toNat ∧ risk < p.riskThreshold.toNat) ∧
        risk =
          (if i.baselineMatches then 0 else 25)
            + (if p.minSession.toInt ≤ i.session ∧ i.session ≤ p.maxSession.toInt then 0 else 20)
            + (if (p.minTyping.toNat : Int) ≤ i.typing ∧ i.typing ≤ p.maxTyping.toNat then 0
              else 15)
            + (if mad ≤ p.maxVariance.toNat then 0 else 10) + min 30 share ∧
        ∀ w : BehaviorWitness, .ofWitness p (some w) = i →
          ((meanAndDeviation w.intervals).1.toNat : Int) = mean ∧
          ((meanAndDeviation w.intervals).2.toNat : Int) = mad ∧
          ∃ c, w.checks p = .ok c ∧ c.verified = verdict ∧ (c.risk.toNat : Int) = risk := by
  obtain ⟨i, hnamed, hrange, hsummed, hverdict, hrisk⟩ :=
    (shows_enforcePattern hz).of_gives hhold
  obtain ⟨hmean, hdeviation, hshare⟩ := hsummed
  rw [show timingWeight = 30 from rfl, mul_comm] at hshare
  refine ⟨i, _, _, _, hnamed, hmean, hdeviation, hshare,
    ⟨hrange.session_nonneg, hrange.session_lt⟩, ⟨hrange.typing_nonneg, hrange.typing_lt⟩,
    hrange.intervals, rfl, rfl, rfl, i.verdict p, i.shownRisk p, hverdict.eval_eq_ofBool,
    hrisk.eval_eq_ofInt, i.verdict_eq_true_iff p, i.shownRisk_eq p, ?_⟩
  rintro w rfl
  obtain ⟨c, hc, hverified, hvalue⟩ :=
    PatternInput.checks_eq (w := w) (PatternPolicy.maxVariance_ne_zero_of_fault? hp)
  exact ⟨toNat_mean w.intervals, toNat_deviation w.intervals, c, hc, hverified, hvalue⟩

/-- Ten minutes in front of the screen, with a slight rhythm. -/
def nightHabit : PatternInput :=
  ⟨true, true, 600, 40, #v[100, 120, 100, 120, 100, 120, 100, 120, 100]⟩

theorem enforcePattern_decides_night :
    ∃ a : Assignment,
      nightStatement.publicVector.wires.pattern.Holds a nightPolicy.pattern.vector ∧
      nightPolicy.pattern.fault? = none ∧
      Step.Hold a
        (enforcePattern nightHabit nightStatement.publicVector.wires.pattern
          ContextVector.arity).2 ∧
      ∃ (i : PatternInput) (mean mad share : Int), i.baselineMatches = true ∧
        mean = i.intervals.toList.sum / 9 ∧
        mad = (i.intervals.toList.map fun x => ((x - mean).natAbs : Int)).sum / 9 ∧
        share = 30 * mad / 100 ∧ (60 ≤ i.session ∧ i.session ≤ 3600) ∧
        (10 ≤ i.typing ∧ i.typing ≤ 100) ∧ mad ≤ 100 ∧ min 30 share < 50 := by
  have hrange : nightHabit.InRange := by
    constructor <;> decide
  have hvariance : nightPolicy.pattern.maxVariance ≠ 0 := by decide
  obtain ⟨a, ha, hhold, hcarries, -⟩ :=
    Circuit.exists_hold (z := nightStatement.publicVector.toList)
      (fun a ha => runs_enforcePattern (holds_pattern_wires ha) hrange hvariance) .intro
  rw [ContextVector.length_toList] at hhold hcarries
  have hz := holds_pattern_wires ha
  obtain ⟨i, mean, mad, share, -, -, -, -, -, -, -, hmean, hmad, hshare, verdict, risk, hverdict, -,
    hiff, hrisk, -⟩ := enforcePattern_decides hz rfl nightHabit _ hhold
  have htrue : nightHabit.verdict nightPolicy.pattern = true := by decide
  obtain rfl : verdict = true :=
    (Scalar.ofBool_inj (hverdict.symm.trans hcarries.standsFor.eval_eq_ofBool)).trans htrue
  obtain ⟨-, hmatches, hsession, htyping, htiming, hbelow⟩ := hiff.mp rfl
  rw [if_pos hmatches, if_pos hsession, if_pos htyping, if_pos htiming] at hrisk
  have hthreshold : risk < 50 := hbelow
  exact ⟨a, hz, rfl, hhold, i, mean, mad, share, hmatches, hmean, hmad, hshare, hsession, htyping,
    htiming, by omega⟩

end AccessContext.R1cs
