import AccessContext.Proofs.R1cs.HonestGadgets
import AccessContext.Proofs.R1cs.Wires
import AccessContext.Proofs.Timing
import AccessContext.R1cs.PatternRelation

/-!
# The pattern relation

What the pattern relation says of its integers: mean and deviation of the timing, the ranges of
session and typing, and the weighted risk. A behavior that is absent has the largest risk.
-/

namespace AccessContext.R1cs

open Fin.CommRing
open Circuit

namespace PatternInput

variable (i : PatternInput) (p : PatternPolicy)

def sessionOk : Bool :=
  decide (p.minSession.toInt ≤ i.session) && decide (i.session ≤ p.maxSession.toInt)

def typingOk : Bool :=
  decide ((p.minTyping.toNat : Int) ≤ i.typing) && decide (i.typing ≤ p.maxTyping.toNat)

def timingOk : Bool :=
  decide (timingDeviation i.intervals.toList ≤ p.maxVariance.toNat)

/-- The risk of a behavior that is present. -/
def shownRisk : Int :=
  25 * (!i.baselineMatches).toInt + 20 * (!i.sessionOk p).toInt + 15 * (!i.typingOk p).toInt
    + 10 * (!i.timingOk p).toInt
    + min (timingDeviation i.intervals.toList * timingWeight / p.maxVariance.toNat) timingWeight

/-- The risk, which is the largest if there is no behavior. -/
def risk : Int :=
  if i.present then i.shownRisk p else fullRisk.toNat

/-- The verdict on a behavior, from its integers. -/
def verdict : Bool :=
  i.present && i.baselineMatches && i.sessionOk p && i.typingOk p && i.timingOk p
    && decide (i.shownRisk p < p.riskThreshold.toNat)

/-- The ranges that the constraints leave to the integers: words without a sign. -/
structure InRange : Prop where
  session_nonneg : 0 ≤ i.session
  session_lt : i.session < 2 ^ 64
  typing_nonneg : 0 ≤ i.typing
  typing_lt : i.typing < 2 ^ 32
  intervals : ∀ x ∈ i.intervals.toList, 0 ≤ x ∧ x < 2 ^ 64

/-- Whether the private variables of the pattern relation are known to be the integers. -/
structure IsNamed (known : Path → Scalar → Prop) : Prop where
  present : known ["present", "boolean"] (.ofBool i.present)
  baselineMatches : known ["matches", "boolean"] (.ofBool i.baselineMatches)
  session : known ["session", "num"] (.ofInt i.session)
  typing : known ["typing", "num"] (.ofInt i.typing)
  intervals : ∀ (k : Nat) (x : Int), i.intervals.toList[k]? = some x →
    known ["interval_" ++ toString k, "num"] (.ofInt x)

/-- Whether the variables between the intervals and the risk are known to be mean and deviation of
the timing, and its share of the risk before saturation. -/
structure IsSummed (known : Path → Scalar → Prop) : Prop where
  mean : known ["mean", "quotient", "num"] (.ofInt (meanInterval i.intervals.toList))
  deviation : known ["mad", "quotient", "num"] (.ofInt (timingDeviation i.intervals.toList))
  share : known ["quotient", "num"]
    (.ofInt (timingDeviation i.intervals.toList * timingWeight / p.maxVariance.toNat))

theorem verdict_eq_all :
    i.verdict p = [i.present, i.baselineMatches, i.sessionOk p, i.typingOk p, i.timingOk p,
      decide (i.shownRisk p < p.riskThreshold.toNat)].all id := by
  simp [verdict, Bool.and_assoc]

theorem absent_inRange : absent.InRange := by
  constructor <;> decide

end PatternInput

/-! ### Native checks -/

namespace PatternInput

variable {p : PatternPolicy} {w : BehaviorWitness}

theorem ofWitness_inRange (h : w.fault? = none) : (ofWitness p (some w)).InRange := by
  have hsession := w.session.toInt_lt
  have htyping := w.typing.toNat_lt
  unfold BehaviorWitness.fault? at h
  split_ifs at h with hnegative
  rw [Int64.lt_iff_toInt_lt, show (0 : Int64).toInt = 0 from rfl] at hnegative
  refine ⟨?_, ?_, Int.natCast_nonneg _, ?_, ?_⟩
  · show 0 ≤ w.session.toInt
    omega
  · show w.session.toInt < _
    omega
  · show (w.typing.toNat : Int) < _
    omega
  · exact areWords_intervalNumbers w.intervals

/-- The native verdict and risk are those of the integers. -/
theorem checks_eq (hp : p.maxVariance ≠ 0) :
    ∃ c, w.checks p = .ok c ∧ c.verified = (ofWitness p (some w)).verdict p ∧
      (c.risk.toNat : Int) = (ofWitness p (some w)).risk p := by
  obtain ⟨c, hc, houtcome⟩ := BehaviorWitness.exists_checks (w := w) hp
  have hbaseline : c.patternOk = (ofWitness p (some w)).baselineMatches := houtcome.patternOk
  have hsession : c.sessionOk = (ofWitness p (some w)).sessionOk p := by
    rw [houtcome.sessionOk]
    exact congrArg₂ and (decide_eq_decide.mpr Int64.le_iff_toInt_le)
      (decide_eq_decide.mpr Int64.le_iff_toInt_le)
  have htyping : c.typingOk = (ofWitness p (some w)).typingOk p := by
    rw [houtcome.typingOk]
    exact congrArg₂ and (decide_eq_decide.mpr (UInt32.le_iff_toNat_le.trans Nat.cast_le.symm))
      (decide_eq_decide.mpr (UInt32.le_iff_toNat_le.trans Nat.cast_le.symm))
  have hdeviation : (w.deviation.toNat : Int) =
      timingDeviation (ofWitness p (some w)).intervals.toList := toNat_deviation w.intervals
  have htiming : c.timingOk = (ofWitness p (some w)).timingOk p := by
    rw [houtcome.timingOk, timingOk, ← hdeviation, decide_eq_decide, UInt64.le_iff_toNat_le,
      Nat.cast_le]
  have hshown : (c.risk.toNat : Int) = (ofWitness p (some w)).shownRisk p := by
    rw [houtcome.risk, shownRisk, ← hbaseline, ← hsession, ← htyping, ← htiming, ← hdeviation]
    push_cast [cast_penalty, cast_timingShare]
    rfl
  have hbelow : decide (c.risk < p.riskThreshold) =
      decide ((ofWitness p (some w)).shownRisk p < p.riskThreshold.toNat) := by
    rw [decide_eq_decide, UInt8.lt_iff_toNat_lt, ← hshown, Nat.cast_lt]
  refine ⟨c, hc, ?_, hshown⟩
  rw [houtcome.verified, hbaseline, hsession, htyping, htiming, hbelow]
  rfl

/-- The largest risk, unless there is a behavior. -/
theorem risk_eq_gated (i : PatternInput) (p : PatternPolicy) :
    (fullRisk.toNat : Int) + i.present.toInt * (i.shownRisk p - fullRisk.toNat) = i.risk p := by
  unfold risk
  cases i.present
  · simp [Bool.toInt]
  · simp [Bool.toInt]

theorem shownRisk_bounds (i : PatternInput) (p : PatternPolicy) (hi : i.InRange) :
    0 ≤ i.shownRisk p ∧ i.shownRisk p ≤ 100 := by
  have hdeviation := AreWords.deviation_bounds hi.intervals i.intervals.length_toList
  have hshare : 0 ≤ timingDeviation i.intervals.toList * timingWeight / p.maxVariance.toNat :=
    Int.ediv_nonneg (mul_nonneg hdeviation.1 (by decide)) (Int.natCast_nonneg _)
  have hbaseline := toInt_bounds (!i.baselineMatches)
  have hsession := toInt_bounds (!i.sessionOk p)
  have htyping := toInt_bounds (!i.typingOk p)
  have htiming := toInt_bounds (!i.timingOk p)
  unfold shownRisk timingWeight at *
  omega

theorem risk_bounds (i : PatternInput) (p : PatternPolicy) (hi : i.InRange) :
    0 ≤ i.risk p ∧ i.risk p ≤ 100 := by
  unfold risk
  split
  · exact i.shownRisk_bounds p hi
  · exact ⟨by decide, by decide⟩

end PatternInput

/-! ### The circuit -/

open PatternInput

variable {a : Assignment} {known : Path → Scalar → Prop} {xs : List Int}

/-- Whether terms stand for integers, one each. -/
def StandForAll (a : Assignment) (ts : List Term) (xs : List Int) : Prop :=
  List.Forall₂ (fun t x => t.StandsFor a x) ts xs

/-- The magnitude of a difference, from the bit that it is not negative. -/
theorem magnitude_eq (x m : Int) :
    (decide (m ≤ x)).toInt * (x - m) * 2 - (x - m) = ((x - m).natAbs : Int) := by
  by_cases h : m ≤ x
  · rw [decide_eq_true h, Bool.toInt_true]
    omega
  · rw [decide_eq_false h, Bool.toInt_false]
    omega

theorem forces_enforceRange {name : String} {t low high : Term} {x l h : Int}
    (ht : t.StandsFor a x) (hlow : low.StandsFor a l) (hhigh : high.StandsFor a h)
    (hx : -2 ^ 63 ≤ x ∧ x < 2 ^ 64) (hl : -2 ^ 63 ≤ l ∧ l < 2 ^ 64)
    (hh : -2 ^ 63 ≤ h ∧ h < 2 ^ 64) :
    Forces a (enforceRange name t low high) fun r =>
      r.StandsFor a (decide (l ≤ x) && decide (x ≤ h)).toInt := by
  unfold enforceRange wideWidth
  refine Forces.bind (.scope (forces_leq hlow ht (by omega) (by omega) (by decide))) ?_
  intro above habove
  refine Forces.bind (.scope (forces_leq ht hhigh (by omega) (by omega) (by decide))) ?_
  intro below hbelow
  refine .scope ((forces_conjunction (.cons habove <| .cons hbelow .nil)).mono fun r hr => ?_)
  simpa only [List.all_cons, List.all_nil, id, Bool.and_true] using hr

theorem shows_allocIntervals (k : Nat) (values : List Int) :
    Shows a known (allocIntervals k values) fun ts =>
      ∃ xs, xs.length = values.length ∧ AreWords xs ∧
        (∀ (j : Nat) (x : Int), xs[j]? = some x →
          known ["interval_" ++ toString (k + j), "num"] (.ofInt x)) ∧ StandForAll a ts xs := by
  induction values generalizing k with
  | nil => exact Shows.pure ⟨[], rfl, List.forall_mem_nil _, by simp, .nil⟩
  | cons value values ih =>
    refine Shows.bind (.scope shows_freshInteger) ?_
    intro t hknown
    refine Shows.next (.scope forces_enforceWidth) ?_
    rintro _ ⟨x, hx, hx₁, ht⟩
    refine Shows.bind (ih (k + 1)) ?_
    rintro ts ⟨xs, hlength, hwords, hnames, hts⟩
    refine Shows.pure ⟨x :: xs, congrArg (· + 1) hlength,
      List.forall_mem_cons.mpr ⟨⟨hx, hx₁⟩, hwords⟩, ?_, .cons ht hts⟩
    intro j y hy
    cases j with
    | zero =>
      obtain rfl : x = y := by simpa using hy
      exact ht.known hknown
    | succ j =>
      have := hnames j y hy
      rwa [Nat.add_assoc, Nat.add_comm 1 j] at this

theorem standsFor_foldl {ts : List Term} {acc : Term} {s : Int} (hacc : acc.StandsFor a s)
    (hts : StandForAll a ts xs) : (ts.foldl (· + ·) acc).StandsFor a (s + xs.sum) := by
  induction hts generalizing acc s with
  | nil => simpa using hacc
  | @cons t x ts xs ht _ ih =>
    have := ih (hacc.add ht)
    rwa [List.sum_cons, ← add_assoc]

theorem forces_addDistances {mean acc : Term} {m s : Int} {k : Nat} {ts : List Term}
    (hmean : mean.StandsFor a m) (hm : 0 ≤ m ∧ m < 2 ^ 64) (hacc : acc.StandsFor a s)
    (hts : StandForAll a ts xs) (hwords : AreWords xs) :
    Forces a (addDistances mean k acc ts) fun t =>
      t.StandsFor a (s + (distances m xs).sum) := by
  induction hts generalizing k acc s with
  | nil => exact Forces.pure (by simpa using hacc)
  | @cons t x ts xs ht _ ih =>
    obtain ⟨hx, hrest⟩ := List.forall_mem_cons.mp hwords
    unfold addDistances wideWidth
    dsimp only
    refine Forces.bind (.scope (forces_leq hmean ht (by omega) (by omega) (by decide))) ?_
    intro above habove
    have hdelta := ht.sub hmean
    refine Forces.bind (.scope (forces_mul habove hdelta)) ?_
    intro gated hgated
    have hdistance := (hgated.scale (k := 2)).sub hdelta
    rw [magnitude_eq] at hdistance
    refine (ih (hacc.add hdistance) hrest).mono fun r hr => ?_
    rwa [distances_cons, List.sum_cons, ← add_assoc]

theorem shows_meanDeviation {ts : List Term} (hlength : xs.length = 9)
    (hts : StandForAll a ts xs) (hwords : AreWords xs) :
    Shows a known (meanDeviation ts) fun t =>
      known ["mean", "quotient", "num"] (.ofInt (meanInterval xs)) ∧
        known ["mad", "quotient", "num"] (.ofInt (timingDeviation xs)) ∧
        t.StandsFor a (timingDeviation xs) := by
  have hmeanBounds := hwords.mean_bounds hlength
  have hsumBounds := hwords.sum_nine_bounds hlength
  have hdistances := (hwords.distances_words hmeanBounds).sum_nine_bounds
    (length_distances.trans hlength)
  unfold meanDeviation
  dsimp only
  have hsum := standsFor_foldl (.constant 0) hts
  rw [zero_add] at hsum
  refine Shows.bind (.scope (shows_divideDown hsum hsumBounds.1 (by omega) (by decide)
    (by decide))) ?_
  rintro mean ⟨hmeanKnown, hmean⟩
  refine Shows.next (forces_addDistances hmean hmeanBounds (.constant 0) hts hwords) ?_
  intro total htotal
  rw [zero_add] at htotal
  refine .scope ((shows_divideDown htotal hdistances.1 (hdistances.2.trans_lt (by decide))
    (by decide) (by decide)).mono ?_)
  rintro t ⟨hdeviationKnown, ht⟩
  exact ⟨hmeanKnown, hdeviationKnown, ht⟩

/-- The weight, or the quotient if that is less. -/
theorem saturate_eq_min (q : Int) :
    q + (decide (timingWeight ≤ q)).toInt * (timingWeight - q) = min q timingWeight := by
  by_cases h : timingWeight ≤ q
  · simp [h, Bool.toInt]
  · simp [h, Bool.toInt]
    omega

theorem shows_timingRisk {deviation maxVariance : Term} {d v : Int}
    (hdeviation : deviation.StandsFor a d) (hvariance : maxVariance.StandsFor a v)
    (hd : 0 ≤ d ∧ d < 2 ^ 64) (hv : -2 ^ 63 ≤ v ∧ v < 2 ^ 64) :
    Shows a known (timingRisk deviation maxVariance) fun t =>
      known ["quotient", "num"] (.ofInt (d * timingWeight / v)) ∧
        t.StandsFor a (min (d * timingWeight / v) timingWeight) := by
  unfold timingRisk
  dsimp only
  have hweighted : (deviation.scale timingWeight).StandsFor a (d * timingWeight) :=
    hdeviation.scale
  refine Shows.bind (.scope shows_freshInteger) ?_
  intro quotient hknown
  refine Shows.next .trivial ?_
  intro rem _
  refine Shows.next (.scope forces_enforceWidth) ?_
  rintro _ ⟨q, hq, hq₁, hquotient⟩
  refine Shows.next (.scope forces_enforceWidth) ?_
  rintro _ ⟨r, hr, hr₁, hrem⟩
  refine Shows.next (.scope forces_enforceWidth) ?_
  rintro _ ⟨k, hk, hk₁, hbelow⟩
  have hbelow := (hvariance.sub hrem).addConstant.unique hbelow (by omega) (by omega)
  refine Shows.next (.scope (forces_mul hvariance hquotient)) ?_
  intro product hproduct
  refine Shows.next .equate ?_
  intro _ hdivision
  have hpos : 0 < v := by omega
  have hbound : v * q ≤ 2 ^ 64 * 2 ^ 70 := mul_le_mul hv.2.le hq₁.le hq (by decide)
  have hnonneg : 0 ≤ v * q := mul_nonneg hpos.le hq
  have hsum : v * q + r = d * timingWeight :=
    (hproduct.add hrem).unique (hdivision.trans hweighted) (by unfold timingWeight; omega)
      (by unfold timingWeight; omega)
  have hdiv : d * timingWeight / v = q :=
    ((Int.ediv_emod_unique hpos).mpr ⟨by rw [← hsum]; ring, hr, by omega⟩).1
  have hweight := Term.StandsFor.constant (a := a) timingWeight
  refine Shows.next (.scope (forces_leq hweight hquotient (by unfold timingWeight; omega)
    (by unfold timingWeight; omega) (by decide))) ?_
  intro saturated hsaturated
  refine Shows.next (.scope (forces_mul hsaturated (hweight.sub hquotient)))
    fun clamp hclamp => Shows.pure ?_
  have h := hquotient.add hclamp
  rw [saturate_eq_min] at h
  rw [hdiv]
  exact ⟨hquotient.known hknown, h⟩

/-- The weights of the checks that fail, as what the checks that pass leave of their sum. -/
theorem risk_eq (baseline session typing timing : Bool) (continuous : Int) :
    25 + 20 + 15 + 10 - baseline.toInt * 25 - session.toInt * 20 - typing.toInt * 15
        - timing.toInt * 10 + continuous =
      25 * (!baseline).toInt + 20 * (!session).toInt + 15 * (!typing).toInt
        + 10 * (!timing).toInt + continuous := by
  cases baseline <;> cases session <;> cases typing <;> cases timing <;> simp [Bool.toInt]

theorem standsFor_risk {baseline session typing timing continuous : Term} {m s t v : Bool}
    {c : Int} (hbaseline : baseline.StandsFor a m.toInt) (hsession : session.StandsFor a s.toInt)
    (htyping : typing.StandsFor a t.toInt) (htiming : timing.StandsFor a v.toInt)
    (hcontinuous : continuous.StandsFor a c) :
    (Term.constant (25 + 20 + 15 + 10) - baseline.scale 25 - session.scale 20 - typing.scale 15
        - timing.scale 10 + continuous).StandsFor a
      (25 * (!m).toInt + 20 * (!s).toInt + 15 * (!t).toInt + 10 * (!v).toInt + c) := by
  rw [← risk_eq]
  exact (((((Term.StandsFor.constant _).sub hbaseline.scale).sub hsession.scale).sub
    htyping.scale).sub htiming.scale).add hcontinuous

/-- Whatever the prover did, the variables are some integers in range with their mean, deviation and
share, and the results are the verdict and the risk of these. -/
theorem shows_enforcePattern {input : PatternInput} {z : PatternVector (Wire Scalar)}
    {p : PatternPolicy} (hz : z.Holds a p.vector) :
    Shows a known (enforcePattern input z) fun r =>
      ∃ i : PatternInput, i.IsNamed known ∧ i.InRange ∧ i.IsSummed p known ∧
        r.1.StandsFor a (i.verdict p).toInt ∧ r.2.StandsFor a (i.risk p) := by
  obtain ⟨hminSession, hmaxSession, hminTyping, hmaxTyping, hvariance, hthreshold⟩ := hz
  dsimp only [PatternPolicy.vector] at hvariance hthreshold
  have hvariance₁ := hvariance.bounds
  have hthreshold₁ := hthreshold.bounds
  unfold enforcePattern
  dsimp only
  refine Shows.bind (.scope shows_freshBit) ?_
  rintro present ⟨b, hbKnown, hpresent⟩
  refine Shows.bind (.scope shows_freshBit) ?_
  rintro baselineOk ⟨m, hmKnown, hbaselineOk⟩
  refine Shows.bind (.scope shows_freshInteger) ?_
  intro session hsessionKnown
  refine Shows.bind (.scope shows_freshInteger) ?_
  intro typing htypingKnown
  refine Shows.next (.scope forces_enforceWidth) ?_
  rintro _ ⟨s, hs, hs₁, hsession⟩
  refine Shows.next (.scope forces_enforceWidth) ?_
  rintro _ ⟨t, ht, ht₁, htyping⟩
  refine Shows.next (forces_enforceRange hsession hminSession.standsFor hmaxSession.standsFor
    ⟨by omega, hs₁⟩ hminSession.bounds hmaxSession.bounds) ?_
  intro sessionOk hsessionOk
  refine Shows.next (forces_enforceRange htyping hminTyping.standsFor hmaxTyping.standsFor
    ⟨by omega, by omega⟩ hminTyping.bounds hmaxTyping.bounds) ?_
  intro typingOk htypingOk
  refine Shows.bind (shows_allocIntervals 0 _) ?_
  rintro ts ⟨xs, hlength, hwords, hnames, hts⟩
  rw [Vector.length_toList] at hlength
  simp only [Nat.zero_add] at hnames
  -- The prover's integers, of which everything that follows is computed.
  obtain ⟨i, hi⟩ : ∃ i : PatternInput, i = ⟨b, m, s, t, ⟨xs.toArray, hlength⟩⟩ := ⟨_, rfl⟩
  have hrange : i.InRange := by
    rw [hi]
    exact ⟨hs, hs₁, ht, ht₁, hwords⟩
  have hnamed : i.IsNamed known := by
    rw [hi]
    exact ⟨hbKnown, hmKnown, hsession.known hsessionKnown, htyping.known htypingKnown, hnames⟩
  have hdeviationBounds := AreWords.deviation_bounds hwords hlength
  refine Shows.bind (shows_meanDeviation hlength hts hwords) ?_
  rintro deviation ⟨hmeanKnown, hdeviationKnown, hdeviation⟩
  refine Shows.next (.scope (forces_leq hdeviation hvariance.standsFor (by omega) (by omega)
    (by decide))) ?_
  intro timingOk htimingOk
  refine Shows.bind (shows_timingRisk hdeviation hvariance.standsFor hdeviationBounds
    hvariance.bounds) ?_
  rintro continuous ⟨hshareKnown, hcontinuous⟩
  have hbelowBounds := i.shownRisk_bounds p hrange
  have hshown := (standsFor_risk hbaselineOk hsessionOk htypingOk htimingOk hcontinuous).of_eq
    (show _ = i.shownRisk p by rw [hi]; rfl)
  refine Shows.next (.scope (forces_lt hshown hthreshold.standsFor (by omega) (by omega)
    (by decide))) ?_
  intro below hbelow
  refine Shows.next (.scope (forces_conjunction (.cons hpresent <| .cons hbaselineOk <|
    .cons hsessionOk <| .cons htypingOk <| .cons htimingOk <| .cons hbelow .nil))) ?_
  intro verdict hverdict
  have hlargest := Term.StandsFor.constant (a := a) fullRisk.toNat
  refine Shows.next (.scope (forces_mul hpresent (hshown.sub hlargest))) ?_
  intro gated hgated
  refine Shows.pure ⟨i, hnamed, hrange, ?_, ?_, ?_⟩
  · rw [hi]
    exact ⟨hmeanKnown, hdeviationKnown, hshareKnown⟩
  · rw [verdict_eq_all, hi]
    rw [hi] at hverdict
    exact hverdict
  · rw [← risk_eq_gated]
    refine hlargest.add ?_
    rw [hi] at hgated ⊢
    exact hgated

theorem forces_enforcePattern {input : PatternInput} {z : PatternVector (Wire Scalar)}
    {p : PatternPolicy} (hz : z.Holds a p.vector) :
    Forces a (enforcePattern input z) fun r =>
      ∃ i : PatternInput, i.InRange ∧ r.1.StandsFor a (i.verdict p).toInt ∧
        r.2.StandsFor a (i.risk p) :=
  (shows_enforcePattern hz).forces.mono fun _ ⟨i, _, hrange, _, hr⟩ => ⟨i, hrange, hr⟩

/-! ### The honest run -/

theorem runs_enforceRange {name : String} {t low high : Term} {x l h : Int}
    (ht : t.Carries a x) (hlow : low.Carries a l) (hhigh : high.Carries a h)
    (hx : -2 ^ 63 ≤ x ∧ x < 2 ^ 64) (hl : -2 ^ 63 ≤ l ∧ l < 2 ^ 64)
    (hh : -2 ^ 63 ≤ h ∧ h < 2 ^ 64) :
    Runs a (enforceRange name t low high) True fun r =>
      r.Carries a (decide (l ≤ x) && decide (x ≤ h)).toInt := by
  unfold enforceRange wideWidth
  refine Runs.bind (.scope (runs_leq hlow ht (by omega) (by omega) ⟨by omega, by omega⟩)) ?_
  intro above habove
  refine Runs.bind (.scope (runs_leq ht hhigh (by omega) (by omega) ⟨by omega, by omega⟩)) ?_
  intro below hbelow
  refine .scope ((runs_conjunction (.cons habove <| .cons hbelow .nil)).mono fun r hr => ?_)
  simpa only [List.all_cons, List.all_nil, id, Bool.and_true] using hr

theorem runs_allocIntervals {xs : List Int} (k : Nat) (hwords : AreWords xs) :
    Runs a (allocIntervals k xs) True fun ts => CarryAll a ts xs := by
  induction xs generalizing k with
  | nil => exact Runs.pure .nil
  | cons x xs ih =>
    obtain ⟨hx, hrest⟩ := List.forall_mem_cons.mp hwords
    refine Runs.bind (.scope (runs_freshInteger rfl)) ?_
    intro t ht
    refine Runs.next (.scope (runs_enforceWidth ht hx.1 hx.2 (by omega))) ?_
    exact Runs.bind (ih (k + 1) hrest) fun ts hts => Runs.pure (.cons ht hts)

/-- Partial sums of nine words fit. -/
theorem carries_foldl {ts : List Term} {acc : Term} {s : Int} (hacc : acc.Carries a s)
    (hts : CarryAll a ts xs) (hwords : AreWords xs) (hs : 0 ≤ s)
    (hbound : s + xs.length * 2 ^ 64 ≤ 2 ^ 68) :
    (ts.foldl (· + ·) acc).Carries a (s + xs.sum) := by
  induction hts generalizing acc s with
  | nil => simpa using hacc
  | @cons t x ts xs ht _ ih =>
    obtain ⟨hx, hrest⟩ := List.forall_mem_cons.mp hwords
    rw [List.length_cons, Nat.cast_add, Nat.cast_one, add_mul, one_mul] at hbound
    have := ih (hacc.add ht ⟨by omega, by omega⟩) hrest (by omega) (by omega)
    rwa [List.sum_cons, ← add_assoc]

theorem runs_addDistances {mean acc : Term} {m s : Int} {k : Nat} {ts : List Term}
    (hmean : mean.Carries a m) (hm : 0 ≤ m ∧ m < 2 ^ 64) (hacc : acc.Carries a s)
    (hts : CarryAll a ts xs) (hwords : AreWords xs) (hs : 0 ≤ s)
    (hbound : s + xs.length * 2 ^ 64 ≤ 2 ^ 68) :
    Runs a (addDistances mean k acc ts) True fun t =>
      t.Carries a (s + (distances m xs).sum) := by
  induction hts generalizing k acc s with
  | nil => exact Runs.pure (by simpa using hacc)
  | @cons t x ts xs ht _ ih =>
    obtain ⟨hx, hrest⟩ := List.forall_mem_cons.mp hwords
    rw [List.length_cons, Nat.cast_add, Nat.cast_one, add_mul, one_mul] at hbound
    have hmagnitude := magnitude_eq x m
    unfold addDistances wideWidth
    dsimp only
    refine Runs.bind (.scope (runs_leq hmean ht (by omega) (by omega) ⟨by omega, by omega⟩)) ?_
    intro above habove
    have hdelta := ht.sub hmean ⟨by omega, by omega⟩
    refine Runs.bind (.scope (runs_mul habove hdelta ⟨by omega, by omega⟩)) ?_
    intro gated hgated
    have hdistance := ((hgated.scale (k := 2) ⟨by omega, by omega⟩).sub hdelta
      ⟨by omega, by omega⟩).of_eq hmagnitude
    refine (ih (hacc.add hdistance ⟨by omega, by omega⟩) hrest (by omega) (by omega)).mono
      fun r hr => ?_
    rwa [distances_cons, List.sum_cons, ← add_assoc]

theorem runs_meanDeviation {ts : List Term} (hlength : xs.length = 9)
    (hts : CarryAll a ts xs) (hwords : AreWords xs) :
    Runs a (meanDeviation ts) True fun t => t.Carries a (timingDeviation xs) := by
  have hmeanBounds := hwords.mean_bounds hlength
  have hsumBounds := hwords.sum_nine_bounds hlength
  have hdistances := (hwords.distances_words hmeanBounds).sum_nine_bounds
    (length_distances.trans hlength)
  have hbound : (0 : Int) + xs.length * 2 ^ 64 ≤ 2 ^ 68 := by
    rw [hlength]
    decide
  unfold meanDeviation
  dsimp only
  have hsum := carries_foldl (.constant 0) hts hwords le_rfl hbound
  rw [zero_add] at hsum
  refine Runs.bind (.scope (runs_divideDown hsum hsumBounds.1 (by unfold intervalCount; omega)
    (by decide) (by decide))) ?_
  intro mean hmean
  refine Runs.bind (runs_addDistances hmean hmeanBounds (.constant 0) hts hwords le_rfl hbound) ?_
  intro total htotal
  rw [zero_add] at htotal
  exact .scope (runs_divideDown htotal hdistances.1 (hdistances.2.trans_lt (by decide))
    (by decide) (by decide))

theorem runs_timingRisk {deviation maxVariance : Term} {d v : Int}
    (hdeviation : deviation.Carries a d) (hvariance : maxVariance.Carries a v)
    (hd : 0 ≤ d ∧ d < 2 ^ 64) (hv : 0 < v ∧ v < 2 ^ 64) :
    Runs a (timingRisk deviation maxVariance) True fun t =>
      t.Carries a (min (d * timingWeight / v) timingWeight) := by
  unfold timingRisk
  dsimp only
  have hnonneg : 0 ≤ d * timingWeight := mul_nonneg hd.1 (by decide)
  have hweighted : (deviation.scale timingWeight).Carries a (d * timingWeight) :=
    hdeviation.scale ⟨by unfold timingWeight; omega, by unfold timingWeight; omega⟩
  obtain ⟨n, hn⟩ : ∃ n, n = d * timingWeight := ⟨_, rfl⟩
  have hnhigh : n < 2 ^ 64 * 30 := by
    rw [hn]
    unfold timingWeight
    omega
  rw [← hn] at hweighted hnonneg ⊢
  have hq : 0 ≤ n / v := Int.ediv_nonneg hnonneg hv.1.le
  have hqhigh : n / v ≤ n := Int.ediv_le_self v hnonneg
  have hr : 0 ≤ n % v := Int.emod_nonneg n hv.1.ne'
  have hrhigh : n % v < v := Int.emod_lt_of_pos n hv.1
  have hsplit : v * (n / v) + n % v = n := Int.mul_ediv_add_emod n v
  have hdivided (f : Int → Int → Int) {x : Int} (hx : f n v = x) (hfits : Fits x) :
      combine (fun n d => if d = 0 then none else signed128? (f n d))
        (deviation.scale timingWeight).value maxVariance.value = some x := by
    rw [hweighted.1, hvariance.1]
    show (if v = 0 then none else signed128? (f n v)) = some x
    rw [if_neg hv.1.ne', hx, signed128?_of_fits hfits]
  refine Runs.bind (.scope (runs_freshInteger (hdivided Int.tdiv
    (Int.tdiv_eq_ediv_of_nonneg hnonneg) ⟨by omega, by omega⟩))) ?_
  intro quotient hquotient
  refine Runs.bind (.scope (runs_freshInteger (hdivided Int.tmod
    (Int.tmod_eq_emod_of_nonneg hnonneg) ⟨by omega, by omega⟩))) ?_
  intro rem hrem
  refine Runs.next (.scope (runs_enforceWidth hquotient hq (by omega) (by omega))) ?_
  refine Runs.next (.scope (runs_enforceWidth hrem hr (by omega) (by omega))) ?_
  have hbelow := (hvariance.sub hrem ⟨by omega, by omega⟩).addConstant (k := -1)
    ⟨by omega, by omega⟩
  refine Runs.next (.scope (runs_enforceWidth hbelow (by omega) (by omega) (by omega))) ?_
  refine Runs.bind (.scope (runs_mul hvariance hquotient ⟨by omega, by omega⟩)) ?_
  intro product hproduct
  have hsum := (hproduct.2.add hrem.2).of_eq hsplit
  refine Runs.next (Runs.equate.weaken (iff_true_intro (hsum.trans hweighted.2.symm))) ?_
  have hweight := Term.Carries.constant (a := a) timingWeight
  have hsaturate := saturate_eq_min (n / v)
  have hclampBounds : min (n / v) timingWeight - n / v ≤ 0 ∧ 0 ≤ min (n / v) timingWeight := by
    unfold timingWeight
    omega
  refine Runs.bind (.scope (runs_leq hweight hquotient (by unfold timingWeight; omega)
    (by unfold timingWeight; omega)
    ⟨by unfold timingWeight; omega, by unfold timingWeight; omega⟩)) ?_
  intro saturated hsaturated
  refine Runs.bind (.scope (runs_mul hsaturated (hweight.sub hquotient
    ⟨by unfold timingWeight; omega, by unfold timingWeight; omega⟩) ⟨by omega, by omega⟩))
    fun clamp hclamp => Runs.pure ?_
  exact (hquotient.add hclamp ⟨by omega, by omega⟩).of_eq hsaturate

theorem carries_risk {baseline session typing timing continuous : Term} {m s t v : Bool}
    {c : Int} (hbaseline : baseline.Carries a m.toInt) (hsession : session.Carries a s.toInt)
    (htyping : typing.Carries a t.toInt) (htiming : timing.Carries a v.toInt)
    (hcontinuous : continuous.Carries a c) (hc : 0 ≤ c ∧ c ≤ 30) :
    (Term.constant (25 + 20 + 15 + 10) - baseline.scale 25 - session.scale 20 - typing.scale 15
        - timing.scale 10 + continuous).Carries a
      (25 * (!m).toInt + 20 * (!s).toInt + 15 * (!t).toInt + 10 * (!v).toInt + c) := by
  have hm := toInt_bounds m
  have hs := toInt_bounds s
  have ht := toInt_bounds t
  have hv := toInt_bounds v
  rw [← risk_eq]
  refine Term.Carries.add (Term.Carries.sub (Term.Carries.sub (Term.Carries.sub
    (Term.Carries.sub (.constant _) (hbaseline.scale ?_) ?_) (hsession.scale ?_) ?_)
    (htyping.scale ?_) ?_) (htiming.scale ?_) ?_) hcontinuous ?_
  all_goals exact ⟨by omega, by omega⟩

/-- The honest run on integers in range is satisfied, and gives their verdict and risk. -/
theorem runs_enforcePattern {i : PatternInput} {z : PatternVector (Wire Scalar)}
    {p : PatternPolicy} (hz : z.Holds a p.vector) (hi : i.InRange) (hp : p.maxVariance ≠ 0) :
    Runs a (enforcePattern i z) True fun r =>
      r.1.Carries a (i.verdict p).toInt ∧ r.2.Carries a (i.risk p) := by
  obtain ⟨hminSession, hmaxSession, hminTyping, hmaxTyping, hvariance, hthreshold⟩ := hz
  dsimp only [PatternPolicy.vector] at hvariance hthreshold
  have hvariance₁ := hvariance.bounds
  have hvariance₂ : 0 < (p.maxVariance.toNat : Int) :=
    Int.natCast_pos.mpr (toNat_pos_of_ne_zero hp)
  have hthreshold₁ : (p.riskThreshold.toNat : Int) < 2 ^ 8 := by
    exact_mod_cast p.riskThreshold.toNat_lt
  have hshownBounds := i.shownRisk_bounds p hi
  have hdeviationBounds := AreWords.deviation_bounds hi.intervals i.intervals.length_toList
  have hshare : 0 ≤ timingDeviation i.intervals.toList * timingWeight / p.maxVariance.toNat :=
    Int.ediv_nonneg (mul_nonneg hdeviationBounds.1 (by decide)) (Int.natCast_nonneg _)
  obtain ⟨hs, hs₁, ht, ht₁, hwords⟩ := hi
  unfold enforcePattern smallWidth wideWidth
  dsimp only
  refine Runs.bind (.scope (runs_freshBit rfl)) ?_
  intro present hpresent
  refine Runs.bind (.scope (runs_freshBit rfl)) ?_
  intro baselineOk hbaselineOk
  refine Runs.bind (.scope (runs_freshInteger rfl)) ?_
  intro session hsession
  refine Runs.bind (.scope (runs_freshInteger rfl)) ?_
  intro typing htyping
  refine Runs.next (.scope (runs_enforceWidth hsession hs hs₁ (by omega))) ?_
  refine Runs.next (.scope (runs_enforceWidth htyping ht ht₁ (by omega))) ?_
  refine Runs.bind (runs_enforceRange hsession hminSession.carries hmaxSession.carries
    ⟨by omega, hs₁⟩ hminSession.bounds hmaxSession.bounds) ?_
  intro sessionOk hsessionOk
  refine Runs.bind (runs_enforceRange htyping hminTyping.carries hmaxTyping.carries
    ⟨by omega, by omega⟩ hminTyping.bounds hmaxTyping.bounds) ?_
  intro typingOk htypingOk
  refine Runs.bind (runs_allocIntervals 0 hwords) ?_
  intro ts hts
  refine Runs.bind (runs_meanDeviation i.intervals.length_toList hts hwords) ?_
  intro deviation hdeviation
  refine Runs.bind (.scope (runs_leq hdeviation hvariance.carries (by omega) (by omega)
    ⟨by omega, by omega⟩)) ?_
  intro timingOk htimingOk
  refine Runs.bind (runs_timingRisk hdeviation hvariance.carries hdeviationBounds
    ⟨hvariance₂, hvariance₁.2⟩) ?_
  intro continuous hcontinuous
  have hshown := (carries_risk hbaselineOk hsessionOk htypingOk htimingOk hcontinuous
    ⟨le_min hshare (by decide), min_le_right _ _⟩).of_eq (show _ = i.shownRisk p from rfl)
  refine Runs.bind (.scope (runs_lt hshown hthreshold.carries (by omega) (by omega)
    ⟨by omega, by omega⟩ ⟨by omega, by omega⟩)) ?_
  intro below hbelow
  refine Runs.bind (.scope (runs_conjunction (.cons hpresent <| .cons hbaselineOk <|
    .cons hsessionOk <| .cons htypingOk <| .cons htimingOk <| .cons hbelow .nil))) ?_
  intro verdict hverdict
  have hlargest := Term.Carries.constant (a := a) fullRisk.toNat
  have hfull : (fullRisk.toNat : Int) = 100 := rfl
  have hgatedBounds : -100 ≤ i.present.toInt * (i.shownRisk p - fullRisk.toNat) ∧
      i.present.toInt * (i.shownRisk p - fullRisk.toNat) ≤ 0 := by
    rw [hfull]
    cases i.present
    · simp [Bool.toInt]
    · simp [Bool.toInt]
      omega
  refine Runs.bind (.scope (runs_mul hpresent (hshown.sub hlargest ⟨by omega, by omega⟩)
    ⟨by omega, by omega⟩)) ?_
  intro gated hgated
  refine Runs.pure ⟨?_, ?_⟩
  · rw [verdict_eq_all]
    exact hverdict
  · exact (hlargest.add hgated ⟨by omega, by omega⟩).of_eq (risk_eq_gated i p)

end AccessContext.R1cs
