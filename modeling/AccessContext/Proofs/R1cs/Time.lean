import AccessContext.Proofs.Calendar
import AccessContext.Proofs.R1cs.HonestGadgets
import AccessContext.Proofs.R1cs.Wires
import AccessContext.R1cs.TimeRelation

/-!
# The time relation

What the time relation says of its integers: the policy's window, the distance from the access
before, the local hour and the code. The verdict that the native checks give on a time of access
is the verdict on its integers; the constraints force some integers within their ranges with this
verdict; and the honest run on such integers satisfies all constraints.
-/

namespace AccessContext.R1cs

open Fin.CommRing
open Circuit

/-- The hour of the day where clocks differ by `offset` seconds. -/
def localHour (now offset : Int) : Int :=
  (now + offset) % secondsPerDay / secondsPerHour

/-- Whether an hour lies between opening and closing, or not between closing and opening. -/
def isOpen (hour opens closes : Int) : Bool :=
  if opens ≤ closes then decide (opens ≤ hour) && decide (hour < closes)
  else decide (opens ≤ hour) || decide (hour < closes)

namespace TimeInput

/-- The verdict on a time of access, from its integers. -/
def verdict (i : TimeInput) (p : TimePolicy) : Bool :=
  i.present && decide (p.earliest.toInt ≤ i.now) && decide (i.now ≤ p.latest.toInt)
    && decide (p.minInterval.toInt ≤ i.now - i.previous)
    && (!p.requireHours || isOpen (localHour i.now i.offset) p.opens.toNat p.closes.toNat)
    && (!p.requireCode || decide (i.code = p.expectedCode.toNat))

theorem verdict_eq_all (i : TimeInput) (p : TimePolicy) :
    i.verdict p = [i.present, decide (p.earliest.toInt ≤ i.now), decide (i.now ≤ p.latest.toInt),
      decide (p.minInterval.toInt ≤ i.now - i.previous),
      !p.requireHours || isOpen (localHour i.now i.offset) p.opens.toNat p.closes.toNat,
      !p.requireCode || decide (i.code = p.expectedCode.toNat)].all id := by
  simp [verdict, Bool.and_assoc]

/-- The ranges that the constraints leave to the integers. The lower bounds are those of
well-formed input; the upper bounds are powers of two above them. -/
structure InRange (i : TimeInput) : Prop where
  previous_nonneg : 0 ≤ i.previous
  previous_le : i.previous ≤ i.now
  now_lt : i.now < 2 ^ 38
  offset_ge : -50400 ≤ i.offset
  offset_lt : i.offset < 2 ^ 17 - 50400
  code_nonneg : 0 ≤ i.code
  code_lt : i.code < 2 ^ 20

theorem absent_inRange : absent.InRange := by
  constructor <;> decide

/-- Whether the private variables of the time relation are known to be the integers. -/
structure IsNamed (known : Path → Scalar → Prop) (i : TimeInput) : Prop where
  present : known ["present", "boolean"] (.ofBool i.present)
  now : known ["now", "num"] (.ofInt i.now)
  previous : known ["previous", "num"] (.ofInt i.previous)
  offset : known ["offset", "num"] (.ofInt i.offset)
  code : known ["code", "num"] (.ofInt i.code)

/-! ### Native checks -/

theorem toNat_clockHour (time : Int64) (offset : Int32) :
    ((clockHour time offset).toNat : Int) = localHour time.toInt offset.toInt :=
  AccessContext.toNat_clockHour time offset

theorem toBool_withinHours (hour opens closes : UInt8) :
    (withinHours hour opens closes).toBool = isOpen hour.toNat opens.toNat closes.toNat := by
  simp [withinHours, isOpen, UInt8.le_iff_toNat_le, UInt8.lt_iff_toNat_lt]

theorem code_lt_of_codeAt (seed : Bytes32) (step : Int64) : (codeAt seed step).toNat < 2 ^ 20 := by
  unfold codeAt
  simp only [UInt32.toNat_ofNat']
  omega

/-- Well-formed input is in range. -/
theorem ofWitness_inRange {p : TimePolicy} {w : TimeWitness} (h : w.fault? = none)
    (hoffset : w.offset ≠ Int32.minValue) : (ofWitness p (some w)).InRange := by
  obtain ⟨hprevious, hle, hmax, habs⟩ := TimeWitness.bounds_of_fault? h hoffset
  exact {
    previous_nonneg := hprevious
    previous_le := hle
    now_lt := by
      show w.current.toInt < _
      omega
    offset_ge := by
      show _ ≤ w.offset.toInt
      omega
    offset_lt := by
      show w.offset.toInt < _
      omega
    code_nonneg := Int.natCast_nonneg _
    code_lt := by
      show ((w.code p).toNat : Int) < _
      exact_mod_cast code_lt_of_codeAt _ _ }

/-- The native verdict is the verdict on the integers. -/
theorem verified_checks {p : TimePolicy} {w : TimeWitness} (h : (ofWitness p (some w)).InRange) :
    (w.checks p).verified = (ofWitness p (some w)).verdict p := by
  have hprevious : 0 ≤ w.previous.toInt := h.previous_nonneg
  have hle : w.previous.toInt ≤ w.current.toInt := h.previous_le
  have hlt : w.current.toInt < 2 ^ 38 := h.now_lt
  have helapsed := toInt_saturate64 (n := w.current.toInt - w.previous.toInt) (by omega) (by omega)
  have hcode : (w.code p = p.expectedCode) ↔
      ((w.code p).toNat : Int) = (p.expectedCode.toNat : Int) := by
    rw [Nat.cast_inj, UInt32.toNat_inj]
  unfold TimeWitness.checks verdict ofWitness
  dsimp only
  rw [Bool.eq_iff_iff]
  simp [toBool_withinHours, toNat_clockHour, Int64.le_iff_toInt_le, helapsed, hcode, and_assoc]

end TimeInput

/-! ### The circuit -/

open TimeInput

variable {a : Assignment} {known : Path → Scalar → Prop}

/-- Division by an hour within a day, as the parts of a time determine it. -/
theorem localHour_eq {n o days hour rest : Int} (hhour : 0 ≤ hour) (hhour₁ : hour < 24)
    (hrest : 0 ≤ rest) (hrest₁ : rest < 3600)
    (h : days * secondsPerDay + hour * secondsPerHour + rest = n + o + secondsPerDay) :
    localHour n o = hour := by
  unfold localHour
  unfold secondsPerDay secondsPerHour at *
  omega

/-- Whatever the prover did, the variable of the hour is the local hour. -/
theorem shows_hourOfDay {now offset : Term} {n o : Int} (hnow : now.StandsFor a n)
    (hoffset : offset.StandsFor a o) (hn : 0 ≤ n) (hn₁ : n < 2 ^ 38) (ho : -2 ^ 38 < o)
    (ho₁ : o < 2 ^ 38) :
    Shows a known (hourOfDay now offset) fun h =>
      known ["hour", "num"] (.ofInt (localHour n o)) ∧ h.StandsFor a (localHour n o) := by
  unfold hourOfDay
  dsimp only
  refine Shows.next .trivial ?_
  intro days _
  refine Shows.bind (.scope shows_freshInteger) ?_
  intro hour hknown
  refine Shows.next .trivial ?_
  intro rest _
  refine Shows.next (.scope forces_enforceWidth) ?_
  rintro _ ⟨d, hd, hd₁, hdays⟩
  refine Shows.next (.scope forces_enforceWidth) ?_
  rintro _ ⟨h, hh, hh₁, hhour⟩
  refine Shows.next (.scope forces_enforceWidth) ?_
  rintro _ ⟨h', hh', _, hbelow⟩
  refine Shows.next (.scope forces_enforceWidth) ?_
  rintro _ ⟨r, hr, hr₁, hrest⟩
  refine Shows.next (.scope forces_enforceWidth) ?_
  rintro _ ⟨r', hr', _, hrestBelow⟩
  refine Shows.next .equate fun _ hparts => Shows.pure ?_
  have hhour₂ := ((Term.StandsFor.constant 23).sub hhour).unique hbelow (by omega) (by omega)
  have hrest₂ := ((Term.StandsFor.constant (secondsPerHour - 1)).sub hrest).unique hrestBelow
    (by unfold secondsPerHour; omega) (by unfold secondsPerHour; omega)
  have hsum := ((hdays.scale.add hhour.scale).add hrest).unique
    (hparts.trans (hnow.add hoffset).addConstant)
    (by unfold secondsPerDay secondsPerHour; omega) (by unfold secondsPerDay secondsPerHour; omega)
  rw [localHour_eq hh (by omega) hr (by unfold secondsPerHour at hrest₂; omega) hsum]
  exact ⟨hhour.known hknown, hhour⟩

/-- Both sides of noon, when business does not close before it opens, and either side else. -/
theorem toInt_isOpen (after before same : Bool) :
    after.toInt + before.toInt - after.toInt * before.toInt
        + same.toInt * (after.toInt * before.toInt
          - (after.toInt + before.toInt - after.toInt * before.toInt)) =
      (if same then after && before else after || before).toInt := by
  cases after <;> cases before <;> cases same <;> rfl

theorem forces_enforceHours {hour opens closes required : Term} {h o c : Int} {r : Bool}
    (hhour : hour.StandsFor a h) (hopens : opens.StandsFor a o) (hcloses : closes.StandsFor a c)
    (hrequired : required.StandsFor a r.toInt) (hh : 0 ≤ h ∧ h < 24)
    (ho : -2 ^ 63 ≤ o ∧ o < 2 ^ 64) (hc : -2 ^ 63 ≤ c ∧ c < 2 ^ 64) :
    Forces a (enforceHours hour opens closes required) fun t =>
      t.StandsFor a (!r || isOpen h o c).toInt := by
  unfold enforceHours
  dsimp only
  refine Forces.bind (.scope (forces_leq hopens hhour (by omega) (by omega) (by decide))) ?_
  intro after hafter
  refine Forces.bind (.scope (forces_lt hhour hcloses (by omega) (by omega) (by decide))) ?_
  intro before hbefore
  refine Forces.bind (.scope (forces_leq hopens hcloses (by omega) (by omega) (by decide))) ?_
  intro same hsame
  refine Forces.bind (.scope (forces_mul hafter hbefore)) ?_
  intro both hboth
  have heither := (hafter.add hbefore).sub hboth
  refine Forces.bind (.scope (forces_mul hsame (hboth.sub heither))) ?_
  intro adjust hadjust
  have hopen := heither.add hadjust
  rw [toInt_isOpen] at hopen
  refine .scope ((forces_implies hrequired hopen).mono fun t ht => ?_)
  simpa [isOpen] using ht

theorem shows_enforceCode {code : Int} {expected required : Term} {e : Int} {r : Bool}
    (hexpected : expected.StandsFor a e) (hrequired : required.StandsFor a r.toInt)
    (he : -2 ^ 63 ≤ e ∧ e < 2 ^ 64) :
    Shows a known (enforceCode code expected required) fun t =>
      ∃ k, 0 ≤ k ∧ k < 2 ^ 20 ∧ known ["code", "num"] (.ofInt k) ∧
        t.StandsFor a (!r || decide (k = e)).toInt := by
  unfold enforceCode
  refine Shows.bind (.scope shows_freshInteger) ?_
  intro code hknown
  refine Shows.next (.scope forces_enforceWidth) ?_
  rintro _ ⟨k, hk, hk₁, hcode⟩
  refine Shows.next (.scope (forces_equalBit hcode hexpected (by omega) (by omega))) ?_
  intro equal hequal
  exact .last (.scope ((forces_implies hrequired hequal).mono fun t ht =>
    ⟨k, hk, hk₁, hcode.known hknown, ht⟩))

theorem localHour_bounds (n o : Int) : 0 ≤ localHour n o ∧ localHour n o < 24 := by
  unfold localHour secondsPerDay secondsPerHour
  omega

/-- Whatever the prover did, the variables are some integers in range, the hour is theirs, and the
result is the verdict on them. -/
theorem shows_enforceTime {input : TimeInput} {z : TimeVector (Wire Scalar)} {p : TimePolicy}
    (hz : z.Holds a p.vector) :
    Shows a known (enforceTime input z) fun t =>
      ∃ i : TimeInput, i.IsNamed known ∧ i.InRange ∧
        known ["hour", "num"] (.ofInt (localHour i.now i.offset)) ∧
        t.StandsFor a (i.verdict p).toInt := by
  obtain ⟨hearliest, hlatest, hinterval, hopens, hcloses, hrequireHours, hrequireCode,
    hexpected⟩ := hz
  dsimp only [TimePolicy.vector] at hearliest hlatest hinterval
  have hearliest₁ := hearliest.bounds
  have hlatest₁ := hlatest.bounds
  have hinterval₁ := hinterval.bounds
  unfold enforceTime timeWidth wideWidth
  dsimp only
  refine Shows.bind (.scope shows_freshBit) ?_
  rintro present ⟨b, hbKnown, hpresent⟩
  refine Shows.bind (.scope shows_freshInteger) ?_
  intro now hnowKnown
  refine Shows.bind (.scope shows_freshInteger) ?_
  intro previous hpreviousKnown
  refine Shows.bind (.scope shows_freshInteger) ?_
  intro offset hoffsetKnown
  refine Shows.next (.scope forces_enforceWidth) ?_
  rintro _ ⟨n, hn, hn₁, hnow⟩
  refine Shows.next (.scope forces_enforceWidth) ?_
  rintro _ ⟨m, hm, hm₁, hprevious⟩
  refine Shows.next (.scope forces_enforceWidth) ?_
  rintro _ ⟨e, he, he₁, helapsed⟩
  refine Shows.next (.scope forces_enforceWidth) ?_
  rintro _ ⟨k, hk, hk₁, hshifted⟩
  have hdiff := hnow.sub hprevious
  have he₂ := hdiff.unique helapsed (by omega) (by omega)
  have hoffset : offset.StandsFor a (k - 50400) := hshifted.of_addConstant
  refine Shows.next (.scope (forces_leq hearliest.standsFor hnow (by omega) (by omega)
    (by decide))) ?_
  intro afterEarliest hafterEarliest
  refine Shows.next (.scope (forces_leq hnow hlatest.standsFor (by omega) (by omega)
    (by decide))) ?_
  intro beforeLatest hbeforeLatest
  refine Shows.next (.scope (forces_leq hinterval.standsFor hdiff (by omega) (by omega)
    (by decide))) ?_
  intro rateOk hrateOk
  refine Shows.bind (shows_hourOfDay hnow hoffset hn hn₁ (by omega) (by omega)) ?_
  rintro hour ⟨hhourKnown, hhour⟩
  refine Shows.next (forces_enforceHours hhour hopens.standsFor hcloses.standsFor
    hrequireHours.standsFor (localHour_bounds n _) hopens.bounds hcloses.bounds) ?_
  intro hoursOk hhoursOk
  refine Shows.bind (shows_enforceCode hexpected.standsFor hrequireCode.standsFor
    hexpected.bounds) ?_
  rintro codeOk ⟨c, hc, hc₁, hcKnown, hcodeOk⟩
  refine .last (.scope ((forces_conjunction (.cons hpresent <| .cons hafterEarliest <|
    .cons hbeforeLatest <| .cons hrateOk <| .cons hhoursOk <| .cons hcodeOk .nil)).mono
    fun t ht => ⟨⟨b, n, m, k - 50400, c⟩, ?_, ?_, hhourKnown, ?_⟩))
  · exact ⟨hbKnown, hnow.known hnowKnown, hprevious.known hpreviousKnown,
      hoffset.known hoffsetKnown, hcKnown⟩
  · exact ⟨hm, by dsimp only; omega, hn₁, by dsimp only; omega, by dsimp only; omega, hc, hc₁⟩
  · rw [verdict_eq_all]
    exact ht

theorem forces_enforceTime {input : TimeInput} {z : TimeVector (Wire Scalar)} {p : TimePolicy}
    (hz : z.Holds a p.vector) :
    Forces a (enforceTime input z) fun t =>
      ∃ i : TimeInput, i.InRange ∧ t.StandsFor a (i.verdict p).toInt :=
  (shows_enforceTime hz).forces.mono fun _ ⟨i, _, hrange, _, ht⟩ => ⟨i, hrange, ht⟩

/-! ### The honest run -/

theorem runs_hourOfDay {now offset : Term} {n o : Int} (hnow : now.Carries a n)
    (hoffset : offset.Carries a o) (hn : 0 ≤ n) (hn₁ : n < 2 ^ 38) (ho : -50400 ≤ o)
    (ho₁ : o < 2 ^ 17) :
    Runs a (hourOfDay now offset) True fun h => h.Carries a (localHour n o) := by
  unfold hourOfDay
  dsimp only
  have hshifted := (hnow.add hoffset ⟨by omega, by omega⟩).addConstant (k := secondsPerDay)
    ⟨by unfold secondsPerDay; omega, by unfold secondsPerDay; omega⟩
  obtain ⟨s, hs⟩ : ∃ s, s = n + o + secondsPerDay := ⟨_, rfl⟩
  rw [← hs] at hshifted
  have hsday : s = n + o + 86400 := hs
  have hnonneg : 0 ≤ s := by omega
  have hday : s.tdiv secondsPerDay = s / 86400 := Int.tdiv_eq_ediv_of_nonneg hnonneg
  have hrest : s.tmod secondsPerHour = s % 3600 := Int.tmod_eq_emod_of_nonneg hnonneg
  have hhour : (s.tmod secondsPerDay).tdiv secondsPerHour = s % 86400 / 3600 := by
    rw [Int.tmod_eq_emod_of_nonneg hnonneg,
      Int.tdiv_eq_ediv_of_nonneg (Int.emod_nonneg _ (by decide))]
    rfl
  have hlocal : localHour n o = s % 86400 / 3600 := by
    unfold localHour secondsPerDay secondsPerHour
    omega
  refine Runs.bind (.scope (runs_freshInteger (x := s / 86400)
    (by rw [hshifted.1, ← hday]; rfl))) ?_
  intro days hdays
  refine Runs.bind (.scope (runs_freshInteger (x := s % 86400 / 3600)
    (by rw [hshifted.1, ← hhour]; rfl))) ?_
  intro hour hhour
  refine Runs.bind (.scope (runs_freshInteger (x := s % 3600)
    (by rw [hshifted.1, ← hrest]; rfl))) ?_
  intro rest hrest
  refine Runs.next (.scope (runs_enforceWidth hdays (by omega) (by omega) (by omega))) ?_
  refine Runs.next (.scope (runs_enforceWidth hhour (by omega) (by omega) (by omega))) ?_
  have hbelow := (Term.Carries.constant 23).sub hhour ⟨by omega, by omega⟩
  refine Runs.next (.scope (runs_enforceWidth hbelow (by omega) (by omega) (by omega))) ?_
  refine Runs.next (.scope (runs_enforceWidth hrest (by omega) (by omega) (by omega))) ?_
  have hrestBelow : (Term.constant (secondsPerHour - 1) - rest).Carries a (3599 - s % 3600) :=
    (Term.Carries.constant (secondsPerHour - 1)).sub hrest
      ⟨by unfold secondsPerHour; omega, by unfold secondsPerHour; omega⟩
  refine Runs.next (.scope (runs_enforceWidth hrestBelow (by omega) (by omega) (by omega))) ?_
  have hparts := (hdays.2.scale (k := secondsPerDay) |>.add (hhour.2.scale (k := secondsPerHour)))
    |>.add hrest.2
  have hsum : s / 86400 * secondsPerDay + s % 86400 / 3600 * secondsPerHour + s % 3600 = s := by
    unfold secondsPerDay secondsPerHour
    omega
  rw [hsum] at hparts
  refine Runs.bind (Runs.equate.weaken (iff_true_intro (hparts.trans hshifted.2.symm)))
    fun _ _ => Runs.pure ?_
  rw [hlocal]
  exact hhour

/-- Sums and products of three bits fit. -/
theorem fits_window (after before same : Bool) :
    Fits (after.toInt + before.toInt) ∧
      Fits (after.toInt + before.toInt - after.toInt * before.toInt) ∧
      Fits (after.toInt * before.toInt) ∧
      Fits (after.toInt * before.toInt
        - (after.toInt + before.toInt - after.toInt * before.toInt)) ∧
      Fits (same.toInt * (after.toInt * before.toInt
        - (after.toInt + before.toInt - after.toInt * before.toInt))) := by
  cases after <;> cases before <;> cases same <;> simp [Fits, Bool.toInt]

theorem runs_enforceHours {hour opens closes required : Term} {h o c : Int} {r : Bool}
    (hhour : hour.Carries a h) (hopens : opens.Carries a o) (hcloses : closes.Carries a c)
    (hrequired : required.Carries a r.toInt) (hh : 0 ≤ h ∧ h < 24)
    (ho : 0 ≤ o ∧ o < 2 ^ 8) (hc : 0 ≤ c ∧ c < 2 ^ 8) :
    Runs a (enforceHours hour opens closes required) True fun t =>
      t.Carries a (!r || isOpen h o c).toInt := by
  unfold enforceHours smallWidth
  dsimp only
  refine Runs.bind (.scope (runs_leq hopens hhour (by omega) (by omega) ⟨by omega, by omega⟩)) ?_
  intro after hafter
  refine Runs.bind (.scope (runs_lt hhour hcloses (by omega) (by omega) ⟨by omega, by omega⟩
    ⟨by omega, by omega⟩)) ?_
  intro before hbefore
  refine Runs.bind (.scope (runs_leq hopens hcloses (by omega) (by omega) ⟨by omega, by omega⟩)) ?_
  intro same hsame
  obtain ⟨hfits₁, hfits₂, hfits₃, hfits₄, hfits₅⟩ :=
    fits_window (decide (o ≤ h)) (decide (h < c)) (decide (o ≤ c))
  refine Runs.bind (.scope (runs_mul hafter hbefore hfits₃)) ?_
  intro both hboth
  have heither := (hafter.add hbefore hfits₁).sub hboth hfits₂
  refine Runs.bind (.scope (runs_mul hsame (hboth.sub heither hfits₄) hfits₅)) ?_
  intro adjust hadjust
  have hopen := heither.add hadjust (by rw [toInt_isOpen]; exact fits_toInt _)
  rw [toInt_isOpen] at hopen
  refine .scope ((runs_implies hrequired hopen).mono fun t ht => ?_)
  simpa [isOpen] using ht

theorem runs_enforceCode {k : Int} {expected required : Term} {e : Int} {r : Bool}
    (hexpected : expected.Carries a e) (hrequired : required.Carries a r.toInt)
    (hk : 0 ≤ k ∧ k < 2 ^ 20) (he : -2 ^ 63 ≤ e ∧ e < 2 ^ 64) :
    Runs a (enforceCode k expected required) True fun t =>
      t.Carries a (!r || decide (k = e)).toInt := by
  unfold enforceCode
  refine Runs.bind (.scope (runs_freshInteger rfl)) ?_
  intro code hcode
  refine Runs.next (.scope (runs_enforceWidth hcode (by omega) (by omega) (by omega))) ?_
  refine Runs.bind (.scope (runs_equalBit hcode hexpected ⟨by omega, by omega⟩)) ?_
  intro equal hequal
  exact .scope (runs_implies hrequired hequal)

/-- The honest run on integers in range is satisfied, and gives their verdict. -/
theorem runs_enforceTime {i : TimeInput} {z : TimeVector (Wire Scalar)} {p : TimePolicy}
    (hz : z.Holds a p.vector) (hi : i.InRange) :
    Runs a (enforceTime i z) True fun t => t.Carries a (i.verdict p).toInt := by
  obtain ⟨hearliest, hlatest, hinterval, hopens, hcloses, hrequireHours, hrequireCode,
    hexpected⟩ := hz
  dsimp only [TimePolicy.vector] at hearliest hlatest hinterval
  have hearliest₁ := hearliest.bounds
  have hlatest₁ := hlatest.bounds
  have hinterval₁ := hinterval.bounds
  have hopens₁ : (p.opens.toNat : Int) < 2 ^ 8 := by exact_mod_cast p.opens.toNat_lt
  have hcloses₁ : (p.closes.toNat : Int) < 2 ^ 8 := by exact_mod_cast p.closes.toNat_lt
  have hmax : TimeWitness.maxOffset.toInt = 50400 := rfl
  obtain ⟨hm, hle, hn, ho, ho₁, hc, hc₁⟩ := hi
  unfold enforceTime timeWidth wideWidth
  dsimp only
  refine Runs.bind (.scope (runs_freshBit rfl)) ?_
  intro present hpresent
  refine Runs.bind (.scope (runs_freshInteger rfl)) ?_
  intro now hnow
  refine Runs.bind (.scope (runs_freshInteger rfl)) ?_
  intro previous hprevious
  refine Runs.bind (.scope (runs_freshInteger rfl)) ?_
  intro offset hoffset
  have helapsed := hnow.sub hprevious ⟨by omega, by omega⟩
  have hshifted : (offset.addConstant TimeWitness.maxOffset.toInt).Carries a (i.offset + 50400) :=
    hoffset.addConstant ⟨by omega, by omega⟩
  refine Runs.next (.scope (runs_enforceWidth hnow (by omega) (by omega) (by omega))) ?_
  refine Runs.next (.scope (runs_enforceWidth hprevious (by omega) (by omega) (by omega))) ?_
  refine Runs.next (.scope (runs_enforceWidth helapsed (by omega) (by omega) (by omega))) ?_
  refine Runs.next (.scope (runs_enforceWidth hshifted (by omega) (by omega) (by omega))) ?_
  refine Runs.bind (.scope (runs_leq hearliest.carries hnow (by omega) (by omega)
    ⟨by omega, by omega⟩)) ?_
  intro afterEarliest hafterEarliest
  refine Runs.bind (.scope (runs_leq hnow hlatest.carries (by omega) (by omega)
    ⟨by omega, by omega⟩)) ?_
  intro beforeLatest hbeforeLatest
  refine Runs.bind (.scope (runs_leq hinterval.carries helapsed (by omega) (by omega)
    ⟨by omega, by omega⟩)) ?_
  intro rateOk hrateOk
  refine Runs.bind (runs_hourOfDay hnow hoffset (by omega) hn ho (by omega)) ?_
  intro hour hhour
  refine Runs.bind (runs_enforceHours hhour hopens.carries hcloses.carries hrequireHours.carries
    (localHour_bounds _ _) ⟨Int.natCast_nonneg _, hopens₁⟩ ⟨Int.natCast_nonneg _, hcloses₁⟩) ?_
  intro hoursOk hhoursOk
  refine Runs.bind (runs_enforceCode hexpected.carries hrequireCode.carries ⟨hc, hc₁⟩
    hexpected.bounds) ?_
  intro codeOk hcodeOk
  refine .scope ((runs_conjunction (.cons hpresent <| .cons hafterEarliest <|
    .cons hbeforeLatest <| .cons hrateOk <| .cons hhoursOk <| .cons hcodeOk .nil)).mono
    fun t ht => ?_)
  rw [verdict_eq_all]
  exact ht

end AccessContext.R1cs
