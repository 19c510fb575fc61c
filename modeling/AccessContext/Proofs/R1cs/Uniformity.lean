import AccessContext.Proofs.R1cs.Alike
import AccessContext.Proofs.R1cs.Context

/-!
# The shape of the relations

The circuits of both relations depend on the variables of the public vector alone: whatever the
private integers and the numbers of the vector are, and even if some of these are missing, the same
variables are allocated and the same constraints enforced. So systems built for different data have
one shape, and differ in the values of their variables at most.
-/

namespace AccessContext.R1cs

open Circuit

/-! ### Signals -/

theorem alike_wordBits {name : String} {word word' : Option UInt64} {width : Nat} :
    Alike (wordBits name word width) (wordBits name word' width)
      fun ws ws' => ws.map Wire.var = ws'.map Wire.var :=
  alike_bitsFrom 0 width

theorem alike_wordNumber {name : String} {word word' : Option UInt64} {width : Nat} :
    Alike (wordBits name word width) (wordBits name word' width)
      fun ws ws' => binaryForm ws = binaryForm ws' :=
  alike_wordBits.mono fun _ _ hvars => congrArg LinearForm.ofBits hvars

/-- The variables of bits and verdicts. -/
def pairVars (pairs : List (Wire Bool × Wire Scalar)) : List (Var × Var) :=
  pairs.map (Prod.map Wire.var Wire.var)

theorem alike_unblockedFrom {k : Nat} {product product' : Product}
    {pairs pairs' : List (Wire Bool × Wire Scalar)} (hproduct : product.form = product'.form)
    (hpairs : pairVars pairs = pairVars pairs') :
    Alike (unblockedFrom k product pairs) (unblockedFrom k product' pairs')
      fun p p' => p.form = p'.form := by
  induction pairs generalizing k product product' pairs' with
  | nil =>
    obtain rfl := List.map_eq_nil_iff.mp hpairs.symm
    exact .pure hproduct
  | cons pair rest ih =>
    obtain ⟨pair', rest', rfl, hpair, hrest⟩ := List.map_eq_cons_iff.mp hpairs.symm
    obtain ⟨required, verdict⟩ := pair
    obtain ⟨required', verdict'⟩ := pair'
    obtain ⟨hrequired, hverdict⟩ := Prod.mk.inj hpair
    unfold unblockedFrom
    dsimp only
    refine .bind (.scope alike_number) ?_
    intro blocked blocked' hblocked
    refine .next (.enforce ?_ ?_ ?_) ?_
    · rw [hrequired]
    · rw [hverdict]
    · rw [hblocked]
    refine .bind (.scope alike_number) ?_
    intro next next' hnext
    refine .next (.enforce hproduct ?_ ?_) ?_
    · rw [hblocked]
    · rw [hnext]
    exact ih (congrArg LinearForm.ofVar hnext) hrest.symm

theorem alike_enforceBit {name : String} {v v' : Var} (hv : v = v') :
    Alike (enforceBit name v) (enforceBit name v') fun _ _ => True := by
  subst hv
  exact .enforce rfl rfl rfl

theorem alike_enforceDecision {z z' : SignalVector (Wire Scalar)}
    (hz : z.map Wire.var = z'.map Wire.var) :
    Alike (enforceDecision z) (enforceDecision z') fun _ _ => True := by
  simp only [SignalVector.map, SignalVector.mk.injEq] at hz
  obtain ⟨hdevice, htime, hlocation, hpattern, hoverall, htrust, hmet, hlevel, hrequirements,
    hrisk⟩ := hz
  unfold enforceDecision
  refine .next (alike_enforceBit hdevice) ?_
  refine .next (alike_enforceBit htime) ?_
  refine .next (alike_enforceBit hlocation) ?_
  refine .next (alike_enforceBit hpattern) ?_
  refine .next (alike_enforceBit hoverall) ?_
  refine .next (alike_enforceBit hmet) ?_
  -- the forms of the signals become the same terms, and only those of new variables are left
  simp only [hdevice, htime, hlocation, hoverall, htrust, hmet, hlevel, hrequirements, hrisk]
  refine .bind alike_wordBits ?_
  intro required required' hrequired
  refine .next (.equate (congrArg LinearForm.ofBits hrequired) rfl) ?_
  have hpairs : pairVars (required.zip [z.device, z.time, z.location, z.pattern]) =
      pairVars (required'.zip [z'.device, z'.time, z'.location, z'.pattern]) := by
    unfold pairVars
    rw [← List.zip_map, ← List.zip_map, hrequired]
    simp only [List.map_cons, hdevice, htime, hlocation, hpattern, List.map_nil]
  refine .bind (alike_unblockedFrom rfl hpairs) ?_
  intro product product' hproduct
  refine .next (.equate hproduct rfl) ?_
  refine .bind alike_wordNumber ?_
  intro riskBits riskBits' hriskBits
  refine .next (.equate hriskBits rfl) ?_
  refine .bind alike_wordNumber ?_
  intro headroom headroom' hheadroom
  refine .next (.equate hheadroom rfl) ?_
  refine .bind alike_wordNumber ?_
  intro trustBits trustBits' htrustBits
  refine .next (.equate htrustBits rfl) ?_
  refine .bind alike_wordNumber ?_
  intro remainder remainder' hremainder
  refine .next (.equate ?_ rfl) ?_
  · rw [hremainder]
  refine .bind alike_wordNumber ?_
  intro levelBits levelBits' hlevelBits
  refine .next (.equate hlevelBits rfl) ?_
  refine .bind (.scope alike_number) ?_
  intro gate gate' hgate
  refine .next (.enforce rfl rfl (congrArg LinearForm.ofVar hgate)) ?_
  refine .bind alike_wordNumber ?_
  intro slack slack' hslack
  refine .equate hslack ?_
  rw [hgate]

/-! ### Time -/

theorem alike_hourOfDay {now now' offset offset' : Term} (hnow : now.SameForm now')
    (hoffset : offset.SameForm offset') :
    Alike (hourOfDay now offset) (hourOfDay now' offset') Term.SameForm := by
  unfold hourOfDay
  dsimp only
  refine .bind (.scope alike_freshInteger) ?_
  intro days days' hdays
  refine .bind (.scope alike_freshInteger) ?_
  intro hour hour' hhour
  refine .bind (.scope alike_freshInteger) ?_
  intro rest rest' hrest
  refine .next (.scope (alike_enforceWidth hdays)) ?_
  refine .next (.scope (alike_enforceWidth hhour)) ?_
  refine .next (.scope (alike_enforceWidth ((Term.SameForm.refl _).sub hhour))) ?_
  refine .next (.scope (alike_enforceWidth hrest)) ?_
  refine .next (.scope (alike_enforceWidth ((Term.SameForm.refl _).sub hrest))) ?_
  exact .next (alike_equateTerms ((hdays.scale.add hhour.scale).add hrest)
    (hnow.add hoffset).addConstant) (.pure hhour)

theorem alike_enforceHours {hour hour' opens opens' closes closes' required required' : Term}
    (hhour : hour.SameForm hour') (hopens : opens.SameForm opens')
    (hcloses : closes.SameForm closes') (hrequired : required.SameForm required') :
    Alike (enforceHours hour opens closes required) (enforceHours hour' opens' closes' required')
      Term.SameForm := by
  unfold enforceHours
  dsimp only
  refine .bind (.scope (alike_leq hopens hhour)) ?_
  intro after after' hafter
  refine .bind (.scope (alike_lt hhour hcloses)) ?_
  intro before before' hbefore
  refine .bind (.scope (alike_leq hopens hcloses)) ?_
  intro sameDay sameDay' hsameDay
  refine .bind (.scope (alike_mul hafter hbefore)) ?_
  intro both both' hboth
  have heither := (hafter.add hbefore).sub hboth
  refine .bind (.scope (alike_mul hsameDay (hboth.sub heither))) ?_
  intro adjust adjust' hadjust
  exact .scope (alike_implies hrequired (heither.add hadjust))

theorem alike_enforceCode {code code' : Int} {expected expected' required required' : Term}
    (hexpected : expected.SameForm expected') (hrequired : required.SameForm required') :
    Alike (enforceCode code expected required) (enforceCode code' expected' required')
      Term.SameForm := by
  unfold enforceCode
  refine .bind (.scope alike_freshInteger) ?_
  intro number number' hnumber
  refine .next (.scope (alike_enforceWidth hnumber)) ?_
  refine .bind (.scope (alike_equalBit hnumber hexpected)) ?_
  intro equal equal' hequal
  exact .scope (alike_implies hrequired hequal)

theorem alike_enforceTime {i i' : TimeInput} {z z' : TimeVector (Wire Scalar)}
    (hz : z.map Wire.var = z'.map Wire.var) :
    Alike (enforceTime i z) (enforceTime i' z') Term.SameForm := by
  simp only [TimeVector.map, TimeVector.mk.injEq] at hz
  obtain ⟨hearliest, hlatest, hinterval, hopens, hcloses, hrequireHours, hrequireCode,
    hexpected⟩ := hz
  unfold enforceTime
  dsimp only [TimeVector.map]
  refine .bind (.scope alike_freshBit) ?_
  intro present present' hpresent
  refine .bind (.scope alike_freshInteger) ?_
  intro now now' hnow
  refine .bind (.scope alike_freshInteger) ?_
  intro previous previous' hprevious
  refine .bind (.scope alike_freshInteger) ?_
  intro offset offset' hoffset
  have helapsed := hnow.sub hprevious
  refine .next (.scope (alike_enforceWidth hnow)) ?_
  refine .next (.scope (alike_enforceWidth hprevious)) ?_
  refine .next (.scope (alike_enforceWidth helapsed)) ?_
  refine .next (.scope (alike_enforceWidth hoffset.addConstant)) ?_
  refine .bind (.scope (alike_leq (.ofNumber hearliest) hnow)) ?_
  intro afterEarliest afterEarliest' hafterEarliest
  refine .bind (.scope (alike_leq hnow (.ofNumber hlatest))) ?_
  intro beforeLatest beforeLatest' hbeforeLatest
  refine .bind (.scope (alike_leq (.ofNumber hinterval) helapsed)) ?_
  intro rateOk rateOk' hrateOk
  refine .bind (alike_hourOfDay hnow hoffset) ?_
  intro hour hour' hhour
  refine .bind (alike_enforceHours hhour (.ofNumber hopens) (.ofNumber hcloses)
    (.ofNumber hrequireHours)) ?_
  intro hoursOk hoursOk' hhoursOk
  refine .bind (alike_enforceCode (.ofNumber hexpected) (.ofNumber hrequireCode)) ?_
  intro codeOk codeOk' hcodeOk
  exact .scope (alike_conjunction (.cons hpresent <| .cons hafterEarliest <|
    .cons hbeforeLatest <| .cons hrateOk <| .cons hhoursOk <| .cons hcodeOk .nil))

/-! ### Location -/

/-- Whether the coordinates of two points have the same forms. -/
structure PointTerm.SameForm (p p' : PointTerm) : Prop where
  lat : p.lat.SameForm p'.lat
  lon : p.lon.SameForm p'.lon

theorem alike_allocPoint {p p' : GeoPoint} :
    Alike (allocPoint p) (allocPoint p') PointTerm.SameForm := by
  unfold allocPoint
  refine .bind (.scope alike_freshInteger) ?_
  intro lat lat' hlat
  refine .bind (.scope alike_freshInteger) ?_
  intro lon lon' hlon
  refine .next (.scope (alike_enforceWidth hlat.addConstant)) ?_
  exact .next (.scope (alike_enforceWidth hlon.addConstant)) (.pure ⟨hlat, hlon⟩)

theorem alike_distSq {p p' q q' : PointTerm} (hp : p.SameForm p') (hq : q.SameForm q') :
    Alike (distSq p q) (distSq p' q') Term.SameForm := by
  unfold distSq
  dsimp only
  have hdlat := hp.lat.sub hq.lat
  have hdlon := hp.lon.sub hq.lon
  refine .bind (.scope (alike_mul hdlat hdlat)) ?_
  intro dlatSq dlatSq' hdlatSq
  refine .bind (.scope (alike_mul hdlon hdlon)) ?_
  intro dlonSq dlonSq' hdlonSq
  exact .pure (hdlatSq.add hdlonSq)

theorem alike_reachSquared {hours hours' speed speed' : Term} (hhours : hours.SameForm hours')
    (hspeed : speed.SameForm speed') :
    Alike (reachSquared hours speed) (reachSquared hours' speed') Term.SameForm := by
  unfold reachSquared
  dsimp only
  refine .bind (.scope (alike_mul hhours hspeed)) ?_
  intro reach reach' hreach
  refine .bind (.scope (alike_leq (.refl _) hreach)) ?_
  intro far far' hfar
  refine .bind (.scope (alike_mul hfar ((Term.SameForm.refl _).sub hreach))) ?_
  intro clamp clamp' hclamp
  have hcapped := hreach.add hclamp
  exact .scope (alike_mul hcapped hcapped)

theorem alike_enforceLocation {i i' : LocationInput} {z z' : LocationVector (Wire Scalar)}
    (hz : z.map Wire.var = z'.map Wire.var) :
    Alike (enforceLocation i z) (enforceLocation i' z') Term.SameForm := by
  simp only [LocationVector.map, DiskVector.map, LocationVector.mk.injEq,
    DiskVector.mk.injEq] at hz
  obtain ⟨⟨hlat, hlon, hradius⟩, hhas, ⟨hlat₁, hlon₁, hradius₁⟩, hspeed, htolerance,
    hrequire⟩ := hz
  unfold enforceLocation
  dsimp only [LocationVector.map, DiskVector.map]
  refine .bind (.scope alike_freshBit) ?_
  intro present present' hpresent
  refine .bind (.scope alike_allocPoint) ?_
  intro current current' hcurrent
  refine .bind (.scope alike_allocPoint) ?_
  intro previous previous' hprevious
  refine .bind (.scope alike_allocPoint) ?_
  intro ip ip' hip
  refine .bind (.scope alike_freshInteger) ?_
  intro hours hours' hhours
  refine .next (.scope (alike_enforceWidth hhours)) ?_
  refine .bind (.scope (alike_distSq hcurrent ⟨.ofNumber hlat, .ofNumber hlon⟩)) ?_
  intro fromCenter fromCenter' hfromCenter
  refine .bind (.scope (alike_leq hfromCenter (.ofNumber hradius))) ?_
  intro authorized authorized' hauthorized
  refine .bind (.scope (alike_distSq hcurrent ⟨.ofNumber hlat₁, .ofNumber hlon₁⟩)) ?_
  intro fromBlocked fromBlocked' hfromBlocked
  refine .bind (.scope (alike_leq hfromBlocked (.ofNumber hradius₁))) ?_
  intro inside inside' hinside
  refine .bind (.scope (alike_mul (.ofNumber hhas) hinside)) ?_
  intro blocked blocked' hblocked
  refine .bind (alike_reachSquared hhours (.ofNumber hspeed)) ?_
  intro reachSq reachSq' hreachSq
  refine .bind (.scope (alike_distSq hcurrent hprevious)) ?_
  intro travelled travelled' htravelled
  refine .bind (.scope (alike_leq htravelled hreachSq)) ?_
  intro travelOk travelOk' htravelOk
  refine .bind (.scope (alike_distSq hcurrent hip)) ?_
  intro fromIp fromIp' hfromIp
  refine .bind (.scope (alike_leq hfromIp (.ofNumber htolerance))) ?_
  intro ipClose ipClose' hipClose
  refine .bind (.scope (alike_implies (.ofNumber hrequire) hipClose)) ?_
  intro ipOk ipOk' hipOk
  exact .scope (alike_conjunction (.cons hpresent <| .cons hauthorized <|
    .cons ((Term.SameForm.refl _).sub hblocked) <| .cons htravelOk <| .cons hipOk .nil))

/-! ### Pattern -/

theorem alike_enforceRange {name : String} {x x' low low' high high' : Term}
    (hx : x.SameForm x') (hlow : low.SameForm low') (hhigh : high.SameForm high') :
    Alike (enforceRange name x low high) (enforceRange name x' low' high') Term.SameForm := by
  unfold enforceRange
  refine .bind (.scope (alike_leq hlow hx)) ?_
  intro above above' habove
  refine .bind (.scope (alike_leq hx hhigh)) ?_
  intro below below' hbelow
  exact .scope (alike_conjunction (.cons habove <| .cons hbelow .nil))

/-- The number of intervals is fixed, so that none is allocated for one input alone. -/
theorem alike_allocIntervals {k : Nat} {xs xs' : List Int} (h : xs.length = xs'.length) :
    Alike (allocIntervals k xs) (allocIntervals k xs') (List.Forall₂ Term.SameForm) := by
  induction xs generalizing k xs' with
  | nil =>
    obtain rfl := List.length_eq_zero_iff.mp h.symm
    exact .pure .nil
  | cons x xs ih =>
    cases xs' with
    | nil => cases h
    | cons x' xs' =>
      refine .bind (.scope alike_freshInteger) ?_
      intro t t' ht
      refine .next (.scope (alike_enforceWidth ht)) ?_
      refine .bind (ih (Nat.succ.inj h)) ?_
      intro ts ts' hts
      exact .pure (.cons ht hts)

theorem alike_addDistances {mean mean' acc acc' : Term} {k : Nat} {xs xs' : List Term}
    (hmean : mean.SameForm mean') (hacc : acc.SameForm acc')
    (hxs : List.Forall₂ Term.SameForm xs xs') :
    Alike (addDistances mean k acc xs) (addDistances mean' k acc' xs') Term.SameForm := by
  induction hxs generalizing k acc acc' with
  | nil => exact .pure hacc
  | cons hx _ ih =>
    have hdelta := hx.sub hmean
    refine .bind (.scope (alike_leq hmean hx)) ?_
    intro above above' habove
    refine .bind (.scope (alike_mul habove hdelta)) ?_
    intro gated gated' hgated
    exact ih (hacc.add (hgated.scale.sub hdelta))

theorem sameForm_sum {acc acc' : Term} {xs xs' : List Term} (hacc : acc.SameForm acc')
    (hxs : List.Forall₂ Term.SameForm xs xs') :
    (xs.foldl (· + ·) acc).SameForm (xs'.foldl (· + ·) acc') := by
  induction hxs generalizing acc acc' with
  | nil => exact hacc
  | cons hx _ ih => exact ih (hacc.add hx)

theorem alike_meanDeviation {xs xs' : List Term} (hxs : List.Forall₂ Term.SameForm xs xs') :
    Alike (meanDeviation xs) (meanDeviation xs') Term.SameForm := by
  unfold meanDeviation
  dsimp only
  refine .bind (.scope (alike_divideDown (sameForm_sum (.refl _) hxs))) ?_
  intro mean mean' hmean
  refine .bind (alike_addDistances hmean (.refl _) hxs) ?_
  intro total total' htotal
  exact .scope (alike_divideDown htotal)

theorem alike_timingRisk {deviation deviation' variance variance' : Term}
    (hdeviation : deviation.SameForm deviation') (hvariance : variance.SameForm variance') :
    Alike (timingRisk deviation variance) (timingRisk deviation' variance') Term.SameForm := by
  unfold timingRisk
  dsimp only
  refine .bind (.scope alike_freshInteger) ?_
  intro quotient quotient' hquotient
  refine .bind (.scope alike_freshInteger) ?_
  intro rem rem' hrem
  refine .next (.scope (alike_enforceWidth hquotient)) ?_
  refine .next (.scope (alike_enforceWidth hrem)) ?_
  refine .next (.scope (alike_enforceWidth (hvariance.sub hrem).addConstant)) ?_
  refine .bind (.scope (alike_mul hvariance hquotient)) ?_
  intro product product' hproduct
  refine .next (alike_equateTerms (hproduct.add hrem) hdeviation.scale) ?_
  refine .bind (.scope (alike_leq (.refl _) hquotient)) ?_
  intro saturated saturated' hsaturated
  refine .bind (.scope (alike_mul hsaturated ((Term.SameForm.refl _).sub hquotient))) ?_
  intro clamp clamp' hclamp
  exact .pure (hquotient.add hclamp)

theorem alike_enforcePattern {i i' : PatternInput} {z z' : PatternVector (Wire Scalar)}
    (hz : z.map Wire.var = z'.map Wire.var) :
    Alike (enforcePattern i z) (enforcePattern i' z')
      fun r r' => r.1.SameForm r'.1 ∧ r.2.SameForm r'.2 := by
  simp only [PatternVector.map, PatternVector.mk.injEq] at hz
  obtain ⟨hminSession, hmaxSession, hminTyping, hmaxTyping, hvariance, hthreshold⟩ := hz
  unfold enforcePattern
  dsimp only [PatternVector.map]
  refine .bind (.scope alike_freshBit) ?_
  intro present present' hpresent
  refine .bind (.scope alike_freshBit) ?_
  intro baseline baseline' hbaseline
  refine .bind (.scope alike_freshInteger) ?_
  intro session session' hsession
  refine .bind (.scope alike_freshInteger) ?_
  intro typing typing' htyping
  refine .next (.scope (alike_enforceWidth hsession)) ?_
  refine .next (.scope (alike_enforceWidth htyping)) ?_
  refine .bind (alike_enforceRange hsession (.ofNumber hminSession) (.ofNumber hmaxSession)) ?_
  intro sessionOk sessionOk' hsessionOk
  refine .bind (alike_enforceRange htyping (.ofNumber hminTyping) (.ofNumber hmaxTyping)) ?_
  intro typingOk typingOk' htypingOk
  have hlength : i.intervals.toList.length = i'.intervals.toList.length := by
    rw [Vector.length_toList, Vector.length_toList]
  refine .bind (alike_allocIntervals hlength) ?_
  intro intervals intervals' hintervals
  refine .bind (alike_meanDeviation hintervals) ?_
  intro deviation deviation' hdeviation
  refine .bind (.scope (alike_leq hdeviation (.ofNumber hvariance))) ?_
  intro timingOk timingOk' htimingOk
  refine .bind (alike_timingRisk hdeviation (.ofNumber hvariance)) ?_
  intro continuous continuous' hcontinuous
  have hfixed := (((Term.SameForm.refl (.constant (25 + 20 + 15 + 10))).sub
    (hbaseline.scale (k := 25))).sub (hsessionOk.scale (k := 20))).sub (htypingOk.scale (k := 15))
  have hrisk := (hfixed.sub (htimingOk.scale (k := 10))).add hcontinuous
  refine .bind (.scope (alike_lt hrisk (.ofNumber hthreshold))) ?_
  intro below below' hbelow
  refine .bind (.scope (alike_conjunction (.cons hpresent <| .cons hbaseline <|
    .cons hsessionOk <| .cons htypingOk <| .cons htimingOk <| .cons hbelow .nil))) ?_
  intro verdict verdict' hverdict
  refine .bind (.scope (alike_mul hpresent (hrisk.sub (.refl _)))) ?_
  intro gated gated' hgated
  exact .pure ⟨hverdict, (Term.SameForm.refl _).add hgated⟩

/-! ### Context -/

theorem alike_enforceContext {i i' : ContextInput} {z z' : ContextVector (Wire Scalar)}
    (hz : z.map Wire.var = z'.map Wire.var) :
    Alike (enforceContext i z) (enforceContext i' z') fun _ _ => True := by
  obtain ⟨hsignals, htime, hlocation, hpattern, -⟩ := ContextVector.mk.inj hz
  unfold enforceContext
  refine .next (.scope (alike_enforceDecision hsignals)) ?_
  refine .bind (.scope (alike_enforceTime htime)) ?_
  intro time time' htime
  refine .bind (.scope (alike_enforceLocation hlocation)) ?_
  intro location location' hlocation
  refine .bind (.scope (alike_enforcePattern hpattern)) ?_
  rintro ⟨pattern, risk⟩ ⟨pattern', risk'⟩ ⟨hpattern, hrisk⟩
  refine .next (alike_equateTerms htime (.ofNumber (congrArg SignalVector.time hsignals))) ?_
  refine .next (alike_equateTerms hlocation
    (.ofNumber (congrArg SignalVector.location hsignals))) ?_
  refine .next (alike_equateTerms hpattern
    (.ofNumber (congrArg SignalVector.pattern hsignals))) ?_
  exact alike_equateTerms hrisk (.ofNumber (congrArg SignalVector.risk hsignals))

/-! ### Relations -/

namespace Relation

variable {r r' : Relation} {z z' : List Scalar} {s s' : System}
  {inputs inputs' outputs outputs' : List (Wire Scalar)}

/-- Whether a relation refuses vectors of any other length than its arity. -/
def HasArity (r : Relation) : Prop :=
  ∀ ⦃z : List (Wire Scalar)⦄ ⦃c : Circuit (List (Wire Scalar))⦄,
    r.circuit z = .ok c → z.length = r.arity

/-- Whether the circuits that two relations make of the same variables are alike. The values of the
variables may differ or be missing. -/
def Alike (r r' : Relation) : Prop :=
  ∀ ⦃z z' : List (Wire Scalar)⦄ ⦃c c' : Circuit (List (Wire Scalar))⦄,
    z.map Wire.var = z'.map Wire.var → r.circuit z = .ok c → r'.circuit z' = .ok c' →
      Circuit.Alike c c' fun outputs outputs' => outputs.map Wire.var = outputs'.map Wire.var

/-- Whether the systems that two relations build have one shape, whatever numbers they are built
for, and the vectors before and after are the same variables. -/
def BuildAlike (r r' : Relation) : Prop :=
  ∀ ⦃z z' : List Scalar⦄ ⦃s s' : System⦄ ⦃inputs inputs' outputs outputs' : List (Wire Scalar)⦄,
    r.build z = .ok (s, inputs, outputs) → r'.build z' = .ok (s', inputs', outputs') →
      s.shape = s'.shape ∧ inputs.map Wire.var = inputs'.map Wire.var ∧
        outputs.map Wire.var = outputs'.map Wire.var

/-- A relation that was built ran twice: for the vector, then for its own circuit. -/
theorem build_eq_ok (h : r.build z = .ok (s, inputs, outputs)) :
    ∃ t c, (numbersFrom "z_" 0 z).run .empty = (t, .ok inputs) ∧ r.circuit inputs = .ok c ∧
      c.run t = (s, .ok outputs) := by
  unfold build at h
  simp only [bind_eq_ok_iff] at h
  obtain ⟨w, hw, c, hc, o, ho, hresult⟩ := h
  cases hresult
  exact ⟨_, c, Prod.ext rfl hw, hc, Prod.ext rfl ho⟩

theorem HasArity.length_eq (hr : r.HasArity) (h : r.build z = .ok (s, inputs, outputs)) :
    z.length = r.arity := by
  obtain ⟨t, c, hinputs, hc, -⟩ := build_eq_ok h
  obtain ⟨-, hwires⟩ := run_eq_ok hinputs
  rw [show System.empty.aux.size = 0 from rfl, numbersFrom_eq] at hwires
  rw [← hr hc, hwires, length_inputWires]

/-- The vector is allocated first, in both systems, and then each relation adds its circuit. -/
theorem Alike.buildAlike (h : r.Alike r') (hr : r.HasArity) (hr' : r'.HasArity)
    (harity : r.arity = r'.arity) : r.BuildAlike r' := by
  intro z z' s s' inputs inputs' outputs outputs' hbuild hbuild'
  have hlength : z.length = z'.length := by
    rw [hr.length_eq hbuild, hr'.length_eq hbuild', harity]
  obtain ⟨t, c, hinputs, hc, hrun⟩ := build_eq_ok hbuild
  obtain ⟨t', c', hinputs', hc', hrun'⟩ := build_eq_ok hbuild'
  obtain ⟨hshape, hvars⟩ := (alike_numbersFrom 0 hlength).run rfl hinputs hinputs'
  obtain ⟨hshape₂, houtputs⟩ := (h hvars hc hc').run hshape hrun hrun'
  exact ⟨hshape₂, hvars, houtputs⟩

end Relation

theorem contextRelation_hasArity (input : ContextInput) : (contextRelation input).HasArity := by
  intro z c h
  obtain ⟨v, hv, -⟩ := contextRelation_circuit_eq_ok h
  rw [ContextVector.eq_of_ofList? hv]
  exact v.length_toList

theorem signalRelation_hasArity : signalRelation.HasArity := by
  intro z c h
  obtain ⟨v, hv, -⟩ := signalRelation_circuit_eq_ok h
  rw [SignalVector.eq_of_ofList? hv]
  rfl

theorem contextRelation_alike (input input' : ContextInput) :
    (contextRelation input).Alike (contextRelation input') := by
  intro z z' c c' hz hc hc'
  obtain ⟨v, hv, rfl⟩ := contextRelation_circuit_eq_ok hc
  obtain ⟨v', hv', rfl⟩ := contextRelation_circuit_eq_ok hc'
  exact .next (alike_enforceContext (ContextVector.map_eq_of_ofList? hv hv' hz)) (.pure hz)

theorem signalRelation_alike : signalRelation.Alike signalRelation := by
  intro z z' c c' hz hc hc'
  obtain ⟨v, hv, rfl⟩ := signalRelation_circuit_eq_ok hc
  obtain ⟨v', hv', rfl⟩ := signalRelation_circuit_eq_ok hc'
  exact .next (alike_enforceDecision (SignalVector.map_eq_of_ofList? hv hv' hz)) (.pure hz)

/-- The shape of both relations is independent of data. For any private integers and any numbers in
the vector, the circuits allocate the same variables in the same order and enforce the same
constraints; so do the systems that are built, which differ in the values of the variables alone. -/
theorem relations_uniform :
    (∀ input input' : ContextInput,
      (contextRelation input).Alike (contextRelation input') ∧
        (contextRelation input).BuildAlike (contextRelation input')) ∧
    signalRelation.Alike signalRelation ∧ signalRelation.BuildAlike signalRelation := by
  refine ⟨fun input input' => ⟨contextRelation_alike input input', ?_⟩, signalRelation_alike, ?_⟩
  · exact (contextRelation_alike input input').buildAlike (contextRelation_hasArity input)
      (contextRelation_hasArity input') rfl
  · exact signalRelation_alike.buildAlike signalRelation_hasArity signalRelation_hasArity rfl

/-- Systems for a request and for none, under statements that differ, and for their signals. -/
theorem relations_uniform_absent :
    (∃ s s' inputs inputs' outputs outputs',
      (contextRelation (.ofWitness earlyWitness futurePolicy)).build
        (futureStatement false 25).publicVector.toList = .ok (s, inputs, outputs) ∧
      (contextRelation ⟨.absent, .absent, .absent⟩).build
        (futureStatement true 45).publicVector.toList = .ok (s', inputs', outputs') ∧
      inputs ≠ inputs' ∧ s.shape = s'.shape) ∧
    ∃ s s' inputs inputs' outputs outputs',
      signalRelation.build ((futureStatement false 25).signals.vector.map .ofInt).toList =
        .ok (s, inputs, outputs) ∧
      signalRelation.build ((futureStatement true 45).signals.vector.map .ofInt).toList =
        .ok (s', inputs', outputs') ∧
      inputs ≠ inputs' ∧ s.shape = s'.shape := by
  have hscalars : some (Scalar.ofInt 0) ≠ some (Scalar.ofInt 1) := by decide
  constructor
  · have hearly : (ContextInput.ofWitness earlyWitness futurePolicy).InRange :=
      ContextInput.ofWitness_inRange rfl (by rintro t ⟨⟩; decide)
    have habsent : ContextInput.InRange ⟨.absent, .absent, .absent⟩ :=
      ⟨TimeInput.absent_inRange, LocationInput.absent_inRange, PatternInput.absent_inRange⟩
    obtain ⟨s, outputs, hbuild, -⟩ := Relation.exists_build
      (contextRelation_circuit _ (futureStatement false 25).publicVector)
      fun _ ha => runs_contextRelation rfl hearly ha
    obtain ⟨s', outputs', hbuild', -⟩ := Relation.exists_build
      (contextRelation_circuit _ (futureStatement true 45).publicVector)
      fun _ ha => runs_contextRelation rfl habsent ha
    refine ⟨s, s', _, _, outputs, outputs', hbuild, hbuild', ?_,
      ((relations_uniform.1 _ _).2 hbuild hbuild').1⟩
    intro h
    have hwires := congrArg ContextVector.ofList? h
    rw [ContextVector.ofList?_inputWires, ContextVector.ofList?_inputWires] at hwires
    exact hscalars (congrArg (fun v => v.signals.time.value) (Option.some.inj hwires))
  · obtain ⟨s, outputs, hbuild, -⟩ := Relation.exists_build (signalRelation_circuit _)
      fun _ ha => runs_signalRelation (g := (futureStatement false 25).signals) rfl ha
    obtain ⟨s', outputs', hbuild', -⟩ := Relation.exists_build (signalRelation_circuit _)
      fun _ ha => runs_signalRelation (g := (futureStatement true 45).signals) rfl ha
    refine ⟨s, s', _, _, outputs, outputs', hbuild, hbuild', ?_,
      (relations_uniform.2.2 hbuild hbuild').1⟩
    intro h
    have hwires := congrArg SignalVector.ofList? h
    rw [SignalVector.ofList?_inputWires, SignalVector.ofList?_inputWires] at hwires
    exact hscalars (congrArg (fun v => v.time.value) (Option.some.inj hwires))

end AccessContext.R1cs
