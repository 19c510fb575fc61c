import AccessContext.Proofs.Evaluation
import AccessContext.Proofs.R1cs.Location
import AccessContext.Proofs.R1cs.Pattern
import AccessContext.Proofs.R1cs.Signals
import AccessContext.Proofs.R1cs.Time
import AccessContext.R1cs.ContextRelation

/-!
# The context relation

The constraints admit a statement if its signals are consistent and some private integers in range
lead to its verdicts and its risk. The ranges are those of the widths, so they hold every input
that validation accepts, and a few more.
-/

namespace AccessContext.R1cs

open Fin.CommRing
open Circuit

namespace ContextInput

structure InRange (i : ContextInput) : Prop where
  time : i.time.InRange
  location : i.location.InRange
  pattern : i.pattern.InRange

/-- Whether integers lead to the verdicts on time, location and pattern and to the risk that are
among the signals. -/
structure LeadsTo (i : ContextInput) (p : Policy) (g : PublicSignals) : Prop where
  time : g.time = i.time.verdict p.time
  location : g.location = i.location.verdict p.location
  pattern : g.pattern = i.pattern.verdict p.pattern
  risk : (g.risk.toNat : Int) = i.pattern.risk p.pattern

/-- Well-formed input is in range. -/
theorem ofWitness_inRange {w : Witness} {p : Policy} (h : w.fault? = none)
    (hoffset : ∀ t, w.time = some t → t.offset ≠ Int32.minValue) : (ofWitness w p).InRange := by
  obtain ⟨-, htime, hlocation, hpattern⟩ := Witness.fault?_eq_none_iff.mp h
  unfold ofWitness
  refine ⟨?_, ?_, ?_⟩
  · cases ht : w.time with
    | none => exact TimeInput.absent_inRange
    | some t => exact TimeInput.ofWitness_inRange (htime t ht) (hoffset t ht)
  · cases hl : w.location with
    | none => exact LocationInput.absent_inRange
    | some l => exact LocationInput.inRange_of_fault? (hlocation l hl)
  · cases hb : w.behavior with
    | none => exact PatternInput.absent_inRange
    | some b => exact PatternInput.ofWitness_inRange (hpattern b hb)

/-- What validation asks of the integers of the categories that are present. -/
structure IsValid (i : ContextInput) : Prop where
  time : i.time.present = true → 0 ≤ i.time.previous ∧ i.time.previous ≤ i.time.now ∧
    i.time.now ≤ 253402300799 ∧ (i.time.offset.natAbs : Int) ≤ 50400
  location : i.location.present = true → i.location.current.fault? = none ∧
    i.location.previous.fault? = none ∧ i.location.ipDerived.fault? = none ∧
      0 ≤ i.location.travelHours
  pattern : i.pattern.present = true → 0 ≤ i.pattern.session

theorem ofWitness_isValid {w : Witness} {p : Policy} (h : w.fault? = none)
    (hoffset : ∀ t, w.time = some t → t.offset ≠ Int32.minValue) : (ofWitness w p).IsValid := by
  have hpattern := (ofWitness_inRange (p := p) h hoffset).pattern
  obtain ⟨-, htime, hlocation, -⟩ := Witness.fault?_eq_none_iff.mp h
  refine ⟨?_, ?_, fun _ => hpattern.session_nonneg⟩
  · unfold ofWitness
    cases ht : w.time with
    | none => nofun
    | some t => exact fun _ => TimeWitness.bounds_of_fault? (htime t ht) (hoffset t ht)
  · unfold ofWitness
    cases hl : w.location with
    | none => nofun
    | some l => exact fun _ => LocationWitness.bounds_of_fault? (hlocation l hl)

theorem verdict_time {w : Witness} {p : Policy} (hi : (ofWitness w p).InRange) :
    (ofWitness w p).time.verdict p.time =
      (w.time.map fun t => t.checks p.time).any TimeChecks.verified := by
  have htime := hi.time
  unfold ofWitness at htime ⊢
  cases ht : w.time with
  | none => rfl
  | some t =>
    rw [ht] at htime
    exact (TimeInput.verified_checks htime).symm

theorem verdict_location {w : Witness} {p : Policy} (hi : (ofWitness w p).InRange) :
    (ofWitness w p).location.verdict p.location =
      (w.location.map fun l => l.checks p.location).any LocationChecks.verified := by
  have hlocation := hi.location
  unfold ofWitness at hlocation ⊢
  cases hl : w.location with
  | none => rfl
  | some l =>
    rw [hl] at hlocation
    exact (LocationInput.verified_checks hlocation).symm

theorem verdict_pattern {w : Witness} {p : Policy} (hp : p.pattern.maxVariance ≠ 0) :
    ∃ c, ifPresent w.behavior (fun b => b.checks p.pattern) = .ok c ∧
      (ofWitness w p).pattern.verdict p.pattern = c.any PatternChecks.verified ∧
      (ofWitness w p).pattern.risk p.pattern =
        ((c.map PatternChecks.risk).getD fullRisk).toNat := by
  unfold ofWitness
  cases hb : w.behavior with
  | none => exact ⟨none, rfl, rfl, rfl⟩
  | some b =>
    obtain ⟨c, hc, hverdict, hrisk⟩ := PatternInput.checks_eq (w := b) hp
    refine ⟨some c, ?_, hverdict.symm, hrisk.symm⟩
    unfold ifPresent
    dsimp only
    rw [hc]
    rfl

/-- The native checks come to the verdicts and the risk to which the integers of a witness lead. -/
theorem leadsTo_ofWitness_iff {w : Witness} {p : Policy} (hi : (ofWitness w p).InRange)
    (hp : p.pattern.maxVariance ≠ 0) :
    ∃ c, ifPresent w.behavior (fun b => b.checks p.pattern) = .ok c ∧
      ∀ g : PublicSignals, (ofWitness w p).LeadsTo p g ↔
        g.time = (w.time.map fun t => t.checks p.time).any TimeChecks.verified ∧
        g.location = (w.location.map fun l => l.checks p.location).any LocationChecks.verified ∧
        g.pattern = c.any PatternChecks.verified ∧
        g.risk = (c.map PatternChecks.risk).getD fullRisk := by
  obtain ⟨c, hc, hverdict, hrisk⟩ := verdict_pattern (w := w) hp
  refine ⟨c, hc, fun g => ?_⟩
  rw [← verdict_time hi, ← verdict_location hi, ← hverdict, ← UInt8.toNat_inj]
  constructor
  · rintro ⟨htime, hlocation, hpattern, hriskEq⟩
    exact ⟨htime, hlocation, hpattern, Int.ofNat_inj.mp (hriskEq.trans hrisk)⟩
  · rintro ⟨htime, hlocation, hpattern, hriskEq⟩
    exact ⟨htime, hlocation, hpattern, (congrArg Nat.cast hriskEq).trans hrisk.symm⟩

end ContextInput

/-! ### The circuit -/

variable {a : Assignment}

theorem bool_eq_of_standsFor {s t : Term} {b c : Bool} (hs : s.StandsFor a b.toInt)
    (ht : t.StandsFor a c.toInt) : a.eval s.form = a.eval t.form ↔ c = b := by
  have hb := bool_bounds b
  have hc := bool_bounds c
  refine (eval_eq_iff hs ht (by omega) (by omega)).trans ?_
  cases b <;> cases c <;> decide

/-- Whatever the prover did, the signals are consistent, and integers in range lead to them. -/
theorem forces_enforceContext {input : ContextInput} {z : ContextVector (Wire Scalar)} {p : Policy}
    (htime : z.time.Holds a p.time.vector) (hlocation : z.location.Holds a p.location.vector)
    (hpattern : z.pattern.Holds a p.pattern.vector) :
    Forces a (enforceContext input z) fun _ =>
      ∃ g : PublicSignals, g.requirements.isKnown = true ∧ g.IsConsistent ∧
        z.signals.map (fun w => a.value w.var) = g.vector.map .ofInt ∧
        ∃ i : ContextInput, i.InRange ∧ i.LeadsTo p g := by
  unfold enforceContext
  refine Forces.bind (.scope forces_enforceDecision) ?_
  rintro _ ⟨g, hknown, hconsistent, hg⟩
  refine Forces.bind (.scope (forces_enforceTime htime)) ?_
  rintro t ⟨i, hi, ht⟩
  refine Forces.bind (.scope (forces_enforceLocation hlocation)) ?_
  rintro l ⟨j, hj, hl⟩
  refine Forces.bind (.scope (forces_enforcePattern hpattern)) ?_
  rintro ⟨m, r⟩ ⟨k, hk, hm, hr⟩
  refine Forces.bind .equate ?_
  intro _ htimeEq
  refine Forces.bind .equate ?_
  intro _ hlocationEq
  refine Forces.bind .equate ?_
  intro _ hpatternEq
  refine Forces.equate.mono fun _ hriskEq => ?_
  have htimeVar : a.value z.signals.time.var = .ofInt g.time.toInt := congrArg (·.time) hg
  have hlocationVar : a.value z.signals.location.var = .ofInt g.location.toInt :=
    congrArg (·.location) hg
  have hpatternVar : a.value z.signals.pattern.var = .ofInt g.pattern.toInt :=
    congrArg (·.pattern) hg
  have hriskVar : a.value z.signals.risk.var = .ofInt g.risk.toNat := congrArg (·.risk) hg
  have hriskBounds := byte_bounds g.risk
  have hriskRange := k.risk_bounds p.pattern hk
  refine ⟨g, hknown, hconsistent, hg, ⟨i, j, k⟩, ⟨hi, hj, hk⟩, ?_, ?_, ?_, ?_⟩
  · exact (bool_eq_of_standsFor ht (.ofNumber htimeVar)).mp htimeEq
  · exact (bool_eq_of_standsFor hl (.ofNumber hlocationVar)).mp hlocationEq
  · exact (bool_eq_of_standsFor hm (.ofNumber hpatternVar)).mp hpatternEq
  · have hsignal : (Term.ofNumber z.signals.risk).StandsFor a g.risk.toNat := .ofNumber hriskVar
    exact ((eval_eq_iff hr hsignal (by omega) (by omega)).mp hriskEq).symm

/-- The honest run on integers in range is satisfied exactly by consistent signals to which the
integers lead. -/
theorem runs_enforceContext {i : ContextInput} {z : ContextVector (Wire Scalar)} {p : Policy}
    {g : PublicSignals} (hsignals : z.signals.Holds a g.vector)
    (htime : z.time.Holds a p.time.vector) (hlocation : z.location.Holds a p.location.vector)
    (hpattern : z.pattern.Holds a p.pattern.vector) (hknown : g.requirements.isKnown = true)
    (hi : i.InRange) (hp : p.pattern.maxVariance ≠ 0) :
    Runs a (enforceContext i z) (g.IsConsistent ∧ i.LeadsTo p g) fun _ => True := by
  have hriskBounds := hsignals.risk.bounds
  have hriskRange := i.pattern.risk_bounds p.pattern hi.pattern
  have hleads : i.LeadsTo p g ↔ g.time = i.time.verdict p.time ∧
      g.location = i.location.verdict p.location ∧ g.pattern = i.pattern.verdict p.pattern ∧
      (g.risk.toNat : Int) = i.pattern.risk p.pattern :=
    ⟨fun h => ⟨h.time, h.location, h.pattern, h.risk⟩, fun ⟨h₁, h₂, h₃, h₄⟩ => ⟨h₁, h₂, h₃, h₄⟩⟩
  rw [hleads]
  unfold enforceContext
  refine Runs.seq (.scope (runs_enforceDecision hsignals hknown)) ?_
  intro _ _
  refine Runs.bind (.scope (runs_enforceTime htime hi.time)) ?_
  intro t ht
  refine Runs.bind (.scope (runs_enforceLocation hlocation hi.location)) ?_
  intro l hl
  refine Runs.bind (.scope (runs_enforcePattern hpattern hi.pattern hp)) ?_
  rintro ⟨m, r⟩ ⟨hm, hr⟩
  refine Runs.seq (Runs.equate.weaken (bool_eq_of_standsFor ht.standsFor
    hsignals.time.standsFor)) ?_
  intro _ _
  refine Runs.seq (Runs.equate.weaken (bool_eq_of_standsFor hl.standsFor
    hsignals.location.standsFor)) ?_
  intro _ _
  refine Runs.seq (Runs.equate.weaken (bool_eq_of_standsFor hm.standsFor
    hsignals.pattern.standsFor)) ?_
  intro _ _
  exact Runs.equate.weaken ((eval_eq_iff hr.standsFor hsignals.risk.standsFor (by omega)
    (by omega)).trans eq_comm)

/-! ### The relation -/

theorem contextRelation_circuit (input : ContextInput) (v : ContextVector Scalar) :
    (contextRelation input).circuit (inputWires 0 v.toList) =
      .ok (enforceContext input v.wires >>= fun _ => pure (inputWires 0 v.toList)) := by
  unfold contextRelation
  dsimp only
  rw [ContextVector.ofList?_inputWires]

theorem contextRelation_circuit_eq_ok {input : ContextInput} {z : List (Wire Scalar)}
    {c : Circuit (List (Wire Scalar))} (h : (contextRelation input).circuit z = .ok c) :
    ∃ v, ContextVector.ofList? z = some v ∧ c = enforceContext input v >>= fun _ => pure z := by
  unfold contextRelation at h
  dsimp only at h
  split at h
  · cases h
  · next v hv => exact ⟨v, hv, (Except.ok.inj h).symm⟩

variable {s : Statement}

theorem forces_contextRelation {input : ContextInput}
    (ha : ∀ i x, s.publicVector.toList[i]? = some x → a.value (.aux i) = x) :
    Forces a (enforceContext input s.publicVector.wires >>= fun _ =>
      pure (inputWires 0 s.publicVector.toList)) fun _ =>
        s.signals.requirements.isKnown = true ∧ s.signals.IsConsistent ∧
          ∃ i : ContextInput, i.InRange ∧ i.LeadsTo s.snapshot.policy s.signals := by
  refine Forces.bind (forces_enforceContext (holds_time_wires ha) (holds_location_wires ha)
    (holds_pattern_wires ha)) ?_
  rintro _ ⟨g, hknown, hconsistent, hg, hi⟩
  have hvalues := SignalVector.values_wires (a := a) fun i x hx => values_signals_wires ha hx
  obtain rfl := signals_eq_of_vector (hvalues.symm.trans hg)
  exact Forces.pure ⟨hknown, hconsistent, hi⟩

theorem runs_contextRelation {i : ContextInput}
    (hknown : s.signals.requirements.isKnown = true) (hi : i.InRange)
    (ha : ∀ i x, s.publicVector.toList[i]? = some x → a.value (.aux i) = x) :
    Runs a (enforceContext i s.publicVector.wires >>= fun _ =>
      pure (inputWires 0 s.publicVector.toList))
        (s.signals.IsConsistent ∧ i.LeadsTo s.snapshot.policy s.signals) fun _ => True := by
  have hsignals := holds_signals_wires (a := a) fun i x hx => values_signals_wires ha hx
  refine Runs.weaken ?_ (and_true _).to_iff
  exact (runs_enforceContext hsignals (holds_time_wires ha) (holds_location_wires ha)
    (holds_pattern_wires ha) hknown hi s.snapshot.maxVariance_ne_zero).seq
      fun _ _ => Runs.pure .intro

/-- A policy whose window opens only after the last time that validation accepts, and which asks
for a place near the origin. -/
def futurePolicy : Policy where
  version := 1
  device := ⟨.zero, .zero, none, []⟩
  time := ⟨260000000000, 270000000000, 0, 0, 24, 30, 0, false, false⟩
  location := ⟨⟨.origin, 2500⟩, none, 100, 0, false⟩
  pattern := ⟨.zero, 0, 3600, 0, 100, 300, 50, 50⟩
  access := ⟨.ofCategories [.location], .basic⟩

/-- A claim about one time and one place, under that policy. -/
def futureStatement (time : Bool) (trust : UInt8) : Statement where
  snapshot := ⟨futurePolicy, futurePolicy.digest, rfl, rfl⟩
  nonce := ⟨[1]⟩
  signals := ⟨false, time, true, false, true, trust, true, .basic, .ofCategories [.location], 100⟩

/-- A request too early for that policy, from the right place. -/
def earlyWitness : Witness where
  device := none
  time := some ⟨1700000000, 1700000000, 3600, .zero⟩
  location := some ⟨⟨30, 40⟩, .origin, .origin, 1⟩
  behavior := none
  policyVersion := none

theorem evaluate_earlyWitness :
    ∃ e, earlyWitness.evaluate (futureStatement false 25).snapshot ⟨[1]⟩ = .ok e ∧
      e.decision.signals = (futureStatement false 25).signals := by
  have hrange : (ContextInput.ofWitness earlyWitness futurePolicy).InRange :=
    ContextInput.ofWitness_inRange rfl (by rintro t ⟨⟩; decide)
  obtain ⟨t, ht⟩ : ∃ t, t = earlyWitness.time.map fun t => t.checks futurePolicy.time := ⟨_, rfl⟩
  obtain ⟨l, hl⟩ : ∃ l, l = earlyWitness.location.map fun l => l.checks futurePolicy.location :=
    ⟨_, rfl⟩
  have hverdicts :
      Verdicts.ofChecks none t l none = (futureStatement false 25).signals.verdicts := by
    unfold Verdicts.ofChecks
    rw [ht, hl, ← ContextInput.verdict_time hrange, ← ContextInput.verdict_location hrange]
    rfl
  obtain ⟨d, hd, hsignals⟩ := ((futureStatement false 25).signals.isConsistent_iff_decision
    (.ofChecks futurePolicy ⟨[1]⟩ none t l none) ⟨[1]⟩ 1).mp ⟨rfl, rfl, rfl⟩
  rw [← hverdicts] at hd
  refine ⟨⟨none, t, l, none, d⟩, Witness.evaluate_eq_ok_iff.mpr
    ⟨rfl, rfl, rfl, rfl, rfl, ?_, ?_, rfl, hd⟩, hsignals⟩
  · rw [ht]
    rfl
  · rw [hl]
    rfl

/-- The relation of a witness that can be evaluated is complete, and it is satisfied exactly by
consistent signals with the verdicts on time, location and pattern and the risk that evaluation
comes to. The verdict on the device is free. -/
theorem contextRelation_honest {w : Witness} {e : Evaluation}
    (hevaluate : w.evaluate s.snapshot s.nonce = .ok e)
    (hoffset : ∀ t, w.time = some t → t.offset ≠ Int32.minValue)
    (hknown : s.signals.requirements.isKnown = true) :
    ∃ system inputs outputs,
      (contextRelation (.ofWitness w s.snapshot.policy)).build s.publicVector.toList =
        .ok (system, inputs, outputs) ∧
      (system.isSatisfied = true ↔
        s.signals.time = e.decision.signals.time ∧
        s.signals.location = e.decision.signals.location ∧
        s.signals.pattern = e.decision.signals.pattern ∧
        s.signals.risk = e.decision.signals.risk ∧ s.signals.IsConsistent) := by
  have houtcome := Witness.evaluate_eq_ok_iff.mp hevaluate
  have hi := ContextInput.ofWitness_inRange (p := s.snapshot.policy) houtcome.fault?_eq hoffset
  obtain ⟨c, hc, hleads⟩ := ContextInput.leadsTo_ofWitness_iff hi s.snapshot.maxVariance_ne_zero
  obtain rfl : c = e.pattern := Except.ok.inj (hc.symm.trans houtcome.pattern_checks)
  obtain ⟨system, outputs, hbuild, hsatisfied⟩ :=
    Relation.exists_build (contextRelation_circuit (.ofWitness w s.snapshot.policy) s.publicVector)
      fun _ ha => runs_contextRelation hknown hi ha
  refine ⟨system, _, outputs, hbuild, ?_⟩
  rw [hsatisfied, hleads, ← houtcome.time_eq, ← houtcome.location_eq]
  have hverdicts := houtcome.verdicts_eq
  have htime : e.decision.signals.time = _ := congrArg Verdicts.time hverdicts
  have hlocation : e.decision.signals.location = _ := congrArg Verdicts.location hverdicts
  have hpattern : e.decision.signals.pattern = _ := congrArg Verdicts.pattern hverdicts
  have hrisk : e.decision.signals.risk = _ := congrArg Verdicts.risk hverdicts
  rw [htime, hlocation, hpattern, hrisk]
  constructor
  · rintro ⟨hconsistent, h₁, h₂, h₃, h₄⟩
    exact ⟨h₁, h₂, h₃, h₄, hconsistent⟩
  · rintro ⟨h₁, h₂, h₃, h₄, hconsistent⟩
    exact ⟨hconsistent, h₁, h₂, h₃, h₄⟩

theorem contextRelation_honest_early :
    ∃ system inputs outputs,
      (contextRelation (.ofWitness earlyWitness futurePolicy)).build
        (futureStatement false 25).publicVector.toList = .ok (system, inputs, outputs) ∧
      system.isSatisfied = true := by
  obtain ⟨e, he, hsignals⟩ := evaluate_earlyWitness
  obtain ⟨system, inputs, outputs, hbuild, hsatisfied⟩ := contextRelation_honest
    (s := futureStatement false 25) he (by rintro t ⟨⟩; decide) rfl
  refine ⟨system, inputs, outputs, hbuild, hsatisfied.mpr ?_⟩
  rw [hsignals]
  exact ⟨rfl, rfl, rfl, rfl, rfl, rfl, rfl⟩

/-! ### Dishonest provers -/

/-- The relation accepts a statement exactly if its signals are consistent and some integers in
range lead to them, whatever values the prover gives the other variables. On witnesses in range,
the integers lead to what the native checks come to. -/
theorem contextRelation_accepts_iff (s : Statement) :
    ((∃ (input : ContextInput) (a : Assignment),
        a.IsAccepted (contextRelation input) s.publicVector.toList) ↔
      s.signals.requirements.isKnown = true ∧ s.signals.IsConsistent ∧
        ∃ i : ContextInput, i.InRange ∧ i.LeadsTo s.snapshot.policy s.signals) ∧
    ∀ w : Witness, (ContextInput.ofWitness w s.snapshot.policy).InRange →
      ∃ c, ifPresent w.behavior (fun b => b.checks s.snapshot.policy.pattern) = .ok c ∧
        ∀ g : PublicSignals, (ContextInput.ofWitness w s.snapshot.policy).LeadsTo
            s.snapshot.policy g ↔
          g.time = (w.time.map fun t => t.checks s.snapshot.policy.time).any
            TimeChecks.verified ∧
          g.location = (w.location.map fun l => l.checks s.snapshot.policy.location).any
            LocationChecks.verified ∧
          g.pattern = c.any PatternChecks.verified ∧
          g.risk = (c.map PatternChecks.risk).getD fullRisk := by
  refine ⟨?_, fun w hw => ContextInput.leadsTo_ofWitness_iff hw s.snapshot.maxVariance_ne_zero⟩
  constructor
  · rintro ⟨input, a, circuit, hcircuit, hvalues, hhold⟩
    obtain rfl := Except.ok.inj ((contextRelation_circuit input s.publicVector).symm.trans hcircuit)
    exact forces_contextRelation hvalues _ hhold
  · rintro ⟨hknown, hconsistent, i, hi, hleads⟩
    exact ⟨i, Relation.exists_isAccepted (contextRelation_circuit i s.publicVector)
      (fun _ ha => runs_contextRelation hknown hi ha) ⟨hconsistent, hleads⟩⟩

theorem contextRelation_accepts_early :
    (∃ (input : ContextInput) (a : Assignment),
      a.IsAccepted (contextRelation input) (futureStatement false 25).publicVector.toList) ∧
    ∃ c, ifPresent earlyWitness.behavior (fun b => b.checks futurePolicy.pattern) = .ok c ∧
      false = (earlyWitness.time.map fun t => t.checks futurePolicy.time).any
        TimeChecks.verified := by
  have hrange : (ContextInput.ofWitness earlyWitness futurePolicy).InRange :=
    ContextInput.ofWitness_inRange rfl (by rintro t ⟨⟩; decide)
  have hleads : (ContextInput.ofWitness earlyWitness futurePolicy).LeadsTo futurePolicy
      (futureStatement false 25).signals := ⟨rfl, rfl, rfl, rfl⟩
  obtain ⟨haccepts, hnative⟩ := contextRelation_accepts_iff (futureStatement false 25)
  obtain ⟨c, hc, hiff⟩ := hnative earlyWitness hrange
  exact ⟨haccepts.mpr ⟨rfl, ⟨rfl, rfl, rfl⟩, _, hrange, hleads⟩, c, hc, ((hiff _).mp hleads).1⟩

/-- Valid integers have a time before the window opens. -/
theorem ContextInput.IsValid.not_leadsTo_future {i : ContextInput} (h : i.IsValid) :
    ¬ i.LeadsTo futurePolicy (futureStatement true 45).signals := by
  intro hleads
  have htime : true = i.time.verdict futurePolicy.time := hleads.time
  simp only [TimeInput.verdict, Bool.and_eq_true, decide_eq_true_eq, eq_comm (a := true)] at htime
  obtain ⟨⟨⟨⟨⟨hpresent, hearliest⟩, -⟩, -⟩, -⟩, -⟩ := htime
  obtain ⟨-, -, hlatest, -⟩ := h.time hpresent
  have hbounds : (253402300799 : Int) < futurePolicy.time.earliest.toInt := by decide
  omega

/-- The widths admit times that validation refuses. -/
theorem contextRelation_accepts_future :
    (∃ (input : ContextInput) (a : Assignment),
      a.IsAccepted (contextRelation input) (futureStatement true 45).publicVector.toList) ∧
    ¬ ∃ i : ContextInput, i.IsValid ∧
      i.LeadsTo (futureStatement true 45).snapshot.policy (futureStatement true 45).signals := by
  constructor
  · refine ⟨⟨⟨true, 260000000000, 260000000000, 0, 0⟩, ⟨true, ⟨30, 40⟩, .origin, .origin, 1⟩,
      .absent⟩, Relation.exists_isAccepted (contextRelation_circuit _ _)
        (fun _ ha => runs_contextRelation rfl ?_ ha) ⟨⟨rfl, rfl, rfl⟩, rfl, rfl, rfl, rfl⟩⟩
    refine ⟨?_, ?_, PatternInput.absent_inRange⟩
    · constructor <;> decide
    · constructor
      · constructor <;> decide
      · constructor <;> decide
      · constructor <;> decide
      · decide
      · decide
  · rintro ⟨i, hvalid, hleads⟩
    exact hvalid.not_leadsTo_future hleads

/-- So no request that passes validation comes to these signals, the least offset apart. -/
theorem not_leadsTo_future_of_fault? {w : Witness} (h : w.fault? = none)
    (hoffset : ∀ t, w.time = some t → t.offset ≠ Int32.minValue) :
    ¬ (ContextInput.ofWitness w futurePolicy).LeadsTo futurePolicy
      (futureStatement true 45).signals :=
  (ContextInput.ofWitness_isValid h hoffset).not_leadsTo_future

end AccessContext.R1cs
