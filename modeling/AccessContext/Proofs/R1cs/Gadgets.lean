import AccessContext.Proofs.R1cs.Bits
import AccessContext.Proofs.R1cs.Names
import AccessContext.Proofs.R1cs.Terms

/-!
# What gadgets force

For any assignment that satisfies its constraints, a gadget on terms that stand for integers
gives a term that stands for the product, the comparison or the quotient of the integers. No
operand has to be known to the prover. The bounds exclude that scalars wrap around. Where a
relation is read by the names of its variables, the gadget says what its own variables are.
-/

namespace AccessContext.R1cs

open Fin.CommRing
open Circuit

theorem toInt_and (b c : Bool) : (b && c).toInt = b.toInt * c.toInt := by
  cases b <;> cases c <;> rfl

variable {a : Assignment} {s t : Term} {x y : Int} {known : Path → Scalar → Prop}

theorem shows_number {value : Option Scalar} :
    Shows a known (number value) fun w => known ["num"] (a.value w.var) := by
  unfold number
  exact Shows.bind .fresh fun _ hv => Shows.pure hv

theorem shows_freshInteger {value : Option Int} :
    Shows a known (freshInteger value) fun t => known ["num"] (a.eval t.form) := by
  unfold freshInteger
  refine Shows.bind shows_number fun w hw => Shows.pure ?_
  show known ["num"] (a.eval (.ofVar w.var))
  rwa [Assignment.eval_ofVar]

theorem shows_freshBit {value : Option Bool} :
    Shows a known (freshBit value) fun t =>
      ∃ b : Bool, known ["boolean"] (.ofBool b) ∧ t.StandsFor a b.toInt := by
  unfold freshBit
  refine Shows.bind shows_bit ?_
  rintro w ⟨b, hknown, hb⟩
  refine Shows.pure ⟨b, hknown, ?_⟩
  show a.eval (.ofVar w.var) = _
  rw [Assignment.eval_ofVar, hb, Scalar.ofBool_eq_cast]

theorem forces_freshBit {value : Option Bool} :
    Forces a (freshBit value) fun t => ∃ b : Bool, t.StandsFor a b.toInt :=
  shows_freshBit.forces.mono fun _ ⟨b, _, hb⟩ => ⟨b, hb⟩

theorem shows_mul (hs : s.StandsFor a x) (ht : t.StandsFor a y) :
    Shows a known (mul s t) fun p =>
      known ["product", "num"] (.ofInt (x * y)) ∧ p.StandsFor a (x * y) := by
  unfold mul
  refine Shows.bind (.scope shows_freshInteger) ?_
  intro p hp
  refine Shows.next .enforce fun _ h => Shows.pure ?_
  have hproduct : p.StandsFor a (x * y) := by
    show a.eval p.form = _
    rw [← h, hs, ht, Int.cast_mul]
  exact ⟨hproduct.known hp, hproduct⟩

theorem forces_mul (hs : s.StandsFor a x) (ht : t.StandsFor a y) :
    Forces a (mul s t) fun p => p.StandsFor a (x * y) :=
  (shows_mul hs ht).forces.mono fun _ h => h.2

theorem forces_enforceWidth {width : Nat} :
    Forces a (enforceWidth t width) fun _ =>
      ∃ k : Int, 0 ≤ k ∧ k < 2 ^ width ∧ t.StandsFor a k := by
  unfold enforceWidth
  refine Forces.bind (forces_bitsFrom 0 width) ?_
  intro ws hws
  obtain ⟨bs, hlength, hbs⟩ := hws
  refine Forces.equate.mono fun _ h => ⟨numberOfBits bs, by omega, ?_, ?_⟩
  · have := numberOfBits_lt bs
    rw [hlength] at this
    exact_mod_cast this
  · rw [eval_binaryForm hbs] at h
    show a.eval t.form = _
    rw [← h, Int.cast_natCast]

/-- The slack of a comparison is the difference or its complement, as the bit says. -/
theorem slack_standsFor {c diff gated : Term} {b : Bool} {d : Int} {value : Option Int}
    (hc : c.StandsFor a b.toInt) (hdiff : diff.StandsFor a d)
    (hgated : gated.StandsFor a (b.toInt * d)) :
    (Term.mk (gated.form.scale 2 - diff.form + c.form - .one) value).StandsFor a
      (if b then d else -d - 1) := by
  show a.eval (gated.form.scale 2 - diff.form + c.form - .one) = _
  simp only [Assignment.eval_sub, Assignment.eval_add, Assignment.eval_scale, Assignment.eval_one]
  rw [hc, hdiff, hgated]
  cases b
  · simp [Bool.toInt]
  · simp [Bool.toInt]
    ring

theorem forces_leq {width : Nat} (hs : s.StandsFor a x) (ht : t.StandsFor a y)
    (hlow : -2 ^ 190 < y - x) (hhigh : y - x < 2 ^ 190) (hwidth : width ≤ 190) :
    Forces a (leq s t width) fun c => c.StandsFor a (decide (x ≤ y)).toInt := by
  unfold leq
  dsimp only
  refine Forces.bind (.scope forces_freshBit) ?_
  intro c hc
  obtain ⟨b, hc⟩ := hc
  refine Forces.bind (.scope (forces_mul hc (ht.sub hs))) ?_
  intro gated hgated
  refine Forces.bind (.scope forces_enforceWidth) fun _ hwide => Forces.pure ?_
  obtain ⟨k, hk, hkwidth, hslack⟩ := hwide
  have hkbound : k < 2 ^ 190 :=
    hkwidth.trans_le (pow_le_pow_right₀ (by decide) hwidth)
  have heq := (slack_standsFor hc (ht.sub hs) hgated).unique hslack
  have hbit : b = decide (x ≤ y) := by
    cases b with
    | true =>
      have := heq (by simp; omega) (by simp; omega)
      simp at this ⊢
      omega
    | false =>
      have := heq (by simp; omega) (by simp; omega)
      simp at this ⊢
      omega
  rwa [← hbit]

theorem forces_lt {width : Nat} (hs : s.StandsFor a x) (ht : t.StandsFor a y)
    (hlow : -2 ^ 189 < y - x) (hhigh : y - x < 2 ^ 189) (hwidth : width ≤ 190) :
    Forces a (lt s t width) fun c => c.StandsFor a (decide (x < y)).toInt :=
  forces_leq hs.addConstant ht (by omega) (by omega) hwidth

theorem forces_equalBit (hs : s.StandsFor a x) (ht : t.StandsFor a y)
    (hlow : -2 ^ 192 < x - y) (hhigh : x - y < 2 ^ 192) :
    Forces a (equalBit s t) fun c => c.StandsFor a (decide (x = y)).toInt := by
  unfold equalBit
  dsimp only
  refine Forces.bind (.scope forces_freshBit) ?_
  intro c hc
  obtain ⟨b, hc⟩ := hc
  refine Forces.skip ?_
  intro inverse
  refine Forces.bind Forces.enforce ?_
  intro _ hinverse
  refine Forces.bind Forces.enforce fun _ hzero => Forces.pure ?_
  have hdiff := hs.sub ht
  rw [Assignment.eval_sub, Assignment.eval_one, hc, hdiff] at hinverse
  rw [Assignment.eval_zero, hc, hdiff] at hzero
  have hbit : b = decide (x = y) := by
    cases b with
    | true =>
      have : ((x - y : Int) : Scalar) = ((0 : Int) : Scalar) := by simpa [Bool.toInt] using hzero
      have := Scalar.cast_inj (by omega) (by omega) this
      simp
      omega
    | false =>
      have : x ≠ y := by
        rintro rfl
        simp [Bool.toInt] at hinverse
        exact absurd hinverse (by decide)
      simpa using this
  rwa [← hbit]

theorem forces_implies {flag check : Bool} (hflag : s.StandsFor a flag.toInt)
    (hcheck : t.StandsFor a check.toInt) :
    Forces a (implies s t) fun r => r.StandsFor a (!flag || check).toInt := by
  unfold implies
  refine Forces.bind (.scope (forces_mul hflag hcheck)) fun gated hgated => Forces.pure ?_
  have h := ((Term.StandsFor.constant 1).sub hflag).add hgated
  cases flag
  · simpa [Bool.toInt] using h
  · simpa [Bool.toInt] using h

/-- Whether terms stand for truth values. -/
def StandForBits (a : Assignment) (ts : List Term) (bs : List Bool) : Prop :=
  List.Forall₂ (fun t b => t.StandsFor a b.toInt) ts bs

theorem forces_conjunctionFrom {k : Nat} {acc : Term} {b : Bool} {ts : List Term} {bs : List Bool}
    (hacc : acc.StandsFor a b.toInt) (hts : StandForBits a ts bs) :
    Forces a (conjunctionFrom k acc ts) fun r => r.StandsFor a (b && bs.all id).toInt := by
  induction hts generalizing k acc b with
  | nil => exact Forces.pure (by simpa using hacc)
  | cons ht _ ih =>
    refine Forces.bind (.scope (forces_mul hacc ht)) ?_
    intro next hnext
    rw [← toInt_and] at hnext
    refine (ih hnext).mono fun r hr => ?_
    simpa [Bool.and_assoc] using hr

theorem forces_conjunction {ts : List Term} {bs : List Bool} (hts : StandForBits a ts bs) :
    Forces a (conjunction ts) fun r => r.StandsFor a (bs.all id).toInt :=
  forces_conjunctionFrom (b := true) (.constant 1) hts

/-- The quotient is the variable of that name. -/
theorem shows_divideDown {d : Int} (ht : t.StandsFor a x) (hx : 0 ≤ x) (hhigh : x < 2 ^ 100)
    (hd : 0 < d) (hdhigh : d ≤ 2 ^ 8) :
    Shows a known (divideDown t d) fun q =>
      known ["quotient", "num"] (.ofInt (x / d)) ∧ q.StandsFor a (x / d) := by
  unfold divideDown
  refine Shows.bind (.scope shows_freshInteger) ?_
  intro quotient hknown
  refine Shows.next .trivial ?_
  intro remainder _
  refine Shows.next (.scope forces_enforceWidth) ?_
  intro _ hquotient
  obtain ⟨q, hq, hqwidth, hquotient⟩ := hquotient
  refine Shows.next (.scope forces_enforceWidth) ?_
  intro _ hremainder
  obtain ⟨r, hr, hrwidth, hremainder⟩ := hremainder
  refine Shows.next (.scope forces_enforceWidth) ?_
  intro _ hbelow
  obtain ⟨k, hk, hkwidth, hbelow⟩ := hbelow
  refine Shows.next .equate fun _ hdivision => Shows.pure ?_
  have hroom := (Term.StandsFor.constant (a := a) (d - 1)).sub hremainder
  have hbelow := hroom.unique hbelow (by omega) (by omega)
  have hproduct : q * d ≤ 2 ^ 64 * 2 ^ 8 := mul_le_mul hqwidth.le hdhigh hd.le (by decide)
  have hproduct₀ : 0 ≤ q * d := mul_nonneg hq hd.le
  have hsum : q * d + r = x :=
    (hquotient.scale.add hremainder).unique (hdivision.trans ht) (by omega) (by omega)
  have hdiv : x / d = q :=
    ((Int.ediv_emod_unique hd).mpr ⟨by rw [← hsum]; ring, hr, by omega⟩).1
  rw [hdiv]
  exact ⟨hquotient.known hknown, hquotient⟩

end AccessContext.R1cs
