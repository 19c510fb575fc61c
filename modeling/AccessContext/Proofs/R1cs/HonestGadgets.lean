import AccessContext.Proofs.R1cs.Gadgets
import AccessContext.Proofs.R1cs.Solutions

/-!
# Honest runs of gadgets

With operands that the prover knows, and within the width that a gadget checks, its constraints
are satisfied by the honest values, and the result carries the product, the comparison or the
quotient. A gadget whose new variables lack no value has operands that the prover knows.
-/

namespace AccessContext.R1cs

open Fin.CommRing
open Circuit

variable {a : Assignment} {s t : Term} {x y : Int}

theorem runs_number {value : Option Scalar} {x : Scalar} (h : value = some x) :
    Runs a (number value) True fun w => w.value = some x ∧ a.value w.var = x := by
  subst h
  unfold number
  exact Runs.bind Runs.fresh fun v hv => Runs.pure ⟨rfl, hv⟩

theorem runs_freshInteger {value : Option Int} (h : value = some x) :
    Runs a (freshInteger value) True fun t => t.Carries a x := by
  subst h
  unfold freshInteger
  exact Runs.bind (runs_number rfl) fun w hw => Runs.pure ⟨rfl, .ofNumber hw.2⟩

theorem runs_freshBit {value : Option Bool} {b : Bool} (h : value = some b) :
    Runs a (freshBit value) True fun t => t.Carries a b.toInt := by
  subst h
  unfold freshBit
  refine Runs.bind runs_bit fun w hw => Runs.pure ⟨?_, ?_⟩
  · show w.value.map Bool.toInt = _
    rw [hw.1]
    rfl
  · show a.eval (.ofVar w.var) = _
    rw [Assignment.eval_ofVar, hw.2, Scalar.ofBool_eq_cast]

theorem runs_mul (hs : s.Carries a x) (ht : t.Carries a y) (h : Fits (x * y)) :
    Runs a (mul s t) True fun p => p.Carries a (x * y) := by
  unfold mul
  have hvalue : combine (fun x y => signed128? (x * y)) s.value t.value = some (x * y) := by
    rw [hs.1, ht.1]
    exact signed128?_of_fits h
  refine Runs.bind (.scope (runs_freshInteger hvalue)) ?_
  intro p hp
  refine Runs.bind (Runs.enforce_true ?_) fun _ _ => Runs.pure hp
  rw [hs.2, ht.2, hp.2, Int.cast_mul]

theorem runs_enforceWidth {width : Nat} (ht : t.Carries a x) (hlow : 0 ≤ x)
    (hwidth : x < 2 ^ width) (hhigh : x < 2 ^ 127) :
    Runs a (enforceWidth t width) True fun _ => True := by
  unfold enforceWidth
  have hbits : (fun j => t.value.map fun n => integerBit n j) =
      fun j => some (x.toNat.testBit j) := by
    funext j
    rw [ht.1, Option.map_some, integerBit_eq_testBit hlow hhigh]
  rw [hbits]
  refine Runs.bind (runs_bitsFrom 0 width) fun ws hws => Runs.equate.weaken (iff_true_intro ?_)
  have hnat : x.toNat < 2 ^ width := by
    rw [Int.toNat_lt hlow]
    exact_mod_cast hwidth
  rw [eval_binaryForm hws.bitsAre, numberOfBits_testBit, pow_zero, Nat.div_one,
    Nat.mod_eq_of_lt hnat, ht.2, ← Int.cast_natCast, Int.toNat_of_nonneg hlow]

/-- The operands of a comparison may differ by as much as the width and 127 bits allow. -/
theorem runs_leq {width : Nat} (hs : s.Carries a x) (ht : t.Carries a y)
    (hlow : -2 ^ width ≤ y - x) (hhigh : y - x < 2 ^ width) (hfits : Fits (y - x)) :
    Runs a (leq s t width) True fun c => c.Carries a (decide (x ≤ y)).toInt := by
  unfold leq
  dsimp only
  have hdiff : (t - s).Carries a (y - x) := ht.sub hs hfits
  obtain ⟨hfits₁, hfits₂⟩ := hfits
  have hflag : (t - s).value.map (fun d => decide (0 ≤ d)) = some (decide (x ≤ y)) := by
    rw [hdiff.1]
    simp
  refine Runs.bind (.scope (runs_freshBit hflag)) ?_
  intro c hc
  have hgatedFits : Fits ((decide (x ≤ y)).toInt * (y - x)) := by
    cases decide (x ≤ y)
    · exact ⟨by simp, by simp⟩
    · simpa [Bool.toInt, Fits] using And.intro hfits₁ hfits₂
  refine Runs.bind (.scope (runs_mul hc hdiff hgatedFits)) ?_
  intro gated hgated
  have hslack : (Term.mk (gated.form.scale 2 - (t - s).form + c.form - .one)
      ((t - s).value.map fun d => if 0 ≤ d then d else -d - 1)).Carries a
        (if x ≤ y then y - x else -(y - x) - 1) := by
    refine ⟨?_, ?_⟩
    · show (t - s).value.map _ = _
      rw [hdiff.1]
      simp
    · simpa using slack_standsFor hc.2 hdiff.2 hgated.2
  refine Runs.bind (.scope (runs_enforceWidth hslack ?_ ?_ ?_)) fun _ _ => Runs.pure hc
  · split
    · omega
    · omega
  · split
    · omega
    · omega
  · split
    · omega
    · omega

theorem runs_lt {width : Nat} (hs : s.Carries a x) (ht : t.Carries a y)
    (hlow : -2 ^ width ≤ y - (x + 1)) (hhigh : y - (x + 1) < 2 ^ width) (hfits : Fits (x + 1))
    (hfits₁ : Fits (y - (x + 1))) :
    Runs a (lt s t width) True fun c => c.Carries a (decide (x < y)).toInt :=
  runs_leq (hs.addConstant hfits) ht hlow hhigh hfits₁

theorem runs_equalBit (hs : s.Carries a x) (ht : t.Carries a y) (hfits : Fits (x - y)) :
    Runs a (equalBit s t) True fun c => c.Carries a (decide (x = y)).toInt := by
  unfold equalBit
  dsimp only
  have hdiff := hs.sub ht hfits
  obtain ⟨hlow, hhigh⟩ := hfits
  have hflag : (s - t).value.map (fun d => decide (d = 0)) = some (decide (x = y)) := by
    rw [hdiff.1, Option.map_some]
    simp [sub_eq_zero]
  refine Runs.bind (.scope (runs_freshBit hflag)) ?_
  intro c hc
  refine Runs.bind (.scope (runs_number (x := (Scalar.ofInt (x - y)).inverse)
    (by rw [hdiff.1]; rfl))) ?_
  intro inverse hinverse
  have heq : decide (x = y) = true ∨ decide (x = y) = false ∧ ((x - y : Int) : Scalar) ≠ 0 := by
    by_cases h : x = y
    · exact .inl (by simpa using h)
    · refine .inr ⟨by simpa using h, fun hzero => h ?_⟩
      have hcast : ((x - y : Int) : Scalar) = ((0 : Int) : Scalar) := hzero.trans Int.cast_zero.symm
      have := Scalar.cast_inj (by omega) (by omega) hcast
      omega
  refine Runs.bind (Runs.enforce_true ?_) fun _ _ => ?_
  · rw [Assignment.eval_sub, Assignment.eval_one, Assignment.eval_ofVar, hdiff.2, hc.2, hinverse.2,
      Scalar.ofInt_eq_cast]
    rcases heq with h | ⟨h, hne⟩
    · have : x - y = 0 := by
        have : x = y := by simpa using h
        omega
      rw [h, this]
      simp [Bool.toInt]
    · rw [h, Scalar.mul_inverse hne]
      simp [Bool.toInt]
  refine Runs.bind (Runs.enforce_true ?_) fun _ _ => Runs.pure hc
  rw [Assignment.eval_zero, hdiff.2, hc.2]
  rcases heq with h | ⟨h, -⟩
  · have : x - y = 0 := by
      have : x = y := by simpa using h
      omega
    rw [this]
    simp
  · rw [h]
    simp [Bool.toInt]

theorem fits_toInt (b : Bool) : Fits b.toInt := by
  cases b
  · exact ⟨by decide, by decide⟩
  · exact ⟨by decide, by decide⟩

theorem runs_implies {flag check : Bool} (hflag : s.Carries a flag.toInt)
    (hcheck : t.Carries a check.toInt) :
    Runs a (implies s t) True fun r => r.Carries a (!flag || check).toInt := by
  unfold implies
  have hproduct : Fits (flag.toInt * check.toInt) := by
    rw [← toInt_and]
    exact fits_toInt _
  refine Runs.bind (.scope (runs_mul hflag hcheck hproduct)) fun gated hgated => Runs.pure ?_
  have hnot : 1 - flag.toInt = (!flag).toInt := by cases flag <;> rfl
  have hsum : 1 - flag.toInt + flag.toInt * check.toInt = (!flag || check).toInt := by
    cases flag <;> cases check <;> rfl
  have h := ((Term.Carries.constant 1).sub hflag (by rw [hnot]; exact fits_toInt _)).add hgated
    (by rw [hsum]; exact fits_toInt _)
  rwa [hsum] at h

/-- Whether terms carry integers, one each. -/
def CarryAll (a : Assignment) (ts : List Term) (xs : List Int) : Prop :=
  List.Forall₂ (fun t x => t.Carries a x) ts xs

/-- A product of terms, none of whose parts from the left leaves 128 bits. -/
theorem runs_conjunctionFrom {k : Nat} {acc : Term} {ts : List Term} {xs : List Int}
    (hacc : acc.Carries a x) (hts : CarryAll a ts xs) (h : ∀ ys, ys <+: xs → Fits (x * ys.prod)) :
    Runs a (conjunctionFrom k acc ts) True fun r => r.Carries a (x * xs.prod) := by
  induction hts generalizing k acc x with
  | nil => exact Runs.pure (by simpa using hacc)
  | @cons t y _ ys ht _ ih =>
    have hproduct : Fits (x * y) := by
      simpa using h [y] (List.prefix_append [y] ys)
    refine Runs.bind (.scope (runs_mul hacc ht hproduct)) ?_
    intro next hnext
    refine (ih hnext fun zs hzs => ?_).mono fun r hr => ?_
    · have hfits := h (y :: zs) ((List.prefix_cons_inj y).mpr hzs)
      rwa [List.prod_cons, ← mul_assoc] at hfits
    · rwa [List.prod_cons, ← mul_assoc]

/-- Whether terms carry truth values. -/
def CarryBits (a : Assignment) (ts : List Term) (bs : List Bool) : Prop :=
  List.Forall₂ (fun t b => t.Carries a b.toInt) ts bs

theorem prod_map_toInt (bs : List Bool) : (bs.map Bool.toInt).prod = (bs.all id).toInt := by
  induction bs with
  | nil => rfl
  | cons b bs ih => rw [List.map_cons, List.prod_cons, ih, List.all_cons, id, toInt_and]

theorem runs_conjunction {ts : List Term} {bs : List Bool} (hts : CarryBits a ts bs) :
    Runs a (conjunction ts) True fun r => r.Carries a (bs.all id).toInt := by
  have hall : CarryAll a ts (bs.map Bool.toInt) := List.forall₂_map_right_iff.mpr hts
  have hfits : ∀ ys, ys <+: bs.map Bool.toInt → Fits (1 * ys.prod) := by
    intro ys hys
    obtain ⟨cs, -, rfl⟩ := List.prefix_map_iff.mp hys
    rw [one_mul, prod_map_toInt]
    exact fits_toInt _
  refine (runs_conjunctionFrom (.constant 1) hall hfits).mono fun r hr => ?_
  rwa [one_mul, prod_map_toInt] at hr

theorem runs_divideDown {d : Int} (ht : t.Carries a x) (hx : 0 ≤ x) (hhigh : x < 2 ^ 64 * d)
    (hd : 0 < d) (hdhigh : d ≤ 2 ^ 8) :
    Runs a (divideDown t d) True fun q => q.Carries a (x / d) := by
  unfold divideDown
  have hq : 0 ≤ x / d := Int.ediv_nonneg hx hd.le
  have hqhigh : x / d < 2 ^ 64 := Int.ediv_lt_of_lt_mul hd hhigh
  have hr : 0 ≤ x % d := Int.emod_nonneg x hd.ne'
  have hrhigh : x % d < d := Int.emod_lt_of_pos x hd
  have hsplit : x / d * d + x % d = x := by
    rw [mul_comm]
    exact Int.mul_ediv_add_emod x d
  refine Runs.bind (.scope (runs_freshInteger (x := x / d) (by rw [ht.1]; rfl))) ?_
  intro quotient hquotient
  refine Runs.bind (.scope (runs_freshInteger (x := x % d) (by rw [ht.1]; rfl))) ?_
  intro remainder hremainder
  refine Runs.next (.scope (runs_enforceWidth hquotient hq hqhigh (by omega))) ?_
  refine Runs.next (.scope (runs_enforceWidth hremainder hr (by omega) (by omega))) ?_
  have hbelow := (Term.Carries.constant (d - 1)).sub hremainder ⟨by omega, by omega⟩
  refine Runs.next (.scope (runs_enforceWidth hbelow (by omega) (by omega) (by omega))) ?_
  refine Runs.bind (Runs.equate.weaken (iff_true_intro ?_)) fun _ _ => Runs.pure hquotient
  have hsum := hquotient.2.scale (k := d) |>.add hremainder.2
  rw [hsplit] at hsum
  exact hsum.trans ht.2.symm

/-! ### Values that gadgets need -/

theorem isSome_of_complete_freshInteger {value : Option Int} {n : Nat}
    (h : Step.Complete (freshInteger value n).2) : value.isSome = true := by
  have hvalue := complete_fresh.mp (complete_bind.mp (complete_bind.mp h).1).1
  rwa [Option.isSome_map] at hvalue

theorem isSome_of_complete_freshBit {value : Option Bool} {n : Nat}
    (h : Step.Complete (freshBit value n).2) : value.isSome = true := by
  have hvalue := complete_fresh.mp (complete_bind.mp (complete_bind.mp h).1).1
  rwa [Option.isSome_map] at hvalue

section Operands

variable {p q : Prop} {n : Nat} (hs : Reveals s.value x p) (ht : Reveals t.value y q)

include hs ht

/-- A product has a variable of its own, which needs the value. -/
theorem known_of_complete_mul (h : Step.Complete (mul s t n).2) : p ∧ q ∧ Fits (x * y) := by
  have hproduct := complete_scope.mp (complete_bind.mp h).1
  exact (hs.combine ht).of_isSome (isSome_of_complete_freshInteger hproduct)

/-- The bit of an equality needs the difference. -/
theorem known_of_complete_equalBit (h : Step.Complete (equalBit s t n).2) :
    p ∧ q ∧ Fits (x - y) := by
  have hbit := isSome_of_complete_freshBit (complete_scope.mp (complete_bind.mp h).1)
  rw [Option.isSome_map] at hbit
  exact (hs.combine ht).of_isSome hbit

/-- So does that of a comparison. -/
theorem known_of_complete_leq {width : Nat} (h : Step.Complete (leq s t width n).2) :
    q ∧ p ∧ Fits (y - x) := by
  have hbit := isSome_of_complete_freshBit (complete_scope.mp (complete_bind.mp h).1)
  rw [Option.isSome_map] at hbit
  exact (ht.combine hs).of_isSome hbit

end Operands

end AccessContext.R1cs
