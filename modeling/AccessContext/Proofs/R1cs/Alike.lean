import AccessContext.Proofs.R1cs.Triple
import AccessContext.R1cs.Gadget

/-!
# Circuits of one shape

The shape of a circuit is what is left of it without the honest values: the names of its variables
in the order of allocation, and its constraints. Two circuits are alike if they have the same shape
from every number of variables on, so that parameters made for one serve the other. This is a third
reading of circuits, which follows two of them at once; no value has to be known in it, or be right.
-/

namespace AccessContext.R1cs

namespace Step

/-- The step without its value. -/
def shape : Step → Step
  | wire path _ => .wire path none
  | constraint c => .constraint c

theorem total_map_shape (steps : List Step) : total (steps.map shape) = total steps := by
  induction steps with
  | nil => rfl
  | cons step rest ih =>
    show step.shape.size + total (rest.map shape) = step.size + total rest
    rw [ih]
    cases step <;> rfl

theorem total_eq_of_shape {steps steps' : List Step} (h : steps.map shape = steps'.map shape) :
    total steps = total steps' := by
  rw [← total_map_shape steps, h, total_map_shape steps']

theorem shape_under (name : String) (step : Step) :
    (step.under name).shape = step.shape.under name := by
  cases step <;> rfl

theorem map_shape_under (name : String) (steps : List Step) :
    (steps.map (under name)).map shape = (steps.map shape).map (under name) := by
  simp only [List.map_map, List.map_inj_left, Function.comp_apply, shape_under, implies_true]

end Step

/-! ### Systems -/

namespace System

/-- The names of the variables in the order of allocation, and the constraints. -/
def shape (s : System) : Array Path × Array Constraint :=
  (s.aux.map Variable.path, s.constraints)

theorem shape_extended_map_shape {s s' : System} (h : s.shape = s'.shape) (steps : List Step) :
    (s.extended steps).shape = (s'.extended (steps.map Step.shape)).shape := by
  induction steps generalizing s s' with
  | nil => exact h
  | cons step rest ih =>
    obtain ⟨haux, hconstraints⟩ := Prod.ext_iff.mp h
    cases step with
    | wire path value =>
      refine ih (Prod.ext ?_ hconstraints)
      show (s.aux.push _).map Variable.path = (s'.aux.push _).map Variable.path
      rw [Array.map_push, Array.map_push]
      exact congrArg (Array.push · path) haux
    | constraint c => exact ih (Prod.ext haux (congrArg (Array.push · c) hconstraints))

/-- The shape of a system depends on the shape of what it took alone. -/
theorem shape_extended {s s' : System} (h : s.shape = s'.shape) {steps steps' : List Step}
    (hsteps : steps.map Step.shape = steps'.map Step.shape) :
    (s.extended steps).shape = (s'.extended steps').shape := by
  rw [shape_extended_map_shape h, hsteps, ← shape_extended_map_shape rfl]

theorem size_eq_of_shape {s s' : System} (h : s.shape = s'.shape) : s.aux.size = s'.aux.size := by
  have hsize := congrArg (fun p => p.1.size) h
  simpa [shape] using hsize

end System

/-! ### Pairs of circuits -/

namespace Circuit

variable {α β : Type} {c c' : Circuit α} {f f' : α → Circuit β}

/-- Whether two circuits have the same shape, and `R` is true of their results. -/
def Alike (c c' : Circuit α) (R : α → α → Prop) : Prop :=
  ∀ n, (c n).2.map Step.shape = (c' n).2.map Step.shape ∧ R (c n).1 (c' n).1

namespace Alike

variable {P : α → α → Prop} {Q : β → β → Prop}

theorem pure {x x' : α} (h : P x x') : Alike (Pure.pure x) (Pure.pure x') P :=
  fun _ => ⟨rfl, h⟩

theorem bind (hc : Alike c c' P) (hf : ∀ x x', P x x' → Alike (f x) (f' x') Q) :
    Alike (c >>= f) (c' >>= f') Q := by
  intro n
  obtain ⟨hshape, hP⟩ := hc n
  obtain ⟨hshape₂, hQ⟩ := hf _ _ hP (n + Step.total (c n).2)
  rw [bind_result, bind_result, ← Step.total_eq_of_shape hshape]
  refine ⟨?_, hQ⟩
  rw [List.map_append, List.map_append, hshape, hshape₂]

/-- Circuits without a result. -/
theorem next {c c' : Circuit Unit} {P : Unit → Unit → Prop} {f f' : Unit → Circuit β}
    (hc : Alike c c' P) (hf : Alike (f ()) (f' ()) Q) : Alike (c >>= f) (c' >>= f') Q :=
  hc.bind fun _ _ _ => hf

theorem scope {name : String} (h : Alike c c' P) : Alike (c.scope name) (c'.scope name) P := by
  intro n
  rw [scope_result, scope_result]
  refine ⟨?_, (h n).2⟩
  rw [Step.map_shape_under, Step.map_shape_under, (h n).1]

theorem mono {P' : α → α → Prop} (h : Alike c c' P) (himp : ∀ x x', P x x' → P' x x') :
    Alike c c' P' :=
  fun n => ⟨(h n).1, himp _ _ (h n).2⟩

/-- What is put on equal forms is the same constraint. -/
theorem enforce {name : String} {left right product left' right' product' : LinearForm}
    (hleft : left = left') (hright : right = right') (hproduct : product = product') :
    Alike (enforce name left right product) (enforce name left' right' product')
      fun _ _ => True := by
  subst hleft hright hproduct
  exact fun _ => ⟨rfl, .intro⟩

theorem equate {name : String} {left right left' right' : LinearForm} (hleft : left = left')
    (hright : right = right') :
    Alike (equate name left right) (equate name left' right') fun _ _ => True :=
  enforce hleft rfl hright

theorem fresh {name : String} {x x' : Option Scalar} :
    Alike (fresh name x) (fresh name x') fun v v' => v = v' :=
  fun _ => ⟨rfl, rfl⟩

/-- Alike circuits, run in systems of one shape, leave systems of one shape. -/
theorem run {s s' t t' : System} {x x' : α} (h : Alike c c' P) (hs : s.shape = s'.shape)
    (hrun : c.run s = (t, .ok x)) (hrun' : c'.run s' = (t', .ok x')) :
    t.shape = t'.shape ∧ P x x' := by
  obtain ⟨rfl, rfl⟩ := run_eq_ok hrun
  obtain ⟨rfl, rfl⟩ := run_eq_ok hrun'
  rw [← System.size_eq_of_shape hs]
  obtain ⟨hshape, hP⟩ := h s.aux.size
  exact ⟨System.shape_extended hs hshape, hP⟩

end Alike

end Circuit

/-! ### Terms -/

/-- Whether two terms have the same form. Their integers may differ or be missing. -/
def Term.SameForm (t t' : Term) : Prop :=
  t.form = t'.form

namespace Term.SameForm

variable {s s' t t' : Term} {k : Int}

theorem refl (t : Term) : t.SameForm t :=
  rfl

theorem add (hs : s.SameForm s') (ht : t.SameForm t') : (s + t).SameForm (s' + t') :=
  congrArg₂ (fun f g : LinearForm => f + g) hs ht

theorem sub (hs : s.SameForm s') (ht : t.SameForm t') : (s - t).SameForm (s' - t') :=
  congrArg₂ (fun f g : LinearForm => f - g) hs ht

theorem scale (ht : t.SameForm t') : (t.scale k).SameForm (t'.scale k) :=
  congrArg (LinearForm.scale (.ofInt k)) ht

theorem addConstant (ht : t.SameForm t') : (t.addConstant k).SameForm (t'.addConstant k) :=
  ht.add (refl _)

theorem ofNumber {w w' : Wire Scalar} (h : w.var = w'.var) :
    (Term.ofNumber w).SameForm (Term.ofNumber w') :=
  congrArg LinearForm.ofVar h

theorem ofBit {w w' : Wire Bool} (h : w.var = w'.var) : (Term.ofBit w).SameForm (Term.ofBit w') :=
  congrArg LinearForm.ofVar h

end Term.SameForm

/-! ### Gadgets -/

open Circuit

theorem alike_number {x x' : Option Scalar} :
    Alike (number x) (number x') fun w w' => w.var = w'.var := by
  unfold number
  exact .bind .fresh fun _ _ hv => .pure hv

theorem alike_bit {x x' : Option Bool} : Alike (bit x) (bit x') fun w w' => w.var = w'.var := by
  unfold bit
  refine .bind .fresh ?_
  rintro v _ rfl
  exact .next (.enforce rfl rfl rfl) (.pure rfl)

theorem alike_bitsFrom {name : String} {value value' : Nat → Option Bool} (j count : Nat) :
    Alike (bitsFrom name value j count) (bitsFrom name value' j count)
      fun ws ws' => ws.map Wire.var = ws'.map Wire.var := by
  induction count generalizing j with
  | zero => exact .pure rfl
  | succ count ih =>
    refine .bind (.scope alike_bit) ?_
    intro w w' hw
    refine .bind (ih (j + 1)) ?_
    intro ws ws' hws
    exact .pure (List.cons_eq_cons.mpr ⟨hw, hws⟩)

theorem alike_numbersFrom {name : String} {values values' : List Scalar} (i : Nat)
    (h : values.length = values'.length) :
    Alike (numbersFrom name i values) (numbersFrom name i values')
      fun ws ws' => ws.map Wire.var = ws'.map Wire.var := by
  induction values generalizing i values' with
  | nil =>
    obtain rfl := List.length_eq_zero_iff.mp h.symm
    exact .pure rfl
  | cons x xs ih =>
    cases values' with
    | nil => cases h
    | cons x' xs' =>
      refine .bind (.scope alike_number) ?_
      intro w w' hw
      refine .bind (ih (i + 1) (Nat.succ.inj h)) ?_
      intro ws ws' hws
      exact .pure (List.cons_eq_cons.mpr ⟨hw, hws⟩)

variable {s s' t t' : Term}

theorem alike_freshInteger {x x' : Option Int} :
    Alike (freshInteger x) (freshInteger x') Term.SameForm := by
  unfold freshInteger
  exact .bind alike_number fun _ _ hw => .pure (congrArg LinearForm.ofVar hw)

theorem alike_freshBit {x x' : Option Bool} :
    Alike (freshBit x) (freshBit x') Term.SameForm := by
  unfold freshBit
  exact .bind alike_bit fun _ _ hw => .pure (.ofBit hw)

theorem alike_mul (hs : s.SameForm s') (ht : t.SameForm t') :
    Alike (mul s t) (mul s' t') Term.SameForm := by
  unfold mul
  refine .bind (.scope alike_freshInteger) ?_
  intro product product' hproduct
  exact .next (.enforce hs ht hproduct) (.pure hproduct)

theorem alike_equateTerms {name : String} (hs : s.SameForm s') (ht : t.SameForm t') :
    Alike (equateTerms name s t) (equateTerms name s' t') fun _ _ => True :=
  .equate hs ht

theorem alike_enforceWidth {width : Nat} (ht : t.SameForm t') :
    Alike (enforceWidth t width) (enforceWidth t' width) fun _ _ => True := by
  unfold enforceWidth
  refine .bind (alike_bitsFrom 0 width) ?_
  intro bits bits' hbits
  exact .equate (congrArg LinearForm.ofBits hbits) ht

theorem alike_leq {width : Nat} (hs : s.SameForm s') (ht : t.SameForm t') :
    Alike (leq s t width) (leq s' t' width) Term.SameForm := by
  unfold leq
  dsimp only
  have hdiff : (t - s).SameForm (t' - s') := ht.sub hs
  refine .bind (.scope alike_freshBit) ?_
  intro c c' hc
  refine .bind (.scope (alike_mul hc hdiff)) ?_
  intro gated gated' hgated
  refine .next (.scope (alike_enforceWidth ?_)) (.pure hc)
  show gated.form.scale 2 - (t - s).form + c.form - .one =
    gated'.form.scale 2 - (t' - s').form + c'.form - .one
  rw [hgated, hdiff, hc]

theorem alike_lt {width : Nat} (hs : s.SameForm s') (ht : t.SameForm t') :
    Alike (lt s t width) (lt s' t' width) Term.SameForm :=
  alike_leq hs.addConstant ht

theorem alike_equalBit (hs : s.SameForm s') (ht : t.SameForm t') :
    Alike (equalBit s t) (equalBit s' t') Term.SameForm := by
  unfold equalBit
  dsimp only
  refine .bind (.scope alike_freshBit) ?_
  intro eq eq' heq
  refine .bind (.scope alike_number) ?_
  intro inverse inverse' hinverse
  have hunequal : LinearForm.one - eq.form = .one - eq'.form :=
    congrArg (fun f : LinearForm => .one - f) heq
  refine .next (.enforce (hs.sub ht) (congrArg LinearForm.ofVar hinverse) hunequal) ?_
  exact .next (.enforce (hs.sub ht) heq rfl) (.pure heq)

theorem alike_implies (hs : s.SameForm s') (ht : t.SameForm t') :
    Alike (implies s t) (implies s' t') Term.SameForm := by
  unfold implies
  refine .bind (.scope (alike_mul hs ht)) ?_
  intro gated gated' hgated
  exact .pure (((Term.SameForm.refl _).sub hs).add hgated)

theorem alike_conjunctionFrom {k : Nat} {ts ts' : List Term} (hs : s.SameForm s')
    (hts : List.Forall₂ Term.SameForm ts ts') :
    Alike (conjunctionFrom k s ts) (conjunctionFrom k s' ts') Term.SameForm := by
  induction hts generalizing k s s' with
  | nil => exact .pure hs
  | cons ht _ ih => exact .bind (.scope (alike_mul hs ht)) fun _ _ hnext => ih hnext

theorem alike_conjunction {ts ts' : List Term} (hts : List.Forall₂ Term.SameForm ts ts') :
    Alike (conjunction ts) (conjunction ts') Term.SameForm :=
  alike_conjunctionFrom (.refl _) hts

theorem alike_divideDown {d : Int} (ht : t.SameForm t') :
    Alike (divideDown t d) (divideDown t' d) Term.SameForm := by
  unfold divideDown
  refine .bind (.scope alike_freshInteger) ?_
  intro quotient quotient' hquotient
  refine .bind (.scope alike_freshInteger) ?_
  intro remainder remainder' hremainder
  refine .next (.scope (alike_enforceWidth hquotient)) ?_
  refine .next (.scope (alike_enforceWidth hremainder)) ?_
  refine .next (.scope (alike_enforceWidth ((Term.SameForm.refl _).sub hremainder))) ?_
  exact .next (alike_equateTerms (hquotient.scale.add hremainder) ht) (.pure hquotient)

end AccessContext.R1cs
