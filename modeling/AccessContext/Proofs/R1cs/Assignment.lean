import AccessContext.R1cs.Circuit
import Mathlib.Data.ZMod.Defs
import Mathlib.Tactic.Ring

/-!
# Assignments

Values for all variables of a circuit, chosen by anyone. An assignment may satisfy the
constraints among some steps, and it may follow the honest values in them; neither implies the
other.
-/

namespace AccessContext.R1cs

open Fin.CommRing

/-- Values of all variables. -/
structure Assignment where
  value : Var → Scalar
  value_one : value .one = 1

namespace Assignment

variable (a : Assignment)

/-- The value of a form. -/
def eval (f : LinearForm) : Scalar :=
  f.eval a.value

theorem evalTerms_append (assign : Var → Scalar) (s t : List (Scalar × Var)) :
    LinearForm.evalTerms assign (s ++ t) =
      LinearForm.evalTerms assign s + LinearForm.evalTerms assign t := by
  induction s with
  | nil => simp [LinearForm.evalTerms]
  | cons head s ih =>
    simp only [List.cons_append, LinearForm.evalTerms, ih]
    ring

theorem evalTerms_map_mul (assign : Var → Scalar) (k : Scalar) (s : List (Scalar × Var)) :
    LinearForm.evalTerms assign (s.map fun (c, v) => (k * c, v)) =
      k * LinearForm.evalTerms assign s := by
  induction s with
  | nil => simp [LinearForm.evalTerms]
  | cons head s ih =>
    simp only [List.map_cons, LinearForm.evalTerms, ih]
    ring

theorem evalTerms_map_neg (assign : Var → Scalar) (s : List (Scalar × Var)) :
    LinearForm.evalTerms assign (s.map fun (c, v) => (-c, v)) =
      -LinearForm.evalTerms assign s := by
  induction s with
  | nil => simp [LinearForm.evalTerms]
  | cons head s ih =>
    simp only [List.map_cons, LinearForm.evalTerms, ih]
    ring

@[simp] theorem eval_add (f g : LinearForm) : a.eval (f + g) = a.eval f + a.eval g :=
  evalTerms_append a.value f.terms g.terms

@[simp] theorem eval_sub (f g : LinearForm) : a.eval (f - g) = a.eval f - a.eval g := by
  have h := evalTerms_append a.value f.terms (g.terms.map fun (c, v) => (-c, v))
  rw [evalTerms_map_neg, ← sub_eq_add_neg] at h
  exact h

@[simp] theorem eval_scale (k : Scalar) (f : LinearForm) : a.eval (f.scale k) = k * a.eval f :=
  evalTerms_map_mul a.value k f.terms

@[simp] theorem eval_ofVar (v : Var) : a.eval (.ofVar v) = a.value v := by
  simp [eval, LinearForm.eval, LinearForm.ofVar, LinearForm.evalTerms]

@[simp] theorem eval_constant (k : Scalar) : a.eval (.constant k) = k := by
  simp [eval, LinearForm.eval, LinearForm.constant, LinearForm.evalTerms, a.value_one]

@[simp] theorem eval_one : a.eval .one = 1 := by
  simp [LinearForm.one, a.value_one]

@[simp] theorem eval_zero : a.eval 0 = 0 := rfl

theorem holds_iff (c : Constraint) :
    c.holds a.value = true ↔ a.eval c.left * a.eval c.right = a.eval c.product := by
  simp [Constraint.holds, eval]

end Assignment

/-! ### Steps -/

namespace Step

variable (a : Assignment)

/-- Whether the constraint of a step, if it is one, is satisfied. -/
def IsSatisfied : Step → Prop
  | wire _ _ => True
  | constraint c => c.holds a.value = true

/-- Whether the honest value of a step, if it is a variable, is known. -/
def IsKnown : Step → Prop
  | wire _ value => value.isSome = true
  | constraint _ => True

/-- Whether all constraints among steps are satisfied. -/
def Hold (steps : List Step) : Prop :=
  ∀ step ∈ steps, step.IsSatisfied a

/-- Whether no honest value is missing. -/
def Complete (steps : List Step) : Prop :=
  ∀ step ∈ steps, step.IsKnown

/-- Whether the variables of steps, the first of which has number `n`, have the honest values
that are known. -/
def Follow : Nat → List Step → Prop
  | _, [] => True
  | n, .wire _ value :: rest => (∀ x, value = some x → a.value (.aux n) = x) ∧ Follow (n + 1) rest
  | n, .constraint _ :: rest => Follow n rest

theorem hold_append {s t : List Step} : Hold a (s ++ t) ↔ Hold a s ∧ Hold a t :=
  List.forall_mem_append

theorem complete_append {s t : List Step} : Complete (s ++ t) ↔ Complete s ∧ Complete t :=
  List.forall_mem_append

theorem follow_append {n : Nat} {s t : List Step} :
    Follow a n (s ++ t) ↔ Follow a n s ∧ Follow a (n + total s) t := by
  induction s generalizing n with
  | nil => simp [Follow, total]
  | cons step s ih =>
    cases step with
    | wire path value => simp [Follow, total, size, ih, and_assoc, Nat.add_assoc]
    | constraint c => simp [Follow, total, size, ih]

theorem hold_map_under {scope : String} {s : List Step} :
    Hold a (s.map (under scope)) ↔ Hold a s := by
  have h (step : Step) : (under scope step).IsSatisfied a ↔ step.IsSatisfied a := by
    cases step <;> rfl
  simp [Hold, h]

theorem complete_map_under {scope : String} {s : List Step} :
    Complete (s.map (under scope)) ↔ Complete s := by
  have h (step : Step) : (under scope step).IsKnown ↔ step.IsKnown := by
    cases step <;> rfl
  simp [Complete, h]

theorem follow_map_under {scope : String} {n : Nat} {s : List Step} :
    Follow a n (s.map (under scope)) ↔ Follow a n s := by
  induction s generalizing n with
  | nil => rfl
  | cons step s ih =>
    cases step with
    | wire path value => simp [Follow, under, ih]
    | constraint c => simp [Follow, under, ih]

end Step

end AccessContext.R1cs
