import AccessContext.R1cs.Scalar

/-!
# Linear forms

Sums of variables with coefficients. One variable is the constant one, so that a form may hold a
constant. The value of a form is linear in the values of the variables.
-/

namespace AccessContext.R1cs

/-- The constant, or one of the auxiliary variables in the order of their allocation. -/
inductive Var
  | one
  | aux (index : Nat)
deriving DecidableEq

/-- A sum of variables with coefficients. -/
structure LinearForm where
  terms : List (Scalar × Var)
deriving DecidableEq

namespace LinearForm

def zero : LinearForm := ⟨[]⟩

/-- A single variable. -/
def ofVar (v : Var) : LinearForm := ⟨[(1, v)]⟩

def constant (k : Scalar) : LinearForm := ⟨[(k, .one)]⟩

def one : LinearForm := ofVar .one

def scale (k : Scalar) (f : LinearForm) : LinearForm :=
  ⟨f.terms.map fun (c, v) => (k * c, v)⟩

instance : Zero LinearForm := ⟨zero⟩

instance : Add LinearForm := ⟨fun f g => ⟨f.terms ++ g.terms⟩⟩

instance : Sub LinearForm := ⟨fun f g => ⟨f.terms ++ g.terms.map fun (c, v) => (-c, v)⟩⟩

instance : Coe Var LinearForm := ⟨ofVar⟩

/-- The value of a sum of terms. -/
def evalTerms (assign : Var → Scalar) : List (Scalar × Var) → Scalar
  | [] => 0
  | (c, v) :: rest => c * assign v + evalTerms assign rest

/-- The value of a form when its variables have the given values. -/
def eval (assign : Var → Scalar) (f : LinearForm) : Scalar :=
  evalTerms assign f.terms

/-- Variables weighted by the powers of two from `weight` on. -/
def ofBitsFrom (weight : Scalar) : List Var → LinearForm
  | [] => zero
  | v :: rest => ⟨(weight, v) :: (ofBitsFrom (weight + weight) rest).terms⟩

/-- The number whose bits are the given variables, least significant first. -/
def ofBits (bits : List Var) : LinearForm :=
  ofBitsFrom 1 bits

end LinearForm

end AccessContext.R1cs
