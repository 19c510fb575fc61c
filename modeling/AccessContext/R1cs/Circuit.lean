import AccessContext.R1cs.LinearForm

/-!
# Circuits

A circuit allocates variables, each with the value that an honest prover gives it, and enforces
constraints, each of which says that two linear forms have a third as their product. Variables
are numbered in the order of allocation, so a circuit is a function of the number of variables
before it. Its steps do not depend on each other's values: a value that is missing is noticed
only when the circuit is run.
-/

namespace AccessContext.R1cs

/-- The scopes around a name, and the name. -/
abbrev Path := List String

/-- The parts with slashes between them. -/
def Path.text (path : Path) : String :=
  "/".intercalate path

/-- `left * right = product` -/
structure Constraint where
  path : Path
  left : LinearForm
  right : LinearForm
  product : LinearForm
deriving DecidableEq

/-- Whether a constraint holds for the given values. -/
def Constraint.holds (c : Constraint) (assign : Var → Scalar) : Bool :=
  c.left.eval assign * c.right.eval assign == c.product.eval assign

/-- One step of a circuit. -/
inductive Step
  /-- A variable with its honest value. -/
  | wire (path : Path) (value : Option Scalar)
  | constraint (c : Constraint)
deriving DecidableEq

namespace Step

/-- How many variables a step allocates. -/
def size : Step → Nat
  | wire _ _ => 1
  | constraint _ => 0

/-- The step inside a scope. -/
def under (scope : String) : Step → Step
  | wire path value => .wire (scope :: path) value
  | constraint c => .constraint { c with path := scope :: c.path }

/-- The number of variables that steps allocate. -/
def total : List Step → Nat
  | [] => 0
  | step :: steps => step.size + total steps

end Step

/-- A result and the steps that make it, when the variables before are counted. -/
def Circuit (α : Type) : Type :=
  Nat → α × List Step

namespace Circuit

/-- No steps. -/
protected def pure {α : Type} (a : α) : Circuit α :=
  fun _ => (a, [])

/-- The steps of one circuit before those of the next. -/
protected def bind {α β : Type} (c : Circuit α) (f : α → Circuit β) : Circuit β :=
  fun n =>
    let (a, steps) := c n
    let (b, more) := f a (n + Step.total steps)
    (b, steps ++ more)

instance : Monad Circuit where
  pure := Circuit.pure
  bind := Circuit.bind

/-- Names everything in a circuit from within a scope. -/
def scope {α : Type} (name : String) (c : Circuit α) : Circuit α :=
  fun n =>
    let (a, steps) := c n
    (a, steps.map (Step.under name))

/-- Enforces one constraint. -/
def enforce (name : String) (left right product : LinearForm) : Circuit Unit :=
  fun _ => ((), [.constraint ⟨[name], left, right, product⟩])

/-- Enforces that two forms are equal. -/
def equate (name : String) (left right : LinearForm) : Circuit Unit :=
  enforce name left .one right

/-- Allocates one variable. -/
def fresh (name : String) (value : Option Scalar) : Circuit Var :=
  fun n => (.aux n, [.wire [name] value])

end Circuit

/-- A variable with its honest value. -/
structure Wire (α : Type) where
  var : Var
  value : Option α
deriving DecidableEq

instance {α : Type} : CoeOut (Wire α) LinearForm := ⟨fun w => .ofVar w.var⟩

namespace Circuit

/-- A variable for a number. -/
def number (value : Option Scalar) : Circuit (Wire Scalar) := do
  let var ← fresh "num" value
  return ⟨var, value⟩

/-- A variable for a bit, which is enforced to be zero or one. -/
def bit (value : Option Bool) : Circuit (Wire Bool) := do
  let var ← fresh "boolean" (value.map Scalar.ofBool)
  enforce "boolean constraint" (.one - var) var 0
  return ⟨var, value⟩

/-- Bits with numbered names, the first of them with number `j`. -/
def bitsFrom (name : String) (value : Nat → Option Bool) : Nat → Nat → Circuit (List (Wire Bool))
  | _, 0 => return []
  | j, count + 1 => do
    let first ← scope (name ++ toString j) (bit (value j))
    let rest ← bitsFrom name value (j + 1) count
    return first :: rest

/-- Numbers with numbered names, the first of them with number `i`. -/
def numbersFrom (name : String) : Nat → List Scalar → Circuit (List (Wire Scalar))
  | _, [] => return []
  | i, value :: values => do
    let first ← scope (name ++ toString i) (number (some value))
    let rest ← numbersFrom name (i + 1) values
    return first :: rest

end Circuit

/-- The number whose bits are on the given wires. -/
def binaryForm (bits : List (Wire Bool)) : LinearForm :=
  .ofBits (bits.map Wire.var)

end AccessContext.R1cs
