import AccessContext.R1cs.Circuit

/-!
# Constraint systems

What running circuits builds: named variables with their values, and named constraints. A run
stops at the first value that is missing, and what was built before stays. A value may be
overwritten afterwards, which shows what a dishonest prover gets.
-/

namespace AccessContext.R1cs

/-- Why a relation cannot be built. -/
inductive SynthesisFault
  | missingValue
  | unsatisfiable
deriving DecidableEq

def SynthesisFault.message : SynthesisFault → String
  | missingValue => "an assignment for a variable could not be computed"
  | unsatisfiable => "unsatisfiable constraint system"

/-- A variable by its name, with its value. -/
structure Variable where
  path : Path
  value : Scalar
deriving DecidableEq

/-- Constraints over variables with values. -/
structure System where
  /-- The value in place of the constant one. -/
  one : Scalar
  aux : Array Variable
  constraints : Array Constraint

namespace System

def empty : System := ⟨1, #[], #[]⟩

/-- The value of a variable, zero if there is no such variable. -/
def value (s : System) : Var → Scalar
  | .one => s.one
  | .aux index =>
    match s.aux[index]? with
    | some v => v.value
    | none => 0

/-- Takes steps up to the first value that is missing; the answer says whether all were taken. -/
def extend (s : System) : List Step → System × Bool
  | [] => (s, true)
  | .wire path (some value) :: rest => extend { s with aux := s.aux.push ⟨path, value⟩ } rest
  | .wire _ none :: _ => (s, false)
  | .constraint c :: rest => extend { s with constraints := s.constraints.push c } rest

/-- The first constraint that does not hold. -/
def firstUnsatisfied? (s : System) : Option Constraint :=
  s.constraints.find? fun c => !c.holds s.value

def isSatisfied (s : System) : Bool :=
  s.firstUnsatisfied?.isNone

/-- The name of the constant. -/
def oneName : String := "ONE"

/-- The variable with a name. -/
def find? (s : System) (name : String) : Option Var :=
  if name = oneName then some .one
  else (s.aux.findIdx? fun v => v.path.text = name).map Var.aux

/-- Puts a value in place of a variable's own. -/
def set (s : System) (v : Var) (value : Scalar) : System :=
  match v with
  | .one => { s with one := value }
  | .aux index => { s with aux := s.aux.modify index fun old => { old with value } }

/-- The names of the constant, the variables and the constraints, in this order. -/
def names (s : System) : List String :=
  ("INPUT " ++ oneName) :: s.aux.toList.map (fun v => "AUX " ++ v.path.text)
    ++ s.constraints.toList.map fun c => c.path.text

end System

/-- Adds a circuit to a system. -/
def Circuit.run {α : Type} (c : Circuit α) (s : System) : System × Except SynthesisFault α :=
  let (a, steps) := c s.aux.size
  match s.extend steps with
  | (s, true) => (s, .ok a)
  | (s, false) => (s, .error .missingValue)

/-- A relation over a vector of numbers, which it returns unchanged. It refuses vectors of
another length than its arity. -/
structure Relation where
  arity : Nat
  circuit : List (Wire Scalar) → Except SynthesisFault (Circuit (List (Wire Scalar)))

/-- The system for a relation over given numbers, with the vectors before and after. -/
def Relation.build (r : Relation) (z : List Scalar) :
    Except SynthesisFault (System × List (Wire Scalar) × List (Wire Scalar)) := do
  let (s, inputs) := (Circuit.numbersFrom "z_" 0 z).run .empty
  let inputs ← inputs
  let circuit ← r.circuit inputs
  let (s, outputs) := circuit.run s
  return (s, inputs, ← outputs)

end AccessContext.R1cs
