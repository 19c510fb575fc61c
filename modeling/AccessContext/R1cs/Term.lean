import AccessContext.R1cs.Circuit

/-!
# Terms

Linear forms together with the integer that an honest prover knows them to stand for. Integers
are kept within 128 bits: a result that leaves them is forgotten, never wrapped.
-/

namespace AccessContext.R1cs

/-- Two to the 127. -/
def bound128 : Int := 170141183460469231731687303715884105728

/-- An integer within 128 bits. -/
def signed128? (n : Int) : Option Int :=
  if -bound128 ≤ n ∧ n < bound128 then some n else none

/-- An operation on two integers that may be missing. -/
def combine (f : Int → Int → Option Int) (a b : Option Int) : Option Int :=
  match a, b with
  | some x, some y => f x y
  | _, _ => none

/-- A linear form with its honest integer. -/
structure Term where
  form : LinearForm
  value : Option Int
deriving DecidableEq

namespace Term

def constant (k : Int) : Term :=
  ⟨.constant (.ofInt k), some k⟩

def ofNumber (w : Wire Scalar) : Term :=
  ⟨w, w.value.bind Scalar.toInt?⟩

def ofBit (w : Wire Bool) : Term :=
  ⟨w, w.value.map Bool.toInt⟩

instance : Add Term :=
  ⟨fun a b => ⟨a.form + b.form, combine (fun x y => signed128? (x + y)) a.value b.value⟩⟩

instance : Sub Term :=
  ⟨fun a b => ⟨a.form - b.form, combine (fun x y => signed128? (x - y)) a.value b.value⟩⟩

def scale (k : Int) (a : Term) : Term :=
  ⟨a.form.scale (.ofInt k), a.value.bind fun x => signed128? (x * k)⟩

def addConstant (a : Term) (k : Int) : Term :=
  a + constant k

end Term

end AccessContext.R1cs
