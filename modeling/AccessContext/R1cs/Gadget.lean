import AccessContext.R1cs.Term

/-!
# Gadgets

Products, range checks and comparisons of terms. A comparison is sound while the difference of
its operands stays within its width; out of range it cannot be satisfied, rather than give the
wrong bit.
-/

namespace AccessContext.R1cs

open Circuit

/-- A fresh variable for an integer. -/
def freshInteger (value : Option Int) : Circuit Term := do
  let w ← number (value.map Scalar.ofInt)
  return ⟨w, value⟩

/-- A fresh variable for a bit. -/
def freshBit (value : Option Bool) : Circuit Term := do
  return .ofBit (← bit value)

/-- `a * b` -/
def mul (a b : Term) : Circuit Term := do
  let value := combine (fun x y => signed128? (x * y)) a.value b.value
  let product ← scope "product" (freshInteger value)
  enforce "product_def" a.form b.form product.form
  return product

/-- Enforces that two terms are equal. -/
def equateTerms (name : String) (a b : Term) : Circuit Unit :=
  equate name a.form b.form

/-- Bit `j` of an integer in two's complement, as far as 127 bits go. -/
def integerBit (n : Int) (j : Nat) : Bool :=
  decide (j < 127) && (n >>> j) % 2 == 1

/-- Enforces `0 ≤ t < 2 ^ width` by its bits. -/
def enforceWidth (t : Term) (width : Nat) : Circuit Unit := do
  let bits ← bitsFrom "bit_" (fun j => t.value.map fun n => integerBit n j) 0 width
  equate "packing" (binaryForm bits) t.form

/-- The bit `a ≤ b`. With `c` the claimed bit and `d = b - a`, the slack `2cd - d + c - 1` is `d`
if `c` is set and `-d - 1` if it is clear, so only the true bit has a slack that is not
negative. -/
def leq (a b : Term) (width : Nat) : Circuit Term := do
  let diff := b - a
  let flag := diff.value.map fun d => decide (0 ≤ d)
  let c ← scope "flag" (freshBit flag)
  let gated ← scope "gated" (mul c diff)
  let slack : Term :=
    ⟨gated.form.scale 2 - diff.form + c.form - .one,
      diff.value.map fun d => if 0 ≤ d then d else -d - 1⟩
  scope "slack" (enforceWidth slack width)
  return c

/-- The bit `a < b`. -/
def lt (a b : Term) (width : Nat) : Circuit Term :=
  leq (a.addConstant 1) b width

/-- The bit `a = b`: the difference has an inverse unless the bit is set, and vanishes if it
is. -/
def equalBit (a b : Term) : Circuit Term := do
  let diff := a - b
  let eq ← scope "eq" (freshBit (diff.value.map fun d => decide (d = 0)))
  let inverse ← scope "inverse" (number (diff.value.map fun d => (Scalar.ofInt d).inverse))
  enforce "inverse_def" diff.form inverse (.one - eq.form)
  enforce "zero_when_equal" diff.form eq.form 0
  return eq

/-- A check that counts only if the flag is set: `1 - flag + flag * check`. -/
def implies (flag check : Term) : Circuit Term := do
  let gated ← scope "gated" (mul flag check)
  return .constant 1 - flag + gated

/-- The product of `acc` and a list of bits, the first of which has number `k`. -/
def conjunctionFrom : Nat → Term → List Term → Circuit Term
  | _, acc, [] => return acc
  | k, acc, bit :: rest => do
    let acc ← scope ("and_" ++ toString k) (mul acc bit)
    conjunctionFrom (k + 1) acc rest

/-- The conjunction of a list of bits. -/
def conjunction (bits : List Term) : Circuit Term :=
  conjunctionFrom 0 (.constant 1) bits

/-- `n / d` rounded down, for a small positive `d` and an `n` that is not negative. -/
def divideDown (n : Term) (d : Int) : Circuit Term := do
  let quotient ← scope "quotient" (freshInteger (n.value.map fun v => v / d))
  let remainder ← scope "remainder" (freshInteger (n.value.map fun v => v % d))
  scope "quotient_range" (enforceWidth quotient 64)
  scope "remainder_range" (enforceWidth remainder 8)
  scope "remainder_below_divisor" (enforceWidth (.constant (d - 1) - remainder) 8)
  equateTerms "division" (quotient.scale d + remainder) n
  return quotient

end AccessContext.R1cs
