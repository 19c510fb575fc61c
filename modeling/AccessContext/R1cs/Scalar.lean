import AccessContext.Text.Quoted

/-!
# Scalars

The numbers of the constraint systems: integers modulo the order of the Pallas curve, a prime of
255 bits. Integers enter as residues, negative ones too; a scalar leaves as an integer only if
that is less than 64 bits away from zero.
-/

namespace AccessContext.R1cs

/-- The order of the Pallas curve. -/
def order : Nat :=
  0x40000000000000000000000000000000224698fc0994a8dd8c46eb2100000001

theorem order_pos : 0 < order := by decide

instance : @NeZero Nat (@Zero.ofOfNat0 Nat (instOfNatNat 0)) order :=
  ⟨Nat.ne_of_gt order_pos⟩

/-- An integer modulo the order. -/
abbrev Scalar := Fin order

namespace Scalar

/-- The residue of a natural number. -/
def ofNat (n : Nat) : Scalar :=
  ⟨n % order, Nat.mod_lt _ order_pos⟩

/-- The residue of an integer. -/
def ofInt : Int → Scalar
  | .ofNat n => ofNat n
  | .negSucc n => -ofNat (n + 1)

def ofBool (b : Bool) : Scalar :=
  if b then 1 else 0

/-- The word of 64 bits that a scalar stands for. -/
def toWord? (x : Scalar) : Option UInt64 :=
  if x.val < UInt64.size then some (UInt64.ofNat x.val) else none

/-- The integer that a scalar stands for, if its magnitude fits into 64 bits. -/
def toInt? (x : Scalar) : Option Int :=
  match x.toWord?, (-x).toWord? with
  | some word, _ => some word.toNat
  | none, some word => some (-word.toNat)
  | none, none => none

/-- The power whose exponent is the number formed by the lowest `bits` bits of `n`. -/
def power : (bits : Nat) → Scalar → (n : Nat) → Scalar
  | 0, _, _ => 1
  | bits + 1, x, n =>
    let rest := power bits (x * x) (n / 2)
    if n % 2 = 1 then rest * x else rest

/-- The inverse of a scalar, zero for zero: the power two below the order, which is prime. -/
def inverse (x : Scalar) : Scalar :=
  power 255 x (order - 2)

/-- Lowercase hexadecimal digits without leading zeros. -/
def text (x : Scalar) : String :=
  String.ofList (Text.hexDigits x.val)

end Scalar

end AccessContext.R1cs
