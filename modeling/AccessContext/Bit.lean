import AccessContext.Bytes

/-!
# Bits as numbers

Conditions are computed without branches: a bit is the word 0 or 1, conjunction multiplies and
negation subtracts from 1, which is the form that constraints take in an arithmetic circuit.
Every operation is the Boolean one of the same name.
-/

namespace AccessContext

/-- A word that is 0 or 1. -/
structure Bit where
  value : UInt64
  value_eq : value = 0 ∨ value = 1
deriving DecidableEq

namespace Bit

def zero : Bit := ⟨0, .inl rfl⟩

def one : Bit := ⟨1, .inr rfl⟩

def ofBool (b : Bool) : Bit :=
  if b then one else zero

def toBool (b : Bit) : Bool :=
  b.value == 1

@[ext] theorem ext {a b : Bit} (h : a.value = b.value) : a = b := by
  cases a; cases b; cases h; rfl

theorem eq_zero_or_one (b : Bit) : b = zero ∨ b = one :=
  b.value_eq.imp ext ext

/-- `a * b` -/
def and (a b : Bit) : Bit where
  value := a.value * b.value
  value_eq := by rcases a with ⟨_, rfl | rfl⟩ <;> rcases b with ⟨_, rfl | rfl⟩ <;> decide

/-- `1 - a` -/
def not (a : Bit) : Bit where
  value := 1 - a.value
  value_eq := by rcases a with ⟨_, rfl | rfl⟩ <;> decide

/-- `a + b - a * b` -/
def or (a b : Bit) : Bit where
  value := a.value + b.value - a.value * b.value
  value_eq := by rcases a with ⟨_, rfl | rfl⟩ <;> rcases b with ⟨_, rfl | rfl⟩ <;> decide

/-- `b * s + (1 - b) * c`: the first word if the bit is set, the second if it is clear. -/
def choose (b : Bit) (ifSet ifClear : UInt64) : UInt64 :=
  b.value * ifSet + (1 - b.value) * ifClear

/-- The first bit if `b` is set, the second if it is clear. -/
def ite (b ifSet ifClear : Bit) : Bit where
  value := b.choose ifSet.value ifClear.value
  value_eq := by
    rcases b with ⟨_, rfl | rfl⟩ <;> rcases ifSet with ⟨_, rfl | rfl⟩ <;>
      rcases ifClear with ⟨_, rfl | rfl⟩ <;> decide

/-- A check that counts only if the flag is set. -/
def ifRequired (check : Bit) (flag : Bool) : Bit :=
  (ofBool flag).not.or check

/-- The conjunction of a list. -/
def all (bits : List Bit) : Bit :=
  bits.foldl and one

/-- Whether `a ≤ b`, for any type with a decidable order. -/
def leq {α : Type} [LE α] [DecidableLE α] (a b : α) : Bit :=
  ofBool (a ≤ b)

/-- Whether `a < b`. -/
def lt {α : Type} [LT α] [DecidableLT α] (a b : α) : Bit :=
  ofBool (a < b)

/-- Whether `low ≤ x ≤ high`. -/
def between {α : Type} [LE α] [DecidableLE α] (x low high : α) : Bit :=
  (leq low x).and (leq x high)

/-- Whether two digests are the same. -/
def digestEq (a b : Digest) : Bit :=
  ofBool (a = b)

@[simp] theorem toBool_ofBool (b : Bool) : (ofBool b).toBool = b := by
  cases b <;> rfl

@[simp] theorem toBool_and (a b : Bit) : (a.and b).toBool = (a.toBool && b.toBool) := by
  rcases a.eq_zero_or_one with rfl | rfl <;> rcases b.eq_zero_or_one with rfl | rfl <;> rfl

@[simp] theorem toBool_not (a : Bit) : a.not.toBool = !a.toBool := by
  rcases a.eq_zero_or_one with rfl | rfl <;> rfl

@[simp] theorem toBool_or (a b : Bit) : (a.or b).toBool = (a.toBool || b.toBool) := by
  rcases a.eq_zero_or_one with rfl | rfl <;> rcases b.eq_zero_or_one with rfl | rfl <;> rfl

@[simp] theorem toBool_ite (b c d : Bit) :
    (b.ite c d).toBool = if b.toBool then c.toBool else d.toBool := by
  rcases b.eq_zero_or_one with rfl | rfl <;> rcases c.eq_zero_or_one with rfl | rfl <;>
    rcases d.eq_zero_or_one with rfl | rfl <;> rfl

@[simp] theorem toBool_ifRequired (check : Bit) (flag : Bool) :
    (ifRequired check flag).toBool = (!flag || check.toBool) := by
  simp [ifRequired]

@[simp] theorem toBool_leq {α : Type} [LE α] [DecidableLE α] (a b : α) :
    (leq a b).toBool = decide (a ≤ b) := by
  simp [leq]

@[simp] theorem toBool_lt {α : Type} [LT α] [DecidableLT α] (a b : α) :
    (lt a b).toBool = decide (a < b) := by
  simp [lt]

@[simp] theorem toBool_between {α : Type} [LE α] [DecidableLE α] (x low high : α) :
    (between x low high).toBool = (decide (low ≤ x) && decide (x ≤ high)) := by
  simp [between]

@[simp] theorem toBool_digestEq (a b : Digest) : (digestEq a b).toBool = decide (a = b) := by
  simp [digestEq]

theorem value_eq_toNat (b : Bit) : b.value.toNat = b.toBool.toNat := by
  rcases b.eq_zero_or_one with rfl | rfl <;> rfl

theorem toBool_foldl_and (bits : List Bit) (a : Bit) :
    (bits.foldl and a).toBool = (a.toBool && bits.all toBool) := by
  induction bits generalizing a with
  | nil => simp
  | cons b bits ih => simp [ih, Bool.and_assoc]

@[simp] theorem toBool_all (bits : List Bit) : (all bits).toBool = bits.all toBool := by
  rw [all, toBool_foldl_and]
  rfl

end Bit

end AccessContext
