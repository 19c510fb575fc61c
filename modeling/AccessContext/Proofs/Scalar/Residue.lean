import AccessContext.Proofs.Scalar.Prime
import Mathlib.Data.Int.Cast.Lemmas
import Mathlib.FieldTheory.Finite.Basic
import Mathlib.Data.ZMod.Defs
import Mathlib.Tactic.LinearCombination
import Mathlib.Tactic.Ring

/-!
# Integers as scalars

Scalars form a commutative ring without zero divisors, and taking residues is the ring map from
the integers. A residue determines its integer among integers that differ by less than 192 bits,
which all integers of the relations do. Main statements: `mul_eq_zero_iff`, `cast_inj`,
`toInt?_eq_some_iff`, `mul_inverse`.
-/

namespace AccessContext.R1cs.Scalar

open Fin.CommRing

theorem ofNat_eq_cast (n : ℕ) : ofNat n = (n : Scalar) := rfl

theorem ofInt_eq_cast (n : ℤ) : ofInt n = (n : Scalar) := by
  cases n with
  | ofNat n => simp [ofInt, ofNat_eq_cast]
  | negSucc n => simp [ofInt, ofNat_eq_cast]

theorem ofBool_eq_cast (b : Bool) : ofBool b = ((b.toInt : ℤ) : Scalar) := by
  cases b <;> simp [ofBool, Bool.toInt]

/-- A scalar that is the residue of an integer has the remainder as its number. -/
theorem val_cast (n : ℤ) : (((n : Scalar).val : ℕ) : ℤ) = n % order := by
  cases n with
  | ofNat n => simp [Fin.val_natCast]
  | negSucc n =>
    rw [Int.cast_negSucc, Fin.val_neg, Int.negSucc_emod _ (by decide)]
    have hzero : ((n + 1 : ℕ) : Scalar) = 0 ↔ (n + 1) % order = 0 := by
      rw [Fin.ext_iff, Fin.val_natCast]
      rfl
    simp only [hzero, Fin.val_natCast]
    unfold order
    split
    · omega
    · omega

/-! ### Equality -/

theorem cast_eq_cast_iff {m n : ℤ} : (m : Scalar) = n ↔ m % order = n % order := by
  rw [← val_cast, ← val_cast, Nat.cast_inj, Fin.ext_iff]

/-- Integers with one residue are equal if they are less than 192 bits apart. -/
theorem cast_inj {m n : ℤ} (hlow : -2 ^ 192 < m - n) (hhigh : m - n < 2 ^ 192)
    (h : (m : Scalar) = n) : m = n := by
  have hmod := cast_eq_cast_iff.mp h
  unfold order at hmod
  omega

theorem ofBool_inj {b c : Bool} (h : ofBool b = ofBool c) : b = c := by
  have hne : (0 : Scalar) ≠ 1 := by decide
  cases b <;> cases c
  · rfl
  · exact absurd h hne
  · exact absurd h.symm hne
  · rfl

theorem mul_eq_zero_iff {x y : Scalar} : x * y = 0 ↔ x = 0 ∨ y = 0 := by
  constructor
  · intro h
    have hval : x.val * y.val % order = 0 := by
      rw [← Fin.val_mul, h]
      rfl
    rcases (Nat.Prime.dvd_mul order_prime).mp (Nat.dvd_of_mod_eq_zero hval) with hx | hy
    · exact .inl (Fin.ext (Nat.eq_zero_of_dvd_of_lt hx x.isLt))
    · exact .inr (Fin.ext (Nat.eq_zero_of_dvd_of_lt hy y.isLt))
  · rintro (rfl | rfl)
    · ring
    · ring

/-! ### Words and integers from scalars -/

theorem toWord?_cast {n : ℕ} (h : n < 2 ^ 64) : toWord? (n : Scalar) = some (UInt64.ofNat n) := by
  have hval : (n : Scalar).val = n := by
    rw [Fin.val_natCast]
    exact Nat.mod_eq_of_lt (by unfold order; omega)
  unfold toWord?
  rw [hval, if_pos (show n < UInt64.size from h)]

/-- Negative integers near zero have residues that no word holds. -/
theorem toWord?_cast_of_neg {n : ℤ} (hlow : -2 ^ 64 < n) (hneg : n < 0) :
    toWord? (n : Scalar) = none := by
  have hval := val_cast n
  have hbig : ¬ (n : Scalar).val < UInt64.size := by
    unfold UInt64.size
    generalize (n : Scalar).val = v at hval
    unfold order at hval
    omega
  unfold toWord?
  rw [if_neg hbig]

/-- An integer of less than 64 bits comes back from its residue. -/
theorem toInt?_cast {n : ℤ} (hlow : -2 ^ 64 < n) (hhigh : n < 2 ^ 64) :
    toInt? (n : Scalar) = some n := by
  unfold toInt?
  by_cases hn : 0 ≤ n
  · obtain ⟨k, rfl⟩ := Int.eq_ofNat_of_zero_le hn
    rw [Int.cast_natCast, toWord?_cast (by omega)]
    simp only [UInt64.toNat_ofNat', Option.some.injEq]
    omega
  · obtain ⟨k, hk⟩ := Int.eq_ofNat_of_zero_le (show 0 ≤ -n by omega)
    have hneg : -(n : Scalar) = ((k : ℕ) : Scalar) := by
      rw [← Int.cast_natCast, ← hk, Int.cast_neg]
    rw [toWord?_cast_of_neg hlow (by omega), hneg, toWord?_cast (by omega)]
    simp only [UInt64.toNat_ofNat', Option.some.injEq]
    omega

theorem toWord?_eq_some_iff {x : Scalar} {word : UInt64} :
    toWord? x = some word ↔ x = (word.toNat : ℕ) := by
  constructor
  · intro h
    unfold toWord? at h
    split at h
    · next hlt =>
      cases h
      rw [UInt64.toNat_ofNat', Nat.mod_eq_of_lt hlt, Fin.cast_val_eq_self]
    · cases h
  · rintro rfl
    rw [toWord?_cast word.toNat_lt, UInt64.ofNat_toNat]

/-- A scalar stands for an integer of no more than 64 bits exactly if it is its residue. -/
theorem toInt?_eq_some_iff {x : Scalar} {n : ℤ} :
    toInt? x = some n ↔ n.natAbs < 2 ^ 64 ∧ ofInt n = x := by
  constructor
  · intro h
    unfold toInt? at h
    split at h
    · next word hword =>
      cases h
      rw [toWord?_eq_some_iff.mp hword, ofInt_eq_cast, Int.cast_natCast]
      exact ⟨word.toNat_lt, rfl⟩
    · next word _ hword =>
      cases h
      have hx : x = -((word.toNat : ℕ) : Scalar) := by
        rw [← toWord?_eq_some_iff.mp hword, neg_neg]
      rw [hx, ofInt_eq_cast, Int.cast_neg, Int.cast_natCast, Int.natAbs_neg]
      exact ⟨word.toNat_lt, rfl⟩
    · cases h
  · rintro ⟨hlt, rfl⟩
    rw [ofInt_eq_cast]
    exact toInt?_cast (by omega) (by omega)

/-! ### Integers of 128 bits -/

/-- They are told apart by their residues. -/
theorem ofInt_inj {m n : ℤ} (hm : -2 ^ 127 ≤ m ∧ m < 2 ^ 127) (hn : -2 ^ 127 ≤ n ∧ n < 2 ^ 127)
    (h : ofInt m = ofInt n) : m = n := by
  rw [ofInt_eq_cast, ofInt_eq_cast] at h
  exact cast_inj (by omega) (by omega) h

/-- The residue of an integer from the two words of its magnitude. -/
def ofHalves (n : ℤ) : Scalar :=
  let high := UInt64.ofNat (n.natAbs / 2 ^ 64)
  let low := UInt64.ofNat n.natAbs
  let magnitude := ofNat high.toNat * (ofNat (2 ^ 64 - 1) + 1) + ofNat low.toNat
  if n < 0 then -magnitude else magnitude

/-- Two words hold the magnitude of any integer of 128 bits, the least one included. -/
theorem ofHalves_eq {n : ℤ} (h : -2 ^ 127 ≤ n ∧ n < 2 ^ 127) : ofHalves n = ofInt n := by
  have hhigh : (UInt64.ofNat (n.natAbs / 2 ^ 64)).toNat = n.natAbs / 2 ^ 64 :=
    UInt64.toNat_ofNat_of_lt (show n.natAbs / 2 ^ 64 < 2 ^ 64 by omega)
  have hlow : (UInt64.ofNat n.natAbs).toNat = n.natAbs % 2 ^ 64 := UInt64.toNat_ofNat'
  have hsplit : n.natAbs / 2 ^ 64 * (2 ^ 64 - 1 + 1) + n.natAbs % 2 ^ 64 = n.natAbs := by omega
  have hmagnitude : ofNat (n.natAbs / 2 ^ 64) * (ofNat (2 ^ 64 - 1) + 1) + ofNat (n.natAbs % 2 ^ 64) =
      ((n.natAbs : ℕ) : Scalar) := by
    simp only [ofNat_eq_cast]
    exact_mod_cast congrArg (Nat.cast : ℕ → Scalar) hsplit
  unfold ofHalves
  dsimp only
  rw [hhigh, hlow, hmagnitude, ofInt_eq_cast]
  split
  · next hneg => rw [← Int.cast_natCast, ← Int.cast_neg, Int.ofNat_natAbs_of_nonpos hneg.le, neg_neg]
  · next hneg => rw [← Int.cast_natCast, Int.natAbs_of_nonneg (by omega)]

/-! ### Inverses -/

theorem power_eq_pow (bits : ℕ) (x : Scalar) (n : ℕ) : power bits x n = x ^ (n % 2 ^ bits) := by
  induction bits generalizing x n with
  | zero => simp [power, Nat.mod_one]
  | succ bits ih =>
    have hsplit : n % 2 ^ (bits + 1) = n % 2 + 2 * (n / 2 % 2 ^ bits) := by
      rw [Nat.pow_succ', Nat.mod_mul]
    simp only [power]
    rw [ih, hsplit, pow_add, pow_mul, pow_two]
    rcases Nat.mod_two_eq_zero_or_one n with h | h
    · simp [h]
    · simp [h, mul_comm]

/-- Fermat: the power two below the prime order is the inverse. -/
theorem mul_inverse {x : Scalar} (h : x ≠ 0) : x * x.inverse = 1 := by
  have hx : ((x.val : ℤ) : Scalar) = x := by
    rw [Int.cast_natCast, Fin.cast_val_eq_self]
  have hcoprime : IsCoprime (x.val : ℤ) order := by
    rw [Nat.isCoprime_iff_coprime, Nat.coprime_comm,
      Nat.Prime.coprime_iff_not_dvd order_prime]
    exact fun hdvd => h (Fin.ext (Nat.eq_zero_of_dvd_of_lt hdvd x.isLt))
  have hpow : ((((x.val : ℤ) ^ (order - 1) : ℤ)) : Scalar) = ((1 : ℤ) : Scalar) :=
    cast_eq_cast_iff.mpr (Int.ModEq.pow_card_sub_one_eq_one order_prime hcoprime)
  rw [Int.cast_pow, hx, Int.cast_one] at hpow
  have hexp : (order - 2) % 2 ^ 255 + 1 = order - 1 := by
    unfold order
    rfl
  rw [inverse, power_eq_pow, ← pow_succ', hexp, hpow]

end AccessContext.R1cs.Scalar
