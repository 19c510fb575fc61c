import AccessContext.R1cs.Scalar
import Mathlib.Data.List.Prime
import Mathlib.NumberTheory.LucasPrimality
import Mathlib.Tactic.NormNum.Prime
import Mathlib.Tactic.ReduceModChar

/-!
# The order is prime

A number is prime if some residue generates all residues but zero. To see that a residue is a
generator one has to know the primes that divide the number less one, so the proof descends from
the order of the curve to numbers that trial division settles. Main statement: `order_prime`.
-/

namespace AccessContext.R1cs

/-- Lucas's test for a number whose predecessor is given as a product of prime powers. -/
theorem prime_of_generator {p : ℕ} (a : ZMod p) (factors : List (ℕ × ℕ))
    (hprod : (factors.map fun f => f.1 ^ f.2).prod = p - 1) (hone : a ^ (p - 1) = 1)
    (hfactors : ∀ f ∈ factors, f.1.Prime ∧ a ^ ((p - 1) / f.1) ≠ 1) : p.Prime := by
  refine lucas_primality p a hone fun q hq hdvd => ?_
  rw [← hprod, Prime.dvd_prod_iff hq.prime] at hdvd
  obtain ⟨power, hpower, hqp⟩ := hdvd
  obtain ⟨f, hf, rfl⟩ := List.mem_map.mp hpower
  obtain ⟨hprime, hne⟩ := hfactors f hf
  have heq : q = f.1 := (Nat.prime_dvd_prime_iff_eq hq hprime).mp (hq.dvd_of_dvd_pow hqp)
  exact heq ▸ hne

theorem prime_399082391 : Nat.Prime 399082391 := by
  refine prime_of_generator 7 [(2, 1), (5, 1), (7, 1), (5701177, 1)] (by norm_num)
    (by reduce_mod_char) ?_
  norm_num
  reduce_mod_char
  decide

theorem prime_4129989133 : Nat.Prime 4129989133 := by
  refine prime_of_generator 5 [(2, 2), (3, 1), (359, 1), (958679, 1)] (by norm_num)
    (by reduce_mod_char) ?_
  norm_num
  reduce_mod_char
  decide

theorem prime_5239247429827 : Nat.Prime 5239247429827 := by
  refine prime_of_generator 2 [(2, 1), (3, 2), (757, 1), (12149, 1), (31649, 1)] (by norm_num)
    (by reduce_mod_char) ?_
  norm_num
  reduce_mod_char
  decide

theorem prime_5247740253619 : Nat.Prime 5247740253619 := by
  refine prime_of_generator 2 [(2, 1), (3, 3), (17, 1), (71, 1), (80513981, 1)] (by norm_num)
    (by reduce_mod_char) ?_
  norm_num
  reduce_mod_char
  decide

theorem prime_1690502597179744445941507 : Nat.Prime 1690502597179744445941507 := by
  refine prime_of_generator 2 [(2, 1), (3, 1), (13, 1), (4129989133, 1), (5247740253619, 1)]
    (by norm_num) (by reduce_mod_char) ?_
  simp only [List.forall_mem_cons]
  refine ⟨⟨Nat.prime_two, ?_⟩, ⟨Nat.prime_three, ?_⟩, ⟨by norm_num, ?_⟩,
    ⟨prime_4129989133, ?_⟩, ⟨prime_5247740253619, ?_⟩, by simp⟩
  all_goals norm_num; reduce_mod_char; decide

theorem prime_10427374428728808478656897599072717 :
    Nat.Prime 10427374428728808478656897599072717 := by
  refine prime_of_generator 2
    [(2, 2), (294793, 1), (4229279, 1), (399082391, 1), (5239247429827, 1)]
    (by norm_num) (by reduce_mod_char) ?_
  simp only [List.forall_mem_cons]
  refine ⟨⟨Nat.prime_two, ?_⟩, ⟨by norm_num, ?_⟩, ⟨by norm_num, ?_⟩,
    ⟨prime_399082391, ?_⟩, ⟨prime_5239247429827, ?_⟩, by simp⟩
  all_goals norm_num; reduce_mod_char; decide

/-- The scalars form a field. -/
theorem order_prime : order.Prime := by
  unfold order
  refine prime_of_generator 5
    [(2, 32), (3, 2), (1709, 1), (24859, 1), (1690502597179744445941507, 1),
      (10427374428728808478656897599072717, 1)]
    (by norm_num) (by reduce_mod_char) ?_
  simp only [List.forall_mem_cons]
  refine ⟨⟨Nat.prime_two, ?_⟩, ⟨Nat.prime_three, ?_⟩, ⟨by norm_num, ?_⟩, ⟨by norm_num, ?_⟩,
    ⟨prime_1690502597179744445941507, ?_⟩, ⟨prime_10427374428728808478656897599072717, ?_⟩,
    by simp⟩
  all_goals norm_num; reduce_mod_char; decide

end AccessContext.R1cs
