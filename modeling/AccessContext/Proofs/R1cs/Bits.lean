import AccessContext.Proofs.R1cs.Names
import AccessContext.Proofs.Scalar.Residue
import AccessContext.R1cs.Gadget

/-!
# Bits of a circuit

A variable that is enforced to be a bit is the residue of a truth value, since scalars have no
zero divisors. A list of such variables packs to a number below a power of two; honest bits pack
to the low bits of the number that they were taken from.
-/

namespace AccessContext.R1cs

open Fin.CommRing

/-- The number with given bits, least significant first. -/
def numberOfBits : List Bool → Nat
  | [] => 0
  | b :: bs => b.toNat + 2 * numberOfBits bs

theorem numberOfBits_lt (bs : List Bool) : numberOfBits bs < 2 ^ bs.length := by
  induction bs with
  | nil => simp [numberOfBits]
  | cons b bs ih =>
    have := b.toNat_lt
    rw [numberOfBits, List.length_cons, Nat.pow_succ]
    omega

theorem numberOfBits_testBit (n j count : Nat) :
    numberOfBits ((List.range' j count).map n.testBit) = n / 2 ^ j % 2 ^ count := by
  induction count generalizing j with
  | zero => simp [numberOfBits, Nat.mod_one]
  | succ count ih =>
    have hbit : (n.testBit j).toNat = n / 2 ^ j % 2 := by
      rw [Nat.testBit_eq_decide_div_mod_eq]
      rcases Nat.mod_two_eq_zero_or_one (n / 2 ^ j) with h | h
      · simp [h]
      · simp [h]
    have hnext : n / 2 ^ (j + 1) = n / 2 ^ j / 2 := by
      rw [Nat.pow_succ, Nat.div_div_eq_div_mul]
    rw [List.range'_succ, List.map_cons, numberOfBits, ih, hbit, hnext, Nat.pow_succ', Nat.mod_mul]

/-- The bits of an integer are those of the natural, if it is one of at most 127 bits. -/
theorem integerBit_eq_testBit {n : Int} (hlow : 0 ≤ n) (hhigh : n < 2 ^ 127) (j : Nat) :
    integerBit n j = n.toNat.testBit j := by
  obtain ⟨m, rfl⟩ := Int.eq_ofNat_of_zero_le hlow
  have hm : m < 2 ^ 127 := by omega
  unfold integerBit
  rw [← Int.natCast_shiftRight, Int.toNat_natCast]
  by_cases hj : j < 127
  · rw [Nat.testBit_eq_decide_div_mod_eq, ← Nat.shiftRight_eq_div_pow]
    simp only [hj, decide_true, Bool.true_and]
    rw [Bool.eq_iff_iff]
    simp only [beq_iff_eq, decide_eq_true_eq]
    omega
  · have hbit : m.testBit j = false :=
      Nat.testBit_lt_two_pow (hm.trans_le (Nat.pow_le_pow_right (by decide) (by omega)))
    simp [hj, hbit]

variable {a : Assignment}

/-- Whether variables are the given bits. -/
def BitsAre (a : Assignment) (ws : List (Wire Bool)) (bs : List Bool) : Prop :=
  List.Forall₂ (fun w b => a.value w.var = .ofBool b) ws bs

/-- Whether variables are bits that the honest prover knows. -/
def BitsKnown (a : Assignment) (ws : List (Wire Bool)) (bs : List Bool) : Prop :=
  List.Forall₂ (fun w b => w.value = some b ∧ a.value w.var = .ofBool b) ws bs

theorem BitsKnown.bitsAre {ws : List (Wire Bool)} {bs : List Bool} (h : BitsKnown a ws bs) :
    BitsAre a ws bs :=
  h.imp fun _ _ => And.right

theorem eval_ofBitsFrom {ws : List (Wire Bool)} {bs : List Bool} (h : BitsAre a ws bs)
    (weight : Scalar) :
    a.eval (.ofBitsFrom weight (ws.map Wire.var)) = weight * (numberOfBits bs : Scalar) := by
  induction h generalizing weight with
  | nil => simp [LinearForm.ofBitsFrom, numberOfBits, Assignment.eval, LinearForm.eval,
      LinearForm.zero, LinearForm.evalTerms]
  | @cons w b ws bs hw hrest ih =>
    have hstep : a.eval (.ofBitsFrom weight ((w :: ws).map Wire.var)) =
        weight * a.value w.var + a.eval (.ofBitsFrom (weight + weight) (ws.map Wire.var)) := rfl
    rw [hstep, ih, hw, numberOfBits]
    cases b
    · simp [Scalar.ofBool]
      ring
    · simp [Scalar.ofBool]
      ring

/-- Bits pack to their number. -/
theorem eval_binaryForm {ws : List (Wire Bool)} {bs : List Bool} (h : BitsAre a ws bs) :
    a.eval (binaryForm ws) = (numberOfBits bs : Scalar) :=
  (eval_ofBitsFrom h 1).trans (one_mul _)

/-! ### Circuits that allocate bits -/

namespace Circuit

theorem shows_bit {known : Path → Scalar → Prop} {value : Option Bool} :
    Shows a known (bit value) fun w =>
      ∃ b : Bool, known ["boolean"] (.ofBool b) ∧ a.value w.var = .ofBool b := by
  unfold bit
  refine Shows.bind .fresh ?_
  intro v hv
  refine Shows.next .enforce ?_
  intro _ h
  refine Shows.pure ?_
  rw [Assignment.eval_sub, Assignment.eval_one, Assignment.eval_ofVar, Assignment.eval_zero,
    Scalar.mul_eq_zero_iff, sub_eq_zero] at h
  rcases h with h | h
  · rw [← h] at hv
    exact ⟨true, hv, h.symm⟩
  · rw [h] at hv
    exact ⟨false, hv, h⟩

theorem forces_bit {value : Option Bool} :
    Forces a (bit value) fun w => ∃ b : Bool, a.value w.var = .ofBool b :=
  shows_bit.forces.mono fun _ ⟨b, _, hb⟩ => ⟨b, hb⟩

theorem runs_bit {b : Bool} :
    Runs a (bit (some b)) True fun w => w.value = some b ∧ a.value w.var = .ofBool b := by
  unfold bit
  refine Runs.bind Runs.fresh ?_
  intro v hv
  refine Runs.bind (Runs.enforce_true ?_) fun _ _ => ?_
  · rw [Assignment.eval_sub, Assignment.eval_one, Assignment.eval_ofVar, Assignment.eval_zero, hv]
    cases b
    · simp [Scalar.ofBool]
    · simp [Scalar.ofBool]
  · exact Runs.pure ⟨rfl, hv⟩

theorem forces_bitsFrom {name : String} {value : Nat → Option Bool} (j count : Nat) :
    Forces a (bitsFrom name value j count) fun ws =>
      ∃ bs : List Bool, bs.length = count ∧ BitsAre a ws bs := by
  induction count generalizing j with
  | zero => exact Forces.pure ⟨[], rfl, .nil⟩
  | succ count ih =>
    refine Forces.bind (Forces.scope forces_bit) ?_
    intro w hw
    refine Forces.bind (ih (j + 1)) ?_
    intro ws hws
    obtain ⟨b, hb⟩ := hw
    obtain ⟨bs, hlength, hbs⟩ := hws
    exact Forces.pure ⟨b :: bs, congrArg (· + 1) hlength, .cons hb hbs⟩

theorem runs_bitsFrom {name : String} {f : Nat → Bool} (j count : Nat) :
    Runs a (bitsFrom name (fun i => some (f i)) j count) True fun ws =>
      BitsKnown a ws ((List.range' j count).map f) := by
  induction count generalizing j with
  | zero => exact Runs.pure .nil
  | succ count ih =>
    refine Runs.bind (Runs.scope runs_bit) ?_
    intro w hw
    refine Runs.bind (ih (j + 1)) ?_
    intro ws hws
    exact Runs.pure (.cons hw hws)

end Circuit

end AccessContext.R1cs
