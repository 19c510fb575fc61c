import AccessContext.Proofs.R1cs.HonestGadgets

/-!
# Comparisons in the field

A comparison is made of a claimed bit, of its product with the difference and of the bits of a
slack, and all of them are chosen by the prover. Its constraints leave no choice. A slack is the
difference if the bit is set and the complement if it is clear, and only one of them is small: where
the difference is a small number the bit is set, where it is short of the order by a small number
the bit is clear, and anywhere else there is no solution. Main statement: `leq_exact`.
-/

namespace AccessContext.R1cs

open Fin.CommRing
open Circuit

/-- The complement of a scalar is as far from the last one as the scalar is from zero. -/
theorem Scalar.val_neg_sub_one (d : Scalar) : (-d - 1).val = order - 1 - d.val := by
  have hd := d.isLt
  have hcast : -d - 1 = ((-(d.val : ℤ) - 1 : ℤ) : Scalar) := by
    rw [Int.cast_sub, Int.cast_neg, Int.cast_natCast, Fin.cast_val_eq_self, Int.cast_one]
  have hval := val_cast (-(d.val : ℤ) - 1)
  rw [← hcast] at hval
  generalize d.val = v at hd hval
  generalize (-d - 1).val = w at hval
  unfold order at *
  omega

variable {a b : Assignment} {s t : Term} {n width : Nat}

/-! ### Bits -/

theorem hold_bit {value : Option Bool} :
    Step.Hold a (bit value n).2 ↔ ∃ c : Bool, a.value (.aux n) = .ofBool c := by
  constructor
  · exact forces_bit n
  · rintro ⟨c, hc⟩
    refine hold_bind.mpr ⟨hold_fresh, hold_bind.mpr ⟨hold_enforce.mpr ?_, hold_pure⟩⟩
    show a.eval (.one - .ofVar (.aux n)) * a.eval (.ofVar (.aux n)) = a.eval 0
    rw [Assignment.eval_sub, Assignment.eval_one, Assignment.eval_ofVar, hc, Assignment.eval_zero]
    cases c <;> simp [Scalar.ofBool]

/-- Variables that have the values of bits are bits. -/
theorem hold_bitsFrom_of_values {name : String} {value : Nat → Option Bool} {f : Nat → Bool}
    (j count : Nat) (h : ∀ i < count, a.value (.aux (n + i)) = .ofBool (f (j + i))) :
    Step.Hold a (bitsFrom name value j count n).2 ∧
      BitsAre a (bitsFrom name value j count n).1 ((List.range' j count).map f) := by
  induction count generalizing j n with
  | zero => exact ⟨hold_pure, .nil⟩
  | succ count ih =>
    have hfirst : a.value (.aux n) = .ofBool (f j) := h 0 (Nat.succ_pos count)
    obtain ⟨hrest, hbits⟩ := ih (n := n + 1) (j + 1) fun i hi => by
      have hnext := h (i + 1) (Nat.succ_lt_succ hi)
      rwa [Nat.add_comm i 1, ← Nat.add_assoc, ← Nat.add_assoc] at hnext
    refine ⟨hold_bind.mpr ⟨hold_scope.mpr (hold_bit.mpr ⟨f j, hfirst⟩), ?_⟩, .cons hfirst hbits⟩
    exact hold_bind.mpr ⟨hrest, hold_pure⟩

/-! ### Range checks -/

theorem val_lt_of_hold (h : Step.Hold a (enforceWidth t width n).2) :
    (a.eval t.form).val < 2 ^ width := by
  obtain ⟨k, hlow, hhigh, hk⟩ := forces_enforceWidth n h
  obtain ⟨m, rfl⟩ := Int.eq_ofNat_of_zero_le hlow
  rw [hk, Int.cast_natCast, Fin.val_natCast]
  exact (Nat.mod_le m order).trans_lt (by exact_mod_cast hhigh)

/-- A number that is narrow enough has its bits. -/
theorem exists_isSolution_enforceWidth (ht : t.form.IsBelow n)
    (h : (a.eval t.form).val < 2 ^ width) : ∃ b, IsSolution (enforceWidth t width) n a b := by
  let b := a.extend n fun i => .ofBool ((a.eval t.form).val.testBit i)
  have hagrees : a.AgreesBelow n b := a.agreesBelow_extend n _
  have hvalue (i : Nat) (_ : i < width) :
      b.value (.aux (n + i)) = .ofBool ((a.eval t.form).val.testBit (0 + i)) := by
    rw [Nat.zero_add]
    exact a.value_extend n _ i
  obtain ⟨hhold, hbits⟩ := hold_bitsFrom_of_values 0 width hvalue
  refine ⟨b, hagrees, hold_bind.mpr ⟨hhold, hold_equate.mpr ?_⟩⟩
  rw [eval_binaryForm hbits, numberOfBits_testBit, pow_zero, Nat.div_one, Nat.mod_eq_of_lt h,
    hagrees.eval ht, Fin.cast_val_eq_self]

theorem isSolution_enforceWidth_iff (ht : t.form.IsBelow n) :
    (∃ b, IsSolution (enforceWidth t width) n a b) ↔ (a.eval t.form).val < 2 ^ width := by
  constructor
  · rintro ⟨b, hb⟩
    rw [← hb.agrees.eval ht]
    exact val_lt_of_hold hb.hold
  · exact exists_isSolution_enforceWidth ht

/-! ### The parts of a comparison -/

theorem hold_freshBit {value : Option Bool} :
    Step.Hold a (freshBit value n).2 ↔ ∃ c : Bool, a.value (.aux n) = .ofBool c :=
  hold_bind.trans (and_iff_left hold_pure) |>.trans hold_bit

theorem hold_mul : Step.Hold a (mul s t n).2 ↔
    a.value (.aux n) = a.eval s.form * a.eval t.form := by
  have hproduct : Step.Hold a (mul s t n).2 ↔
      a.eval s.form * a.eval t.form = a.eval (.ofVar (.aux n)) := by
    refine hold_bind.trans ((and_iff_right ?_).trans (hold_bind.trans
      ((and_iff_left hold_pure).trans hold_enforce)))
    exact hold_scope.mpr (hold_bind.mpr ⟨hold_bind.mpr ⟨hold_fresh, hold_pure⟩, hold_pure⟩)
  rw [hproduct, Assignment.eval_ofVar, eq_comm]

/-- The slack of a comparison before which `n` variables are counted: the next two are the claimed
bit and its product with the difference. -/
def slack (s t : Term) (n : Nat) : Term :=
  ⟨(LinearForm.ofVar (.aux (n + 1))).scale 2 - (t - s).form + .ofVar (.aux n) - .one,
    (t - s).value.map fun d => if 0 ≤ d then d else -d - 1⟩

theorem hold_leq : Step.Hold a (leq s t width n).2 ↔
    (∃ c : Bool, a.value (.aux n) = .ofBool c) ∧
      a.value (.aux (n + 1)) = a.value (.aux n) * (a.eval t.form - a.eval s.form) ∧
      Step.Hold a (enforceWidth (slack s t n) width (n + 2)).2 := by
  refine hold_bind.trans (and_congr (hold_scope.trans hold_freshBit) ?_)
  refine hold_bind.trans (and_congr (hold_scope.trans hold_mul |>.trans ?_) ?_)
  · show a.value (.aux (n + 1)) = a.eval (.ofVar (.aux n)) * a.eval (t.form - s.form) ↔ _
    rw [Assignment.eval_ofVar, Assignment.eval_sub]
  · exact hold_bind.trans ((and_iff_left hold_pure).trans hold_scope)

theorem form_leq : (leq s t width n).1.form = .ofVar (.aux n) := rfl

/-- The slack is the difference or its complement, as the bit says. -/
theorem eval_slack {c : Bool} (hc : a.value (.aux n) = .ofBool c)
    (hgated : a.value (.aux (n + 1)) = a.value (.aux n) * (a.eval t.form - a.eval s.form)) :
    a.eval (slack s t n).form =
      if c then a.eval t.form - a.eval s.form else -(a.eval t.form - a.eval s.form) - 1 := by
  show a.eval ((LinearForm.ofVar (.aux (n + 1))).scale 2 - (t.form - s.form) + .ofVar (.aux n)
    - .one) = _
  simp only [Assignment.eval_sub, Assignment.eval_add, Assignment.eval_scale, Assignment.eval_one,
    Assignment.eval_ofVar, hgated, hc]
  cases c
  · simp [Scalar.ofBool]
  · simp [Scalar.ofBool]
    ring

theorem isBelow_slack (hs : s.form.IsBelow n) (ht : t.form.IsBelow n) :
    (slack s t n).form.IsBelow (n + 2) := by
  have hle : n ≤ n + 2 := Nat.le_add_right n 2
  have hdiff : (t.form - s.form).IsBelow (n + 2) := (ht.mono hle).sub (hs.mono hle)
  have hflag : (LinearForm.ofVar (.aux n)).IsBelow (n + 2) :=
    .ofVar (Nat.lt_add_of_pos_right (by decide))
  have hgated : (LinearForm.ofVar (.aux (n + 1))).IsBelow (n + 2) :=
    .ofVar (Nat.lt_succ_self (n + 1))
  exact ((hgated.scale.sub hdiff).add hflag).sub .one

/-! ### Which bit is left -/

/-- The residue of the difference that a comparison looks at. -/
def Assignment.gap (a : Assignment) (s t : Term) : Nat :=
  (a.eval t.form - a.eval s.form).val

theorem Assignment.AgreesBelow.gap (h : a.AgreesBelow n b) (hs : s.form.IsBelow n)
    (ht : t.form.IsBelow n) : b.gap s t = a.gap s t := by
  rw [Assignment.gap, Assignment.gap, h.eval hs, h.eval ht]

/-- Whether a claimed bit leaves a slack of no more than `width` bits. -/
def LeavesRoom (width gap : Nat) : Bool → Prop
  | true => gap < 2 ^ width
  | false => order - 2 ^ width ≤ gap

theorem leavesRoom_iff {c : Bool} (hc : a.value (.aux n) = .ofBool c)
    (hgated : a.value (.aux (n + 1)) = a.value (.aux n) * (a.eval t.form - a.eval s.form)) :
    LeavesRoom width (a.gap s t) c ↔ (a.eval (slack s t n).form).val < 2 ^ width := by
  have hgap : a.gap s t < order := Fin.isLt _
  rw [eval_slack hc hgated]
  cases c with
  | true => rfl
  | false =>
    show order - 2 ^ width ≤ a.gap s t ↔ (-(a.eval t.form - a.eval s.form) - 1).val < 2 ^ width
    rw [Scalar.val_neg_sub_one, ← Assignment.gap]
    omega

/-- No gap leaves room for both bits. -/
theorem LeavesRoom.not_both {gap : Nat} (hwidth : 2 ^ (width + 1) ≤ order)
    (hset : LeavesRoom width gap true) : ¬ LeavesRoom width gap false := by
  rw [Nat.pow_succ] at hwidth
  simp only [LeavesRoom] at hset ⊢
  omega

theorem LeavesRoom.unique {gap : Nat} {c c' : Bool} (hwidth : 2 ^ (width + 1) ≤ order)
    (h : LeavesRoom width gap c) (h' : LeavesRoom width gap c') : c = c' := by
  cases c with
  | true =>
    cases c' with
    | true => rfl
    | false => exact absurd h' (h.not_both hwidth)
  | false =>
    cases c' with
    | true => exact absurd h (h'.not_both hwidth)
    | false => rfl

/-- A small integer leaves room for its sign. -/
theorem leavesRoom_cast {z : Int} (hwidth : 2 ^ (width + 1) ≤ order) (hlow : -2 ^ width ≤ z)
    (hhigh : z < 2 ^ width) : LeavesRoom width (z : Scalar).val (decide (0 ≤ z)) := by
  have hpower : (2 : ℤ) ^ width = ((2 ^ width : ℕ) : ℤ) := by push_cast; rfl
  rw [hpower] at hlow hhigh
  rw [Nat.pow_succ] at hwidth
  have hval := Scalar.val_cast z
  by_cases hz : 0 ≤ z
  · rw [Int.emod_eq_of_lt hz (by omega)] at hval
    rw [decide_eq_true hz, LeavesRoom]
    omega
  · rw [← Int.add_emod_right, Int.emod_eq_of_lt (by omega) (by omega)] at hval
    rw [decide_eq_false hz, LeavesRoom]
    omega

theorem leavesRoom_of_hold (h : Step.Hold a (leq s t width n).2) :
    ∃ c : Bool, a.value (.aux n) = .ofBool c ∧ LeavesRoom width (a.gap s t) c := by
  obtain ⟨⟨c, hc⟩, hgated, hslack⟩ := hold_leq.mp h
  exact ⟨c, hc, (leavesRoom_iff hc hgated).mpr (val_lt_of_hold hslack)⟩

/-- A bit that leaves room is claimed by some solution. -/
theorem exists_isSolution_leq {c : Bool} (hs : s.form.IsBelow n) (ht : t.form.IsBelow n)
    (h : LeavesRoom width (a.gap s t) c) : ∃ b, IsSolution (leq s t width) n a b := by
  let a₁ := a.extend n fun
    | 0 => .ofBool c
    | _ => .ofBool c * (a.eval t.form - a.eval s.form)
  have hagrees : a.AgreesBelow n a₁ := a.agreesBelow_extend n _
  have hflag : a₁.value (.aux n) = .ofBool c := a.value_extend n _ 0
  have hgated : a₁.value (.aux (n + 1)) =
      a₁.value (.aux n) * (a₁.eval t.form - a₁.eval s.form) := by
    rw [hflag, hagrees.eval hs, hagrees.eval ht]
    exact a.value_extend n _ 1
  rw [← hagrees.gap hs ht, leavesRoom_iff hflag hgated] at h
  obtain ⟨b, hb⟩ := exists_isSolution_enforceWidth (isBelow_slack hs ht) h
  have hagrees' : a₁.AgreesBelow n b := hb.agrees.mono (Nat.le_add_right n 2)
  refine ⟨b, hagrees.trans hagrees', hold_leq.mpr ⟨⟨c, ?_⟩, ?_, hb.hold⟩⟩
  · rw [hb.agrees n (Nat.lt_add_of_pos_right (by decide)), hflag]
  · rw [hb.agrees n (Nat.lt_add_of_pos_right (by decide)), hb.agrees (n + 1) (Nat.lt_succ_self _),
      hagrees'.eval hs, hagrees'.eval ht, hgated]

theorem isSolution_leq_iff (hs : s.form.IsBelow n) (ht : t.form.IsBelow n) :
    (∃ b, IsSolution (leq s t width) n a b) ↔ ∃ c, LeavesRoom width (a.gap s t) c := by
  constructor
  · rintro ⟨b, hb⟩
    obtain ⟨c, -, hc⟩ := leavesRoom_of_hold hb.hold
    exact ⟨c, hb.agrees.gap hs ht ▸ hc⟩
  · rintro ⟨c, hc⟩
    exact exists_isSolution_leq hs ht hc

/-- The bit of a solution is the one that there is room for. -/
theorem eval_leq_of_leavesRoom {c : Bool} (hs : s.form.IsBelow n) (ht : t.form.IsBelow n)
    (hwidth : 2 ^ (width + 1) ≤ order) (h : IsSolution (leq s t width) n a b)
    (hc : LeavesRoom width (a.gap s t) c) : b.eval (leq s t width n).1.form = .ofBool c := by
  obtain ⟨c', hvalue, hc'⟩ := leavesRoom_of_hold h.hold
  rw [h.agrees.gap hs ht] at hc'
  rw [form_leq, Assignment.eval_ofVar, hvalue, hc'.unique hwidth hc]

/-- Terms that stand for integers leave room for the comparison of these. -/
theorem leavesRoom_of_standsFor {x y : Int} (hs : s.StandsFor a x) (ht : t.StandsFor a y)
    (hwidth : 2 ^ (width + 1) ≤ order) (hlow : -2 ^ width ≤ y - x) (hhigh : y - x < 2 ^ width) :
    LeavesRoom width (a.gap s t) (decide (x ≤ y)) := by
  have hroom := leavesRoom_cast hwidth hlow hhigh
  rw [Assignment.gap, hs, ht, ← Int.cast_sub]
  simpa using hroom

/-- A difference that leaves 128 bits is missed at the claimed bit. -/
theorem not_complete_leq {x y : Int} (hs : s.value = some x) (ht : t.value = some y)
    (h : ¬ Fits (y - x)) : ¬ Step.Complete (leq s t width n).2 := by
  have hx : Reveals s.value x True := hs ▸ .some trivial
  have hy : Reveals t.value y True := ht ▸ .some trivial
  exact fun hcomplete => h (known_of_complete_leq hx hy hcomplete).2.2

/-! ### The comparison as a whole -/

/-- A comparison of terms over the variables of a system has a solution exactly if the difference is
less than `2 ^ width` or short of the order by no more than that, and the bit of every solution is
set in the first case and clear in the second. A range check has one exactly for a number less than
`2 ^ width`. The strict comparison is that of the next integer, so it decides the order of any two
integers less than `2 ^ width` apart. With operands that the prover knows, whose difference is in
these ranges and, but for the least one, an integer of 128 bits, the run leaves a solution and the
right bit. If the difference leaves 128 bits, its value is missing and the run stops. -/
theorem leq_exact (σ : System) (hone : σ.one = 1) (s t : Term) (width : Nat)
    (hs : s.form.IsBelow σ.aux.size) (ht : t.form.IsBelow σ.aux.size)
    (hwidth : 2 ^ (width + 1) ≤ order) :
    let a := σ.assignment hone
    let n := σ.aux.size
    let bit := (leq s t width n).1
    ((∃ b, IsSolution (leq s t width) n a b) ↔
      a.gap s t < 2 ^ width ∨ order - 2 ^ width ≤ a.gap s t) ∧
    (∀ b, IsSolution (leq s t width) n a b →
      (a.gap s t < 2 ^ width → b.eval bit.form = 1) ∧
      (order - 2 ^ width ≤ a.gap s t → b.eval bit.form = 0)) ∧
    ((∃ b, IsSolution (enforceWidth t width) n a b) ↔ (a.eval t.form).val < 2 ^ width) ∧
    lt s t width = leq (s.addConstant 1) t width ∧
    (∀ x y : Int, s.StandsFor a x → t.StandsFor a y → -2 ^ width < y - x → y - x < 2 ^ width →
      (∃ b, IsSolution (lt s t width) n a b) ∧
      ∀ b, IsSolution (lt s t width) n a b →
        b.eval (lt s t width n).1.form = .ofBool (decide (x < y))) ∧
    (∀ x y : Int, s.Carries a x → t.Carries a y → -2 ^ width ≤ y - x → y - x < 2 ^ width →
      -2 ^ 127 < y - x → y - x < 2 ^ 127 →
      ∃ τ hτ, (leq s t width).run σ = (τ, .ok bit) ∧
        IsSolution (leq s t width) n a (τ.assignment hτ) ∧
        bit.Carries (τ.assignment hτ) (decide (x ≤ y)).toInt) ∧
    (∀ x y : Int, s.value = some x → t.value = some y → ¬ Fits (y - x) →
      ∃ τ, (leq s t width).run σ = (τ, .error .missingValue)) := by
  intro a n bit
  refine ⟨?_, fun b hb => ⟨?_, ?_⟩, isSolution_enforceWidth_iff ht, rfl, ?_, ?_, ?_⟩
  · rw [isSolution_leq_iff hs ht, Bool.exists_bool, or_comm]
    rfl
  · exact eval_leq_of_leavesRoom (c := true) hs ht hwidth hb
  · exact eval_leq_of_leavesRoom (c := false) hs ht hwidth hb
  · intro x y hx hy hlow hhigh
    have hnext : (s.addConstant 1).form.IsBelow n := hs.add (.constant _)
    have hroom : LeavesRoom width (a.gap (s.addConstant 1) t) (decide (x < y)) :=
      leavesRoom_of_standsFor (x := x + 1) hx.addConstant hy hwidth (by omega) (by omega)
    exact ⟨exists_isSolution_leq hnext ht hroom,
      fun b hb => eval_leq_of_leavesRoom hnext ht hwidth hb hroom⟩
  · intro x y hx hy hlow hhigh hmin hmax
    refine Runs.exists_run hone (Q := fun b r => Term.Carries b r (decide (x ≤ y)).toInt)
      fun b hb => ?_
    have hsb : s.Carries b x := ⟨hx.1, (hb.eval hs).trans hx.2⟩
    have htb : t.Carries b y := ⟨hy.1, (hb.eval ht).trans hy.2⟩
    exact runs_leq hsb htb hlow hhigh ⟨hmin.le, hmax⟩
  · exact fun x y hx hy hfits => exists_run_of_not_complete (not_complete_leq hx hy hfits)

/-- At the largest width, 253 bits, the least difference has a solution and the one past the
greatest has none. An honest run decides the least difference of 128 bits but one. -/
theorem leq_exact_boundary :
    (∃ b, IsSolution (leq (.constant 0) (.constant (-2 ^ 253)) 253) 0
      (System.empty.assignment rfl) b) ∧
    (¬ ∃ b, IsSolution (leq (.constant 0) (.constant (2 ^ 253)) 253) 0
      (System.empty.assignment rfl) b) ∧
    ∃ τ bit, (leq (.constant 0) (.constant (1 - 2 ^ 127)) 127).run .empty = (τ, .ok bit) := by
  have hgap (k : Int) : (System.empty.assignment rfl).gap (.constant 0) (.constant k) =
      (Scalar.ofInt k).val := by
    show (Assignment.eval _ (.constant _) - Assignment.eval _ (.constant _)).val = _
    rw [Assignment.eval_constant, Assignment.eval_constant]
    exact congrArg Fin.val (sub_zero _)
  refine ⟨?_, ?_, ?_⟩
  · refine (leq_exact .empty rfl (.constant 0) (.constant (-2 ^ 253)) 253 (.constant _)
      (.constant _) (by decide)).1.mpr ?_
    rw [hgap]
    decide
  · refine mt (leq_exact .empty rfl (.constant 0) (.constant (2 ^ 253)) 253 (.constant _)
      (.constant _) (by decide)).1.mp ?_
    rw [hgap]
    decide
  · obtain ⟨τ, -, hrun, -⟩ := (leq_exact .empty rfl (.constant 0) (.constant (1 - 2 ^ 127)) 127
      (.constant _) (.constant _) (by decide)).2.2.2.2.2.1 0 (1 - 2 ^ 127) (.constant 0)
      (.constant (1 - 2 ^ 127)) (by decide) (by decide) (by decide) (by decide)
    exact ⟨τ, _, hrun⟩

/-- The honest run does not reach the end if the difference leaves 128 bits, though the operands are
known and the difference is well within the width. -/
theorem leq_run_far_apart :
    (Term.constant (-2 ^ 127)).Carries (System.empty.assignment rfl) (-2 ^ 127) ∧
    (Term.constant 0).Carries (System.empty.assignment rfl) 0 ∧
    2 ^ (130 + 1) ≤ order ∧ (-2 ^ 130 : Int) ≤ 0 - -2 ^ 127 ∧ (0 - -2 ^ 127 : Int) < 2 ^ 130 ∧
    (0 - -2 ^ 127 : Int) ≠ -2 ^ 127 ∧
    ((leq (.constant (-2 ^ 127)) (.constant 0) 130).run .empty).2 = .error .missingValue := by
  refine ⟨.constant _, .constant _, by decide, by decide, by decide, by decide, ?_⟩
  have hfits : ¬ Fits (0 - -2 ^ 127) := fun h => absurd h.2 (by decide)
  obtain ⟨τ, hτ⟩ := exists_run_of_not_complete (not_complete_leq (s := .constant (-2 ^ 127))
    (t := .constant 0) rfl rfl hfits)
  rw [hτ]

end AccessContext.R1cs
