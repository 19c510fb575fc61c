import AccessContext.Proofs.Decision
import AccessContext.Proofs.R1cs.HonestGadgets
import AccessContext.Proofs.R1cs.Wires
import AccessContext.R1cs.SignalRelation
import Mathlib.Tactic.IntervalCases

/-!
# The signal relation

The constraints on ten signals admit the signals of decisions and nothing else: bounds from the
bits of every number exclude that scalars wrap around, so each equation between scalars is one
between integers. The honest run on any signals with known requirements is complete, and it is
satisfied exactly if they are consistent. Main statement: `signalRelation_exact`.
-/

namespace AccessContext.R1cs

open Fin.CommRing
open Circuit

variable {a : Assignment}

/-! ### What the constraints force -/

theorem forces_enforceBit {name : String} {v : Var} :
    Forces a (enforceBit name v) fun _ => ∃ b : Bool, a.value v = .ofBool b := by
  refine Forces.enforce.mono fun _ h => ?_
  rw [Assignment.eval_sub, Assignment.eval_one, Assignment.eval_ofVar, Assignment.eval_zero,
    Scalar.mul_eq_zero_iff, sub_eq_zero] at h
  rcases h with h | h
  · exact ⟨false, h⟩
  · exact ⟨true, h.symm⟩

theorem forces_wordBits {name : String} {word : Option UInt64} {width : Nat} :
    Forces a (wordBits name word width) fun ws =>
      ∃ bs : List Bool, bs.length = width ∧ BitsAre a ws bs :=
  forces_bitsFrom 0 width

/-- Requirements from their four bits. -/
def requirementsOfBits (device time location pattern : Bool) : Requirements :=
  ⟨UInt8.ofNat (numberOfBits [device, time, location, pattern])⟩

theorem toNat_requirementsOfBits (b₀ b₁ b₂ b₃ : Bool) :
    (requirementsOfBits b₀ b₁ b₂ b₃).bits.toNat = numberOfBits [b₀, b₁, b₂, b₃] := by
  cases b₀ <;> cases b₁ <;> cases b₂ <;> cases b₃ <;> rfl

theorem isKnown_requirementsOfBits (b₀ b₁ b₂ b₃ : Bool) :
    (requirementsOfBits b₀ b₁ b₂ b₃).isKnown = true := by
  cases b₀ <;> cases b₁ <;> cases b₂ <;> cases b₃ <;> rfl

theorem map_contains_requirementsOfBits (b₀ b₁ b₂ b₃ : Bool) :
    Category.all.map (requirementsOfBits b₀ b₁ b₂ b₃).contains = [b₀, b₁, b₂, b₃] := by
  cases b₀ <;> cases b₁ <;> cases b₂ <;> cases b₃ <;> rfl

/-- Known requirements come from their bits. -/
theorem exists_requirementsOfBits {r : Requirements} (h : r.isKnown = true) :
    r = requirementsOfBits (r.contains .device) (r.contains .time) (r.contains .location)
      (r.contains .pattern) := by
  obtain ⟨bits⟩ := r
  have hlt : bits.toNat < 16 := by
    have hand : bits &&& 15 = bits := by simpa [Requirements.isKnown] using h
    have hnat : bits.toNat &&& 15 = bits.toNat :=
      (UInt8.toNat_and bits 15).symm.trans (congrArg UInt8.toNat hand)
    have hmod : bits.toNat &&& 15 = bits.toNat % 16 := Nat.and_two_pow_sub_one_eq_mod bits.toNat 4
    omega
  obtain ⟨n, hn⟩ : ∃ n, n = bits.toNat := ⟨_, rfl⟩
  have hbits : bits = UInt8.ofNat n := by rw [hn, UInt8.ofNat_toNat]
  rw [← hn] at hlt
  subst hbits
  interval_cases n <;> rfl

/-- The factor that a verdict contributes to the overall one. -/
theorem ofBool_unblocked (acc required verdict : Bool) :
    Scalar.ofBool acc * (1 - Scalar.ofBool required * (1 - Scalar.ofBool verdict)) =
      Scalar.ofBool (acc && (!required || verdict)) := by
  cases acc <;> cases required <;> cases verdict <;> simp [Scalar.ofBool]

/-- Whether wires hold pairs of bits, of which the second ones are verdicts. -/
def PairsAre (a : Assignment) (pairs : List (Wire Bool × Wire Scalar)) (bs : List (Bool × Bool)) :
    Prop :=
  List.Forall₂ (fun w b => a.value w.1.var = .ofBool b.1 ∧ a.value w.2.var = .ofBool b.2) pairs bs

theorem forces_unblockedFrom {k : Nat} {product : Product} {acc : Bool}
    {pairs : List (Wire Bool × Wire Scalar)} {bs : List (Bool × Bool)}
    (hproduct : a.eval product.form = .ofBool acc) (hpairs : PairsAre a pairs bs) :
    Forces a (unblockedFrom k product pairs) fun r =>
      a.eval r.form = .ofBool (acc && bs.all fun b => !b.1 || b.2) := by
  induction hpairs generalizing k product acc with
  | nil => exact Forces.pure (by simpa using hproduct)
  | @cons w b pairs bs hw _ ih =>
    unfold unblockedFrom
    dsimp only
    refine Forces.skip ?_
    intro blocked
    refine Forces.bind Forces.enforce ?_
    intro _ hblocked
    refine Forces.skip ?_
    intro next
    refine Forces.bind Forces.enforce ?_
    intro _ hnext
    rw [Assignment.eval_sub, Assignment.eval_one, Assignment.eval_ofVar, Assignment.eval_ofVar,
      Assignment.eval_ofVar, hw.1, hw.2] at hblocked
    rw [Assignment.eval_sub, Assignment.eval_one, Assignment.eval_ofVar, Assignment.eval_ofVar,
      hproduct, ← hblocked, ofBool_unblocked] at hnext
    have hform : a.eval (Product.mk next next.value).form = .ofBool (acc && (!b.1 || b.2)) :=
      (a.eval_ofVar next.var).trans hnext.symm
    refine (ih hform).mono fun r hr => ?_
    simpa [Bool.and_assoc] using hr

/-- The equations between scalars that remain, read as equations between integers. -/
theorem decide_of_equations {d t l m : Bool} {r room trust rem lv slack : Nat} {gate : Scalar}
    (hr : r < 2 ^ 7) (hroom : room < 2 ^ 7) (htrust : trust < 2 ^ 7) (hrem : rem < 2 ^ 2)
    (hlv : lv < 2 ^ 2) (hslack : slack < 2 ^ 8) (hroomEq : (room : Scalar) = 100 - (r : Scalar))
    (hrelation : (rem : Scalar) + 4 * (trust : Scalar) =
      120 * Scalar.ofBool d + 80 * Scalar.ofBool t + 100 * Scalar.ofBool l + 100 - (r : Scalar))
    (hgate : Scalar.ofBool m * (2 * (trust : Scalar) - 50 * ((lv : Scalar) + 1) + 1) = gate)
    (hslackEq : (slack : Scalar) = gate + 25 * ((lv : Scalar) + 1) - (trust : Scalar) - 1) :
    r ≤ 100 ∧ trust = (120 * d.toNat + 80 * t.toNat + 100 * l.toNat + (100 - r)) / 4 ∧
      m = decide (25 * (lv + 1) ≤ trust) := by
  have hbit (b : Bool) : Scalar.ofBool b = ((b.toNat : Int) : Scalar) := by
    cases b <;> simp [Scalar.ofBool]
  have hd := d.toNat_lt
  have ht := t.toNat_lt
  have hl := l.toNat_lt
  have hroomInt : (room : Int) = 100 - r := by
    refine Scalar.cast_inj (by omega) (by omega) ?_
    push_cast
    exact hroomEq
  have hrelationInt : (rem : Int) + 4 * trust =
      120 * d.toNat + 80 * t.toNat + 100 * l.toNat + 100 - r := by
    refine Scalar.cast_inj (by omega) (by omega) ?_
    rw [hbit d, hbit t, hbit l] at hrelation
    push_cast at hrelation ⊢
    exact hrelation
  have hslackInt : (slack : Int) =
      (if m then 2 * (trust : Int) - 50 * (lv + 1) + 1 else 0) + 25 * (lv + 1) - trust - 1 := by
    refine Scalar.cast_inj (by split <;> omega) (by split <;> omega) ?_
    rw [Int.cast_natCast, hslackEq, ← hgate]
    cases m
    · simp [Scalar.ofBool]
    · simp [Scalar.ofBool]
  refine ⟨by omega, by omega, ?_⟩
  cases m
  · simp at hslackInt ⊢
    omega
  · simp at hslackInt ⊢
    omega

theorem forces_wordNumber {name : String} {word : Option UInt64} {width : Nat} :
    Forces a (wordBits name word width) fun ws =>
      ∃ n : Nat, n < 2 ^ width ∧ a.eval (binaryForm ws) = (n : Scalar) :=
  forces_wordBits.mono fun _ ⟨bs, hlength, hbs⟩ =>
    ⟨numberOfBits bs, hlength ▸ numberOfBits_lt bs, eval_binaryForm hbs⟩

theorem exists_level {n : Nat} (h : n < 2 ^ 2) : ∃ level : Level, level.number.toNat = n + 1 := by
  interval_cases n
  · exact ⟨.basic, rfl⟩
  · exact ⟨.standard, rfl⟩
  · exact ⟨.high, rfl⟩
  · exact ⟨.maximum, rfl⟩

theorem ofBool_eq_ofInt (b : Bool) : Scalar.ofBool b = .ofInt b.toInt := by
  rw [Scalar.ofBool_eq_cast, Scalar.ofInt_eq_cast]

theorem natCast_eq_ofInt (n : Nat) : (n : Scalar) = .ofInt n := by
  rw [Scalar.ofInt_eq_cast, Int.cast_natCast]

/-- Whatever the prover did, the values of the signals are those of consistent signals with known
requirements. -/
theorem forces_enforceDecision {z : SignalVector (Wire Scalar)} :
    Forces a (enforceDecision z) fun _ =>
      ∃ g : PublicSignals, g.requirements.isKnown = true ∧ g.IsConsistent ∧
        z.map (fun w => a.value w.var) = g.vector.map .ofInt := by
  unfold enforceDecision
  refine Forces.bind forces_enforceBit ?_
  rintro _ ⟨d, hdevice⟩
  refine Forces.bind forces_enforceBit ?_
  rintro _ ⟨t, htime⟩
  refine Forces.bind forces_enforceBit ?_
  rintro _ ⟨l, hlocation⟩
  refine Forces.bind forces_enforceBit ?_
  rintro _ ⟨p, hpattern⟩
  refine Forces.bind forces_enforceBit ?_
  rintro _ ⟨o, hoverall⟩
  refine Forces.bind forces_enforceBit ?_
  rintro _ ⟨m, hmet⟩
  -- The bits of the requirements pair up with the verdicts.
  refine Forces.bind forces_wordBits ?_
  rintro ws ⟨bs, hlength, hbs⟩
  obtain ⟨b₀, b₁, b₂, b₃, rfl⟩ := List.length_eq_four.mp hlength
  refine Forces.bind Forces.equate ?_
  intro _ hmask
  rw [eval_binaryForm hbs, Assignment.eval_ofVar] at hmask
  have hpairs : PairsAre a (ws.zip [z.device, z.time, z.location, z.pattern])
      [(b₀, d), (b₁, t), (b₂, l), (b₃, p)] := by
    rcases hbs with _ | ⟨h₀, _ | ⟨h₁, _ | ⟨h₂, _ | ⟨h₃, _ | _⟩⟩⟩⟩
    exact .cons ⟨h₀, hdevice⟩ <| .cons ⟨h₁, htime⟩ <| .cons ⟨h₂, hlocation⟩ <|
      .cons ⟨h₃, hpattern⟩ .nil
  have hone : a.eval .one = .ofBool true := a.eval_one
  refine Forces.bind (forces_unblockedFrom hone hpairs) ?_
  intro product hproduct
  refine Forces.bind Forces.equate ?_
  intro _ hand
  rw [hproduct, Assignment.eval_ofVar, hoverall] at hand
  -- Every number has its bits, and the equations between them hold of integers.
  refine Forces.bind forces_wordNumber ?_
  rintro _ ⟨r, hr, hriskBits⟩
  refine Forces.bind Forces.equate ?_
  intro _ hrisk
  refine Forces.bind forces_wordNumber ?_
  rintro _ ⟨room, hroom, hroomBits⟩
  refine Forces.bind Forces.equate ?_
  intro _ hroomEq
  refine Forces.bind forces_wordNumber ?_
  rintro _ ⟨trust, htrust, htrustBits⟩
  refine Forces.bind Forces.equate ?_
  intro _ htrustEq
  refine Forces.bind forces_wordNumber ?_
  rintro _ ⟨rem, hrem, hremBits⟩
  refine Forces.bind Forces.equate ?_
  intro _ hrelation
  refine Forces.bind forces_wordNumber ?_
  rintro _ ⟨lv, hlv, hlevelBits⟩
  refine Forces.bind Forces.equate ?_
  intro _ hlevel
  refine Forces.skip ?_
  intro gate
  refine Forces.bind Forces.enforce ?_
  intro _ hgate
  refine Forces.bind forces_wordNumber ?_
  rintro _ ⟨slack, hslack, hslackBits⟩
  refine Forces.equate.mono fun _ hslackEq => ?_
  rw [hriskBits, Assignment.eval_ofVar] at hrisk
  rw [htrustBits, Assignment.eval_ofVar] at htrustEq
  rw [hlevelBits, Assignment.eval_sub, Assignment.eval_one, Assignment.eval_ofVar] at hlevel
  have hlevelEq : a.value z.level.var = (lv : Scalar) + 1 := by rw [hlevel]; ring
  rw [hroomBits, Assignment.eval_sub, Assignment.eval_constant, Assignment.eval_ofVar, ← hrisk]
    at hroomEq
  simp only [Assignment.eval_add, Assignment.eval_sub, Assignment.eval_scale,
    Assignment.eval_constant, Assignment.eval_one, Assignment.eval_ofVar, hremBits, hslackBits,
    hdevice, htime, hlocation, hmet, hlevelEq, ← hrisk, ← htrustEq] at hrelation hgate hslackEq
  obtain ⟨hriskLe, htrustPoints, hmetLevel⟩ :=
    decide_of_equations hr hroom htrust hrem hlv hslack hroomEq hrelation hgate hslackEq
  obtain ⟨level, hlevelNumber⟩ := exists_level hlv
  have htrustNat : (UInt8.ofNat trust).toNat = trust := by
    rw [UInt8.toNat_ofNat']
    omega
  have hriskNat : (UInt8.ofNat r).toNat = r := by
    rw [UInt8.toNat_ofNat']
    omega
  refine ⟨⟨d, t, l, p, o, .ofNat trust, m, level, requirementsOfBits b₀ b₁ b₂ b₃, .ofNat r⟩,
    isKnown_requirementsOfBits b₀ b₁ b₂ b₃, ?_, ?_⟩
  · rw [PublicSignals.isConsistent_iff]
    refine ⟨?_, ?_, ?_, ?_⟩
    · have hcontains := map_contains_requirementsOfBits b₀ b₁ b₂ b₃
      simp only [Category.all, List.map_cons, List.map_nil, List.cons.injEq] at hcontains
      obtain ⟨h₀, h₁, h₂, h₃, -⟩ := hcontains
      rw [← Scalar.ofBool_inj hand]
      simp [Category.all, Verdicts.get, PublicSignals.verdicts, h₀, h₁, h₂, h₃]
    · rwa [hriskNat]
    · rw [htrustNat]
      simpa [Verdicts.points, PublicSignals.verdicts, hriskNat] using htrustPoints
    · rw [hmetLevel, hlevelNumber, htrustNat]
  · simp only [SignalVector.map, PublicSignals.vector, SignalVector.mk.injEq, ← ofBool_eq_ofInt,
      ← natCast_eq_ofInt, htrustNat, hriskNat, toNat_requirementsOfBits, hlevelNumber]
    refine ⟨hdevice, htime, hlocation, hpattern, hoverall, htrustEq.symm, hmet, ?_, hmask.symm,
      hrisk.symm⟩
    rw [hlevelEq, Nat.cast_succ]

/-! ### The honest run -/

theorem runs_enforceBit {name : String} {v : Var} {b : Bool} (h : a.value v = .ofBool b) :
    Runs a (enforceBit name v) True fun _ => True := by
  refine Runs.enforce_true ?_
  rw [Assignment.eval_sub, Assignment.eval_one, Assignment.eval_ofVar, Assignment.eval_zero, h]
  cases b
  · simp [Scalar.ofBool]
  · simp [Scalar.ofBool]

theorem runs_wordBits {name : String} {word : UInt64} {width : Nat} :
    Runs a (wordBits name (some word) width) True fun ws =>
      BitsKnown a ws ((List.range' 0 width).map word.toNat.testBit) :=
  runs_bitsFrom 0 width

theorem runs_wordNumber {name : String} {word : UInt64} {width : Nat} :
    Runs a (wordBits name (some word) width) True fun ws =>
      a.eval (binaryForm ws) = (((word.toNat % 2 ^ width : Nat) : Int) : Scalar) := by
  refine runs_wordBits.mono fun ws hws => ?_
  rw [eval_binaryForm hws.bitsAre, numberOfBits_testBit, pow_zero, Nat.div_one, Int.cast_natCast]

theorem Wire.Holds.word? {w : Wire Scalar} {n : Nat} (h : w.Holds a n) :
    w.word? = some (UInt64.ofNat n) := by
  have hlt : n < 2 ^ 64 := by
    have := h.bounds
    omega
  unfold Wire.word?
  rw [h.value_eq, Scalar.ofInt_eq_cast, Int.cast_natCast]
  exact Scalar.toWord?_cast hlt

theorem Wire.Holds.value_var {w : Wire Scalar} {n : Nat} (h : w.Holds a n) :
    a.value w.var = (n : Scalar) := by
  rw [h.var_eq, natCast_eq_ofInt]

theorem toInt_eq_toNat (b : Bool) : b.toInt = (b.toNat : Int) := by
  cases b <;> rfl

/-- Whether wires hold pairs of bits that the honest prover knows. -/
def PairsKnown (a : Assignment) (pairs : List (Wire Bool × Wire Scalar))
    (bs : List (Bool × Bool)) : Prop :=
  List.Forall₂ (fun w b => (w.1.value = some b.1 ∧ a.value w.1.var = .ofBool b.1) ∧
    w.2.Holds a b.2.toNat) pairs bs

theorem runs_unblockedFrom {k : Nat} {product : Product} {acc : Bool}
    {pairs : List (Wire Bool × Wire Scalar)} {bs : List (Bool × Bool)}
    (hvalue : product.value = some (.ofBool acc)) (hproduct : a.eval product.form = .ofBool acc)
    (hpairs : PairsKnown a pairs bs) :
    Runs a (unblockedFrom k product pairs) True fun r =>
      a.eval r.form = .ofBool (acc && bs.all fun b => !b.1 || b.2) := by
  induction hpairs generalizing k product acc with
  | nil => exact Runs.pure (by simpa using hproduct)
  | @cons w b pairs bs hw _ ih =>
    obtain ⟨⟨hrequired, hrequiredVar⟩, hverdict⟩ := hw
    obtain ⟨required, verdict⟩ := b
    have hverdictVar : a.value w.2.var = .ofBool verdict := by
      rw [hverdict.value_var]
      cases verdict <;> simp [Scalar.ofBool]
    have hproductStep := ofBool_unblocked acc required verdict
    have hblockedStep : Scalar.ofBool required * (1 - Scalar.ofBool verdict) =
        .ofBool (required && !verdict) := by
      cases required <;> cases verdict <;> simp [Scalar.ofBool]
    unfold unblockedFrom
    dsimp only
    refine Runs.bind (.scope (runs_number (x := .ofBool (required && !verdict)) ?_))
      fun blocked hblocked => ?_
    · rw [hrequired, hverdict.word?]
      cases required <;> cases verdict <;> rfl
    refine Runs.bind (Runs.enforce_true ?_) fun _ _ => ?_
    · rw [Assignment.eval_sub, Assignment.eval_one, Assignment.eval_ofVar, Assignment.eval_ofVar,
        Assignment.eval_ofVar, hrequiredVar, hverdictVar, hblocked.2, hblockedStep]
    have hnextValue : combineScalars (fun p b => p * (1 - b)) product.value blocked.value =
        some (.ofBool (acc && (!required || verdict))) := by
      rw [hvalue, hblocked.1, ← hproductStep, hblockedStep]
      rfl
    refine Runs.bind (.scope (runs_number hnextValue)) ?_
    intro next hnext
    refine Runs.bind (Runs.enforce_true ?_) fun _ _ => ?_
    · rw [Assignment.eval_sub, Assignment.eval_one, Assignment.eval_ofVar, Assignment.eval_ofVar,
        hproduct, hblocked.2, hnext.2, ← hproductStep, hblockedStep]
    refine (ih hnext.1 ((a.eval_ofVar next.var).trans hnext.2)).mono fun r hr => ?_
    simpa [Bool.and_assoc] using hr

/-- Known requirements have a bit for each category, and no more. -/
theorem bits_of_isKnown {r : Requirements} (h : r.isKnown = true) :
    (List.range' 0 4).map r.bits.toNat.testBit = Category.all.map r.contains ∧
      numberOfBits (Category.all.map r.contains) = r.bits.toNat := by
  obtain ⟨b₀, b₁, b₂, b₃, rfl⟩ : ∃ b₀ b₁ b₂ b₃, r = requirementsOfBits b₀ b₁ b₂ b₃ :=
    ⟨_, _, _, _, exists_requirementsOfBits h⟩
  cases b₀ <;> cases b₁ <;> cases b₂ <;> cases b₃ <;> exact ⟨rfl, rfl⟩

/-- An equation between residues of nearby integers is one between the integers. -/
theorem eval_eq_iff {f g : LinearForm} {m n : Int} (hf : a.eval f = (m : Scalar))
    (hg : a.eval g = (n : Scalar)) (hlow : -2 ^ 192 < m - n) (hhigh : m - n < 2 ^ 192) :
    a.eval f = a.eval g ↔ m = n := by
  rw [hf, hg]
  exact ⟨Scalar.cast_inj hlow hhigh, congrArg _⟩

/-- A number gets the bits of a word, which have to make up the number. -/
theorem runs_wordRange {name label : String} {word : UInt64} {width : Nat} {form : LinearForm}
    {m : Int} {good more : Prop} {β : Type} {rest : Circuit β} {Q : β → Prop} (hwidth : width ≤ 64)
    (hform : a.eval form = (m : Scalar)) (hlow : -2 ^ 64 ≤ m) (hhigh : m ≤ 2 ^ 64)
    (hgood : ((word.toNat % 2 ^ width : Nat) : Int) = m ↔ good) (hrest : Runs a rest more Q) :
    Runs a (wordBits name (some word) width >>= fun bits =>
      equate label (binaryForm bits) form >>= fun _ => rest) (good ∧ more) Q := by
  refine Runs.bind runs_wordNumber ?_
  intro bits hbits
  have hword : word.toNat % 2 ^ width < 2 ^ 64 :=
    (Nat.mod_lt _ (Nat.two_pow_pos width)).trans_le (Nat.pow_le_pow_right (by decide) hwidth)
  refine Runs.seq (Runs.equate.weaken ?_) fun _ _ => hrest
  exact (eval_eq_iff hbits hform (by omega) (by omega)).trans hgood

/-! Honest values are computed in words, which wrap; where they wrap, the bits miss the number. -/

theorem headroom_iff {r : Nat} (hr : r < 2 ^ 8) :
    (((100 - UInt64.ofNat r).toNat % 2 ^ 7 : Nat) : Int) = 100 - r ↔ r ≤ 100 := by
  simp only [UInt64.toNat_sub, UInt64.toNat_ofNat', UInt64.reduceToNat]
  omega

theorem weightedWord_iff {d t l : Bool} {r trust : Nat} :
    ((((weightedWord (.ofNat d.toNat) (.ofNat t.toNat) (.ofNat l.toNat) (.ofNat r)) % 4).toNat
        % 2 ^ 2 : Nat) : Int) + 4 * trust =
      120 * d.toNat + 80 * t.toNat + 100 * l.toNat + 100 - r ↔
        (trust : Int) = (120 * d.toNat + 80 * t.toNat + 100 * l.toNat + 100 - r) / 4 := by
  have hd := d.toNat_lt
  have ht := t.toNat_lt
  have hl := l.toNat_lt
  unfold weightedWord
  simp only [UInt64.toNat_mod, UInt64.toNat_sub, UInt64.toNat_add, UInt64.toNat_mul,
    UInt64.toNat_ofNat', UInt64.reduceToNat]
  omega

theorem levelSlack_iff {m : Bool} {t l : Nat} (ht : t < 2 ^ 8) (hl : 1 ≤ l ∧ l ≤ 4) :
    (((levelSlack (.ofNat m.toNat) (.ofNat t) (.ofNat l)).toNat % 2 ^ 8 : Nat) : Int) =
      (if m then 2 * (t : Int) - 50 * l + 1 else 0) + 25 * l - t - 1 ↔
        m = decide (25 * l ≤ t) := by
  unfold levelSlack
  cases m
  · simp [UInt64.toNat_sub, UInt64.toNat_mul, UInt64.toNat_ofNat']
    omega
  · simp [UInt64.toNat_sub, UInt64.toNat_mul, UInt64.toNat_ofNat']
    omega

theorem level_bounds (level : Level) : 1 ≤ level.number.toNat ∧ level.number.toNat ≤ 4 := by
  cases level <;> exact ⟨by decide, by decide⟩

theorem levelWord_eq {l : Nat} (hl : 1 ≤ l ∧ l ≤ 4) :
    (((UInt64.ofNat l - 1).toNat % 2 ^ 2 : Nat) : Int) = l - 1 := by
  simp only [UInt64.toNat_sub, UInt64.toNat_ofNat', UInt64.reduceToNat]
  omega

/-- Consistency as the conditions that the equations come to. -/
theorem isConsistent_iff_conditions (g : PublicSignals) :
    (g.overall = (Category.all.all fun c => !g.requirements.contains c || g.verdicts.get c)) ∧
      g.risk.toNat < 2 ^ 7 ∧ g.risk.toNat ≤ 100 ∧ g.trust.toNat < 2 ^ 7 ∧
      (g.trust.toNat : Int) = (120 * g.device.toNat + 80 * g.time.toNat + 100 * g.location.toNat
        + 100 - g.risk.toNat) / 4 ∧
      g.levelMet = decide (25 * g.level.number.toNat ≤ g.trust.toNat) ↔ g.IsConsistent := by
  have hd := g.device.toNat_lt
  have ht := g.time.toNat_lt
  have hl := g.location.toNat_lt
  rw [PublicSignals.isConsistent_iff]
  have hpoints : g.verdicts.points = 120 * g.device.toNat + 80 * g.time.toNat
      + 100 * g.location.toNat + (100 - g.risk.toNat) := rfl
  constructor
  · rintro ⟨hoverall, -, hrisk, -, htrust, hmet⟩
    exact ⟨hoverall, hrisk, by omega, hmet⟩
  · rintro ⟨hoverall, hrisk, htrust, hmet⟩
    exact ⟨hoverall, by omega, hrisk, by omega, by omega, hmet⟩

section Forms

variable {z : SignalVector (Wire Scalar)} {g : PublicSignals} (hz : z.Holds a g.vector)

include hz

theorem eval_room :
    a.eval (.constant 100 - .ofVar z.risk.var) = ((100 - g.risk.toNat : Int) : Scalar) := by
  rw [Assignment.eval_sub, Assignment.eval_constant, Assignment.eval_ofVar, hz.risk.var_eq,
    Scalar.ofInt_eq_cast, Int.cast_sub]
  rfl

theorem eval_weightedSum :
    a.eval (LinearForm.scale 120 (.ofVar z.device.var) + LinearForm.scale 80 (.ofVar z.time.var)
      + LinearForm.scale 100 (.ofVar z.location.var) + .constant 100 - .ofVar z.risk.var) =
        ((120 * g.device.toNat + 80 * g.time.toNat + 100 * g.location.toNat + 100
          - g.risk.toNat : Int) : Scalar) := by
  simp only [Assignment.eval_add, Assignment.eval_sub, Assignment.eval_scale,
    Assignment.eval_constant, Assignment.eval_ofVar, hz.device.var_eq, hz.time.var_eq,
    hz.location.var_eq, hz.risk.var_eq, PublicSignals.vector, toInt_eq_toNat, ← natCast_eq_ofInt]
  push_cast
  rfl

theorem eval_levelIndex :
    a.eval (.ofVar z.level.var - .one) = ((g.level.number.toNat - 1 : Int) : Scalar) := by
  rw [Assignment.eval_sub, Assignment.eval_one, Assignment.eval_ofVar, hz.level.var_eq,
    Scalar.ofInt_eq_cast, Int.cast_sub, Int.cast_one]
  rfl

/-- The gate of the level check, by the bit that the level is met. -/
theorem eval_gate :
    a.value z.levelMet.var *
        a.eval (LinearForm.scale 2 (.ofVar z.trust.var) - LinearForm.scale 50 (.ofVar z.level.var)
          + .one) =
      ((if g.levelMet then 2 * (g.trust.toNat : Int) - 50 * g.level.number.toNat + 1 else 0 : Int)
        : Scalar) := by
  simp only [Assignment.eval_add, Assignment.eval_sub, Assignment.eval_scale, Assignment.eval_one,
    Assignment.eval_ofVar, hz.levelMet.var_eq, hz.trust.var_eq, hz.level.var_eq,
    PublicSignals.vector, Scalar.ofInt_eq_cast]
  cases g.levelMet
  · simp
  · simp

end Forms

/-- The honest run on signals with known requirements is complete, and it is satisfied exactly if
the signals are consistent. -/
theorem runs_enforceDecision {z : SignalVector (Wire Scalar)} {g : PublicSignals}
    (hz : z.Holds a g.vector) (hknown : g.requirements.isKnown = true) :
    Runs a (enforceDecision z) g.IsConsistent fun _ => True := by
  have hroom := eval_room hz
  have hsum := eval_weightedSum hz
  have hindex := eval_levelIndex hz
  have hgateForm := eval_gate hz
  obtain ⟨hdevice, htime, hlocation, hpattern, hoverall, htrust, hmet, hlevel, hmask, hrisk⟩ := hz
  dsimp only [PublicSignals.vector] at hdevice htime hlocation hpattern hoverall hmet
  dsimp only [PublicSignals.vector] at htrust hlevel hmask hrisk
  rw [toInt_eq_toNat] at hdevice htime hlocation hpattern hoverall hmet
  have htrustLt := g.trust.toNat_lt
  have hriskLt := g.risk.toNat_lt
  have hmaskLt := g.requirements.bits.toNat_lt
  have hlevelBounds := level_bounds g.level
  have hd := g.device.toNat_lt
  have ht := g.time.toNat_lt
  have hl := g.location.toNat_lt
  have hbit {w : Wire Scalar} {b : Bool} (h : w.Holds a b.toNat) : a.value w.var = .ofBool b := by
    rw [h.value_var]
    cases b <;> simp [Scalar.ofBool]
  unfold enforceDecision
  simp only [hdevice.word?, htime.word?, hlocation.word?, htrust.word?, hmet.word?, hlevel.word?,
    hmask.word?, hrisk.word?, Option.map_some]
  refine Runs.next (runs_enforceBit (hbit hdevice)) ?_
  refine Runs.next (runs_enforceBit (hbit htime)) ?_
  refine Runs.next (runs_enforceBit (hbit hlocation)) ?_
  refine Runs.next (runs_enforceBit (hbit hpattern)) ?_
  refine Runs.next (runs_enforceBit (hbit hoverall)) ?_
  refine Runs.next (runs_enforceBit (hbit hmet)) ?_
  -- The bits of the requirements pair up with the verdicts.
  obtain ⟨hbits, hnumber⟩ := bits_of_isKnown hknown
  refine Runs.bind runs_wordBits ?_
  intro ws hws
  rw [UInt64.toNat_ofNat', Nat.mod_eq_of_lt (by omega), hbits] at hws
  refine Runs.bind (Runs.equate.weaken (iff_true_intro ?_)) fun _ _ => ?_
  · rw [eval_binaryForm hws.bitsAre, Assignment.eval_ofVar, hmask.value_var, hnumber]
  have hpairs : PairsKnown a (ws.zip [z.device, z.time, z.location, z.pattern])
      ((Category.all.map g.requirements.contains).zip
        [g.device, g.time, g.location, g.pattern]) := by
    rcases hws with _ | ⟨h₀, _ | ⟨h₁, _ | ⟨h₂, _ | ⟨h₃, _ | _⟩⟩⟩⟩
    exact .cons ⟨h₀, hdevice⟩ <| .cons ⟨h₁, htime⟩ <| .cons ⟨h₂, hlocation⟩ <|
      .cons ⟨h₃, hpattern⟩ .nil
  have hone : a.eval .one = .ofBool true := a.eval_one
  refine Runs.bind (runs_unblockedFrom rfl hone hpairs) ?_
  intro product hproduct
  have hand : a.eval product.form = a.eval (.ofVar z.overall.var) ↔
      g.overall = (Category.all.all fun c => !g.requirements.contains c || g.verdicts.get c) := by
    rw [hproduct, Assignment.eval_ofVar, hbit hoverall, eq_comm]
    exact ⟨Scalar.ofBool_inj, congrArg _⟩
  -- Each number is compared with the bits of a word.
  refine Runs.weaken ?_ (isConsistent_iff_conditions g)
  refine Runs.seq (Runs.equate.weaken hand) ?_
  intro _ _
  refine runs_wordRange (by decide) hrisk.standsFor (by omega) (by omega)
    (show _ ↔ g.risk.toNat < 2 ^ 7 by rw [UInt64.toNat_ofNat']; omega) ?_
  refine runs_wordRange (by decide) hroom (by omega) (by omega) (headroom_iff hriskLt) ?_
  refine runs_wordRange (by decide) htrust.standsFor (by omega) (by omega)
    (show _ ↔ g.trust.toNat < 2 ^ 7 by rw [UInt64.toNat_ofNat']; omega) ?_
  refine Runs.bind runs_wordNumber ?_
  intro remBits hremBits
  have hremForm : a.eval (binaryForm remBits + LinearForm.scale 4 (.ofVar z.trust.var)) =
      (((((weightedWord (.ofNat g.device.toNat) (.ofNat g.time.toNat) (.ofNat g.location.toNat)
        (.ofNat g.risk.toNat)) % 4).toNat % 2 ^ 2 : Nat) : Int) + 4 * g.trust.toNat : Int) := by
    rw [Assignment.eval_add, hremBits, Assignment.eval_scale, Assignment.eval_ofVar,
      htrust.value_var]
    push_cast
    rfl
  refine Runs.seq (Runs.equate.weaken ((eval_eq_iff hremForm hsum (by omega) (by omega)).trans
    weightedWord_iff)) ?_
  intro _ _
  refine Runs.weaken (runs_wordRange (by decide) hindex (by omega) (by omega)
    (iff_true_intro (levelWord_eq hlevelBounds)) ?_) (true_and _).to_iff
  -- The gate holds what the level check subtracts if the level is met.
  refine Runs.bind (.scope (runs_number (by
    rw [hmet.value_eq, htrust.value_eq, hlevel.value_eq]))) ?_
  intro gate hgate
  have hgateVar : a.value gate.var = ((if g.levelMet then
      2 * (g.trust.toNat : Int) - 50 * g.level.number.toNat + 1 else 0 : Int) : Scalar) := by
    rw [hgate.2, ← hgateForm]
    simp only [Assignment.eval_add, Assignment.eval_sub, Assignment.eval_scale,
      Assignment.eval_one, Assignment.eval_ofVar, hmet.var_eq, htrust.var_eq, hlevel.var_eq]
    ring
  refine Runs.bind (Runs.enforce_true ?_) fun _ _ => ?_
  · rw [Assignment.eval_ofVar, Assignment.eval_ofVar, hgateForm, hgateVar]
  refine Runs.bind runs_wordNumber ?_
  intro _ hslackBits
  have hslackForm : a.eval (.ofVar gate.var + LinearForm.scale 25 (.ofVar z.level.var)
      - .ofVar z.trust.var - .one) =
        (((if g.levelMet then 2 * (g.trust.toNat : Int) - 50 * g.level.number.toNat + 1 else 0)
          + 25 * g.level.number.toNat - g.trust.toNat - 1 : Int) : Scalar) := by
    simp only [Assignment.eval_add, Assignment.eval_sub, Assignment.eval_scale,
      Assignment.eval_one, Assignment.eval_ofVar, htrust.value_var, hlevel.value_var, hgateVar]
    push_cast
    rfl
  exact Runs.equate.weaken ((eval_eq_iff hslackBits hslackForm (by split <;> omega)
    (by split <;> omega)).trans (levelSlack_iff htrustLt hlevelBounds))

/-! ### The relation -/

theorem bool_inj {b c : Bool} (h : b.toInt = c.toInt) : b = c := by
  revert h
  cases b <;> cases c <;> decide

/-- Signals are told apart by their numbers in the field. -/
theorem signals_eq_of_vector {g h : PublicSignals}
    (heq : g.vector.map Scalar.ofInt = h.vector.map Scalar.ofInt) : g = h := by
  have hfield {m n : Int} (heq : Scalar.ofInt m = .ofInt n) (hm : -2 ^ 63 ≤ m ∧ m < 2 ^ 64)
      (hn : -2 ^ 63 ≤ n ∧ n < 2 ^ 64) : m = n := by
    rw [Scalar.ofInt_eq_cast, Scalar.ofInt_eq_cast] at heq
    exact Scalar.cast_inj (by omega) (by omega) heq
  have hbool {b c : Bool} (heq : Scalar.ofInt b.toInt = .ofInt c.toInt) : b = c :=
    bool_inj (hfield heq (bool_bounds b) (bool_bounds c))
  have hbyte {m n : UInt8} (heq : Scalar.ofInt m.toNat = .ofInt n.toNat) : m = n :=
    UInt8.toNat_inj.mp (Int.ofNat_inj.mp (hfield heq (byte_bounds m) (byte_bounds n)))
  obtain ⟨_, _, _, _, _, _, _, _, ⟨_⟩, _⟩ := g
  obtain ⟨_, _, _, _, _, _, _, _, ⟨_⟩, _⟩ := h
  simp only [SignalVector.map, PublicSignals.vector, SignalVector.mk.injEq] at heq
  obtain ⟨hdevice, htime, hlocation, hpattern, hoverall, htrust, hmet, hlevel, hmask, hrisk⟩ := heq
  simp only [PublicSignals.mk.injEq, Requirements.mk.injEq]
  exact ⟨hbool hdevice, hbool htime, hbool hlocation, hbool hpattern, hbool hoverall,
    hbyte htrust, hbool hmet, Level.number_inj (hbyte hlevel), hbyte hmask, hbyte hrisk⟩

theorem signalRelation_circuit (v : SignalVector Scalar) :
    signalRelation.circuit (inputWires 0 v.toList) =
      .ok (enforceDecision v.wires >>= fun _ => pure (inputWires 0 v.toList)) := by
  unfold signalRelation
  dsimp only
  rw [SignalVector.ofList?_inputWires]

theorem signalRelation_circuit_eq_ok {z : List (Wire Scalar)} {c : Circuit (List (Wire Scalar))}
    (h : signalRelation.circuit z = .ok c) :
    ∃ v, SignalVector.ofList? z = some v ∧ c = enforceDecision v >>= fun _ => pure z := by
  unfold signalRelation at h
  dsimp only at h
  split at h
  · cases h
  · next v hv => exact ⟨v, hv, (Except.ok.inj h).symm⟩

/-- The relation takes exactly ten numbers. -/
theorem exists_signalVector {z : List Scalar} {circuit : Circuit (List (Wire Scalar))}
    (h : signalRelation.circuit (inputWires 0 z) = .ok circuit) :
    ∃ v : SignalVector Scalar, z = v.toList := by
  obtain ⟨w, hw, -⟩ := signalRelation_circuit_eq_ok h
  have hlength := congrArg List.length (SignalVector.eq_of_ofList? hw)
  rw [length_inputWires] at hlength
  rcases z with _ | ⟨x₀, _ | ⟨x₁, _ | ⟨x₂, _ | ⟨x₃, _ | ⟨x₄, _ | ⟨x₅, _ | ⟨x₆, _ | ⟨x₇,
    _ | ⟨x₈, _ | ⟨x₉, _ | ⟨x₁₀, rest⟩⟩⟩⟩⟩⟩⟩⟩⟩⟩⟩
  case cons.cons.cons.cons.cons.cons.cons.cons.cons.cons.nil =>
    exact ⟨⟨x₀, x₁, x₂, x₃, x₄, x₅, x₆, x₇, x₈, x₉⟩, rfl⟩
  all_goals simp [SignalVector.toList] at hlength

theorem forces_signalRelation {a : Assignment} {v : SignalVector Scalar}
    (ha : ∀ i x, v.toList[i]? = some x → a.value (.aux i) = x) :
    Forces a (enforceDecision v.wires >>= fun _ => pure (inputWires 0 v.toList)) fun _ =>
      ∃ g : PublicSignals, g.IsDecided ∧ v = g.vector.map .ofInt := by
  refine Forces.bind forces_enforceDecision ?_
  rintro _ ⟨g, hknown, hconsistent, hg⟩
  rw [SignalVector.values_wires ha] at hg
  exact Forces.pure ⟨g, g.isDecided_iff.mpr ⟨hknown, hconsistent⟩, hg⟩

theorem runs_signalRelation {g : PublicSignals} (hknown : g.requirements.isKnown = true)
    (ha : ∀ i x, (g.vector.map Scalar.ofInt).toList[i]? = some x → a.value (.aux i) = x) :
    Runs a (enforceDecision (g.vector.map Scalar.ofInt).wires >>= fun _ =>
      pure (inputWires 0 (g.vector.map Scalar.ofInt).toList)) g.IsDecided fun _ => True := by
  refine Runs.weaken ?_ ((and_true _).to_iff.trans (and_iff_right hknown).symm |>.trans
    g.isDecided_iff.symm)
  exact (runs_enforceDecision (holds_signals_wires ha) hknown).seq fun _ _ => Runs.pure .intro

/-- The relation accepts the signals of decisions and no other numbers, whatever values the prover
gives the other variables. The system built for signals with known requirements is satisfied
exactly if the decision on their own verdicts has them as signals. -/
theorem signalRelation_exact :
    (∀ z : List Scalar, (∃ a : Assignment, a.IsAccepted signalRelation z) ↔
      ∃ g : PublicSignals, g.IsDecided ∧ z = (g.vector.map .ofInt).toList) ∧
    ∀ g : PublicSignals, g.requirements.isKnown = true →
      ∃ s inputs outputs,
        signalRelation.build (g.vector.map .ofInt).toList = .ok (s, inputs, outputs) ∧
        (s.isSatisfied = true ↔ g.IsDecided) ∧
        ∀ hashes nonce version, (s.isSatisfied = true ↔
          ∃ d, g.verdicts.decision hashes g.access nonce version = .ok d ∧ d.signals = g) := by
  constructor
  · intro z
    constructor
    · rintro ⟨a, circuit, hcircuit, hvalues, hhold⟩
      obtain ⟨v, rfl⟩ := exists_signalVector hcircuit
      obtain rfl := Except.ok.inj ((signalRelation_circuit v).symm.trans hcircuit)
      obtain ⟨g, hdecided, hg⟩ := forces_signalRelation hvalues _ hhold
      exact ⟨g, hdecided, congrArg _ hg⟩
    · rintro ⟨g, hdecided, rfl⟩
      have hknown := (g.isDecided_iff.mp hdecided).1
      exact Relation.exists_isAccepted (signalRelation_circuit _)
        (fun _ ha => runs_signalRelation hknown ha) hdecided
  · intro g hknown
    obtain ⟨s, outputs, hbuild, hsatisfied⟩ := Relation.exists_build (signalRelation_circuit _)
      fun _ ha => runs_signalRelation hknown ha
    refine ⟨s, _, outputs, hbuild, hsatisfied, fun hashes nonce version => ?_⟩
    rw [hsatisfied, g.isDecided_iff, and_iff_right hknown]
    exact g.isConsistent_iff_decision hashes nonce version

theorem signalRelation_maximum :
    ∃ s inputs outputs,
      signalRelation.build ((PublicSignals.vector ⟨true, true, true, true, true, 90, false,
        .maximum, .all, 40⟩).map .ofInt).toList = .ok (s, inputs, outputs) ∧
          s.isSatisfied = true := by
  obtain ⟨s, inputs, outputs, hbuild, hsatisfied, -⟩ := signalRelation_exact.2
    ⟨true, true, true, true, true, 90, false, .maximum, .all, 40⟩ rfl
  refine ⟨s, inputs, outputs, hbuild, hsatisfied.mpr ?_⟩
  exact (PublicSignals.isDecided_iff _).mpr ⟨rfl, rfl, rfl, rfl⟩

end AccessContext.R1cs
