import AccessContext.Proofs.R1cs.Assignment
import AccessContext.Proofs.Scalar.Residue
import AccessContext.R1cs.Term

/-!
# Integers of terms

A term stands for an integer if its form evaluates to the residue. It carries the integer if the
honest prover knows it too, which takes that no result on the way leaves 128 bits. It tracks the
integer if what the prover knows is this integer or nothing.
-/

namespace AccessContext.R1cs

open Fin.CommRing

/-- Whether an integer stays within 128 bits. -/
def Fits (x : Int) : Prop :=
  -2 ^ 127 ≤ x ∧ x < 2 ^ 127

/-- An integer of 128 bits. -/
abbrev Signed128 := { k : Int // Fits k }

theorem signed128?_of_fits {x : Int} (h : Fits x) : signed128? x = some x :=
  if_pos h

theorem signed128?_eq_some_iff {x v : Int} : signed128? x = some v ↔ Fits x ∧ v = x := by
  constructor
  · intro h
    unfold signed128? at h
    split at h
    · next hfits => exact ⟨hfits, (Option.some.inj h).symm⟩
    · cases h
  · rintro ⟨hfits, rfl⟩
    exact signed128?_of_fits hfits

theorem combine_eq_some_iff {f : Int → Int → Option Int} {l r : Option Int} {v : Int} :
    combine f l r = some v ↔ ∃ x y, l = some x ∧ r = some y ∧ f x y = some v := by
  cases l <;> cases r <;> simp [combine]

/-- Whether a value is the given integer if `known` is true, and missing otherwise. -/
def Reveals (value : Option Int) (x : Int) (known : Prop) : Prop :=
  ∀ v, value = some v ↔ known ∧ v = x

namespace Reveals

variable {l r : Option Int} {x y : Int} {p q : Prop}

theorem some (hp : p) : Reveals (some x) x p :=
  fun v => by rw [Option.some_inj, eq_comm, and_iff_right hp]

theorem eq_some (h : Reveals l x p) (hp : p) : l = Option.some x :=
  (h x).mpr ⟨hp, rfl⟩

theorem of_isSome (h : Reveals l x p) (hsome : l.isSome = true) : p := by
  obtain ⟨v, hv⟩ := Option.isSome_iff_exists.mp hsome
  exact ((h v).mp hv).1

theorem congr (h : Reveals l x p) (hiff : p ↔ q) : Reveals l x q :=
  fun v => (h v).trans (and_congr_left' hiff)

/-- The result of a checked operation is there if the operands are and it fits. -/
theorem combine {f : Int → Int → Int} (hl : Reveals l x p) (hr : Reveals r y q) :
    Reveals (combine (fun x y => signed128? (f x y)) l r) (f x y) (p ∧ q ∧ Fits (f x y)) := by
  intro v
  rw [combine_eq_some_iff]
  constructor
  · rintro ⟨x', y', hx, hy, hv⟩
    obtain ⟨hp, rfl⟩ := (hl x').mp hx
    obtain ⟨hq, rfl⟩ := (hr y').mp hy
    obtain ⟨hfits, hv⟩ := signed128?_eq_some_iff.mp hv
    exact ⟨⟨hp, hq, hfits⟩, hv⟩
  · rintro ⟨⟨hp, hq, hfits⟩, rfl⟩
    exact ⟨x, y, hl.eq_some hp, hr.eq_some hq, signed128?_of_fits hfits⟩

/-- So is that of a checked operation on one integer. -/
theorem bind {f : Int → Int} (hl : Reveals l x p) :
    Reveals (l.bind fun x => signed128? (f x)) (f x) (p ∧ Fits (f x)) := by
  intro v
  rw [Option.bind_eq_some_iff]
  constructor
  · rintro ⟨x', hx, hv⟩
    obtain ⟨hp, rfl⟩ := (hl x').mp hx
    obtain ⟨hfits, hv⟩ := signed128?_eq_some_iff.mp hv
    exact ⟨⟨hp, hfits⟩, hv⟩
  · rintro ⟨⟨hp, hfits⟩, rfl⟩
    exact ⟨x, hl.eq_some hp, signed128?_of_fits hfits⟩

end Reveals

/-- A variable with the residue of an integer of 64 bits, which the honest prover knows. -/
structure Wire.Holds (a : Assignment) (w : Wire Scalar) (x : Int) : Prop where
  value_eq : w.value = some (.ofInt x)
  var_eq : a.value w.var = .ofInt x
  bounds : -2 ^ 63 ≤ x ∧ x < 2 ^ 64

namespace Term

variable {a : Assignment} {s t : Term} {x y : Int}

/-- Whether a term evaluates to the residue of an integer. -/
def StandsFor (a : Assignment) (t : Term) (x : Int) : Prop :=
  a.eval t.form = (x : Scalar)

/-- Whether a term stands for an integer that the honest prover knows. -/
def Carries (a : Assignment) (t : Term) (x : Int) : Prop :=
  t.value = some x ∧ t.StandsFor a x

namespace StandsFor

theorem constant (k : Int) : StandsFor a (constant k) k := by
  simp [StandsFor, Term.constant, Scalar.ofInt_eq_cast]

theorem add (hs : s.StandsFor a x) (ht : t.StandsFor a y) : (s + t).StandsFor a (x + y) := by
  show a.eval (s.form + t.form) = _
  rw [Assignment.eval_add, hs, ht, Int.cast_add]

theorem sub (hs : s.StandsFor a x) (ht : t.StandsFor a y) : (s - t).StandsFor a (x - y) := by
  show a.eval (s.form - t.form) = _
  rw [Assignment.eval_sub, hs, ht, Int.cast_sub]

theorem scale {k : Int} (ht : t.StandsFor a x) : (t.scale k).StandsFor a (x * k) := by
  show a.eval (t.form.scale (.ofInt k)) = _
  rw [Assignment.eval_scale, ht, Scalar.ofInt_eq_cast, Int.cast_mul, mul_comm]

theorem addConstant {k : Int} (ht : t.StandsFor a x) : (t.addConstant k).StandsFor a (x + k) :=
  ht.add (constant k)

/-- What is left of a sum without its constant. -/
theorem of_addConstant {k : Int} (h : (t.addConstant k).StandsFor a x) :
    t.StandsFor a (x - k) := by
  have hsum : a.eval t.form + ((k : Int) : Scalar) = (x : Scalar) := by
    rw [← h, ← constant (a := a) k, ← Assignment.eval_add]
    rfl
  show a.eval t.form = _
  rw [Int.cast_sub, ← hsum]
  ring

theorem ofNumber {w : Wire Scalar} (h : a.value w.var = .ofInt x) :
    (ofNumber w).StandsFor a x := by
  show a.eval (.ofVar w.var) = _
  rw [Assignment.eval_ofVar, h, Scalar.ofInt_eq_cast]

theorem of_eq (hx : t.StandsFor a x) (h : x = y) : t.StandsFor a y :=
  h ▸ hx

/-- What is known of the value is known of the residue. -/
theorem known {known : Scalar → Prop} (hx : t.StandsFor a x) (h : known (a.eval t.form)) :
    known (.ofInt x) := by
  rwa [hx, ← Scalar.ofInt_eq_cast] at h

/-- A term stands for one integer among those that are less than 192 bits apart. -/
theorem unique (hx : t.StandsFor a x) (hy : t.StandsFor a y) (hlow : -2 ^ 192 < x - y)
    (hhigh : x - y < 2 ^ 192) : x = y :=
  Scalar.cast_inj hlow hhigh (hx.symm.trans hy)

end StandsFor

namespace Carries

theorem standsFor (h : t.Carries a x) : t.StandsFor a x :=
  h.2

theorem of_eq (hx : t.Carries a x) (h : x = y) : t.Carries a y :=
  h ▸ hx

theorem constant (k : Int) : Carries a (constant k) k :=
  ⟨rfl, .constant k⟩

theorem add (hs : s.Carries a x) (ht : t.Carries a y) (h : Fits (x + y)) :
    (s + t).Carries a (x + y) := by
  refine ⟨?_, hs.2.add ht.2⟩
  show combine (fun x y => signed128? (x + y)) s.value t.value = _
  rw [hs.1, ht.1]
  exact signed128?_of_fits h

theorem sub (hs : s.Carries a x) (ht : t.Carries a y) (h : Fits (x - y)) :
    (s - t).Carries a (x - y) := by
  refine ⟨?_, hs.2.sub ht.2⟩
  show combine (fun x y => signed128? (x - y)) s.value t.value = _
  rw [hs.1, ht.1]
  exact signed128?_of_fits h

theorem scale {k : Int} (ht : t.Carries a x) (h : Fits (x * k)) :
    (t.scale k).Carries a (x * k) := by
  refine ⟨?_, ht.2.scale⟩
  show (t.value.bind fun x => signed128? (x * k)) = _
  rw [ht.1]
  exact signed128?_of_fits h

theorem addConstant {k : Int} (ht : t.Carries a x) (h : Fits (x + k)) :
    (t.addConstant k).Carries a (x + k) :=
  ht.add (constant k) h

end Carries

/-- Whether a term stands for an integer, and the honest prover knows it if `known` is true and
nothing otherwise. -/
structure Tracks (a : Assignment) (t : Term) (x : Int) (known : Prop) : Prop where
  standsFor : t.StandsFor a x
  reveals : Reveals t.value x known

theorem Carries.tracks {known : Prop} (h : t.Carries a x) (hknown : known) :
    t.Tracks a x known :=
  ⟨h.2, h.1 ▸ .some hknown⟩

namespace Tracks

variable {p q : Prop}

theorem carries (h : t.Tracks a x p) (hp : p) : t.Carries a x :=
  ⟨h.reveals.eq_some hp, h.standsFor⟩

theorem congr (h : t.Tracks a x p) (hiff : p ↔ q) : t.Tracks a x q :=
  ⟨h.standsFor, h.reveals.congr hiff⟩

theorem constant (k : Int) : (constant k).Tracks a k True :=
  (Carries.constant k).tracks trivial

/-- A number may be too large to be an integer of 64 bits; then it stands for itself. -/
theorem ofNumber {w : Wire Scalar} {n : Scalar} (hvalue : w.value = some n)
    (hvar : a.value w.var = n) :
    (ofNumber w).Tracks a (n.toInt?.getD n.val) (n.toInt?.isSome = true) := by
  have hknown : (Term.ofNumber w).value = n.toInt? := by
    show w.value.bind Scalar.toInt? = _
    rw [hvalue, Option.bind_some]
  cases hn : n.toInt? with
  | none =>
    refine ⟨.ofNumber ?_, fun v => ?_⟩
    · rw [hvar, Option.getD_none, Scalar.ofInt_eq_cast, Int.cast_natCast, Fin.cast_val_eq_self]
    · rw [hknown, hn]
      simp
  | some k =>
    have hresidue := (Scalar.toInt?_eq_some_iff.mp hn).2
    exact Carries.tracks ⟨hknown.trans hn, .ofNumber (hvar.trans hresidue.symm)⟩ rfl

theorem add (hs : s.Tracks a x p) (ht : t.Tracks a y q) :
    (s + t).Tracks a (x + y) (p ∧ q ∧ Fits (x + y)) :=
  ⟨hs.standsFor.add ht.standsFor, hs.reveals.combine ht.reveals⟩

theorem sub (hs : s.Tracks a x p) (ht : t.Tracks a y q) :
    (s - t).Tracks a (x - y) (p ∧ q ∧ Fits (x - y)) :=
  ⟨hs.standsFor.sub ht.standsFor, hs.reveals.combine ht.reveals⟩

theorem scale {k : Int} (ht : t.Tracks a x p) : (t.scale k).Tracks a (x * k) (p ∧ Fits (x * k)) :=
  ⟨ht.standsFor.scale, ht.reveals.bind⟩

theorem addConstant {k : Int} (ht : t.Tracks a x p) :
    (t.addConstant k).Tracks a (x + k) (p ∧ Fits (x + k)) :=
  (ht.add (constant k)).congr (and_congr_right' (and_iff_right trivial))

end Tracks

end Term

namespace Wire.Holds

variable {a : Assignment} {w : Wire Scalar} {x : Int}

theorem standsFor (h : w.Holds a x) : (Term.ofNumber w).StandsFor a x :=
  .ofNumber h.var_eq

theorem carries (h : w.Holds a x) : (Term.ofNumber w).Carries a x := by
  obtain ⟨hlow, hhigh⟩ := h.bounds
  refine ⟨?_, h.standsFor⟩
  show w.value.bind Scalar.toInt? = _
  rw [h.value_eq, Scalar.ofInt_eq_cast]
  exact Scalar.toInt?_cast (by omega) hhigh

end Wire.Holds

end AccessContext.R1cs
