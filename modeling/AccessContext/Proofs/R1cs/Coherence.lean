import AccessContext.Proofs.R1cs.HonestGadgets
import Mathlib.Data.Fin.Tuple.Basic

/-!
# Coherence of terms

A script makes terms by one call after the other, from constants, from new variables and from the
terms of earlier calls. Every term evaluates to the residue of the integer that its calls come to,
however large that is; the honest prover knows this integer or nothing. It is forgotten as soon as a
result on the way leaves 128 bits, and then no variable can be made of it: the run stops. Main
statement: `TermScript.run_coherent`.
-/

namespace AccessContext.R1cs

open Fin.CommRing
open Circuit

/-- A call that makes a term. Its operands are the terms of `n` earlier calls. -/
inductive TermCall (n : Nat)
  | constant (k : Signed128)
  /-- A new variable for any scalar. -/
  | ofNumber (x : Scalar)
  | ofBit (b : Bool)
  /-- A new variable for an integer, which may be missing. -/
  | fresh (value : Option Signed128)
  /-- A new variable for what is computed from the integer of a term. -/
  | computed (f : Int → Signed128) (i : Fin n)
  | freshBit (value : Option Bool)
  | add (i j : Fin n)
  | sub (i j : Fin n)
  | scale (k : Signed128) (i : Fin n)
  | addConstant (i : Fin n) (k : Signed128)
  | mul (i j : Fin n)
  | equalBit (i j : Fin n)
  | implies (flag check : Fin n)
  | conjunction (bits : List (Fin n))

/-- Calls, each with the terms of all those before it. -/
inductive TermScript : Nat → Type
  | nil : TermScript 0
  | snoc {n : Nat} (p : TermScript n) (c : TermCall n) : TermScript (n + 1)

namespace TermCall

variable {n : Nat}

def circuit (ts : Fin n → Term) : TermCall n → Circuit Term
  | constant k => return .constant k
  | ofNumber x => return .ofNumber (← number (some x))
  | ofBit b => return .ofBit (← bit (some b))
  | fresh value => freshInteger (value.map Subtype.val)
  | computed f i => freshInteger ((ts i).value.map fun x => (f x).val)
  | freshBit value => R1cs.freshBit value
  | add i j => return ts i + ts j
  | sub i j => return ts i - ts j
  | scale k i => return (ts i).scale k
  | addConstant i k => return (ts i).addConstant k
  | mul i j => R1cs.mul (ts i) (ts j)
  | equalBit i j => R1cs.equalBit (ts i) (ts j)
  | implies flag check => R1cs.implies (ts flag) (ts check)
  | conjunction bits => R1cs.conjunction (bits.map ts)

/-- The integer that a call comes to, with the integers of earlier calls. -/
def integer (z : Fin n → Int) : TermCall n → Int
  | constant k => k
  | ofNumber x => x.toInt?.getD x.val
  | ofBit b => b.toInt
  | fresh value => (value.map Subtype.val).getD 0
  | computed f i => f (z i)
  | freshBit value => (value.getD false).toInt
  | add i j => z i + z j
  | sub i j => z i - z j
  | scale k i => z i * k
  | addConstant i k => z i + k
  | mul i j => z i * z j
  | equalBit i j => (decide (z i = z j)).toInt
  | implies flag check => 1 - z flag + z flag * z check
  | conjunction bits => (bits.map z).prod

/-- Whether no value is missing that a new variable needs. The integers of earlier calls are known
where `known` is true. -/
def Succeeds (z : Fin n → Int) (known : Fin n → Prop) : TermCall n → Prop
  | fresh value => value.isSome = true
  | computed _ i => known i
  | freshBit value => value.isSome = true
  | mul i j => known i ∧ known j ∧ Fits (z i * z j)
  | equalBit i j => known i ∧ known j ∧ Fits (z i - z j)
  | implies flag check => known flag ∧ known check ∧ Fits (z flag * z check)
  | conjunction bits => (∀ i ∈ bits, known i) ∧ ∀ first, first <+: bits → Fits (first.map z).prod
  | _ => True

/-- Whether the integer of a call is known, once it has succeeded. A number that is further from
zero than 64 bits is not; apart from that, a variable has its value. -/
def IsKnown (z : Fin n → Int) (known : Fin n → Prop) : TermCall n → Prop
  | ofNumber x => x.toInt?.isSome = true
  | add i j => known i ∧ known j ∧ Fits (z i + z j)
  | sub i j => known i ∧ known j ∧ Fits (z i - z j)
  | scale k i => known i ∧ Fits (z i * k)
  | addConstant i k => known i ∧ Fits (z i + k)
  | implies flag check => Fits (1 - z flag) ∧ Fits (1 - z flag + z flag * z check)
  | _ => True

end TermCall

namespace TermScript

def build : {n : Nat} → TermScript n → Circuit (Fin n → Term)
  | _, nil => return Fin.elim0
  | n + 1, snoc p c => do
    let ts ← p.build
    let t ← scope ("call_" ++ toString n) (c.circuit ts)
    return Fin.snoc ts t

/-- The integers that the calls come to. -/
def integer : {n : Nat} → TermScript n → Fin n → Int
  | _, nil => Fin.elim0
  | _, snoc p c => Fin.snoc p.integer (c.integer p.integer)

/-- Which of them are known. -/
def IsKnown : {n : Nat} → TermScript n → Fin n → Prop
  | _, nil => Fin.elim0
  | _, snoc p c => Fin.snoc p.IsKnown (c.IsKnown p.integer p.IsKnown)

/-- Whether all calls succeed. -/
def Succeeds : {n : Nat} → TermScript n → Prop
  | _, nil => True
  | _, snoc p c => p.Succeeds ∧ c.Succeeds p.integer p.IsKnown

end TermScript

variable {a : Assignment}

/-! ### Calls that succeed -/

namespace TermCall

variable {n : Nat} {ts : Fin n → Term} {z : Fin n → Int} {known : Fin n → Prop}

theorem carryAll_map {bits : List (Fin n)} (hts : ∀ i, (ts i).Tracks a (z i) (known i))
    (h : ∀ i ∈ bits, known i) : CarryAll a (bits.map ts) (bits.map z) := by
  refine List.forall₂_map_left_iff.mpr (List.forall₂_map_right_iff.mpr ?_)
  exact List.forall₂_same.mpr fun i hi => (hts i).carries (h i hi)

theorem runs_implies_tracks {flag check : Fin n} (hts : ∀ i, (ts i).Tracks a (z i) (known i))
    (h : known flag ∧ known check ∧ Fits (z flag * z check)) :
    Runs a (R1cs.implies (ts flag) (ts check)) True fun t =>
      t.Tracks a (1 - z flag + z flag * z check)
        (Fits (1 - z flag) ∧ Fits (1 - z flag + z flag * z check)) := by
  obtain ⟨hflag, hcheck, hfits⟩ := h
  unfold R1cs.implies
  have hproduct := runs_mul ((hts flag).carries hflag) ((hts check).carries hcheck) hfits
  refine Runs.bind (.scope hproduct) fun gated hgated => ?_
  have hnot := (Term.Tracks.constant (a := a) 1).sub (hts flag)
  refine Runs.pure ((hnot.add (hgated.tracks trivial)).congr ?_)
  simp [hflag]

/-- A call that succeeds leaves satisfied constraints and a term that tracks its integer. -/
theorem runs_circuit (c : TermCall n) (hts : ∀ i, (ts i).Tracks a (z i) (known i))
    (h : c.Succeeds z known) :
    Runs a (c.circuit ts) True fun t => t.Tracks a (c.integer z) (c.IsKnown z known) := by
  cases c with
  | constant k => exact Runs.pure (.constant k)
  | ofNumber x => exact Runs.bind (runs_number rfl) fun w hw => Runs.pure (.ofNumber hw.1 hw.2)
  | ofBit b => exact (runs_freshBit rfl).mono fun t ht => ht.tracks trivial
  | fresh value =>
    obtain ⟨k, rfl⟩ := Option.isSome_iff_exists.mp h
    exact (runs_freshInteger rfl).mono fun t ht => ht.tracks trivial
  | computed f i =>
    have hvalue : ((ts i).value.map fun x => (f x).val) = some (f (z i)).val := by
      rw [((hts i).carries h).1, Option.map_some]
    exact (runs_freshInteger hvalue).mono fun t ht => ht.tracks trivial
  | freshBit value =>
    obtain ⟨b, rfl⟩ := Option.isSome_iff_exists.mp h
    exact (runs_freshBit rfl).mono fun t ht => ht.tracks trivial
  | add i j => exact Runs.pure ((hts i).add (hts j))
  | sub i j => exact Runs.pure ((hts i).sub (hts j))
  | scale k i => exact Runs.pure (hts i).scale
  | addConstant i k => exact Runs.pure (hts i).addConstant
  | mul i j =>
    obtain ⟨hi, hj, hfits⟩ := h
    exact (runs_mul ((hts i).carries hi) ((hts j).carries hj) hfits).mono
      fun t ht => ht.tracks trivial
  | equalBit i j =>
    obtain ⟨hi, hj, hfits⟩ := h
    exact (runs_equalBit ((hts i).carries hi) ((hts j).carries hj) hfits).mono
      fun t ht => ht.tracks trivial
  | implies flag check => exact runs_implies_tracks hts h
  | conjunction bits =>
    obtain ⟨hknown, hfits⟩ := h
    refine (runs_conjunctionFrom (.constant 1) (carryAll_map hts hknown) ?_).mono ?_
    · intro ys hys
      obtain ⟨first, hfirst, rfl⟩ := List.prefix_map_iff.mp hys
      rw [one_mul]
      exact hfits first hfirst
    · intro t ht
      rw [one_mul] at ht
      exact ht.tracks trivial

/-- A known integer is one of 128 bits. -/
theorem fits_integer (c : TermCall n) (h : c.Succeeds z known) (hknown : c.IsKnown z known) :
    Fits (c.integer z) := by
  cases c with
  | constant k => exact k.2
  | ofNumber x =>
    obtain ⟨v, hv⟩ := Option.isSome_iff_exists.mp hknown
    have hbound := (Scalar.toInt?_eq_some_iff.mp hv).1
    show Fits (x.toInt?.getD x.val)
    rw [hv, Option.getD_some, Fits]
    omega
  | ofBit b => exact fits_toInt b
  | fresh value =>
    obtain ⟨k, rfl⟩ := Option.isSome_iff_exists.mp h
    exact k.2
  | computed f i => exact (f (z i)).2
  | freshBit value => exact fits_toInt _
  | add i j => exact hknown.2.2
  | sub i j => exact hknown.2.2
  | scale k i => exact hknown.2
  | addConstant i k => exact hknown.2
  | mul i j => exact h.2.2
  | equalBit i j => exact fits_toInt _
  | implies flag check => exact hknown.2
  | conjunction bits => exact h.2 bits List.prefix_rfl

/-! ### Calls that do not -/

/-- A conjunction needs all of its operands, and every product on the way. -/
theorem known_of_complete_conjunctionFrom {bits : List (Fin n)} {acc : Term} {x : Int} {p : Prop}
    {k m : Nat} (hts : ∀ i, Reveals (ts i).value (z i) (known i)) (hacc : Reveals acc.value x p)
    (hx : Fits x)
    (h : Step.Complete (conjunctionFrom k acc (bits.map ts) m).2) :
    (∀ i ∈ bits, known i) ∧ ∀ first, first <+: bits → Fits (x * (first.map z).prod) := by
  induction bits generalizing k acc x p m with
  | nil =>
    refine ⟨List.forall_mem_nil _, fun first hfirst => ?_⟩
    rw [List.prefix_nil.mp hfirst]
    simpa using hx
  | cons i bits ih =>
    obtain ⟨hmul, hrest⟩ := complete_bind.mp h
    obtain ⟨hp, hi, hfits⟩ := known_of_complete_mul hacc (hts i) (complete_scope.mp hmul)
    obtain ⟨hknown, hproducts⟩ := ih (hacc.combine (hts i)) hfits hrest
    refine ⟨List.forall_mem_cons.mpr ⟨hi, hknown⟩, fun first hfirst => ?_⟩
    cases first with
    | nil => simpa using hx
    | cons j first =>
      obtain ⟨rfl, htail⟩ := List.cons_prefix_cons.mp hfirst
      rw [List.map_cons, List.prod_cons, ← mul_assoc]
      exact hproducts first htail

/-- A call in which no value is missing succeeds. -/
theorem succeeds_of_complete (c : TermCall n) {m : Nat}
    (hts : ∀ i, Reveals (ts i).value (z i) (known i)) (h : Step.Complete (c.circuit ts m).2) :
    c.Succeeds z known := by
  cases c with
  | fresh value =>
    have hvalue := isSome_of_complete_freshInteger h
    rwa [Option.isSome_map] at hvalue
  | computed f i =>
    have hvalue := isSome_of_complete_freshInteger h
    rw [Option.isSome_map] at hvalue
    exact (hts i).of_isSome hvalue
  | freshBit value => exact isSome_of_complete_freshBit h
  | mul i j => exact known_of_complete_mul (hts i) (hts j) h
  | equalBit i j => exact known_of_complete_equalBit (hts i) (hts j) h
  | implies flag check =>
    exact known_of_complete_mul (hts flag) (hts check) (complete_scope.mp (complete_bind.mp h).1)
  | conjunction bits =>
    have hone : Reveals (Term.constant 1).value 1 True := .some trivial
    obtain ⟨hknown, hfits⟩ := known_of_complete_conjunctionFrom hts hone (fits_toInt true) h
    refine ⟨hknown, fun first hfirst => ?_⟩
    have hproduct := hfits first hfirst
    rwa [one_mul] at hproduct
  | _ => trivial

end TermCall

/-! ### Scripts -/

namespace TermScript

theorem runs_build {n : Nat} (p : TermScript n) (h : p.Succeeds) :
    Runs a p.build True fun ts => ∀ i, (ts i).Tracks a (p.integer i) (p.IsKnown i) := by
  induction p with
  | nil => exact Runs.pure fun i => i.elim0
  | @snoc n p c ih =>
    obtain ⟨hp, hc⟩ := h
    refine Runs.bind (ih hp) fun ts hts => ?_
    refine Runs.bind (.scope (c.runs_circuit hts hc)) fun t ht => Runs.pure fun i => ?_
    cases i using Fin.lastCases with
    | last => simpa [integer, IsKnown] using ht
    | cast i => simpa [integer, IsKnown] using hts i

theorem fits_integer {n : Nat} (p : TermScript n) (h : p.Succeeds) (i : Fin n) (hi : p.IsKnown i) :
    Fits (p.integer i) := by
  induction p with
  | nil => exact i.elim0
  | @snoc n p c ih =>
    obtain ⟨hp, hc⟩ := h
    cases i using Fin.lastCases with
    | last =>
      simp only [IsKnown, integer, Fin.snoc_last] at hi ⊢
      exact c.fits_integer hc hi
    | cast i =>
      simp only [IsKnown, integer, Fin.snoc_castSucc] at hi ⊢
      exact ih hp i hi

/-- The values of a script are those of a run in any system, so none is missing only if all calls
succeed. -/
theorem succeeds_of_complete {n : Nat} (p : TermScript n) (σ : System) (hone : σ.one = 1)
    (h : Step.Complete (p.build σ.aux.size).2) : p.Succeeds := by
  induction p with
  | nil => trivial
  | @snoc n p c ih =>
    obtain ⟨hbuild, hrest⟩ := complete_bind.mp h
    have hp := ih hbuild
    let τ := σ.extended (p.build σ.aux.size).2
    have hτ : τ.one = 1 := (σ.extended_one _).trans hone
    obtain ⟨-, -, hts⟩ := p.runs_build (a := τ.assignment hτ) hp _ (σ.follow_extended _ _ rfl)
    have hcall := complete_scope.mp (complete_bind.mp hrest).1
    exact ⟨hp, c.succeeds_of_complete (fun i => (hts i).reveals) hcall⟩

/-- A script whose calls succeed runs to its end and satisfies its own constraints. Each of its terms
evaluates to the residue of the integer that the calls come to, and its own value is this integer of
128 bits, or missing if the integer is not known. A script with a call that does not succeed stops
for want of a value. Integers and scalars are told from each other exactly: a scalar has an integer
if that is within 64 bits, every integer of 128 bits has its scalar from the two words of its
magnitude, and no two of them the same. -/
theorem run_coherent {n : Nat} (p : TermScript n) (σ : System) (hone : σ.one = 1) :
    (p.Succeeds → ∃ τ hτ ts, p.build.run σ = (τ, .ok ts) ∧
      IsSolution p.build σ.aux.size (σ.assignment hone) (τ.assignment hτ) ∧
      ∀ i, (τ.assignment hτ).eval (ts i).form = .ofInt (p.integer i) ∧
        (∀ v, (ts i).value = some v ↔ p.IsKnown i ∧ v = p.integer i) ∧
        (p.IsKnown i → Fits (p.integer i))) ∧
    (¬ p.Succeeds → ∃ τ, p.build.run σ = (τ, .error .missingValue)) ∧
    (∀ x v, Scalar.toInt? x = some v ↔ v.natAbs < 2 ^ 64 ∧ .ofInt v = x) ∧
    (∀ v, Fits v → Scalar.ofHalves v = .ofInt v) ∧
    (∀ v w, Fits v → Fits w → Scalar.ofInt v = .ofInt w → v = w) := by
  refine ⟨fun h => ?_, fun h => ?_, fun x v => Scalar.toInt?_eq_some_iff,
    fun v hv => Scalar.ofHalves_eq hv, fun v w hv hw => Scalar.ofInt_inj hv hw⟩
  · obtain ⟨τ, hτ, hrun, hsolution, hts⟩ := Runs.exists_run hone
      (Q := fun a (ts : Fin n → Term) => ∀ i, (ts i).Tracks a (p.integer i) (p.IsKnown i))
      fun _ _ => p.runs_build h
    refine ⟨τ, hτ, _, hrun, hsolution, fun i => ⟨?_, (hts i).reveals, p.fits_integer h i⟩⟩
    rw [(hts i).standsFor, Scalar.ofInt_eq_cast]
  · exact exists_run_of_not_complete (mt (p.succeeds_of_complete σ hone) h)

/-- The least integer, a variable for the greatest, and their difference, which leaves 128 bits. -/
def overrun : TermScript 3 :=
  .snoc (.snoc (.snoc .nil (.constant ⟨-2 ^ 127, by decide, by decide⟩))
    (.fresh (some ⟨2 ^ 127 - 1, by decide, by decide⟩))) (.sub 0 1)

theorem not_isKnown_overrun : ¬ overrun.IsKnown 2 :=
  fun h => absurd h.2.2.1 (by decide)

/-- The difference stands for its integer, though nobody knows it, and no product is made of it. -/
theorem run_coherent_overrun :
    System.empty.one = 1 ∧ overrun.Succeeds ∧ ¬ (overrun.snoc (.mul 2 1)).Succeeds ∧
    (∃ τ hτ ts, overrun.build.run .empty = (τ, .ok ts) ∧ (ts 0).value = some (-2 ^ 127) ∧
      (ts 2).value = none ∧ (τ.assignment hτ).eval (ts 2).form = .ofInt (1 - 2 ^ 128)) ∧
    ∃ τ, (overrun.snoc (.mul 2 1)).build.run .empty = (τ, .error .missingValue) := by
  have hsucceeds : overrun.Succeeds := ⟨⟨⟨trivial, trivial⟩, rfl⟩, trivial⟩
  have hfails : ¬ (overrun.snoc (.mul 2 1)).Succeeds := fun h => not_isKnown_overrun h.2.1
  obtain ⟨τ, hτ, ts, hrun, -, hts⟩ := (run_coherent overrun .empty rfl).1 hsucceeds
  refine ⟨rfl, hsucceeds, hfails, ⟨τ, hτ, ts, hrun, ?_, ?_, (hts 2).1⟩,
    (run_coherent (overrun.snoc (.mul 2 1)) .empty rfl).2.1 hfails⟩
  · exact ((hts 0).2.1 _).mpr ⟨trivial, rfl⟩
  · exact Option.eq_none_iff_forall_ne_some.mpr fun v hv =>
      not_isKnown_overrun (((hts 2).2.1 v).mp hv).1

end TermScript

end AccessContext.R1cs
