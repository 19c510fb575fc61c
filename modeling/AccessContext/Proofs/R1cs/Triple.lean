import AccessContext.Proofs.R1cs.Building

/-!
# Reasoning about circuits

A circuit is read twice. Its constraints force something upon every assignment that satisfies
them, whatever the prover did; and an honest run, where the variables have the values that the
circuit gives them, satisfies the constraints exactly if some condition is met. Both readings
follow a circuit step by step.
-/

namespace AccessContext.R1cs

namespace Circuit

variable {α β : Type} {a : Assignment} {c : Circuit α} {f : α → Circuit β}

/-- Whether `Q` is true of the result wherever the constraints are satisfied. -/
def Forces (a : Assignment) (c : Circuit α) (Q : α → Prop) : Prop :=
  ∀ n, Step.Hold a (c n).2 → Q (c n).1

/-- Whether, for an assignment of the honest values, none of these is missing, the constraints
are satisfied exactly if `good` is true, and `Q` is true of the result. -/
def Runs (a : Assignment) (c : Circuit α) (good : Prop) (Q : α → Prop) : Prop :=
  ∀ n, Step.Follow a n (c n).2 →
    Step.Complete (c n).2 ∧ (Step.Hold a (c n).2 ↔ good) ∧ Q (c n).1

theorem bind_result (c : Circuit α) (f : α → Circuit β) (n : Nat) :
    (c >>= f) n =
      ((f (c n).1 (n + Step.total (c n).2)).1,
        (c n).2 ++ (f (c n).1 (n + Step.total (c n).2)).2) :=
  rfl

theorem scope_result (name : String) (c : Circuit α) (n : Nat) :
    scope name c n = ((c n).1, (c n).2.map (Step.under name)) :=
  rfl

/-! ### Any assignment -/

namespace Forces

variable {P : α → Prop} {Q : β → Prop}

theorem pure {x : β} (h : Q x) : Forces a (Pure.pure x) Q :=
  fun _ _ => h

theorem bind (hc : Forces a c P) (hf : ∀ x, P x → Forces a (f x) Q) : Forces a (c >>= f) Q := by
  intro n h
  rw [bind_result] at h ⊢
  obtain ⟨hfirst, hsecond⟩ := (Step.hold_append a).mp h
  exact hf _ (hc n hfirst) _ hsecond

theorem scope {name : String} (h : Forces a c P) : Forces a (c.scope name) P := by
  intro n hn
  exact h n ((Step.hold_map_under a).mp hn)

theorem mono {P' : α → Prop} (h : Forces a c P) (himp : ∀ x, P x → P' x) : Forces a c P' :=
  fun n hn => himp _ (h n hn)

/-- Nothing is known of the result if nothing is asked. -/
theorem trivial : Forces a c fun _ => True :=
  fun _ _ => .intro

/-- A step of which nothing needs to be known. -/
theorem skip (hf : ∀ x, Forces a (f x) Q) : Forces a (c >>= f) Q :=
  bind trivial fun x _ => hf x

theorem enforce {name : String} {left right product : LinearForm} :
    Forces a (enforce name left right product) fun _ =>
      a.eval left * a.eval right = a.eval product := by
  intro n h
  exact (a.holds_iff _).mp (h _ List.mem_cons_self)

theorem equate {name : String} {left right : LinearForm} :
    Forces a (equate name left right) fun _ => a.eval left = a.eval right := by
  refine enforce.mono fun _ h => ?_
  rwa [Assignment.eval_one, Fin.mul_one] at h

end Forces

/-! ### Honest runs -/

namespace Runs

variable {good more : Prop} {P : α → Prop} {Q : β → Prop}

theorem pure {x : β} (h : Q x) : Runs a (Pure.pure x) True Q :=
  fun _ _ => ⟨by simp [Step.Complete, Pure.pure, Circuit.pure],
    by simp [Step.Hold, Pure.pure, Circuit.pure], h⟩

/-- Conditions of consecutive circuits have to be met together. -/
theorem seq (hc : Runs a c good P) (hf : ∀ x, P x → Runs a (f x) more Q) :
    Runs a (c >>= f) (good ∧ more) Q := by
  intro n h
  rw [bind_result] at h ⊢
  obtain ⟨hfirst, hsecond⟩ := (Step.follow_append a).mp h
  obtain ⟨hcomplete, hgood, hP⟩ := hc n hfirst
  obtain ⟨hcomplete₂, hmore, hQ⟩ := hf _ hP _ hsecond
  refine ⟨Step.complete_append.mpr ⟨hcomplete, hcomplete₂⟩, ?_, hQ⟩
  rw [Step.hold_append, hgood, hmore]

theorem weaken (h : Runs a c good P) (hiff : good ↔ more) : Runs a c more P :=
  fun n hn => ⟨(h n hn).1, (h n hn).2.1.trans hiff, (h n hn).2.2⟩

/-- A circuit that is always satisfied leaves the condition to the next one. -/
theorem bind (hc : Runs a c True P) (hf : ∀ x, P x → Runs a (f x) good Q) :
    Runs a (c >>= f) good Q :=
  (hc.seq hf).weaken (iff_of_eq (true_and good))

/-- A circuit without a result. -/
theorem next {c : Circuit Unit} {P : Unit → Prop} {f : Unit → Circuit β} (hc : Runs a c True P)
    (hf : Runs a (f ()) good Q) : Runs a (c >>= f) good Q :=
  hc.bind fun _ _ => hf

theorem scope {name : String} (h : Runs a c good P) : Runs a (c.scope name) good P := by
  intro n hn
  obtain ⟨hcomplete, hgood, hP⟩ := h n ((Step.follow_map_under a).mp hn)
  rw [scope_result]
  exact ⟨Step.complete_map_under.mpr hcomplete, (Step.hold_map_under a).trans hgood, hP⟩

theorem mono {P' : α → Prop} (h : Runs a c good P) (himp : ∀ x, P x → P' x) : Runs a c good P' :=
  fun n hn => ⟨(h n hn).1, (h n hn).2.1, himp _ (h n hn).2.2⟩

theorem enforce {name : String} {left right product : LinearForm} :
    Runs a (enforce name left right product) (a.eval left * a.eval right = a.eval product)
      fun _ => True := by
  intro n _
  refine ⟨?_, ?_, .intro⟩
  · simp [Circuit.enforce, Step.Complete, Step.IsKnown]
  · simp [Circuit.enforce, Step.Hold, Step.IsSatisfied, Assignment.holds_iff]

/-- An equation that is true of the honest values. -/
theorem enforce_true {name : String} {left right product : LinearForm}
    (h : a.eval left * a.eval right = a.eval product) :
    Runs a (Circuit.enforce name left right product) True fun _ => True :=
  enforce.weaken (iff_true_intro h)

theorem equate {name : String} {left right : LinearForm} :
    Runs a (equate name left right) (a.eval left = a.eval right) fun _ => True := by
  refine enforce.weaken ?_
  rw [Assignment.eval_one, Fin.mul_one]

theorem fresh {name : String} {x : Scalar} :
    Runs a (fresh name (some x)) True fun v => a.value v = x := by
  intro n h
  refine ⟨?_, ?_, h.1 x rfl⟩
  · simp [Circuit.fresh, Step.Complete, Step.IsKnown]
  · simp [Circuit.fresh, Step.Hold, Step.IsSatisfied]

end Runs

end Circuit

/-! ### Relations -/

namespace Relation

variable {r : Relation} {z : List Scalar} {circuit : Circuit (List (Wire Scalar))}
  {good : Prop} {Q : List (Wire Scalar) → Prop}

/-- If the honest run of a relation meets its condition exactly if `good` is true, the relation
is built, and the system is satisfied in this case alone. -/
theorem exists_build (hcircuit : r.circuit (inputWires 0 z) = .ok circuit)
    (hruns : ∀ a : Assignment, (∀ i x, z[i]? = some x → a.value (.aux i) = x) →
      Circuit.Runs a circuit good Q) :
    ∃ s outputs, r.build z = .ok (s, inputWires 0 z, outputs) ∧ (s.isSatisfied = true ↔ good) := by
  obtain ⟨hcomplete, hgood, -⟩ := hruns (honestAssignment z circuit)
    (fun _ _ => honestAssignment_input) _ follow_honestAssignment.2
  exact ⟨_, _, build_of_complete hcircuit hcomplete, isSatisfied_honestSystem.trans hgood⟩

/-- If moreover `good` is true, the honest values are accepted. -/
theorem exists_isAccepted (hcircuit : r.circuit (inputWires 0 z) = .ok circuit)
    (hruns : ∀ a : Assignment, (∀ i x, z[i]? = some x → a.value (.aux i) = x) →
      Circuit.Runs a circuit good Q) (hgood : good) :
    ∃ a : Assignment, a.IsAccepted r z := by
  have h := hruns (honestAssignment z circuit) (fun _ _ => honestAssignment_input) _
    follow_honestAssignment.2
  exact ⟨honestAssignment z circuit, circuit, hcircuit, fun _ _ => honestAssignment_input,
    h.2.1.mpr hgood⟩

end Relation

/-- Where the honest run of a circuit meets its condition, some assignment to the numbers before
the circuit and to its variables satisfies the constraints. -/
theorem Circuit.exists_hold {α : Type} {c : Circuit α} {good : Prop} {Q : Assignment → α → Prop}
    {z : List Scalar} (hruns : ∀ a : Assignment, (∀ i x, z[i]? = some x → a.value (.aux i) = x) →
      Circuit.Runs a c good (Q a)) (hgood : good) :
    ∃ a : Assignment, (∀ i x, z[i]? = some x → a.value (.aux i) = x) ∧
      Step.Hold a (c z.length).2 ∧ Q a (c z.length).1 := by
  -- A relation has wires as its result; the steps are those of the circuit.
  let steps : Circuit (List (Wire Scalar)) := fun n => ([], (c n).2)
  obtain ⟨-, hhold, hQ⟩ := hruns (Relation.honestAssignment z steps)
    (fun _ _ => Relation.honestAssignment_input) _ Relation.follow_honestAssignment.2
  exact ⟨Relation.honestAssignment z steps, fun _ _ => Relation.honestAssignment_input,
    hhold.mpr hgood, hQ⟩

end AccessContext.R1cs
