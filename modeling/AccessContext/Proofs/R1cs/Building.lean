import AccessContext.Proofs.R1cs.Assignment
import AccessContext.R1cs.System

/-!
# Building relations

A relation puts constraints on a vector of numbers, whatever values the other variables get: an
assignment is accepted if it gives the vector its numbers and satisfies these constraints. If no
honest value is missing, building the relation succeeds; the system that is built holds the same
constraints, and its own values are an assignment that follows all honest values. Main
statements: `Relation.build_of_complete`, `Relation.isSatisfied_honestSystem`.
-/

namespace AccessContext.R1cs

open Fin.CommRing

/-- Variables for given numbers, the first of which has number `n`. -/
def inputWires : Nat → List Scalar → List (Wire Scalar)
  | _, [] => []
  | n, x :: xs => ⟨.aux n, some x⟩ :: inputWires (n + 1) xs

namespace Assignment

/-- Whether an assignment satisfies every constraint that a relation puts on the given numbers,
which are the values of its first variables. -/
def IsAccepted (a : Assignment) (r : Relation) (z : List Scalar) : Prop :=
  ∃ circuit, r.circuit (inputWires 0 z) = .ok circuit ∧
    (∀ i x, z[i]? = some x → a.value (.aux i) = x) ∧ Step.Hold a (circuit z.length).2

end Assignment

/-! ### Systems -/

namespace System

/-- The values in a system, which an assignment has to be if the constant is one. -/
def assignment (s : System) (h : s.one = 1) : Assignment :=
  ⟨s.value, h⟩

/-- What a system is after it took steps with no value missing. -/
def extended (s : System) : List Step → System
  | [] => s
  | .wire path value :: rest => extended { s with aux := s.aux.push ⟨path, value.getD 0⟩ } rest
  | .constraint c :: rest => extended { s with constraints := s.constraints.push c } rest

theorem extend_of_complete {s : System} {steps : List Step} (h : Step.Complete steps) :
    s.extend steps = (s.extended steps, true) := by
  induction steps generalizing s with
  | nil => rfl
  | cons step rest ih =>
    obtain ⟨hstep, hrest⟩ := List.forall_mem_cons.mp h
    cases step with
    | wire path value =>
      obtain ⟨x, rfl⟩ := Option.isSome_iff_exists.mp hstep
      exact ih hrest
    | constraint c => exact ih hrest

/-- A system that took all steps found no value missing. -/
theorem complete_of_extend {s t : System} {steps : List Step} (h : s.extend steps = (t, true)) :
    Step.Complete steps := by
  induction steps generalizing s with
  | nil => exact List.forall_mem_nil _
  | cons step rest ih =>
    cases step with
    | wire path value =>
      cases value with
      | none => cases h
      | some x => exact List.forall_mem_cons.mpr ⟨rfl, ih h⟩
    | constraint c => exact List.forall_mem_cons.mpr ⟨trivial, ih h⟩

@[simp] theorem extended_one (s : System) (steps : List Step) :
    (s.extended steps).one = s.one := by
  induction steps generalizing s with
  | nil => rfl
  | cons step rest ih => cases step <;> simp [extended, ih]

@[simp] theorem size_extended (s : System) (steps : List Step) :
    (s.extended steps).aux.size = s.aux.size + Step.total steps := by
  induction steps generalizing s with
  | nil => rfl
  | cons step rest ih =>
    cases step with
    | wire path value => simp [extended, ih, Step.total, Step.size, Nat.add_assoc]
    | constraint c => simp [extended, ih, Step.total, Step.size]

theorem extended_append (s : System) (first second : List Step) :
    s.extended (first ++ second) = (s.extended first).extended second := by
  induction first generalizing s with
  | nil => rfl
  | cons step rest ih => cases step <;> simp [extended, ih]

/-- Variables that a system has keep their values. -/
theorem value_extended (s : System) (steps : List Step) {i : Nat} (hi : i < s.aux.size) :
    (s.extended steps).value (.aux i) = s.value (.aux i) := by
  induction steps generalizing s with
  | nil => rfl
  | cons step rest ih =>
    cases step with
    | wire path value =>
      rw [extended, ih]
      · simp [System.value, Array.getElem?_push_lt, hi]
      · simp
        omega
    | constraint c =>
      rw [extended, ih]
      · rfl
      · exact hi

/-- The new variables have the honest values. -/
theorem follow_extended (s : System) (steps : List Step) (a : Assignment)
    (ha : a.value = (s.extended steps).value) : Step.Follow a s.aux.size steps := by
  induction steps generalizing s with
  | nil => trivial
  | cons step rest ih =>
    cases step with
    | wire path value =>
      constructor
      · rintro x rfl
        rw [ha, extended, value_extended _ _ (by simp)]
        simp [System.value]
      · simpa using ih _ ha
    | constraint c => exact ih { s with constraints := s.constraints.push c } ha

/-- The constraints of a system are those it had and those that it took. -/
theorem forall_mem_constraints_extended (s : System) (steps : List Step) (a : Assignment) :
    (∀ c ∈ (s.extended steps).constraints, c.holds a.value = true) ↔
      (∀ c ∈ s.constraints, c.holds a.value = true) ∧ Step.Hold a steps := by
  induction steps generalizing s with
  | nil => simp [extended, Step.Hold]
  | cons step rest ih =>
    cases step with
    | wire path value =>
      rw [extended, ih]
      simp [Step.Hold, Step.IsSatisfied]
    | constraint c =>
      rw [extended, ih]
      simp only [Array.mem_push, Step.Hold, Step.IsSatisfied, List.forall_mem_cons]
      constructor
      · rintro ⟨h, hrest⟩
        exact ⟨fun d hd => h d (.inl hd), h c (.inr rfl), hrest⟩
      · rintro ⟨h, hc, hrest⟩
        refine ⟨?_, hrest⟩
        rintro d (hd | rfl)
        · exact h d hd
        · exact hc

/-- A system is satisfied if its own values satisfy all of its constraints. -/
theorem isSatisfied_iff (s : System) :
    s.isSatisfied = true ↔ ∀ c ∈ s.constraints, c.holds s.value = true := by
  simp [isSatisfied, firstUnsatisfied?]

end System

/-- A circuit that ran to its end gave its result and left all of its steps. -/
theorem Circuit.run_eq_ok {α : Type} {c : Circuit α} {s t : System} {x : α}
    (h : c.run s = (t, .ok x)) :
    t = s.extended (c s.aux.size).2 ∧ x = (c s.aux.size).1 := by
  unfold Circuit.run at h
  dsimp only at h
  split at h
  · next hextend =>
    cases h
    rw [System.extend_of_complete (System.complete_of_extend hextend)] at hextend
    cases hextend
    exact ⟨rfl, rfl⟩
  · cases h

/-! ### Relations -/

/-- The steps that allocate given numbers, the first of them with number `n`. -/
def inputSteps : Nat → List Scalar → List Step
  | _, [] => []
  | n, x :: xs => .wire ["z_" ++ toString n, "num"] (some x) :: inputSteps (n + 1) xs

@[simp] theorem length_inputWires (n : Nat) (z : List Scalar) :
    (inputWires n z).length = z.length := by
  induction z generalizing n with
  | nil => rfl
  | cons x xs ih => simp [inputWires, ih]

theorem numbersFrom_eq (n : Nat) (z : List Scalar) :
    Circuit.numbersFrom "z_" n z n = (inputWires n z, inputSteps n z) := by
  induction z generalizing n with
  | nil => rfl
  | cons x xs ih =>
    have hrest : Circuit.numbersFrom "z_" n (x :: xs) n =
        let rest := Circuit.numbersFrom "z_" (n + 1) xs (n + 1)
        (⟨.aux n, some x⟩ :: rest.1,
          .wire ["z_" ++ toString n, "num"] (some x) :: (rest.2 ++ [])) :=
      rfl
    rw [hrest, ih]
    simp only [List.append_nil]
    rfl

theorem complete_inputSteps (n : Nat) (z : List Scalar) : Step.Complete (inputSteps n z) := by
  induction z generalizing n with
  | nil => simp [Step.Complete, inputSteps]
  | cons x xs ih => exact List.forall_mem_cons.mpr ⟨rfl, ih (n + 1)⟩

theorem total_inputSteps (n : Nat) (z : List Scalar) : Step.total (inputSteps n z) = z.length := by
  induction z generalizing n with
  | nil => rfl
  | cons x xs ih =>
    simp [inputSteps, Step.total, Step.size, ih]
    omega

theorem follow_inputSteps {a : Assignment} {n : Nat} {z : List Scalar}
    (h : Step.Follow a n (inputSteps n z)) {i : Nat} {x : Scalar} (hx : z[i]? = some x) :
    a.value (.aux (n + i)) = x := by
  induction z generalizing n i with
  | nil => simp at hx
  | cons y ys ih =>
    cases i with
    | zero => exact h.1 x hx
    | succ i =>
      have := ih h.2 hx
      rwa [Nat.add_assoc, Nat.add_comm 1 i] at this

theorem hold_inputSteps (a : Assignment) (n : Nat) (z : List Scalar) :
    Step.Hold a (inputSteps n z) := by
  induction z generalizing n with
  | nil => simp [Step.Hold, inputSteps]
  | cons x xs ih => exact List.forall_mem_cons.mpr ⟨trivial, ih (n + 1)⟩

namespace Relation

variable {r : Relation} {z : List Scalar} {circuit : Circuit (List (Wire Scalar))}

/-- The system that a relation builds if no honest value is missing. -/
def honestSystem (z : List Scalar) (circuit : Circuit (List (Wire Scalar))) : System :=
  System.empty.extended (inputSteps 0 z ++ (circuit z.length).2)

/-- The values in that system. -/
def honestAssignment (z : List Scalar) (circuit : Circuit (List (Wire Scalar))) : Assignment :=
  (honestSystem z circuit).assignment (System.extended_one _ _)

theorem follow_honestAssignment :
    Step.Follow (honestAssignment z circuit) 0 (inputSteps 0 z) ∧
      Step.Follow (honestAssignment z circuit) z.length (circuit z.length).2 := by
  have h : Step.Follow (honestAssignment z circuit) 0 (inputSteps 0 z ++ (circuit z.length).2) :=
    System.follow_extended System.empty _ _ rfl
  rwa [Step.follow_append, total_inputSteps, Nat.zero_add] at h

theorem honestAssignment_input {i : Nat} {x : Scalar} (hx : z[i]? = some x) :
    (honestAssignment z circuit).value (.aux i) = x := by
  have hfollow : Step.Follow (honestAssignment z circuit) 0 (inputSteps 0 z) :=
    follow_honestAssignment.1
  have hvalue := follow_inputSteps hfollow hx
  rwa [Nat.zero_add] at hvalue

theorem build_of_complete (hcircuit : r.circuit (inputWires 0 z) = .ok circuit)
    (hcomplete : Step.Complete (circuit z.length).2) :
    r.build z = .ok (honestSystem z circuit, inputWires 0 z, (circuit z.length).1) := by
  have hsize : (System.empty.extended (inputSteps 0 z)).aux.size = z.length := by
    rw [System.size_extended, total_inputSteps]
    exact Nat.zero_add _
  have hinputs : (Circuit.numbersFrom "z_" 0 z).run .empty =
      (System.empty.extended (inputSteps 0 z), .ok (inputWires 0 z)) := by
    unfold Circuit.run
    rw [show System.empty.aux.size = 0 from rfl, numbersFrom_eq]
    simp only [System.extend_of_complete (complete_inputSteps 0 z)]
  have hrun : circuit.run (System.empty.extended (inputSteps 0 z)) =
      (honestSystem z circuit, .ok (circuit z.length).1) := by
    unfold Circuit.run honestSystem
    rw [hsize, System.extended_append]
    simp only [System.extend_of_complete hcomplete]
  unfold Relation.build
  rw [hinputs]
  simp only [bind, Except.bind, hcircuit, hrun]
  rfl

theorem isSatisfied_honestSystem :
    (honestSystem z circuit).isSatisfied = true ↔
      Step.Hold (honestAssignment z circuit) (circuit z.length).2 := by
  rw [System.isSatisfied_iff]
  have h := System.forall_mem_constraints_extended System.empty
    (inputSteps 0 z ++ (circuit z.length).2) (honestAssignment z circuit)
  rw [Step.hold_append] at h
  refine h.trans ⟨fun h => h.2.2, fun h => ⟨?_, hold_inputSteps _ 0 z, h⟩⟩
  intro c hc
  simp [System.empty] at hc

end Relation

end AccessContext.R1cs
