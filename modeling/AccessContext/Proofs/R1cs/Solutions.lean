import AccessContext.Proofs.R1cs.Triple

/-!
# Solutions of a circuit

Values for the variables before a circuit are given, and those of its own variables are to be chosen
so that its constraints are satisfied. Forms over the given variables keep their values, whatever is
chosen. The constraints of a circuit are those of its parts, each at the place where its variables
start.
-/

namespace AccessContext.R1cs

/-! ### Forms over the first variables -/

/-- Whether a variable is the constant or among the first `n`. -/
def Var.IsBelow (n : Nat) : Var → Prop
  | one => True
  | aux i => i < n

namespace LinearForm

/-- Whether all variables of a form are the constant or among the first `n`. -/
def IsBelow (n : Nat) (f : LinearForm) : Prop :=
  ∀ term ∈ f.terms, term.2.IsBelow n

variable {n m : Nat} {f g : LinearForm}

theorem IsBelow.mono (h : f.IsBelow n) (hle : n ≤ m) : f.IsBelow m := by
  rintro ⟨c, v⟩ hmem
  have hv := h _ hmem
  cases v with
  | one => trivial
  | aux i => exact Nat.lt_of_lt_of_le hv hle

theorem IsBelow.ofVar {v : Var} (h : v.IsBelow n) : (LinearForm.ofVar v).IsBelow n := by
  intro term hmem
  rwa [List.mem_singleton.mp hmem]

theorem IsBelow.one : LinearForm.one.IsBelow n :=
  .ofVar trivial

theorem IsBelow.constant (k : Scalar) : (LinearForm.constant k).IsBelow n := by
  intro term hmem
  rw [List.mem_singleton.mp hmem]
  trivial

theorem IsBelow.scale {k : Scalar} (h : f.IsBelow n) : (f.scale k).IsBelow n := by
  intro term hmem
  obtain ⟨t, ht, rfl⟩ := List.mem_map.mp hmem
  exact h t ht

theorem IsBelow.add (hf : f.IsBelow n) (hg : g.IsBelow n) : (f + g).IsBelow n :=
  List.forall_mem_append.mpr ⟨hf, hg⟩

theorem IsBelow.sub (hf : f.IsBelow n) (hg : g.IsBelow n) : (f - g).IsBelow n := by
  refine List.forall_mem_append.mpr ⟨hf, fun term hmem => ?_⟩
  obtain ⟨t, ht, rfl⟩ := List.mem_map.mp hmem
  exact hg t ht

end LinearForm

/-! ### Assignments with the same first values -/

namespace Assignment

variable {n m : Nat} {a b c : Assignment} {f : LinearForm}

/-- Whether two assignments give the first `n` variables the same values. -/
def AgreesBelow (n : Nat) (a b : Assignment) : Prop :=
  ∀ i < n, b.value (.aux i) = a.value (.aux i)

theorem AgreesBelow.trans (hab : a.AgreesBelow n b) (hbc : b.AgreesBelow n c) :
    a.AgreesBelow n c :=
  fun i hi => (hbc i hi).trans (hab i hi)

theorem AgreesBelow.mono (h : a.AgreesBelow m b) (hle : n ≤ m) : a.AgreesBelow n b :=
  fun i hi => h i (Nat.lt_of_lt_of_le hi hle)

/-- A form has the same value if its variables have. -/
theorem AgreesBelow.eval (h : a.AgreesBelow n b) (hf : f.IsBelow n) : b.eval f = a.eval f := by
  have hvalue (v : Var) (hv : v.IsBelow n) : b.value v = a.value v := by
    cases v with
    | one => rw [a.value_one, b.value_one]
    | aux i => exact h i hv
  obtain ⟨terms⟩ := f
  show LinearForm.evalTerms b.value terms = LinearForm.evalTerms a.value terms
  induction terms with
  | nil => rfl
  | cons term terms ih =>
    obtain ⟨hterm, hterms⟩ := List.forall_mem_cons.mp hf
    rw [LinearForm.evalTerms, LinearForm.evalTerms, hvalue _ hterm, ih hterms]

/-- The same first `n` values, and others from there on. -/
def extend (a : Assignment) (n : Nat) (values : Nat → Scalar) : Assignment where
  value
    | .one => 1
    | .aux i => if i < n then a.value (.aux i) else values (i - n)
  value_one := rfl

theorem agreesBelow_extend (a : Assignment) (n : Nat) (values : Nat → Scalar) :
    a.AgreesBelow n (a.extend n values) :=
  fun _ hi => if_pos hi

theorem value_extend (a : Assignment) (n : Nat) (values : Nat → Scalar) (i : Nat) :
    (a.extend n values).value (.aux (n + i)) = values i := by
  show (if n + i < n then _ else values (n + i - n)) = _
  rw [if_neg (by omega), Nat.add_sub_cancel_left]

end Assignment

namespace Circuit

variable {α β : Type} {a b : Assignment} {c : Circuit α} {f : α → Circuit β} {n : Nat}

/-- Whether an assignment keeps the values of the first `n` variables and satisfies the constraints
of a circuit that comes after them. -/
structure IsSolution (c : Circuit α) (n : Nat) (a b : Assignment) : Prop where
  agrees : a.AgreesBelow n b
  hold : Step.Hold b (c n).2

/-! ### The constraints of the parts -/

theorem hold_pure {x : α} : Step.Hold a ((pure x : Circuit α) n).2 :=
  List.forall_mem_nil _

theorem hold_bind : Step.Hold a ((c >>= f) n).2 ↔
    Step.Hold a (c n).2 ∧ Step.Hold a (f (c n).1 (n + Step.total (c n).2)).2 :=
  Step.hold_append a

theorem hold_scope {name : String} : Step.Hold a (c.scope name n).2 ↔ Step.Hold a (c n).2 :=
  Step.hold_map_under a

theorem hold_enforce {name : String} {left right product : LinearForm} :
    Step.Hold a (enforce name left right product n).2 ↔
      a.eval left * a.eval right = a.eval product := by
  rw [← a.holds_iff ⟨[name], left, right, product⟩]
  exact List.forall_mem_singleton

theorem hold_equate {name : String} {left right : LinearForm} :
    Step.Hold a (equate name left right n).2 ↔ a.eval left = a.eval right := by
  rw [equate, hold_enforce, Assignment.eval_one, Fin.mul_one]

theorem hold_fresh {name : String} {value : Option Scalar} :
    Step.Hold a (fresh name value n).2 :=
  List.forall_mem_singleton.mpr trivial

/-! ### Missing values of the parts -/

theorem complete_bind : Step.Complete ((c >>= f) n).2 ↔
    Step.Complete (c n).2 ∧ Step.Complete (f (c n).1 (n + Step.total (c n).2)).2 :=
  Step.complete_append

theorem complete_scope {name : String} :
    Step.Complete (c.scope name n).2 ↔ Step.Complete (c n).2 :=
  Step.complete_map_under

theorem complete_fresh {name : String} {value : Option Scalar} :
    Step.Complete (fresh name value n).2 ↔ value.isSome = true :=
  List.forall_mem_singleton

/-! ### Runs in a system -/

/-- A circuit whose honest run is always satisfied runs to its end, and the values it leaves are a
solution. -/
theorem Runs.exists_run {σ : System} (hone : σ.one = 1) {Q : Assignment → α → Prop}
    (h : ∀ b, (σ.assignment hone).AgreesBelow σ.aux.size b → Runs b c True (Q b)) :
    ∃ τ hτ, c.run σ = (τ, .ok (c σ.aux.size).1) ∧
      IsSolution c σ.aux.size (σ.assignment hone) (τ.assignment hτ) ∧
      Q (τ.assignment hτ) (c σ.aux.size).1 := by
  let τ := σ.extended (c σ.aux.size).2
  have hτ : τ.one = 1 := (σ.extended_one _).trans hone
  have hagrees : (σ.assignment hone).AgreesBelow σ.aux.size (τ.assignment hτ) :=
    fun _ hi => σ.value_extended _ hi
  obtain ⟨hcomplete, hhold, hQ⟩ := h _ hagrees _ (σ.follow_extended _ (τ.assignment hτ) rfl)
  refine ⟨τ, hτ, ?_, ⟨hagrees, hhold.mpr trivial⟩, hQ⟩
  unfold Circuit.run
  simp only [System.extend_of_complete hcomplete]
  rfl

/-- A circuit in which an honest value is missing stops there. -/
theorem exists_run_of_not_complete {σ : System} (h : ¬ Step.Complete (c σ.aux.size).2) :
    ∃ τ, c.run σ = (τ, .error .missingValue) := by
  unfold Circuit.run
  dsimp only
  split
  · next hextend => exact absurd (System.complete_of_extend hextend) h
  · next τ hextend => exact ⟨τ, rfl⟩

end Circuit

end AccessContext.R1cs
