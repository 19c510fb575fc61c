import AccessContext.Proofs.R1cs.Triple

/-!
# Named variables

A circuit gives a name to every variable that it allocates. What its constraints force upon an
assignment can then be said of single variables, by their names, and not only of the result.
-/

namespace AccessContext.R1cs

namespace Step

/-- The variables that steps allocate, with their names; the first of them has number `n`. -/
def allocated : Nat → List Step → List (Path × Var)
  | _, [] => []
  | n, .wire path _ :: rest => (path, .aux n) :: allocated (n + 1) rest
  | n, .constraint _ :: rest => allocated n rest

theorem allocated_append {n : Nat} {s t : List Step} :
    allocated n (s ++ t) = allocated n s ++ allocated (n + total s) t := by
  induction s generalizing n with
  | nil => rfl
  | cons step s ih =>
    cases step with
    | wire path value => simp [allocated, total, size, ih, Nat.add_assoc]
    | constraint c => simp [allocated, total, size, ih]

theorem allocated_map_under {scope : String} {n : Nat} {s : List Step} :
    allocated n (s.map (under scope)) =
      (allocated n s).map fun (path, v) => (scope :: path, v) := by
  induction s generalizing n with
  | nil => rfl
  | cons step s ih => cases step <;> simp [allocated, under, ih]

end Step

namespace Circuit

variable {α β : Type} {a : Assignment} {c : Circuit α} {f : α → Circuit β}
  {known : Path → Scalar → Prop} {P : α → Prop} {Q : β → Prop}

/-- Whether a circuit, before which `n` variables are counted, has a variable with a name and an
assignment gives it a value. -/
def Gives (a : Assignment) (c : Circuit α) (n : Nat) (path : Path) (x : Scalar) : Prop :=
  ∃ v, (path, v) ∈ Step.allocated n (c n).2 ∧ a.value v = x

/-- Whether `Q` is true of the result wherever the constraints are satisfied and the names and
values of all variables are `known`. -/
def Shows (a : Assignment) (known : Path → Scalar → Prop) (c : Circuit α) (Q : α → Prop) : Prop :=
  ∀ n, (∀ path v, (path, v) ∈ Step.allocated n (c n).2 → known path (a.value v)) →
    Step.Hold a (c n).2 → Q (c n).1

namespace Shows

/-- The names in a circuit are known to be its own. -/
theorem of_gives {n : Nat} (h : Shows a (Gives a c n) c P) (hhold : Step.Hold a (c n).2) :
    P (c n).1 :=
  h n (fun _ v hv => ⟨v, hv, rfl⟩) hhold

theorem forces (h : Shows a (fun _ _ => True) c P) : Forces a c P :=
  fun n hn => h n (fun _ _ _ => .intro) hn

theorem pure {x : β} (h : Q x) : Shows a known (Pure.pure x) Q :=
  fun _ _ _ => h

theorem bind (hc : Shows a known c P) (hf : ∀ x, P x → Shows a known (f x) Q) :
    Shows a known (c >>= f) Q := by
  intro n hknown h
  rw [bind_result] at hknown h ⊢
  rw [Step.allocated_append] at hknown
  obtain ⟨hfirst, hsecond⟩ := (Step.hold_append a).mp h
  have hP := hc n (fun path v hv => hknown path v (List.mem_append_left _ hv)) hfirst
  exact hf _ hP _ (fun path v hv => hknown path v (List.mem_append_right _ hv)) hsecond

/-- A step whose names do not matter. -/
theorem next (hc : Forces a c P) (hf : ∀ x, P x → Shows a known (f x) Q) :
    Shows a known (c >>= f) Q :=
  bind (fun n _ hn => hc n hn) hf

theorem last (h : Forces a c P) : Shows a known c P :=
  fun n _ hn => h n hn

theorem scope {name : String} (h : Shows a (fun path => known (name :: path)) c P) :
    Shows a known (c.scope name) P := by
  intro n hknown hn
  rw [scope_result, Step.allocated_map_under] at hknown
  refine h n (fun path v hv => hknown _ v ?_) ((Step.hold_map_under a).mp hn)
  exact List.mem_map.mpr ⟨(path, v), hv, rfl⟩

theorem mono {P' : α → Prop} (h : Shows a known c P) (himp : ∀ x, P x → P' x) :
    Shows a known c P' :=
  fun n hknown hn => himp _ (h n hknown hn)

/-- The value of a new variable is known by its name. -/
theorem fresh {name : String} {value : Option Scalar} :
    Shows a known (fresh name value) fun v => known [name] (a.value v) :=
  fun n hknown _ => hknown _ (.aux n) List.mem_cons_self

end Shows

end Circuit

end AccessContext.R1cs
