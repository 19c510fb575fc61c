import AccessContext.Commitment
import Mathlib.Algebra.Ring.Nat
import Mathlib.Tactic.Common

/-!
# Preimages of commitments

Parts are cut out of the string that a commitment hashes, each by the length in front of it, so the
string determines them. Two strings collide if they differ and the hash does not tell; commitments
that agree and do not collide are made of the same string. Main statements: `sha3_eq_iff`,
`flatMap_lengthPrefixed_inj`, `commitPreimage_inj`.
-/

namespace AccessContext

/-- Whether two strings are different and have the same digest. -/
def Collide (x y : List UInt8) : Prop :=
  x ≠ y ∧ sha3 x = sha3 y

theorem sha3_eq_iff {x y : List UInt8} : sha3 x = sha3 y ↔ x = y ∨ Collide x y := by
  constructor
  · intro h
    by_cases heq : x = y
    · exact .inl heq
    · exact .inr ⟨heq, h⟩
  · rintro (heq | hcollide)
    · exact congrArg sha3 heq
    · exact hcollide.2

theorem eq_of_not_collide {x y : List UInt8} (h : ¬ Collide x y) (heq : sha3 x = sha3 y) : x = y :=
  (sha3_eq_iff.mp heq).resolve_right h

theorem not_collide_self (x : List UInt8) : ¬ Collide x x :=
  fun h => h.1 rfl

theorem length_lengthPrefixed (part : List UInt8) :
    (lengthPrefixed part).length = 8 + part.length := by
  rw [lengthPrefixed, List.length_append, length_leBytes]

/-- A part is cut off the front of a string, if the eight bytes before it tell its length. -/
theorem lengthPrefixed_append_inj {p q x y : List UInt8}
    (hlength : leBytes 8 p.length = leBytes 8 q.length → p.length = q.length)
    (h : lengthPrefixed p ++ x = lengthPrefixed q ++ y) : p = q ∧ x = y := by
  rw [lengthPrefixed, lengthPrefixed, List.append_assoc, List.append_assoc] at h
  obtain ⟨hhead, hrest⟩ := List.append_inj h (by rw [length_leBytes, length_leBytes])
  exact List.append_inj hrest (hlength hhead)

theorem flatMap_lengthPrefixed_eq_nil_iff {ps : List (List UInt8)} :
    ps.flatMap lengthPrefixed = [] ↔ ps = [] := by
  cases ps with
  | nil => exact iff_of_true rfl rfl
  | cons p ps =>
    refine iff_of_false (fun h => ?_) (List.cons_ne_nil p ps)
    have hlength := congrArg List.length h
    rw [List.flatMap_cons, List.length_append, length_lengthPrefixed, List.length_nil] at hlength
    omega

/-- Parts are read back from the front, one after another, until the string ends. -/
theorem flatMap_lengthPrefixed_inj {ps qs : List (List UInt8)}
    (hlength : ∀ (i : Nat) (p q : List UInt8), ps[i]? = some p → qs[i]? = some q →
      leBytes 8 p.length = leBytes 8 q.length → p.length = q.length)
    (h : ps.flatMap lengthPrefixed = qs.flatMap lengthPrefixed) : ps = qs := by
  induction ps generalizing qs with
  | nil => exact (flatMap_lengthPrefixed_eq_nil_iff.mp h.symm).symm
  | cons p ps ih =>
    cases qs with
    | nil => exact flatMap_lengthPrefixed_eq_nil_iff.mp h
    | cons q qs =>
      rw [List.flatMap_cons, List.flatMap_cons] at h
      obtain ⟨rfl, hrest⟩ := lengthPrefixed_append_inj (hlength 0 p q rfl rfl) h
      rw [ih (fun i => hlength (i + 1)) hrest]

/-- Parts of the same lengths are determined by the string that is hashed. -/
theorem commitPreimage_inj {tag : List UInt8} {ps qs : List (List UInt8)}
    (hlength : ps.map List.length = qs.map List.length)
    (h : commitPreimage tag ps = commitPreimage tag qs) : ps = qs := by
  refine flatMap_lengthPrefixed_inj (fun i p q hp hq _ => ?_) (List.append_cancel_left h)
  have hplace := congrArg (fun lengths => lengths[i]?) hlength
  simpa [hp, hq] using hplace

theorem length_commitPreimage (tag : List UInt8) (ps : List (List UInt8)) :
    (commitPreimage tag ps).length = 8 + tag.length + (ps.map fun p => 8 + p.length).sum := by
  rw [commitPreimage, List.length_append, length_lengthPrefixed, List.length_flatMap]
  simp only [length_lengthPrefixed]

/-- It is enough that the lengths of the parts follow from their sum, as they do if only one part has
no fixed length. -/
theorem commitPreimage_inj_of_sum {tag : List UInt8} {ps qs : List (List UInt8)}
    (hlength : (ps.map fun p => 8 + p.length).sum = (qs.map fun q => 8 + q.length).sum →
      ps.map List.length = qs.map List.length)
    (h : commitPreimage tag ps = commitPreimage tag qs) : ps = qs := by
  have htotal := congrArg List.length h
  rw [length_commitPreimage, length_commitPreimage] at htotal
  exact commitPreimage_inj (hlength (Nat.add_left_cancel htotal)) h

/-- Commitments of one shape that agree have the same parts, unless their strings collide. -/
theorem parts_eq_of_commit {tag : List UInt8} {ps qs : List (List UInt8)}
    (hcollide : ¬ Collide (commitPreimage tag ps) (commitPreimage tag qs))
    (hlength : ps.map List.length = qs.map List.length) (h : commit tag ps = commit tag qs) :
    ps = qs :=
  commitPreimage_inj hlength (eq_of_not_collide hcollide h)

end AccessContext
