import AccessContext.Theory.Preimages
import AccessContext.Theory.Words

/-!
# Commitments determine their tag and their parts

The string that a commitment hashes does not say how many parts there are. Each part stands behind
its length, though, so it can be cut off the front whatever follows, and the list of parts ends where
the string ends. Only lengths that do not fit in their eight bytes are excluded. Main statement:
`commitPreimage_eq_iff`.
-/

namespace AccessContext

/-- Two strings that commitments hash are the same exactly if the tags are the same and the parts are
the same one by one: no byte can move between two parts or between the tag and a part, and no part can
be added, removed or split. So commitments that agree have the same tag and parts, unless their strings
collide. -/
theorem commitPreimage_eq_iff (tag tag' : List UInt8) (ps qs : List (List UInt8))
    (hps : ∀ part ∈ tag :: ps, part.length < 2 ^ 64)
    (hqs : ∀ part ∈ tag' :: qs, part.length < 2 ^ 64) :
    (commitPreimage tag ps = commitPreimage tag' qs ↔ tag = tag' ∧ ps = qs) ∧
    (commit tag ps = commit tag' qs ↔
      (tag = tag' ∧ ps = qs) ∨ Collide (commitPreimage tag ps) (commitPreimage tag' qs)) := by
  have hpreimage : commitPreimage tag ps = commitPreimage tag' qs ↔ tag = tag' ∧ ps = qs := by
    constructor
    · intro h
      -- The tag is read like a part, as it stands behind its length too.
      refine List.cons.inj (flatMap_lengthPrefixed_inj (fun i p q hp hq => ?_) h)
      exact leBytes_inj (hps p (List.mem_of_getElem? hp)) (hqs q (List.mem_of_getElem? hq))
    · rintro ⟨rfl, rfl⟩
      rfl
  exact ⟨hpreimage, sha3_eq_iff.trans (or_congr_left hpreimage)⟩

/-- A byte moved to the next part, one moved from the tag, and an empty part added. -/
theorem commitPreimage_eq_iff_moved :
    commitPreimage [1] [[2, 3], [4]] ≠ commitPreimage [1] [[2], [3, 4]] ∧
    commitPreimage [1, 2] [[3]] ≠ commitPreimage [1] [[2, 3]] ∧
    commitPreimage [1] [[2]] ≠ commitPreimage [1] [[2], []] := by
  refine ⟨?_, ?_, ?_⟩
  · rw [ne_eq, (commitPreimage_eq_iff [1] [1] [[2, 3], [4]] [[2], [3, 4]] (by simp) (by simp)).1]
    decide
  · rw [ne_eq, (commitPreimage_eq_iff [1, 2] [1] [[3]] [[2, 3]] (by simp) (by simp)).1]
    decide
  · rw [ne_eq, (commitPreimage_eq_iff [1] [1] [[2]] [[2], []] (by simp) (by simp)).1]
    decide

end AccessContext
