import AccessContext.Proof.Seal
import AccessContext.Proofs.PublicSignals
import AccessContext.Theory.Preimages

/-!
# Signals of a statement

The verifier decodes ten words and hashes their bytes together with the policy's version, its digest
and the challenge. No two vectors of words pass for one: what is decoded determines the words, and
the string that is hashed determines what was decoded. Main statement: `PublicSignals.ofList_exact`.
-/

namespace AccessContext

namespace Statement

/-- The string behind the hash of a statement. -/
def preimage (s : Statement) : List UInt8 :=
  commitPreimage (utf8 "zkctx/public-inputs/v1") s.parts

/-- Only the challenge has no fixed length, so the string determines the signals. -/
theorem signals_eq_of_preimage {s t : Statement} (h : s.preimage = t.preimage) :
    s.signals = t.signals := by
  have hparts := commitPreimage_inj_of_sum
    (by simp [parts, Bytes32.length_toList, PublicSignals.length_toBytes]) h
  simp only [parts, List.cons.injEq] at hparts
  exact PublicSignals.toBytes_eq_iff.mp hparts.2.2.2.1

end Statement

namespace PublicSignals

/-- Words are read as the signals they were written from, if these require known categories alone.
All other words lead to an error, which says what is wrong with them: a malformed proof, or a level
out of range. The bytes of two signals are the same only if the signals are. So statements whose
signals were read from different words have different hashes, unless the strings behind these
collide. -/
theorem ofList_exact (words : List UInt64) :
    (∀ g, ofList words = .ok g ↔ words = g.toList ∧ g.requirements.isKnown = true) ∧
      ((∃ e, ofList words = .error e ∧ IsMisread words e) ↔
        ¬ ∃ g : PublicSignals, words = g.toList ∧ g.requirements.isKnown = true) ∧
      (∀ g h : PublicSignals, g.toBytes = h.toBytes ↔ g = h) ∧
      ∀ (words' : List UInt64) (s t : Statement), ofList words = .ok s.signals →
        ofList words' = .ok t.signals → s.hash = t.hash →
        words = words' ∨ Collide s.preimage t.preimage := by
  refine ⟨fun g => ofList_eq_ok_iff, ?_, fun g h => toBytes_eq_iff, ?_⟩
  · simp only [← ofList_eq_ok_iff]
    constructor
    · rintro ⟨e, he, -⟩ ⟨g, hg⟩
      rw [hg] at he
      cases he
    · intro hnone
      cases h : ofList words with
      | ok g => exact absurd ⟨g, h⟩ hnone
      | error e => exact ⟨e, rfl, isMisread_of_error h⟩
  · intro words' s t hs ht hhash
    refine (sha3_eq_iff.mp hhash).imp_left fun hpreimage => ?_
    rw [(ofList_eq_ok_iff.mp hs).1, (ofList_eq_ok_iff.mp ht).1,
      Statement.signals_eq_of_preimage hpreimage]

/-- Words with a fifth level are no signals. Those of a denial are, and stand in its statement. -/
theorem ofList_exact_denied :
    (∃ e, ofList [1, 1, 0, 1, 0, 96, 1, 5, 15, 33] = .error e ∧
      IsMisread [1, 1, 0, 1, 0, 96, 1, 5, 15, 33] e) ∧
    ∃ s : Statement, ofList [0, 0, 0, 0, 1, 0, 0, 1, 0, 100] = .ok s.signals ∧
      ([0, 0, 0, 0, 1, 0, 0, 1, 0, 100] = [0, 0, 0, 0, 1, 0, 0, 1, 0, (100 : UInt64)] ∨
        Collide s.preimage s.preimage) := by
  have hread : ofList [0, 0, 0, 0, 1, 0, 0, 1, 0, 100] =
      .ok ⟨false, false, false, false, true, 0, false, .basic, .empty, 100⟩ := rfl
  refine ⟨(ofList_exact [1, 1, 0, 1, 0, 96, 1, 5, 15, 33]).2.1.mpr ?_,
    ⟨Snapshot.lenient, ⟨[1]⟩, _⟩, hread, ?_⟩
  · rintro ⟨g, hwords, -⟩
    have hlevel : (5 : UInt64) = g.level.number.toUInt64 := congrArg (·[7]!) hwords
    revert hlevel
    cases g.level <;> decide
  · exact (ofList_exact _).2.2.2 _ ⟨Snapshot.lenient, ⟨[1]⟩, _⟩
      ⟨Snapshot.lenient, ⟨[1]⟩, _⟩ hread hread rfl

end PublicSignals

end AccessContext
