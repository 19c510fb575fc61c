import AccessContext.Proof.Seal

/-!
# Seals and their bytes

A seal has 99 bytes in one layout, and its fields are read where they were put. So a seal belongs
to a statement exactly if it is laid out from some commitment, the tag for it and the hash of the
statement. Main statement: `SealedProof.seals_iff`.
-/

namespace AccessContext.SealedProof

variable {p : SealedProof} {commitment tag statementHash : Digest}

theorem length_sealHeader : sealHeader.length = 3 := rfl

/-- A field is the digest that stands behind the bytes in front of it. -/
theorem field?_eq_some {front back : List UInt8} {d : Digest}
    (h : p.bytes = front ++ (d.toList ++ back)) : p.field? front.length = some d := by
  rw [field?, h, List.drop_left, List.take_left' d.length_toList, Bytes32.ofList?_toList]

/-- Whatever has the layout of a seal is well formed, and its fields are those it was made of. -/
theorem fields_of_bytes (h : p.bytes = sealBytes commitment tag statementHash) :
    p.isWellFormed = true ∧ p.field? 3 = some commitment ∧ p.field? 35 = some tag ∧
      p.field? 67 = some statementHash := by
  have hbytes : p.bytes =
      sealHeader ++ (commitment.toList ++ (tag.toList ++ (statementHash.toList ++ []))) := by
    simp [h, sealBytes]
  have hfirst : (sealHeader ++ commitment.toList).length = 35 := by
    rw [List.length_append, commitment.length_toList, length_sealHeader]
  have hsecond : (sealHeader ++ commitment.toList ++ tag.toList).length = 67 := by
    rw [List.length_append, hfirst, tag.length_toList]
  refine ⟨?_, ?_, ?_, ?_⟩
  · simp [isWellFormed, h, sealBytes, sealHeader, sealSize, Bytes32.length_toList]
  · exact field?_eq_some hbytes
  · rw [← hfirst]
    apply field?_eq_some
    rw [hbytes, List.append_assoc]
  · rw [← hsecond]
    apply field?_eq_some
    rw [hbytes, List.append_assoc, List.append_assoc]

/-- Ninety-nine bytes are their header and their three fields. -/
theorem bytes_of_fields (hform : p.isWellFormed = true) (hcommitment : p.field? 3 = some commitment)
    (htag : p.field? 35 = some tag) (hhash : p.field? 67 = some statementHash) :
    p.bytes = sealBytes commitment tag statementHash := by
  rw [isWellFormed, Bool.and_eq_true, beq_iff_eq, beq_iff_eq] at hform
  obtain ⟨hlength, hheader⟩ := hform
  have hfirst : (p.bytes.drop 3).take 32 = commitment.toList :=
    Bytes32.ofList?_eq_some_iff.mp hcommitment
  have hsecond : (p.bytes.drop 35).take 32 = tag.toList := Bytes32.ofList?_eq_some_iff.mp htag
  have hthird : p.bytes.drop 67 = statementHash.toList := by
    rw [← Bytes32.ofList?_eq_some_iff.mp hhash, List.take_of_length_le]
    rw [List.length_drop, hlength]
    exact Nat.le_refl 32
  calc p.bytes
      = p.bytes.take 3 ++ p.bytes.drop 3 := (List.take_append_drop 3 _).symm
    _ = sealHeader ++ ((p.bytes.drop 3).take 32 ++ (p.bytes.drop 3).drop 32) := by
        rw [hheader, List.take_append_drop]
    _ = sealHeader ++ (commitment.toList ++ ((p.bytes.drop 35).take 32
          ++ (p.bytes.drop 35).drop 32)) := by
        rw [hfirst, List.drop_drop, List.take_append_drop]
    _ = sealBytes commitment tag statementHash := by
        rw [hsecond, List.drop_drop, hthird, sealBytes, List.append_assoc, List.append_assoc]

/-- A seal belongs to a statement exactly if it is made of some commitment, the tag for it and the
hash of the statement, which also stands beside it. -/
theorem seals_iff {s : Statement} :
    p.seals s = true ↔ ∃ commitment : Digest, p.statementHash = s.hash ∧
      p.bytes = sealBytes commitment (sealTag s.snapshot.version s.hash commitment) s.hash := by
  constructor
  · intro h
    rw [seals, Bool.and_eq_true] at h
    obtain ⟨hform, h⟩ := h
    split at h
    · rename_i commitment tag embedded hcommitment htag hembedded
      simp only [Bool.and_eq_true, beq_iff_eq] at h
      obtain ⟨⟨hbeside, rfl⟩, rfl⟩ := h
      exact ⟨commitment, hbeside.symm, bytes_of_fields hform hcommitment htag hembedded⟩
    · cases h
  · rintro ⟨commitment, hbeside, hbytes⟩
    obtain ⟨hform, hcommitment, htag, hembedded⟩ := fields_of_bytes hbytes
    rw [seals, hform, hcommitment, htag, hembedded, hbeside]
    simp

/-- The commitment of a seal is found in its bytes. -/
theorem commitment_of_bytes (h : p.bytes = sealBytes commitment tag statementHash) :
    (p.bytes.drop 3).take 32 = commitment.toList :=
  Bytes32.ofList?_eq_some_iff.mp (fields_of_bytes h).2.1

end AccessContext.SealedProof
