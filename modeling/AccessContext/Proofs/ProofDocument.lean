import AccessContext.Proof.Verification
import AccessContext.Proofs.Json.Records

/-!
# Documents of proofs

Proofs and membership paths travel as documents, in which digests of one kind are texts and those of
another are arrays of numbers. Either way what arrives is what was sent: every proof and every path is
read back from its document, so transport changes no verification and no check on a device. Main
statement: `ContextProof.transport_faithful`.
-/

namespace AccessContext

open Json

theorem Artifact.isLawful_codec : codec.IsLawful :=
  Codec.isLawful_record
    ⟨Codec.isLawful_bool, Codec.isLawful_bool, Codec.isLawful_bool, Codec.isLawful_bool,
      Codec.isLawful_bool, Codec.isLawful_u8, Codec.isLawful_bool, Codec.isLawful_hex32, trivial⟩
    (by decide) fun _ => rfl

theorem SealedProof.isLawful_codec : codec.IsLawful :=
  Codec.isLawful_record ⟨Codec.isLawful_u8.list, Codec.isLawful_bytes32, trivial⟩ (by decide)
    fun _ => rfl

theorem MerklePath.isLawful_codec : codec.IsLawful :=
  Codec.isLawful_record
    ⟨Codec.isLawful_bytes32.list, Codec.isLawful_word64 _, Codec.isLawful_bytes32, trivial⟩
    (by decide) fun _ => rfl

namespace ContextProof

theorem isLawful_codec : codec.IsLawful :=
  Codec.isLawful_record
    ⟨Artifact.isLawful_codec, (Codec.isLawful_word64 _).list, Codec.isLawful_word64 _,
      SealedProof.isLawful_codec, trivial⟩
    (by decide) fun _ => rfl

theorem decode_document (p : ContextProof) : codec.decode p.document = .ok p :=
  isLawful_codec.decode_encode p

/-- Every proof and every path is read back from its document. So a proof that was transported holds
against the same snapshots and challenges and is refused elsewhere for the same reasons, and a device
that shows a transported path passes the same checks. -/
theorem transport_faithful (p : ContextProof) (path : MerklePath) :
    codec.decode p.document = .ok p ∧
      (∀ s nonce, (codec.decode p.document).map (fun q => q.verify s nonce) =
        .ok (p.verify s nonce)) ∧
      (∀ s nonce, (codec.decode p.document).map (fun q => q.check s nonce) =
        .ok (p.check s nonce)) ∧
      MerklePath.codec.decode (MerklePath.codec.encode path) = .ok path ∧
      ∀ (w : DeviceWitness) (policy : DevicePolicy) (nonce : Nonce),
        (MerklePath.codec.decode (MerklePath.codec.encode path)).map (fun received =>
          { w with whitelistPath := some received }.verify policy nonce) =
            .ok ({ w with whitelistPath := some path }.verify policy nonce) := by
  have hpath := MerklePath.isLawful_codec.decode_encode path
  refine ⟨p.decode_document, fun s nonce => ?_, fun s nonce => ?_, hpath, fun w policy nonce => ?_⟩
  · rw [decode_document]
    rfl
  · rw [decode_document]
    rfl
  · rw [hpath]
    rfl

end ContextProof

end AccessContext
