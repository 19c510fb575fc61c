import AccessContext.Policy.Basic
import AccessContext.Proofs.Json.Records
import AccessContext.Theory.Preimages

/-!
# Policy documents

Every policy is read back from its document, whether it is usable or not, so that the document
determines the policy. The digest hashes the document, and two policies share it only if the hash
fails to tell their documents apart. Main statements: `Policy.isLawful_codec`,
`Policy.document_roundtrip`.
-/

namespace AccessContext

open Json

namespace Requirements

/-- Flags that are set are named by their text. -/
theorem ofFlags_chars : ∀ n < 256, n ≠ 0 →
    (Text.trim (chars ⟨UInt8.ofNat n⟩)).isEmpty = false ∧
      (ofFlags (pieces (chars ⟨UInt8.ofNat n⟩)) empty).toOption = some ⟨UInt8.ofNat n⟩ := by
  decide +kernel

theorem eq_ok_of_toOption {ε α : Type} {x : Except ε α} {a : α} (h : x.toOption = some a) :
    x = .ok a := by
  cases x with
  | error e => cases h
  | ok b => exact congrArg _ (Option.some.inj h)

/-- Requirements are named by their text. -/
theorem ofText_text (r : Requirements) : ofText r.text = .ok r := by
  obtain ⟨b⟩ := r
  rw [ofText, text, String.toList_ofList]
  by_cases hzero : b = 0
  · rw [hzero]
    rfl
  · have hne : b.toNat ≠ 0 := fun h => hzero (UInt8.toNat_inj.1 h)
    obtain ⟨htrim, hread⟩ := ofFlags_chars b.toNat b.toNat_lt hne
    rw [UInt8.ofNat_toNat] at htrim hread
    rw [if_neg (by simp [htrim]), eq_ok_of_toOption hread]

end Requirements

namespace AccessPolicy

theorem requirementsOfText_text (r : Requirements) : requirementsOfText r.text = .ok r := by
  rw [requirementsOfText, r.ofText_text]

theorem readLevel_number (level : Level) : readLevel level.number = .ok level := by
  cases level <;> rfl

theorem isLawful_requirementsCodec : requirementsCodec.IsLawful :=
  fun r => (Codec.isLawful_textAs _ _).refine (requirementsOfText_text r)

theorem isLawful_levelCodec : levelCodec.IsLawful :=
  fun level => (Codec.isLawful_u8 _).refine (readLevel_number level)

theorem isLawful_codec : codec.IsLawful :=
  Codec.isLawful_record ⟨isLawful_requirementsCodec, isLawful_levelCodec, trivial⟩ (by decide)
    fun _ => rfl

end AccessPolicy

theorem GeoPoint.isLawful_codec : codec.IsLawful :=
  Codec.isLawful_record ⟨Codec.isLawful_i32, Codec.isLawful_i32, trivial⟩ (by decide) fun _ => rfl

theorem Region.isLawful_codec : codec.IsLawful :=
  Codec.isLawful_record ⟨GeoPoint.isLawful_codec, Codec.isLawful_word64 _, trivial⟩ (by decide)
    fun _ => rfl

theorem DevicePolicy.isLawful_codec : codec.IsLawful :=
  Codec.isLawful_record
    ⟨Codec.isLawful_hex32, Codec.isLawful_hex32, Codec.isLawful_hex32Option,
      Codec.isLawful_hex32List, trivial⟩
    (by decide) fun _ => rfl

theorem TimePolicy.isLawful_codec : codec.IsLawful :=
  Codec.isLawful_record
    ⟨Codec.isLawful_i64, Codec.isLawful_i64, Codec.isLawful_i64, Codec.isLawful_u8,
      Codec.isLawful_u8, Codec.isLawful_u32, Codec.isLawful_u32, Codec.isLawful_bool,
      Codec.isLawful_bool, trivial⟩
    (by decide) fun _ => rfl

theorem LocationPolicy.isLawful_codec : codec.IsLawful :=
  Codec.isLawful_record
    ⟨Region.isLawful_codec, Region.isLawful_codec.nullable (fun _ h => nomatch h),
      Codec.isLawful_word64 _, Codec.isLawful_word64 _, Codec.isLawful_bool, trivial⟩
    (by decide) fun _ => rfl

theorem PatternPolicy.isLawful_codec : codec.IsLawful :=
  Codec.isLawful_record
    ⟨Codec.isLawful_hex32, Codec.isLawful_i64, Codec.isLawful_i64, Codec.isLawful_u32,
      Codec.isLawful_u32, Codec.isLawful_word64 _, Codec.isLawful_u8, Codec.isLawful_u8, trivial⟩
    (by decide) fun _ => rfl

namespace Policy

theorem isLawful_codec : codec.IsLawful :=
  Codec.isLawful_record
    ⟨Codec.isLawful_word64 _, DevicePolicy.isLawful_codec, TimePolicy.isLawful_codec,
      LocationPolicy.isLawful_codec, PatternPolicy.isLawful_codec, AccessPolicy.isLawful_codec,
      trivial⟩
    (by decide) fun _ => rfl

theorem decode_document (p : Policy) : codec.decode p.document = .ok p :=
  isLawful_codec.decode_encode p

/-- Different policies have different documents. -/
theorem document_inj {p q : Policy} (h : p.document = q.document) : p = q :=
  isLawful_codec.encode_inj h

/-- All that can be wrong with the document of a policy is the policy itself. -/
theorem ofDocument_document (p : Policy) : ofDocument p.document = p.validate.map fun _ => p := by
  rw [ofDocument, decode_document]
  dsimp only
  cases p.validate <;> rfl

/-! ### Digests -/

/-- The string whose hash is the digest of a policy. -/
def preimage (p : Policy) : List UInt8 :=
  commitPreimage (utf8 "zkctx/policy-digest/v1") [utf8 p.document]

/-- The string behind the digest determines the policy. -/
theorem preimage_inj {p q : Policy} (h : p.preimage = q.preimage) : p = q := by
  have hparts := commitPreimage_inj_of_sum (by simp) h
  exact document_inj (utf8_inj (List.cons.inj hparts).1)

theorem digest_eq_iff {p q : Policy} :
    p.digest = q.digest ↔ p = q ∨ Collide p.preimage q.preimage :=
  sha3_eq_iff.trans (or_congr_left ⟨preimage_inj, congrArg preimage⟩)

/-- Every policy is read back from its document in all of its fields. The document is accepted
exactly if the policy is usable, and else refused for what makes the policy unusable. No two
policies share a document, and they share a digest only if the hash confuses two strings. -/
theorem document_roundtrip (p : Policy) :
    codec.decode p.document = .ok p ∧
      (∀ q, ofDocument p.document = .ok q ↔ p.validate = .ok () ∧ q = p) ∧
      (∀ e, ofDocument p.document = .error e ↔ p.validate = .error e) ∧
      (∀ q : Policy, p.document = q.document ↔ p = q) ∧
      ∀ q : Policy, p.digest = q.digest ↔ p = q ∨ Collide p.preimage q.preimage := by
  refine ⟨p.decode_document, fun q => ?_, fun e => ?_, fun q => ?_, fun q => digest_eq_iff⟩
  · rw [ofDocument_document]
    cases p.validate with
    | error e => simp [Except.map]
    | ok => simp [Except.map, eq_comm]
  · rw [ofDocument_document]
    cases p.validate with
    | error e => simp [Except.map]
    | ok => simp [Except.map]
  · constructor
    · exact document_inj
    · rintro rfl
      rfl

end Policy

end AccessContext
