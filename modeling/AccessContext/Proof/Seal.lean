import AccessContext.Decision
import AccessContext.Hash.Transcript
import AccessContext.Witness

/-!
# Seals

A seal binds a public statement to a blinded commitment to the witness: 99 bytes that hold the
commitment, a tag that a transcript derives from it and from the statement, and the hash of the
statement. It shows tampering; it does not show that the witness satisfied the policy.
-/

namespace AccessContext

/-- Everything the relying party can see of a request. -/
structure Statement where
  snapshot : Snapshot
  nonce : Nonce
  signals : PublicSignals

namespace Statement

/-- The parts of the hash of a statement. -/
def parts (s : Statement) : List (List UInt8) :=
  [leBytes 8 s.snapshot.version.toNat, s.snapshot.digest.toList, s.nonce.bytes, s.signals.toBytes]

/-- Stands for the whole statement. -/
def hash (s : Statement) : Digest :=
  commit (utf8 "zkctx/public-inputs/v1") s.parts

end Statement

/-! ### The witness -/

/-- A category of the witness: a byte for its presence, then its content. -/
def presence {α : Type} (content : α → List UInt8) : Option α → List UInt8
  | none => [0]
  | some a => 1 :: content a

namespace DeviceWitness

/-- What the commitment covers of the device. -/
def content (w : DeviceWitness) : List UInt8 :=
  lengthPrefixed (utf8 w.fingerprint) ++ w.salt.toList ++ w.signature.toList

end DeviceWitness

namespace TimeWitness

/-- What the commitment covers of the time. -/
def content (w : TimeWitness) : List UInt8 :=
  leBytes 8 w.current.toUInt64.toNat ++ leBytes 8 w.previous.toUInt64.toNat
    ++ leBytes 4 w.offset.toUInt32.toNat ++ w.seed.toList

end TimeWitness

namespace LocationWitness

/-- What the commitment covers of the location. -/
def content (w : LocationWitness) : List UInt8 :=
  w.current.toBytes ++ w.previous.toBytes ++ w.ipDerived.toBytes
    ++ leBytes 8 w.travelHours.toUInt64.toNat

end LocationWitness

namespace BehaviorWitness

/-- What the commitment covers of the behavior. -/
def content (w : BehaviorWitness) : List UInt8 :=
  w.actions.toList.flatMap (fun a => leBytes 4 a.toNat)
    ++ w.intervals.toList.flatMap (fun t => leBytes 8 t.toNat)
    ++ leBytes 8 w.session.toUInt64.toNat ++ leBytes 4 w.typing.toNat
    ++ leBytes 4 w.pointer.toNat ++ leBytes 4 w.frequency.toNat ++ w.salt.toList

end BehaviorWitness

namespace Witness

/-- The string that the digest of a witness hashes. -/
def preimage (w : Witness) : List UInt8 :=
  utf8 "zkctx/witness-digest/v1" ++ presence DeviceWitness.content w.device
    ++ presence TimeWitness.content w.time ++ presence LocationWitness.content w.location
    ++ presence BehaviorWitness.content w.behavior

/-- The digest of a witness, which never leaves the prover. -/
def digest (w : Witness) : Digest :=
  sha3 w.preimage

/-- The commitment that is published: the digest hidden behind random bytes. -/
def blinded (w : Witness) (blinding : Bytes32) : Digest :=
  commit (utf8 "zkctx/blinded-witness/v1") [w.digest.toList, blinding.toList]

end Witness

/-! ### The seal -/

/-- The bytes of a seal as they travel, beside the hash of the statement. -/
structure SealedProof where
  bytes : List UInt8
  statementHash : Digest
deriving DecidableEq

/-- The tag that a transcript derives for a statement and a commitment. -/
def sealTag (version : UInt64) (statementHash commitment : Digest) : Digest :=
  let transcript := ((Transcript.ofLabel "zkctx-commitment-backend").appendWord
    "policy_version" version |>.append "public_inputs" statementHash.toList).append
    "witness_commitment" commitment.toList
  ⟨transcript.challenge "tag" 32, by simp⟩

/-- The name of this kind of proof. -/
def sealName : String := "commitment"

/-- The format version and the number of signals, at the front of every seal. -/
def sealHeader : List UInt8 := [1, 10, 0]

/-- The layout of a seal. -/
def sealBytes (commitment tag statementHash : Digest) : List UInt8 :=
  sealHeader ++ commitment.toList ++ tag.toList ++ statementHash.toList

/-- The number of bytes in a seal. -/
def sealSize : Nat := 99

namespace Statement

/-- Seals a statement for a witness. -/
def sealWith (s : Statement) (w : Witness) (blinding : Bytes32) : SealedProof :=
  let commitment := w.blinded blinding
  let tag := sealTag s.snapshot.version s.hash commitment
  ⟨sealBytes commitment tag s.hash, s.hash⟩

end Statement

namespace SealedProof

/-- Whether size, format version and number of signals are right. -/
def isWellFormed (p : SealedProof) : Bool :=
  p.bytes.length == sealSize && p.bytes.take 3 == sealHeader

/-- The 32 bytes from a place on. -/
def field? (p : SealedProof) (place : Nat) : Option Digest :=
  Bytes32.ofList? ((p.bytes.drop place).take 32)

/-- Whether the seal belongs to a statement. -/
def seals (p : SealedProof) (s : Statement) : Bool :=
  p.isWellFormed &&
    match p.field? 3, p.field? 35, p.field? 67 with
    | some commitment, some tag, some embedded =>
      let expected := s.hash
      expected == p.statementHash && expected == embedded
        && sealTag s.snapshot.version expected commitment == tag
    | _, _, _ => false

open Json in
def codec : Codec SealedProof :=
  .record "ZkProof"
    (.field "proof_bytes" Codec.u8.list none <|
      .field "public_inputs_hash" .bytes32 none .done)
    (fun (bytes, statementHash, ()) => ⟨bytes, statementHash⟩)
    (fun p => (p.bytes, p.statementHash, ()))

end SealedProof

end AccessContext
