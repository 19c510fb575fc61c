import AccessContext.Proofs.Seal
import AccessContext.Theory.Preimages
import AccessContext.Theory.Words

/-!
# What a seal binds of the witness

The commitment in a seal hashes random bytes together with the digest of the witness, and the string
behind that digest joins the four categories with no length around any of them. It can still be read
from the front: a byte tells whether a category is present, and its content takes a fixed number of
bytes, but for the fingerprint of the device, which stands behind its length. Not covered are the
device's secret key and its path in the whitelist, and the version that the witness was gathered
for. Main statement: `Statement.commitment_sealWith_eq_iff`.
-/

namespace AccessContext

/-! ### The content of a category -/

namespace DeviceWitness

/-- What the commitment covers of the device, with nothing in the place of the rest. -/
def committed (w : DeviceWitness) : DeviceWitness :=
  { w with signerSecret := .zero, whitelistPath := none }

theorem committed_eq_iff {v w : DeviceWitness} : v.committed = w.committed ↔
    v.fingerprint = w.fingerprint ∧ v.salt = w.salt ∧ v.signature = w.signature := by
  simp [committed]

theorem length_content (w : DeviceWitness) :
    w.content.length = 72 + (utf8 w.fingerprint).length := by
  simp only [content, List.length_append, length_lengthPrefixed, Bytes32.length_toList]
  omega

/-- The device is cut off the front of a string. Eight bytes tell the length of the fingerprint up
to multiples of `2 ^ 64`, and what follows is too short to make up for such a multiple. -/
theorem content_append_inj {v w : DeviceWitness} {x y : List UInt8} (hx : x.length < 2 ^ 64)
    (hy : y.length < 2 ^ 64) (h : v.content ++ x = w.content ++ y) :
    v.committed = w.committed ∧ x = y := by
  have hlength (hbytes : leBytes 8 (utf8 v.fingerprint).length =
      leBytes 8 (utf8 w.fingerprint).length) :
      (utf8 v.fingerprint).length = (utf8 w.fingerprint).length := by
    have htotal := congrArg List.length h
    simp only [List.length_append, length_content] at htotal
    have hmod := congrArg ofLeBytes hbytes
    rw [ofLeBytes_leBytes, ofLeBytes_leBytes] at hmod
    omega
  simp only [content, List.append_assoc] at h
  obtain ⟨hfingerprint, h⟩ := lengthPrefixed_append_inj hlength h
  obtain ⟨hsalt, h⟩ := List.append_inj h (v.salt.length_toList.trans w.salt.length_toList.symm)
  obtain ⟨hsignature, h⟩ :=
    List.append_inj h (v.signature.length_toList.trans w.signature.length_toList.symm)
  exact ⟨committed_eq_iff.mpr ⟨utf8_inj hfingerprint, Bytes32.ext hsalt, Bytes32.ext hsignature⟩, h⟩

end DeviceWitness

namespace TimeWitness

theorem length_content (w : TimeWitness) : w.content.length = 52 := by
  simp [content, Bytes32.length_toList]

theorem content_inj {v w : TimeWitness} (h : v.content = w.content) : v = w := by
  obtain ⟨h, hseed⟩ := List.append_inj h (by simp)
  obtain ⟨h, hoffset⟩ := List.append_inj h (by simp)
  obtain ⟨hcurrent, hprevious⟩ := List.append_inj h (by simp)
  cases v
  cases w
  rw [TimeWitness.mk.injEq]
  exact ⟨leBytes_int64_inj.mp hcurrent, leBytes_int64_inj.mp hprevious,
    leBytes_int32_inj.mp hoffset, Bytes32.ext hseed⟩

end TimeWitness

theorem GeoPoint.length_toBytes (p : GeoPoint) : p.toBytes.length = 8 := by
  simp [toBytes]

namespace LocationWitness

theorem length_content (w : LocationWitness) : w.content.length = 32 := by
  simp [content, GeoPoint.length_toBytes]

theorem content_inj {v w : LocationWitness} (h : v.content = w.content) : v = w := by
  obtain ⟨h, htravel⟩ := List.append_inj h (by simp [GeoPoint.length_toBytes])
  obtain ⟨h, hderived⟩ := List.append_inj h (by simp [GeoPoint.length_toBytes])
  obtain ⟨hcurrent, hprevious⟩ := List.append_inj h (by simp [GeoPoint.length_toBytes])
  cases v
  cases w
  rw [LocationWitness.mk.injEq]
  exact ⟨GeoPoint.toBytes_inj.mp hcurrent, GeoPoint.toBytes_inj.mp hprevious,
    GeoPoint.toBytes_inj.mp hderived, leBytes_int64_inj.mp htravel⟩

end LocationWitness

namespace BehaviorWitness

theorem length_content (w : BehaviorWitness) : w.content.length = 164 := by
  simp [content, List.map_const', Bytes32.length_toList]

theorem content_inj {v w : BehaviorWitness} (h : v.content = w.content) : v = w := by
  obtain ⟨h, hsalt⟩ := List.append_inj' h (v.salt.length_toList.trans w.salt.length_toList.symm)
  obtain ⟨h, hfrequency⟩ := List.append_inj' h (by simp)
  obtain ⟨h, hpointer⟩ := List.append_inj' h (by simp)
  obtain ⟨h, htyping⟩ := List.append_inj' h (by simp)
  obtain ⟨h, hsession⟩ := List.append_inj' h (by simp)
  obtain ⟨hactions, hintervals⟩ := List.append_inj' h (by simp [List.map_const'])
  cases v
  cases w
  rw [BehaviorWitness.mk.injEq]
  exact ⟨Vector.toList_inj.mp (flatMap_uint32_inj.mp hactions),
    Vector.toList_inj.mp (flatMap_uint64_inj.mp hintervals), leBytes_int64_inj.mp hsession,
    leBytes_uint32_inj.mp htyping, leBytes_uint32_inj.mp hpointer, leBytes_uint32_inj.mp hfrequency,
    Bytes32.ext hsalt⟩

end BehaviorWitness

/-! ### Presence -/

section Presence

variable {α β : Type} {content : α → List UInt8} {a b : Option α} {x y : List UInt8}

/-- A category is cut off the front of a string, if its content can be. The byte in front of it
tells absence from every content. -/
theorem presence_append_inj (covered : α → β)
    (hcontent : ∀ c ∈ a, ∀ d ∈ b, content c ++ x = content d ++ y → covered c = covered d ∧ x = y)
    (h : presence content a ++ x = presence content b ++ y) :
    a.map covered = b.map covered ∧ x = y := by
  cases a with
  | none =>
    cases b with
    | none => exact ⟨rfl, (List.cons.inj h).2⟩
    | some d => exact absurd (List.cons.inj h).1 (by decide)
  | some c =>
    cases b with
    | none => exact absurd (List.cons.inj h).1 (by decide)
    | some d =>
      obtain ⟨heq, hrest⟩ := hcontent c rfl d rfl (List.cons.inj h).2
      exact ⟨congrArg some heq, hrest⟩

/-- Contents of one length need nothing in front of them but that byte. -/
theorem presence_append_inj_of_length {width : Nat} (hlength : ∀ c, (content c).length = width)
    (hinj : ∀ c d, content c = content d → c = d)
    (h : presence content a ++ x = presence content b ++ y) : a = b ∧ x = y := by
  have hcut := presence_append_inj id (fun c _ d _ heq => ?_) h
  · rwa [Option.map_id, id, id] at hcut
  · obtain ⟨hcd, hrest⟩ := List.append_inj heq ((hlength c).trans (hlength d).symm)
    exact ⟨hinj c d hcd, hrest⟩

theorem length_presence_le {width : Nat} (hlength : ∀ c, (content c).length = width) :
    (presence content a).length ≤ 1 + width := by
  cases a with
  | none => simp [presence]
  | some c => simp [presence, hlength, Nat.add_comm]

end Presence

/-! ### The string behind the digest -/

namespace Witness

variable {v w : Witness}

/-- What the commitment covers of a witness, with nothing in the place of the rest. -/
def committed (w : Witness) : Witness :=
  { w with device := w.device.map DeviceWitness.committed, policyVersion := none }

theorem committed_eq_iff : v.committed = w.committed ↔
    v.device.map DeviceWitness.committed = w.device.map DeviceWitness.committed ∧
      v.time = w.time ∧ v.location = w.location ∧ v.behavior = w.behavior := by
  simp [committed]

theorem map_committed_eq_iff {a b : Option DeviceWitness} :
    a.map DeviceWitness.committed = b.map DeviceWitness.committed ↔
      a.isSome = b.isSome ∧ ∀ d ∈ a, ∀ e ∈ b,
        d.fingerprint = e.fingerprint ∧ d.salt = e.salt ∧ d.signature = e.signature := by
  cases a <;> cases b <;> simp [DeviceWitness.committed_eq_iff]

/-- Witnesses agree in what is covered exactly if they have the same categories, the same
fingerprint, salt and signature of the device, and the same fields in every other category. -/
theorem committed_eq_iff_fields : v.committed = w.committed ↔ (∀ c, v.has c = w.has c) ∧
    (∀ d ∈ v.device, ∀ e ∈ w.device,
      d.fingerprint = e.fingerprint ∧ d.salt = e.salt ∧ d.signature = e.signature) ∧
    v.time = w.time ∧ v.location = w.location ∧ v.behavior = w.behavior := by
  rw [committed_eq_iff, map_committed_eq_iff]
  constructor
  · rintro ⟨⟨hpresent, hdevice⟩, htime, hlocation, hbehavior⟩
    refine ⟨fun c => ?_, hdevice, htime, hlocation, hbehavior⟩
    cases c with
    | device => exact hpresent
    | time => exact congrArg Option.isSome htime
    | location => exact congrArg Option.isSome hlocation
    | pattern => exact congrArg Option.isSome hbehavior
  · rintro ⟨hpresent, hdevice, hrest⟩
    exact ⟨⟨hpresent .device, hdevice⟩, hrest⟩

theorem preimage_committed (w : Witness) : w.committed.preimage = w.preimage := by
  rw [preimage, preimage, committed]
  cases w.device <;> rfl

/-- What stands behind the device in the string. -/
def behindDevice (w : Witness) : List UInt8 :=
  presence TimeWitness.content w.time ++ (presence LocationWitness.content w.location
    ++ presence BehaviorWitness.content w.behavior)

theorem preimage_eq_append (w : Witness) : w.preimage = utf8 "zkctx/witness-digest/v1"
    ++ (presence DeviceWitness.content w.device ++ w.behindDevice) := by
  simp only [preimage, behindDevice, List.append_assoc]

theorem length_behindDevice_lt (w : Witness) : w.behindDevice.length < 2 ^ 64 := by
  have htime := length_presence_le (a := w.time) TimeWitness.length_content
  have hlocation := length_presence_le (a := w.location) LocationWitness.length_content
  have hbehavior := length_presence_le (a := w.behavior) BehaviorWitness.length_content
  simp only [behindDevice, List.length_append]
  omega

theorem behindDevice_inj (h : v.behindDevice = w.behindDevice) :
    v.time = w.time ∧ v.location = w.location ∧ v.behavior = w.behavior := by
  obtain ⟨htime, h⟩ :=
    presence_append_inj_of_length TimeWitness.length_content (fun _ _ => TimeWitness.content_inj) h
  obtain ⟨hlocation, h⟩ := presence_append_inj_of_length LocationWitness.length_content
    (fun _ _ => LocationWitness.content_inj) h
  obtain ⟨hbehavior, -⟩ := presence_append_inj_of_length BehaviorWitness.length_content
    (fun _ _ => BehaviorWitness.content_inj) (congrArg (· ++ []) h)
  exact ⟨htime, hlocation, hbehavior⟩

/-- The string is the same exactly for witnesses that agree in all that is covered. -/
theorem preimage_eq_iff : v.preimage = w.preimage ↔ v.committed = w.committed := by
  constructor
  · intro h
    rw [preimage_eq_append, preimage_eq_append] at h
    obtain ⟨hdevice, hrest⟩ := presence_append_inj DeviceWitness.committed
      (fun c _ d _ => DeviceWitness.content_append_inj (length_behindDevice_lt v)
        (length_behindDevice_lt w)) (List.append_cancel_left h)
    exact committed_eq_iff.mpr ⟨hdevice, behindDevice_inj hrest⟩
  · intro h
    rw [← preimage_committed v, h, preimage_committed]

/-- The string behind the published commitment. -/
def blindedPreimage (w : Witness) (blinding : Bytes32) : List UInt8 :=
  commitPreimage (utf8 "zkctx/blinded-witness/v1") [w.digest.toList, blinding.toList]

/-- Commitments that agree hide one digest behind the same random bytes. -/
theorem blinded_eq_iff {r r' : Bytes32}
    (hblinded : ¬ Collide (v.blindedPreimage r) (w.blindedPreimage r'))
    (hdigest : ¬ Collide v.preimage w.preimage) :
    v.blinded r = w.blinded r' ↔ r = r' ∧ v.committed = w.committed := by
  constructor
  · intro h
    have hparts := parts_eq_of_commit hblinded (by simp [Bytes32.length_toList]) h
    simp only [List.cons.injEq, Bytes32.toList_inj, and_true] at hparts
    exact ⟨hparts.2, preimage_eq_iff.mp (eq_of_not_collide hdigest hparts.1)⟩
  · rintro ⟨rfl, hcommitted⟩
    rw [blinded, blinded, digest, digest, preimage_eq_iff.mpr hcommitted]

end Witness

namespace Statement

theorem commitment_sealWith (s : Statement) (w : Witness) (r : Bytes32) :
    ((s.sealWith w r).bytes.drop 3).take 32 = (w.blinded r).toList :=
  SealedProof.commitment_of_bytes rfl

/-- Two seals have the same bytes from 3 to 35 exactly if they were made with the same random bytes
and for witnesses that agree in all but the device's secret key, its path in the whitelist and the
version the witness was gathered for: in the categories that are present, in the fingerprint, the
salt and the signature of the device, and in every field of the others. The statements do not
matter. The hash has to tell apart the two strings behind the commitments, and the two behind the
digests. -/
theorem commitment_sealWith_eq_iff (s s' : Statement) (w w' : Witness) (r r' : Bytes32)
    (hblinded : ¬ Collide (w.blindedPreimage r) (w'.blindedPreimage r'))
    (hdigest : ¬ Collide w.preimage w'.preimage) :
    ((s.sealWith w r).bytes.drop 3).take 32 = ((s'.sealWith w' r').bytes.drop 3).take 32 ↔
      r = r' ∧ (∀ c, w.has c = w'.has c) ∧
        (∀ d ∈ w.device, ∀ d' ∈ w'.device, d.fingerprint = d'.fingerprint ∧ d.salt = d'.salt ∧
          d.signature = d'.signature) ∧
        w.time = w'.time ∧ w.location = w'.location ∧ w.behavior = w'.behavior := by
  rw [commitment_sealWith, commitment_sealWith, Bytes32.toList_inj,
    Witness.blinded_eq_iff hblinded hdigest, Witness.committed_eq_iff_fields]

/-- A device with and without a path in a whitelist, under two secret keys, in witnesses for two
versions and in statements for two challenges. -/
theorem commitment_sealWith_eq_iff_rekeyed :
    let w : Witness := ⟨some ⟨"laptop", .zero, .zero, .zero, none⟩, none, none, none, none⟩
    let w' : Witness := ⟨some ⟨"laptop", .zero, .zero, .ofList [1], some ⟨[.zero], 0, .zero⟩⟩, none,
      none, none, some 2⟩
    let g : PublicSignals := ⟨false, false, false, false, true, 0, false, .basic, .empty, 100⟩
    let s : Statement := ⟨Snapshot.lenient, ⟨[1]⟩, g⟩
    let s' : Statement := ⟨Snapshot.lenient, ⟨[2]⟩, g⟩
    w ≠ w' ∧ ((s.sealWith w .zero).bytes.drop 3).take 32 =
      ((s'.sealWith w' .zero).bytes.drop 3).take 32 := by
  intro w w' g s s'
  have hpreimage : w.preimage = w'.preimage := rfl
  have hblinded : ¬ Collide (w.blindedPreimage .zero) (w'.blindedPreimage .zero) := by
    rw [Witness.blindedPreimage, Witness.blindedPreimage, Witness.digest, Witness.digest, hpreimage]
    exact not_collide_self _
  have hdigest : ¬ Collide w.preimage w'.preimage := by
    rw [hpreimage]
    exact not_collide_self _
  refine ⟨by decide, (commitment_sealWith_eq_iff s s' w w' .zero .zero hblinded hdigest).mpr
    ⟨rfl, fun c => ?_, fun d hd d' hd' => ?_, rfl, rfl, rfl⟩⟩
  · cases c <;> rfl
  · cases hd
    cases hd'
    exact ⟨rfl, rfl, rfl⟩

end Statement

end AccessContext
