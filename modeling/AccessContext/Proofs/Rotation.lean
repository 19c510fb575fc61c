import AccessContext.Proofs.Issued
import AccessContext.Proofs.Publication
import AccessContext.Proofs.Refusal

/-!
# Rotation of policies

A proof is made for the snapshot that its key has at that moment, and holds against that snapshot
whatever is published afterwards, as verification reads no store. Once something more has been
published under the key, its snapshot has another version, and against it the proof holds for no
challenge: the versions are compared before anything is hashed. Versions are words of 64 bits, so one
comes back exactly after a multiple of 2^64 publications under the key; a run that reaches the last
version is one in which the addition overflows. Main statement: `Witness.proveCurrent_rotates`.
-/

namespace AccessContext

namespace PolicyStore

variable {store : PolicyStore} {key : PolicyKey} {s t : Snapshot} {more : List StoreCall}

/-- No publication of a run, refused or not, meets the last version number there is. -/
def NumbersFit (store : PolicyStore) : List StoreCall → Prop
  | [] => True
  | .fetch _ :: calls => store.NumbersFit calls
  | .publish key policy :: calls =>
    (store.lastVersion key).toNat + 1 < 2 ^ 64 ∧
      (store.perform (.publish key policy)).2.NumbersFit calls

/-- A run in which the numbers fit is too short for a version to come back. -/
theorem NumbersFit.lt (h : store.NumbersFit more) (key : PolicyKey) :
    (store.lastVersion key).toNat + (store.issued key more).length < 2 ^ 64 := by
  induction more generalizing store with
  | nil => exact (store.lastVersion key).toNat_lt
  | cons call calls ih =>
    cases call with
    | fetch k =>
      rw [issued_cons_none rfl]
      exact ih h
    | publish k policy =>
      obtain ⟨hfits, hrest⟩ := h
      have hlt := ih hrest
      rcases store.perform_cases (.publish k policy) with
        ⟨hnone, hstore⟩ | ⟨k', policy', t, hcall, hsome, hstore, hversion⟩
      · rw [issued_cons_none hnone]
        rwa [hstore] at hlt ⊢
      · cases hcall
        rw [issued_cons_some hsome, List.length_append]
        rw [hstore, lastVersion_insert hversion] at hlt
        rw [hstore]
        by_cases hkey : k = key
        · subst hkey
          rw [if_pos rfl, UInt64.toNat_add, UInt64.toNat_one, Nat.mod_eq_of_lt hfits] at hlt
          rw [if_pos rfl, List.length_singleton]
          omega
        · rw [if_neg hkey, UInt64.add_zero] at hlt
          rw [if_neg hkey, List.length_nil]
          omega

/-- A key that has a snapshot keeps having one. -/
theorem exists_snapshot_after (h : store.snapshot key = .ok s) (more : List StoreCall) :
    ∃ t, (store.after more).snapshot key = .ok t := by
  simp only [snapshot_eq_ok_iff, entry_after, snapshot_eq_ok_iff.mp h]
  cases (store.issued key more).getLast? with
  | none => exact ⟨s, rfl⟩
  | some t => exact ⟨t, rfl⟩

/-- Later snapshots of a key have other versions, until the numbers come back. -/
theorem version_eq_iff (hs : store.snapshot key = .ok s)
    (ht : (store.after more).snapshot key = .ok t) :
    t.version = s.version ↔ 2 ^ 64 ∣ (store.issued key more).length := by
  rw [← lastVersion_of_snapshot ht, lastVersion_after, lastVersion_of_snapshot hs,
    UInt64.add_eq_left, ← UInt64.toNat_inj, UInt64.toNat_ofNat', UInt64.toNat_zero,
    Nat.dvd_iff_mod_eq_zero]

/-- The policy of a snapshot with the next version is published as that snapshot. -/
theorem snapshot_perform_publish_self (h : s.version = store.lastVersion key + 1) :
    (store.perform (.publish key s.policy)).2.snapshot key = .ok s := by
  rcases store.perform_publish_cases key s.policy with ⟨e, hinvalid, -⟩ | ⟨t, -, hpolicy, hstored⟩
  · cases hinvalid.symm.trans s.validate_policy
  · rw [nextVersion_eq, ← h] at hpolicy
    obtain rfl : t = s := Snapshot.ext hpolicy
    rw [hstored, snapshot_eq_ok_iff, getElem?_insert, if_pos rfl]

end PolicyStore

/-- A proof for one snapshot is worth nothing against another, nor is what was gathered for it. -/
structure ContextProof.IsRetired (p : ContextProof) (s t : Snapshot) : Prop where
  rejected (nonce : Nonce) : p.verify t nonce = false
  refused {w : Witness} {nonce : Nonce} (gathered : w.policyVersion = some s.version)
    (filled : ∃ b ∈ nonce.bytes, Text.isAsciiBlank b = false) :
    w.evaluate t nonce = .error (.versionMismatch t.version s.version)

theorem ContextProof.isRetired_of_ne {p : ContextProof} {s t : Snapshot}
    (hp : p.policyVersion = s.version) (hne : t.version ≠ s.version) : p.IsRetired s t where
  rejected nonce := by
    refine Bool.eq_false_iff.mpr fun hverify => hne ?_
    have hversion := (check_eq_ok_iff.mp (verify_eq_true_iff.mp hverify)).2.1
    exact hversion.symm.trans hp
  refused hgathered hfilled := (Witness.IsRefused.version hfilled hgathered hne.symm).evaluate_eq

namespace Witness

variable {w : Witness} {store : PolicyStore} {key : PolicyKey} {nonce : Nonce} {blinding : Bytes32}
  {s : Snapshot} {p : ContextProof}

theorem proveCurrent_eq_ok_iff : w.proveCurrent store key nonce blinding = .ok (s, p) ↔
    store.snapshot key = .ok s ∧ w.prove s nonce blinding = .ok p := by
  rw [proveCurrent]
  simp only [bind_eq_ok_iff]
  constructor
  · rintro ⟨t, ht, q, hq, hpair⟩
    cases hpair
    exact ⟨ht, hq⟩
  · rintro ⟨hs, hp⟩
    exact ⟨s, hs, p, hp, rfl⟩

theorem policyVersion_of_prove (h : w.prove s nonce blinding = .ok p) :
    p.policyVersion = s.version := by
  obtain ⟨e, -, rfl⟩ := prove_eq_ok_iff.mp h
  rfl

/-- A proof for the current snapshot of a key verifies against it from then on. Whatever is published
later, the key has a snapshot, and the proof is retired unless that has the version it was made for.
So it is retired by every further publication under the key, as long as the numbers fit. -/
theorem proveCurrent_rotates (h : w.proveCurrent store key nonce blinding = .ok (s, p)) :
    store.snapshot key = .ok s ∧ p.verify s nonce = true ∧
      ∀ more, ∃ t, (store.after more).snapshot key = .ok t ∧
        (t.version = s.version ↔ 2 ^ 64 ∣ (store.issued key more).length) ∧
        (t.version ≠ s.version → p.IsRetired s t) ∧
        (store.NumbersFit more → 0 < (store.issued key more).length → p.IsRetired s t) := by
  obtain ⟨hs, hp⟩ := proveCurrent_eq_ok_iff.mp h
  refine ⟨hs, ContextProof.verify_eq_true_iff.mpr (check_of_prove hp), fun more => ?_⟩
  obtain ⟨t, ht⟩ := PolicyStore.exists_snapshot_after hs more
  have hversion := PolicyStore.version_eq_iff hs ht
  have hretired := ContextProof.isRetired_of_ne (t := t) (policyVersion_of_prove hp)
  refine ⟨t, ht, hversion, hretired, fun hfits hpos => hretired fun heq => ?_⟩
  have hle := Nat.le_of_dvd hpos (hversion.mp heq)
  have hlt := hfits.lt key
  omega

/-- A proof is made for a policy that requires every category. When the policy is published again, the
proof is retired, and so is the request. -/
theorem proveCurrent_rotates_fullContext :
    let publication := StoreCall.publish ⟨"acme", "vault"⟩ (guarded .maximum).policy
    let store := PolicyStore.empty.after [publication]
    ∃ p t, fullContext.proveCurrent store ⟨"acme", "vault"⟩ ⟨[1]⟩ .zero =
        .ok (guarded .maximum, p) ∧
      (store.after [publication]).snapshot ⟨"acme", "vault"⟩ = .ok t ∧
      p.verify t ⟨[1]⟩ = false ∧
      fullContext.evaluate t ⟨[1]⟩ = .error (.versionMismatch t.version 1) := by
  intro publication store
  have hs : store.snapshot ⟨"acme", "vault"⟩ = .ok (guarded .maximum) := by
    refine PolicyStore.snapshot_perform_publish_self ?_
    rw [PolicyStore.lastVersion_empty]
    rfl
  have hfits : store.NumbersFit [publication] := by
    refine ⟨?_, trivial⟩
    rw [PolicyStore.lastVersion_of_snapshot hs]
    decide
  obtain ⟨e, he⟩ := exists_evaluate_guarded .maximum
  obtain ⟨p, hp⟩ : ∃ p, fullContext.prove (guarded .maximum) ⟨[1]⟩ .zero = .ok p :=
    ⟨_, prove_eq_ok_iff.mpr ⟨e, he, rfl⟩⟩
  have hcurrent := proveCurrent_eq_ok_iff.mpr ⟨hs, hp⟩
  obtain ⟨t, ht, -, -, hretired⟩ := (proveCurrent_rotates hcurrent).2.2 [publication]
  have hunused := hretired hfits (by decide)
  exact ⟨p, t, hcurrent, ht, hunused.rejected ⟨[1]⟩,
    hunused.refused rfl ⟨1, List.mem_singleton_self 1, rfl⟩⟩

end Witness

end AccessContext
