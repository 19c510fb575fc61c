import AccessContext.Policy.Runs
import Mathlib.Algebra.Group.Nat.Defs
import Mathlib.Data.Finset.Card
import Mathlib.Data.List.Induction

/-!
# What a store answers

After any run of calls, a key has the snapshot of its last publication, and that snapshot carries the
number of publications under the key as its version. A policy that cannot be used is refused and
leaves all answers as they are, and a publication changes the answer for its own key alone. Main
statement: `PolicyStore.after_isKept`.
-/

namespace AccessContext

/-- A policy is refused by its validation, or has a snapshot. -/
theorem Snapshot.ofPolicy_cases (p : Policy) :
    (∃ e, p.validate = .error e ∧ ofPolicy p = .error e) ∨
      ∃ s : Snapshot, p.validate = .ok () ∧ s.policy = p ∧ ofPolicy p = .ok s := by
  rw [ofPolicy]
  split
  · rename_i fault hfault
    exact .inl ⟨.invalidPolicy fault, by rw [Policy.validate, hfault], rfl⟩
  · rename_i hfault
    exact .inr ⟨_, by rw [Policy.validate, hfault], rfl, rfl⟩

theorem Snapshot.validate_policy (s : Snapshot) : s.policy.validate = .ok () := by
  rw [Policy.validate, s.fault?_eq]

namespace PolicyStore

variable {store : PolicyStore} {key k : PolicyKey} {policy : Policy} {call : StoreCall}
  {s : Snapshot} {calls : List StoreCall}

/-! ### One call -/

theorem nextVersion_eq (store : PolicyStore) (key : PolicyKey) :
    store.nextVersion key = store.lastVersion key + 1 := by
  rw [nextVersion, lastVersion]
  cases store.entries[key]? with
  | none => rfl
  | some current => rfl

/-- A policy that cannot be used is refused, and any other is stored under the next version. -/
theorem perform_publish_cases (store : PolicyStore) (key : PolicyKey) (policy : Policy) :
    (∃ e, policy.validate = .error e ∧ store.perform (.publish key policy) = (.error e, store)) ∨
      ∃ s, policy.validate = .ok () ∧ s.policy = { policy with version := store.nextVersion key } ∧
        store.perform (.publish key policy) = (.ok s, ⟨store.entries.insert key s⟩) := by
  rw [perform, publish]
  rcases Snapshot.ofPolicy_cases { policy with version := store.nextVersion key } with
    ⟨e, hinvalid, hrefused⟩ | ⟨s, hvalid, hpolicy, hstored⟩
  · rw [hrefused]
    exact .inl ⟨e, hinvalid, rfl⟩
  · rw [hstored]
    exact .inr ⟨s, hvalid, hpolicy, rfl⟩

/-- A call publishes a snapshot under the next version and stores it, or leaves the store. -/
theorem perform_cases (store : PolicyStore) (call : StoreCall) :
    (published (call, (store.perform call).1) = none ∧ (store.perform call).2 = store) ∨
      ∃ key policy s, call = .publish key policy ∧
        published (call, (store.perform call).1) = some (key, s) ∧
        (store.perform call).2 = ⟨store.entries.insert key s⟩ ∧
        s.version = store.lastVersion key + 1 := by
  cases call with
  | fetch key => exact .inl ⟨rfl, rfl⟩
  | publish key policy =>
    rcases store.perform_publish_cases key policy with ⟨e, -, h⟩ | ⟨s, -, hpolicy, h⟩
    · rw [h]
      exact .inl ⟨rfl, rfl⟩
    · rw [h]
      refine .inr ⟨key, policy, s, rfl, rfl, rfl, ?_⟩
      rw [Snapshot.version, hpolicy, nextVersion_eq]

theorem getElem?_insert (store : PolicyStore) (key k : PolicyKey) (s : Snapshot) :
    (store.entries.insert key s)[k]? = if key = k then some s else store.entries[k]? := by
  rw [Std.HashMap.getElem?_insert]
  simp

theorem snapshot_eq_ok_iff : store.snapshot key = .ok s ↔ store.entries[key]? = some s := by
  rw [snapshot]
  cases store.entries[key]? <;> simp

theorem snapshot_congr {next : PolicyStore} (h : next.entries[key]? = store.entries[key]?) :
    next.snapshot key = store.snapshot key := by
  rw [snapshot, snapshot, h]

theorem perform_publish_eq_error_iff {e : ContextError} :
    (store.perform (.publish key policy)).1 = .error e ↔ policy.validate = .error e := by
  rcases store.perform_publish_cases key policy with ⟨found, hinvalid, h⟩ | ⟨s, hvalid, -, h⟩
  · rw [h, hinvalid]
    exact ⟨congrArg _ ∘ Except.error.inj, congrArg _ ∘ Except.error.inj⟩
  · rw [h, hvalid]
    exact ⟨nofun, nofun⟩

theorem perform_publish_of_invalid {e : ContextError} (h : policy.validate = .error e) :
    (store.perform (.publish key policy)).2 = store := by
  rcases store.perform_publish_cases key policy with ⟨_, -, h'⟩ | ⟨_, hvalid, -⟩
  · rw [h']
  · cases h.symm.trans hvalid

/-- A publication changes the answer for its own key alone. -/
theorem snapshot_perform_publish (h : k ≠ key) :
    (store.perform (.publish key policy)).2.snapshot k = store.snapshot k := by
  rcases store.perform_publish_cases key policy with ⟨_, -, h'⟩ | ⟨s, -, -, h'⟩
  · rw [h']
  · rw [h']
    refine snapshot_congr ?_
    rw [getElem?_insert, if_neg h.symm]

/-! ### Runs -/

theorem after_append (store : PolicyStore) (calls more : List StoreCall) :
    store.after (calls ++ more) = (store.after calls).after more := by
  induction calls generalizing store with
  | nil => rfl
  | cons call calls ih => exact ih _

theorem log_append (store : PolicyStore) (calls more : List StoreCall) :
    store.log (calls ++ more) = store.log calls ++ (store.after calls).log more := by
  induction calls generalizing store with
  | nil => rfl
  | cons call calls ih => exact congrArg _ (ih _)

theorem length_log (store : PolicyStore) (calls : List StoreCall) :
    (store.log calls).length = calls.length := by
  induction calls generalizing store with
  | nil => rfl
  | cons call calls ih => exact congrArg _ (ih _)

theorem publications_append (store : PolicyStore) (calls more : List StoreCall) :
    store.publications (calls ++ more) =
      store.publications calls ++ (store.after calls).publications more := by
  rw [publications, log_append, List.filterMap_append]
  rfl

/-- A run is not longer than its calls. -/
theorem length_issued_le (store : PolicyStore) (key : PolicyKey) (calls : List StoreCall) :
    (store.issued key calls).length ≤ calls.length := by
  rw [issued, List.length_map]
  calc
    _ ≤ (store.publications calls).length := List.length_filter_le ..
    _ ≤ (store.log calls).length := List.length_filterMap_le ..
    _ = calls.length := store.length_log calls

/-- A call that publishes nothing under a key leaves the snapshots under it to the rest of the run. -/
theorem issued_cons_none (h : published (call, (store.perform call).1) = none) :
    store.issued key (call :: calls) = (store.perform call).2.issued key calls := by
  rw [issued, publications, log, List.filterMap_cons_none h]
  rfl

theorem issued_cons_some (h : published (call, (store.perform call).1) = some (k, s)) :
    store.issued key (call :: calls) =
      (if k = key then [s] else []) ++ (store.perform call).2.issued key calls := by
  rw [issued, publications, log, List.filterMap_cons_some h, List.filter_cons]
  by_cases hkey : k = key
  · simp [hkey, issued, publications]
  · simp [hkey, issued, publications]

/-- A key has the snapshot of its last publication, and the one it had before if there is none. -/
theorem entry_after (store : PolicyStore) (key : PolicyKey) (calls : List StoreCall) :
    (store.after calls).entries[key]? = (store.issued key calls).getLast?.or store.entries[key]? := by
  induction calls generalizing store with
  | nil => rfl
  | cons call calls ih =>
    rw [after, ih]
    rcases store.perform_cases call with ⟨hnone, hstore⟩ | ⟨k, -, s, -, hsome, hstore, -⟩
    · rw [issued_cons_none hnone, hstore]
    · rw [issued_cons_some hsome, hstore, getElem?_insert]
      by_cases hkey : k = key
      · simp [hkey, List.getLast?_cons]
      · simp [hkey]

theorem lastVersion_insert (hversion : s.version = store.lastVersion k + 1) :
    lastVersion ⟨store.entries.insert k s⟩ key =
      store.lastVersion key + if k = key then 1 else 0 := by
  rw [lastVersion, getElem?_insert]
  by_cases hkey : k = key
  · subst hkey
    simpa using hversion
  · simp [hkey, lastVersion]

/-- A run counts the version of a key up by the snapshots it publishes under it. -/
theorem lastVersion_after (store : PolicyStore) (key : PolicyKey) (calls : List StoreCall) :
    (store.after calls).lastVersion key =
      store.lastVersion key + UInt64.ofNat (store.issued key calls).length := by
  induction calls generalizing store with
  | nil => exact (UInt64.add_zero _).symm
  | cons call calls ih =>
    rw [after, ih]
    rcases store.perform_cases call with ⟨hnone, hstore⟩ | ⟨k, -, s, -, hsome, hstore, hversion⟩
    · rw [issued_cons_none hnone, hstore]
    · rw [issued_cons_some hsome, hstore, lastVersion_insert hversion, List.length_append,
        UInt64.ofNat_add, UInt64.add_assoc]
      by_cases hkey : k = key
      · rw [if_pos hkey, if_pos hkey]
        rfl
      · rw [if_neg hkey, if_neg hkey]
        rfl

/-! ### How many keys there are -/

theorem issued_eq_nil_iff :
    store.issued key calls = [] ↔ key ∉ (store.publications calls).map Prod.fst := by
  rw [issued, List.map_eq_nil_iff, List.filter_eq_nil_iff, List.mem_map]
  constructor
  · rintro h ⟨entry, hentry, rfl⟩
    exact h entry hentry (decide_eq_true rfl)
  · intro h entry hentry hkey
    exact h ⟨entry, hentry, of_decide_eq_true hkey⟩

theorem mem_entries_after :
    key ∈ (empty.after calls).entries ↔ key ∈ (empty.publications calls).map Prod.fst := by
  rw [← not_iff_not, ← issued_eq_nil_iff, Std.HashMap.mem_iff_isSome_getElem?, entry_after,
    ← List.getLast?_eq_none_iff]
  cases (empty.issued key calls).getLast? <;> simp [empty]

theorem publications_singleton (store : PolicyStore) (call : StoreCall) :
    store.publications [call] = (published (call, (store.perform call).1)).toList := by
  rw [publications, log, log, List.filterMap_cons]
  cases published (call, (store.perform call).1) <;> rfl

/-- A store holds one snapshot for each key under which something was published. -/
theorem size_after (calls : List StoreCall) :
    (empty.after calls).size = ((empty.publications calls).map Prod.fst).toFinset.card := by
  induction calls using List.reverseRecOn with
  | nil => rfl
  | append_singleton calls call ih =>
    rw [after_append, publications_append, publications_singleton, after, after]
    rcases (empty.after calls).perform_cases call with ⟨hnone, hstore⟩ | ⟨k, -, s, -, hsome, hstore, -⟩
    · rw [hnone, hstore, ih, Option.toList_none, List.append_nil]
    · rw [hsome, hstore, Option.toList_some, List.map_append, List.map_singleton,
        List.toFinset_append, List.toFinset_cons, List.toFinset_nil, insert_empty_eq,
        Finset.union_comm, ← Finset.insert_eq, Finset.card_insert_eq_ite, ← ih, size,
        Std.HashMap.size_insert]
      simp only [mem_entries_after, List.mem_toFinset]
      rfl

/-! ### What a run leaves -/

/-- A published policy is the one that was given, but for its version. -/
theorem policy_of_mem_log (h : (.publish key policy, .ok s) ∈ store.log calls) :
    s.policy = { policy with version := s.version } := by
  induction calls generalizing store with
  | nil => cases h
  | cons call calls ih =>
    rcases List.mem_cons.mp h with hfirst | hrest
    · obtain ⟨rfl, hanswer⟩ := Prod.mk.inj hfirst
      rcases store.perform_publish_cases key policy with ⟨e, -, h'⟩ | ⟨t, -, hpolicy, h'⟩
      · rw [h'] at hanswer
        cases hanswer
      · rw [h'] at hanswer
        obtain rfl := Except.ok.inj hanswer
        rw [Snapshot.version, hpolicy]
    · exact ih hrest

/-- What the answers of a store are after some calls on an empty one. -/
structure IsKept (calls : List StoreCall) : Prop where
  /-- A key has the snapshot that was published last under it. -/
  current (key : PolicyKey) : (empty.after calls).snapshot key =
    (empty.issued key calls).getLast?.elim (.error (.unknownPolicy key.text)) .ok
  /-- The version counts the publications under the key. -/
  numbered {key : PolicyKey} {s : Snapshot} (h : (empty.after calls).snapshot key = .ok s) :
    s.version.toNat = (empty.issued key calls).length
  /-- A snapshot holds the policy that was given, under its own version. -/
  policy_eq {key : PolicyKey} {policy : Policy} {s : Snapshot}
    (h : (.publish key policy, .ok s) ∈ empty.log calls) :
    s.policy = { policy with version := s.version }
  /-- A snapshot is usable, and its digest is the one of its policy. -/
  usable {key : PolicyKey} {s : Snapshot} (h : (empty.after calls).snapshot key = .ok s) :
    s.policy.validate = .ok () ∧ s.digest = s.policy.digest
  /-- A publication fails if and only if the policy cannot be used. -/
  refused (key : PolicyKey) (policy : Policy) (e : ContextError) :
    ((empty.after calls).perform (.publish key policy)).1 = .error e ↔ policy.validate = .error e
  /-- A publication that fails changes nothing. -/
  unchanged {key : PolicyKey} {policy : Policy} {e : ContextError}
    (h : ((empty.after calls).perform (.publish key policy)).1 = .error e) :
    ((empty.after calls).perform (.publish key policy)).2 = empty.after calls
  /-- A publication changes no answer for another key, whatever the texts of the keys are. -/
  apart {key other : PolicyKey} (policy : Policy) (h : other ≠ key) :
    ((empty.after calls).perform (.publish key policy)).2.snapshot other =
      (empty.after calls).snapshot other
  /-- There are as many snapshots as keys with a publication. -/
  counted : (empty.after calls).size = ((empty.publications calls).map Prod.fst).toFinset.card
  /-- Answers that were given stay what they are. -/
  lasting (more : List StoreCall) :
    empty.log (calls ++ more) = empty.log calls ++ (empty.after calls).log more

theorem lastVersion_empty (key : PolicyKey) : empty.lastVersion key = 0 := by
  simp [lastVersion, empty]

theorem snapshot_after (key : PolicyKey) (calls : List StoreCall) :
    (empty.after calls).snapshot key =
      (empty.issued key calls).getLast?.elim (.error (.unknownPolicy key.text)) .ok := by
  rw [snapshot, entry_after]
  cases (empty.issued key calls).getLast? with
  | none => simp [empty]
  | some s => rfl

theorem lastVersion_of_snapshot (h : store.snapshot key = .ok s) :
    store.lastVersion key = s.version := by
  rw [lastVersion, snapshot_eq_ok_iff.mp h]
  rfl

theorem toNat_version_after (hcalls : calls.length < 2 ^ 64)
    (h : (empty.after calls).snapshot key = .ok s) :
    s.version.toNat = (empty.issued key calls).length := by
  have hlength := empty.length_issued_le key calls
  rw [← lastVersion_of_snapshot h, lastVersion_after, lastVersion_empty, UInt64.zero_add,
    UInt64.toNat_ofNat']
  exact Nat.mod_eq_of_lt (by omega)

/-- A store keeps what is published in it. -/
theorem after_isKept (calls : List StoreCall) (h : calls.length < 2 ^ 64) : IsKept calls where
  current key := snapshot_after key calls
  numbered := toNat_version_after h
  policy_eq := policy_of_mem_log
  usable := fun {_ s} _ => ⟨s.validate_policy, s.digest_eq⟩
  refused _ _ _ := perform_publish_eq_error_iff
  unchanged he := perform_publish_of_invalid (perform_publish_eq_error_iff.mp he)
  apart _ := snapshot_perform_publish
  counted := size_after calls
  lasting := empty.log_append calls

/-- Publications under two keys with one text, and one that is refused for its code step. -/
def crossedCalls : List StoreCall :=
  [.publish ⟨"a/b", "c"⟩ Snapshot.lenient.policy,
    .publish ⟨"a", "b/c"⟩ Snapshot.lenient.policy,
    .publish ⟨"a", "b/c"⟩ { Snapshot.lenient.policy with
      time := { Snapshot.lenient.policy.time with codeStep := 0 } },
    .fetch ⟨"a/b", "c"⟩]

theorem after_isKept_crossedCalls :
    crossedCalls.length < 2 ^ 64 ∧ IsKept crossedCalls ∧
      PolicyKey.text ⟨"a/b", "c"⟩ = PolicyKey.text ⟨"a", "b/c"⟩ ∧
      (empty.after crossedCalls).size = 2 := by
  have h := after_isKept crossedCalls (by decide)
  refine ⟨by decide, h, by decide, h.counted.trans ?_⟩
  rfl

end PolicyStore

end AccessContext
