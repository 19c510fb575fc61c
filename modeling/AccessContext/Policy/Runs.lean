import AccessContext.Policy.Store

/-!
# Runs of a store

A store is used by one call after another: policies are published, and current snapshots are fetched.
Every call has an answer, and the answers of a run stay what they were when it goes on.
-/

namespace AccessContext

/-- A call on a store. -/
inductive StoreCall
  | publish (key : PolicyKey) (policy : Policy)
  | fetch (key : PolicyKey)

/-- What a call gives back. -/
abbrev StoreAnswer := Except ContextError Snapshot

/-- The key and the snapshot of a publication that went through. -/
def published : StoreCall × StoreAnswer → Option (PolicyKey × Snapshot)
  | (.publish key _, .ok snapshot) => some (key, snapshot)
  | _ => none

namespace PolicyStore

/-- The answer to a call and the store it leaves. A policy that is refused is not stored. -/
def perform (store : PolicyStore) : StoreCall → StoreAnswer × PolicyStore
  | .publish key policy =>
    match store.publish key policy with
    | .error e => (.error e, store)
    | .ok (snapshot, next) => (.ok snapshot, next)
  | .fetch key => (store.snapshot key, store)

/-- The store after some calls. -/
def after (store : PolicyStore) : List StoreCall → PolicyStore
  | [] => store
  | call :: calls => (store.perform call).2.after calls

/-- The calls with their answers. -/
def log (store : PolicyStore) : List StoreCall → List (StoreCall × StoreAnswer)
  | [] => []
  | call :: calls => (call, (store.perform call).1) :: (store.perform call).2.log calls

/-- The publications that go through. -/
def publications (store : PolicyStore) (calls : List StoreCall) : List (PolicyKey × Snapshot) :=
  (store.log calls).filterMap published

/-- The snapshots that are published under a key. -/
def issued (store : PolicyStore) (key : PolicyKey) (calls : List StoreCall) : List Snapshot :=
  ((store.publications calls).filter fun entry => entry.1 = key).map Prod.snd

/-- The version of the current snapshot for a key, and 0 before there is one. -/
def lastVersion (store : PolicyStore) (key : PolicyKey) : UInt64 :=
  (store.entries[key]?.map Snapshot.version).getD 0

end PolicyStore

end AccessContext
