import AccessContext.Policy.Basic
import Std.Data.HashMap

/-!
# Stores of policies

A store holds the current snapshot for each tenant and resource. Publishing numbers the versions
of one key from 1 upwards; snapshots that were handed out before stay as they are.
-/

namespace AccessContext

/-- A resource of a tenant. -/
structure PolicyKey where
  tenant : String
  resource : String
deriving DecidableEq, Hashable

namespace PolicyKey

def text (key : PolicyKey) : String :=
  key.tenant ++ "/" ++ key.resource

end PolicyKey

/-- The current snapshots. -/
structure PolicyStore where
  entries : Std.HashMap PolicyKey Snapshot

namespace PolicyStore

def empty : PolicyStore :=
  ⟨∅⟩

def size (store : PolicyStore) : Nat :=
  store.entries.size

def isEmpty (store : PolicyStore) : Bool :=
  store.size == 0

/-- The version that the next policy for a key gets. -/
def nextVersion (store : PolicyStore) (key : PolicyKey) : UInt64 :=
  match store.entries[key]? with
  | some current => current.version + 1
  | none => 1

/-- Puts a policy in place of the current one, under the next version whatever its own. -/
def publish (store : PolicyStore) (key : PolicyKey) (policy : Policy) :
    Except ContextError (Snapshot × PolicyStore) :=
  match Snapshot.ofPolicy { policy with version := store.nextVersion key } with
  | .error e => .error e
  | .ok snapshot => .ok (snapshot, ⟨store.entries.insert key snapshot⟩)

/-- The current snapshot for a key. -/
def snapshot (store : PolicyStore) (key : PolicyKey) : Except ContextError Snapshot :=
  match store.entries[key]? with
  | some snapshot => .ok snapshot
  | none => .error (.unknownPolicy key.text)

end PolicyStore

end AccessContext
