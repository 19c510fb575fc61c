import AccessContext.Hash.Sha3
import AccessContext.Json.Codec

/-!
# Merkle trees

A tree over a list of digests, filled up with zero digests to a power of two. Leaves and inner
nodes are hashed behind different bytes, so a node can never pass for a leaf. A path lists the
siblings of a leaf from the bottom up; checking it hashes from the leaf to the root.
-/

namespace AccessContext

/-- The string hashed for a leaf. -/
def leafPreimage (leaf : Digest) : List UInt8 :=
  0 :: leaf.toList

/-- The string hashed for an inner node. -/
def nodePreimage (left right : Digest) : List UInt8 :=
  1 :: (left.toList ++ right.toList)

def leafHash (leaf : Digest) : Digest :=
  sha3 (leafPreimage leaf)

def nodeHash (left right : Digest) : Digest :=
  sha3 (nodePreimage left right)

/-- The siblings of a leaf, bottom first, with its place and its digest. -/
structure MerklePath where
  siblings : List Digest
  index : UInt64
  leaf : Digest
deriving DecidableEq

namespace MerklePath

/-- The root that the siblings lead to from a hash at a place, and what is left of the place. -/
def climb : List Digest → Nat → Digest → Nat × Digest
  | [], index, hash => (index, hash)
  | sibling :: rest, index, hash =>
    climb rest (index / 2)
      (if index % 2 = 0 then nodeHash hash sibling else nodeHash sibling hash)

/-- Whether the path leads to the root and its place lies within the tree. -/
def verify (path : MerklePath) (root : Digest) : Bool :=
  let (index, hash) := climb path.siblings path.index.toNat (leafHash path.leaf)
  index == 0 && hash == root

open Json in
def codec : Codec MerklePath :=
  .record "MerkleProof"
    (.field "siblings" (.list .bytes32) none <| .field "leaf_index" (.word64 "usize") none <|
      .field "leaf_hash" .bytes32 none .done)
    (fun (siblings, index, leaf, ()) => ⟨siblings, index, leaf⟩)
    (fun p => (p.siblings, p.index, p.leaf, ()))

end MerklePath

/-- The parents of a level. -/
def parents : List Digest → List Digest
  | left :: right :: rest => nodeHash left right :: parents rest
  | _ => []

theorem length_parents : (level : List Digest) → (parents level).length = level.length / 2
  | [] => rfl
  | [_] => by simp [parents]
  | _ :: _ :: rest => by simp only [parents, List.length_cons, length_parents rest]; omega

/-- The levels above and including the given one, up to the root. -/
def levelsFrom (level : List Digest) : List (List Digest) :=
  if level.length ≤ 1 then [level] else level :: levelsFrom (parents level)
termination_by level.length
decreasing_by rw [length_parents]; omega

/-- Leaves, and all levels of hashes from the leaves to the root. -/
structure MerkleTree where
  leaves : List Digest
  levels : List (List Digest)

namespace MerkleTree

/-- How many levels lie above `count` leaves: the least number of doublings from one to `count` or
beyond. -/
def depth (count : Nat) : Nat :=
  (2 * count - 1).log2

/-- The leaves filled up to a power of two. -/
def padded (leaves : List Digest) : List Digest :=
  leaves ++ List.replicate (1 <<< depth leaves.length - leaves.length) Bytes32.zero

/-- The tree over a list of leaves. Over no leaves it has a zero root, which no path reaches. -/
def ofLeaves (leaves : List Digest) : MerkleTree :=
  if leaves.isEmpty then ⟨[], [[Bytes32.zero]]⟩
  else ⟨leaves, levelsFrom ((padded leaves).map leafHash)⟩

def root (t : MerkleTree) : Digest :=
  (t.levels.getLast?.bind List.head?).getD Bytes32.zero

/-- Siblings on the way from a place in the first level to the last level. -/
def siblings : List (List Digest) → Nat → Option (List Digest)
  | level :: next :: rest, index =>
    match level[index ^^^ 1]?, siblings (next :: rest) (index / 2) with
    | some sibling, some above => some (sibling :: above)
    | _, _ => none
  | _, _ => some []

/-- The path of the leaf at a place. -/
def prove (t : MerkleTree) (index : UInt64) : Option MerklePath :=
  match t.leaves[index.toNat]?, siblings t.levels index.toNat with
  | some leaf, some path => some ⟨path, index, leaf⟩
  | _, _ => none

end MerkleTree

end AccessContext
