import AccessContext.Merkle
import AccessContext.Theory.Preimages
import Mathlib.Data.Nat.Bitwise
import Mathlib.Data.Nat.Log

/-!
# Membership in Merkle trees

A path comes from anyone, and so do its siblings, its place and its leaf. If no string that the
check hashes collides with a string of the tree, the way from the leaf to the root can be followed
back: below a node of the tree stand its two children and nothing else, and neither can a leaf be
taken for a node nor a node for a leaf. The tree's own paths are accepted without any assumption.
Main statements: `MerklePath.verify_ofLeaves_iff`, `MerkleTree.prove_ofLeaves`.
-/

namespace AccessContext

variable {leaves : List Digest}

/-! ### Strings -/

theorem leafPreimage_inj {a b : Digest} (h : leafPreimage a = leafPreimage b) : a = b :=
  Bytes32.ext (List.cons.inj h).2

theorem nodePreimage_inj {left right left' right' : Digest}
    (h : nodePreimage left right = nodePreimage left' right') : left = left' ∧ right = right' := by
  have hlength : left.toList.length = left'.toList.length := by
    rw [left.length_toList, left'.length_toList]
  obtain ⟨hleft, hright⟩ := List.append_inj (List.cons.inj h).2 hlength
  exact ⟨Bytes32.ext hleft, Bytes32.ext hright⟩

theorem leafPreimage_ne_nodePreimage {leaf left right : Digest} :
    leafPreimage leaf ≠ nodePreimage left right := by
  intro h
  cases (List.cons.inj h).1

/-- The strings hashed for the parents of a level. -/
def parentPreimages : List Digest → List (List UInt8)
  | left :: right :: rest => nodePreimage left right :: parentPreimages rest
  | _ => []

theorem parents_eq_map : (level : List Digest) → parents level = (parentPreimages level).map sha3
  | [] => rfl
  | [_] => rfl
  | left :: right :: rest => congrArg (nodeHash left right :: ·) (parents_eq_map rest)

theorem getElem?_parentPreimages {level : List Digest} {i : Nat} {x : List UInt8} :
    (parentPreimages level)[i]? = some x ↔
      ∃ left right, level[2 * i]? = some left ∧ level[2 * i + 1]? = some right ∧
        x = nodePreimage left right := by
  induction level using parentPreimages.induct generalizing i with
  | case1 left right rest ih =>
    cases i with
    | zero => simp [parentPreimages, eq_comm]
    | succ i => simp [parentPreimages, ih, Nat.mul_add]
  | case2 level h =>
    match level, h with
    | [], _ => simp [parentPreimages]
    | [_], _ => simp [parentPreimages]
    | left :: right :: rest, h => exact (h left right rest rfl).elim

namespace MerklePath

/-- The string hashed on the way up from a hash at a place with its sibling. -/
def stepPreimage (index : Nat) (hash sibling : Digest) : List UInt8 :=
  if index % 2 = 0 then nodePreimage hash sibling else nodePreimage sibling hash

theorem leafPreimage_ne_stepPreimage {leaf hash sibling : Digest} {index : Nat} :
    leafPreimage leaf ≠ stepPreimage index hash sibling := by
  unfold stepPreimage
  split
  · exact leafPreimage_ne_nodePreimage
  · exact leafPreimage_ne_nodePreimage

/-- The strings hashed on the way up. -/
def climbPreimages : List Digest → Nat → Digest → List (List UInt8)
  | [], _, _ => []
  | sibling :: rest, index, hash =>
    stepPreimage index hash sibling ::
      climbPreimages rest (index / 2) (sha3 (stepPreimage index hash sibling))

/-- The strings hashed to check a path. -/
def preimages (path : MerklePath) : List (List UInt8) :=
  leafPreimage path.leaf ::
    climbPreimages path.siblings path.index.toNat (leafHash path.leaf)

theorem climb_cons (sibling : Digest) (rest : List Digest) (index : Nat) (hash : Digest) :
    climb (sibling :: rest) index hash =
      climb rest (index / 2) (sha3 (stepPreimage index hash sibling)) := by
  rw [climb, stepPreimage, apply_ite sha3]
  rfl

/-- The way up ends with the digest of a string that is hashed on it. -/
theorem exists_climb_eq (siblings : List Digest) (index : Nat) (x : List UInt8) :
    ∃ y ∈ x :: climbPreimages siblings index (sha3 x),
      (climb siblings index (sha3 x)).2 = sha3 y := by
  induction siblings generalizing index x with
  | nil => exact ⟨x, List.mem_cons_self, rfl⟩
  | cons sibling rest ih =>
    obtain ⟨y, hy, heq⟩ := ih (index / 2) (stepPreimage index (sha3 x) sibling)
    exact ⟨y, List.mem_cons_of_mem x hy, by rw [climb_cons, heq]⟩

/-- A step up within a level: the string hashed is that of two siblings of the level if and only
if the hash and its sibling stand in their places. -/
theorem getElem?_stepPreimage {level : List Digest} {index : Nat} {hash sibling : Digest} :
    (parentPreimages level)[index / 2]? = some (stepPreimage index hash sibling) ↔
      level[index]? = some hash ∧ level[index ^^^ 1]? = some sibling := by
  rw [getElem?_parentPreimages, stepPreimage]
  rcases Nat.even_or_odd' index with ⟨k, rfl | rfl⟩
  · rw [Nat.xor_one_of_even (even_two_mul k), Nat.mul_div_cancel_left k Nat.two_pos,
      if_pos (Nat.mul_mod_right 2 k)]
    constructor
    · rintro ⟨left, right, hleft, hright, heq⟩
      obtain ⟨rfl, rfl⟩ := nodePreimage_inj heq
      exact ⟨hleft, hright⟩
    · rintro ⟨hhash, hsibling⟩
      exact ⟨hash, sibling, hhash, hsibling, rfl⟩
  · rw [Nat.xor_one_of_odd (odd_two_mul_add_one k), show (2 * k + 1) / 2 = k by omega,
      if_neg (by omega), Nat.add_sub_cancel]
    constructor
    · rintro ⟨left, right, hleft, hright, heq⟩
      obtain ⟨rfl, rfl⟩ := nodePreimage_inj heq
      exact ⟨hright, hleft⟩
    · rintro ⟨hhash, hsibling⟩
      exact ⟨sibling, hash, hsibling, hhash, rfl⟩

end MerklePath

/-! ### Levels -/

namespace MerkleTree

theorem depth_eq_clog (count : Nat) : depth count = Nat.clog 2 count := by
  unfold depth
  rcases Nat.eq_zero_or_pos count with rfl | hcount
  · rfl
  · refine eq_of_forall_ge_iff fun k => ?_
    rw [Nat.clog_le_iff_le_pow Nat.one_lt_two, ← Nat.lt_succ_iff, Nat.log2_lt (by omega),
      Nat.succ_eq_add_one, Nat.pow_succ]
    omega

theorem padded_eq (leaves : List Digest) :
    padded leaves =
      leaves ++ List.replicate (2 ^ depth leaves.length - leaves.length) Bytes32.zero := by
  rw [padded, Nat.one_shiftLeft]

theorem length_padded (leaves : List Digest) :
    (padded leaves).length = 2 ^ depth leaves.length := by
  have hle : leaves.length ≤ 2 ^ depth leaves.length := by
    rw [depth_eq_clog]
    exact Nat.le_pow_clog Nat.one_lt_two _
  rw [padded_eq, List.length_append, List.length_replicate, Nat.add_sub_cancel' hle]

/-- The hashes of one height above the leaves. -/
def level (leaves : List Digest) : Nat → List Digest
  | 0 => (padded leaves).map leafHash
  | height + 1 => parents (level leaves height)

/-- The strings hashed for one height above the leaves. -/
def levelPreimages (leaves : List Digest) : Nat → List (List UInt8)
  | 0 => (padded leaves).map leafPreimage
  | height + 1 => parentPreimages (level leaves height)

/-- The strings hashed for a tree. Over no leaves there are none. -/
def preimages (leaves : List Digest) : List (List UInt8) :=
  if leaves.isEmpty then []
  else (List.range (depth leaves.length + 1)).flatMap (levelPreimages leaves)

theorem mem_preimages (h : leaves ≠ []) {height : Nat} (hheight : height ≤ depth leaves.length)
    {x : List UInt8} (hx : x ∈ levelPreimages leaves height) : x ∈ preimages leaves := by
  rw [preimages, if_neg (by simpa using h)]
  exact List.mem_flatMap.mpr ⟨height, List.mem_range.mpr (by omega), hx⟩

theorem level_eq_map (leaves : List Digest) (height : Nat) :
    level leaves height = (levelPreimages leaves height).map sha3 := by
  cases height with
  | zero => rw [level, levelPreimages, List.map_map]; rfl
  | succ height => exact parents_eq_map _

/-- A string whose digest stands in a level is the one hashed there, unless they collide. -/
theorem getElem?_levelPreimages {height index : Nat} {y : List UInt8}
    (hsafe : ∀ x ∈ levelPreimages leaves height, ¬ Collide x y)
    (h : (level leaves height)[index]? = some (sha3 y)) :
    (levelPreimages leaves height)[index]? = some y := by
  rw [level_eq_map, List.getElem?_map, Option.map_eq_some_iff] at h
  obtain ⟨x, hx, heq⟩ := h
  rw [hx, eq_of_not_collide (hsafe x (List.mem_of_getElem? hx)) heq]

theorem length_level {height : Nat} (h : height ≤ depth leaves.length) :
    (level leaves height).length = 2 ^ (depth leaves.length - height) := by
  induction height with
  | zero => rw [level, List.length_map, length_padded, Nat.sub_zero]
  | succ height ih =>
    rw [level, length_parents, ih (by omega),
      show depth leaves.length - height = depth leaves.length - (height + 1) + 1 by omega,
      Nat.pow_succ, Nat.mul_div_cancel _ Nat.two_pos]

theorem levelsFrom_of_lt {height : Nat} (h : height < depth leaves.length) :
    levelsFrom (level leaves height) =
      level leaves height :: levelsFrom (level leaves (height + 1)) := by
  rw [levelsFrom, if_neg]
  · rfl
  · have hpow := Nat.one_lt_two_pow (n := depth leaves.length - height) (by omega)
    rw [length_level h.le]
    omega

theorem levelsFrom_depth :
    levelsFrom (level leaves (depth leaves.length)) = [level leaves (depth leaves.length)] := by
  rw [levelsFrom, if_pos]
  rw [length_level le_rfl, Nat.sub_self, Nat.pow_zero]

theorem levels_ofLeaves (h : leaves ≠ []) :
    (ofLeaves leaves).levels = levelsFrom (level leaves 0) := by
  rw [ofLeaves, if_neg (by simpa using h)]
  rfl

theorem exists_levelsFrom (bottom : List Digest) : ∃ above, levelsFrom bottom = bottom :: above := by
  rw [levelsFrom]
  split
  · exact ⟨[], rfl⟩
  · exact ⟨levelsFrom (parents bottom), rfl⟩

theorem getLast?_levelsFrom {height : Nat} (h : height ≤ depth leaves.length) :
    (levelsFrom (level leaves height)).getLast? = (levelsFrom (level leaves 0)).getLast? := by
  induction height with
  | zero => rfl
  | succ height ih =>
    obtain ⟨above, habove⟩ := exists_levelsFrom (level leaves (height + 1))
    rw [← ih (by omega), levelsFrom_of_lt h, habove, List.getLast?_cons_cons]

/-- The last level, in which there is only the root. -/
theorem level_depth (h : leaves ≠ []) :
    level leaves (depth leaves.length) = [(ofLeaves leaves).root] := by
  have hlength : (level leaves (depth leaves.length)).length = 1 := by
    rw [length_level le_rfl, Nat.sub_self, Nat.pow_zero]
  obtain ⟨top, htop⟩ := List.length_eq_one_iff.mp hlength
  rw [root, levels_ofLeaves h, ← getLast?_levelsFrom le_rfl, levelsFrom_depth, htop]
  rfl

theorem siblings_depth (index : Nat) :
    siblings (levelsFrom (level leaves (depth leaves.length))) index = some [] := by
  rw [levelsFrom_depth]
  rfl

theorem siblings_of_lt {height index : Nat} {sibling : Digest} {rest : List Digest}
    (h : height < depth leaves.length) :
    siblings (levelsFrom (level leaves height)) index = some (sibling :: rest) ↔
      (level leaves height)[index ^^^ 1]? = some sibling ∧
        siblings (levelsFrom (level leaves (height + 1))) (index / 2) = some rest := by
  obtain ⟨above, habove⟩ := exists_levelsFrom (level leaves (height + 1))
  rw [levelsFrom_of_lt h, habove, siblings]
  split
  · next s r hs hr => simp [hs, hr]
  · next hnone =>
    constructor
    · rintro ⟨⟩
    · rintro ⟨hs, hr⟩
      exact (hnone _ _ hs hr).elim

/-- From each place of a level siblings lead up to the root, one for each level on the way. -/
theorem exists_siblings {height index : Nat} (hheight : height ≤ depth leaves.length)
    (hindex : index < 2 ^ (depth leaves.length - height)) :
    ∃ path, siblings (levelsFrom (level leaves height)) index = some path ∧
      height + path.length = depth leaves.length := by
  -- From the root downwards: a level has the siblings of the level above and one of its own.
  induction hrest : depth leaves.length - height generalizing height index with
  | zero =>
    obtain rfl : height = depth leaves.length := by omega
    exact ⟨[], siblings_depth index, rfl⟩
  | succ rest ih =>
    have hlt : height < depth leaves.length := by omega
    have hsibling : index ^^^ 1 < (level leaves height).length := by
      rw [length_level hheight]
      exact Nat.xor_lt_two_pow hindex (Nat.one_lt_two_pow (by omega))
    have hparent : index / 2 < 2 ^ (depth leaves.length - (height + 1)) := by
      rw [hrest, Nat.pow_succ'] at hindex
      rw [show depth leaves.length - (height + 1) = rest by omega]
      exact Nat.div_lt_of_lt_mul hindex
    obtain ⟨path, hpath, hlength⟩ := ih hlt hparent (by omega)
    refine ⟨(level leaves height)[index ^^^ 1] :: path, ?_, ?_⟩
    · exact (siblings_of_lt hlt).mpr ⟨List.getElem?_eq_getElem hsibling, hpath⟩
    · rw [List.length_cons]
      omega

theorem leaves_ofLeaves (leaves : List Digest) : (ofLeaves leaves).leaves = leaves := by
  rw [ofLeaves]
  split
  · next h => exact (List.isEmpty_iff.mp h).symm
  · rfl

/-- The last level holds the root and nothing else. -/
theorem getLast?_levels (leaves : List Digest) :
    (ofLeaves leaves).levels.getLast? = some [(ofLeaves leaves).root] := by
  rcases eq_or_ne leaves [] with rfl | h
  · rfl
  · rw [levels_ofLeaves h, ← getLast?_levelsFrom le_rfl, levelsFrom_depth, level_depth h]
    rfl

theorem prove_eq_some_iff {t : MerkleTree} {index : UInt64} {path : MerklePath} :
    t.prove index = some path ↔ t.leaves[index.toNat]? = some path.leaf ∧ path.index = index ∧
      siblings t.levels index.toNat = some path.siblings := by
  rw [prove]
  split
  · next leaf above hleaf habove =>
    constructor
    · intro h
      obtain rfl := Option.some.inj h
      exact ⟨hleaf, rfl, habove⟩
    · rintro ⟨hleaf', hindex, habove'⟩
      obtain rfl := Option.some.inj (hleaf.symm.trans hleaf')
      obtain rfl := Option.some.inj (habove.symm.trans habove')
      rw [← hindex]
  · next hnone =>
    constructor
    · rintro ⟨⟩
    · rintro ⟨hleaf, -, habove⟩
      exact (hnone _ _ hleaf habove).elim

end MerkleTree

/-! ### Paths -/

namespace MerklePath

open MerkleTree

/-- A way up that ends at the root has gone through the tree: it started at some height, from the
hash that stands there, and its siblings are those of the tree. -/
theorem exists_level_of_climb (h : leaves ≠ []) {path : List Digest} {index : Nat} {hash : Digest}
    (hroot : climb path index hash = (0, (ofLeaves leaves).root))
    (hsafe : ∀ height ≤ depth leaves.length, ∀ x ∈ levelPreimages leaves height,
      ∀ y ∈ climbPreimages path index hash, ¬ Collide x y) :
    ∃ height, height + path.length = depth leaves.length ∧
      (level leaves height)[index]? = some hash ∧
      MerkleTree.siblings (levelsFrom (level leaves height)) index = some path := by
  -- The last step is compared with the tree first, so each step finds the level above it known.
  induction path generalizing index hash with
  | nil =>
    obtain ⟨rfl, rfl⟩ := Prod.mk.inj hroot
    refine ⟨depth leaves.length, rfl, ?_, siblings_depth 0⟩
    rw [level_depth h]
    rfl
  | cons sibling rest ih =>
    rw [climb_cons] at hroot
    obtain ⟨height, hheight, hhash, hrest⟩ := ih hroot fun height hle x hx y hy =>
      hsafe height hle x hx y (List.mem_cons_of_mem _ hy)
    have hpreimage := getElem?_levelPreimages
      (fun x hx => hsafe height (by omega) x hx _ List.mem_cons_self) hhash
    cases height with
    | zero =>
      -- Below the leaves there is no level that a step could have come from.
      obtain ⟨leaf, -, hleaf⟩ := List.mem_map.mp (List.mem_of_getElem? hpreimage)
      exact (leafPreimage_ne_stepPreimage hleaf).elim
    | succ height =>
      obtain ⟨hself, hsibling⟩ := getElem?_stepPreimage.mp hpreimage
      exact ⟨height, by rw [List.length_cons]; omega, hself,
        (siblings_of_lt (by omega)).mpr ⟨hsibling, hrest⟩⟩

/-- The siblings of the tree lead from each of its hashes to the root. -/
theorem climb_of_siblings (h : leaves ≠ []) {path : List Digest} {height index : Nat}
    {hash : Digest} (hheight : height + path.length = depth leaves.length)
    (hhash : (level leaves height)[index]? = some hash)
    (hpath : MerkleTree.siblings (levelsFrom (level leaves height)) index = some path) :
    climb path index hash = (0, (ofLeaves leaves).root) := by
  induction path generalizing height index hash with
  | nil =>
    obtain rfl : height = depth leaves.length := hheight
    rw [level_depth h, List.getElem?_singleton] at hhash
    split at hhash
    · next hindex =>
      obtain rfl := Option.some.inj hhash
      rw [hindex]
      rfl
    · cases hhash
  | cons sibling rest ih =>
    rw [List.length_cons] at hheight
    obtain ⟨hsibling, hrest⟩ := (siblings_of_lt (by omega)).mp hpath
    have hpreimage := getElem?_stepPreimage.mpr ⟨hhash, hsibling⟩
    have hparent : (level leaves (height + 1))[index / 2]? =
        some (sha3 (stepPreimage index hash sibling)) := by
      rw [level_eq_map, List.getElem?_map]
      exact congrArg (Option.map sha3) hpreimage
    rw [climb_cons]
    exact ih (by omega) hparent hrest

theorem verify_iff {path : MerklePath} {root : Digest} :
    path.verify root = true ↔
      climb path.siblings path.index.toNat (leafHash path.leaf) = (0, root) := by
  simp [verify, Prod.ext_iff]

/-- No path leads to the root of the tree over no leaves, unless a string has the digest zero. -/
theorem verify_ofLeaves_nil {path : MerklePath}
    (hzero : ∀ y ∈ path.preimages, sha3 y ≠ Bytes32.zero) :
    path.verify (ofLeaves []).root = false := by
  rw [Bool.eq_false_iff]
  intro hverify
  obtain ⟨y, hy, heq⟩ := exists_climb_eq path.siblings path.index.toNat (leafPreimage path.leaf)
  exact hzero y hy (heq.symm.trans (congrArg Prod.snd (verify_iff.mp hverify)))

/-- A path that leads to the root starts at its leaf. -/
theorem of_verify (h : leaves ≠ []) {path : MerklePath}
    (hcollide : ∀ x ∈ MerkleTree.preimages leaves, ∀ y ∈ path.preimages, ¬ Collide x y)
    (hverify : path.verify (ofLeaves leaves).root = true) :
    path.siblings.length = depth leaves.length ∧
      (padded leaves)[path.index.toNat]? = some path.leaf ∧
      MerkleTree.siblings (ofLeaves leaves).levels path.index.toNat = some path.siblings := by
  obtain ⟨height, hheight, hhash, hpath⟩ := exists_level_of_climb h (verify_iff.mp hverify)
    fun height hle x hx y hy => hcollide x (mem_preimages h hle hx) y (List.mem_cons_of_mem _ hy)
  have hpreimage := getElem?_levelPreimages
    (fun x hx => hcollide x (mem_preimages h (by omega) hx) _ List.mem_cons_self) hhash
  cases height with
  | zero =>
    obtain ⟨leaf, hleaf, heq⟩ := Option.map_eq_some_iff.mp (List.getElem?_map.symm.trans hpreimage)
    obtain rfl := leafPreimage_inj heq
    exact ⟨by omega, hleaf, by rw [levels_ofLeaves h, hpath]⟩
  | succ height =>
    -- The path is too short: what stands at its start is a node, and no leaf.
    obtain ⟨left, right, -, -, heq⟩ := getElem?_parentPreimages.mp hpreimage
    exact (leafPreimage_ne_nodePreimage heq).elim

/-- If no string that the check of a path hashes collides with a string of the tree, the path is
accepted exactly if it is the path of the padded leaf at its place; only zeros are accepted besides
the leaves. Over no leaves nothing is accepted, if no string has the digest zero. -/
theorem verify_ofLeaves_iff (leaves : List Digest) (path : MerklePath)
    (hcollide : ∀ x ∈ MerkleTree.preimages leaves, ∀ y ∈ path.preimages, ¬ Collide x y)
    (hzero : leaves = [] → ∀ y ∈ path.preimages, sha3 y ≠ Bytes32.zero) :
    (path.verify (ofLeaves leaves).root = true ↔
      leaves ≠ [] ∧ ∃ d, d = Nat.clog 2 leaves.length ∧
        padded leaves = leaves ++ List.replicate (2 ^ d - leaves.length) Bytes32.zero ∧
        path.siblings.length = d ∧ path.index.toNat < 2 ^ d ∧
        (padded leaves)[path.index.toNat]? = some path.leaf ∧
        MerkleTree.siblings (ofLeaves leaves).levels path.index.toNat = some path.siblings) ∧
    (path.verify (ofLeaves leaves).root = true →
      leaves[path.index.toNat]? = some path.leaf ∨
        leaves.length ≤ path.index.toNat ∧ path.leaf = Bytes32.zero) := by
  rcases eq_or_ne leaves [] with rfl | h
  · have hfalse := verify_ofLeaves_nil (hzero rfl)
    simp [hfalse]
  refine ⟨⟨fun hverify => ?_, ?_⟩, fun hverify => ?_⟩
  · obtain ⟨hlength, hleaf, hsiblings⟩ := of_verify h hcollide hverify
    obtain ⟨hindex, -⟩ := List.getElem?_eq_some_iff.mp hleaf
    rw [length_padded] at hindex
    exact ⟨h, depth leaves.length, depth_eq_clog _, padded_eq leaves, hlength, hindex, hleaf, hsiblings⟩
  · rintro ⟨-, d, rfl, -, hlength, -, hleaf, hsiblings⟩
    rw [← depth_eq_clog] at hlength
    rw [levels_ofLeaves h] at hsiblings
    have hhash : (level leaves 0)[path.index.toNat]? = some (leafHash path.leaf) := by
      rw [level, List.getElem?_map, hleaf]
      rfl
    exact verify_iff.mpr (climb_of_siblings h (by rw [hlength, Nat.zero_add]) hhash hsiblings)
  · obtain ⟨-, hleaf, -⟩ := of_verify h hcollide hverify
    rw [padded_eq] at hleaf
    rcases Nat.lt_or_ge path.index.toNat leaves.length with hlt | hge
    · rw [List.getElem?_append_left hlt] at hleaf
      exact .inl hleaf
    · rw [List.getElem?_append_right hge] at hleaf
      exact .inr ⟨hge, (List.mem_replicate.mp (List.mem_of_getElem? hleaf)).2⟩

theorem leafHash_zero_ne :
    leafHash .zero ≠ .zero ∧ leafHash .zero ≠ nodeHash (leafHash .zero) (leafHash .zero) := by
  decide +kernel

/-- A tree over two leaves, and one over none. -/
theorem verify_ofLeaves_iff_zeros :
    verify ⟨[leafHash .zero], 1, .zero⟩ (ofLeaves [.zero, .zero]).root = true ∧
    verify ⟨[leafHash .zero], 3, .zero⟩ (ofLeaves [.zero, .zero]).root = false ∧
    verify ⟨[], 0, .zero⟩ (ofLeaves []).root = false := by
  obtain ⟨hzero, hne⟩ := leafHash_zero_ne
  have hne' : sha3 (leafPreimage .zero) ≠
      sha3 (nodePreimage (leafHash .zero) (leafHash .zero)) := hne
  have hcollide : ∀ x ∈ MerkleTree.preimages [.zero, .zero],
      ∀ y ∈ [leafPreimage .zero, nodePreimage (leafHash .zero) (leafHash .zero)],
        ¬ Collide x y := by
    change ∀ x ∈ [leafPreimage .zero, leafPreimage .zero,
      nodePreimage (leafHash .zero) (leafHash .zero)], _
    simp [Collide, hne', hne'.symm]
  refine ⟨?_, ?_, ?_⟩
  · refine (verify_ofLeaves_iff [.zero, .zero] ⟨[leafHash .zero], 1, .zero⟩ hcollide nofun).1.mpr
      ⟨nofun, 1, rfl, rfl, rfl, by decide, rfl, ?_⟩
    rw [levels_ofLeaves (List.cons_ne_nil _ _)]
    exact (siblings_of_lt (by decide)).mpr ⟨rfl, siblings_depth 0⟩
  · rw [Bool.eq_false_iff, ne_eq,
      (verify_ofLeaves_iff [.zero, .zero] ⟨[leafHash .zero], 3, .zero⟩ hcollide nofun).1]
    rintro ⟨-, d, rfl, -, -, hindex, -⟩
    exact absurd hindex (by decide)
  · rw [Bool.eq_false_iff, ne_eq, (verify_ofLeaves_iff [] ⟨[], 0, .zero⟩ nofun ?_).1]
    · exact fun h => h.1 rfl
    · rintro - y hy
      rw [List.mem_singleton.mp hy]
      exact hzero

end MerklePath

/-! ### The paths of a tree -/

namespace MerkleTree

open MerklePath

/-- Each leaf has a path, and it leads to the root. -/
theorem exists_prove {index : UInt64} {leaf : Digest} (hleaf : leaves[index.toNat]? = some leaf) :
    ∃ path, (ofLeaves leaves).prove index = some path ∧ path.leaf = leaf ∧ path.index = index ∧
      path.siblings.length = depth leaves.length ∧ path.verify (ofLeaves leaves).root = true := by
  obtain ⟨hlt, -⟩ := List.getElem?_eq_some_iff.mp hleaf
  have h : leaves ≠ [] := List.ne_nil_of_length_pos (by omega)
  have hpadded : (padded leaves)[index.toNat]? = some leaf := by
    rw [padded_eq, List.getElem?_append_left hlt, hleaf]
  have hhash : (level leaves 0)[index.toNat]? = some (leafHash leaf) := by
    rw [level, List.getElem?_map, hpadded]
    rfl
  have hindex : index.toNat < 2 ^ (depth leaves.length - 0) := by
    obtain ⟨hindex, -⟩ := List.getElem?_eq_some_iff.mp hpadded
    rwa [length_padded] at hindex
  obtain ⟨path, hpath, hlength⟩ := exists_siblings (Nat.zero_le _) hindex
  refine ⟨⟨path, index, leaf⟩, ?_, rfl, rfl, by rw [← hlength, Nat.zero_add], ?_⟩
  · rw [prove_eq_some_iff, leaves_ofLeaves, levels_ofLeaves h]
    exact ⟨hleaf, rfl, hpath⟩
  · exact verify_iff.mpr (climb_of_siblings h hlength hhash hpath)

theorem prove_eq_none_iff {index : UInt64} :
    (ofLeaves leaves).prove index = none ↔ leaves.length ≤ index.toNat := by
  constructor
  · intro hnone
    by_contra hlt
    obtain ⟨path, hpath, -⟩ := exists_prove (List.getElem?_eq_getElem (not_le.mp hlt))
    rw [hnone] at hpath
    cases hpath
  · intro hle
    cases hpath : (ofLeaves leaves).prove index with
    | none => rfl
    | some path =>
      rw [prove_eq_some_iff, leaves_ofLeaves, List.getElem?_eq_none hle] at hpath
      cases hpath.1

/-- The tree over any number of leaves ends in a level with one root, and it has a path for each of
its leaves and for no other place: behind the leaf there is a sibling for each doubling on the way to
the number of leaves, and the path is accepted. -/
theorem prove_ofLeaves (leaves : List Digest) (index : UInt64) :
    (ofLeaves leaves).levels.getLast? = some [(ofLeaves leaves).root] ∧
    ((ofLeaves leaves).prove index = none ↔ leaves.length ≤ index.toNat) ∧
    (index.toNat < leaves.length ↔
      ∃ path, (ofLeaves leaves).prove index = some path ∧
        leaves[index.toNat]? = some path.leaf ∧ path.index = index ∧
        path.siblings.length = Nat.clog 2 leaves.length ∧
        path.verify (ofLeaves leaves).root = true) := by
  refine ⟨getLast?_levels leaves, prove_eq_none_iff, fun hlt => ?_, ?_⟩
  · obtain ⟨leaf, hleaf⟩ : ∃ leaf, leaves[index.toNat]? = some leaf :=
      ⟨_, List.getElem?_eq_getElem hlt⟩
    obtain ⟨path, hpath, rfl, hindex, hlength, hverify⟩ := exists_prove hleaf
    exact ⟨path, hpath, hleaf, hindex, by rw [hlength, depth_eq_clog], hverify⟩
  · rintro ⟨path, hpath, -⟩
    by_contra hle
    rw [prove_eq_none_iff.mpr (not_lt.mp hle)] at hpath
    cases hpath

end MerkleTree

end AccessContext
