import CkbController.Sdk.SessionTx
import CkbController.SessionLock.PolicySound

/-!
# What the policy tree accepts

The SDK and the lock each verify membership in the policy tree, one on a list of siblings and the
other on bytes. They accept the same proofs: those `merkle_proof` makes for the leaves, and beyond
them only proofs for nodes of the tree, at their own depth, as long as the hash holds.
-/

namespace CkbController.Sdk

open ByteCodec MerkleTree SessionLock

variable {P : Platform}

/-! ## The two verifiers -/

/-- The SDK's verifier climbs from the leaf and compares with the root. -/
theorem merkleVerify_iff {root leaf : Byte32} {proof : List Byte32} :
    Sdk.merkleVerify P root leaf proof = true ↔ proof.foldl (pair P) leaf = root := by
  unfold Sdk.merkleVerify
  rw [beq_iff_eq]

/-- On a list of siblings the two verifiers agree. -/
theorem merkleVerify_agree (root leaf : Byte32) (proof : List Byte32) :
    SessionLock.merkleVerify P root leaf (flat proof) = Sdk.merkleVerify P root leaf proof := by
  rw [Bool.eq_iff_iff, merkleVerify_flat, merkleVerify_iff, pair_eq_hashPair]

/-- Bytes that are no list of siblings are not a proof. -/
theorem merkleVerify_ragged {root leaf : Byte32} {proof : Bytes} (h : proof.length % 32 ≠ 0) :
    SessionLock.merkleVerify P root leaf proof = false := by
  unfold SessionLock.merkleVerify
  rw [beq_false_of_ne h, Bool.false_and]

theorem merkleVerify_merkleProof {leaves : List Byte32} {i : Nat} {leaf : Byte32}
    (h : leaves[i]? = some leaf) :
    Sdk.merkleVerify P (merkleRoot P leaves) leaf (merkleProof P leaves i) = true :=
  merkleVerify_iff.mpr (foldl_merkleProof h)

/-! ## Nodes of the tree -/

/-- The padded tree over the leaves, from the bottom up. -/
def treeLevels (P : Platform) (leaves : List Byte32) : List (List Byte32) :=
  paddedLevels zero32 (pair P) leaves

/-- The strings hashed for the tree over the leaves of `hashes`, and to verify `proof`. -/
def verifiedStrings (P : Platform) (hashes : List Byte32) (node : Byte32) (proof : List Byte32) :
    List Bytes :=
  treeStrings P.blake2b pairBuf zero32 (hashes.map List.Vector.toList) ++
    proofStrings P.blake2b pairBuf node proof

/-- A leaf is hashed from 32 bytes and an inner node from 64. -/
theorem toList_ne_pairBuf (hash a b : Byte32) : hash.toList ≠ pairBuf a b := by
  intro h
  have hlength := congrArg List.length h
  rw [List.Vector.toList_length, length_pairBuf] at hlength
  exact absurd hlength (by decide)

/-- What is accepted is a node of the tree, at the depth of its proof. -/
theorem mem_treeLevels {hashes : List Byte32} (hne : hashes ≠ []) {node : Byte32}
    {proof : List Byte32}
    (hverify : Sdk.merkleVerify P (merkleRoot P (hashes.map (policyLeaf P))) node proof = true)
    (hsafe : ¬ Breaks P.blake2b zero32 (verifiedStrings P hashes node proof)) :
    ∃ level, (treeLevels P (hashes.map (policyLeaf P))).reverse[proof.length]? = some level ∧
      node ∈ level := by
  have hleaves : hashes.map (policyLeaf P) = (hashes.map List.Vector.toList).map P.blake2b := by
    rw [List.map_map]
    rfl
  have hroot : collapse zero32 (pair P) (hashes.map (policyLeaf P)) =
      [merkleRoot P (hashes.map (policyLeaf P))] :=
    collapse_eq_merkleRoot P (by simpa using hne)
  have hclimb := merkleVerify_iff.mp hverify
  unfold treeLevels
  rw [hleaves] at hroot hclimb ⊢
  refine mem_level_of_climb pairBuf_injective ?_ (List.subset_append_left _ _) hsafe hroot
    (List.subset_append_right _ _) hclimb
  -- a 32-byte leaf string cannot pass for the 64 bytes of an inner node
  intro s hs
  obtain ⟨hash, -, heq⟩ := List.mem_map.mp hs
  rw [← heq]
  exact toList_ne_pairBuf hash

/-- **The policy tree.** For the tree over the policy leaves of any script hashes: the proof of
each leaf has `⌈log₂⌉` siblings and is accepted by the SDK and by the lock; these two agree on every
list of siblings, and the lock accepts no other bytes; and an accepted node is one of the padded
tree, as many levels below the root as its proof has siblings, unless the strings hashed for the
tree and the proof break the hash. -/
theorem policy_tree_exact (P : Platform) (hashes : List Byte32) (hne : hashes ≠ []) :
    (∀ i leaf, (hashes.map (policyLeaf P))[i]? = some leaf →
      (merkleProof P (hashes.map (policyLeaf P)) i).length = Nat.clog 2 hashes.length ∧
      Sdk.merkleVerify P (merkleRoot P (hashes.map (policyLeaf P))) leaf
        (merkleProof P (hashes.map (policyLeaf P)) i) = true ∧
      SessionLock.merkleVerify P (merkleRoot P (hashes.map (policyLeaf P))) leaf
        (flat (merkleProof P (hashes.map (policyLeaf P)) i)) = true) ∧
    (∀ root leaf proof, SessionLock.merkleVerify P root leaf (flat proof) =
      Sdk.merkleVerify P root leaf proof) ∧
    (∀ root leaf (proof : Bytes), proof.length % 32 ≠ 0 →
      SessionLock.merkleVerify P root leaf proof = false) ∧
    ∀ node proof,
      Sdk.merkleVerify P (merkleRoot P (hashes.map (policyLeaf P))) node proof = true →
      (∃ level, (treeLevels P (hashes.map (policyLeaf P))).reverse[proof.length]? = some level ∧
        node ∈ level) ∨ Breaks P.blake2b zero32 (verifiedStrings P hashes node proof) := by
  refine ⟨fun i leaf hleaf => ⟨?_, ?_, ?_⟩, merkleVerify_agree, fun _ _ _ => merkleVerify_ragged,
    fun node proof hverify => ?_⟩
  · unfold merkleProof
    rw [length_siblings, List.length_map]
  · exact merkleVerify_merkleProof hleaf
  · rw [merkleVerify_agree]
    exact merkleVerify_merkleProof hleaf
  · -- what verifies is a node of the tree, unless the hash is broken on the way
    by_cases hbreaks : Breaks P.blake2b zero32 (verifiedStrings P hashes node proof)
    · exact Or.inr hbreaks
    · exact Or.inl (mem_treeLevels hne hverify hbreaks)

/-- Three leaves: the third is two levels below the root, next to a padding node. -/
theorem policy_tree_exact_three_leaves :
    let leaves := [sampleHash 1, sampleHash 2, sampleHash 3].map (policyLeaf .sample)
    (merkleProof .sample leaves 2).length = 2 ∧
      SessionLock.merkleVerify .sample (merkleRoot .sample leaves)
        (policyLeaf .sample (sampleHash 3)) (flat (merkleProof .sample leaves 2)) = true := by
  intro leaves
  obtain ⟨hlength, -, hverify⟩ := (policy_tree_exact .sample
    [sampleHash 1, sampleHash 2, sampleHash 3] (List.cons_ne_nil _ _)).1 2
      (policyLeaf .sample (sampleHash 3)) rfl
  exact ⟨hlength.trans (by decide), hverify⟩

end CkbController.Sdk
