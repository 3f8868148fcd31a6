import CkbController.Lib.MerkleTree
import CkbController.Ckb.Transaction

/-!
# The builder SDK

`sdk/src/lib.rs`: the args, data, messages, policy trees and witnesses an off-chain client
builds for the session lock. The SDK keeps its own copy of every layout constant and of the
hashing, so that nothing here is shared with the lock's model but the platform.

The policy tree is the padded binary tree of `Lib/MerkleTree.lean` over 32-byte nodes, with the
all-zero node for padding.
-/

namespace CkbController.Sdk

open ByteCodec

/-! ## Layout constants -/

def modeOwner : UInt8 := 0
def modeSession : UInt8 := 1
def policyKindType : UInt8 := 0
def policyKindLock : UInt8 := 1

/-- The ASCII bytes of `ckb-controller/session-auth/v1`. -/
def sessionAuthDomain : Bytes :=
  [99, 107, 98, 45, 99, 111, 110, 116, 114, 111, 108, 108, 101, 114, 47,
   115, 101, 115, 115, 105, 111, 110, 45, 97, 117, 116, 104, 47, 118, 49]

/-! ## Args, params and data -/

def sessionParams (sessionPubkeyHash : Byte20) (expiresAt : U64) (policiesRoot : Byte32)
    (spendCap : U128) (guardianPubkeyHash : Byte20) : Bytes :=
  sessionPubkeyHash.toList ++ toLe expiresAt ++ policiesRoot.toList ++ toLe spendCap ++
    guardianPubkeyHash.toList

def ownerOnlyArgs (ownerPubkeyHash : Byte20) : Bytes := ownerPubkeyHash.toList

def registeredArgs (ownerPubkeyHash : Byte20) (params : Bytes) : Bytes :=
  ownerPubkeyHash.toList ++ params

/-- Account data for a revocation epoch. Epoch 0 is written as no data at all. -/
def epochData (epoch : U64) : Bytes := if epoch = 0 then [] else toLe epoch

variable (P : Platform)

/-! ## Messages -/

def txMessage (tx : Transaction) : Byte32 := P.txHash { tx.raw with cellDeps := [] }

def sessionAuthMessage (scriptHash : Byte32) (revocationEpoch : U64) (params : Bytes) : Byte32 :=
  P.blake2b (sessionAuthDomain ++ scriptHash.toList ++ toLe revocationEpoch ++ params)

/-! ## The policy tree -/

def policyLeaf (scriptHash : Byte32) : Byte32 := P.blake2b scriptHash.toList

def policyLeafForScript (script : Script) : Byte32 := policyLeaf P (P.scriptHash script)

def pairBuf (a b : Byte32) : Bytes :=
  if a.toList ≤ b.toList then a.toList ++ b.toList else b.toList ++ a.toList

def pair (a b : Byte32) : Byte32 := P.blake2b (pairBuf a b)

/-- One round of the loop in `merkle_root`. -/
def foldLevel (level : List Byte32) : List Byte32 := MerkleTree.levelUp zero32 (pair P) level

/-- `fold_level` while more than one node is left; the empty set has the all-zero root. -/
def merkleRoot (leaves : List Byte32) : Byte32 :=
  if leaves.isEmpty then zero32
  else (MerkleTree.collapse zero32 (pair P) leaves).headD zero32

def merkleProof (leaves : List Byte32) (index : Nat) : List Byte32 :=
  MerkleTree.siblings zero32 (pair P) leaves index

def merkleVerify (root leaf : Byte32) (proof : List Byte32) : Bool :=
  proof.foldl (pair P) leaf == root

/-! ## Witnesses -/

/-- `proof.len() as u8` truncates. -/
def proofRegion (entries : List (UInt8 × List Byte32)) : Bytes :=
  entries.flatMap fun entry => entry.1 :: UInt8.ofNat entry.2.length :: flat entry.2

def wrapLock (lockBytes : Bytes) : Bytes :=
  P.witnessArgsSlice { lock := some lockBytes, inputType := none, outputType := none }

def ownerWitness (ownerSig : Bytes) : Bytes := wrapLock P (modeOwner :: ownerSig)

def sessionWitnessRegistered (sessionSig : Bytes) (guardianSig : Option Bytes)
    (proofRegion : Bytes) : Bytes :=
  wrapLock P (modeSession :: sessionSig ++ guardianSig.getD [] ++ proofRegion)

def sessionWitnessCarried (params ownerAuth sessionSig : Bytes) (guardianSig : Option Bytes)
    (proofRegion : Bytes) : Bytes :=
  wrapLock P
    (modeSession :: params ++ ownerAuth ++ sessionSig ++ guardianSig.getD [] ++ proofRegion)

/-! ## The tree as the library sees it -/

theorem merkleRoot_singleton (leaf : Byte32) : merkleRoot P [leaf] = leaf := by
  rw [merkleRoot, MerkleTree.collapse_of_le _ _ (by simp)]
  rfl

/-- The root is what the tree collapses to. -/
theorem collapse_eq_merkleRoot {leaves : List Byte32} (h : leaves ≠ []) :
    MerkleTree.collapse zero32 (pair P) leaves = [merkleRoot P leaves] := by
  obtain ⟨root, hroot⟩ := MerkleTree.collapse_eq_singleton zero32 (pair P) h
  have hne : leaves.isEmpty = false := by simpa using h
  rw [merkleRoot, hne, if_neg (by decide), hroot]
  rfl

/-- A pair buffer holds two nodes, in the one order or the other. -/
theorem pairBuf_injective (a b c d : Byte32) (h : pairBuf a b = pairBuf c d) :
    (a = c ∧ b = d) ∨ (a = d ∧ b = c) := by
  have hsplit : ∀ {x y z w : Byte32}, x.toList ++ y.toList = z.toList ++ w.toList →
      x = z ∧ y = w := by
    intro x y z w hxy
    obtain ⟨h1, h2⟩ := List.append_inj hxy (by simp)
    exact ⟨List.Vector.toList_injective h1, List.Vector.toList_injective h2⟩
  unfold pairBuf at h
  split at h <;> split at h <;> have h := hsplit h
  · exact Or.inl h
  · exact Or.inr h
  · exact Or.inr ⟨h.2, h.1⟩
  · exact Or.inl ⟨h.2, h.1⟩

/-- Two nodes are sorted before they are joined. -/
theorem pairBuf_comm (a b : Byte32) : pairBuf a b = pairBuf b a := by
  unfold pairBuf
  by_cases hab : a.toList ≤ b.toList
  · by_cases hba : b.toList ≤ a.toList
    · rw [List.le_antisymm hab hba]
    · rw [if_pos hab, if_neg hba]
  · have hba : b.toList ≤ a.toList := (List.le_total a.toList b.toList).resolve_left hab
    rw [if_neg hab, if_pos hba]

/-- The hash of two nodes does not tell which of them was left: a climb needs no directions. -/
theorem pair_comm (a b : Byte32) : pair P a b = pair P b a := by
  rw [pair, pair, pairBuf_comm]

theorem length_pairBuf (a b : Byte32) : (pairBuf a b).length = 64 := by
  unfold pairBuf
  split <;> simp

end CkbController.Sdk
