import CkbController.Lib.ByteCodec

/-!
# CKB transactions

The `ckb-types` structures the scripts and builders of this repository read and write: scripts,
cells, the raw transaction and its witnesses. Molecule serialization, blake2b and the ckb-auth
binary are not part of the repository; they enter as the fields of a `Platform`, so that every
result says which of their documented properties it uses, and most use none.
-/

namespace CkbController

open ByteCodec

abbrev Byte20 := ByteArr 20
abbrev Byte32 := ByteArr 32

def zero32 : Byte32 := ⟨List.replicate 32 0, rfl⟩

def zero20 : Byte20 := ⟨List.replicate 20 0, rfl⟩

/-! ## Scripts and cells -/

structure Script where
  codeHash : Byte32
  hashType : UInt8
  args : Bytes
deriving DecidableEq

structure OutPoint where
  txHash : Byte32
  index : U32
deriving DecidableEq

structure CellInput where
  since : U64
  previousOutput : OutPoint
deriving DecidableEq

structure CellOutput where
  capacity : U64
  lock : Script
  type : Option Script
deriving DecidableEq

structure CellDep where
  outPoint : OutPoint
  depType : UInt8
deriving DecidableEq

/-- A cell as a script sees it: the output together with its data. -/
structure Cell where
  output : CellOutput
  data : Bytes
deriving DecidableEq

/-! ## Transactions -/

structure RawTransaction where
  version : U32
  cellDeps : List CellDep
  headerDeps : List Byte32
  inputs : List CellInput
  outputs : List CellOutput
  outputsData : List Bytes
deriving DecidableEq

/-- `TransactionView`: the raw transaction and its witnesses. -/
structure Transaction where
  raw : RawTransaction
  witnesses : List Bytes
deriving DecidableEq

structure WitnessArgs where
  lock : Option Bytes
  inputType : Option Bytes
  outputType : Option Bytes
deriving DecidableEq

structure Header where
  hash : Byte32
  timestamp : U64
deriving DecidableEq

/-! ## What the repository builds on -/

/-- The code outside the repository that its scripts call: `ckb_hash::blake2b_256`, the
ckb-auth binary reached through `spawn_cell` and `wait` (true when it exits with 0), and the
molecule encodings of `ckb-types`. -/
structure Platform where
  blake2b : Bytes → Byte32
  ckbAuth : (algorithmId : UInt8) → (signature : Bytes) → (message : Byte32) →
    (pubkeyHash : Bytes) → Bool
  scriptSlice : Script → Bytes
  rawSlice : RawTransaction → Bytes
  txSlice : Transaction → Bytes
  witnessArgsSlice : WitnessArgs → Bytes
  witnessArgsFromSlice : Bytes → Option WitnessArgs

namespace Platform

variable (P : Platform)

/-- `Script::calc_script_hash`. -/
def scriptHash (s : Script) : Byte32 := P.blake2b (P.scriptSlice s)

/-- `TransactionView::hash`: the digest of the raw transaction, witnesses excluded. -/
def txHash (raw : RawTransaction) : Byte32 := P.blake2b (P.rawSlice raw)

end Platform

/-- Both the lock and the type script reference their code by `code_hash` and `hash_type`;
two scripts with the same pair run the same code, whatever their args. -/
def Script.sameCode (a b : Script) : Bool :=
  a.codeHash.toList == b.codeHash.toList && a.hashType == b.hashType

/-- Same code means the same hash and the same type of it. -/
@[simp] theorem Script.sameCode_iff (a b : Script) :
    a.sameCode b = true ↔ a.codeHash = b.codeHash ∧ a.hashType = b.hashType := by
  simp only [Script.sameCode, Bool.and_eq_true, beq_iff_eq]
  constructor
  · rintro ⟨h, ht⟩
    exact ⟨List.Vector.toList_injective h, ht⟩
  · rintro ⟨h, ht⟩
    exact ⟨by rw [h], ht⟩

/-- A script runs its own code. -/
theorem Script.sameCode_self (s : Script) : s.sameCode s = true := by simp

/-- With the same args, scripts of the same code are equal. -/
theorem Script.eq_of_sameCode {a b : Script} (h : a.sameCode b = true) (hargs : a.args = b.args) :
    a = b := by
  obtain ⟨hcode, htype⟩ := (Script.sameCode_iff a b).mp h
  cases a
  cases b
  simp_all

end CkbController
