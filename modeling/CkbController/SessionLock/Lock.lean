import CkbController.Lib.Checks
import CkbController.Lib.MachineInt
import CkbController.Ckb.Vm

/-!
# The controller session lock

The lock script `controller-session-lock`, function by function. An account cell is unlocked
either by its owner (OWNER mode: one signature, full control) or by a session key the owner has
blessed (SESSION mode: the checks (0) to (5) below). The trust model is chosen by the length of
the account's args: 116 bytes carry the session params themselves, 20 bytes carry only the
owner, and params and blessing then ride in the witness.

* `verifyOwner` — OWNER mode;
* `resolveSession` — where the params and the signature region come from, per trust model;
* `checkSignatures`, `checkExpiry`, `checkOutputs` — the SESSION checks, in the order the
  script makes them;
* `auth` — the entry point.
-/

namespace CkbController.SessionLock

open ByteCodec MachineInt Checks

/-! ## Constants -/

@[simp] def argsLen : Nat := 116
@[simp] def ownerOnlyArgsLen : Nat := 20
@[simp] def sessionParamsLen : Nat := 96
@[simp] def signatureLen : Nat := 65
@[simp] def revocationEpochLen : Nat := 8

def modeOwner : UInt8 := 0
def modeSession : UInt8 := 1
def policyKindType : UInt8 := 0
def policyKindLock : UInt8 := 1
def authIdCkbSecp256k1 : UInt8 := 0

/-- `spend_cap` sentinel: no limit. -/
def spendCapUnlimited : U128 := BitVec.allOnes 128

/-- `expires_at` sentinel: never expires, and the header dep is not read. -/
def noExpiry : U64 := BitVec.allOnes 64

/-- `policies_root` sentinel: any policy. -/
def wildcardRoot : Byte32 := ⟨List.replicate 32 0xFF, rfl⟩

/-- The ASCII bytes of `ckb-controller/session-auth/v1`. -/
def sessionAuthDomain : Bytes :=
  [99, 107, 98, 45, 99, 111, 110, 116, 114, 111, 108, 108, 101, 114, 47,
   115, 101, 115, 115, 105, 111, 110, 45, 97, 117, 116, 104, 47, 118, 49]

/-! ## Errors -/

inductive Error where
  | indexOutOfBound
  | itemMissing
  | lengthNotEnough
  | encoding
  | multipleInputs
  | argsLenError
  | emptyWitnessError
  | witnessLenError
  | invalidMode
  | wrongSessionKey
  | sessionDisabled
  | sessionExpired
  | policyNotAllowed
  | policyProofMissing
  | policyProofMalformed
  | sessionCannotAdminister
  | spendCapExceeded
  | authError
deriving DecidableEq, Repr

def Error.ofSys : SysError → Error
  | .indexOutOfBound => .indexOutOfBound
  | .itemMissing => .itemMissing
  | .lengthNotEnough => .lengthNotEnough
  | .encoding => .encoding

def sys {α : Type} (x : Except SysError α) : Except Error α := x.mapError Error.ofSys

@[simp] theorem sys_eq_ok {α : Type} {x : Except SysError α} {a : α} :
    sys x = .ok a ↔ x = .ok a := mapError_eq_ok

/-! ## Messages and signatures -/

variable (P : Platform)

/-- blake2b_256 over the raw transaction with `cell_deps` cleared. -/
def txMessage (vm : Vm) : Byte32 := P.txHash { vm.rtx.tx.raw with cellDeps := [] }

/-- The bytes the owner's blessing of a session covers: bound to one account lock, one
revocation epoch and one params block. -/
def sessionAuthPreimage (scriptHash : Byte32) (revocationEpoch : U64) (paramsBlock : Bytes) :
    Bytes :=
  sessionAuthDomain ++ scriptHash.toList ++ toLe revocationEpoch ++ paramsBlock

def sessionAuthMessage (scriptHash : Byte32) (revocationEpoch : U64) (paramsBlock : Bytes) :
    Byte32 :=
  P.blake2b (sessionAuthPreimage scriptHash revocationEpoch paramsBlock)

def verifySignature (algorithmId : UInt8) (signature : Bytes) (message : Byte32)
    (pubkeyHash : Bytes) : Except Error Unit :=
  rejectIf (P.ckbAuth algorithmId signature message pubkeyHash = false) .authError

def verifyOwner (args rest : Bytes) (message : Byte32) : Except Error Unit := do
  rejectIf (rest.length < signatureLen) .witnessLenError
  verifySignature P authIdCkbSecp256k1 (slice rest 0 signatureLen) message (slice args 0 20)

/-! ## Session params -/

structure SessionParams where
  sessionPubkeyHash : Byte20
  expiresAt : U64
  policiesRoot : Byte32
  spendCap : U128
  guardianPubkeyHash : Byte20
deriving DecidableEq

/-- Every caller passes a block of exactly `sessionParamsLen` bytes. -/
def parseSessionParams (b : Bytes) : SessionParams where
  sessionPubkeyHash := ByteArr.ofBytes 20 (slice b 0 20)
  expiresAt := ofLe 64 (slice b 20 28)
  policiesRoot := ByteArr.ofBytes 32 (slice b 28 60)
  spendCap := ofLe 128 (slice b 60 76)
  guardianPubkeyHash := ByteArr.ofBytes 20 (slice b 76 96)

/-- The revocation epoch account data spells: the first 8 bytes, or 0 when there are fewer. -/
def epochOfData (data : Bytes) : U64 :=
  if revocationEpochLen ≤ data.length then ofLe 64 (slice data 0 revocationEpochLen) else 0

def currentRevocationEpoch (vm : Vm) : Except Error U64 := do
  let data ← sys (vm.loadGroupInputData 0)
  pure (epochOfData data)

/-- The params and the signature region, per the trust model the args length selects. In the
carried model the owner must have blessed exactly these params at the current epoch. -/
def resolveSession (vm : Vm) (scriptHash : Byte32) (args rest : Bytes) :
    Except Error (SessionParams × Bytes) :=
  if args.length = argsLen then
    .ok (parseSessionParams (slice args ownerOnlyArgsLen argsLen), rest)
  else if args.length = ownerOnlyArgsLen then do
    rejectIf (rest.length < sessionParamsLen + signatureLen) .witnessLenError
    let paramsBlock := slice rest 0 sessionParamsLen
    let ownerAuth := slice rest sessionParamsLen (sessionParamsLen + signatureLen)
    let epoch ← currentRevocationEpoch vm
    verifySignature P authIdCkbSecp256k1 ownerAuth
      (sessionAuthMessage P scriptHash epoch paramsBlock) (slice args 0 20)
    pure (parseSessionParams paramsBlock, rest.drop (sessionParamsLen + signatureLen))
  else .error .argsLenError

/-! ## Checks (0), (1) and (1b): a live session key signs, and the guardian if there is one -/

/-- Returns the proof region, which starts after the last signature. -/
def checkSignatures (params : SessionParams) (sigRegion : Bytes) (message : Byte32) :
    Except Error Bytes := do
  rejectIf (params.sessionPubkeyHash = zero20) .sessionDisabled
  rejectIf (sigRegion.length < signatureLen) .witnessLenError
  verifySignature P authIdCkbSecp256k1 (slice sigRegion 0 signatureLen) message
    params.sessionPubkeyHash.toList
  if params.guardianPubkeyHash ≠ zero20 then do
    rejectIf (sigRegion.length < signatureLen + signatureLen) .witnessLenError
    verifySignature P authIdCkbSecp256k1
      (slice sigRegion signatureLen (signatureLen + signatureLen)) message
      params.guardianPubkeyHash.toList
    pure (sigRegion.drop (signatureLen + signatureLen))
  else pure (sigRegion.drop signatureLen)

/-! ## Check (2): not expired -/

def currentTimestampMs (vm : Vm) : Except Error U64 := do
  let header ← sys (vm.loadHeader 0)
  pure header.timestamp

/-- "Now" is the timestamp of whatever header the transaction names first. -/
def checkExpiry (vm : Vm) (expiresAt : U64) : Except Error Unit :=
  if expiresAt ≠ noExpiry then do
    let nowMs ← currentTimestampMs vm
    rejectIf (expiresAt.toNat ≤ nowMs.toNat / 1000) .sessionExpired
  else .ok ()

/-! ## Check (3): the output policy -/

def pairPreimage (a b : Byte32) : Bytes :=
  if a.toList ≤ b.toList then a.toList ++ b.toList else b.toList ++ a.toList

def hashPair (a b : Byte32) : Byte32 := P.blake2b (pairPreimage a b)

/-- Sorted-pair membership: `proof` is a flat sequence of 32-byte siblings, leaf to root. -/
def merkleVerify (root leaf : Byte32) (proof : Bytes) : Bool :=
  proof.length % 32 == 0 && (chunks 32 (proof.length / 32) proof).foldl (hashPair P) leaf == root

/-- One framed proof `kind(1) ‖ proof_len(1) ‖ siblings(32·proof_len)` at `cursor`: the kind,
the siblings, and the cursor after the frame. -/
def readFrame (proofRegion : Bytes) (cursor : Nat) : Except Error (UInt8 × Bytes × Nat) := do
  rejectIf (proofRegion.length < cursor + 2) .policyProofMissing
  let kind := proofRegion.getD cursor 0
  let bytes := (proofRegion.getD (cursor + 1) 0).toNat * 32
  rejectIf (proofRegion.length < cursor + 2 + bytes) .policyProofMalformed
  pure (kind, slice proofRegion (cursor + 2) (cursor + 2 + bytes), cursor + 2 + bytes)

def policyScript (kind : UInt8) (c : Cell) : Except Error Script :=
  if kind = policyKindType then okOr c.output.type .policyNotAllowed
  else if kind = policyKindLock then .ok c.output.lock
  else .error .policyProofMalformed

/-- The walk over the outputs not yet visited, with the cursor into the proof region. An output
under the lock's own code is skipped here: `enforceAccountOutputs` governs it. -/
def checkOutputPolicies (script : Script) (root : Byte32) (proofRegion : Bytes) :
    List Cell → Nat → Except Error Unit
  | [], _ => .ok ()
  | c :: cells, cursor =>
    if c.output.lock.sameCode script then
      checkOutputPolicies script root proofRegion cells cursor
    else do
      let (kind, proof, cursor) ← readFrame proofRegion cursor
      let s ← policyScript kind c
      let leaf := P.blake2b (P.scriptHash s).toList
      rejectIf (merkleVerify P root leaf proof = false) .policyNotAllowed
      checkOutputPolicies script root proofRegion cells cursor

/-- The wildcard root lets every output through. -/
def checkPolicy (vm : Vm) (script : Script) (root : Byte32) (proofRegion : Bytes) :
    Except Error Unit :=
  if root ≠ wildcardRoot then checkOutputPolicies P script root proofRegion vm.rtx.outputCells 0
  else .ok ()

/-! ## Check (4): a session may not administer the account -/

/-- Capacities are `u64` and are summed in `u128`. -/
def addCapacity (acc : U128) (c : Cell) : U128 :=
  saturatingAdd acc (c.output.capacity.setWidth 128)

/-- The walk over the outputs not yet visited, with the capacity returned so far. -/
def accountOutputs (script : Script) (args inputData : Bytes) :
    List Cell → U128 → Except Error U128
  | [], returned => .ok returned
  | c :: cells, returned =>
    if c.output.lock.sameCode script then do
      rejectIf (c.output.lock.args ≠ args) .sessionCannotAdminister
      rejectIf (c.data ≠ inputData) .sessionCannotAdminister
      accountOutputs script args inputData cells (addCapacity returned c)
    else accountOutputs script args inputData cells returned

/-- Returns the capacity that stays under the lock. -/
def enforceAccountOutputs (vm : Vm) (script : Script) (args : Bytes) : Except Error U128 := do
  let inputData ← sys (vm.loadGroupInputData 0)
  accountOutputs script args inputData vm.rtx.outputCells 0

/-! ## Check (5): the spend cap -/

def inputCapacity (vm : Vm) : U128 := vm.groupInputCells.foldl addCapacity 0

def checkSpendCap (vm : Vm) (cap returnedCapacity : U128) : Except Error Unit :=
  if cap = spendCapUnlimited then .ok ()
  else
    rejectIf (cap.toNat < (saturatingSub (inputCapacity vm) returnedCapacity).toNat)
      .spendCapExceeded

/-- Checks (3), (4) and (5): what the session may do to the outputs. -/
def checkOutputs (vm : Vm) (script : Script) (args : Bytes) (params : SessionParams)
    (proofRegion : Bytes) : Except Error Unit := do
  checkPolicy P vm script params.policiesRoot proofRegion
  let returnedCapacity ← enforceAccountOutputs vm script args
  checkSpendCap vm params.spendCap returnedCapacity

/-! ## SESSION mode and the entry point -/

def verifySession (vm : Vm) (script : Script) (scriptHash : Byte32) (args rest : Bytes)
    (message : Byte32) : Except Error Unit := do
  let (params, sigRegion) ← resolveSession P vm scriptHash args rest
  let proofRegion ← checkSignatures P params sigRegion message
  checkExpiry vm params.expiresAt
  checkOutputs P vm script args params proofRegion

/-- `program_entry` exits with 0 exactly when this returns `Ok`. -/
def auth (vm : Vm) : Except Error Unit := do
  rejectIf (vm.loadGroupInputSince 1).isOk .multipleInputs
  let args := vm.script.args
  rejectIf (args.length ≠ argsLen ∧ args.length ≠ ownerOnlyArgsLen) .argsLenError
  let witnessArgs ← sys (vm.loadGroupWitnessArgs P 0)
  let lockBytes ← okOr witnessArgs.lock .emptyWitnessError
  match lockBytes with
  | [] => .error .emptyWitnessError
  | mode :: rest =>
    if mode = modeOwner then verifyOwner P args rest (txMessage P vm)
    else if mode = modeSession then
      verifySession P vm vm.script (P.scriptHash vm.script) args rest (txMessage P vm)
    else .error .invalidMode

end CkbController.SessionLock
