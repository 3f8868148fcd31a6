import CkbController.SessionLock.Lock

/-!
# What the session lock is for

The declarative reading of the lock: which transactions unlock an account cell, stated over the
pieces of the witness instead of over cursors. Nothing here runs; `SessionLock/Refinement.lean`
proves that `auth` accepts exactly these transactions.

A SESSION witness is read as a `SessionWitness`, one field for each piece in wire order. The
proof region is a list of `PolicyFrame`s, one for each output that is not under the lock's own
code, in output order; what follows the last frame is ignored.
-/

namespace CkbController.SessionLock

open ByteCodec

variable (P : Platform)

/-- One framed proof. The sibling count travels in one byte, so there are at most 255. -/
structure PolicyFrame where
  kind : UInt8
  siblings : List Byte32
  short : siblings.length < 256

def PolicyFrame.encode (f : PolicyFrame) : Bytes :=
  f.kind :: UInt8.ofNat f.siblings.length :: flat f.siblings

def encodeFrames (frames : List PolicyFrame) : Bytes := frames.flatMap PolicyFrame.encode

/-- The frame proves that the output's type script (kind 0) or lock script (kind 1) is in the
tree under `root`. -/
def Allows (root : Byte32) (c : Cell) (f : PolicyFrame) : Prop :=
  ∃ s : Script,
    ((f.kind = policyKindType ∧ c.output.type = some s) ∨
      (f.kind = policyKindLock ∧ c.output.lock = s)) ∧
    f.siblings.foldl (hashPair P) (P.blake2b (P.scriptHash s).toList) = root

def policedOutputs (script : Script) (cells : List Cell) : List Cell :=
  cells.filter fun c => !c.output.lock.sameCode script

def ownOutputs (script : Script) (cells : List Cell) : List Cell :=
  cells.filter fun c => c.output.lock.sameCode script

def PolicyAllows (script : Script) (root : Byte32) (region : Bytes) (cells : List Cell) : Prop :=
  ∃ frames trailing, region = encodeFrames frames ++ trailing ∧
    List.Forall₂ (Allows P root) (policedOutputs script cells) frames

/-- Every output under the lock's own code keeps the account's args and data. -/
def AccountContinues (script : Script) (args data : Bytes) (cells : List Cell) : Prop :=
  ∀ c ∈ cells, c.output.lock.sameCode script = true →
    c.output.lock.args = args ∧ c.data = data

def totalCapacity (cells : List Cell) : Nat := (cells.map fun c => c.output.capacity.toNat).sum

/-- What a saturating `u128` sum reports of a sum of capacities. -/
def saturated (n : Nat) : Nat := min n (2 ^ 128 - 1)

/-- Checks (3) to (5), for an account input of capacity `input` and data `data`. -/
structure OutputsAllowed (script : Script) (data : Bytes) (input : Nat) (params : SessionParams)
    (region : Bytes) (cells : List Cell) : Prop where
  policy : params.policiesRoot = wildcardRoot ∨
    PolicyAllows P script params.policiesRoot region cells
  continuity : AccountContinues script script.args data cells
  spend : params.spendCap = spendCapUnlimited ∨
    input - totalCapacity (ownOutputs script cells) ≤ params.spendCap.toNat

/-! ## The two modes -/

/-- OWNER mode: the first 65 bytes sign the transaction under the owner hash. -/
def OwnerUnlocks (vm : Vm) (rest : Bytes) : Prop :=
  signatureLen ≤ rest.length ∧
    P.ckbAuth authIdCkbSecp256k1 (rest.take signatureLen) (txMessage P vm)
      (vm.script.args.take 20) = true

/-- The pieces of a SESSION witness. `ownerAuth` is empty in the registered model, and
`guardianSig` when the session has no guardian. -/
structure SessionWitness where
  paramsBlock : Bytes
  ownerAuth : Bytes
  sessionSig : Bytes
  guardianSig : Bytes
  proofRegion : Bytes

def SessionWitness.params (w : SessionWitness) : SessionParams := parseSessionParams w.paramsBlock

def epochBytes (data : Bytes) : Bytes :=
  if 8 ≤ data.length then data.take 8 else List.replicate 8 0

/-- What the owner signs to bless a params block for one account lock, while the account data
is `data`. -/
def blessing (lock : Script) (data paramsBlock : Bytes) : Byte32 :=
  P.blake2b (sessionAuthDomain ++ (P.scriptHash lock).toList ++ epochBytes data ++ paramsBlock)

/-- Where the params come from: the args themselves, or the witness under the owner's
blessing. -/
inductive ParamsBlessed (vm : Vm) (account : Cell) (paramsBlock ownerAuth : Bytes) : Prop where
  | registered (hargs : vm.script.args.length = argsLen)
      (hblock : paramsBlock = vm.script.args.drop ownerOnlyArgsLen) (hauth : ownerAuth = [])
  | carried (hargs : vm.script.args.length = ownerOnlyArgsLen)
      (hblock : paramsBlock.length = sessionParamsLen)
      (hauth : ownerAuth.length = signatureLen)
      (hvalid : P.ckbAuth authIdCkbSecp256k1 ownerAuth
        (blessing P vm.script account.data paramsBlock) (vm.script.args.take 20) = true)

/-- The bytes after the mode byte, for a given way of reading the witness. -/
def SessionWitness.encode (w : SessionWitness) (args : Bytes) : Bytes :=
  (if args.length = ownerOnlyArgsLen then w.paramsBlock ++ w.ownerAuth else []) ++
    w.sessionSig ++ w.guardianSig ++ w.proofRegion

structure SessionUnlocks (vm : Vm) (account : Cell) (rest : Bytes) (w : SessionWitness) :
    Prop where
  layout : rest = w.encode vm.script.args
  blessed : ParamsBlessed P vm account w.paramsBlock w.ownerAuth
  enabled : w.params.sessionPubkeyHash ≠ zero20
  session : w.sessionSig.length = signatureLen ∧
    P.ckbAuth authIdCkbSecp256k1 w.sessionSig (txMessage P vm)
      w.params.sessionPubkeyHash.toList = true
  guardian : if w.params.guardianPubkeyHash = zero20 then w.guardianSig = []
    else w.guardianSig.length = signatureLen ∧
      P.ckbAuth authIdCkbSecp256k1 w.guardianSig (txMessage P vm)
        w.params.guardianPubkeyHash.toList = true
  expiry : w.params.expiresAt = noExpiry ∨
    ∃ h, vm.rtx.headers[0]? = some h ∧ h.timestamp.toNat / 1000 < w.params.expiresAt.toNat
  outputs : OutputsAllowed P vm.script account.data account.output.capacity.toNat w.params
    w.proofRegion vm.rtx.outputCells

/-! ## The whole lock -/

/-- The lock field of the first group input's witness, when there is exactly one group input:
the account cell, the mode byte and what follows it. -/
structure UnlockAttempt (vm : Vm) (account : Cell) (mode : UInt8) (rest : Bytes) : Prop where
  single : vm.groupInputCells = [account]
  witness : ∃ k w wa, vm.groupInputs[0]? = some k ∧ vm.rtx.tx.witnesses[k]? = some w ∧
    P.witnessArgsFromSlice w = some wa ∧ wa.lock = some (mode :: rest)

/-- Exactly one account input, args of a known length, a non-empty lock field, and one of the
two modes. -/
def LockSpec (vm : Vm) : Prop :=
  (vm.script.args.length = ownerOnlyArgsLen ∨ vm.script.args.length = argsLen) ∧
    ∃ account mode rest, UnlockAttempt P vm account mode rest ∧
      ((mode = modeOwner ∧ OwnerUnlocks P vm rest) ∨
        (mode = modeSession ∧ ∃ w, SessionUnlocks P vm account rest w))

end CkbController.SessionLock
