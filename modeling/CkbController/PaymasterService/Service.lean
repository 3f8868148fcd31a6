import CkbController.Paymaster.Assemble

/-!
# The sponsored-relay service

`SponsorService.sponsor` gates the token, sizes the fee on a dry-balanced transaction, asks the
node for a fee cell that covers the fee and a valid change cell, and balances. The node and the
occupied-capacity rule of `ckb-types` are parameters: what a node answers depends on the chain.
-/

namespace CkbController.PaymasterService

open ByteCodec MachineInt Checks Paymaster

structure FeeCell where
  outPoint : OutPoint
  capacity : U64
deriving DecidableEq

/-- The one node call `sponsor` makes. `none` means that nothing usable was found; an error is
the text of the RPC failure. -/
structure CkbRpc where
  collectFeeCell : (lock : Script) → (minCapacity : U64) → Except String (Option FeeCell)

inductive ServiceError where
  | unauthorized (e : AuthzError)
  | assemble (e : AssembleError)
  | noFeeCell
  | rpc (message : String)
  | badRequest (message : String)
deriving DecidableEq, Repr

structure Sponsored where
  tx : Transaction
  fee : U64
  feeInput : OutPoint
  subject : String
deriving DecidableEq

structure SponsorService where
  gate : Gate
  rpc : CkbRpc
  feeLock : Script
  feeCellDeps : List CellDep
  feeRate : U64
  scope : String

/-- A floor, so that a small transaction still pays something the node accepts. -/
def minFeeShannons : U64 := 1000

def dryFeeInput : OutPoint := { txHash := zero32, index := 0 }

/-- `u64::MAX / 2`, the fee capacity of the dry balance. -/
def dryCapacity : U64 := BitVec.allOnes 64 / 2

namespace SponsorService

variable (P : Platform) (occupiedCapacity : CellOutput → U64) (svc : SponsorService)

def minChange : U64 := occupiedCapacity { capacity := 0, lock := svc.feeLock, type := none }

def feeFor (dry : Transaction) : U64 :=
  if (minFee P dry svc.feeRate).toNat < minFeeShannons.toNat then minFeeShannons
  else minFee P dry svc.feeRate

def sponsor (token : Bytes) (base : Transaction) (now : U64) : Except ServiceError Sponsored := do
  let cap ← (svc.gate.authorize token now svc.scope).mapError .unauthorized
  let dry ← (balance base dryFeeInput dryCapacity 0 svc.feeLock svc.feeCellDeps).mapError .assemble
  let fee := svc.feeFor P dry
  let needed ← okOr (checkedAdd fee (svc.minChange occupiedCapacity)) (.assemble .insufficientFee)
  let found ← (svc.rpc.collectFeeCell svc.feeLock needed).mapError .rpc
  let feeCell ← okOr found .noFeeCell
  let tx ← (balance base feeCell.outPoint feeCell.capacity fee svc.feeLock
    svc.feeCellDeps).mapError .assemble
  pure { tx := tx, fee := fee, feeInput := feeCell.outPoint, subject := cap.subject }

variable {P occupiedCapacity svc}

/-- **What the service returns.** The balanced transaction over the fee cell the node found, with
the fee that its dry-balanced size asks for. -/
theorem sponsor_eq_ok {token : Bytes} {base : Transaction} {now : U64} {out : Sponsored} :
    svc.sponsor P occupiedCapacity token base now = .ok out ↔
      ∃ cap dry needed feeCell, svc.gate.authorize token now svc.scope = .ok cap ∧
        balance base dryFeeInput dryCapacity 0 svc.feeLock svc.feeCellDeps = .ok dry ∧
        (svc.feeFor P dry).toNat + (svc.minChange occupiedCapacity).toNat = needed.toNat ∧
        svc.rpc.collectFeeCell svc.feeLock needed = .ok (some feeCell) ∧
        balance base feeCell.outPoint feeCell.capacity (svc.feeFor P dry) svc.feeLock
          svc.feeCellDeps = .ok out.tx ∧
        out = ⟨out.tx, svc.feeFor P dry, feeCell.outPoint, cap.subject⟩ := by
  unfold sponsor
  simp only [bind_eq_ok, mapError_eq_ok, okOr_eq_ok, checkedAdd_eq_some, pure, Except.pure,
    Except.ok.injEq]
  constructor
  · rintro ⟨cap, hcap, dry, hdry, needed, hneeded, found, hfound, feeCell, rfl, tx, htx, rfl⟩
    exact ⟨cap, dry, needed, feeCell, hcap, hdry, hneeded, hfound, htx, rfl⟩
  · rintro ⟨cap, dry, needed, feeCell, hcap, hdry, hneeded, hfound, htx, hout⟩
    exact ⟨cap, hcap, dry, hdry, needed, hneeded, _, hfound, feeCell, rfl, out.tx, htx, hout.symm⟩

end SponsorService

end CkbController.PaymasterService
