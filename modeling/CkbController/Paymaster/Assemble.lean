import CkbController.Lib.Checks
import CkbController.Lib.MachineInt
import CkbController.Paymaster.Authz

/-!
# Assemble, then sign

The client sends a transaction without a fee; the paymaster appends one fee input of its own and
one change output, and the client signs last. Nothing the client wrote is moved: `balance_eq_ok`
says exactly what the result is, and later results use that instead of the builder.
-/

namespace CkbController

open ByteCodec MachineInt Checks

namespace Paymaster

inductive AssembleError where
  | insufficientFee
deriving DecidableEq, Repr

def minFee (P : Platform) (tx : Transaction) (feeRateShannonsPerKb : U64) : U64 :=
  let size : U64 := BitVec.ofNat 64 (P.txSlice tx).length
  divCeil (saturatingMul size feeRateShannonsPerKb) 1000

/-- The builder steps of `balance`: the fee input and the change output at the end, and those
fee deps that the client's transaction does not already name. -/
def appendFee (base : Transaction) (feeInput : OutPoint) (changeOutput : CellOutput)
    (feeCellDeps : List CellDep) : Transaction :=
  { base with
    raw :=
      { base.raw with
        cellDeps := base.raw.cellDeps ++ feeCellDeps.filter (· ∉ base.raw.cellDeps)
        inputs := base.raw.inputs ++ [{ since := 0, previousOutput := feeInput }]
        outputs := base.raw.outputs ++ [changeOutput]
        outputsData := base.raw.outputsData ++ [[]] } }

def balance (base : Transaction) (feeInput : OutPoint) (feeInputCapacity feeShannons : U64)
    (changeLock : Script) (feeCellDeps : List CellDep) : Except AssembleError Transaction := do
  let change ← okOr (checkedSub feeInputCapacity feeShannons) .insufficientFee
  let changeOutput : CellOutput := { capacity := change, lock := changeLock, type := none }
  pure (appendFee base feeInput changeOutput feeCellDeps)

/-- **What `balance` does.** It succeeds exactly when the fee cell covers the fee, and then the
rest of the fee cell goes to the change output. -/
theorem balance_eq_ok {base tx : Transaction} {feeInput : OutPoint}
    {feeInputCapacity feeShannons : U64} {changeLock : Script} {feeCellDeps : List CellDep} :
    balance base feeInput feeInputCapacity feeShannons changeLock feeCellDeps = .ok tx ↔
      ∃ change : U64, feeShannons.toNat + change.toNat = feeInputCapacity.toNat ∧
        tx = appendFee base feeInput ⟨change, changeLock, none⟩ feeCellDeps := by
  unfold balance
  rw [bind_eq_ok]
  simp only [okOr_eq_ok, checkedSub_eq_some, pure, Except.pure, Except.ok.injEq]
  apply exists_congr
  intro change
  rw [eq_comm (b := tx)]

/-! ## The paymaster -/

inductive PaymasterError where
  | unauthorized (e : AuthzError)
  | assemble (e : AssembleError)
deriving DecidableEq, Repr

end Paymaster

structure Paymaster where
  gate : Paymaster.Gate

namespace Paymaster

def sponsor (pm : Paymaster) (token : Bytes) (now : U64) (requiredScope : String)
    (base : Transaction) (feeInput : OutPoint) (feeInputCapacity feeShannons : U64)
    (changeLock : Script) (feeCellDeps : List CellDep) : Except PaymasterError Transaction := do
  let _ ← (pm.gate.authorize token now requiredScope).mapError .unauthorized
  (balance base feeInput feeInputCapacity feeShannons changeLock feeCellDeps).mapError .assemble

theorem sponsor_eq_ok {pm : Paymaster} {token : Bytes} {now : U64}
    {requiredScope : String} {base tx : Transaction} {feeInput : OutPoint}
    {feeInputCapacity feeShannons : U64} {changeLock : Script} {feeCellDeps : List CellDep} :
    pm.sponsor token now requiredScope base feeInput feeInputCapacity feeShannons changeLock
        feeCellDeps = .ok tx ↔
      (∃ cap, pm.gate.authorize token now requiredScope = .ok cap) ∧
        balance base feeInput feeInputCapacity feeShannons changeLock feeCellDeps = .ok tx := by
  unfold sponsor
  rw [bind_eq_ok]
  simp only [mapError_eq_ok, exists_and_right]

end Paymaster

end CkbController
