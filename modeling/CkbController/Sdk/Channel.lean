import CkbController.Lib.MachineInt
import CkbController.Sdk.Builder

/-!
# Session-funded payment channels

`sdk/src/channel.rs`: one funding transaction, any number of payments on a rail, one settle
transaction. The rail is a parameter, the `FiberRail` trait; `mockRail` is the in-memory one.

The crate is built with overflow checks, so an addition or a subtraction that leaves its word
panics. A call is therefore an `Option`: `none` is a panic, and otherwise the result comes with
the receiver as the call leaves it.
-/

namespace CkbController.Sdk

open ByteCodec MachineInt

/-! ## The rail -/

structure PeerId where
  bytes : Bytes
deriving DecidableEq

/-- The fields `local` and `remote`, in shannons. -/
structure Settlement where
  localBalance : U128
  remoteBalance : U128
deriving DecidableEq

/-- A `&mut self` method that returns a `Result`. -/
abbrev Call (σ ε α : Type) := σ → Option (Except ε α × σ)

/-- The trait, on a rail of type `ρ` with handles of type `χ` and errors of type `ε`. -/
structure FiberRail (ρ χ ε : Type) where
  openChannel : PeerId → (budget : U128) → (funding : OutPoint) → Call ρ ε χ
  pay : χ → (amount : U128) → Call ρ ε Unit
  close : χ → Call ρ ε Settlement

/-! ## The in-memory rail -/

inductive MockRailError where
  | insufficientBalance
  | unknownChannel
deriving DecidableEq

structure MockChannel where
  localBalance : U128
  remoteBalance : U128
deriving DecidableEq

structure MockRail where
  channels : List MockChannel
deriving DecidableEq

def MockRail.new : MockRail := ⟨[]⟩

/-- Handles are sequential: the new one is the number of channels so far. -/
def MockRail.openChannel (_peer : PeerId) (budget : U128) (_funding : OutPoint) :
    Call MockRail MockRailError U64 := fun rail =>
  let id : U64 := BitVec.ofNat 64 rail.channels.length
  some (.ok id, ⟨rail.channels ++ [⟨budget, 0⟩]⟩)

/-- The balance is written before the counterparty's side is added up. -/
def MockRail.pay (channel : U64) (amount : U128) : Call MockRail MockRailError Unit := fun rail =>
  match rail.channels[channel.toNat]? with
  | none => some (.error .unknownChannel, rail)
  | some ch =>
    match checkedSub ch.localBalance amount with
    | none => some (.error .insufficientBalance, rail)
    | some rest => do
      let remote ← checkedAdd ch.remoteBalance amount
      pure (.ok (), ⟨rail.channels.set channel.toNat ⟨rest, remote⟩⟩)

def MockRail.close (channel : U64) : Call MockRail MockRailError Settlement := fun rail =>
  match rail.channels[channel.toNat]? with
  | none => some (.error .unknownChannel, rail)
  | some ch => some (.ok ⟨ch.localBalance, ch.remoteBalance⟩, rail)

def mockRail : FiberRail MockRail U64 MockRailError where
  openChannel := MockRail.openChannel
  pay := MockRail.pay
  close := MockRail.close

/-! ## The transactions -/

structure ChannelConfig where
  accountLock : Script
  accountInput : OutPoint
  accountCapacity : U64
  fundingLock : Script
  cellDeps : List CellDep
  headerDep : Byte32
deriving DecidableEq

structure ChannelTx where
  tx : Transaction
  index : Nat
deriving DecidableEq

def accountChange (lock : Script) (capacity : U64) : CellOutput :=
  { capacity, lock, type := none }

def buildFundingTx (cfg : ChannelConfig) (budget : U64) : ChannelTx where
  tx :=
    { raw :=
        { version := 0
          cellDeps := cfg.cellDeps
          headerDeps := [cfg.headerDep]
          inputs := [{ since := 0, previousOutput := cfg.accountInput }]
          outputs :=
            [accountChange cfg.accountLock (saturatingSub cfg.accountCapacity budget),
             { capacity := budget, lock := cfg.fundingLock, type := none }]
          outputsData := [[], []] }
      witnesses := [] }
  index := 1

/-- `u64::try_from(amount).unwrap_or(u64::MAX)`. -/
def shannons (amount : U128) : U64 :=
  if amount.toNat < 2 ^ 64 then amount.setWidth 64 else BitVec.allOnes 64

def buildSettleTx (cfg : ChannelConfig) (funding : OutPoint) (settlement : Settlement) :
    ChannelTx where
  tx :=
    { raw :=
        { version := 0
          cellDeps := cfg.cellDeps
          headerDeps := [cfg.headerDep]
          inputs := [{ since := 0, previousOutput := funding }]
          outputs := [accountChange cfg.accountLock (shannons settlement.localBalance)]
          outputsData := [[]] }
      witnesses := [] }
  index := 0

section Platform

variable (P : Platform)

/-- One leaf is its own root. -/
def channelSessionParams (sessionPubkeyHash : Byte20) (expiresAt : U64) (fundingLock : Script)
    (budget : U64) (guardianPubkeyHash : Byte20) : Bytes :=
  sessionParams sessionPubkeyHash expiresAt (policyLeafForScript P fundingLock)
    (budget.setWidth 128) guardianPubkeyHash

def channelProofRegion : Bytes := proofRegion [(policyKindLock, [])]

def ChannelTx.outpoint (tx : ChannelTx) : OutPoint :=
  { txHash := P.txHash tx.tx.raw, index := BitVec.ofNat 32 tx.index }

end Platform

/-! ## The session -/

inductive ChannelError (ε : Type) where
  | notOpen
  | alreadyOpen
  | overBudget (remaining requested : U128)
  | rail (e : ε)
deriving DecidableEq

structure ChannelSession (ρ χ : Type) where
  cfg : ChannelConfig
  rail : ρ
  channel : Option χ
  funding : Option OutPoint
  budget : U128
  spent : U128
deriving DecidableEq

namespace ChannelSession

variable {ρ χ ε : Type}

def new (cfg : ChannelConfig) (rail : ρ) : ChannelSession ρ χ :=
  { cfg, rail, channel := none, funding := none, budget := 0, spent := 0 }

def remaining (s : ChannelSession ρ χ) : Option U128 := checkedSub s.budget s.spent

variable (P : Platform) (R : FiberRail ρ χ ε)

/-- Nothing of the session but the rail is touched before the rail has accepted. -/
def openChannel (peer : PeerId) (budget : U64) :
    Call (ChannelSession ρ χ) (ChannelError ε) ChannelTx := fun s =>
  if s.channel.isSome then some (.error .alreadyOpen, s)
  else do
    let fundingTx := buildFundingTx s.cfg budget
    let funding := fundingTx.outpoint P
    let (result, rail) ← R.openChannel peer (budget.setWidth 128) funding s.rail
    match result with
    | .error e => pure (.error (.rail e), { s with rail })
    | .ok channel =>
      pure (.ok fundingTx,
        { s with rail, channel := some channel, funding := some funding,
                 budget := budget.setWidth 128, spent := 0 })

def pay (amount : U128) : Call (ChannelSession ρ χ) (ChannelError ε) Unit := fun s =>
  match s.channel with
  | none => some (.error .notOpen, s)
  | some channel => do
    let remaining ← s.remaining
    if remaining.toNat < amount.toNat then pure (.error (.overBudget remaining amount), s)
    else
      let (result, rail) ← R.pay channel amount s.rail
      match result with
      | .error e => pure (.error (.rail e), { s with rail })
      | .ok () => do
        let spent ← checkedAdd s.spent amount
        pure (.ok (), { s with rail, spent })

/-- `close` takes the session by value. What it leaves of it is dropped when it returns. -/
def close : Call (ChannelSession ρ χ) (ChannelError ε) (Settlement × ChannelTx) := fun s =>
  match s.channel with
  | none => some (.error .notOpen, s)
  | some channel =>
    match s.funding with
    | none => some (.error .notOpen, { s with channel := none })
    | some funding => do
      let (result, rail) ← R.close channel s.rail
      let taken := { s with rail, channel := none, funding := none }
      match result with
      | .error e => pure (.error (.rail e), taken)
      | .ok settlement => pure (.ok (settlement, buildSettleTx s.cfg funding settlement), taken)

end ChannelSession

end CkbController.Sdk
