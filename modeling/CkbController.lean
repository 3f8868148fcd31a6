import CkbController.Lib.ByteCodec
import CkbController.Lib.MachineInt
import CkbController.Lib.Molecule
import CkbController.Lib.Checks
import CkbController.Lib.Method
import CkbController.Lib.Trace
import CkbController.Lib.Outbox
import CkbController.Lib.Hex
import CkbController.Lib.Decimal
import CkbController.Lib.Json
import CkbController.Lib.Utxo
import CkbController.Lib.Window
import CkbController.Lib.Optimistic
import CkbController.Lib.Prefixed
import CkbController.Lib.Utf8Slice
import CkbController.Lib.MerkleTree
import CkbController.Lib.Sequenced
import CkbController.Lib.Allowance
import CkbController.Lib.KeyedTable
import CkbController.Lib.Interleaving
import CkbController.Lib.Usize
import CkbController.Lib.Datalog
import CkbController.Lib.Paging
import CkbController.Lib.Threads
import CkbController.Lib.Oldest
import CkbController.Ckb.Transaction
import CkbController.Ckb.Encoding
import CkbController.Ckb.Vm
import CkbController.Ckb.Ledger
import CkbController.Sdk.Builder
import CkbController.SessionLock.Lock
import CkbController.SessionLock.Spec
import CkbController.Sdk.Agreement
import CkbController.SessionLock.PolicyWalk
import CkbController.SessionLock.CheckLemmas
import CkbController.SessionLock.Refinement
import CkbController.SessionLock.PolicySound
import CkbController.Sdk.SessionTx
import CkbController.Sdk.Channel
import CkbController.Sdk.ChannelAccounting
import CkbController.Sdk.PolicyTree
import CkbController.Sdk.ChannelFunding
import CkbController.Sdk.ChannelCapacity
import CkbController.SessionLock.Spending
import CkbController.SessionLock.Exposure
import CkbController.SessionLock.Continuity
import CkbController.SessionLock.Expiry
import CkbController.SessionLock.Replay
import CkbController.SessionLock.Revocation
import CkbController.GameRules.Rules
import CkbController.GameRules.Board
import CkbController.GameRules.Batches
import CkbController.GameRules.Codec
import CkbController.GameRules.Interleaving
import CkbController.GameRules.Decoding
import CkbController.Sdk.Messages
import CkbController.GameCell.TypeScript
import CkbController.GameCell.Lineage
import CkbController.GameCell.Singleton
import CkbController.GameCell.OnChain
import CkbController.GameCell.Descent
import CkbController.GameCell.Advance
import CkbController.GameCell.NextMove
import CkbController.Paymaster.Authz
import CkbController.Paymaster.Assemble
import CkbController.Paymaster.Token
import CkbController.Paymaster.Biscuit
import CkbController.Paymaster.Revocation
import CkbController.PaymasterService.Service
import CkbController.PaymasterService.LockAcceptance
import CkbController.PaymasterService.SponsorEffect
import CkbController.PaymasterService.Rpc
import CkbController.PaymasterService.Indexer
import CkbController.PaymasterService.FeeRisk
import CkbController.PaymasterService.Sponsorships
import CkbController.PaymasterService.Operator
import CkbController.PaymasterService.OperatorRuns
import CkbController.PaymasterService.OperatorAcceptance
import CkbController.PaymasterService.GameServer
import CkbController.PaymasterService.OperatorNode
import CkbController.PaymasterService.Settlement
import CkbController.PaymasterService.Sighash
import CkbController.PaymasterService.Startup
import CkbController.PaymasterService.Fleet
import CkbController.PaymasterService.RelayQueue
import CkbController.PaymasterService.ScoreLog
import CkbController.SdkJs.GamePlayer
import CkbController.SdkJs.NonceDrift
import CkbController.Cli.AccountAcceptance
import CkbController.Cli.Account
import CkbController.SdkJs.LiveAccounts
import CkbController.Wasm.Bindings
import CkbController.Wasm.RegisteredArgs
import CkbController.Wasm.GameBindings
import CkbController.Wasm.ChannelSession
import CkbController.Cli.Game
import CkbController.Cli.Deploy
import CkbController.SdkJs.LiveRail
import CkbController.SdkJs.MockRail
import CkbController.SdkJs.MockPage
