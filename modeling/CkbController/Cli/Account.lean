import CkbController.Wasm.Bindings

/-!
# The account commands

`cli/commands/account.mjs` and `accountLock` of `cli/lib/config.mjs`. The lock takes one account
input for each transaction, so the account has to stay a single cell: `account grow` tops it up in
place with a second input, and `account drain` sends the smallest of several cells away. Both sign
with the session key.

A thrown error is `none`: the command does not reach its send step. Amounts are JavaScript
bigints, that is integers, and the key library, the indexer and the manifest are parameters.
-/

namespace CkbController.Cli

open ByteCodec Wasm

/-! ## The configuration -/

/-- `"never"`, or the number `BigInt` makes of the field. -/
inductive ExpiresAt where
  | never
  | seconds (n : Int)
deriving DecidableEq

/-- The `session` section of the config. The two keys are the bytes `hexBytes` reads. -/
structure SessionSection where
  ownerPrivkey : Bytes
  sessionPrivkey : Bytes
  expiresAt : ExpiresAt
  policiesRoot : String
  spendCapCkb : Int
  guardian : Option String

/-- The key library: the 20-byte hash of a private key's public key, and recoverable signatures. -/
structure Secp256k1 where
  pubHash : Bytes → Byte20
  sign : Byte32 → (priv : Bytes) → ByteArr 65

/-- What the manifest holds for the network, and the lock of the command's own key. -/
structure Network where
  codeHash : Byte32
  hashType : UInt8
  lockDep : Option OutPoint
  authDep : Option OutPoint
  sighashLock : Script

namespace SessionSection

variable (s : SessionSection)

/-- A bigint enters wasm modulo 2^64. -/
def expires : U64 :=
  match s.expiresAt with
  | .never => Wasm.noExpiry
  | .seconds n => BitVec.ofInt 64 n

def root : String := if s.policiesRoot = "wildcard" then Wasm.wildcardRoot else s.policiesRoot

def capShannons : String := toString (s.spendCapCkb * 100000000)

def guardianText : String := s.guardian.getD ("0x" ++ String.ofList (List.replicate 40 '0'))

end SessionSection

def accountLock (S : Secp256k1) (net : Network) (s : SessionSection) : R Script := do
  let params ← Wasm.sessionParams (hexout (S.pubHash s.sessionPrivkey).toList) s.expires s.root
    s.capShannons s.guardianText
  let args ← hx (← Wasm.registeredArgs (hexout (S.pubHash s.ownerPrivkey).toList) params)
  pure ⟨net.codeHash, net.hashType, args⟩

/-! ## Cells -/

structure LiveCell where
  outPoint : OutPoint
  cell : Cell
deriving DecidableEq

def LiveCell.capacity (c : LiveCell) : Int := c.cell.output.capacity.toNat

/-- `client.findCellsByLock`, in the order the indexer lists the cells. -/
abbrev FindCells := Script → List LiveCell

def FEE : Int := 100000

/-- An amount as an output's capacity. This is an assumption on ccc, the library that serializes the
transaction: it writes an amount of 64 bits as it is, and throws on any other. It is known to take
an amount of 0 for one to be filled in; only a command that leaves nothing in a cell writes that. -/
def toCapacity (amount : Int) : Option U64 :=
  if 0 ≤ amount ∧ amount < 2 ^ 64 then some (BitVec.ofInt 64 amount) else none

def input (c : LiveCell) : CellInput := { since := 0, previousOutput := c.outPoint }

def output (lock : Script) (capacity : U64) : CellOutput := { capacity, lock, type := none }

/-! ## The commands -/

variable (P : Platform) (S : Secp256k1) (net : Network) (find : FindCells) (s : SessionSection)

/-- No guardian signature, and the proof region of a single output. -/
def sessionWitness (sessionPriv : Bytes) (tx : Transaction) : R Bytes := do
  let msg := Sdk.txMessage P tx
  let sig := hexout (S.sign msg sessionPriv).toList
  hx (← Wasm.sessionWitnessRegistered P sig "" Wasm.channelProofRegion)

def codeDeps : Option (List CellDep) := do
  let lockDep ← net.lockDep
  let authDep ← net.authDep
  pure [⟨lockDep, 0⟩, ⟨authDep, 0⟩]

/-- A cell that pays the top-up and its own change: no data, no type script. -/
def pays (need : Int) (c : LiveCell) : Bool :=
  c.cell.data = [] ∧ c.cell.output.type = none ∧ need ≤ c.capacity

/-- `account grow`: the account cell and a paying cell in, the bigger account cell and the change
out. `GROW` is the amount in shannons that `fixedPointFrom` makes of the argument. -/
def grow (GROW : Int) : Option Transaction := do
  let lock ← (accountLock S net s).toOption
  let deps ← codeDeps net
  match find lock with
  | [account] => do
    let need := GROW + 6200000000 + FEE
    -- 62 CKB are left for the change to occupy
    let feeCell ← (find net.sighashLock).find? (pays need)
    let grown ← toCapacity (account.capacity + GROW)
    let change ← toCapacity (feeCell.capacity - GROW - FEE)
    let raw : RawTransaction :=
      { version := 0, cellDeps := deps, headerDeps := []
        inputs := [input account, input feeCell]
        outputs := [output lock grown, output net.sighashLock change]
        outputsData := [[], []] }
    let witness ← (sessionWitness P S s.sessionPrivkey ⟨raw, [[], []]⟩).toOption
    -- the second group is the wallet's to sign
    pure ⟨raw, [witness, []]⟩
  -- no cell, or several that have to be drained first
  | _ => none

/-- The first of the smallest cells. -/
def smallest (c : LiveCell) (cells : List LiveCell) : LiveCell :=
  cells.foldl (fun a b => if a.capacity ≤ b.capacity then a else b) c

/-- The precheck of `account drain`, in whole CKB. -/
def exceedsCap (cap : Int) : Prop := s.spendCapCkb < cap / 100000000

instance (cap : Int) : Decidable (exceedsCap s cap) := Int.decLt _ _

/-- `account drain`: the smallest account cell to the command's own key. -/
def drain : Option Transaction := do
  let lock ← (accountLock S net s).toOption
  let deps ← codeDeps net
  match find lock with
  | [] => none
  | c :: cells => do
    let small := smallest c cells
    let cap := small.capacity
    -- the command throws here, with the lock's SpendCapExceeded in its message
    if exceedsCap s cap then none
    else
      let drained ← toCapacity (cap - FEE)
      let raw : RawTransaction :=
        { version := 0, cellDeps := deps, headerDeps := []
          inputs := [input small]
          outputs := [output net.sighashLock drained]
          outputsData := [[]] }
      let witness ← (sessionWitness P S s.sessionPrivkey ⟨raw, [[]]⟩).toOption
      pure ⟨raw, [witness]⟩

end CkbController.Cli
