import CkbController.Ckb.Transaction
import CkbController.GameRules.Rules
import CkbController.Lib.Method

/-!
# The game operator

`GameOperator` queues the players' intents and turns the queue into one transition of the game
cell. Only the sequencing is here: signatures are checked on chain, and who may sequence is a
matter of the cell's lock, which the `finalize` step signs for. The node is the function
`sendTransaction`; both it and `finalize` are whatever the caller passes.
-/

namespace CkbController.PaymasterService

open ByteCodec MachineInt Checks GameRules

inductive OperatorError where
  | game (e : GameError)
  | rpc (message : String)
  | finalize (message : String)
  | empty
deriving DecidableEq, Repr

/-- The game cell the operator is advancing. -/
structure GameTip where
  outPoint : OutPoint
  output : CellOutput
  state : GameState
deriving DecidableEq

/-- A built transition that is not signed yet, and what the tip becomes once it is committed. -/
structure Transition where
  tx : Transaction
  applied : Nat
  nextState : GameState
  nextOutput : CellOutput
deriving DecidableEq

structure GameOperator where
  gameId : Byte32
  cellDeps : List CellDep
  tip : GameTip
  mempool : List Intent
  fee : U64
deriving DecidableEq

namespace GameOperator

def new (gameId : Byte32) (cellDeps : List CellDep) (tip : GameTip) : GameOperator :=
  { gameId, cellDeps, tip, mempool := [], fee := 0 }

def withFee (op : GameOperator) (fee : U64) : GameOperator := { op with fee }

def pending (op : GameOperator) : Nat := op.mempool.length

variable (P : Platform)

/-! ## The operations -/

def submit (intent : Intent) : Method GameOperator OperatorError Unit := do
  let op ← Method.self
  let projected ← Method.lift ((op.tip.state.applyBatch op.mempool).mapError .game)
  let _ ← Method.lift ((projected.applyIntent intent).mapError .game)
  Method.put { op with mempool := op.mempool ++ [intent] }

/-- The transaction that advances `tip` to `nextState` by the queued batch: one input, one
output, and the batch in the witness of the input. -/
def transitionTx (op : GameOperator) (nextOutput : CellOutput) (nextState : GameState) :
    Transaction where
  raw :=
    { version := 0
      cellDeps := op.cellDeps
      headerDeps := []
      inputs := [{ since := 0, previousOutput := op.tip.outPoint }]
      outputs := [nextOutput]
      outputsData := [nextState.encode] }
  witnesses :=
    [P.witnessArgsSlice { lock := none, inputType := encodeBatch op.mempool, outputType := none }]

def capacityShortfall (capacity fee : U64) : String :=
  s!"game cell capacity {capacity.toNat} cannot fund the {fee.toNat} fee"

def buildTransition (op : GameOperator) : Except OperatorError Transition := do
  rejectIf (op.mempool = []) .empty
  let nextState ← (op.tip.state.applyBatch op.mempool).mapError .game
  let capacity := op.tip.output.capacity
  let nextCapacity ← okOr (checkedSub capacity op.fee)
    (.finalize (capacityShortfall capacity op.fee))
  let nextOutput := { op.tip.output with capacity := nextCapacity }
  pure
    { tx := op.transitionTx P nextOutput nextState
      applied := op.mempool.length
      nextState
      nextOutput }

/-- The next game cell is output 0 of the transaction that was sent. -/
def advance (op : GameOperator) (transition : Transition) (txHash : Byte32) : GameOperator :=
  { op with
    tip :=
      { outPoint := { txHash, index := 0 }
        output := transition.nextOutput
        state := transition.nextState }
    mempool := [] }

def flush (sendTransaction : Transaction → Except String Byte32)
    (finalize : Transaction → Except String Transaction) :
    Method GameOperator OperatorError Byte32 := do
  let op ← Method.self
  let transition ← Method.lift (op.buildTransition P)
  let signed ← Method.lift ((finalize transition.tx).mapError .finalize)
  let txHash ← Method.lift ((sendTransaction signed).mapError .rpc)
  Method.put (op.advance transition txHash)
  pure txHash

def dropPending (op : GameOperator) : GameOperator := { op with mempool := [] }

/-- The game type script of one game, from its deployed code. -/
def gameTypeScript (codeHash : Byte32) (hashType : UInt8) (gameId : Byte32) : Script :=
  { codeHash, hashType, args := gameId.toList }

/-! ## What each operation does -/

variable {P} {op : GameOperator}

def enqueue (op : GameOperator) (intent : Intent) : GameOperator :=
  { op with mempool := op.mempool ++ [intent] }

theorem submit_accepted {intent : Intent} {projected next : GameState}
    (hqueue : op.tip.state.applyBatch op.mempool = .ok projected)
    (hnew : projected.applyIntent intent = .ok next) :
    (submit intent).call op = (.ok (), op.enqueue intent) := by
  unfold submit
  rw [Method.call_self_bind, hqueue, mapError_ok, Method.call_lift_ok_bind, hnew, mapError_ok,
    Method.call_lift_ok_bind, Method.call_put]
  rfl

/-- The two outcomes of a submission. A rejection is the queue's own failure to replay, or the
newcomer's failure on top of it. -/
theorem submit_cases (op : GameOperator) (intent : Intent) :
    (∃ e, (submit intent).call op = (.error (.game e), op) ∧
      (op.tip.state.applyBatch op.mempool = .error e ∨
        ∃ projected, op.tip.state.applyBatch op.mempool = .ok projected ∧
          projected.applyIntent intent = .error e)) ∨
    ∃ projected next, op.tip.state.applyBatch op.mempool = .ok projected ∧
      projected.applyIntent intent = .ok next ∧
      (submit intent).call op = (.ok (), op.enqueue intent) := by
  cases hqueue : op.tip.state.applyBatch op.mempool with
  | error e =>
    refine Or.inl ⟨e, ?_, Or.inl rfl⟩
    unfold submit
    rw [Method.call_self_bind, hqueue, mapError_error, Method.call_lift_error_bind]
  | ok projected =>
    cases hnew : projected.applyIntent intent with
    | error e =>
      refine Or.inl ⟨e, ?_, Or.inr ⟨projected, rfl, hnew⟩⟩
      unfold submit
      rw [Method.call_self_bind, hqueue, mapError_ok, Method.call_lift_ok_bind, hnew,
        mapError_error, Method.call_lift_error_bind]
    | ok next => exact Or.inr ⟨projected, next, rfl, hnew, submit_accepted hqueue hnew⟩

/-- **What a built transition is.** -/
theorem buildTransition_eq_ok {t : Transition} :
    op.buildTransition P = .ok t ↔
      op.mempool ≠ [] ∧ op.tip.state.applyBatch op.mempool = .ok t.nextState ∧
        op.fee.toNat + t.nextOutput.capacity.toNat = op.tip.output.capacity.toNat ∧
        t.nextOutput = { op.tip.output with capacity := t.nextOutput.capacity } ∧
        t.tx = op.transitionTx P t.nextOutput t.nextState ∧ t.applied = op.mempool.length := by
  unfold buildTransition
  rw [rejectIf_bind_eq_ok]
  simp only [bind_eq_ok, mapError_eq_ok, okOr_eq_ok, checkedSub_eq_some, pure, Except.pure,
    Except.ok.injEq]
  refine and_congr_right fun _ => ?_
  constructor
  · rintro ⟨nextState, hnext, nextCapacity, hcapacity, rfl⟩
    exact ⟨hnext, hcapacity, rfl, rfl, rfl⟩
  · rintro ⟨hnext, hcapacity, houtput, htx, happlied⟩
    refine ⟨t.nextState, hnext, t.nextOutput.capacity, hcapacity, ?_⟩
    rw [← houtput, ← htx, ← happlied]

/-- Why a transition is not built. -/
theorem buildTransition_eq_error {e : OperatorError} (h : op.buildTransition P = .error e) :
    (op.mempool = [] ∧ e = .empty) ∨
      (∃ ge, op.tip.state.applyBatch op.mempool = .error ge ∧ e = .game ge) ∨
      (op.tip.output.capacity.toNat < op.fee.toNat ∧
        e = .finalize (capacityShortfall op.tip.output.capacity op.fee)) := by
  -- the three guards of the source, in its order
  unfold buildTransition at h
  by_cases hempty : op.mempool = []
  · rw [rejectIf, if_pos hempty] at h
    cases h
    exact Or.inl ⟨hempty, rfl⟩
  · rw [rejectIf_neg hempty, ok_bind] at h
    cases hnext : op.tip.state.applyBatch op.mempool with
    | error ge =>
      rw [hnext] at h
      cases h
      exact Or.inr (Or.inl ⟨ge, rfl, rfl⟩)
    | ok nextState =>
      rw [hnext, mapError_ok, ok_bind] at h
      -- the board is computed: only the fee can be missing
      by_cases hshort : op.tip.output.capacity.toNat < op.fee.toNat
      · simp only [checkedSub, if_neg (Nat.not_le.mpr hshort)] at h
        cases h
        exact Or.inr (Or.inr ⟨hshort, rfl⟩)
      · simp only [checkedSub, if_pos (Nat.not_lt.mp hshort)] at h
        cases h

section Flush

variable {sendTransaction : Transaction → Except String Byte32}
  {finalize : Transaction → Except String Transaction} {t : Transition} {signed : Transaction}

theorem flush_notBuilt {e : OperatorError} (hbuild : op.buildTransition P = .error e) :
    (flush P sendTransaction finalize).call op = (.error e, op) := by
  unfold flush
  rw [Method.call_self_bind, hbuild, Method.call_lift_error_bind]

theorem flush_notFinalized {m : String} (hbuild : op.buildTransition P = .ok t)
    (hfinal : finalize t.tx = .error m) :
    (flush P sendTransaction finalize).call op = (.error (.finalize m), op) := by
  unfold flush
  rw [Method.call_self_bind, hbuild, Method.call_lift_ok_bind, hfinal, mapError_error,
    Method.call_lift_error_bind]

theorem flush_notSent {m : String} (hbuild : op.buildTransition P = .ok t)
    (hfinal : finalize t.tx = .ok signed) (hsend : sendTransaction signed = .error m) :
    (flush P sendTransaction finalize).call op = (.error (.rpc m), op) := by
  unfold flush
  rw [Method.call_self_bind, hbuild, Method.call_lift_ok_bind, hfinal, mapError_ok,
    Method.call_lift_ok_bind, hsend, mapError_error, Method.call_lift_error_bind]

theorem flush_sent {txHash : Byte32} (hbuild : op.buildTransition P = .ok t)
    (hfinal : finalize t.tx = .ok signed) (hsend : sendTransaction signed = .ok txHash) :
    (flush P sendTransaction finalize).call op = (.ok txHash, op.advance t txHash) := by
  unfold flush
  rw [Method.call_self_bind, hbuild, Method.call_lift_ok_bind, hfinal, mapError_ok,
    Method.call_lift_ok_bind, hsend, mapError_ok, Method.call_lift_ok_bind, Method.call_put_bind,
    Method.call_pure]

end Flush

/-- The outcomes of a flush: nothing was sent, the node did not take what was sent, or the tip
moved to output 0 of what was sent and the queue was emptied. -/
theorem flush_cases (op : GameOperator) (sendTransaction : Transaction → Except String Byte32)
    (finalize : Transaction → Except String Transaction) :
    (∃ e, (flush P sendTransaction finalize).call op = (.error e, op) ∧
      op.buildTransition P = .error e) ∨
    (∃ t m, (flush P sendTransaction finalize).call op = (.error (.finalize m), op) ∧
      op.buildTransition P = .ok t ∧ finalize t.tx = .error m) ∨
    (∃ t signed m, (flush P sendTransaction finalize).call op = (.error (.rpc m), op) ∧
      op.buildTransition P = .ok t ∧ finalize t.tx = .ok signed ∧
      sendTransaction signed = .error m) ∨
    ∃ t signed txHash, (flush P sendTransaction finalize).call op =
        (.ok txHash, op.advance t txHash) ∧
      op.buildTransition P = .ok t ∧ finalize t.tx = .ok signed ∧
      sendTransaction signed = .ok txHash := by
  -- one outcome for each `?` of the source
  cases hbuild : op.buildTransition P with
  | error e => exact Or.inl ⟨e, flush_notBuilt hbuild, rfl⟩
  | ok t =>
    cases hfinal : finalize t.tx with
    | error m => exact Or.inr (Or.inl ⟨t, m, flush_notFinalized hbuild hfinal, rfl, hfinal⟩)
    | ok signed =>
      cases hsend : sendTransaction signed with
      | error m =>
        exact Or.inr (Or.inr (Or.inl
          ⟨t, signed, m, flush_notSent hbuild hfinal hsend, rfl, hfinal, hsend⟩))
      | ok txHash =>
        exact Or.inr (Or.inr (Or.inr
          ⟨t, signed, txHash, flush_sent hbuild hfinal hsend, rfl, hfinal, hsend⟩))

end GameOperator

end CkbController.PaymasterService
