import CkbController.GameCell.Lineage
import CkbController.GameRules.Batches
import CkbController.Lib.Outbox
import CkbController.Lib.Trace
import CkbController.PaymasterService.Operator

/-!
# Runs of the operator

Any sequence of calls on one operator, each with whatever `finalize` and node the caller passes.
`Call.run_cases` says once what a call can do to the operator; the two results about runs are
case analyses over it.

* `queue_applies` — the queue always applies to the tip, as long as `seq` can count it;
* `operator_accounts` — the operator is an `Outbox`: every accepted intent is in the queue, in one
  sent batch or in one discarded batch, and the tip is what the sent transactions made of it.
-/

namespace CkbController.PaymasterService

open ByteCodec Checks GameRules GameCell

/-- One call on the operator, with what its caller passes. -/
inductive Call where
  | submit (intent : Intent)
  | buildTransition
  | flush (finalize : Transaction → Except String Transaction)
      (sendTransaction : Transaction → Except String Byte32)
  | dropPending

namespace Call

variable (P : Platform)

/-- The result (with the hash, for a flush) and the operator afterwards. -/
def run (c : Call) (op : GameOperator) : Except OperatorError (Option Byte32) × GameOperator :=
  match c with
  | submit intent =>
    let (result, op') := (GameOperator.submit intent).call op
    (result.map fun _ => none, op')
  | buildTransition => ((op.buildTransition P).map fun _ => none, op)
  | flush finalize sendTransaction =>
    let (result, op') := (GameOperator.flush P sendTransaction finalize).call op
    (result.map some, op')
  | dropPending => (.ok none, op.dropPending)

variable {P}

theorem run_submit (intent : Intent) (op : GameOperator) :
    (submit intent).run P op = (((GameOperator.submit intent).call op).1.map fun _ => none,
      ((GameOperator.submit intent).call op).2) := rfl

theorem run_buildTransition (op : GameOperator) :
    buildTransition.run P op = ((op.buildTransition P).map fun _ => none, op) := rfl

/-- A flush answers with the hash of the transaction it sent. -/
theorem run_flush (finalize : Transaction → Except String Transaction)
    (sendTransaction : Transaction → Except String Byte32) (op : GameOperator) :
    (flush finalize sendTransaction).run P op =
      (((GameOperator.flush P sendTransaction finalize).call op).1.map some,
        ((GameOperator.flush P sendTransaction finalize).call op).2) := rfl

/-- **What a call can do.** It fails and leaves the operator as it is; or it queues an intent that
applies on top of the queue; or it only builds; or it sends and advances; or it empties the
queue. -/
theorem run_cases (c : Call) (op : GameOperator) :
    (∃ e, c.run P op = (.error e, op)) ∨
    (∃ intent projected next, c = submit intent ∧
      op.tip.state.applyBatch op.mempool = .ok projected ∧
      projected.applyIntent intent = .ok next ∧ c.run P op = (.ok none, op.enqueue intent)) ∨
    (c = buildTransition ∧ c.run P op = (.ok none, op)) ∨
    (∃ finalize sendTransaction t signed txHash, c = flush finalize sendTransaction ∧
      op.buildTransition P = .ok t ∧ finalize t.tx = .ok signed ∧
      sendTransaction signed = .ok txHash ∧
      c.run P op = (.ok (some txHash), op.advance t txHash)) ∨
    (c = dropPending ∧ c.run P op = (.ok none, op.dropPending)) := by
  -- one case for each method of the operator
  cases c with
  | submit intent =>
    rcases GameOperator.submit_cases op intent with
      ⟨e, hcall, -⟩ | ⟨projected, next, hqueue, hnew, hcall⟩
    · exact Or.inl ⟨.game e, by rw [run_submit, hcall]; rfl⟩
    · exact Or.inr (Or.inl ⟨intent, projected, next, rfl, hqueue, hnew, by
        rw [run_submit, hcall]; rfl⟩)
  | buildTransition =>
    cases hbuild : op.buildTransition P with
    | error e => exact Or.inl ⟨e, by rw [run_buildTransition, hbuild]; rfl⟩
    | ok t => exact Or.inr (Or.inr (Or.inl ⟨rfl, by rw [run_buildTransition, hbuild]; rfl⟩))
  | flush finalize sendTransaction =>
    rcases @GameOperator.flush_cases P op sendTransaction finalize with
      ⟨e, hcall, -⟩ | ⟨t, m, hcall, -⟩ | ⟨t, signed, m, hcall, -⟩ |
      ⟨t, signed, txHash, hcall, hbuild, hfinal, hsend⟩
    · exact Or.inl ⟨e, by rw [run_flush, hcall]; rfl⟩
    · exact Or.inl ⟨.finalize m, by rw [run_flush, hcall]; rfl⟩
    · exact Or.inl ⟨.rpc m, by rw [run_flush, hcall]; rfl⟩
    · exact Or.inr (Or.inr (Or.inr (Or.inl ⟨finalize, sendTransaction, t, signed, txHash, rfl,
        hbuild, hfinal, hsend, by rw [run_flush, hcall]; rfl⟩)))
  | dropPending => exact Or.inr (Or.inr (Or.inr (Or.inr ⟨rfl, rfl⟩)))

/-- **A failed call changes nothing.** -/
theorem run_error {c : Call} {op : GameOperator} {e : OperatorError}
    (h : (c.run P op).1 = .error e) : (c.run P op).2 = op := by
  rcases @run_cases P c op with ⟨_, hrun⟩ | ⟨_, _, _, _, _, _, hrun⟩ | ⟨_, hrun⟩ |
    ⟨_, _, _, _, _, _, _, _, _, hrun⟩ | ⟨_, hrun⟩
  · rw [hrun]
  all_goals
    rw [hrun] at h
    cases h

end Call

/-! ## The queue applies -/

section Queue

variable {P : Platform} {op op₀ : GameOperator}

def QueueApplies (op : GameOperator) : Prop :=
  ∃ s, op.tip.state.applyBatch op.mempool = .ok s

/-- There is room in `seq` for the queue and the newcomer, if the newcomer would be queued. -/
def Call.HasRoom (op : GameOperator) : Call → Prop
  | .submit intent => ∀ projected next, op.tip.state.applyBatch op.mempool = .ok projected →
      projected.applyIntent intent = .ok next →
      op.tip.state.seq.toNat + op.pending + 1 < 2 ^ 64
  | _ => True

theorem queueApplies_of_empty (h : op.mempool = []) : QueueApplies op :=
  ⟨op.tip.state, by rw [h]; exact applyBatch_nil _⟩

/-- A call keeps the queue applying. -/
theorem queueApplies_run {c : Call} (h : QueueApplies op) (hroom : c.HasRoom op) :
    QueueApplies (c.run P op).2 := by
  rcases @Call.run_cases P c op with ⟨_, hrun⟩ | ⟨i, projected, next, rfl, hqueue, hnew, hrun⟩ |
    ⟨_, hrun⟩ | ⟨_, _, t, _, txHash, _, _, _, _, hrun⟩ | ⟨_, hrun⟩
  · rw [hrun]
    exact h
  · -- the submission looked at the moves only, `HasRoom` is about `seq`
    rw [hrun]
    obtain ⟨s', hs', -⟩ := applyBatch_snoc hqueue hnew (hroom projected next hqueue hnew)
    exact ⟨s', hs'⟩
  · rw [hrun]
    exact h
  · rw [hrun]
    exact queueApplies_of_empty rfl
  · rw [hrun]
    exact queueApplies_of_empty rfl

/-- Without room the next call leaves a queue that does not apply. -/
theorem not_queueApplies_run {c : Call} (hlen : op.pending + 1 < 2 ^ 64)
    (hroom : ¬ c.HasRoom op) : ¬ QueueApplies (c.run P op).2 := by
  cases c with
  | submit intent =>
    unfold Call.HasRoom at hroom
    push Not at hroom
    obtain ⟨projected, next, hqueue, hnew, hfull⟩ := hroom
    have hrun : (Call.submit intent).run P op = (.ok none, op.enqueue intent) := by
      rw [Call.run_submit, GameOperator.submit_accepted hqueue hnew]
      rfl
    rw [hrun]
    rintro ⟨s', hs'⟩
    exact applyBatch_snoc_full hlen hfull s' hs'
  | buildTransition => exact absurd trivial hroom
  | flush finalize sendTransaction => exact absurd trivial hroom
  | dropPending => exact absurd trivial hroom

/-- A call with room for what it queues. -/
def RoomyStep (P : Platform) (op : GameOperator) (c : Call) (op' : GameOperator) : Prop :=
  c.HasRoom op ∧ op' = (c.run P op).2

/-- **The queue applies in every run**, by induction on its calls. -/
theorem queueApplies_of_trace {cs : List Call} (hempty : op₀.mempool = [])
    (h : Trace (RoomyStep P) op₀ cs op) : QueueApplies op := by
  refine h.invariant (fun _ op => QueueApplies op) (queueApplies_of_empty hempty) ?_
  rintro _ op c op' happlies ⟨hroom, rfl⟩
  exact queueApplies_run happlies hroom

/-- **A doomed intent never jams the queue.** In every run from an empty queue whose submissions
have room in `seq`, the whole queue applies to the tip. A transition is then refused only because
nothing is queued or the capacity is short, and a submission only because the intent itself does
not apply on top of the queue. And this is exact: the next call keeps the queue applicable just
when it has room. -/
theorem queue_applies (P : Platform) (op₀ op : GameOperator) (cs : List Call)
    (hempty : op₀.mempool = []) (h : Trace (RoomyStep P) op₀ cs op) :
    (∃ s, op.tip.state.applyBatch op.mempool = .ok s) ∧
      (∀ e, op.buildTransition P = .error e → (op.mempool = [] ∧ e = .empty) ∨
        (op.tip.output.capacity.toNat < op.fee.toNat ∧
          e = .finalize (GameOperator.capacityShortfall op.tip.output.capacity op.fee))) ∧
      (∀ intent e, ((GameOperator.submit intent).call op).1 = .error e →
        ∃ projected ge, op.tip.state.applyBatch op.mempool = .ok projected ∧
          projected.applyIntent intent = .error ge ∧ e = .game ge) ∧
      ∀ c : Call, op.pending + 1 < 2 ^ 64 →
        ((∃ s, (c.run P op).2.tip.state.applyBatch (c.run P op).2.mempool = .ok s) ↔
          c.HasRoom op) := by
  have happlies := queueApplies_of_trace hempty h
  obtain ⟨s, hs⟩ := happlies
  refine ⟨⟨s, hs⟩, ?_, ?_, ?_⟩
  · -- an error of the board is excluded, since the queue applies
    intro e he
    rcases GameOperator.buildTransition_eq_error he with hnone | ⟨ge, hge, -⟩ | hshort
    · exact Or.inl hnone
    · rw [hs] at hge
      cases hge
    · exact Or.inr hshort
  · intro intent e he
    rcases GameOperator.submit_cases op intent with
      ⟨ge, hcall, hwhy⟩ | ⟨_, _, _, _, hcall⟩
    · rw [hcall] at he
      cases he
      rcases hwhy with hjam | ⟨projected, hqueue, hnew⟩
      · rw [hs] at hjam
        cases hjam
      · exact ⟨projected, ge, hqueue, hnew, rfl⟩
    · rw [hcall] at he
      cases he
  · intro c hlen
    refine ⟨fun hafter => ?_, fun hroom => queueApplies_run ⟨s, hs⟩ hroom⟩
    -- without room the counter of the tip overflows
    by_contra hroom
    exact not_queueApplies_run hlen hroom hafter

/-! ### The last move

A board whose `seq` is the largest word still takes a submission, and nothing after it. -/

def sampleTip : GameTip := ⟨sampleOutPoint, (gameCell []).output, .empty⟩

def sampleOperator : GameOperator := (GameOperator.new (sampleHash 7) [] sampleTip).withFee 3

def fullBoard : GameState := ⟨BitVec.allOnes 64, []⟩

def fullOperator : GameOperator :=
  .new (sampleHash 7) [] ⟨sampleOutPoint, (gameCell []).output, fullBoard⟩

def firstMove : Intent := ⟨sampleKey 1, 10, 1, sampleSig⟩

def otherMove : Intent := ⟨sampleKey 2, 20, 1, sampleSig⟩

theorem full_board_jams :
    GameState.decode fullBoard.encode = .ok fullOperator.tip.state ∧
      (Call.submit firstMove).run .sample fullOperator =
        (.ok none, fullOperator.enqueue firstMove) ∧
      (fullOperator.enqueue firstMove).tip.state.applyBatch
        (fullOperator.enqueue firstMove).mempool = .error .overflow ∧
      (fullOperator.enqueue firstMove).buildTransition .sample = .error (.game .overflow) ∧
      fullBoard.applyIntent otherMove = .ok ⟨BitVec.allOnes 64, [⟨sampleKey 2, 20, 1⟩]⟩ ∧
      ((GameOperator.submit otherMove).call (fullOperator.enqueue firstMove)).1 =
        .error (.game .overflow) := by
  refine ⟨by decide +kernel, rfl, by decide +kernel, by decide +kernel, by decide +kernel, rfl⟩

theorem queue_applies_sample :
    (∃ s, (sampleOperator.enqueue firstMove).tip.state.applyBatch
        (sampleOperator.enqueue firstMove).mempool = .ok s) ∧
      (∀ e, (sampleOperator.enqueue firstMove).buildTransition .sample = .error e →
        ((sampleOperator.enqueue firstMove).mempool = [] ∧ e = .empty) ∨
          ((sampleOperator.enqueue firstMove).tip.output.capacity.toNat <
              (sampleOperator.enqueue firstMove).fee.toNat ∧
            e = .finalize (GameOperator.capacityShortfall
              (sampleOperator.enqueue firstMove).tip.output.capacity
              (sampleOperator.enqueue firstMove).fee))) ∧
      (∀ intent e,
        ((GameOperator.submit intent).call (sampleOperator.enqueue firstMove)).1 = .error e →
        ∃ projected ge, (sampleOperator.enqueue firstMove).tip.state.applyBatch
            (sampleOperator.enqueue firstMove).mempool = .ok projected ∧
          projected.applyIntent intent = .error ge ∧ e = .game ge) ∧
      ∀ c : Call, (sampleOperator.enqueue firstMove).pending + 1 < 2 ^ 64 →
        ((∃ s, (c.run .sample (sampleOperator.enqueue firstMove)).2.tip.state.applyBatch
            (c.run .sample (sampleOperator.enqueue firstMove)).2.mempool = .ok s) ↔
          c.HasRoom (sampleOperator.enqueue firstMove)) := by
  have hroom : (Call.submit firstMove).HasRoom sampleOperator := fun _ _ _ _ => by decide
  exact queue_applies .sample sampleOperator (sampleOperator.enqueue firstMove) _ rfl
    (.single ⟨hroom, rfl⟩)

end Queue

/-! ## Where the intents go -/

section Books

variable (P : Platform)

/-- How a batch left the queue: in a transaction that the node answered with a hash, or not at
all. -/
inductive Fate where
  | sent (tx : Transaction) (answer : Byte32)
  | discarded

/-- What was handed to `send_transaction` by a flush. -/
def GameOperator.signedTx (op : GameOperator)
    (finalize : Transaction → Except String Transaction) : Option Transaction :=
  (op.buildTransition P).toOption.bind fun t => (finalize t.tx).toOption

section SignedTx

variable {P} {op : GameOperator} {finalize : Transaction → Except String Transaction}
  {t : Transition} {signed : Transaction}

/-- A transition that is not built is not sent. -/
theorem signedTx_of_not_built {e : OperatorError} (hbuild : op.buildTransition P = .error e) :
    op.signedTx P finalize = none := by
  unfold GameOperator.signedTx
  rw [hbuild]
  rfl

/-- A transition that is not finalized is not sent. -/
theorem signedTx_of_not_finalized {message : String} (hbuild : op.buildTransition P = .ok t)
    (hfinal : finalize t.tx = .error message) : op.signedTx P finalize = none := by
  unfold GameOperator.signedTx
  rw [hbuild]
  show (finalize t.tx).toOption = none
  rw [hfinal]
  rfl

/-- A transition that is built and finalized is what a flush sends. -/
theorem signedTx_eq_some (hbuild : op.buildTransition P = .ok t)
    (hfinal : finalize t.tx = .ok signed) : op.signedTx P finalize = some signed := by
  unfold GameOperator.signedTx
  rw [hbuild]
  show (finalize t.tx).toOption = some signed
  rw [hfinal]
  rfl

end SignedTx

/-- The operator, and what an observer of its calls has written down: the intents whose
submission returned `Ok`, and the queues that were sent or discarded. -/
structure Books where
  op : GameOperator
  accepted : List Intent
  closed : List (Fate × List Intent)

namespace Books

def start (op : GameOperator) : Books := { op, accepted := op.mempool, closed := [] }

def outbox (b : Books) : Outbox Intent Fate := { closed := b.closed, pending := b.op.mempool }

/-- A transaction that was sent, what the node answered, and the batch in it. -/
structure Sent where
  tx : Transaction
  answer : Byte32
  batch : List Intent

/-- The sent transactions, oldest first. -/
def sent (b : Books) : List Sent :=
  b.closed.filterMap fun e =>
    match e.1 with
    | .sent tx answer => some ⟨tx, answer, e.2⟩
    | .discarded => none

/-- What a flush that returned `answer` sent. -/
def sentFate (b : Books) (finalize : Transaction → Except String Transaction)
    (answer : Option Byte32) : Option Fate := do
  let tx ← b.op.signedTx P finalize
  let txHash ← answer
  some (.sent tx txHash)

def step (b : Books) (c : Call) : Books :=
  match c, c.run P b.op with
  | .submit intent, (.ok _, op') => { b with op := op', accepted := b.accepted ++ [intent] }
  | .flush finalize _, (.ok answer, op') =>
    { b with
      op := op'
      closed := b.closed ++
        ((b.sentFate P finalize answer).map fun fate => (fate, b.op.mempool)).toList }
  | .dropPending, (.ok _, op') =>
    { b with op := op', closed := b.closed ++ [(.discarded, b.op.mempool)] }
  | _, (_, op') => { b with op := op' }

end Books

/-- `finalize` leaves the game cell at output 0. What the node answers is free. -/
def Call.KeepsGameCell : Call → Prop
  | .flush finalize _ => ∀ tx signed, finalize tx = .ok signed →
      signed.raw.outputs[0]? = tx.raw.outputs[0]? ∧
        signed.raw.outputsData[0]? = tx.raw.outputsData[0]?
  | _ => True

def BooksStep (b : Books) (c : Call) (b' : Books) : Prop := c.KeepsGameCell ∧ b' = b.step P c

/-- What the sent transactions made of the tip. -/
structure Accounts (op₀ : GameOperator) (b : Books) : Prop where
  /-- Every accepted intent is in one place, in the order of the submissions. -/
  conserved : b.accepted = b.outbox.items
  fee : b.op.fee = op₀.fee
  capacity : b.op.tip.output.capacity.toNat + b.sent.length * op₀.fee.toNat =
    op₀.tip.output.capacity.toNat
  output : b.op.tip.output =
    { op₀.tip.output with capacity := b.op.tip.output.capacity }
  state : (b.sent.map Books.Sent.batch).foldlM GameState.applyBatch op₀.tip.state =
    .ok b.op.tip.state
  tip : ∀ last, b.sent.getLast? = some last →
    b.op.tip.outPoint = ⟨last.answer, 0⟩ ∧ last.tx.raw.outputs[0]? = some b.op.tip.output ∧
      last.tx.raw.outputsData[0]? = some b.op.tip.state.encode

variable {P} {op₀ : GameOperator} {b b' : Books}

/-- The accounts hold at the start. -/
theorem Accounts.start (op : GameOperator) : Accounts op (.start op) where
  conserved := rfl
  fee := rfl
  capacity := by simp [Books.start, Books.sent]
  output := rfl
  state := rfl
  tip := fun _ h => by cases h

/-- Closing one batch more adds it to those sent, when it was sent. -/
theorem Books.sent_closed (b : Books) (op : GameOperator) (e : Fate × List Intent) :
    ({ b with op := op, closed := b.closed ++ [e] } : Books).sent =
      b.sent ++ (Books.sent ⟨op, b.accepted, [e]⟩) := by
  unfold Books.sent
  rw [List.filterMap_append]

/-- A pushed intent. -/
theorem Accounts.enqueue (h : Accounts op₀ b) (intent : Intent) :
    Accounts op₀ { b with op := b.op.enqueue intent, accepted := b.accepted ++ [intent] } where
  conserved := by
    show b.accepted ++ [intent] = (b.outbox.push intent).items
    rw [Outbox.items_push, ← h.conserved]
  fee := h.fee
  capacity := h.capacity
  output := h.output
  state := h.state
  tip := h.tip

/-- A discarded queue. -/
theorem Accounts.dropPending (h : Accounts op₀ b) :
    Accounts op₀
      { b with op := b.op.dropPending, closed := b.closed ++ [(.discarded, b.op.mempool)] } := by
  have hsent : ({ b with
      op := b.op.dropPending
      closed := b.closed ++ [(.discarded, b.op.mempool)] } : Books).sent = b.sent := by
    rw [Books.sent_closed]
    exact List.append_nil _
  refine ⟨?_, h.fee, ?_, h.output, ?_, ?_⟩
  · show b.accepted = (b.outbox.close .discarded).items
    rw [Outbox.items_close, ← h.conserved]
  · rw [hsent]
    exact h.capacity
  · rw [hsent]
    exact h.state
  · rw [hsent]
    exact h.tip

/-- A sent queue: the fee is taken off the capacity, the batch is applied to the state, and the
tip is output 0 of what was sent, at the hash that was answered. -/
theorem Accounts.advance (h : Accounts op₀ b) {t : Transition} {signed : Transaction}
    (hbuild : b.op.buildTransition P = .ok t)
    (houtput : signed.raw.outputs[0]? = t.tx.raw.outputs[0]?)
    (hdata : signed.raw.outputsData[0]? = t.tx.raw.outputsData[0]?) (txHash : Byte32) :
    Accounts op₀ { b with
      op := b.op.advance t txHash
      closed := b.closed ++ [(.sent signed txHash, b.op.mempool)] } := by
  obtain ⟨-, happly, hfee, hnext, htx, -⟩ := GameOperator.buildTransition_eq_ok.mp hbuild
  -- one more transaction on the books, and one more fee paid
  have hsent : ({ b with
      op := b.op.advance t txHash
      closed := b.closed ++ [(.sent signed txHash, b.op.mempool)] } : Books).sent =
        b.sent ++ [⟨signed, txHash, b.op.mempool⟩] := Books.sent_closed _ _ _
  refine ⟨?_, h.fee, ?_, ?_, ?_, ?_⟩
  · show b.accepted = (b.outbox.close (.sent signed txHash)).items
    rw [Outbox.items_close, ← h.conserved]
  · rw [hsent, List.length_append, List.length_singleton, Nat.add_mul, Nat.one_mul]
    have hcapacity := h.capacity
    rw [h.fee] at hfee
    show t.nextOutput.capacity.toNat + _ = _
    omega
  · show t.nextOutput = { op₀.tip.output with capacity := t.nextOutput.capacity }
    rw [hnext, h.output]
  · rw [hsent, List.map_append, List.foldlM_append, h.state]
    show (b.op.tip.state.applyBatch b.op.mempool >>= fun s => pure s) = .ok t.nextState
    rw [happly]
    rfl
  · intro last hlast
    rw [hsent, List.getLast?_concat] at hlast
    cases hlast
    rw [houtput, hdata, htx]
    exact ⟨rfl, rfl, rfl⟩

/-- **One call.** On the outbox of the intents it is a push, a closing, or nothing. -/
theorem Accounts.step {c : Call} (h : Accounts op₀ b) (hkeeps : c.KeepsGameCell) :
    Accounts op₀ (b.step P c) := by
  rcases @Call.run_cases P c b.op with ⟨e, hrun⟩ | ⟨intent, _, _, rfl, -, -, hrun⟩ |
    ⟨rfl, hrun⟩ | ⟨finalize, send, t, signed, txHash, rfl, hbuild, hfinal, hsend, hrun⟩ |
    ⟨rfl, hrun⟩
  · -- a failed call is not written down
    have hsame : b.step P c = b := by
      unfold Books.step
      rw [hrun]
      cases c <;> rfl
    rw [hsame]
    exact h
  · unfold Books.step
    rw [hrun]
    exact h.enqueue intent
  · unfold Books.step
    rw [hrun]
    exact h
  · -- a sent queue is closed under the transaction that carries it
    have hsigned : b.op.signedTx P finalize = some signed := signedTx_eq_some hbuild hfinal
    obtain ⟨houtput, hdata⟩ := hkeeps _ _ hfinal
    have hclosed : ((b.sentFate P finalize (some txHash)).map fun fate =>
        (fate, b.op.mempool)).toList = [(.sent signed txHash, b.op.mempool)] := by
      rw [Books.sentFate, hsigned]
      rfl
    unfold Books.step
    rw [hrun]
    show Accounts op₀ { b with
      op := _
      closed := b.closed ++
        ((b.sentFate P finalize (some txHash)).map fun fate => (fate, b.op.mempool)).toList }
    rw [hclosed]
    exact h.advance hbuild houtput hdata txHash
  · unfold Books.step
    rw [hrun]
    exact h.dropPending

/-- **No intent is lost, repeated or half-applied.** In every run, with any `finalize` that keeps
output 0 and any node: the accepted intents, in the order they came, are the sent and the discarded
queues followed by the pending one; the tip is output 0 of the last sent transaction, at the hash
that the node answered; its state is the fold of the sent batches, and its capacity is what the
fees left. A call that returns an error leaves tip and queue as they are. -/
theorem operator_accounts (P : Platform) (op₀ : GameOperator) (cs : List Call) (b : Books)
    (h : Trace (BooksStep P) (.start op₀) cs b) :
    (∀ (c : Call) e, (c.run P b.op).1 = .error e →
      (c.run P b.op).2.tip = b.op.tip ∧ (c.run P b.op).2.mempool = b.op.mempool) ∧
    b.accepted = b.closed.flatMap Prod.snd ++ b.op.mempool ∧
    (b.sent.map Books.Sent.batch).foldlM GameState.applyBatch op₀.tip.state =
      .ok b.op.tip.state ∧
    b.op.tip.output.capacity.toNat + b.sent.length * op₀.fee.toNat =
      op₀.tip.output.capacity.toNat ∧
    b.op.tip.output = { op₀.tip.output with capacity := b.op.tip.output.capacity } ∧
    ∀ last, b.sent.getLast? = some last →
      b.op.tip.outPoint = ⟨last.answer, 0⟩ ∧ last.tx.raw.outputs[0]? = some b.op.tip.output ∧
        last.tx.raw.outputsData[0]? = some b.op.tip.state.encode := by
  have haccounts : Accounts op₀ b := by
    refine h.invariant (fun _ b => Accounts op₀ b) (Accounts.start op₀) ?_
    rintro _ b c b' hb ⟨hkeeps, rfl⟩
    exact hb.step hkeeps
  refine ⟨?_, haccounts.conserved, haccounts.state, haccounts.capacity, haccounts.output,
    haccounts.tip⟩
  intro c e he
  rw [Call.run_error he]
  exact ⟨rfl, rfl⟩

/-! ### A move sent, a move dropped -/

def plainFlush (P : Platform) : Call := .flush .ok fun tx => .ok (P.txHash tx.raw)

def sampleCalls : List Call :=
  [.submit firstMove, plainFlush .sample, .submit otherMove, .dropPending]

def sampleBooks : Books :=
  sampleCalls.foldl (fun b c => b.step .sample c) (.start sampleOperator)

/-- Such a flush leaves everything where it is. -/
theorem keeps_plainFlush (sendTransaction : Transaction → Except String Byte32) :
    (Call.flush .ok sendTransaction).KeepsGameCell := by
  rintro tx signed h
  cases h
  exact ⟨rfl, rfl⟩

theorem sampleCalls_run :
    Trace (BooksStep .sample) (.start sampleOperator) sampleCalls sampleBooks := by
  have hsubmit : ∀ intent, (Call.submit intent).KeepsGameCell := fun _ => trivial
  exact Trace.snoc (Trace.snoc (Trace.snoc (Trace.snoc .nil ⟨hsubmit firstMove, rfl⟩)
    ⟨keeps_plainFlush _, rfl⟩) ⟨hsubmit otherMove, rfl⟩) ⟨trivial, rfl⟩

theorem operator_accounts_sample :
    (∀ (c : Call) e, (c.run .sample sampleBooks.op).1 = .error e →
      (c.run .sample sampleBooks.op).2.tip = sampleBooks.op.tip ∧
        (c.run .sample sampleBooks.op).2.mempool = sampleBooks.op.mempool) ∧
    sampleBooks.accepted = sampleBooks.closed.flatMap Prod.snd ++ sampleBooks.op.mempool ∧
    (sampleBooks.sent.map Books.Sent.batch).foldlM GameState.applyBatch sampleOperator.tip.state =
      .ok sampleBooks.op.tip.state ∧
    sampleBooks.op.tip.output.capacity.toNat + sampleBooks.sent.length * sampleOperator.fee.toNat =
      sampleOperator.tip.output.capacity.toNat ∧
    sampleBooks.op.tip.output =
      { sampleOperator.tip.output with capacity := sampleBooks.op.tip.output.capacity } ∧
    ∀ last, sampleBooks.sent.getLast? = some last →
      sampleBooks.op.tip.outPoint = ⟨last.answer, 0⟩ ∧
        last.tx.raw.outputs[0]? = some sampleBooks.op.tip.output ∧
        last.tx.raw.outputsData[0]? = some sampleBooks.op.tip.state.encode :=
  operator_accounts .sample sampleOperator sampleCalls sampleBooks sampleCalls_run

/-- A node that answers every transaction with one hash. -/
def mislabelledFlush : Call := .flush .ok fun _ => .ok (sampleHash 9)

def mislabelledCalls : List Call := [.submit firstMove, mislabelledFlush]

def mislabelledBooks : Books :=
  mislabelledCalls.foldl (fun b c => b.step .sample c) (.start sampleOperator)

/-- The operator takes the node's answer for the hash of the transaction it sent. -/
theorem answered_hash_is_taken :
    Trace (BooksStep .sample) (.start sampleOperator) mislabelledCalls mislabelledBooks ∧
      ∃ last, mislabelledBooks.sent.getLast? = some last ∧
        mislabelledBooks.op.tip.outPoint ≠ ⟨Platform.sample.txHash last.tx.raw, 0⟩ := by
  have hsubmit : (Call.submit firstMove).KeepsGameCell := trivial
  refine ⟨Trace.snoc (Trace.snoc .nil ⟨hsubmit, rfl⟩) ⟨keeps_plainFlush _, rfl⟩, ?_⟩
  exact ⟨_, rfl, by decide +kernel⟩

end Books

end CkbController.PaymasterService
