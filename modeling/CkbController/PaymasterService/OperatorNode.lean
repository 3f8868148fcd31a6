import CkbController.Ckb.Ledger
import CkbController.Lib.Trace
import CkbController.PaymasterService.GameServer
import CkbController.PaymasterService.OperatorAcceptance

/-!
# The operator and the node

The server of `GameServer` next to a node that holds the live game cell. The node takes a
transaction or rejects it; when it takes one, the answer may still be lost on the way back, and
then the server sees the same kind of error as for a rejection. Each `POST /intent` is numbered,
so that one intent submitted twice is two submissions.

* `operator_serve` — what one request does to the operator, whatever the node answers;
* `tip_is_live` — as long as no answer is lost, the tip is the live cell, and an intent that was
  answered with an error is not part of it.
-/

namespace CkbController.PaymasterService

open ByteCodec Checks GameRules GameCell GameServer

/-! ## What a request does to the operator -/

section Serve

variable {P : Platform} {rt : Runtime} {m : Moment}
  {sendTransaction : Transaction → Except String Byte32}
  {finalize : Transaction → Except String Transaction} {s s' : Server} {request : Request}
  {response : Response} {op : GameOperator}

/-- The intent that a request adds to the queue. -/
def admitted (rt : Runtime) (s : Server) : Request → Option Intent
  | .intent body => (intentOf rt body).toOption.filter fun intent =>
      ((GameOperator.submit intent).call s.operator).1.isOk
  | _ => none

/-- The operator as a request flushes it. -/
def flushed (rt : Runtime) (s : Server) : Request → Option GameOperator
  | .intent body => (admitted rt s (.intent body)).map s.operator.enqueue
  | .flush => some s.operator
  | _ => none

/-- What a flush of `op` leads to: nothing is sent and nothing changes; the node's error empties
the queue; or the operator advances. -/
inductive Flushed (P : Platform) (sendTransaction : Transaction → Except String Byte32)
    (finalize : Transaction → Except String Transaction) (op : GameOperator) :
    Except OperatorError Byte32 → GameOperator → Prop where
  | notBuilt {e : OperatorError} (build : op.buildTransition P = .error e) :
      Flushed P sendTransaction finalize op (.error e) op
  | notFinalized {t : Transition} {message : String} (build : op.buildTransition P = .ok t)
      (final : finalize t.tx = .error message) :
      Flushed P sendTransaction finalize op (.error (.finalize message)) op
  | shed {t : Transition} {signed : Transaction} {message : String}
      (build : op.buildTransition P = .ok t) (final : finalize t.tx = .ok signed)
      (send : sendTransaction signed = .error message) :
      Flushed P sendTransaction finalize op (.error (.rpc message)) op.dropPending
  | advanced {t : Transition} {signed : Transaction} {txHash : Byte32}
      (build : op.buildTransition P = .ok t) (final : finalize t.tx = .ok signed)
      (send : sendTransaction signed = .ok txHash) :
      Flushed P sendTransaction finalize op (.ok txHash) (op.advance t txHash)

/-- A flush that fails leaves the tip. -/
theorem Flushed.tip_of_error {op' : GameOperator} {e : OperatorError}
    (h : Flushed P sendTransaction finalize op (.error e) op') : op'.tip = op.tip := by
  cases h with
  | notBuilt build => rfl
  | notFinalized build final => rfl
  | shed build final send => rfl

/-- A flush that succeeds applies the queue. -/
theorem Flushed.applyBatch {op' : GameOperator} {txHash : Byte32}
    (h : Flushed P sendTransaction finalize op (.ok txHash) op') :
    op.tip.state.applyBatch op.mempool = .ok op'.tip.state := by
  cases h with
  | advanced build final send => exact (GameOperator.buildTransition_eq_ok.mp build).2.1

/-- **The four ways a flush goes.** -/
theorem flushed_flushOrShed (op : GameOperator) :
    Flushed P sendTransaction finalize op (flushOrShed P sendTransaction finalize op).1
      (flushOrShed P sendTransaction finalize op).2 := by
  unfold flushOrShed
  rcases @GameOperator.flush_cases P op sendTransaction finalize with
    ⟨e, hcall, hbuild⟩ | ⟨t, message, hcall, hbuild, hfinal⟩ |
    ⟨t, signed, message, hcall, hbuild, hfinal, hsend⟩ |
    ⟨t, signed, txHash, hcall, hbuild, hfinal, hsend⟩
  · rw [hcall]
    -- a build error is never an error of the node
    rcases GameOperator.buildTransition_eq_error hbuild with ⟨-, rfl⟩ | ⟨ge, -, rfl⟩ | ⟨-, rfl⟩
    · exact .notBuilt hbuild
    · exact .notBuilt hbuild
    · exact .notBuilt hbuild
  · rw [hcall]
    exact .notFinalized hbuild hfinal
  · rw [hcall]
    exact .shed hbuild hfinal hsend
  · rw [hcall]
    exact .advanced hbuild hfinal hsend

theorem le_opErrorStatus (e : OperatorError) : 400 ≤ opErrorStatus e := by
  cases e <;> simp [opErrorStatus]

/-- A flush that fails is answered with an error status. -/
theorem opErrorStatus_lt_iff (e : OperatorError) :
    opErrorStatus e < 400 ↔ (Except.error e : Except OperatorError Byte32).isOk = true :=
  iff_of_false (Nat.not_lt.mpr (le_opErrorStatus e)) Bool.false_ne_true

/-- `POST /flush` flushes, and its status tells whether that succeeded. -/
theorem handleFlush_flushed (op : GameOperator) :
    ∃ result, Flushed P sendTransaction finalize op result
        (handleFlush P rt sendTransaction finalize op).2 ∧
      ((handleFlush P rt sendTransaction finalize op).1.1 < 400 ↔ result.isOk = true) := by
  have hflushed := @flushed_flushOrShed P sendTransaction finalize op
  unfold handleFlush
  rcases hflush : flushOrShed P sendTransaction finalize op with ⟨e | txHash, op'⟩
  · rw [hflush] at hflushed
    exact ⟨_, hflushed, opErrorStatus_lt_iff e⟩
  · rw [hflush] at hflushed
    exact ⟨_, hflushed, iff_of_true (show 200 < 400 by decide) rfl⟩

/-- Either the intent is not admitted, and nothing happens to the operator; or it is queued and
the queue is flushed. -/
theorem handleIntent_cases (op : GameOperator) (results : ResultsLog) (body : String) :
    ((∀ intent, intentOf rt body = .ok intent →
        ((GameOperator.submit intent).call op).1.isOk = false) ∧
      (handleIntent P rt m sendTransaction finalize op results body).2.1 = op ∧
      400 ≤ (handleIntent P rt m sendTransaction finalize op results body).1.1) ∨
    ∃ intent, intentOf rt body = .ok intent ∧
      ((GameOperator.submit intent).call op).1.isOk = true ∧
      ∃ result, Flushed P sendTransaction finalize (op.enqueue intent) result
          (handleIntent P rt m sendTransaction finalize op results body).2.1 ∧
        ((handleIntent P rt m sendTransaction finalize op results body).1.1 < 400 ↔
          result.isOk = true) := by
  unfold handleIntent
  cases hintent : intentOf rt body with
  | error message =>
    left
    -- no move in the body
    refine ⟨?_, rfl, Nat.le_refl _⟩
    intro intent h
    cases h
  | ok intent =>
    rcases GameOperator.submit_cases op intent with ⟨e, hcall, -⟩ | ⟨_, _, _, _, hcall⟩
    · left
      -- the queue refuses the move
      refine ⟨?_, ?_, ?_⟩
      · rintro _ h
        cases h
        rw [hcall]
        rfl
      · simp only [hcall]
      · simp only [hcall]
        exact le_opErrorStatus (.game e)
    · right
      -- the move is queued, and the queue is sent at once
      refine ⟨intent, rfl, by rw [hcall]; rfl, ?_⟩
      have hflushed := @flushed_flushOrShed P sendTransaction finalize (op.enqueue intent)
      simp only [hcall]
      rcases hflush : flushOrShed P sendTransaction finalize (op.enqueue intent) with
        ⟨e | txHash, op'⟩
      · rw [hflush] at hflushed
        exact ⟨_, hflushed, opErrorStatus_lt_iff e⟩
      · rw [hflush] at hflushed
        exact ⟨_, hflushed, iff_of_true (show 200 < 400 by decide) rfl⟩

/-- An intent is admitted when its body is read and the operator takes it. -/
theorem admitted_intent {body : String} {intent : Intent} (hintent : intentOf rt body = .ok intent)
    (hok : ((GameOperator.submit intent).call s.operator).1.isOk = true) :
    admitted rt s (.intent body) = some intent := by
  show (intentOf rt body).toOption.filter _ = some intent
  rw [hintent]
  exact Option.filter_some_pos hok

/-- None is admitted when the operator refuses the intent that the body is read as. -/
theorem admitted_intent_none {body : String}
    (h : ∀ intent, intentOf rt body = .ok intent →
      ((GameOperator.submit intent).call s.operator).1.isOk = false) :
    admitted rt s (.intent body) = none := by
  show (intentOf rt body).toOption.filter _ = none
  cases hintent : intentOf rt body with
  | error message => rfl
  | ok intent => exact Option.filter_some_neg (by simp [h intent hintent])

/-- Only two requests flush: `POST /intent`, with the move it has just queued, and `POST /flush`. -/
theorem flushed_cases (h : flushed rt s request = some op) :
    (∃ body intent, request = .intent body ∧ intentOf rt body = .ok intent ∧
      ((GameOperator.submit intent).call s.operator).1.isOk = true ∧
      admitted rt s request = some intent ∧ op = s.operator.enqueue intent) ∨
    (request = .flush ∧ admitted rt s request = none ∧ op = s.operator) := by
  cases request with
  | intent body =>
    obtain ⟨intent, hadmitted, hop⟩ := Option.map_eq_some_iff.mp h
    obtain ⟨hread, hok⟩ := Option.filter_eq_some_iff.mp hadmitted
    have hintent : intentOf rt body = .ok intent := by
      cases hbody : intentOf rt body with
      | error message =>
        rw [hbody] at hread
        cases hread
      | ok intent' =>
        rw [hbody] at hread
        exact congrArg Except.ok (Option.some.inj hread)
    exact Or.inl ⟨body, intent, rfl, hintent, hok, hadmitted, hop.symm⟩
  | flush => exact Or.inr ⟨rfl, rfl, (Option.some.inj h).symm⟩
  | health => cases h
  | game => cases h
  | publishInvoice body => cases h
  | nextInvoice payer => cases h
  | invoicePaid body => cases h
  | results n => cases h
  | other => cases h

/-- **One request.** It leaves the operator alone, or it flushes it, in the case of `POST /intent`
after a submission. The response has an error status when the intent is not admitted or the flush
fails. -/
theorem operator_serve
    (h : s.serve P rt sendTransaction finalize m request = some (response, s')) :
    (flushed rt s request = none ∧ admitted rt s request = none ∧ s'.operator = s.operator) ∨
    ∃ op result, flushed rt s request = some op ∧
      Flushed P sendTransaction finalize op result s'.operator ∧
      (response.1 < 400 ↔ result.isOk = true) := by
  cases request with
  | intent body =>
    cases h
    rcases @handleIntent_cases P rt m sendTransaction finalize s.operator s.results body with
      ⟨hnone, hop, -⟩ | ⟨intent, hintent, hok, result, hflushed, hstatus⟩
    · have hadmitted := admitted_intent_none hnone
      exact Or.inl ⟨by rw [flushed, hadmitted]; rfl, hadmitted, hop⟩
    · exact Or.inr ⟨s.operator.enqueue intent, result,
        by rw [flushed, admitted_intent hintent hok]; rfl, hflushed, hstatus⟩
  -- a flush sends the queue as it is
  | flush =>
    cases h
    obtain ⟨result, hflushed, hstatus⟩ :=
      @handleFlush_flushed P rt sendTransaction finalize s.operator
    exact Or.inr ⟨s.operator, result, rfl, hflushed, hstatus⟩
  -- no other request reaches the operator
  | publishInvoice body =>
    rw [Server.serve_publishInvoice] at h
    obtain ⟨out, -, hout⟩ := Option.bind_eq_some_iff.mp h
    cases hout
    exact Or.inl ⟨rfl, rfl, rfl⟩
  | health =>
    cases h
    exact Or.inl ⟨rfl, rfl, rfl⟩
  | game =>
    cases h
    exact Or.inl ⟨rfl, rfl, rfl⟩
  | nextInvoice payer =>
    cases h
    exact Or.inl ⟨rfl, rfl, rfl⟩
  | invoicePaid body =>
    cases h
    exact Or.inl ⟨rfl, rfl, rfl⟩
  | results n =>
    cases h
    exact Or.inl ⟨rfl, rfl, rfl⟩
  | other =>
    cases h
    exact Or.inl ⟨rfl, rfl, rfl⟩

end Serve

/-! ## The node -/

/-- What becomes of a transaction that is sent: the node takes it and says so, rejects it, or takes
it and the answer is lost. -/
inductive Reply where
  | acknowledged
  | rejected (message : String)
  | lost (message : String)

def Reply.accepts : Reply → Bool
  | .acknowledged => true
  | .rejected _ => false
  | .lost _ => true

/-- What `send_transaction` returns. -/
def Reply.answer (P : Platform) : Reply → Transaction → Except String Byte32
  | .acknowledged, tx => .ok (P.txHash tx.raw)
  | .rejected message, _ => .error message
  | .lost message, _ => .error message

/-- Only an acknowledgement is an answer without an error. -/
theorem Reply.answer_eq_ok {P : Platform} {reply : Reply} {tx : Transaction} {txHash : Byte32} :
    reply.answer P tx = .ok txHash ↔ reply = .acknowledged ∧ txHash = P.txHash tx.raw := by
  cases reply <;> simp [Reply.answer, eq_comm]

/-- The operator sees an error when the node refuses, and also when its answer is lost. -/
theorem Reply.answer_eq_error {P : Platform} {reply : Reply} {tx : Transaction} {message : String}
    (h : reply.answer P tx = .error message) :
    reply = .rejected message ∨ reply = .lost message := by
  cases reply with
  | acknowledged => cases h
  | rejected m =>
    cases h
    exact Or.inl rfl
  | lost m =>
    cases h
    exact Or.inr rfl

/-- The node takes `tx`: the live game cell is one of its inputs and the type script accepts it.
The game cell it creates is the live one from then on. -/
def Takes (P : Platform) (ty : Script) (live : OutPoint × Cell) (tx : Transaction)
    (live' : OutPoint × Cell) : Prop :=
  ∃ rtx : ResolvedTx, rtx.tx = tx ∧ live ∈ rtx.spent ∧ verify P (.ofType P rtx ty) = .ok () ∧
    live' ∈ rtx.created P ∧ Vm.carries P ty live'.2 = true

structure Event where
  moment : Moment
  request : Request
  reply : Reply

/-- The server, the live game cell, and the account of the numbered submissions: those behind the
queue, those in the live cell, and those answered with an error status. -/
structure World where
  server : Server
  live : OutPoint × Cell
  requests : Nat
  queue : List (Nat × Intent)
  history : List (Nat × Intent)
  refused : List Nat

namespace World

variable (P : Platform) (rt : Runtime) (finalize : Transaction → Except String Transaction)
  (w : World) (e : Event)

/-- What the server sends while it handles the request. -/
def sentTx : Option Transaction :=
  (flushed rt w.server e.request).bind fun op => op.signedTx P finalize

def taken : Bool := (w.sentTx P rt finalize e).isSome && e.reply.accepts

/-- The submissions behind the queue as the request flushes it. -/
def admitting : List (Nat × Intent) :=
  w.queue ++ ((admitted rt w.server e.request).map fun intent => (w.requests, intent)).toList

/-- One request. -/
structure Step (ty : Script) (w : World) (e : Event) (response : Response) (w' : World) :
    Prop where
  served : w.server.serve P rt (e.reply.answer P) finalize e.moment e.request =
    some (response, w'.server)
  node : ∀ tx, w.sentTx P rt finalize e = some tx → e.reply.accepts = true →
    Takes P ty w.live tx w'.live
  idle : w.taken P rt finalize e = false → w'.live = w.live
  requests : w'.requests = w.requests + 1
  queue : w'.queue = if w'.server.operator.mempool = [] then [] else w.admitting rt e
  history : w'.history = w.history ++ if w.taken P rt finalize e then w.admitting rt e else []
  refused : w'.refused =
    w.refused ++ if e.request.isIntent ∧ 400 ≤ response.1 then [w.requests] else []

/-- No answer is lost on the way back, and the flush of a `POST /intent` can be finalized. -/
structure Clean : Prop where
  answered : ∀ tx message, w.sentTx P rt finalize e = some tx → e.reply ≠ .lost message
  finalized : e.request.isIntent = true → ∀ op t message, flushed rt w.server e.request = some op →
    op.buildTransition P = .ok t → finalize t.tx ≠ .error message

end World

/-! ## The tip and the live cell -/

/-- The queue of `op` will never be sent. -/
def Stuck (op : GameOperator) : Prop :=
  op.tip.output.capacity.toNat < op.fee.toNat ∨
    ∀ s, op.tip.state.applyBatch op.mempool ≠ .ok s

/-- The operator's tip is the live game cell, whose board is `start` with the moves of the
history; and a refused submission is neither in the history nor in a queue that may be sent. -/
structure Synced (start : GameState) (w : World) : Prop where
  outPoint : w.live.1 = w.server.operator.tip.outPoint
  output : w.live.2.output = w.server.operator.tip.output
  state : GameState.decode w.live.2.data = .ok w.server.operator.tip.state
  account : start.applyIntents (w.history.map Prod.snd) =
    .ok { w.server.operator.tip.state with seq := start.seq }
  queue : w.queue.map Prod.snd = w.server.operator.mempool
  numbered : ∀ n ∈ (w.history ++ w.queue).map Prod.fst, n < w.requests
  refusedLt : ∀ n ∈ w.refused, n < w.requests
  refusedOut : ∀ n ∈ w.refused, n ∉ w.history.map Prod.fst
  stuck : ∀ n ∈ w.refused, n ∈ w.queue.map Prod.fst → Stuck w.server.operator

section Invariant

variable {P : Platform} {rt : Runtime} {finalize : Transaction → Except String Transaction}
  {ty : Script} {start : GameState} {w w' : World} {e : Event} {response : Response}
  {op : GameOperator} {t : Transition}

/-- A stuck queue is never built into a transition. -/
theorem Stuck.not_built (h : Stuck op) : op.buildTransition P ≠ .ok t := by
  intro hbuild
  obtain ⟨-, happly, hfee, -⟩ := GameOperator.buildTransition_eq_ok.mp hbuild
  rcases h with hshort | hjam
  · omega
  · exact hjam _ happly

/-- A queue that is not empty and cannot be built now is stuck for good: its intents or the fee are
at fault. -/
theorem stuck_of_not_built {error : OperatorError} (hqueue : op.mempool ≠ [])
    (hbuild : op.buildTransition P = .error error) : Stuck op := by
  rcases GameOperator.buildTransition_eq_error hbuild with ⟨hempty, -⟩ | ⟨ge, hjam, -⟩ | ⟨hshort, -⟩
  · exact absurd hempty hqueue
  · right
    intro s hs
    rw [hjam] at hs
    cases hs
  · exact Or.inl hshort

/-- An intent is admitted behind a stuck queue only when the capacity is what is short. -/
theorem Stuck.enqueue {intent : Intent} (h : Stuck op)
    (hok : ((GameOperator.submit intent).call op).1.isOk = true) : Stuck (op.enqueue intent) := by
  rcases h with hshort | hjam
  · exact Or.inl hshort
  · rcases GameOperator.submit_cases op intent with ⟨ge, hcall, -⟩ | ⟨projected, _, hqueue, -⟩
    · rw [hcall] at hok
      cases hok
    · exact absurd hqueue (hjam projected)

/-- The node makes output 0 of a built transition the live cell, and it reads back. -/
theorem live_of_takes {live live' : OutPoint × Cell} {signed : Transaction}
    (hbuild : op.buildTransition P = .ok t) (hraw : signed.raw = t.tx.raw)
    (h : Takes P ty live signed live') :
    live' = (⟨P.txHash signed.raw, 0⟩, t.nextCell) ∧
      GameState.decode t.nextCell.data = .ok t.nextState := by
  obtain ⟨-, -, -, -, htx, -⟩ := GameOperator.buildTransition_eq_ok.mp hbuild
  obtain ⟨rtx, hrtx, -, hverify, hcreated, hcarries⟩ := h
  have hcells : rtx.outputCells = [t.nextCell] := by
    unfold ResolvedTx.outputCells
    rw [hrtx, hraw, htx]
    rfl
  have hlive : live' = (⟨P.txHash signed.raw, 0⟩, t.nextCell) := by
    unfold ResolvedTx.created at hcreated
    rw [hcells, hrtx] at hcreated
    exact List.mem_singleton.mp hcreated
  refine ⟨hlive, ?_⟩
  rw [hlive] at hcarries
  have hgroup : (Vm.ofType P rtx ty).groupOutputCells = [t.nextCell] := by
    rw [Vm.groupOutputCells_ofType, hcells]
    exact List.filter_eq_self.mpr fun c hc => List.mem_singleton.mp hc ▸ hcarries
  -- whatever the script accepted, it decoded the output
  have hdecodes : ∃ s, GameState.decode t.nextCell.data = .ok s := by
    rcases verify_ok hverify with ⟨c, hgenesis⟩ | ⟨c, c', batch, htransition⟩
    · obtain ⟨s, hs, -⟩ := hgenesis.empty
      rw [List.singleton_inj.mp (hgenesis.outputs.symm.trans hgroup)] at hs
      exact ⟨s, hs⟩
    · obtain ⟨_, _, out, _, hout, -⟩ := htransition.applied
      rw [List.singleton_inj.mp (htransition.outputs.symm.trans hgroup)] at hout
      exact ⟨out, hout⟩
  obtain ⟨s, hs⟩ := hdecodes
  exact GameState.decode_encode (GameState.lt_of_decode_encode hs)

/-- Only the operator of the server matters. -/
theorem Synced.congr (h : Synced start w) (hop : w'.server.operator = w.server.operator)
    (hlive : w'.live = w.live) (hrequests : w'.requests = w.requests) (hqueue : w'.queue = w.queue)
    (hhistory : w'.history = w.history) (hrefused : w'.refused = w.refused) : Synced start w' := by
  obtain ⟨server, live, requests, queue, history, refused⟩ := w'
  subst hlive hrequests hqueue hhistory hrefused
  refine ⟨?_, ?_, ?_, ?_, ?_, h.numbered, h.refusedLt, h.refusedOut, ?_⟩
  · rw [hop]
    exact h.outPoint
  · rw [hop]
    exact h.output
  · rw [hop]
    exact h.state
  · rw [hop]
    exact h.account
  · rw [hop]
    exact h.queue
  · rw [hop]
    exact h.stuck

/-! ### The parts of a request -/

def World.withOperator (w : World) (op : GameOperator) : World :=
  { w with server := { w.server with operator := op } }

/-- The number of the request is given out. -/
theorem Synced.count (h : Synced start w) :
    Synced start { w with requests := w.requests + 1 } where
  outPoint := h.outPoint
  output := h.output
  state := h.state
  account := h.account
  queue := h.queue
  numbered := fun n hn => Nat.lt_succ_of_lt (h.numbered n hn)
  refusedLt := fun n hn => Nat.lt_succ_of_lt (h.refusedLt n hn)
  refusedOut := h.refusedOut
  stuck := h.stuck

/-- A submission is queued. -/
theorem Synced.enqueue {intent : Intent} (h : Synced start w)
    (hok : ((GameOperator.submit intent).call w.server.operator).1.isOk = true) :
    Synced start { w.withOperator (w.server.operator.enqueue intent) with
      queue := w.queue ++ [(w.requests, intent)]
      requests := w.requests + 1 } := by
  have hcount := h.count
  refine ⟨h.outPoint, h.output, h.state, h.account, ?_, ?_, hcount.refusedLt, h.refusedOut, ?_⟩
  · show (w.queue ++ [(w.requests, intent)]).map Prod.snd = w.server.operator.mempool ++ [intent]
    rw [List.map_append, h.queue]
    rfl
  · intro n hn
    rw [← List.append_assoc, List.map_append] at hn
    rcases List.mem_append.mp hn with hn | hn
    · exact Nat.lt_succ_of_lt (h.numbered n hn)
    · rw [List.mem_singleton.mp hn]
      exact Nat.lt_succ_self _
  · intro n hn hqueued
    rw [List.map_append] at hqueued
    rcases List.mem_append.mp hqueued with hqueued | hqueued
    · exact (h.stuck n hn hqueued).enqueue hok
    · -- the new number has not been answered yet
      rw [List.mem_singleton.mp hqueued] at hn
      exact absurd (h.refusedLt _ hn) (Nat.lt_irrefl _)

/-- A submission is answered with an error. -/
theorem Synced.refuse {n : Nat} (h : Synced start w) (hn : n < w.requests)
    (hout : n ∉ w.history.map Prod.fst)
    (hstuck : n ∈ w.queue.map Prod.fst → Stuck w.server.operator) :
    Synced start { w with refused := w.refused ++ [n] } := by
  refine ⟨h.outPoint, h.output, h.state, h.account, h.queue, h.numbered, ?_, ?_, ?_⟩
  · intro k hk
    rcases List.mem_append.mp hk with hk | hk
    · exact h.refusedLt k hk
    · rw [List.mem_singleton.mp hk]
      exact hn
  · intro k hk
    rcases List.mem_append.mp hk with hk | hk
    · exact h.refusedOut k hk
    · rw [List.mem_singleton.mp hk]
      exact hout
  · intro k hk
    rcases List.mem_append.mp hk with hk | hk
    · exact h.stuck k hk
    · rw [List.mem_singleton.mp hk]
      exact hstuck

/-- A refusal is noted, if there is one. -/
theorem Synced.refuseIf {c : Prop} [Decidable c] {n : Nat} (h : Synced start w)
    (hn : n < w.requests) (hout : n ∉ w.history.map Prod.fst)
    (hstuck : c → n ∈ w.queue.map Prod.fst → Stuck w.server.operator) :
    Synced start { w with refused := w.refused ++ if c then [n] else [] } := by
  by_cases hc : c
  · rw [if_pos hc]
    exact h.refuse hn hout (hstuck hc)
  · rw [if_neg hc, List.append_nil]
    exact h

/-- The queue is emptied, and nothing has happened on the node. -/
theorem Synced.shed (h : Synced start w) :
    Synced start { w.withOperator w.server.operator.dropPending with queue := [] } := by
  refine ⟨h.outPoint, h.output, h.state, h.account, rfl, ?_, h.refusedLt, h.refusedOut, ?_⟩
  · intro n hn
    rw [List.append_nil] at hn
    exact h.numbered n (by rw [List.map_append]; exact List.mem_append_left _ hn)
  · intro n _ hqueued
    cases hqueued

/-- The node has taken the transition and said so. -/
theorem Synced.advance {live' : OutPoint × Cell} {signed : Transaction} (h : Synced start w)
    (hbuild : w.server.operator.buildTransition P = .ok t) (hraw : signed.raw = t.tx.raw)
    (htakes : Takes P ty w.live signed live') :
    Synced start { w.withOperator (w.server.operator.advance t (P.txHash signed.raw)) with
      live := live'
      queue := []
      history := w.history ++ w.queue } := by
  obtain ⟨rfl, hdecode⟩ := live_of_takes hbuild hraw htakes
  obtain ⟨-, happly, -⟩ := GameOperator.buildTransition_eq_ok.mp hbuild
  -- the queue was applied on the board of the tip, so the history grows by it
  have hmoves := applyIntents_withSeq start.seq (applyBatch_eq_ok.mp happly).1
  refine ⟨rfl, rfl, hdecode, ?_, rfl, ?_, h.refusedLt, ?_, ?_⟩
  · show start.applyIntents ((w.history ++ w.queue).map Prod.snd) = _
    rw [List.map_append]
    refine applyIntents_append.mpr ⟨_, h.account, ?_⟩
    rw [h.queue]
    exact hmoves
  · intro n hn
    rw [List.append_nil] at hn
    exact h.numbered n hn
  · intro n hn hmem
    rw [List.map_append] at hmem
    rcases List.mem_append.mp hmem with hmem | hmem
    · exact h.refusedOut n hn hmem
    · -- a refused submission is only in a queue that is never sent
      exact (h.stuck n hn hmem).not_built hbuild
  · intro n _ hqueued
    cases hqueued

/-! ### One request -/

/-- `a` is the world after the submission of a request and before its flush. -/
structure Admission (rt : Runtime) (start : GameState) (w : World) (e : Event) (a : World) :
    Prop where
  synced : Synced start a
  flushed : flushed rt w.server e.request = some a.server.operator
  queue : a.queue = w.admitting rt e
  requests : a.requests = w.requests + 1
  live : a.live = w.live
  history : a.history = w.history
  refused : a.refused = w.refused

/-- Between the submission and the flush, every queue entry has a request of its own. -/
theorem Synced.exists_admission (h : Synced start w)
    (hflushed : flushed rt w.server e.request = some op) :
    ∃ a, Admission rt start w e a ∧ a.server.operator = op := by
  rcases flushed_cases hflushed with ⟨body, intent, -, -, hok, hadmitted, rfl⟩ |
    ⟨-, hadmitted, rfl⟩
  · -- an accepted move joins the queue before the flush
    have hadmitting : w.admitting rt e = w.queue ++ [(w.requests, intent)] := by
      unfold World.admitting
      rw [hadmitted]
      rfl
    exact ⟨_, ⟨h.enqueue hok, hflushed, hadmitting.symm, rfl, rfl, rfl, rfl⟩, rfl⟩
  · have hadmitting : w.admitting rt e = w.queue := by
      unfold World.admitting
      rw [hadmitted]
      exact List.append_nil _
    exact ⟨_, ⟨h.count, hflushed, hadmitting.symm, rfl, rfl, rfl, rfl⟩, rfl⟩

/-- The queue of a world whose operator keeps its queue. -/
theorem Synced.queue_if (h : Synced start w) :
    (if w.server.operator.mempool = [] then [] else w.queue) = w.queue := by
  by_cases hempty : w.server.operator.mempool = []
  · rw [if_pos hempty]
    have hqueue := h.queue
    rw [hempty] at hqueue
    exact (List.map_eq_nil_iff.mp hqueue).symm
  · rw [if_neg hempty]

/-- The number of the next request is in no account. -/
theorem Synced.fresh (h : Synced start w) :
    w.requests ∉ w.history.map Prod.fst ∧ w.requests ∉ w.queue.map Prod.fst := by
  constructor
  · intro hmem
    have hold := h.numbered w.requests
      (by rw [List.map_append]; exact List.mem_append_left _ hmem)
    exact Nat.lt_irrefl _ hold
  · intro hmem
    have hold := h.numbered w.requests
      (by rw [List.map_append]; exact List.mem_append_right _ hmem)
    exact Nat.lt_irrefl _ hold

section Admission

variable {a : World} {signed : Transaction}

/-- What the request sends is what the operator signs after the submission. -/
theorem Admission.sentTx (ha : Admission rt start w e a) :
    w.sentTx P rt finalize e = a.server.operator.signedTx P finalize := by
  unfold World.sentTx
  rw [ha.flushed]
  rfl

/-- The request was not answered yet. -/
theorem Admission.fresh (ha : Admission rt start w e a) (h : Synced start w) :
    w.requests < a.requests ∧ w.requests ∉ a.history.map Prod.fst := by
  rw [ha.requests, ha.history]
  exact ⟨Nat.lt_succ_self _, h.fresh.1⟩

/-- The node takes nothing, and the operator ends as `op'` with the queue `queue'`. -/
theorem Admission.step_notTaken (ha : Admission rt start w e a) (h : Synced start w)
    (hstep : w.Step P rt finalize ty e response w') (htaken : w.taken P rt finalize e = false)
    {b : World} (hb : Synced start b) (hop : w'.server.operator = b.server.operator)
    (hqueue : w'.queue = b.queue) (hlive : b.live = a.live) (hrequests : b.requests = a.requests)
    (hhistory : b.history = a.history) (hrefused : b.refused = a.refused)
    (hstuck : e.request.isIntent = true → w.requests ∈ b.queue.map Prod.fst →
      Stuck b.server.operator) : Synced start w' := by
  obtain ⟨hlt, hnew⟩ := ha.fresh h
  rw [← hrequests] at hlt
  rw [← hhistory] at hnew
  have hstuck' : e.request.isIntent ∧ 400 ≤ response.1 → w.requests ∈ b.queue.map Prod.fst →
      Stuck b.server.operator := fun hc => hstuck hc.1
  refine (hb.refuseIf hlt hnew hstuck').congr hop ?_ ?_ hqueue ?_ ?_
  · show w'.live = b.live
    rw [hstep.idle htaken, hlive, ha.live]
  · show w'.requests = b.requests
    rw [hstep.requests, hrequests, ha.requests]
  · show w'.history = b.history
    rw [hstep.history, htaken, hhistory, ha.history]
    exact List.append_nil _
  · show w'.refused = b.refused ++ _
    rw [hstep.refused, hrefused, ha.refused]

/-- Nothing is sent. -/
theorem Admission.step_unsent (ha : Admission rt start w e a) (h : Synced start w)
    (hstep : w.Step P rt finalize ty e response w') (hop : w'.server.operator = a.server.operator)
    (hunsent : a.server.operator.signedTx P finalize = none)
    (hstuck : e.request.isIntent = true → a.server.operator.mempool ≠ [] →
      Stuck a.server.operator) : Synced start w' := by
  have htaken : w.taken P rt finalize e = false := by
    unfold World.taken
    rw [ha.sentTx, hunsent]
    rfl
  have hqueue : w'.queue = a.queue := by
    rw [hstep.queue, hop, ← ha.queue, ha.synced.queue_if]
  refine ha.step_notTaken h hstep htaken ha.synced hop hqueue rfl rfl rfl rfl ?_
  intro hintent hmem
  refine hstuck hintent fun hempty => ?_
  -- a number in the queue stands for an intent in the queue
  have hnil := ha.synced.queue
  rw [hempty] at hnil
  rw [List.map_eq_nil_iff.mp hnil] at hmem
  cases hmem

/-- The node rejects what is sent. -/
theorem Admission.step_rejected (ha : Admission rt start w e a) (h : Synced start w)
    (hstep : w.Step P rt finalize ty e response w')
    (hop : w'.server.operator = a.server.operator.dropPending)
    (hrejected : e.reply.accepts = false) : Synced start w' := by
  have htaken : w.taken P rt finalize e = false := by
    unfold World.taken
    rw [hrejected]
    exact Bool.and_false _
  have hqueue : w'.queue = [] := by
    rw [hstep.queue, hop]
    exact if_pos rfl
  refine ha.step_notTaken h hstep htaken ha.synced.shed hop hqueue rfl rfl rfl rfl ?_
  intro _ hmem
  cases hmem

/-- The node takes what is sent and says so. -/
theorem Admission.step_taken (ha : Admission rt start w e a)
    (hstep : w.Step P rt finalize ty e response w')
    (hbuild : a.server.operator.buildTransition P = .ok t) (hfinal : finalize t.tx = .ok signed)
    (hraw : signed.raw = t.tx.raw)
    (hop : w'.server.operator = a.server.operator.advance t (P.txHash signed.raw))
    (haccepts : e.reply.accepts = true) (hok : response.1 < 400) : Synced start w' := by
  have hsent : w.sentTx P rt finalize e = some signed :=
    ha.sentTx.trans (signedTx_eq_some hbuild hfinal)
  have htaken : w.taken P rt finalize e = true := by
    unfold World.taken
    rw [hsent, haccepts]
    rfl
  -- the node spent the live cell with this very transaction
  have htakes := hstep.node signed hsent haccepts
  rw [← ha.live] at htakes
  refine (ha.synced.advance hbuild hraw htakes).congr hop rfl ?_ ?_ ?_ ?_
  · show w'.requests = a.requests
    rw [hstep.requests, ha.requests]
  · show w'.queue = []
    rw [hstep.queue, hop]
    exact if_pos rfl
  · show w'.history = a.history ++ a.queue
    rw [hstep.history, htaken, ha.history, ha.queue]
    rfl
  · show w'.refused = a.refused
    rw [hstep.refused, if_neg fun hc => Nat.not_lt.mpr hc.2 hok, ha.refused]
    exact List.append_nil _

end Admission

/-- Nothing is flushed: at most the number is given out and answered. -/
theorem Synced.step_idle (h : Synced start w) (hstep : w.Step P rt finalize ty e response w')
    (hflushed : flushed rt w.server e.request = none)
    (hadmitted : admitted rt w.server e.request = none)
    (hop : w'.server.operator = w.server.operator) : Synced start w' := by
  have htaken : w.taken P rt finalize e = false := by
    unfold World.taken World.sentTx
    rw [hflushed]
    rfl
  have hqueue : w'.queue = w.queue := by
    rw [hstep.queue, hop, World.admitting, hadmitted]
    show (if w.server.operator.mempool = [] then [] else w.queue ++ []) = w.queue
    rw [List.append_nil, h.queue_if]
  have hhistory : w'.history = w.history := by
    rw [hstep.history, htaken]
    exact List.append_nil _
  obtain ⟨hnew, hnotQueued⟩ := h.fresh
  exact (h.count.refuseIf (Nat.lt_succ_self _) hnew fun _ hmem => absurd hmem hnotQueued).congr
    hop (hstep.idle htaken) hstep.requests hqueue hhistory hstep.refused

/-- **One request** whose transaction is not both taken and lost keeps operator and chain in
step. -/
theorem Synced.step (hraw : ∀ tx signed, finalize tx = .ok signed → signed.raw = tx.raw)
    (h : Synced start w) (hstep : w.Step P rt finalize ty e response w')
    (hclean : w.Clean P rt finalize e) : Synced start w' := by
  rcases operator_serve hstep.served with ⟨hnone, hadmitted, hop⟩ |
    ⟨op, result, hflushed, houtcome, hstatus⟩
  · exact h.step_idle hstep hnone hadmitted hop
  · -- `a` is the world between the submission and the flush
    obtain ⟨a, ha, rfl⟩ := h.exists_admission hflushed
    generalize hop : w'.server.operator = op' at houtcome
    cases houtcome with
    | notBuilt hbuild =>
      exact ha.step_unsent h hstep hop (signedTx_of_not_built hbuild)
        fun _ hne => stuck_of_not_built hne hbuild
    | notFinalized hbuild hfinal =>
      exact ha.step_unsent h hstep hop (signedTx_of_not_finalized hbuild hfinal)
        fun hintent _ => absurd hfinal (hclean.finalized hintent _ _ _ hflushed hbuild)
    | @shed t signed message hbuild hfinal hsend =>
      have hsent : w.sentTx P rt finalize e = some signed :=
        ha.sentTx.trans (signedTx_eq_some hbuild hfinal)
      refine ha.step_rejected h hstep hop ?_
      -- an error that is not a lost answer is a rejection
      rcases Reply.answer_eq_error hsend with hreply | hreply
      · rw [hreply]
        rfl
      · exact absurd hreply (hclean.answered signed message hsent)
    | @advanced t signed txHash hbuild hfinal hsend =>
      obtain ⟨hreply, rfl⟩ := Reply.answer_eq_ok.mp hsend
      have haccepts : e.reply.accepts = true := by
        rw [hreply]
        rfl
      exact ha.step_taken hstep hbuild hfinal (hraw _ _ hfinal) hop haccepts (hstatus.mpr rfl)

end Invariant

/-! ## Runs -/

section Runs

variable (P : Platform) (rt : Runtime) (finalize : Transaction → Except String Transaction)
  (ty : Script)

def World.start (server : Server) (live : OutPoint × Cell) : World :=
  { server, live, requests := 0, queue := [], history := [], refused := [] }

def CleanStep (w : World) (label : Event × Response) (w' : World) : Prop :=
  w.Step P rt finalize ty label.1 label.2 w' ∧ w.Clean P rt finalize label.1

/-- **The tip is the live cell.** Start with a tip that is the live game cell and an empty queue.
In every run of requests in which no answer of the node is lost and no flush of a `POST /intent`
fails to be finalized, the operator's tip is the live game cell: its out point, its output and its
board. The live board is the initial one with the moves of the history, and no submission that was
answered with an error status is in the history. -/
theorem tip_is_live (hraw : ∀ tx signed, finalize tx = .ok signed → signed.raw = tx.raw)
    (server : Server) (live : OutPoint × Cell) (hempty : server.operator.mempool = [])
    (houtPoint : live.1 = server.operator.tip.outPoint)
    (houtput : live.2.output = server.operator.tip.output)
    (hstate : GameState.decode live.2.data = .ok server.operator.tip.state)
    (labels : List (Event × Response)) (w : World)
    (h : Trace (CleanStep P rt finalize ty) (.start server live) labels w) :
    (w.server.operator.tip.outPoint = w.live.1 ∧ w.server.operator.tip.output = w.live.2.output ∧
      GameState.decode w.live.2.data = .ok w.server.operator.tip.state) ∧
    (∃ s, server.operator.tip.state.applyIntents (w.history.map Prod.snd) = .ok s ∧
      s.players = w.server.operator.tip.state.players) ∧
    ∀ n ∈ w.refused, n ∉ w.history.map Prod.fst := by
  -- an empty queue, an empty history and nothing refused
  have hstart : Synced server.operator.tip.state (.start server live) := by
    refine ⟨houtPoint, houtput, hstate, rfl, hempty.symm, ?_, ?_, ?_, ?_⟩
    · intro n hn
      cases hn
    · intro n hn
      cases hn
    · intro n hn
      cases hn
    · intro n hn
      cases hn
  have hsynced : Synced server.operator.tip.state w := by
    refine h.invariant (fun _ w => Synced server.operator.tip.state w) hstart ?_
    rintro _ w label w' hw ⟨hstep, hclean⟩
    exact hw.step hraw hstep hclean
  exact ⟨⟨hsynced.outPoint.symm, hsynced.output.symm, hsynced.state⟩,
    ⟨_, hsynced.account, rfl⟩, hsynced.refusedOut⟩

end Runs

/-! ### A move that is acknowledged, and a move whose answer is lost -/

section Sample

variable {rt : Runtime} {body : String} {m : Moment}

/-- The game cell after the first move. -/
def movedCell : OutPoint × Cell :=
  (⟨Platform.sample.txHash (longTransition 1).tx.raw, 0⟩, (longTransition 1).nextCell)

theorem build_move : (longOperator 1).buildTransition .sample = .ok (longTransition 1) :=
  buildTransition_long 0 (by decide)

theorem takes_move : Takes .sample sampleGame (sampleOutPoint, gameCell []) (longTransition 1).tx
    movedCell := by
  refine ⟨(longOperator 1).resolved (longTransition 1) (gameCell []), rfl, ?_, ?_, ?_, ?_⟩
  · exact List.mem_singleton.mpr rfl
  · exact ((resolves_long 1).verify_iff (Platform.readsWitnesses_molecule _ _) build_move
      (signed_long 1)).mpr ⟨by decide, by decide⟩
  · exact List.mem_singleton.mpr rfl
  · exact Vm.carries_of_type rfl

def sampleServer : Server := .start (longOperator 0) []

def sampleWorld : World := .start sampleServer (sampleOutPoint, gameCell [])

/-- `POST /intent` with the first move, and the log file not writable. -/
def moveEvent (body : String) (reply : Reply) : Event :=
  ⟨⟨1700000000, false⟩, .intent body, reply⟩

theorem admitted_move (h : intentOf rt body = .ok (restMove 0)) :
    admitted rt sampleServer (.intent body) = some (restMove 0) :=
  admitted_intent h (congrArg (fun out => out.1.isOk) (submit_restMove 0 (by decide)))

theorem sentTx_move (h : intentOf rt body = .ok (restMove 0)) (reply : Reply) :
    sampleWorld.sentTx .sample rt .ok (moveEvent body reply) = some (longTransition 1).tx := by
  show ((admitted rt sampleServer (.intent body)).map _).bind _ = _
  rw [admitted_move h]
  exact signedTx_eq_some build_move rfl

theorem admitting_move (h : intentOf rt body = .ok (restMove 0)) (reply : Reply) :
    sampleWorld.admitting rt (moveEvent body reply) = [(0, restMove 0)] := by
  show [] ++ ((admitted rt sampleServer (.intent body)).map _).toList = _
  rw [admitted_move h]
  rfl

def moveResponse (rt : Runtime) (op : GameOperator) : Except OperatorError Byte32 → Response
  | .ok txHash => (200, flushedBody op txHash)
  | .error e => failed rt e

theorem serve_move (h : intentOf rt body = .ok (restMove 0))
    {sendTransaction : Transaction → Except String Byte32} {result : Except OperatorError Byte32}
    {op : GameOperator}
    (hflush : flushOrShed .sample sendTransaction .ok (longOperator 1) = (result, op)) :
    sampleServer.serve .sample rt sendTransaction .ok ⟨1700000000, false⟩ (.intent body) =
      some (moveResponse rt op result, { sampleServer with operator := op }) := by
  have hsubmit : (GameOperator.submit (restMove 0)).call sampleServer.operator =
      (.ok (), longOperator 1) := submit_restMove 0 (by decide)
  have hhandle : handleIntent .sample rt ⟨1700000000, false⟩ sendTransaction .ok
      sampleServer.operator sampleServer.results body = (moveResponse rt op result, op, []) := by
    unfold handleIntent
    simp only [h, hsubmit, hflush]
    cases result <;> rfl
  rw [Server.serve_intent, hhandle]
  rfl

def movedWorld (response : Response) (op : GameOperator) : World where
  server := { sampleServer with operator := op }
  live := movedCell
  requests := 1
  queue := []
  history := [(0, restMove 0)]
  refused := if 400 ≤ response.1 then [0] else []

/-- One step of the sample, for either answer of a node that takes the move. -/
theorem step_move (h : intentOf rt body = .ok (restMove 0)) {reply : Reply} {response : Response}
    {op : GameOperator} (hserved : sampleServer.serve .sample rt (reply.answer .sample) .ok
      ⟨1700000000, false⟩ (.intent body) =
        some (response, { sampleServer with operator := op }))
    (haccepts : reply.accepts = true) (hempty : op.mempool = []) :
    sampleWorld.Step .sample rt .ok sampleGame (moveEvent body reply) response
      (movedWorld response op) where
  served := hserved
  node := by
    intro tx htx _
    rw [sentTx_move h] at htx
    cases htx
    exact takes_move
  idle := by
    intro htaken
    unfold World.taken at htaken
    rw [sentTx_move h] at htaken
    exact absurd (htaken.symm.trans haccepts) Bool.false_ne_true
  requests := rfl
  queue := (if_pos hempty).symm
  history := by
    have htaken : sampleWorld.taken .sample rt .ok (moveEvent body reply) = true := by
      unfold World.taken
      rw [sentTx_move h]
      exact haccepts
    rw [htaken, admitting_move h]
    rfl
  refused := by
    show (if 400 ≤ response.1 then [0] else []) =
      [] ++ if true = true ∧ 400 ≤ response.1 then [0] else []
    rw [List.nil_append]
    simp

theorem step_lost (h : intentOf rt body = .ok (restMove 0)) (message : String) :
    sampleWorld.Step .sample rt .ok sampleGame (moveEvent body (.lost message))
      (failed rt (.rpc message))
      (movedWorld (failed rt (.rpc message)) (longOperator 0)) := by
  have hflush : flushOrShed .sample ((Reply.lost message).answer .sample) .ok (longOperator 1) =
      (.error (.rpc message), longOperator 0) := by
    unfold flushOrShed
    rw [GameOperator.flush_notSent build_move rfl rfl]
    rfl
  exact step_move h (serve_move h hflush) rfl rfl

def acknowledgedOperator : GameOperator :=
  (longOperator 1).advance (longTransition 1) movedCell.1.txHash

theorem step_acknowledged (h : intentOf rt body = .ok (restMove 0)) :
    sampleWorld.Step .sample rt .ok sampleGame (moveEvent body .acknowledged)
      (200, flushedBody acknowledgedOperator movedCell.1.txHash)
      (movedWorld (200, flushedBody acknowledgedOperator movedCell.1.txHash)
        acknowledgedOperator) := by
  have hflush : flushOrShed .sample (Reply.acknowledged.answer .sample) .ok (longOperator 1) =
      (.ok movedCell.1.txHash, acknowledgedOperator) := by
    unfold flushOrShed
    rw [GameOperator.flush_sent build_move rfl rfl]
    rfl
  exact step_move h (serve_move h hflush) rfl rfl

/-! The request of the sample, and the libraries' answers on it. -/

def moveBody : String := "\x7b\"intent\":\"0x" ++ Hex.hexEncode (restMove 0).encode ++ "\"\x7d"

def sampleRuntime : Runtime where
  fromStr _ := .ok (.object [("intent", .string ("0x" ++ Hex.hexEncode (restMove 0).encode))])
  hexDecode _ := .ok (restMove 0).encode
  debugError _ := "Rpc(\"timed out\")"
  debugGameError _ := "BatchMalformed"

theorem intentOf_moveBody : intentOf sampleRuntime moveBody = .ok (restMove 0) :=
  eq_ok_of_toOption (by decide +kernel)

def lostResponse : Response := failed sampleRuntime (.rpc "timed out")

def lostWorld : World := movedWorld lostResponse (longOperator 0)

/-- The answer to the first move is lost: the client is told that it failed, the operator stays at
the old tip, and the move is in the live cell. -/
theorem lost_reply_orphans_tip :
    sampleWorld.Step .sample sampleRuntime .ok sampleGame (moveEvent moveBody (.lost "timed out"))
        lostResponse lostWorld ∧
      sampleWorld.server.operator.tip.outPoint = sampleWorld.live.1 ∧
      GameState.decode sampleWorld.live.2.data = .ok sampleWorld.server.operator.tip.state ∧
      lostResponse.1 = 502 ∧ lostWorld.refused = [0] ∧ 0 ∈ lostWorld.history.map Prod.fst ∧
      lostWorld.server.operator.tip.outPoint ≠ lostWorld.live.1 ∧
      GameState.decode lostWorld.live.2.data ≠ .ok lostWorld.server.operator.tip.state := by
  refine ⟨step_lost intentOf_moveBody "timed out", rfl, rfl, rfl, rfl, by decide, ?_, ?_⟩
  · decide +kernel
  · decide +kernel

theorem tip_is_live_one_move :
    let w := movedWorld (200, flushedBody acknowledgedOperator movedCell.1.txHash)
      acknowledgedOperator
    (w.server.operator.tip.outPoint = w.live.1 ∧ w.server.operator.tip.output = w.live.2.output ∧
      GameState.decode w.live.2.data = .ok w.server.operator.tip.state) ∧
    (∃ s, sampleServer.operator.tip.state.applyIntents (w.history.map Prod.snd) = .ok s ∧
      s.players = w.server.operator.tip.state.players) ∧
    ∀ n ∈ w.refused, n ∉ w.history.map Prod.fst := by
  have hclean : sampleWorld.Clean .sample sampleRuntime .ok (moveEvent moveBody .acknowledged) := by
    refine ⟨?_, ?_⟩
    · intro _ _ _ h
      cases h
    · intro _ _ _ _ _ _ h
      cases h
  have hraw : ∀ tx signed, Except.ok tx = (Except.ok signed : Except String Transaction) →
      signed.raw = tx.raw := by
    intro tx signed h
    cases h
    rfl
  exact tip_is_live .sample sampleRuntime .ok sampleGame hraw sampleServer
    (sampleOutPoint, gameCell []) rfl rfl rfl rfl [(moveEvent moveBody .acknowledged, _)] _
    (.single ⟨step_acknowledged intentOf_moveBody, hclean⟩)

end Sample

end CkbController.PaymasterService
