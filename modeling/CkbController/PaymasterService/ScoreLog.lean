import CkbController.PaymasterService.OperatorNode

/-!
# Scores in the results log

Whether a move is logged is decided by the request that submitted it, and only if that request
also applies it. A move whose flush failed before the transaction was sent stays in the queue, so a
later request can apply it: a `POST /flush` logs nothing, and a later `POST /intent` logs its own
move only. `score_log_complete_iff` makes this exact: what a run appends to the log is the history
of its moves exactly when no request applied what an earlier one had left in the queue.

The history is kept beside the server: one `Played` for each transition the node acknowledged.
-/

namespace CkbController.PaymasterService.GameServer

open ByteCodec Checks GameRules Hex

/-! ## The history of the moves -/

/-- What a request meets outside of the server. -/
structure Outside where
  finalize : Transaction → Except String Transaction
  sendTransaction : Transaction → Except String Byte32

/-- A transition that was applied to the tip: its batch, the sequence number after it and its
transaction. -/
structure Played where
  intents : List Intent
  seq : U64
  txHash : Byte32

/-- What a flush of `op` applies. -/
def playedBy (P : Platform) (out : Outside) (op : GameOperator) : Option Played :=
  match flushOrShed P out.sendTransaction out.finalize op with
  | (.ok txHash, op') => some ⟨op.mempool, op'.tip.state.seq, txHash⟩
  -- the queue may be kept or shed, but the tip stays
  | (.error _, _) => none

structure Recorded where
  server : Server
  played : List Played

def Recorded.start (operator : GameOperator) (log : ResultsLog) : Recorded :=
  ⟨.start operator log, []⟩

/-- What the request applies. -/
def plays (P : Platform) (rt : Runtime) (s : Server) (request : Request) (out : Outside) :
    Option Played :=
  (flushed rt s request).bind (playedBy P out)

/-- The server handles a request, and the log can be written. -/
def Records (P : Platform) (rt : Runtime) (w : Recorded) (label : Moment × Request × Outside)
    (w' : Recorded) : Prop :=
  label.1.logWritten = true ∧
    (∃ response, w.server.serve P rt label.2.2.sendTransaction label.2.2.finalize label.1
      label.2.1 = some (response, w'.server)) ∧
    w'.played = w.played ++ (plays P rt w.server label.2.1 label.2.2).toList

/-- A request that applies anything finds the queue empty. -/
def Fresh (P : Platform) (rt : Runtime) (w : Recorded) (label : Moment × Request × Outside) :
    Prop :=
  ∀ p, plays P rt w.server label.2.1 label.2.2 = some p → w.server.operator.mempool = []

/-! ## The score events of the log -/

structure Score where
  player : String
  points : U64
  seq : U64
  txHash : String
deriving DecidableEq

/-- A `score` event, read back. -/
def scoreOf (event : Json) : Option Score := do
  let kind ← (event.get "kind").bind Json.asStr
  if kind = "score" then
    let player ← (event.get "player").bind Json.asStr
    let points ← (event.get "points").bind Json.asU64
    let seq ← (event.get "seq").bind Json.asU64
    let txHash ← (event.get "tx_hash").bind Json.asStr
    some { player, points, seq, txHash }
  else none

def scores (log : ResultsLog) : List Score := log.filterMap scoreOf

/-- The score of a move in a transition. -/
def Played.score (p : Played) (intent : Intent) : Score :=
  ⟨"0x" ++ hexEncode intent.hash.toList, intent.points, p.seq, txHashText p.txHash⟩

def Played.scores (p : Played) : List Score := p.intents.map p.score

/-- After the log that was found at the start there is one score for each move that was applied,
with the sequence number and the transaction of its transition. -/
def Complete (log : ResultsLog) (w : Recorded) : Prop :=
  ∃ lines, w.server.results = log ++ lines ∧
    (scores lines).Perm (w.played.flatMap Played.scores)

section Events

variable {m : Moment} {log : ResultsLog}

/-- A score event is read back as the score of its intent in the transition that has it. -/
theorem scoreOf_score (p : Played) (intent : Intent) :
    scoreOf (scoreEvent m intent p.seq p.txHash) = some (p.score intent) := by
  simp [scoreOf, scoreEvent, Played.score, Json.asStr, Json.asU64]

theorem scoreOf_published (id : U64) (fields : PublishFields) :
    scoreOf (publishedEvent m id fields) = none := by
  simp [scoreOf, publishedEvent, Json.asStr]

theorem scoreOf_paid (seq : U64) (inv : RelayInvoice) : scoreOf (paidEvent m seq inv) = none := by
  simp [scoreOf, paidEvent, Json.asStr]

theorem scores_concat (log lines : ResultsLog) :
    scores (log ++ lines) = scores log ++ scores lines :=
  List.filterMap_append

/-- An event that is written adds its score, if it is one. -/
theorem scores_append (h : m.logWritten = true) (event : Json) :
    scores (log.append m event) = scores log ++ (scoreOf event).toList := by
  unfold scores ResultsLog.append
  rw [if_pos h, List.filterMap_append]
  cases hevent : scoreOf event with
  | none => rw [List.filterMap_cons_none hevent]; rfl
  | some score => rw [List.filterMap_cons_some hevent]; rfl

end Events

/-! ## One request -/

section Serve

variable {P : Platform} {rt : Runtime} {m : Moment} {out : Outside} {s s' : Server}
  {request : Request} {response : Response} {body : String}

/-- The batch a request applies is what the queue held, and the request's own move after it. -/
theorem intents_of_plays {p : Played} (h : plays P rt s request out = some p) :
    p.intents = s.operator.mempool ++ (admitted rt s request).toList := by
  unfold plays at h
  obtain ⟨op, hop, hp⟩ := Option.bind_eq_some_iff.mp h
  have hbatch : p.intents = op.mempool := by
    unfold playedBy at hp
    rcases hflush : flushOrShed P out.sendTransaction out.finalize op with ⟨e | txHash, op'⟩
    · rw [hflush] at hp
      cases hp
    · rw [hflush] at hp
      cases hp
      rfl
  rw [hbatch]
  rcases flushed_cases hop with ⟨body, intent, -, -, -, hadmitted, rfl⟩ | ⟨-, hadmitted, rfl⟩
  · -- the move was appended to the queue before the flush
    rw [hadmitted]
    rfl
  · rw [hadmitted]
    exact (List.append_nil _).symm

/-- What a request adds to the scores of the log: its own move, if it applies anything. -/
def logged (P : Platform) (rt : Runtime) (s : Server) (request : Request) (out : Outside) :
    List Score :=
  match plays P rt s request out with
  | none => []
  | some p => (admitted rt s request).toList.map p.score

/-- `POST /intent` adds one score at most: that of its own intent, once the flush has succeeded. -/
theorem scores_intent (hwritten : m.logWritten = true) :
    scores (handleIntent P rt m out.sendTransaction out.finalize s.operator s.results body).2.2 =
      scores s.results ++ logged P rt s (.intent body) out := by
  unfold logged plays
  cases hintent : intentOf rt body with
  | error message =>
    have hnone : admitted rt s (.intent body) = none := by
      refine admitted_intent_none fun intent h => ?_
      cases hintent.symm.trans h
    unfold handleIntent flushed
    simp only [hintent, hnone, Option.map_none, Option.bind_none, List.append_nil]
  | ok intent =>
    rcases GameOperator.submit_cases s.operator intent with ⟨e, hcall, -⟩ | ⟨_, _, -, -, hcall⟩
    · -- the queue rejects the move, so nothing is flushed
      have hnone : admitted rt s (.intent body) = none := by
        refine admitted_intent_none fun intent' h => ?_
        cases hintent.symm.trans h
        rw [hcall]
        rfl
      unfold handleIntent flushed
      simp only [hintent, hcall, hnone, Option.map_none, Option.bind_none, List.append_nil]
    · have hsome : admitted rt s (.intent body) = some intent :=
        admitted_intent hintent (by rw [hcall]; rfl)
      unfold handleIntent flushed
      simp only [hintent, hcall, hsome, Option.map_some, Option.bind_some]
      unfold playedBy
      rcases hflush : flushOrShed P out.sendTransaction out.finalize (s.operator.enqueue intent)
        with ⟨e | txHash, op'⟩
      · simp only [List.append_nil]
      · -- applied: the one event is this move's
        rw [scores_append hwritten,
          scoreOf_score ⟨(s.operator.enqueue intent).mempool, op'.tip.state.seq, txHash⟩ intent]
        rfl

/-- The event of a published invoice is no score. -/
theorem scores_publishInvoice {relay relay' : Relay} {log log' : ResultsLog}
    (hwritten : m.logWritten = true)
    (h : handlePublishInvoice rt m relay log body = some (response, relay', log')) :
    scores log' = scores log := by
  unfold handlePublishInvoice at h
  cases hfields : publishFields rt body with
  | error message =>
    rw [hfields] at h
    cases h
    rfl
  | ok fields =>
    rw [hfields] at h
    obtain ⟨⟨number, relay''⟩, -, heq⟩ := Option.bind_eq_some_iff.mp h
    cases heq
    show scores (log.append m (publishedEvent m number fields)) = scores log
    rw [scores_append hwritten, scoreOf_published]
    exact List.append_nil _

/-- Nor is the event of an invoice that was paid. -/
theorem scores_markPaid (hwritten : m.logWritten = true) (relay : Relay) (log : ResultsLog)
    (seq : U64) (body : String) :
    scores (handleMarkPaid rt m relay log seq body).2.2 = scores log := by
  unfold handleMarkPaid
  cases paidId rt body with
  | error message => rfl
  | ok id =>
    cases hmark : relay.markPaid id with
    | none => simp only [hmark]
    | some paid =>
      simp only [hmark]
      rw [scores_append hwritten, scoreOf_paid]
      exact List.append_nil _

theorem logged_eq_nil (h : flushed rt s request = none) : logged P rt s request out = [] := by
  unfold logged plays
  rw [h]
  rfl

/-- A flush without a move of its own logs nothing. -/
theorem logged_flush : logged P rt s .flush out = [] := by
  unfold logged
  split
  · rfl
  · rfl

/-- What a request appends to the scores of the log. -/
theorem scores_serve (hwritten : m.logWritten = true)
    (h : s.serve P rt out.sendTransaction out.finalize m request = some (response, s')) :
    scores s'.results = scores s.results ++ logged P rt s request out := by
  cases request with
  | intent body =>
    cases h
    exact scores_intent hwritten
  -- a flush logs no score, whatever it applies
  | flush =>
    cases h
    rw [logged_flush, List.append_nil]
  -- the other events are no score
  | publishInvoice body =>
    rw [Server.serve_publishInvoice] at h
    obtain ⟨⟨response', relay', results'⟩, hhandle, heq⟩ := Option.bind_eq_some_iff.mp h
    cases heq
    rw [logged_eq_nil rfl, List.append_nil]
    exact scores_publishInvoice hwritten hhandle
  | invoicePaid body =>
    rw [Server.serve_invoicePaid] at h
    cases h
    rw [logged_eq_nil rfl, List.append_nil]
    exact scores_markPaid hwritten s.relay s.results s.operator.tip.state.seq body
  | health =>
    cases h
    rw [logged_eq_nil rfl, List.append_nil]
  | game =>
    cases h
    rw [logged_eq_nil rfl, List.append_nil]
  | nextInvoice payer =>
    cases h
    rw [logged_eq_nil rfl, List.append_nil]
  | results n =>
    cases h
    rw [logged_eq_nil rfl, List.append_nil]
  | other =>
    cases h
    rw [logged_eq_nil rfl, List.append_nil]

/-- What a flush has played is the queue it found, in the transition it sent. -/
theorem playedBy_eq_some {op : GameOperator} {p : Played} (h : playedBy P out op = some p) :
    ∃ op', Flushed P out.sendTransaction out.finalize op (.ok p.txHash) op' ∧
      (flushOrShed P out.sendTransaction out.finalize op).2 = op' ∧ p.intents = op.mempool ∧
      p.seq = op'.tip.state.seq := by
  have hflushed := @flushed_flushOrShed P out.sendTransaction out.finalize op
  unfold playedBy at h
  rcases hflush : flushOrShed P out.sendTransaction out.finalize op with ⟨e | txHash, op'⟩
  · rw [hflush] at h
    cases h
  · rw [hflush] at h hflushed
    cases h
    exact ⟨op', hflushed, rfl, rfl, rfl⟩

/-- A flush that has played nothing leaves the tip. -/
theorem tip_of_playedBy_none {op : GameOperator} (h : playedBy P out op = none) :
    (flushOrShed P out.sendTransaction out.finalize op).2.tip = op.tip := by
  have hflushed := @flushed_flushOrShed P out.sendTransaction out.finalize op
  unfold playedBy at h
  rcases hflush : flushOrShed P out.sendTransaction out.finalize op with ⟨e | txHash, op'⟩
  · rw [hflush] at hflushed
    exact hflushed.tip_of_error
  · rw [hflush] at h
    cases h

/-- A flush is the last thing a request does to the operator. -/
theorem operator_of_flushed {op : GameOperator}
    (h : s.serve P rt out.sendTransaction out.finalize m request = some (response, s'))
    (hop : flushed rt s request = some op) :
    s'.operator = (flushOrShed P out.sendTransaction out.finalize op).2 ∧
      op.tip = s.operator.tip := by
  rcases flushed_cases hop with ⟨body, intent, rfl, hintent, hok, -, rfl⟩ | ⟨rfl, -, rfl⟩
  · cases h
    refine ⟨?_, rfl⟩
    show (handleIntent P rt m out.sendTransaction out.finalize s.operator s.results body).2.1 = _
    -- a move that was flushed was accepted first
    rcases GameOperator.submit_cases s.operator intent with ⟨e, hcall, -⟩ | ⟨_, _, -, -, hcall⟩
    · rw [hcall] at hok
      cases hok
    · unfold handleIntent
      simp only [hintent, hcall]
      rcases flushOrShed P out.sendTransaction out.finalize (s.operator.enqueue intent) with
        ⟨e | txHash, op'⟩
      · rfl
      · rfl
  · cases h
    refine ⟨?_, rfl⟩
    show (handleFlush P rt out.sendTransaction out.finalize s.operator).2 = _
    unfold handleFlush
    rcases flushOrShed P out.sendTransaction out.finalize s.operator with ⟨e | txHash, op'⟩
    · rfl
    · rfl

/-- What a request applies takes the board of the tip to the one of the new tip. -/
theorem plays_replays
    (h : s.serve P rt out.sendTransaction out.finalize m request = some (response, s')) :
    (plays P rt s request out).toList.foldlM (fun state p => state.applyBatch p.intents)
      s.operator.tip.state = .ok s'.operator.tip.state := by
  unfold plays
  cases hop : flushed rt s request with
  | none =>
    rcases operator_serve h with ⟨-, -, hsame⟩ | ⟨op, -, hsome, -⟩
    · rw [hsame]
      rfl
    · rw [hop] at hsome
      cases hsome
  | some op =>
    obtain ⟨hlast, htip⟩ := operator_of_flushed h hop
    rw [Option.bind_some, hlast, ← htip]
    cases hp : playedBy P out op with
    | none =>
      rw [tip_of_playedBy_none hp]
      rfl
    | some p =>
      obtain ⟨op', hflushed, heq, hintents, -⟩ := playedBy_eq_some hp
      rw [heq]
      show (op.tip.state.applyBatch p.intents).bind pure = _
      rw [hintents, hflushed.applyBatch]
      rfl

end Serve

/-! ## Runs -/

section Runs

variable {P : Platform} {rt : Runtime} {operator : GameOperator} {log : ResultsLog}
  {w w' : Recorded} {label : Moment × Request × Outside}
  {labels : List (Moment × Request × Outside)}

theorem Played.length_scores (p : Played) : p.scores.length = p.intents.length :=
  List.length_map _

/-- What a request applies and does not log is what it found in the queue. -/
theorem Records.missed (h : Records P rt w label w') :
    ∃ missed, (GameServer.scores w'.server.results).length +
        (w.played.flatMap Played.scores).length + missed =
      (GameServer.scores w.server.results).length + (w'.played.flatMap Played.scores).length ∧
      (missed = 0 ↔ Fresh P rt w label) := by
  obtain ⟨hwritten, ⟨response, hserve⟩, hplayed⟩ := h
  rw [scores_serve hwritten hserve, hplayed, logged]
  cases hp : plays P rt w.server label.2.1 label.2.2 with
  | none =>
    refine ⟨0, by simp, iff_of_true rfl fun p h => ?_⟩
    rw [hp] at h
    cases h
  | some p =>
    have hintents := congrArg List.length (intents_of_plays hp)
    refine ⟨w.server.operator.mempool.length, ?_, ?_⟩
    · rw [Option.toList_some, List.flatMap_append, List.flatMap_singleton]
      simp only [List.length_append, List.length_map, Played.length_scores] at hintents ⊢
      omega
    · rw [List.length_eq_zero_iff]
      exact ⟨fun h _ _ => h, fun h => h p hp⟩

/-- A complete log has as many scores as were played since the start. -/
theorem Complete.length_eq (h : Complete log w) : (GameServer.scores w.server.results).length =
    (GameServer.scores log).length + (w.played.flatMap Played.scores).length := by
  obtain ⟨lines, hlines, hperm⟩ := h
  rw [hlines, scores_concat, List.length_append, hperm.length_eq]

theorem complete_start (operator : GameOperator) (log : ResultsLog) :
    Complete log (.start operator log) :=
  ⟨[], (List.append_nil log).symm, List.Perm.refl _⟩

/-- A fresh request logs what it applies. -/
theorem Records.complete (h : Records P rt w label w') (hfresh : Fresh P rt w label)
    (hcomplete : Complete log w) : Complete log w' := by
  obtain ⟨hwritten, ⟨response, hserve⟩, hplayed⟩ := h
  obtain ⟨lines, hlines, hperm⟩ := hcomplete
  obtain ⟨new, hnew⟩ := Server.prefix_serve hserve
  -- the new lines are what the request appends
  have hscores : GameServer.scores new = logged P rt w.server label.2.1 label.2.2 := by
    have hserved := scores_serve hwritten hserve
    rw [← hnew, scores_concat] at hserved
    exact List.append_cancel_left hserved
  refine ⟨lines ++ new, by rw [← hnew, hlines, List.append_assoc], ?_⟩
  rw [scores_concat, hplayed, List.flatMap_append]
  refine hperm.append (List.Perm.of_eq ?_)
  rw [hscores]
  unfold logged
  cases hp : plays P rt w.server label.2.1 label.2.2 with
  | none => rfl
  | some p =>
    have hintents := intents_of_plays hp
    rw [hfresh p hp, List.nil_append] at hintents
    rw [Option.toList_some, List.flatMap_singleton, Played.scores, hintents]

/-- Either every request so far was fresh and the log is complete, or a move is missing for good. -/
theorem complete_or_short (run : Trace (Records P rt) (.start operator log) labels w) :
    (Trace (fun w label w' => Records P rt w label w' ∧ Fresh P rt w label) (.start operator log)
        labels w ∧ Complete log w) ∨
      (GameServer.scores w.server.results).length <
        (GameServer.scores log).length + (w.played.flatMap Played.scores).length := by
  -- a log that has fallen behind never catches up: no request logs more than it applies
  induction run with
  | nil => exact Or.inl ⟨.nil, complete_start operator log⟩
  | @snoc labels w w' label run step ih =>
    obtain ⟨missed, hmissed, hfresh_iff⟩ := step.missed
    rcases ih with ⟨hrun, hcomplete⟩ | hshort
    · have hlength := hcomplete.length_eq
      by_cases hfresh : Fresh P rt w label
      · exact Or.inl ⟨hrun.snoc ⟨step, hfresh⟩, step.complete hfresh hcomplete⟩
      · -- something is missed, and what was logged so far is all there was
        have hpos : missed ≠ 0 := fun hzero => hfresh (hfresh_iff.mp hzero)
        exact Or.inr (by omega)
    · exact Or.inr (by omega)

/-- The history is what the tip has become: each batch in turn, applied to the board. -/
def Replays (operator : GameOperator) (w : Recorded) : Prop :=
  w.played.foldlM (fun state p => state.applyBatch p.intents) operator.tip.state =
    .ok w.server.operator.tip.state

/-- The tip goes on being made of what was played. -/
theorem Records.replays (h : Records P rt w label w') (hreplays : Replays operator w) :
    Replays operator w' := by
  obtain ⟨-, ⟨response, hserve⟩, hplayed⟩ := h
  unfold Replays at hreplays ⊢
  rw [hplayed, List.foldlM_append, hreplays]
  exact plays_replays hserve

/-- **The score log.** In every run of requests with a log that can be written, over whatever log
it found: the history is what the board of the tip was made of, and what the run has appended to
the log has exactly its scores as long as no request applied what an earlier one had left in the
queue. -/
theorem score_log_complete_iff (P : Platform) (rt : Runtime) (operator : GameOperator)
    (log : ResultsLog) (labels : List (Moment × Request × Outside)) (w : Recorded)
    (run : Trace (Records P rt) (.start operator log) labels w) :
    (Complete log w ↔ Trace (fun w label w' => Records P rt w label w' ∧ Fresh P rt w label)
      (.start operator log) labels w) ∧ Replays operator w := by
  refine ⟨⟨fun hcomplete => ?_, fun hrun => ?_⟩, ?_⟩
  · rcases complete_or_short run with ⟨hrun, -⟩ | hshort
    · exact hrun
    · exact absurd hcomplete.length_eq (Nat.ne_of_lt hshort)
  · refine hrun.invariant (fun _ w => Complete log w) (complete_start operator log) ?_
    intro _ w label w' hw hstep
    exact hstep.1.complete hstep.2 hw
  · have hstart : Replays operator (.start operator log) := rfl
    refine run.invariant (fun _ w => Replays operator w) hstart ?_
    intro _ w label w' hw hstep
    exact hstep.replays hw

end Runs

/-! ### A move that is logged, and a move that a later flush applies -/

section Sample

def writable : Moment := ⟨1700000000, true⟩

/-- The first move is signed and sent. -/
def willing : Outside where
  finalize := .ok
  sendTransaction tx := .ok (Platform.sample.txHash tx.raw)

/-- The signer is not available. -/
def unsigned : Outside where
  finalize _ := .error "signer unavailable"
  sendTransaction tx := .ok (Platform.sample.txHash tx.raw)

def firstMove : Played :=
  ⟨[restMove 0], acknowledgedOperator.tip.state.seq, movedCell.1.txHash⟩

def loggedMove : Recorded where
  server :=
    { sampleServer with
      operator := acknowledgedOperator
      results := [scoreEvent writable (restMove 0) firstMove.seq firstMove.txHash] }
  played := [firstMove]

/-- The move is in the queue, and its request was answered with an error. -/
def keptMove : Recorded where
  server := { sampleServer with operator := longOperator 1 }
  played := []

def unloggedMove : Recorded where
  server := { sampleServer with operator := acknowledgedOperator }
  played := [firstMove]

theorem flush_willing : flushOrShed .sample willing.sendTransaction willing.finalize
    (longOperator 1) = (.ok movedCell.1.txHash, acknowledgedOperator) := by
  have hcall : (GameOperator.flush .sample willing.sendTransaction willing.finalize).call
      (longOperator 1) = (.ok movedCell.1.txHash, acknowledgedOperator) :=
    GameOperator.flush_sent build_move rfl rfl
  unfold flushOrShed
  rw [hcall]

theorem flush_unsigned : flushOrShed .sample unsigned.sendTransaction unsigned.finalize
    (longOperator 1) = (.error (.finalize "signer unavailable"), longOperator 1) := by
  unfold flushOrShed
  rw [GameOperator.flush_notFinalized build_move rfl]

theorem playedBy_willing : playedBy .sample willing (longOperator 1) = some firstMove := by
  unfold playedBy
  rw [flush_willing]
  rfl

theorem flushed_move : flushed sampleRuntime sampleServer (.intent moveBody) =
    some (longOperator 1) := by
  show (admitted sampleRuntime sampleServer (.intent moveBody)).map _ = _
  rw [admitted_move intentOf_moveBody]
  rfl

theorem submit_move : (GameOperator.submit (restMove 0)).call sampleServer.operator =
    (.ok (), longOperator 1) := submit_restMove 0 (by decide)

theorem records_logged : Records .sample sampleRuntime (.start (longOperator 0) [])
    (writable, .intent moveBody, willing) loggedMove := by
  refine ⟨rfl, ⟨(200, flushedBody acknowledgedOperator movedCell.1.txHash), ?_⟩, ?_⟩
  · show sampleServer.serve _ _ _ _ _ _ = _
    rw [Server.serve_intent]
    unfold handleIntent
    simp only [intentOf_moveBody, submit_move, flush_willing]
    rfl
  · show _ = [] ++ ((flushed sampleRuntime sampleServer (.intent moveBody)).bind _).toList
    rw [flushed_move, Option.bind_some, playedBy_willing]
    rfl

theorem records_kept : Records .sample sampleRuntime (.start (longOperator 0) [])
    (writable, .intent moveBody, unsigned) keptMove := by
  refine ⟨rfl, ⟨failed sampleRuntime (.finalize "signer unavailable"), ?_⟩, ?_⟩
  · show sampleServer.serve _ _ _ _ _ _ = _
    rw [Server.serve_intent]
    unfold handleIntent
    simp only [intentOf_moveBody, submit_move, flush_unsigned]
    rfl
  · show _ = [] ++ ((flushed sampleRuntime sampleServer (.intent moveBody)).bind _).toList
    rw [flushed_move, Option.bind_some, playedBy, flush_unsigned]
    rfl

theorem records_unlogged : Records .sample sampleRuntime keptMove (writable, .flush, willing)
    unloggedMove := by
  refine ⟨rfl, ⟨(200, flushedBody acknowledgedOperator movedCell.1.txHash), ?_⟩, ?_⟩
  · show some ((handleFlush .sample sampleRuntime willing.sendTransaction willing.finalize
      (longOperator 1)).1, Server.mk (handleFlush .sample sampleRuntime willing.sendTransaction
        willing.finalize (longOperator 1)).2 .new []) = _
    unfold handleFlush
    simp only [flush_willing]
    rfl
  · show _ = [] ++ (playedBy .sample willing (longOperator 1)).toList
    rw [playedBy_willing]
    rfl

/-- A move is refused by the signer and applied by the `POST /flush` after it: the board has it,
and the log has no score. -/
theorem kept_move_unlogged :
    Trace (Records .sample sampleRuntime) (.start (longOperator 0) [])
        [(writable, .intent moveBody, unsigned), (writable, .flush, willing)] unloggedMove ∧
      unloggedMove.played.map Played.intents = [[restMove 0]] ∧
      scores unloggedMove.server.results = [] ∧ ¬ Complete [] unloggedMove := by
  refine ⟨(Trace.single records_kept).snoc records_unlogged, rfl, rfl, ?_⟩
  intro hcomplete
  exact absurd hcomplete.length_eq (by decide)

theorem score_log_complete_iff_one_move :
    (Complete [] loggedMove ↔
      Trace (fun w label w' => Records .sample sampleRuntime w label w' ∧
          Fresh .sample sampleRuntime w label)
        (.start (longOperator 0) []) [(writable, .intent moveBody, willing)] loggedMove) ∧
      Replays (longOperator 0) loggedMove :=
  score_log_complete_iff .sample sampleRuntime (longOperator 0) [] _ _ (.single records_logged)

end Sample

end CkbController.PaymasterService.GameServer
