import CkbController.Lib.Hex
import CkbController.Lib.Json
import CkbController.PaymasterService.Operator

/-!
# The game operator's HTTP server

The binary `game-operator`: one thread that takes requests one after the other. `POST /intent`
submits and flushes; `POST /invoice`, `GET /invoice` and `POST /invoice/paid` are the invoice
relay, a bounded queue in memory; scores and settlements go to the results log, a file of one
JSON line per event. Parsing, the debug rendering of errors and hex decoding belong to libraries
and are the fields of a `Runtime`; the clock and the success of a log write are inputs of each
request, a `Moment`.
-/

namespace CkbController.PaymasterService.GameServer

open ByteCodec MachineInt Checks GameRules Hex

structure Runtime where
  fromStr : String → Except String Json
  hexDecode : String → Except String Bytes
  debugError : OperatorError → String
  debugGameError : GameError → String

structure Moment where
  now : U64
  logWritten : Bool

/-- Status and body. -/
abbrev Response := Nat × Json

def errorBody (message : String) : Json := .object [("error", .string message)]

/-! ## The results log -/

abbrev ResultsLog := List Json

/-- Best effort: a failed write loses the line and nothing else. -/
def ResultsLog.append (m : Moment) (log : ResultsLog) (event : Json) : ResultsLog :=
  if m.logWritten then log ++ [event] else log

def ResultsLog.last (log : ResultsLog) (n : Nat) : List Json := log.drop (log.length - n)

/-! ## The invoice relay -/

def invoiceCap : Nat := 256

structure RelayInvoice where
  id : U64
  gameId : Option String
  toPlayer : Option String
  fromPlayer : Option String
  invoice : String
  amountCkb : U64
  paid : Bool
  ts : U64
deriving DecidableEq

def RelayInvoice.toJson (inv : RelayInvoice) : Json :=
  .object
    [("id", .number inv.id), ("game_id", .ofStr? inv.gameId), ("to", .ofStr? inv.toPlayer),
      ("from", .ofStr? inv.fromPlayer), ("invoice", .string inv.invoice),
      ("amount_ckb", .number inv.amountCkb), ("paid", .bool inv.paid), ("ts", .number inv.ts)]

structure Relay where
  invoices : List RelayInvoice
  nextId : U64
deriving DecidableEq

namespace Relay

def new : Relay := { invoices := [], nextId := 1 }

/-- Adds an invoice and sheds the oldest ones over the cap. `none`: `next_id += 1` overflows,
which panics. -/
def publish (relay : Relay) (gameId toPlayer fromPlayer : Option String) (invoice : String)
    (amountCkb now : U64) : Option (U64 × Relay) := do
  let id := relay.nextId
  let nextId ← checkedAdd relay.nextId 1
  let invoices := relay.invoices ++
    [{ id, gameId, toPlayer, fromPlayer, invoice, amountCkb, paid := false, ts := now }]
  some (id, { invoices := invoices.drop (invoices.length - invoiceCap), nextId })

/-- An unpaid invoice the payer may pay: not its own, and open or addressed to it. -/
def payable (payer : Option String) (inv : RelayInvoice) : Bool :=
  !inv.paid && match payer with
    | none => true
    | some p => inv.fromPlayer != some p && inv.toPlayer.all (· == p)

def nextFor (relay : Relay) (payer : Option String) : Option RelayInvoice :=
  relay.invoices.find? (payable payer)

def markPaidIn (id : U64) : List RelayInvoice → Option (RelayInvoice × List RelayInvoice)
  | [] => none
  | inv :: rest =>
    if inv.id = id then
      let paid := { inv with paid := true }
      some (paid, paid :: rest)
    else (markPaidIn id rest).map fun (paid, rest') => (paid, inv :: rest')

def markPaid (relay : Relay) (id : U64) : Option (RelayInvoice × Relay) :=
  (markPaidIn id relay.invoices).map fun (paid, invoices) => (paid, { relay with invoices })

end Relay

/-! ## The relay's requests -/

section Relay

variable (rt : Runtime) (m : Moment)

structure PublishFields where
  invoice : String
  amountCkb : U64
  toPlayer : Option String
  fromPlayer : Option String
  gameId : Option String

/-- The body of `POST /invoice`, or what is wrong with it. -/
def publishFields (body : String) : Except String PublishFields := do
  let req ← (rt.fromStr body).mapError fun e => s!"bad request: {e}"
  match (req.get "invoice").bind Json.asStr with
  | none => .error "missing 'invoice' string field"
  | some invoice =>
    rejectIf (invoice = "") "missing 'invoice' string field"
    pure
      { invoice
        amountCkb := ((req.get "amount_ckb").bind Json.asU64).getD 0
        toPlayer := (req.get "to").bind Json.asStr
        fromPlayer := (req.get "from").bind Json.asStr
        gameId := (req.get "game_id").bind Json.asStr }

def publishedEvent (id : U64) (fields : PublishFields) : Json :=
  .object
    [("ts", .number m.now), ("kind", .string "invoice_published"), ("id", .number id),
      ("from", .ofStr? fields.fromPlayer), ("to", .ofStr? fields.toPlayer),
      ("amount_ckb", .number fields.amountCkb), ("game_id", .ofStr? fields.gameId)]

/-- `POST /invoice`. `none` is a panic. -/
def handlePublishInvoice (relay : Relay) (results : ResultsLog) (body : String) :
    Option (Response × Relay × ResultsLog) :=
  match publishFields rt body with
  | .error message => some ((400, errorBody message), relay, results)
  | .ok fields => do
    let (id, relay') ← relay.publish fields.gameId fields.toPlayer fields.fromPlayer fields.invoice
      fields.amountCkb m.now
    some ((200, .object [("id", .number id)]), relay',
      results.append m (publishedEvent m id fields))

/-- The body of `POST /invoice/paid`, or what is wrong with it. -/
def paidId (body : String) : Except String U64 := do
  let req ← (rt.fromStr body).mapError fun e => s!"bad request: {e}"
  okOr ((req.get "id").bind Json.asU64) "missing numeric 'id' field"

def paidEvent (seq : U64) (inv : RelayInvoice) : Json :=
  .object
    [("ts", .number m.now), ("kind", .string "invoice_paid"), ("id", .number inv.id),
      ("from", .ofStr? inv.fromPlayer), ("to", .ofStr? inv.toPlayer),
      ("amount_ckb", .number inv.amountCkb), ("seq", .number seq)]

/-- `POST /invoice/paid`. -/
def handleMarkPaid (relay : Relay) (results : ResultsLog) (seq : U64) (body : String) :
    Response × Relay × ResultsLog :=
  match paidId rt body with
  | .error message => ((400, errorBody message), relay, results)
  | .ok id =>
    match relay.markPaid id with
    | some (inv, relay') =>
      ((200, .object [("ok", .bool true)]), relay', results.append m (paidEvent m seq inv))
    | none => ((404, errorBody "unknown invoice id"), relay, results)

end Relay

/-! ## The operator's requests -/

section Operator

variable (P : Platform) (rt : Runtime) (m : Moment)
  (sendTransaction : Transaction → Except String Byte32)
  (finalize : Transaction → Except String Transaction)

def opErrorStatus : OperatorError → Nat
  | .game _ => 422
  | .empty => 400
  | .finalize _ => 500
  | .rpc _ => 502

def playerJson (p : PlayerEntry) : Json :=
  .object
    [("hash", .string ("0x" ++ hexEncode p.hash.toList)), ("score", .number p.score),
      ("nonce", .number p.nonce)]

def stateJson (s : GameState) : Json :=
  .object [("seq", .number s.seq), ("players", .array (s.players.map playerJson))]

/-- After an error of the node the queue is emptied. -/
def flushOrShed (op : GameOperator) : Except OperatorError Byte32 × GameOperator :=
  match (GameOperator.flush P sendTransaction finalize).call op with
  | (.error (.rpc message), op') => (.error (.rpc message), op'.dropPending)
  | outcome => outcome

def hexBytes (s : String) : Except String Bytes :=
  (rt.hexDecode (String.ofList (trim0x s.toList))).mapError fun e => s!"invalid hex: {e}"

/-- The intent in the body of `POST /intent`, or what is wrong with it. -/
def intentOf (body : String) : Except String Intent := do
  let req ← (rt.fromStr body).mapError fun e => s!"bad request: {e}"
  let intentHex ← okOr ((req.get "intent").bind Json.asStr) "missing 'intent' hex field"
  let bytes ← hexBytes rt intentHex
  (Intent.decode bytes).mapError fun e => s!"bad intent: {rt.debugGameError e}"

def txHashText (txHash : Byte32) : String := "0x" ++ hexEncode txHash.toList

def scoreEvent (intent : Intent) (seq : U64) (txHash : Byte32) : Json :=
  .object
    [("ts", .number m.now), ("kind", .string "score"),
      ("player", .string ("0x" ++ hexEncode intent.hash.toList)), ("points", .number intent.points),
      ("seq", .number seq), ("tx_hash", .string (txHashText txHash))]

def flushedBody (op : GameOperator) (txHash : Byte32) : Json :=
  .object [("tx_hash", .string (txHashText txHash)), ("seq", .number op.tip.state.seq)]

def failed (e : OperatorError) : Response := (opErrorStatus e, errorBody (rt.debugError e))

/-- `POST /intent`: submit, then flush the queue. -/
def handleIntent (op : GameOperator) (results : ResultsLog) (body : String) :
    Response × GameOperator × ResultsLog :=
  match intentOf rt body with
  | .error message => ((400, errorBody message), op, results)
  | .ok intent =>
    match (GameOperator.submit intent).call op with
    | (.error e, op') => (failed rt e, op', results)
    | (.ok _, op') =>
      match flushOrShed P sendTransaction finalize op' with
      | (.ok txHash, op'') => ((200, flushedBody op'' txHash), op'',
          results.append m (scoreEvent m intent op''.tip.state.seq txHash))
      | (.error e, op'') => (failed rt e, op'', results)

/-- `POST /flush`. -/
def handleFlush (op : GameOperator) : Response × GameOperator :=
  match flushOrShed P sendTransaction finalize op with
  | (.ok txHash, op') => ((200, flushedBody op' txHash), op')
  | (.error e, op') => (failed rt e, op')

end Operator

/-! ## The server -/

structure Server where
  operator : GameOperator
  relay : Relay
  results : ResultsLog

/-- A server that starts. The relay is new; the log is the file that is there. -/
def Server.start (operator : GameOperator) (results : ResultsLog) : Server :=
  { operator, relay := .new, results }

/-- A routed request: the path and method are read, the body is not. -/
inductive Request where
  | health
  | game
  | intent (body : String)
  | flush
  | publishInvoice (body : String)
  | nextInvoice (payer : Option String)
  | invoicePaid (body : String)
  | results (n : Nat)
  | other

def Request.isIntent : Request → Bool
  | .intent _ => true
  | _ => false

variable (P : Platform) (rt : Runtime) (sendTransaction : Transaction → Except String Byte32)
  (finalize : Transaction → Except String Transaction)

/-- The response and the server after it; `none` is a panic, which ends the server. -/
def Server.serve (s : Server) (m : Moment) : Request → Option (Response × Server)
  | .health => some ((200, .object
      [("status", .string "ok"), ("game_id", .string ("0x" ++ hexEncode s.operator.gameId.toList)),
        ("seq", .number s.operator.tip.state.seq),
        ("pending", .number (BitVec.ofNat 64 s.operator.pending)),
        ("invoices", .number (BitVec.ofNat 64 s.relay.invoices.length))]), s)
  | .game => some ((200, stateJson s.operator.tip.state), s)
  | .intent body =>
    let (response, operator, results) :=
      handleIntent P rt m sendTransaction finalize s.operator s.results body
    some (response, { s with operator, results })
  | .flush =>
    let (response, operator) := handleFlush P rt sendTransaction finalize s.operator
    some (response, { s with operator })
  | .publishInvoice body => do
    let (response, relay, results) ← handlePublishInvoice rt m s.relay s.results body
    some (response, { s with relay, results })
  | .nextInvoice payer =>
    some ((200, .object
      [("invoice", ((s.relay.nextFor payer).map RelayInvoice.toJson).getD .null)]),
      s)
  | .invoicePaid body =>
    let (response, relay, results) :=
      handleMarkPaid rt m s.relay s.results s.operator.tip.state.seq body
    some (response, { s with relay, results })
  | .results n => some ((200, .object [("results", .array (s.results.last n))]), s)
  | .other => some ((404, errorBody "not found"), s)

/-- An intent is answered from the operator and the log. -/
theorem Server.serve_intent (s : Server) (m : Moment) (body : String) :
    s.serve P rt sendTransaction finalize m (.intent body) =
      some ((handleIntent P rt m sendTransaction finalize s.operator s.results body).1,
        { s with
          operator := (handleIntent P rt m sendTransaction finalize s.operator s.results body).2.1
          results := (handleIntent P rt m sendTransaction finalize s.operator s.results body).2.2 })
      := rfl

/-- Publishing an invoice changes the relay and the log. -/
theorem Server.serve_publishInvoice (s : Server) (m : Moment) (body : String) :
    s.serve P rt sendTransaction finalize m (.publishInvoice body) =
      (handlePublishInvoice rt m s.relay s.results body).bind fun out =>
        some (out.1, { s with relay := out.2.1, results := out.2.2 }) := rfl

/-- A confirmed payment changes the relay and the log, and logs the tip's sequence number. -/
theorem Server.serve_invoicePaid (s : Server) (m : Moment) (body : String) :
    s.serve P rt sendTransaction finalize m (.invoicePaid body) =
      some ((handleMarkPaid rt m s.relay s.results s.operator.tip.state.seq body).1,
        { s with
          relay := (handleMarkPaid rt m s.relay s.results s.operator.tip.state.seq body).2.1
          results := (handleMarkPaid rt m s.relay s.results s.operator.tip.state.seq body).2.2 })
      := rfl

/-! ## The log only grows -/

section Appends

variable {P rt sendTransaction finalize} {m : Moment} {log log' : ResultsLog} {response : Response}
  {body : String}

/-- Logging an event keeps the lines there are. -/
theorem ResultsLog.prefix_append (event : Json) : log <+: log.append m event := by
  unfold ResultsLog.append
  split
  · exact List.prefix_append _ _
  · exact List.prefix_rfl

/-- An intent only adds lines to the log. -/
theorem prefix_handleIntent (op : GameOperator) :
    log <+: (handleIntent P rt m sendTransaction finalize op log body).2.2 := by
  unfold handleIntent
  cases intentOf rt body with
  | error message => exact List.prefix_rfl
  | ok intent =>
    rcases hsubmit : (GameOperator.submit intent).call op with ⟨e | _, op'⟩
    · simp only [hsubmit]
      exact List.prefix_rfl
    · rcases hflush : flushOrShed P sendTransaction finalize op' with ⟨e | txHash, op''⟩
      · simp only [hsubmit, hflush]
        exact List.prefix_rfl
      · simp only [hsubmit, hflush]
        exact ResultsLog.prefix_append _

/-- Publishing an invoice only adds lines to the log. -/
theorem prefix_handlePublishInvoice {relay relay' : Relay}
    (h : handlePublishInvoice rt m relay log body = some (response, relay', log')) :
    log <+: log' := by
  unfold handlePublishInvoice at h
  cases hfields : publishFields rt body with
  | error message =>
    rw [hfields] at h
    cases h
    exact List.prefix_rfl
  | ok fields =>
    rw [hfields] at h
    obtain ⟨⟨number, relay''⟩, -, heq⟩ := Option.bind_eq_some_iff.mp h
    cases heq
    exact ResultsLog.prefix_append _

/-- A confirmed payment only adds lines to the log. -/
theorem prefix_handleMarkPaid (relay : Relay) (seq : U64) :
    log <+: (handleMarkPaid rt m relay log seq body).2.2 := by
  unfold handleMarkPaid
  cases paidId rt body with
  | error message => exact List.prefix_rfl
  | ok id =>
    cases hmark : relay.markPaid id with
    | none =>
      simp only [hmark]
      exact List.prefix_rfl
    | some paid =>
      simp only [hmark]
      exact ResultsLog.prefix_append _

/-- **No request takes a line out of the log.** -/
theorem Server.prefix_serve {s s' : Server} {request : Request}
    (h : s.serve P rt sendTransaction finalize m request = some (response, s')) :
    s.results <+: s'.results := by
  cases request with
  | intent body =>
    cases h
    exact prefix_handleIntent s.operator
  | flush =>
    cases h
    exact List.prefix_rfl
  -- an invoice event is written after what the file holds
  | publishInvoice body =>
    rw [Server.serve_publishInvoice] at h
    obtain ⟨⟨response', relay', results'⟩, hhandle, heq⟩ := Option.bind_eq_some_iff.mp h
    cases heq
    exact prefix_handlePublishInvoice hhandle
  -- and so is a payment
  | invoicePaid body =>
    rw [Server.serve_invoicePaid] at h
    cases h
    exact prefix_handleMarkPaid s.relay s.operator.tip.state.seq
  | health =>
    cases h
    exact List.prefix_rfl
  | game =>
    cases h
    exact List.prefix_rfl
  | nextInvoice payer =>
    cases h
    exact List.prefix_rfl
  | results n =>
    cases h
    exact List.prefix_rfl
  | other =>
    cases h
    exact List.prefix_rfl

end Appends

end CkbController.PaymasterService.GameServer
