import CkbController.Lib.Trace
import CkbController.Lib.Window
import CkbController.PaymasterService.GameServer
import CkbController.PaymasterService.OperatorRuns
import Mathlib.Data.List.Induction

/-!
# Settlements in the results log

The results log is the durable record of who paid whom: the queue of invoices is bounded and in
memory. A confirmation is logged when the queue still holds its invoice, whether or not the invoice
is already paid. The log outlives the server: a run starts with whatever an earlier one left in
the file, and numbers its own invoices from 1 again.

* `Settled` — the queue holds the last 256 published invoices, and the run has logged one event
  for each effective confirmation;
* `settled_once_iff` — so the run settles an invoice that was confirmed exactly once in the log
  exactly when one of its confirmations is effective.
-/

namespace CkbController.PaymasterService.GameServer

open ByteCodec MachineInt Checks Window

/-! ## Events of the log -/

/-- An `invoice_paid` event for the invoice `id`. -/
def isPaidEvent (id : U64) (event : Json) : Bool :=
  (event.get "kind").bind Json.asStr = some "invoice_paid" &&
    (event.get "id").bind Json.asU64 = some id

def paidEvents (id : U64) (log : ResultsLog) : Nat := log.countP (isPaidEvent id)

section Events

variable {id : U64} {m : Moment} {log : ResultsLog}

theorem isPaidEvent_published (n : U64) (fields : PublishFields) :
    isPaidEvent id (publishedEvent m n fields) = false := by
  simp [isPaidEvent, publishedEvent, Json.asStr]

theorem isPaidEvent_score (intent : GameRules.Intent) (seq : U64) (txHash : Byte32) :
    isPaidEvent id (scoreEvent m intent seq txHash) = false := by
  simp [isPaidEvent, scoreEvent, Json.asStr]

/-- The event of a confirmation settles the invoice whose id it carries. -/
theorem isPaidEvent_paid (seq : U64) (inv : RelayInvoice) :
    isPaidEvent id (paidEvent m seq inv) = decide (inv.id = id) := by
  simp [isPaidEvent, paidEvent, Json.asStr, Json.asU64]

/-- An event that settles another invoice, or none, leaves the count, written or not. -/
theorem paidEvents_append_other {event : Json} (h : isPaidEvent id event = false) :
    paidEvents id (log.append m event) = paidEvents id log := by
  unfold paidEvents ResultsLog.append
  split
  · rw [List.countP_append, List.countP_singleton, h]
    rfl
  · rfl

/-- An event that settles this invoice counts if it is written. -/
theorem paidEvents_append_paid {event : Json} (h : isPaidEvent id event = true) :
    paidEvents id (log.append m event) = paidEvents id log + if m.logWritten then 1 else 0 := by
  unfold paidEvents ResultsLog.append
  by_cases hwritten : m.logWritten = true
  · rw [if_pos hwritten, if_pos hwritten, List.countP_append, List.countP_singleton, h]
    rfl
  · rw [if_neg hwritten, if_neg hwritten, Nat.add_zero]

end Events

/-! ## The queue -/

def RelayInvoice.number (inv : RelayInvoice) : Nat := inv.id.toNat

namespace Relay

variable {relay relay' : Relay} {id : U64} {paid : RelayInvoice}
  {invoices invoices' : List RelayInvoice}

/-- The loop finds an invoice exactly when one in the queue has the id. -/
theorem isSome_markPaidIn :
    (markPaidIn id invoices).isSome = true ↔ ∃ inv ∈ invoices, inv.id = id := by
  induction invoices with
  | nil => simp [markPaidIn]
  | cons inv rest ih =>
    rw [markPaidIn, List.exists_mem_cons_iff]
    by_cases hid : inv.id = id
    · rw [if_pos hid]
      exact iff_of_true rfl (Or.inl hid)
    · rw [if_neg hid, Option.isSome_map, ih, or_iff_right hid]

/-- The loop marks an invoice with the id and leaves all numbers as they were. -/
theorem markPaidIn_eq_some (h : markPaidIn id invoices = some (paid, invoices')) :
    paid.id = id ∧ invoices'.map RelayInvoice.number = invoices.map RelayInvoice.number := by
  induction invoices generalizing invoices' with
  | nil => cases h
  | cons inv rest ih =>
    rw [markPaidIn] at h
    by_cases hid : inv.id = id
    · rw [if_pos hid] at h
      cases h
      exact ⟨hid, rfl⟩
    · rw [if_neg hid] at h
      obtain ⟨⟨paid', rest'⟩, hrest, heq⟩ := Option.map_eq_some_iff.mp h
      cases heq
      obtain ⟨hpaid, hnumbers⟩ := ih hrest
      exact ⟨hpaid, congrArg (inv.number :: ·) hnumbers⟩

/-- The relay after `n` publications. -/
structure Holds (relay : Relay) (n : Nat) : Prop where
  nextId : relay.nextId.toNat = n + 1
  queue : relay.invoices.map RelayInvoice.number = window invoiceCap n

theorem holds_new : Relay.new.Holds 0 := ⟨rfl, rfl⟩

/-- A publication takes the next number and pushes the oldest one out of a full queue. -/
theorem Holds.publish {n : Nat} {gameId toPlayer fromPlayer : Option String} {invoice : String}
    {amountCkb now : U64} (h : relay.Holds n)
    (hpublish : relay.publish gameId toPlayer fromPlayer invoice amountCkb now =
      some (id, relay')) : id.toNat = n + 1 ∧ relay'.Holds (n + 1) := by
  unfold Relay.publish at hpublish
  obtain ⟨next, hnext, heq⟩ := Option.bind_eq_some_iff.mp hpublish
  cases heq
  refine ⟨h.nextId, ?_, ?_⟩
  · show next.toNat = n + 1 + 1
    rw [← h.nextId]
    exact (checkedAdd_eq_some.mp hnext).symm
  · have hnumber : RelayInvoice.number
        ⟨relay.nextId, gameId, toPlayer, fromPlayer, invoice, amountCkb, false, now⟩ = n + 1 :=
      h.nextId
    have hqueue := @map_shed invoiceCap _ _ RelayInvoice.number (relay.invoices ++
      [⟨relay.nextId, gameId, toPlayer, fromPlayer, invoice, amountCkb, false, now⟩])
    rw [List.map_append, h.queue, List.map_singleton, hnumber, shed_window] at hqueue
    unfold shed at hqueue
    simpa only using hqueue

/-- An invoice is in the queue while fewer than 256 are published after it. -/
theorem Holds.markPaid_isSome_iff {n : Nat} (h : relay.Holds n) :
    (relay.markPaid id).isSome = true ↔
      0 < id.toNat ∧ id.toNat ≤ n ∧ n < id.toNat + invoiceCap := by
  rw [← mem_window, ← h.queue, List.mem_map, Relay.markPaid, Option.isSome_map, isSome_markPaidIn]
  exact exists_congr fun inv => and_congr_right fun _ => BitVec.toNat_inj.symm

/-- A confirmation finds the invoice exactly while its number is in the window. -/
theorem Holds.markPaid {n : Nat} (h : relay.Holds n)
    (hpaid : relay.markPaid id = some (paid, relay')) : paid.id = id ∧ relay'.Holds n := by
  unfold Relay.markPaid at hpaid
  obtain ⟨⟨paid', invoices'⟩, hin, heq⟩ := Option.map_eq_some_iff.mp hpaid
  cases heq
  obtain ⟨hid, hnumbers⟩ := markPaidIn_eq_some hin
  exact ⟨hid, h.nextId, hnumbers.trans h.queue⟩

end Relay

/-! ## What the confirmations of an invoice amount to -/

/-- For one invoice: how many invoices are published, how many confirmations it has had since it
was published, and how many of them were effective. -/
structure Tally where
  published : Nat
  confirmed : Nat
  effective : Nat
deriving DecidableEq

/-- A confirmation is effective when fewer than 256 invoices were published after the one it is
for and the log can be written. -/
def Tally.confirm (t : Tally) (id : U64) (m : Moment) : Tally :=
  if 0 < id.toNat ∧ id.toNat ≤ t.published then
    { t with
      confirmed := t.confirmed + 1
      effective := t.effective +
        if t.published < id.toNat + invoiceCap ∧ m.logWritten = true then 1 else 0 }
  else t

def Tally.add (rt : Runtime) (id : U64) (t : Tally) (label : Moment × Request) : Tally :=
  match label.2 with
  | .publishInvoice body =>
    if (publishFields rt body).isOk then { t with published := t.published + 1 } else t
  | .invoicePaid body => if (paidId rt body).toOption = some id then t.confirm id label.1 else t
  | _ => t

theorem Tally.add_publishInvoice (rt : Runtime) (id : U64) (t : Tally) (m : Moment)
    (body : String) :
    t.add rt id (m, .publishInvoice body) =
      if (publishFields rt body).isOk then { t with published := t.published + 1 } else t := rfl

/-- A confirmation counts if its body is read and names this invoice. -/
theorem Tally.add_invoicePaid (rt : Runtime) (id : U64) (t : Tally) (m : Moment) (body : String) :
    t.add rt id (m, .invoicePaid body) =
      if (paidId rt body).toOption = some id then t.confirm id m else t := rfl

def tally (rt : Runtime) (id : U64) (labels : List (Moment × Request)) : Tally :=
  labels.foldl (Tally.add rt id) ⟨0, 0, 0⟩

theorem tally_concat (rt : Runtime) (id : U64) (labels : List (Moment × Request))
    (label : Moment × Request) :
    tally rt id (labels ++ [label]) = (tally rt id labels).add rt id label :=
  List.foldl_concat ..

/-- The server handles a request, whatever the node answers. -/
def Serves (P : Platform) (rt : Runtime) (finalize : Transaction → Except String Transaction)
    (s : Server) (label : Moment × Request) (s' : Server) : Prop :=
  ∃ sendTransaction response,
    s.serve P rt sendTransaction finalize label.1 label.2 = some (response, s')

/-- The relay holds what was published last, and after what was in the log at the start there is
one event for each effective confirmation of `id`. -/
structure Settled (log : ResultsLog) (id : U64) (t : Tally) (s : Server) : Prop where
  holds : s.relay.Holds t.published
  kept : log <+: s.results
  events : paidEvents id s.results = paidEvents id log + t.effective

section Runs

variable {P : Platform} {rt : Runtime} {finalize : Transaction → Except String Transaction}
  {sendTransaction : Transaction → Except String Byte32} {log : ResultsLog} {id : U64} {t : Tally}
  {s s' : Server} {m : Moment} {body : String} {response : Response}

/-- A publication moves the queue and logs no settlement. -/
theorem Settled.publish (h : Settled log id t s)
    (hserve : s.serve P rt sendTransaction finalize m (.publishInvoice body) =
      some (response, s')) : Settled log id (t.add rt id (m, .publishInvoice body)) s' := by
  have hkept := h.kept.trans (Server.prefix_serve hserve)
  rw [Server.serve_publishInvoice] at hserve
  obtain ⟨⟨response', relay', results'⟩, hhandle, heq⟩ := Option.bind_eq_some_iff.mp hserve
  cases heq
  unfold handlePublishInvoice at hhandle
  rw [Tally.add_publishInvoice]
  cases hfields : publishFields rt body with
  | error message =>
    rw [hfields] at hhandle
    cases hhandle
    exact h
  | ok fields =>
    rw [hfields] at hhandle
    obtain ⟨⟨number, relay''⟩, hpublish, heq⟩ := Option.bind_eq_some_iff.mp hhandle
    cases heq
    obtain ⟨-, hholds⟩ := h.holds.publish hpublish
    refine ⟨hholds, hkept, ?_⟩
    show paidEvents id (s.results.append m (publishedEvent m number fields)) = _ + t.effective
    rw [paidEvents_append_other (isPaidEvent_published number fields), h.events]

@[simp] theorem Tally.confirm_published (t : Tally) (id : U64) (m : Moment) :
    (t.confirm id m).published = t.published := by
  unfold Tally.confirm
  split <;> rfl

/-- A confirmation counts if the invoice has been published. -/
theorem Tally.confirm_confirmed (t : Tally) (id : U64) (m : Moment) :
    (t.confirm id m).confirmed = t.confirmed +
      if 0 < id.toNat ∧ id.toNat ≤ t.published then 1 else 0 := by
  unfold Tally.confirm
  split <;> rfl

/-- A confirmation is effective if the invoice is still in the window and the event can be
written. -/
theorem Tally.confirm_effective (t : Tally) (id : U64) (m : Moment) :
    (t.confirm id m).effective = t.effective +
      if (0 < id.toNat ∧ id.toNat ≤ t.published ∧ t.published < id.toNat + invoiceCap) ∧
        m.logWritten = true then 1 else 0 := by
  unfold Tally.confirm
  by_cases hpublished : 0 < id.toNat ∧ id.toNat ≤ t.published
  · rw [if_pos hpublished]
    simp only [hpublished, true_and]
  · rw [if_neg hpublished, if_neg fun h => hpublished ⟨h.1.1, h.1.2.1⟩]
    rfl

/-- A confirmation of `n`, which may or may not be `id`. -/
theorem Settled.confirm {n : U64} (h : Settled log id t s) (seq : U64) :
    Settled log id (if n = id then t.confirm id m else t)
      (match s.relay.markPaid n with
        | some (inv, relay) =>
          { s with relay, results := s.results.append m (paidEvent m seq inv) }
        | none => s) := by
  have hqueued := @Relay.Holds.markPaid_isSome_iff s.relay n _ h.holds
  cases hmark : s.relay.markPaid n with
  | none =>
    rw [hmark] at hqueued
    by_cases hn : n = id
    · -- not published yet, or shed: the tally counts no effect either
      subst hn
      rw [if_pos rfl]
      refine ⟨by rw [Tally.confirm_published]; exact h.holds, h.kept, ?_⟩
      rw [Tally.confirm_effective, if_neg fun hc => Bool.false_ne_true (hqueued.mpr hc.1)]
      exact h.events
    · rw [if_neg hn]
      exact h
  | some out =>
    obtain ⟨inv, relay⟩ := out
    rw [hmark] at hqueued
    obtain ⟨hid, hholds⟩ := h.holds.markPaid hmark
    have hevent := @isPaidEvent_paid id m seq inv
    have hkept : log <+: s.results.append m (paidEvent m seq inv) :=
      h.kept.trans (ResultsLog.prefix_append _)
    by_cases hn : n = id
    · -- paid already or not, the event is logged
      subst hn
      rw [if_pos rfl]
      refine ⟨by rw [Tally.confirm_published]; exact hholds, hkept, ?_⟩
      show paidEvents n (s.results.append m (paidEvent m seq inv)) = _
      rw [paidEvents_append_paid (hevent.trans (decide_eq_true hid)), h.events,
        Tally.confirm_effective, Nat.add_assoc]
      simp only [hqueued.mp rfl, true_and]
    · rw [if_neg hn]
      refine ⟨hholds, hkept, ?_⟩
      show paidEvents id (s.results.append m (paidEvent m seq inv)) = _
      have hother : inv.id ≠ id := fun h => hn (hid.symm.trans h)
      rw [paidEvents_append_other (hevent.trans (decide_eq_false hother)), h.events]

/-- `POST /invoice/paid`, whichever invoice it names. -/
theorem Settled.invoicePaid (h : Settled log id t s)
    (hserve : s.serve P rt sendTransaction finalize m (.invoicePaid body) = some (response, s')) :
    Settled log id (t.add rt id (m, .invoicePaid body)) s' := by
  rw [Server.serve_invoicePaid] at hserve
  cases hserve
  rw [Tally.add_invoicePaid]
  unfold handleMarkPaid
  cases hbody : paidId rt body with
  | error message =>
    rw [if_neg (by simp [Except.toOption])]
    exact h
  | ok n =>
    have hconfirm := @Settled.confirm log id t s m n h s.operator.tip.state.seq
    have hiff : ((Except.ok n : Except String U64).toOption = some id) = (n = id) :=
      propext Option.some_inj
    simp only [hiff]
    cases hmark : s.relay.markPaid n with
    | none =>
      rw [hmark] at hconfirm
      exact hconfirm
    | some out =>
      rw [hmark] at hconfirm
      exact hconfirm

/-- Submitting and flushing touch neither the queue nor the settlements. -/
theorem Settled.intent (h : Settled log id t s)
    (hserve : s.serve P rt sendTransaction finalize m (.intent body) = some (response, s')) :
    Settled log id t s' := by
  have hkept := h.kept.trans (Server.prefix_serve hserve)
  rw [Server.serve_intent] at hserve
  cases hserve
  refine ⟨h.holds, hkept, ?_⟩
  refine Eq.trans ?_ h.events
  show paidEvents id
    (handleIntent P rt m sendTransaction finalize s.operator s.results body).2.2 = _
  unfold handleIntent
  cases intentOf rt body with
  | error message => rfl
  | ok intent =>
    rcases hsubmit : (GameOperator.submit intent).call s.operator with ⟨e | _, op⟩
    · simp only [hsubmit]
    · rcases hflush : flushOrShed P sendTransaction finalize op with ⟨e | txHash, op'⟩
      · simp only [hsubmit, hflush]
      · simp only [hsubmit, hflush]
        exact paidEvents_append_other (isPaidEvent_score intent op'.tip.state.seq txHash)

/-- **One request.** Publications and confirmations are counted; every other request changes neither
the queue nor the settlements. -/
theorem Settled.step {request : Request} (h : Settled log id t s)
    (hserve : s.serve P rt sendTransaction finalize m request = some (response, s')) :
    Settled log id (t.add rt id (m, request)) s' := by
  cases request with
  | publishInvoice body => exact h.publish hserve
  | invoicePaid body => exact h.invoicePaid hserve
  | intent body => exact h.intent hserve
  -- no other request touches the relay
  | flush =>
    cases hserve
    exact ⟨h.holds, h.kept, h.events⟩
  | health =>
    cases hserve
    exact h
  | game =>
    cases hserve
    exact h
  | nextInvoice payer =>
    cases hserve
    exact h
  | results n =>
    cases hserve
    exact h
  | other =>
    cases hserve
    exact h

/-- **Every run** ends with the queue and the settlements that its requests add up to. -/
theorem settled_of_trace {operator : GameOperator} {labels : List (Moment × Request)}
    (run : Trace (Serves P rt finalize) (.start operator log) labels s) :
    Settled log id (tally rt id labels) s := by
  refine run.invariant (fun labels s => Settled log id (tally rt id labels) s)
    ⟨Relay.holds_new, List.prefix_rfl, rfl⟩ ?_
  rintro labels s ⟨m, request⟩ s' h ⟨sendTransaction, response, hserve⟩
  rw [tally_concat]
  exact h.step hserve

/-- No confirmation is effective without being counted. -/
theorem Tally.confirm_le (h : t.effective ≤ t.confirmed) :
    (t.confirm id m).effective ≤ (t.confirm id m).confirmed := by
  rw [Tally.confirm_effective, Tally.confirm_confirmed]
  split_ifs <;> omega

/-- An effective confirmation is a confirmation. -/
theorem tally_le (labels : List (Moment × Request)) :
    (tally rt id labels).effective ≤ (tally rt id labels).confirmed := by
  induction labels using List.reverseRecOn with
  | nil => exact Nat.le_refl 0
  | append_singleton labels label ih =>
    rw [tally_concat]
    unfold Tally.add
    split
    · split
      · exact ih
      · exact ih
    · split
      · exact Tally.confirm_le ih
      · exact ih
    · exact ih

end Runs

/-- **Settlements are logged once.** In every run of the server, over whatever log it found and
whatever the node answers, the invoices published are numbered from 1, and the run appends lines to
the log. For each number, these lines hold exactly one `invoice_paid` event if the invoice was
confirmed after its publication and none otherwise, exactly when it was not confirmed or exactly one
confirmation came while fewer than 256 invoices had been published after it and the log could be
written. -/
theorem settled_once_iff (P : Platform) (rt : Runtime)
    (finalize : Transaction → Except String Transaction) (operator : GameOperator)
    (log : ResultsLog) (labels : List (Moment × Request)) (s : Server)
    (run : Trace (Serves P rt finalize) (.start operator log) labels s) (id : U64) :
    s.relay.nextId.toNat = (tally rt id labels).published + 1 ∧
      ∃ lines, s.results = log ++ lines ∧
        (paidEvents id lines = (if (tally rt id labels).confirmed = 0 then 0 else 1) ↔
          (tally rt id labels).confirmed = 0 ∨ (tally rt id labels).effective = 1) := by
  have h : Settled log id (tally rt id labels) s := settled_of_trace run
  obtain ⟨lines, hlines⟩ := h.kept
  have hcount : paidEvents id lines = (tally rt id labels).effective := by
    have hevents := h.events
    rw [← hlines, paidEvents, List.countP_append] at hevents
    exact Nat.add_left_cancel hevents
  refine ⟨h.holds.nextId, lines, hlines.symm, ?_⟩
  have hle := @tally_le rt id labels
  rw [hcount]
  by_cases hnone : (tally rt id labels).confirmed = 0
  · rw [if_pos hnone]
    exact iff_of_true (by omega) (Or.inl hnone)
  · rw [if_neg hnone, or_iff_right hnone]

/-! ### One invoice, confirmed by both parties -/

def invoiceBody : String := "\x7b\"invoice\":\"fibt1\",\"amount_ckb\":5\x7d"

def paidBody : String := "\x7b\"id\":1\x7d"

/-- The JSON of the two bodies of the sample. -/
def relayJson (body : String) : Json :=
  if body = paidBody then .object [("id", .number 1)]
  else .object [("invoice", .string "fibt1"), ("amount_ckb", .number 5)]

/-- The libraries' answers on the sample. -/
def relayRuntime : Runtime where
  fromStr body := .ok (relayJson body)
  hexDecode _ := .error "Odd number of digits"
  debugError _ := "Empty"
  debugGameError _ := "BatchMalformed"

theorem paidId_paidBody : paidId relayRuntime paidBody = .ok 1 := by
  have hjson : relayRuntime.fromStr paidBody = .ok (.object [("id", .number 1)]) :=
    congrArg Except.ok (if_pos rfl)
  unfold paidId
  rw [hjson, mapError_ok, ok_bind]
  simp [Json.asU64]

theorem publishFields_invoiceBody :
    publishFields relayRuntime invoiceBody = .ok ⟨"fibt1", 5, none, none, none⟩ := by
  have hjson : relayRuntime.fromStr invoiceBody =
      .ok (.object [("invoice", .string "fibt1"), ("amount_ckb", .number 5)]) :=
    congrArg Except.ok (if_neg (by decide))
  unfold publishFields
  rw [hjson, mapError_ok, ok_bind]
  simp [Json.asU64, Json.asStr, rejectIf, bind, Except.bind, pure, Except.pure]

def sampleInvoice (paid : Bool) : RelayInvoice :=
  ⟨1, none, none, none, "fibt1", 5, paid, 1700000000⟩

/-- The server after the publication and what followed it. -/
def sampleRelay (operator : GameOperator) (paid : Bool) (events : ResultsLog) : Server where
  operator
  relay := { invoices := [sampleInvoice paid], nextId := 2 }
  results := publishedEvent ⟨1700000000, true⟩ 1 ⟨"fibt1", 5, none, none, none⟩ :: events

def publishLabel : Moment × Request := (⟨1700000000, true⟩, .publishInvoice invoiceBody)

def paidLabel : Moment × Request := (⟨1700000000, true⟩, .invoicePaid paidBody)

variable {P : Platform} {finalize : Transaction → Except String Transaction}

theorem publish_first : Relay.new.publish none none none "fibt1" 5 1700000000 =
    some (1, { invoices := [sampleInvoice false], nextId := 2 }) := by
  decide +kernel

theorem serves_publish (operator : GameOperator) :
    Serves P relayRuntime finalize (.start operator []) publishLabel
      (sampleRelay operator false []) := by
  refine ⟨fun tx => .ok (P.txHash tx.raw), (200, .object [("id", .number 1)]), ?_⟩
  show Server.serve _ _ _ _ _ _ (.publishInvoice invoiceBody) = _
  rw [Server.serve_publishInvoice]
  unfold handlePublishInvoice
  rw [publishFields_invoiceBody]
  show ((Relay.new.publish none none none "fibt1" 5 1700000000).bind _).bind _ = _
  rw [publish_first]
  rfl

theorem serves_paid (operator : GameOperator) (paid : Bool) (events : ResultsLog) :
    Serves P relayRuntime finalize (sampleRelay operator paid events) paidLabel
      (sampleRelay operator true (events ++
        [paidEvent ⟨1700000000, true⟩ operator.tip.state.seq (sampleInvoice true)])) := by
  refine ⟨fun tx => .ok (P.txHash tx.raw), (200, .object [("ok", .bool true)]), ?_⟩
  show Server.serve _ _ _ _ _ _ (.invoicePaid paidBody) = _
  rw [Server.serve_invoicePaid]
  unfold handleMarkPaid
  rw [paidId_paidBody]
  rfl

theorem add_publishLabel (t : Tally) :
    t.add relayRuntime 1 publishLabel = { t with published := t.published + 1 } := by
  rw [publishLabel, Tally.add_publishInvoice, publishFields_invoiceBody]
  rfl

theorem add_paidLabel (t : Tally) :
    t.add relayRuntime 1 paidLabel = t.confirm 1 ⟨1700000000, true⟩ := by
  rw [paidLabel, Tally.add_invoicePaid, paidId_paidBody]
  rfl

theorem tally_once : tally relayRuntime 1 [publishLabel, paidLabel] = ⟨1, 1, 1⟩ := by
  show ((Tally.mk 0 0 0).add relayRuntime 1 publishLabel).add relayRuntime 1 paidLabel = _
  rw [add_publishLabel, add_paidLabel]
  decide +kernel

theorem tally_twice : tally relayRuntime 1 [publishLabel, paidLabel, paidLabel] = ⟨1, 2, 2⟩ := by
  show (tally relayRuntime 1 [publishLabel, paidLabel]).add relayRuntime 1 paidLabel = _
  rw [tally_once, add_paidLabel]
  decide +kernel

/-- The invoice is published once, the payer and the payee each confirm it, and it is settled twice
in the log. -/
theorem settled_twice : ∃ s, Trace (Serves .sample relayRuntime .ok) (.start sampleOperator [])
      [publishLabel, paidLabel, paidLabel] s ∧
    (tally relayRuntime 1 [publishLabel, paidLabel, paidLabel]).published = 1 ∧
    (tally relayRuntime 1 [publishLabel, paidLabel, paidLabel]).confirmed = 2 ∧
    paidEvents 1 s.results = 2 := by
  have published := Trace.single (@serves_publish .sample .ok sampleOperator)
  have paid := published.snoc (serves_paid sampleOperator false [])
  have paidAgain := paid.snoc (serves_paid sampleOperator true _)
  have h : Settled [] 1 (tally relayRuntime 1 [publishLabel, paidLabel, paidLabel]) _ :=
    settled_of_trace paidAgain
  refine ⟨_, paidAgain, ?_, ?_, ?_⟩
  · rw [tally_twice]
  · rw [tally_twice]
  · rw [h.events, tally_twice]
    rfl

theorem settled_once_iff_one_confirmation : ∃ s,
    Trace (Serves .sample relayRuntime .ok) (.start sampleOperator []) [publishLabel, paidLabel] s ∧
      ∃ lines, s.results = [] ++ lines ∧ paidEvents 1 lines =
        (if (tally relayRuntime 1 [publishLabel, paidLabel]).confirmed = 0 then 0 else 1) := by
  have published := Trace.single (@serves_publish .sample .ok sampleOperator)
  have paid := published.snoc (serves_paid sampleOperator false [])
  obtain ⟨-, lines, hlines, honce⟩ := settled_once_iff .sample relayRuntime .ok sampleOperator []
    [publishLabel, paidLabel] _ paid 1
  refine ⟨_, paid, lines, hlines, honce.mpr (Or.inr ?_)⟩
  rw [tally_once]

end CkbController.PaymasterService.GameServer
