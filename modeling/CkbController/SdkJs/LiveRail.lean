import CkbController.Lib.Method

/-!
# The live rail

`LiveRail` of the JavaScript SDK: a channel of the Fiber node in the browser, with a count of what
was spent of its budget. What the node answers during a call is a `Fiber`; a poll of the node that
throws or finds nothing is a `none` among the answers before the deadline.

The count changes at two places: `open` resets it before it asks the node for anything, and a
payment is added as the last thing that its call does (`call_run`).
-/

namespace CkbController.SdkJs

/-- Shannons in a CKB. -/
def CKB : Nat := 100000000

/-! ## The node -/

inductive PaymentRequest where
  | keysend (targetPubkey : String) (amount : Int)
  | invoice (invoice : String) (trampolineHops : Option (List String)) (maxFeeAmount : Option Int)

/-- An answer of `getPayment`. -/
structure PaymentInfo where
  status : Option String
  fee : Option Nat
  failedError : Option String

structure ChannelInfo where
  channelId : String
  shutdownTransactionHash : Option String

/-- What the node answers during one call, for transactions of type `τ`. -/
structure Fiber (τ : Type) where
  openChannelWithExternalFunding : (pubkey : String) → (fundingAmount : Int) →
    Except String (String × τ)
  submitSignedFundingTx : (channelId : String) → τ → Except String Unit
  sendPayment : PaymentRequest → Except String String
  /-- The amount in an invoice. -/
  parseInvoice : String → Except String (Option Nat)
  getPayment : (paymentHash : String) → List (Option PaymentInfo)
  shutdownChannel : (channelId : String) → Except String Unit
  listChannels : List (Option (List ChannelInfo))

/-- `Session.signFundingTx` and `fundingTxHash`. -/
structure FundingSession (τ : Type) where
  signFundingTx : τ → Except String τ
  fundingTxHash : τ → Except String String

structure PayInvoiceOpts where
  trampolineHops : Option (List String)
  maxFeeCkb : Option Int

structure OpenResult where
  id : String
  signedBy : String

structure SettleResult where
  localCkb : Int
  remoteCkb : Int
  settleTxHash : String

/-! ## The rail -/

structure LiveRail where
  peerPubkey : String
  budget : Int
  spent : Int
  channelId : String

namespace LiveRail

variable {τ : Type}

def create (peerPubkey : String) : LiveRail := ⟨peerPubkey, 0, 0, ""⟩

def spentCkb (rail : LiveRail) : Int := rail.spent

def remainingCkb (rail : LiveRail) : Int := rail.budget - rail.spent

/-- The first two lines of `open`. -/
def reset (rail : LiveRail) (budgetCkb : Int) : LiveRail :=
  { rail with budget := budgetCkb, spent := 0 }

/-- The rest of `open`. -/
def openChannel (session : FundingSession τ) (fiber : Fiber τ) (budgetCkb : Int) :
    Method LiveRail String OpenResult := do
  let rail ← Method.self
  let (channelId, unsigned) ← Method.lift
    (fiber.openChannelWithExternalFunding rail.peerPubkey (budgetCkb * CKB))
  let signed ← Method.lift (session.signFundingTx unsigned)
  Method.lift (fiber.submitSignedFundingTx channelId signed)
  Method.put { rail with channelId }
  -- this can still throw, over a channel that is set
  let id ← Method.lift (session.fundingTxHash unsigned)
  pure { id, signedBy := "session key (live · in-browser Fiber node)" }

def pay (fiber : Fiber τ) (costCkb : Int) : Method LiveRail String Unit := do
  let rail ← Method.self
  let _ ← Method.lift (fiber.sendPayment (.keysend rail.peerPubkey (costCkb * CKB)))
  -- counted as soon as the node has taken it
  Method.put { rail with spent := rail.spent + costCkb }

/-- The polls of one payment, until it is settled, has failed, or the time is up. -/
def waitPaymentSuccess (paymentHash last : String) :
    List (Option PaymentInfo) → Except String PaymentInfo
  | [] =>
    let seen := if last = "" then "unknown" else last
    .error s!"payment {paymentHash.take 12}… not Success within 120s (last: {seen})"
  -- the node does not index the payment yet
  | none :: answers => waitPaymentSuccess paymentHash last answers
  | some p :: answers =>
    if p.status = some "Success" then .ok p
    else if p.status = some "Failed" then
      let detail := p.failedError.getD "(no error detail)"
      .error s!"payment failed: {detail}"
    else waitPaymentSuccess paymentHash (p.status.getD last) answers

/-- An amount of shannons as whole CKB, rounded up. -/
def wholeCkb (shannons : Nat) : Nat := (shannons + CKB - 1) / CKB

def payInvoice (fiber : Fiber τ) (invoice : String) (opts : PayInvoiceOpts) :
    Method LiveRail String Unit := do
  let parsed ← Method.lift (fiber.parseInvoice invoice)
  let amountShannons := parsed.getD 0
  let paymentHash ← Method.lift (fiber.sendPayment
    (.invoice invoice opts.trampolineHops (opts.maxFeeCkb.map (· * CKB))))
  let done ← Method.lift (waitPaymentSuccess paymentHash "" (fiber.getPayment paymentHash))
  -- counted once it has settled, with its fee
  let outShannons := amountShannons + done.fee.getD 0
  let rail ← Method.self
  Method.put { rail with spent := rail.spent + wholeCkb outShannons }

/-- At most ten looks at the node's channels for the transaction that closes this one. -/
def settleTxHash (channelId : String) (lists : List (Option (List ChannelInfo))) : String :=
  ((lists.take 10).findSome? fun channels => do
    let ch ← (← channels).find? (·.channelId = channelId)
    ch.shutdownTransactionHash.filter (· ≠ "")).getD ""

def close (fiber : Fiber τ) : Method LiveRail String SettleResult := do
  let rail ← Method.self
  Method.lift (fiber.shutdownChannel rail.channelId)
  pure
    { localCkb := rail.budget - rail.spent
      remoteCkb := rail.spent
      settleTxHash := settleTxHash rail.channelId fiber.listChannels }

end LiveRail

/-! ## What a call does to the rail -/

/-- A call that spends: a payment of an amount, or of an invoice, with the amount of the invoice
and the fee of its payment in shannons. -/
inductive Spending where
  | pay (costCkb : Int)
  | payInvoice (invoice : String) (opts : PayInvoiceOpts) (amount fee : Nat)

namespace Spending

variable {τ : Type}

/-- What leaves the channel if the payment settles. -/
def cost : Spending → Int
  | .pay costCkb => costCkb
  | .payInvoice _ _ amount fee => LiveRail.wholeCkb (amount + fee)

def run (fiber : Fiber τ) : Spending → Method LiveRail String Unit
  | .pay costCkb => LiveRail.pay fiber costCkb
  | .payInvoice invoice opts _ _ => LiveRail.payInvoice fiber invoice opts

/-- Whether the node lets the call return: it takes the payment and, for an invoice, reports
it as settled before the deadline. -/
def resolves (fiber : Fiber τ) (peerPubkey : String) : Spending → Bool
  | .pay costCkb => (fiber.sendPayment (.keysend peerPubkey (costCkb * CKB))).isOk
  | .payInvoice invoice opts _ _ =>
    (fiber.parseInvoice invoice).isOk &&
      match fiber.sendPayment
        (.invoice invoice opts.trampolineHops (opts.maxFeeCkb.map (· * CKB))) with
      | .ok paymentHash =>
        (LiveRail.waitPaymentSuccess paymentHash "" (fiber.getPayment paymentHash)).isOk
      | .error _ => false

/-- The amount and the fee are those the node tells. -/
def Reported (fiber : Fiber τ) : Spending → Prop
  | .pay _ => True
  | .payInvoice invoice _ amount fee =>
    (∀ parsed, fiber.parseInvoice invoice = .ok parsed → parsed.getD 0 = amount) ∧
      ∀ paymentHash, ∀ p, some p ∈ fiber.getPayment paymentHash → p.status = some "Success" →
        p.fee.getD 0 = fee

variable {fiber : Fiber τ} {rail : LiveRail}

theorem of_waitPaymentSuccess {paymentHash last : String} {answers : List (Option PaymentInfo)}
    {p : PaymentInfo} (h : LiveRail.waitPaymentSuccess paymentHash last answers = .ok p) :
    some p ∈ answers ∧ p.status = some "Success" := by
  -- induction on the polls; only a Success ends them well
  induction answers generalizing last with
  | nil => cases h
  | cons answer answers ih =>
    cases answer with
    | none =>
      obtain ⟨hmem, hstatus⟩ := ih h
      exact ⟨List.mem_cons_of_mem _ hmem, hstatus⟩
    | some q =>
      unfold LiveRail.waitPaymentSuccess at h
      by_cases hsuccess : q.status = some "Success"
      · rw [if_pos hsuccess] at h
        cases h
        exact ⟨List.mem_cons_self, hsuccess⟩
      · rw [if_neg hsuccess] at h
        by_cases hfailed : q.status = some "Failed"
        · rw [if_pos hfailed] at h
          cases h
        · rw [if_neg hfailed] at h
          obtain ⟨hmem, hstatus⟩ := ih h
          exact ⟨List.mem_cons_of_mem _ hmem, hstatus⟩

theorem call_pay (costCkb : Int) :
    ((LiveRail.pay fiber costCkb).call rail).2 =
      if (Spending.pay costCkb).resolves fiber rail.peerPubkey then
        { rail with spent := rail.spent + costCkb }
      else rail := by
  unfold LiveRail.pay
  rw [Method.call_self_bind, resolves]
  cases fiber.sendPayment (.keysend rail.peerPubkey (costCkb * CKB)) with
  | error message => rfl
  | ok paymentHash => rfl

theorem call_payInvoice {invoice : String} {opts : PayInvoiceOpts} {amount fee : Nat}
    (hreported : (Spending.payInvoice invoice opts amount fee).Reported fiber) :
    ((LiveRail.payInvoice fiber invoice opts).call rail).2 =
      if (Spending.payInvoice invoice opts amount fee).resolves fiber rail.peerPubkey then
        { rail with spent := rail.spent + LiveRail.wholeCkb (amount + fee) }
      else rail := by
  obtain ⟨hamount, hfee⟩ := hreported
  unfold LiveRail.payInvoice
  rw [resolves]
  cases hparse : fiber.parseInvoice invoice with
  | error message => rfl
  | ok parsed =>
    rw [Method.call_lift_ok_bind]
    cases hsend : fiber.sendPayment
        (.invoice invoice opts.trampolineHops (opts.maxFeeCkb.map (· * CKB))) with
    | error message => rfl
    | ok paymentHash =>
      rw [Method.call_lift_ok_bind]
      cases hwait : LiveRail.waitPaymentSuccess paymentHash "" (fiber.getPayment paymentHash) with
      | error message =>
        simp only [hwait]
        rfl
      | ok done =>
        -- the fee that is added is the one of the report
        obtain ⟨hmem, hstatus⟩ := of_waitPaymentSuccess hwait
        rw [Method.call_lift_ok_bind, Method.call_self_bind, hamount parsed hparse,
          hfee paymentHash done hmem hstatus]
        simp only [hwait]
        rfl

/-- **A call that spends** adds what its payment costs if the node lets it return, and nothing
otherwise. -/
theorem call_run (s : Spending) (hreported : s.Reported fiber) :
    ((s.run fiber).call rail).2 =
      if s.resolves fiber rail.peerPubkey then { rail with spent := rail.spent + s.cost }
      else rail := by
  cases s with
  | pay costCkb => exact call_pay costCkb
  | payInvoice invoice opts amount fee => exact call_payInvoice hreported

end Spending

/-! ## Opening a channel -/

namespace LiveRail

variable {τ : Type} {session : FundingSession τ} {fiber : Fiber τ} {rail : LiveRail}

/-- The channel that `open` has the node open, if nothing fails on the way. -/
def opened (session : FundingSession τ) (fiber : Fiber τ) (peerPubkey : String)
    (budgetCkb : Int) : Option String :=
  match fiber.openChannelWithExternalFunding peerPubkey (budgetCkb * CKB) with
  | .error _ => none
  | .ok (channelId, unsigned) =>
    match session.signFundingTx unsigned with
    | .error _ => none
    | .ok signed =>
      match fiber.submitSignedFundingTx channelId signed with
      | .error _ => none
      | .ok _ => some channelId

/-- The accounts are not touched once the node is asked. -/
theorem call_openChannel (budgetCkb : Int) :
    ((openChannel session fiber budgetCkb).call rail).2 =
      match opened session fiber rail.peerPubkey budgetCkb with
      | some channelId => { rail with channelId }
      | none => rail := by
  unfold openChannel opened
  rw [Method.call_self_bind]
  rcases fiber.openChannelWithExternalFunding rail.peerPubkey (budgetCkb * CKB) with
    message | ⟨channelId, unsigned⟩
  · rfl
  · rw [Method.call_lift_ok_bind]
    dsimp only
    cases session.signFundingTx unsigned with
    | error message => rfl
    | ok signed =>
      rw [Method.call_lift_ok_bind]
      dsimp only
      cases fiber.submitSignedFundingTx channelId signed with
      | error message => rfl
      | ok _ =>
        -- the id is computed after the channel is set
        rw [Method.call_lift_ok_bind, Method.call_put_bind]
        cases session.fundingTxHash unsigned with
        | error message => rfl
        | ok id => rfl

end LiveRail

end CkbController.SdkJs
