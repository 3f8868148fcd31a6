import CkbController.Lib.Trace
import CkbController.SdkJs.LiveRail
import Mathlib.Algebra.BigOperators.Group.List.Basic
import Mathlib.Algebra.Order.BigOperators.Group.List
import Mathlib.Algebra.Order.Ring.Int
import Mathlib.Tactic.Ring

/-!
# The live rail's accounts

The rail next to its node, with calls that overlap in any way. A payment goes its own way: it is
sent, and settles or fails, whether or not the call that made it has returned. The rail counts what
a call spends when the call returns, so its accounts are right as long as every payment is settled
by then or never. What the channel was funded with is kept beside the rail, whose own `budget` is
that of the last call of `open`, whether or not that call got a channel.

* `Counts.step` — what every step that meets the condition keeps;
* `live_rail_accounts` — so the accounts follow the money at every moment with no call in flight.
-/

namespace CkbController.SdkJs.LiveRail

variable {τ : Type}

/-! ## The system -/

/-- What has become of the payment of a call. -/
inductive Payment where
  | unsent
  | inFlight
  | settled
  | failed
deriving DecidableEq

inductive Payment.Moves : Payment → Payment → Prop where
  | sent : Moves .unsent .inFlight
  | settled : Moves .inFlight .settled
  | failed : Moves .inFlight .failed

/-- A call of `pay` or `payInvoice`, over the channel that is open when it is made. -/
structure Outgoing where
  spending : Spending
  payment : Payment
  /-- Whether the call has returned, and whether it resolved. -/
  returned : Option Bool
  channel : Nat

/-- What the call adds to the total of the calls over a channel that are `p`. -/
def Outgoing.share (channel : Nat) (p : Outgoing → Bool) (o : Outgoing) : Int :=
  if o.channel = channel ∧ p o = true then o.spending.cost else 0

/-- The rail beside what has really happened to its channels and payments. -/
structure World where
  rail : LiveRail
  /-- The channels opened so far; the last one is the rail's. -/
  channel : Nat
  /-- What the last one was funded with, in CKB. -/
  funded : Option Int
  /-- The budgets of the calls of `open` that have not returned. -/
  opening : List Int
  outgoing : List Outgoing

inductive Event (τ : Type) where
  | openStart (budgetCkb : Int)
  | openEnd (budgetCkb : Int) (fiber : Fiber τ)
  | call (spending : Spending)
  | moves (o : Outgoing) (payment : Payment)
  | returns (o : Outgoing) (fiber : Fiber τ)
  | close (fiber : Fiber τ)

/-- One step. A call takes effect on the rail when it returns, `open` also when it is made. -/
inductive Step (session : FundingSession τ) : World → Event τ → World → Prop where
  | openStart (w : World) (budgetCkb : Int) :
      Step session w (.openStart budgetCkb) { w with
        rail := w.rail.reset budgetCkb
        opening := w.opening ++ [budgetCkb] }
  | openEnd (w : World) {before after : List Int} {budgetCkb : Int} (fiber : Fiber τ)
      (pending : w.opening = before ++ budgetCkb :: after) :
      Step session w (.openEnd budgetCkb fiber) { w with
        rail := ((openChannel session fiber budgetCkb).call w.rail).2
        channel := w.channel +
          if (opened session fiber w.rail.peerPubkey budgetCkb).isSome then 1 else 0
        -- the node is asked for this amount, and for no other
        funded :=
          if (opened session fiber w.rail.peerPubkey budgetCkb).isSome then some budgetCkb
          else w.funded
        opening := before ++ after }
  | call (w : World) (spending : Spending) :
      Step session w (.call spending) { w with
        outgoing := w.outgoing ++ [⟨spending, .unsent, none, w.channel⟩] }
  | moves (w : World) {before after : List Outgoing} {o : Outgoing} {payment : Payment}
      (known : w.outgoing = before ++ o :: after) (move : o.payment.Moves payment) :
      Step session w (.moves o payment) { w with
        outgoing := before ++ { o with payment } :: after }
  | returns (w : World) {before after : List Outgoing} {o : Outgoing} (fiber : Fiber τ)
      (known : w.outgoing = before ++ o :: after) (pending : o.returned = none)
      (reported : o.spending.Reported fiber) :
      Step session w (.returns o fiber) { w with
        rail := ((o.spending.run fiber).call w.rail).2
        outgoing := before ++
          { o with returned := some (o.spending.resolves fiber w.rail.peerPubkey) } :: after }
  | close (w : World) (fiber : Fiber τ) : Step session w (.close fiber) w

namespace World

def start (peerPubkey : String) : World := ⟨.create peerPubkey, 0, none, [], []⟩

/-- No call is in flight. -/
def Idle (w : World) : Prop := w.opening = [] ∧ ∀ o ∈ w.outgoing, o.returned ≠ none

/-- The cost of the payments over the rail's channel that are `p`. -/
def total (w : World) (p : Outgoing → Bool) : Int :=
  (w.outgoing.map (Outgoing.share w.channel p)).sum

/-- What left the channel. -/
def left (w : World) : Int := w.total fun o => o.payment = .settled

/-- What the calls added to `spent`. -/
def counted (w : World) : Int := w.total fun o => o.returned = some true

/-- What the channel was funded with. Before the first one, what was asked for. -/
def budget (w : World) : Int := w.funded.getD w.rail.budget

/-- The accounts agree with the channel: with what left it, and with what it was funded with. -/
structure Accounts (w : World) : Prop where
  spent : w.rail.spentCkb = w.left
  remaining : 0 ≤ w.rail.remainingCkb ∧ w.rail.remainingCkb ≤ w.budget
  close : ∀ {τ : Type} (fiber : Fiber τ) (result : SettleResult),
    ((LiveRail.close fiber).call w.rail).1 = .ok result →
      result.localCkb + result.remoteCkb = w.budget ∧ 0 ≤ result.localCkb ∧ 0 ≤ result.remoteCkb

/-- `open` is called alone, with a budget, and does not fail over a channel, unless the channel is
unused and was funded with the same budget. A payment is of no negative amount, settles before its
call returns or never, and only while the channel's funding covers it; the call resolves if it
did. -/
def Meets (session : FundingSession τ) (w : World) : Event τ → Prop
  | .openStart budgetCkb => 0 ≤ budgetCkb ∧ w.Idle
  | .openEnd budgetCkb fiber =>
    (opened session fiber w.rail.peerPubkey budgetCkb).isSome = true ∨
      w.left = 0 ∧ ∀ funded, w.funded = some funded → budgetCkb = funded
  | .call spending => w.opening = [] ∧ 0 ≤ spending.cost
  | .moves o payment => payment = .settled →
    o.channel ≠ w.channel ∨ o.spending.cost = 0 ∨
      o.returned = none ∧ w.left + o.spending.cost ≤ w.funded.getD 0
  | .returns o fiber => o.spending.cost = 0 ∨
    (o.spending.resolves fiber w.rail.peerPubkey = true ↔ o.payment = .settled)
  | .close _ => True

end World

/-! ## What holds of every step -/

/-- The count is what the calls over this channel added, a call that has returned added what its
payment took from the channel, and what left the channel is covered by its funding. -/
structure Counts (w : World) : Prop where
  spent : w.opening = [] → w.rail.spent = w.counted
  budget : w.opening = [] →
    0 ≤ w.rail.budget ∧ ∀ funded, w.funded = some funded → w.rail.budget = funded
  covered : w.left ≤ w.funded.getD 0
  costs : ∀ o ∈ w.outgoing, 0 ≤ o.spending.cost
  agree : ∀ o ∈ w.outgoing, o.channel = w.channel → o.spending.cost ≠ 0 →
    ∀ resolved, o.returned = some resolved → (resolved = true ↔ o.payment = .settled)
  channels : ∀ o ∈ w.outgoing, o.channel ≤ w.channel
  current : ∀ o ∈ w.outgoing, o.returned = none → o.channel = w.channel
  opening : ∀ budgetCkb ∈ w.opening, w.opening = [budgetCkb] ∧ 0 ≤ budgetCkb ∧
    w.rail.budget = budgetCkb ∧ w.rail.spent = 0 ∧ ∀ o ∈ w.outgoing, o.returned ≠ none

section Steps

variable {session : FundingSession τ} {fiber : Fiber τ} {w w' : World} {event : Event τ}
  {before after : List Outgoing} {o o' : Outgoing} {budgetCkb : Int}

/-- A total is the total of the others and the share of one. -/
theorem sum_share (channel : Nat) (p : Outgoing → Bool) :
    ((before ++ o :: after).map (Outgoing.share channel p)).sum =
      ((before ++ after).map (Outgoing.share channel p)).sum + o.share channel p := by
  simp only [List.map_append, List.map_cons, List.sum_append, List.sum_cons]
  ring

/-- A call that is not `p` has no share. -/
theorem share_of_not {channel : Nat} {p : Outgoing → Bool} (h : p o = false) :
    o.share channel p = 0 := by
  unfold Outgoing.share
  rw [if_neg]
  simp [h]

/-- The call that a step is about is one of those that were made. -/
theorem mem_known (known : w.outgoing = before ++ o :: after) : o ∈ w.outgoing := by
  rw [known]
  exact List.mem_append_right _ List.mem_cons_self

/-- What holds of every call still does when one of them is replaced by another it holds of. -/
theorem forall_replace {p : Outgoing → Prop} (known : w.outgoing = before ++ o :: after)
    (hall : ∀ o ∈ w.outgoing, p o) (hnew : p o → p o') : ∀ o ∈ before ++ o' :: after, p o := by
  intro other hother
  rw [known] at hall
  rcases List.mem_append.mp hother with hbefore | hother
  · exact hall other (List.mem_append_left _ hbefore)
  · rcases List.mem_cons.mp hother with hthis | hafter
    · rw [hthis]
      exact hnew (hall o (List.mem_append_right _ List.mem_cons_self))
    · exact hall other (List.mem_append_right _ (List.mem_cons_of_mem _ hafter))

/-- A total changes by the share of the call that is replaced, whatever else changes. -/
theorem total_replace (known : w.outgoing = before ++ o :: after) (o' : Outgoing)
    (rail : LiveRail) (p : Outgoing → Bool) :
    World.total { w with rail, outgoing := before ++ o' :: after } p =
      w.total p - o.share w.channel p + o'.share w.channel p := by
  unfold World.total
  rw [known, sum_share, sum_share]
  ring

/-- A call over this channel that is not `p` yet adds nothing to the total. -/
theorem total_call {p : Outgoing → Bool} (h : p o = false) :
    World.total { w with outgoing := w.outgoing ++ [o] } p = w.total p := by
  show ((w.outgoing ++ [o]).map _).sum = _
  rw [List.map_append, List.sum_append, List.map_singleton, List.sum_singleton, share_of_not h,
    Int.add_zero]
  rfl

/-- No payment made so far is over the next channel. -/
theorem total_next (h : Counts w) (p : Outgoing → Bool) :
    (w.outgoing.map (Outgoing.share (w.channel + 1) p)).sum = 0 := by
  refine List.sum_eq_zero fun x hx => ?_
  obtain ⟨o, ho, hshare⟩ := List.mem_map.mp hx
  have hle := h.channels o ho
  rw [← hshare, Outgoing.share, if_neg fun hc => Nat.not_succ_le_self _ (hc.1 ▸ hle)]

/-- With no call in flight, what was counted is what left. -/
theorem Counts.counted_eq_left (h : Counts w) (hall : ∀ o ∈ w.outgoing, o.returned ≠ none) :
    w.counted = w.left := by
  unfold World.counted World.left World.total
  congr 1
  refine List.map_congr_left fun o ho => ?_
  obtain ⟨resolved, hresolved⟩ := Option.ne_none_iff_exists'.mp (hall o ho)
  unfold Outgoing.share
  by_cases hchannel : o.channel = w.channel
  · by_cases hcost : o.spending.cost = 0
    · rw [hcost, ite_self, ite_self]
    · have hagree := h.agree o ho hchannel hcost resolved hresolved
      simp only [hchannel, hresolved, true_and, decide_eq_true_eq, Option.some_inj, hagree]
  · rw [if_neg fun hc => hchannel hc.1, if_neg fun hc => hchannel hc.1]

/-- No payment takes less than nothing. -/
theorem Counts.left_nonneg (h : Counts w) : 0 ≤ w.left := by
  refine List.sum_nonneg fun x hx => ?_
  obtain ⟨o, ho, rfl⟩ := List.mem_map.mp hx
  unfold Outgoing.share
  split
  · exact h.costs o ho
  · exact Int.le_refl 0

/-- `open` resets the accounts before it asks the node for anything. -/
theorem Counts.openStart (h : Counts w) (hbudget : 0 ≤ budgetCkb) (hidle : w.Idle) :
    Counts { w with rail := w.rail.reset budgetCkb, opening := w.opening ++ [budgetCkb] } where
  -- the call of `open` is pending: nothing is said of the count
  spent hopening := absurd hopening (List.append_ne_nil_of_right_ne_nil _ (List.cons_ne_nil _ _))
  budget hopening := absurd hopening (List.append_ne_nil_of_right_ne_nil _ (List.cons_ne_nil _ _))
  covered := h.covered
  costs := h.costs
  agree := h.agree
  channels := h.channels
  current := h.current
  -- no other call was in flight
  opening := by
    intro b hb
    rw [hidle.1] at hb ⊢
    cases List.mem_singleton.mp hb
    exact ⟨rfl, hbudget, rfl, rfl, hidle.2⟩

/-- Either there is a new channel, without payments and funded with the budget, or nothing had left
the old one and its funding is this budget too. -/
theorem Counts.openEnd {before after : List Int} (h : Counts w)
    (pending : w.opening = before ++ budgetCkb :: after)
    (hmeets : (opened session fiber w.rail.peerPubkey budgetCkb).isSome = true ∨
      w.left = 0 ∧ ∀ funded, w.funded = some funded → budgetCkb = funded) :
    Counts { w with
      rail := ((openChannel session fiber budgetCkb).call w.rail).2
      channel := w.channel +
        if (opened session fiber w.rail.peerPubkey budgetCkb).isSome then 1 else 0
      funded :=
        if (opened session fiber w.rail.peerPubkey budgetCkb).isSome then some budgetCkb
        else w.funded
      opening := before ++ after } := by
  obtain ⟨halone, hnonneg, hbudget, hspent, hall⟩ := h.opening budgetCkb (by rw [pending]; simp)
  have hnone : before ++ after = [] := by
    have hlength := congrArg List.length (pending.symm.trans halone)
    simp only [List.length_append, List.length_cons, List.length_nil] at hlength
    exact List.eq_nil_of_length_eq_zero (by rw [List.length_append]; omega)
  rw [call_openChannel, hnone]
  -- either the channel changes under the payments made so far, or nothing does
  cases hopened : opened session fiber w.rail.peerPubkey budgetCkb with
  | some channelId =>
    refine ⟨fun _ => ?_, fun _ => ⟨hbudget ▸ hnonneg, fun funded hfunded => ?_⟩, ?_, h.costs, ?_,
      ?_, ?_, ?_⟩
    · show w.rail.spent = (w.outgoing.map (Outgoing.share (w.channel + 1) _)).sum
      rw [hspent, total_next h]
    · rw [← Option.some.inj hfunded]
      exact hbudget
    · show (w.outgoing.map (Outgoing.share (w.channel + 1) _)).sum ≤ budgetCkb
      rw [total_next h]
      exact hnonneg
    · intro o ho hchannel
      have := h.channels o ho
      simp at hchannel
      omega
    · intro o ho
      exact Nat.le_succ_of_le (h.channels o ho)
    · intro o ho hpending
      exact absurd hpending (hall o ho)
    · intro b hb
      cases hb
  | none =>
    rw [hopened] at hmeets
    obtain ⟨hleft, hsame⟩ := hmeets.resolve_left Bool.false_ne_true
    refine ⟨fun _ => ?_, fun _ => ⟨hbudget ▸ hnonneg, fun funded hfunded => ?_⟩, h.covered, h.costs,
      h.agree, h.channels, h.current, ?_⟩
    · show w.rail.spent = w.counted
      rw [h.counted_eq_left hall, hleft, hspent]
    · exact hbudget.trans (hsame funded hfunded)
    · intro b hb
      cases hb

/-- A call that is made has sent nothing yet. -/
theorem Counts.call {spending : Spending} (h : Counts w) (hopening : w.opening = [])
    (hcost : 0 ≤ spending.cost) :
    Counts { w with outgoing := w.outgoing ++ [⟨spending, .unsent, none, w.channel⟩] } := by
  refine ⟨fun _ => ?_, h.budget, ?_, ?_, ?_, ?_, ?_, ?_⟩
  · -- a new call has no share in any total
    rw [World.counted, total_call rfl]
    exact h.spent hopening
  · rw [World.left, total_call rfl]
    exact h.covered
  · intro o ho
    rcases List.mem_append.mp ho with ho | ho
    · exact h.costs o ho
    · cases List.mem_singleton.mp ho
      exact hcost
  · intro o ho
    rcases List.mem_append.mp ho with ho | ho
    · exact h.agree o ho
    · cases List.mem_singleton.mp ho
      intro _ _ resolved hresolved
      cases hresolved
  · intro o ho
    rcases List.mem_append.mp ho with ho | ho
    · exact h.channels o ho
    · cases List.mem_singleton.mp ho
      exact Nat.le_refl _
  · intro o ho
    rcases List.mem_append.mp ho with ho | ho
    · exact h.current o ho
    · -- the new call is over the channel that is open now
      cases List.mem_singleton.mp ho
      exact fun _ => rfl
  · intro b hb
    rw [hopening] at hb
    cases hb

/-- A payment that settles takes its cost from the channel, and its call counts it later. -/
theorem Counts.moves {payment : Payment} (h : Counts w) (known : w.outgoing = before ++ o :: after)
    (move : o.payment.Moves payment)
    (hmeets : payment = .settled → o.channel ≠ w.channel ∨ o.spending.cost = 0 ∨
      o.returned = none ∧ w.left + o.spending.cost ≤ w.funded.getD 0) :
    Counts { w with outgoing := before ++ { o with payment } :: after } := by
  -- a payment settles once
  have hnot : o.payment ≠ .settled := by
    intro hsettled
    rw [hsettled] at move
    cases move
  refine ⟨fun hopening => ?_, h.budget, ?_,
    forall_replace known h.costs id, forall_replace known h.agree fun hagree => ?_,
    forall_replace known h.channels id, forall_replace known h.current id, fun b hb => ?_⟩
  · have hsame : Outgoing.share w.channel (fun o => o.returned = some true) { o with payment } =
        o.share w.channel (fun o => o.returned = some true) := rfl
    rw [World.counted, total_replace known, hsame, Int.sub_add_cancel]
    exact h.spent hopening
  · -- what leaves now is covered by what the channel still holds
    have hcovered := h.covered
    have hold : o.share w.channel (fun o => o.payment = .settled) = 0 :=
      share_of_not (decide_eq_false hnot)
    rw [World.left, total_replace known, hold, Int.sub_zero]
    show w.left + _ ≤ w.funded.getD 0
    unfold Outgoing.share
    split
    · next hshare =>
      obtain ⟨hchannel, hsettled⟩ := hshare
      show w.left + o.spending.cost ≤ w.funded.getD 0
      rcases hmeets (of_decide_eq_true hsettled) with hother | hzero | ⟨-, hle⟩
      · exact absurd hchannel hother
      · rw [hzero, Int.add_zero]
        exact hcovered
      · exact hle
    · rw [Int.add_zero]
      exact hcovered
  · -- if the call has returned, its payment has not settled and does not settle now
    intro hchannel hcost resolved hresolved
    have hnot' : payment ≠ .settled := by
      intro hsettled
      rcases hmeets hsettled with hother | hzero | ⟨hpending, -⟩
      · exact hother hchannel
      · exact hcost hzero
      · exact Option.some_ne_none _ (hresolved.symm.trans hpending)
    exact iff_of_false (fun hr => hnot ((hagree hchannel hcost resolved hresolved).mp hr)) hnot'
  · obtain ⟨halone, hnonneg, hbudget, hspent, hall⟩ := h.opening b hb
    exact ⟨halone, hnonneg, hbudget, hspent, forall_replace known hall id⟩

/-- The call adds what its payment took from the channel. -/
theorem Counts.returns (h : Counts w) (known : w.outgoing = before ++ o :: after)
    (pending : o.returned = none) (reported : o.spending.Reported fiber)
    (hsettled : o.spending.cost = 0 ∨
      (o.spending.resolves fiber w.rail.peerPubkey = true ↔ o.payment = .settled)) :
    Counts { w with
      rail := ((o.spending.run fiber).call w.rail).2
      outgoing := before ++
        { o with returned := some (o.spending.resolves fiber w.rail.peerPubkey) } :: after } := by
  have hopening : w.opening = [] := by
    refine List.eq_nil_iff_forall_not_mem.mpr fun b hb => ?_
    exact (h.opening b hb).2.2.2.2 o (mem_known known) pending
  have hspent := h.spent hopening
  have hchannel := h.current o (mem_known known) pending
  have hold : o.share w.channel (fun o => o.returned = some true) = 0 :=
    share_of_not (by simp [pending])
  rw [Spending.call_run o.spending reported]
  -- no open is in flight, or this call would have been returned before it
  refine ⟨fun _ => ?_, fun _ => ?_, ?_,
    forall_replace known h.costs id, forall_replace known h.agree fun _ => ?_,
    forall_replace known h.channels id, forall_replace known h.current fun _ hnone => ?_,
    fun b hb => ?_⟩
  · rw [World.counted, total_replace known, hold, ← World.counted, ← hspent]
    unfold Outgoing.share
    by_cases hresolves : o.spending.resolves fiber w.rail.peerPubkey = true
    · simp [hresolves, hchannel]
    · simp [hresolves]
  · have hbudget := h.budget hopening
    split
    · exact hbudget
    · exact hbudget
  · -- the payment is where it was
    have hsame : Outgoing.share w.channel (fun o => o.payment = .settled)
        { o with returned := some (o.spending.resolves fiber w.rail.peerPubkey) } =
          o.share w.channel (fun o => o.payment = .settled) := rfl
    rw [World.left, total_replace known, hsame, Int.sub_add_cancel]
    exact h.covered
  · intro _ hcost resolved hresolved
    cases hresolved
    exact hsettled.resolve_left hcost
  · cases hnone
  · rw [hopening] at hb
    cases hb

/-- **One step** that meets the condition. -/
theorem Counts.step (h : Counts w) (hstep : Step session w event w')
    (hmeets : w.Meets session event) : Counts w' := by
  cases hstep with
  | openStart budgetCkb => exact h.openStart hmeets.1 hmeets.2
  | openEnd fiber pending => exact h.openEnd pending hmeets
  | call spending => exact h.call hmeets.1 hmeets.2
  | moves known move => exact h.moves known move hmeets
  | returns fiber known pending reported => exact h.returns known pending reported hmeets
  | close fiber => exact h

/-- With no call in flight the rail's budget is what the channel was funded with, and no more has
left than that. -/
theorem Counts.bounds (h : Counts w) (hidle : w.Idle) :
    w.rail.budget = w.budget ∧ w.left ≤ w.budget := by
  obtain ⟨hnonneg, hbudget⟩ := h.budget hidle.1
  have hcovered := h.covered
  unfold World.budget
  cases hfunded : w.funded with
  | some funded =>
    rw [hfunded] at hcovered
    exact ⟨hbudget funded hfunded, hcovered⟩
  | none =>
    rw [hfunded] at hcovered
    exact ⟨rfl, le_trans hcovered hnonneg⟩

/-- With no call in flight, the rail's numbers are those of the channel. -/
theorem Counts.accounts (h : Counts w) (hidle : w.Idle) : w.Accounts := by
  -- with no call in flight, what was counted is what left
  have hspent : w.rail.spent = w.left := by rw [h.spent hidle.1, h.counted_eq_left hidle.2]
  have hnonneg := h.left_nonneg
  obtain ⟨hbudget, hcovered⟩ := h.bounds hidle
  refine ⟨hspent, ?_, ?_⟩
  · unfold remainingCkb
    omega
  · intro τ fiber result hclose
    unfold LiveRail.close at hclose
    rw [Method.call_self_bind] at hclose
    cases hshutdown : fiber.shutdownChannel w.rail.channelId with
    | error message =>
      rw [hshutdown] at hclose
      cases hclose
    | ok _ =>
      rw [hshutdown] at hclose
      cases hclose
      -- the rail reports its own budget in two parts; it is the channel's by `bounds`
      show w.rail.budget - w.rail.spent + w.rail.spent = w.budget ∧
        0 ≤ w.rail.budget - w.rail.spent ∧ 0 ≤ w.rail.spent
      omega

end Steps

/-! ## Runs -/

/-- A new rail has no channel and no calls. -/
theorem counts_start (peerPubkey : String) : Counts (.start peerPubkey) where
  spent _ := rfl
  budget _ := ⟨Int.le_refl 0, fun _ h => by cases h⟩
  covered := Int.le_refl 0
  costs o ho := by cases ho
  agree o ho := by cases ho
  channels o ho := by cases ho
  current o ho := by cases ho
  opening b hb := by cases hb

/-- **The accounts follow the money**, in every run of calls whose payments settle before their
calls return or never and while the channel covers them, at every moment with no call in flight. -/
theorem live_rail_accounts (session : FundingSession τ) (peerPubkey : String)
    (events : List (Event τ)) (w : World)
    (run : Trace (fun w event w' => Step session w event w' ∧ w.Meets session event)
      (.start peerPubkey) events w) (hidle : w.Idle) : w.Accounts := by
  refine (run.invariant (fun _ w => Counts w) (counts_start peerPubkey) ?_).accounts hidle
  intro _ w event w' h hstep
  exact h.step hstep.1 hstep.2

/-! ### A payment that settles in time, and a payment that fails after its call has resolved -/

section Sample

/-- A node that takes everything. -/
def sampleFiber : Fiber Unit where
  openChannelWithExternalFunding _ _ := .ok ("0x01", ())
  submitSignedFundingTx _ _ := .ok ()
  sendPayment _ := .ok "0xaa"
  parseInvoice _ := .ok none
  getPayment _ := []
  shutdownChannel _ := .ok ()
  listChannels := []

def sampleFunding : FundingSession Unit where
  signFundingTx := .ok
  fundingTxHash _ := .ok "0x11"

/-- A payment of 5 CKB over the first channel. -/
def sampleOutgoing (payment : Payment) (returned : Option Bool) : Outgoing :=
  ⟨.pay 5, payment, returned, 1⟩

def sampleWorld (spent : Int) (payment : Payment) (returned : Option Bool) : World :=
  ⟨⟨"0x02", 1000, spent, "0x01"⟩, 1, some 1000, [], [sampleOutgoing payment returned]⟩

/-- A channel of 1000 CKB is opened, and the payment is sent. -/
def sendEvents : List (Event Unit) :=
  [.openStart 1000, .openEnd 1000 sampleFiber, .call (.pay 5),
    .moves (sampleOutgoing .unsent none) .inFlight]

/-- Every step of this run meets the condition. -/
theorem run_send : Trace (fun w event w' => Step sampleFunding w event w' ∧
    w.Meets sampleFunding event) (.start "0x02") sendEvents (sampleWorld 0 .inFlight none) := by
  have hstart : Step sampleFunding (.start "0x02") (.openStart 1000)
      ⟨⟨"0x02", 1000, 0, ""⟩, 0, none, [1000], []⟩ := .openStart _ 1000
  have hopen : Step sampleFunding ⟨⟨"0x02", 1000, 0, ""⟩, 0, none, [1000], []⟩
      (.openEnd 1000 sampleFiber) ⟨⟨"0x02", 1000, 0, "0x01"⟩, 1, some 1000, [], []⟩ :=
    @Step.openEnd _ sampleFunding _ [] [] 1000 sampleFiber rfl
  have hcall : Step sampleFunding ⟨⟨"0x02", 1000, 0, "0x01"⟩, 1, some 1000, [], []⟩
      (.call (.pay 5))
      (sampleWorld 0 .unsent none) := .call _ (.pay 5)
  have hsent : Step sampleFunding (sampleWorld 0 .unsent none)
      (.moves (sampleOutgoing .unsent none) .inFlight) (sampleWorld 0 .inFlight none) :=
    @Step.moves _ sampleFunding _ [] [] _ _ rfl .sent
  have hidle : World.Idle (.start "0x02") := ⟨rfl, fun o ho => by cases ho⟩
  exact (((Trace.single ⟨hstart, by decide, hidle⟩).snoc ⟨hopen, Or.inl rfl⟩).snoc
    ⟨hcall, rfl, by decide⟩).snoc ⟨hsent, fun h => by cases h⟩

/-- The call resolves, whatever has become of its payment. -/
theorem step_returns (payment : Payment) :
    Step sampleFunding (sampleWorld 0 payment none)
      (.returns (sampleOutgoing payment none) sampleFiber) (sampleWorld 5 payment (some true)) :=
  @Step.returns _ sampleFunding _ [] [] _ sampleFiber rfl rfl trivial

/-- `pay(5)` resolves while the payment is in flight, and the payment fails: 5 CKB are counted and
none have left. -/
theorem failed_payment_counted :
    ∃ w, Trace (Step sampleFunding) (.start "0x02") (sendEvents ++
        [.returns (sampleOutgoing .inFlight none) sampleFiber,
          .moves (sampleOutgoing .inFlight (some true)) .failed]) w ∧
      w.Idle ∧ w.rail.spentCkb = 5 ∧ w.left = 0 ∧ ¬ w.Accounts := by
  have hfailed : Step sampleFunding (sampleWorld 5 .inFlight (some true))
      (.moves (sampleOutgoing .inFlight (some true)) .failed) (sampleWorld 5 .failed (some true)) :=
    @Step.moves _ sampleFunding _ [] [] _ _ rfl .failed
  have hsend := run_send.mono fun _ _ _ hstep => hstep.1
  refine ⟨_, (hsend.snoc (step_returns .inFlight)).snoc hfailed, ⟨rfl, ?_⟩, rfl, rfl, ?_⟩
  · -- the one call has returned
    intro o ho
    cases List.mem_singleton.mp ho
    exact Option.some_ne_none _
  · intro h
    exact absurd h.spent (by decide)

/-- The payment settles before its call returns, and 5 CKB are both counted and gone. -/
theorem live_rail_accounts_one_payment : (sampleWorld 5 .settled (some true)).Accounts := by
  have hsettled : Step sampleFunding (sampleWorld 0 .inFlight none)
      (.moves (sampleOutgoing .inFlight none) .settled) (sampleWorld 0 .settled none) :=
    @Step.moves _ sampleFunding _ [] [] _ _ rfl .settled
  refine live_rail_accounts sampleFunding "0x02" _ _ ((run_send.snoc
    ⟨hsettled, fun _ => Or.inr (Or.inr ⟨rfl, by decide⟩)⟩).snoc
      ⟨step_returns .settled, ?_⟩) ⟨rfl, ?_⟩
  · exact Or.inr (iff_of_true rfl rfl)
  · intro o ho
    cases List.mem_singleton.mp ho
    exact Option.some_ne_none _

end Sample

end CkbController.SdkJs.LiveRail
