import CkbController.Sdk.ChannelAccounting

/-!
# The capacity of channel transactions

What the two transactions of a channel create, against what they spend. The funding transaction
spends the account cell, and the change is a saturating difference; the settle transaction spends
the funding cell, and its output is whatever the rail settles on, clamped to a `u64`. Neither
amount is compared with the cell it comes from, so a transaction can create capacity:

* an `open` whose budget exceeds the account's capacity hands on a funding cell the account cannot
  pay for, and registers it with the rail;
* a `close` writes the rail's balance even where the funding cell never held it.

`Covered` is the condition on one call under which neither happens, and `conserves_iff` shows that
it is exact at every state a run can reach. The in-memory rail settles within the budget, so its
settle transactions always balance.
-/

namespace CkbController.Sdk

open ByteCodec MachineInt

/-! ## What a transaction creates -/

namespace ChannelTx

def outputTotal (tx : ChannelTx) : Nat := (tx.tx.raw.outputs.map fun o => o.capacity.toNat).sum

/-- The cell the caller cares about: funding cell or account cell. -/
def handedOn (tx : ChannelTx) : Option CellOutput := tx.tx.raw.outputs[tx.index]?

end ChannelTx

/-- The funding transaction pays out what the account holds, or the budget if that is more: the
change saturates. -/
theorem outputTotal_buildFundingTx (cfg : ChannelConfig) (budget : U64) :
    (buildFundingTx cfg budget).outputTotal =
      (cfg.accountCapacity.toNat - budget.toNat) + budget.toNat := by
  unfold ChannelTx.outputTotal buildFundingTx accountChange
  simp

theorem handedOn_buildFundingTx (cfg : ChannelConfig) (budget : U64) :
    (buildFundingTx cfg budget).handedOn =
      some { capacity := budget, lock := cfg.fundingLock, type := none } := rfl

/-- An amount is cut to the largest capacity. -/
theorem toNat_shannons_eq_min (amount : U128) :
    (shannons amount).toNat = min amount.toNat (2 ^ 64 - 1) := by
  by_cases h : amount.toNat < 2 ^ 64
  · rw [toNat_shannons h]
    omega
  · unfold shannons
    rw [if_neg h, BitVec.toNat_allOnes]
    omega

/-- The settlement pays the local balance out, as far as a capacity holds it. -/
theorem outputTotal_buildSettleTx (cfg : ChannelConfig) (funding : OutPoint)
    (settlement : Settlement) :
    (buildSettleTx cfg funding settlement).outputTotal =
      min settlement.localBalance.toNat (2 ^ 64 - 1) := by
  unfold ChannelTx.outputTotal buildSettleTx accountChange
  simp [toNat_shannons_eq_min]

/-! ## What one call owes -/

section

variable {ρ χ ε : Type}

/-- The funding transaction of the channel that was opened last. -/
def lastFunding (events : List (Event ε)) : Option ChannelTx :=
  events.foldl (fun funding event =>
    match event with
    | .openChannel _ _ (.ok tx) => some tx
    | _ => funding) none

variable (P : Platform) (R : FiberRail ρ χ ε) (cfg : ChannelConfig)

/-- The rail's answer when the session asks it to register a channel of this budget. -/
def registration (s : ChannelSession ρ χ) (peer : PeerId) (budget : U64) :
    Option (Except ε χ × ρ) :=
  R.openChannel peer (budget.setWidth 128) ((buildFundingTx cfg budget).outpoint P) s.rail

structure OpenConserves (s : ChannelSession ρ χ) (peer : PeerId) (budget : U64)
    (result : Except (ChannelError ε) ChannelTx) (o : Option (ChannelSession ρ χ)) : Prop where
  funded : ∀ tx, result = .ok tx →
    budget.toNat ≤ cfg.accountCapacity.toNat ∧ tx.outputTotal = cfg.accountCapacity.toNat
  refused : s.channel = none → cfg.accountCapacity.toNat < budget.toNat →
    (∃ e, result = .error e) ∧ (∃ s', o = some s' ∧ s'.channel = none) ∧
      ∀ id rail, registration P R cfg s peer budget ≠ some (.ok id, rail)

/-- The settle transaction spends the funding cell, and creates no more than that cell holds. -/
structure CloseConserves (events : List (Event ε))
    (result : Except (ChannelError ε) (Settlement × ChannelTx)) : Prop where
  settled : ∀ settlement tx, result = .ok (settlement, tx) →
    ∃ funding cell, lastFunding events = some funding ∧ funding.handedOn = some cell ∧
      tx.tx.raw.inputs = [{ since := 0, previousOutput := funding.outpoint P }] ∧
      tx.outputTotal ≤ cell.capacity.toNat

/-- A call made in `s`, after the calls `events`, creates no capacity. -/
def Conserves (events : List (Event ε)) (s : ChannelSession ρ χ) (event : Event ε)
    (o : Option (ChannelSession ρ χ)) : Prop :=
  match event with
  | .openChannel peer budget result => OpenConserves P R cfg s peer budget result o
  | .pay _ _ => True
  | .close result => CloseConserves P events result

/-- The amounts of a call are covered: the account pays for the budget, or the rail turns the
channel down; and the rail settles within the budget, or the budget is all a cell can hold. -/
def Covered (s : ChannelSession ρ χ) (event : Event ε) : Prop :=
  match event with
  | .openChannel peer budget _ => s.channel = none →
    budget.toNat ≤ cfg.accountCapacity.toNat ∨
      ∃ e rail, registration P R cfg s peer budget = some (.error e, rail)
  | .pay _ _ => True
  | .close _ => ∀ id settlement rail, s.channel = some id →
    R.close id s.rail = some (.ok settlement, rail) →
    settlement.localBalance.toNat ≤ s.budget.toNat ∨ s.budget.toNat = 2 ^ 64 - 1

end

/-! ## The funding cell behind an open channel -/

section

variable {ρ χ ε : Type} {P : Platform} {R : FiberRail ρ χ ε} {cfg : ChannelConfig} {rail : ρ}
  {events : List (Event ε)} {s : ChannelSession ρ χ} {event : Event ε}
  {o : Option (ChannelSession ρ χ)}

/-- An open channel is backed by the funding transaction returned last. -/
def Backed (P : Platform) (cfg : ChannelConfig) (events : List (Event ε))
    (s : ChannelSession ρ χ) : Prop :=
  s.cfg = cfg ∧ ∀ id, s.channel = some id → ∃ budget : U64,
    s.budget = budget.setWidth 128 ∧
    s.funding = some ((buildFundingTx cfg budget).outpoint P) ∧
    lastFunding events = some (buildFundingTx cfg budget)

/-- A call that keeps the books keeps the funding cell behind them. -/
theorem Backed.sameBooks {s' : ChannelSession ρ χ} {events' : List (Event ε)}
    (h : Backed P cfg events s) (hsame : s.SameBooks s')
    (hlast : lastFunding events' = lastFunding events) : Backed P cfg events' s' := by
  obtain ⟨hcfg, hchannel⟩ := h
  refine ⟨hsame.cfg.trans hcfg, fun id hid => ?_⟩
  rw [hsame.channel] at hid
  rw [hsame.budget, hsame.funding, hlast]
  exact hchannel id hid

/-- **In every run** an open channel is backed by the funding transaction that was built last. -/
theorem backed_of_trace (h : Trace (Step P R) (some (.new cfg rail)) events (some s)) :
    Backed P cfg events s := by
  -- a session that was closed is gone, so only states that are sessions have to be backed
  refine h.invariant (fun events o => ∀ s, o = some s → Backed P cfg events s) ?_ ?_ s rfl
  · rintro _ ⟨⟩
    exact ⟨rfl, fun id hid => by cases hid⟩
  · intro events o event o' ih step s' hs'
    cases step with
    | @openChannel s _ peer budget result call =>
      cases hs'
      have hback := ih s rfl
      cases result with
      | error e =>
        refine hback.sameBooks (ChannelSession.openChannel_error call) ?_
        rw [lastFunding, List.foldl_append]
        rfl
      | ok tx =>
        rcases ChannelSession.openChannel_cases call with ⟨-, herror, -⟩ |
          ⟨_, _, -, herror, -⟩ | ⟨id, rail', -, hok, rfl, -⟩
        · cases herror
        · cases herror
        · -- the channel just registered is backed by the transaction just built
          cases hok
          refine ⟨hback.1, fun id' _ => ⟨budget, rfl, ?_, ?_⟩⟩
          · rw [hback.1]
          · rw [lastFunding, List.foldl_append, hback.1]
            rfl
    | @pay s _ amount result call =>
      cases hs'
      have hback := ih s rfl
      have hlast : lastFunding (events ++ [.pay amount result]) = lastFunding events := by
        rw [lastFunding, List.foldl_append]
        rfl
      cases result with
      | error e => exact hback.sameBooks (ChannelSession.pay_error call) hlast
      | ok paid =>
        rcases ChannelSession.pay_cases call with ⟨-, herror, -⟩ | ⟨_, -, -, herror, -⟩ |
          ⟨id, _, rail', -, -, -, ⟨_, herror, -⟩ | ⟨spent, -, rfl, -, -⟩⟩
        · cases herror
        · cases herror
        · cases herror
        · -- a payment moves the balances, not the funding cell
          refine ⟨hback.1, fun id' hid' => ?_⟩
          rw [hlast]
          exact hback.2 id' hid'
    | close call => cases hs'

/-! ## One call -/

/-- One call of `open_channel` conserves the capacity exactly when the account covers the budget. -/
theorem Backed.openConserves_iff (hback : Backed P cfg events s) {peer : PeerId} {budget : U64}
    {result : Except (ChannelError ε) ChannelTx} {s' : ChannelSession ρ χ}
    (call : s.openChannel P R peer budget = some (result, s')) :
    OpenConserves P R cfg s peer budget result (some s') ↔
      Covered P R cfg s (.openChannel peer budget result) := by
  have htotal := outputTotal_buildFundingTx cfg budget
  obtain ⟨rfl, -⟩ := hback
  rcases ChannelSession.openChannel_cases call with ⟨hopen, rfl, rfl⟩ |
    ⟨e, rail', hnone, rfl, rfl, hrail⟩ | ⟨id, rail', hnone, rfl, rfl, hrail⟩
  · -- a session that is open asks nothing of the rail
    have hsome : s'.channel ≠ none := by
      intro hnone
      rw [hnone] at hopen
      cases hopen
    refine iff_of_true ⟨fun tx htx => (by cases htx), fun hnone => absurd hnone hsome⟩ ?_
    exact fun hnone => absurd hnone hsome
  · -- the rail turned the channel down
    refine iff_of_true ⟨fun tx htx => (by cases htx), fun _ _ => ⟨⟨_, rfl⟩, ⟨_, rfl, hnone⟩, ?_⟩⟩
      (fun _ => Or.inr ⟨e, rail', hrail⟩)
    intro id rail hregistered
    cases hrail.symm.trans hregistered
  · -- the rail registered the channel, whatever the account holds
    constructor
    · intro h _
      exact Or.inl (h.funded _ rfl).1
    · intro hcovered
      have hle : budget.toNat ≤ s.cfg.accountCapacity.toNat := by
        rcases hcovered hnone with hle | ⟨e, rail, herror⟩
        · exact hle
        · cases hrail.symm.trans herror
      refine ⟨fun tx htx => ?_, fun _ hlt => by omega⟩
      cases htx
      exact ⟨hle, by omega⟩

/-- The ways `close` goes. -/
theorem close_cases {result : Except (ChannelError ε) (Settlement × ChannelTx)}
    {taken : ChannelSession ρ χ} (h : s.close R = some (result, taken)) :
    (s.channel = none ∧ result = .error .notOpen) ∨
    (∃ id, s.channel = some id ∧ s.funding = none ∧ result = .error .notOpen) ∨
    (∃ id funding rail, s.channel = some id ∧ s.funding = some funding ∧
      ((∃ e, result = .error (.rail e) ∧ R.close id s.rail = some (.error e, rail)) ∨
        ∃ settlement, result = .ok (settlement, buildSettleTx s.cfg funding settlement) ∧
          R.close id s.rail = some (.ok settlement, rail))) := by
  unfold ChannelSession.close at h
  cases hchannel : s.channel with
  | none =>
    rw [hchannel] at h
    cases h
    exact Or.inl ⟨rfl, rfl⟩
  | some id =>
    cases hfunding : s.funding with
    | none =>
      rw [hchannel, hfunding] at h
      cases h
      exact Or.inr (Or.inl ⟨id, rfl, rfl, rfl⟩)
    | some funding =>
      rw [hchannel, hfunding] at h
      obtain ⟨⟨answer, rail⟩, hrail, h⟩ := Option.bind_eq_some_iff.mp h
      refine Or.inr (Or.inr ⟨id, funding, rail, rfl, rfl, ?_⟩)
      cases answer with
      | error e =>
        cases h
        exact Or.inl ⟨e, rfl, hrail⟩
      | ok settlement =>
        cases h
        exact Or.inr ⟨settlement, rfl, hrail⟩

/-- One call of `close` conserves the capacity exactly when the rail settles within the budget. -/
theorem Backed.closeConserves_iff (hback : Backed P cfg events s)
    {result : Except (ChannelError ε) (Settlement × ChannelTx)} {taken : ChannelSession ρ χ}
    (call : s.close R = some (result, taken)) :
    CloseConserves P events result ↔ Covered P R cfg s (.close result) := by
  obtain ⟨rfl, hchannel⟩ := hback
  rcases close_cases call with ⟨hnone, rfl⟩ | ⟨id, hid, hnone, -⟩ | ⟨id, funding, rail, hid,
    hfunding, ⟨e, rfl, hrail⟩ | ⟨settlement, rfl, hrail⟩⟩
  · -- nothing was open
    refine iff_of_true ⟨fun _ _ htx => by cases htx⟩ ?_
    intro id _ _ hid
    cases hnone.symm.trans hid
  · obtain ⟨budget, -, hfunding, -⟩ := hchannel id hid
    cases hnone.symm.trans hfunding
  · -- the rail refused to settle
    refine iff_of_true ⟨fun _ _ htx => by cases htx⟩ ?_
    intro id' settlement rail' hid' hok
    cases hid.symm.trans hid'
    cases hrail.symm.trans hok
  · -- the rail settled, and its balance goes into the output
    obtain ⟨budget, hbudget, hbacked, hlast⟩ := hchannel id hid
    have htotal := outputTotal_buildSettleTx s.cfg funding settlement
    have hwide : s.budget.toNat = budget.toNat := by
      rw [hbudget]
      exact BitVec.toNat_setWidth_of_le (by decide)
    have hlt := budget.isLt
    constructor
    · rintro ⟨hsettled⟩ id' settlement' rail' hid' hok
      cases hid.symm.trans hid'
      cases hrail.symm.trans hok
      obtain ⟨ftx, cell, hftx, hcell, -, hle⟩ := hsettled _ _ rfl
      cases hlast.symm.trans hftx
      cases (handedOn_buildFundingTx s.cfg budget).symm.trans hcell
      have hle : min settlement.localBalance.toNat (2 ^ 64 - 1) ≤ budget.toNat := htotal ▸ hle
      omega
    · intro hcovered
      refine ⟨fun _ _ htx => ?_⟩
      cases htx
      cases hbacked.symm.trans hfunding
      refine ⟨_, _, hlast, handedOn_buildFundingTx s.cfg budget, rfl, ?_⟩
      have hfits := hcovered id settlement rail hid hrail
      show _ ≤ budget.toNat
      omega

/-- At every state a run can reach, a call creates no capacity exactly when it is covered. -/
theorem conserves_iff (h : Trace (Step P R) (some (.new cfg rail)) events (some s))
    (step : Step P R (some s) event o) :
    Conserves P R cfg events s event o ↔ Covered P R cfg s event := by
  have hback := backed_of_trace h
  cases step with
  | openChannel call => exact hback.openConserves_iff call
  | pay call => exact Iff.rfl
  | close call => exact hback.closeConserves_iff call

end

/-! ## The in-memory rail settles within the budget -/

/-- The in-memory rail settles within the budget, always. -/
theorem outputTotal_mock {P : Platform} {cfg : ChannelConfig} {rail : MockRail}
    {events : List (Event MockRailError)} {s : ChannelSession MockRail U64}
    {settlement : Settlement} {tx : ChannelTx} {o : Option (ChannelSession MockRail U64)}
    (hroom : rail.channels.length < 2 ^ 64)
    (h : Trace (Step P mockRail) (some (.new cfg rail)) events (some s))
    (step : Step P mockRail (some s) (.close (.ok (settlement, tx))) o) :
    tx.outputTotal + settlement.remoteBalance.toNat = openedWith events := by
  obtain ⟨a, htracks, -, hbudget, -⟩ := exists_allowance h
  have hjoined := joined_of_trace hroom h
  cases step with
  | close call =>
    rcases close_cases call with ⟨-, herror⟩ | ⟨_, -, -, herror⟩ | ⟨id, funding, rail', hid, -,
      ⟨_, herror, -⟩ | ⟨settlement', hok, hrail⟩⟩
    · cases herror
    · cases herror
    · cases herror
    cases hok
    obtain ⟨ch, b, hstep⟩ := hjoined.opened id hid
    -- the settlement is the channel's two balances
    have hsettled : mockRail.close id s.rail =
        some (.ok ⟨ch.localBalance, ch.remoteBalance⟩, s.rail) := by
      show MockRail.close id s.rail = _
      unfold MockRail.close
      rw [hstep.listed]
    cases hsettled.symm.trans hrail
    have hsum := b.spent_add_remaining
    have hlocal := hstep.rail.1
    have hremote := hstep.rail.2
    have hsame := hstep.session.1
    have hopened := htracks.1
    have hfits := hstep.fits
    rw [outputTotal_buildSettleTx]
    show min ch.localBalance.toNat (2 ^ 64 - 1) + ch.remoteBalance.toNat = openedWith events
    omega

/-! ## Channel transactions and capacity -/

/-- **Channel transactions create no capacity exactly where their amounts are covered**, at every
call of every run over every rail; over the in-memory rail what is settled on both sides is the
budget. -/
theorem channel_conserves_iff_covered (P : Platform) :
    (∀ (ρ χ ε : Type) (R : FiberRail ρ χ ε) cfg rail events s event o,
      Trace (Step P R) (some (.new cfg rail)) events (some s) → Step P R (some s) event o →
      (Conserves P R cfg events s event o ↔ Covered P R cfg s event)) ∧
    ∀ cfg (rail : MockRail) events s settlement tx o, rail.channels.length < 2 ^ 64 →
      Trace (Step P mockRail) (some (.new cfg rail)) events (some s) →
      Step P mockRail (some s) (.close (.ok (settlement, tx))) o →
      settlement.remoteBalance.toNat ≤ openedWith events ∧
        tx.outputTotal = openedWith events - settlement.remoteBalance.toNat := by
  refine ⟨fun _ _ _ _ _ _ _ _ _ _ h step => conserves_iff h step, ?_⟩
  intro cfg rail events s settlement tx o hroom h step
  have hsum := outputTotal_mock hroom h step
  omega

/-- A channel of 100 shannons, 80 of them paid. -/
def paidSession : ChannelSession MockRail U64 where
  cfg := sampleChannel
  rail := ⟨[⟨20, 80⟩]⟩
  channel := some 0
  funding := some ((buildFundingTx sampleChannel 100).outpoint .sample)
  budget := 100
  spent := 80

theorem channel_conserves_iff_covered_paid :
    ∃ events settlement tx, Trace (Step Platform.sample mockRail)
        (some (.new sampleChannel .new)) events (some paidSession) ∧
      Conserves Platform.sample mockRail sampleChannel events paidSession
        (.close (.ok (settlement, tx))) none ∧
      tx.outputTotal = 20 := by
  have run : Trace (Step Platform.sample mockRail) (some (.new sampleChannel .new)) _
      (some paidSession) :=
    Trace.snoc (Trace.single (Step.openChannel (show
      ChannelSession.openChannel Platform.sample mockRail ⟨[1]⟩ 100 (.new sampleChannel .new) =
        some (_, _) from rfl)))
      (Step.pay (show ChannelSession.pay mockRail 80 _ = some (.ok (), _) from rfl))
  have step : Step Platform.sample mockRail (some paidSession) (.close (.ok (⟨20, 80⟩, _))) none :=
    Step.close (show ChannelSession.close mockRail paidSession = some (_, _) from rfl)
  have hall := channel_conserves_iff_covered Platform.sample
  refine ⟨_, _, _, run, (hall.1 _ _ _ _ _ _ _ _ _ _ run step).mpr ?_,
    (hall.2 _ _ _ _ _ _ _ (by decide) run step).2⟩
  intro id settlement rail hid hrail
  cases hid
  cases hrail
  exact Or.inl (by decide)

/-- The account holds 1000 shannons and the channel is opened with 2000: the change is zero, the
funding cell is registered, and the outputs exceed the input by 1000. -/
theorem open_creates_capacity :
    ¬ ∀ events s event o,
      Trace (Step Platform.sample mockRail) (some (.new sampleChannel .new)) events (some s) →
      Step Platform.sample mockRail (some s) event o →
      Conserves Platform.sample mockRail sampleChannel events s event o := by
  intro hall
  have howed : OpenConserves Platform.sample mockRail sampleChannel _ ⟨[1]⟩ 2000 _ _ :=
    hall [] _ _ _ .nil (Step.openChannel (show
      ChannelSession.openChannel Platform.sample mockRail ⟨[1]⟩ 2000 (.new sampleChannel .new) =
        some (.ok (buildFundingTx sampleChannel 2000), _) from rfl))
  exact absurd (howed.funded _ rfl).1 (by decide)

end CkbController.Sdk
