import CkbController.Ckb.Encoding
import CkbController.Sdk.Agreement
import CkbController.SessionLock.Spending

/-!
# The exposure of a compromised session

The spend cap bounds what one transaction takes out of the account. The lock keeps no record of
what earlier transactions took, so over a run of `n` transactions the bound is `n` caps, and a
session that spends its whole cap every time reaches it.

* `Accepts.outflow_le` — one transaction;
* `totalOutflow_le` — a run;
* `two_caps_leave` — two transactions that together take out twice the cap.
-/

namespace CkbController.SessionLock

open ByteCodec Checks

variable (P : Platform)

def registeredParams (lock : Script) : SessionParams :=
  parseSessionParams (lock.args.drop ownerOnlyArgsLen)

/-- The capacity one transaction takes out of the account: what it spends under the lock less
what it puts back under it, floored at 0. -/
def outflow (lock : Script) (rtx : ResolvedTx) : Nat :=
  totalCapacity (Vm.ofLock P rtx lock).groupInputCells -
    totalCapacity (rtx.outputCells.filter fun c => c.output.lock = lock)

def totalOutflow (lock : Script) (txs : List ResolvedTx) : Nat := (txs.map (outflow P lock)).sum

/-- One transaction of a session's run: it commits to the ledger, and spends a live cell under
the account lock in SESSION mode. -/
def SessionStep (lock : Script) (L : Ledger) (rtx : ResolvedTx) (L' : Ledger) : Prop :=
  rtx.Commits P L L' ∧ SpendsInSession P rtx lock

variable {P} {lock : Script}

/-! ## One transaction -/

/-- In an accepted session the outputs under the lock's code are those under the lock itself. -/
theorem SessionUnlocks.ownOutputs_eq {rtx : ResolvedTx} {account : Cell} {rest : Bytes}
    {w : SessionWitness} (h : SessionUnlocks P (.ofLock P rtx lock) account rest w) :
    ownOutputs lock rtx.outputCells = rtx.outputCells.filter fun c => c.output.lock = lock := by
  refine List.filter_congr fun c hc => ?_
  rw [Bool.eq_iff_iff, decide_eq_true_iff]
  constructor
  · intro hown
    exact (h.continues hc hown).1
  · intro heq
    rw [heq]
    simp

/-- **The cap bounds one transaction.** -/
theorem Accepts.outflow_le {rtx : ResolvedTx} {account : Cell} {rest : Bytes}
    (h : Accepts P rtx lock modeSession account rest) (hreg : lock.args.length = argsLen)
    (hcap : (registeredParams lock).spendCap ≠ spendCapUnlimited) :
    outflow P lock rtx ≤ (registeredParams lock).spendCap.toNat := by
  obtain ⟨w, hw⟩ := h.sessionUnlocks
  have hparams : w.params = registeredParams lock := by
    rw [SessionWitness.params, hw.registered hreg]
    rfl
  have hspend := hw.outputs.spend
  rw [hparams] at hspend
  rw [outflow, h.attempt.single, ← hw.ownOutputs_eq]
  have hinput : totalCapacity [account] = account.output.capacity.toNat := by
    simp [totalCapacity]
  rw [hinput]
  exact hspend.resolve_left hcap

/-! ## A run -/

/-- **The cap bounds a run per transaction.** However many transactions a session makes, from
whatever ledger, they take out at most one cap each. -/
theorem totalOutflow_le (P : Platform) (lock : Script) (L₀ L : Ledger) (txs : List ResolvedTx)
    (hreg : lock.args.length = argsLen)
    (hcap : (registeredParams lock).spendCap ≠ spendCapUnlimited)
    (run : Trace (SessionStep P lock) L₀ txs L) :
    (∀ rtx ∈ txs, outflow P lock rtx ≤ (registeredParams lock).spendCap.toNat) ∧
      totalOutflow P lock txs ≤ txs.length * (registeredParams lock).spendCap.toNat := by
  have hstep : ∀ rtx, SpendsInSession P rtx lock →
      outflow P lock rtx ≤ (registeredParams lock).spendCap.toNat := by
    rintro rtx ⟨account, rest, h⟩
    exact h.outflow_le hreg hcap
  -- the ledger plays no part: a bound on each transaction adds up
  refine run.invariant (fun txs _ =>
    (∀ rtx ∈ txs, outflow P lock rtx ≤ (registeredParams lock).spendCap.toNat) ∧
      totalOutflow P lock txs ≤ txs.length * (registeredParams lock).spendCap.toNat) ?_ ?_
  · exact ⟨fun rtx hrtx => absurd hrtx List.not_mem_nil, Nat.zero_le _⟩
  · intro txs L rtx L' ⟨hall, htotal⟩ ⟨_, hspends⟩
    have hone := hstep rtx hspends
    refine ⟨?_, ?_⟩
    · intro rtx' hmem
      rcases List.mem_append.mp hmem with hmem | hmem
      · exact hall rtx' hmem
      · rw [List.mem_singleton.mp hmem]
        exact hone
    · have hsum : totalOutflow P lock (txs ++ [rtx]) =
          totalOutflow P lock txs + outflow P lock rtx := by
        simp [totalOutflow]
      rw [hsum, List.length_append, List.length_singleton, Nat.add_mul, Nat.one_mul]
      omega

/-! ### Two transactions, twice the cap

A registered account of capacity 1000 with a wildcard policy and a cap of 100. -/

def cappedLock : Script :=
  ⟨sampleHash 8, 1, Sdk.registeredArgs (sampleKey 1)
    (Sdk.sessionParams (sampleKey 2) noExpiry wildcardRoot 100 zero20)⟩

def cappedCell (capacity : U64) : Cell := ⟨⟨capacity, cappedLock, none⟩, []⟩

def cappedWitness : Bytes := Sdk.sessionWitnessRegistered .sample (List.replicate 65 2) none []

def payShop (op : OutPoint) (capacity : U64) : ResolvedTx :=
  .ofCells [(op, cappedCell capacity)]
    [cappedCell (capacity - 100), ⟨⟨100, sampleShop, none⟩, []⟩] [] [cappedWitness]

def firstCell : OutPoint := ⟨sampleHash 0, 0⟩
def firstPayment : ResolvedTx := payShop firstCell 1000
def secondCell : OutPoint := ⟨Platform.sample.txHash firstPayment.tx.raw, 0⟩
def secondPayment : ResolvedTx := payShop secondCell 900

def cappedLedger : Ledger := .ofList [(firstCell, cappedCell 1000)]

def cappedLedger' : Ledger :=
  Utxo.settle cappedLedger firstPayment.spent (firstPayment.created .sample)

def cappedWitnessArgs : WitnessArgs := ⟨some (modeSession :: List.replicate 65 2), none, none⟩

theorem firstPayment_accepted :
    Accepts .sample firstPayment cappedLock modeSession (cappedCell 1000)
      (List.replicate 65 2) where
  attempt := ⟨by decide +kernel, 0, cappedWitness, cappedWitnessArgs, by decide +kernel, rfl,
    by decide +kernel, rfl⟩
  ok := eq_ok_of_isOk (by decide +kernel)

theorem secondPayment_accepted :
    Accepts .sample secondPayment cappedLock modeSession (cappedCell 900)
      (List.replicate 65 2) where
  attempt := ⟨by decide +kernel, 0, cappedWitness, cappedWitnessArgs, by decide +kernel, rfl,
    by decide +kernel, rfl⟩
  ok := eq_ok_of_isOk (by decide +kernel)

theorem firstPayment_commits : firstPayment.Commits .sample cappedLedger cappedLedger' where
  live := by decide +kernel
  once := by decide +kernel
  fresh := by decide +kernel
  distinct := by decide +kernel
  next := rfl

theorem secondPayment_commits : secondPayment.Commits .sample cappedLedger'
    (Utxo.settle cappedLedger' secondPayment.spent (secondPayment.created .sample)) where
  live := by decide +kernel
  once := by decide +kernel
  fresh := by decide +kernel
  distinct := by decide +kernel
  next := rfl

theorem cappedLock_spendCap : (registeredParams cappedLock).spendCap = 100 := by
  decide +kernel

theorem twoPayments_run : Trace (SessionStep .sample cappedLock) cappedLedger
    [firstPayment, secondPayment]
    (Utxo.settle cappedLedger' secondPayment.spent (secondPayment.created .sample)) :=
  (Trace.single ⟨firstPayment_commits, _, _, firstPayment_accepted⟩).snoc
    ⟨secondPayment_commits, _, _, secondPayment_accepted⟩

theorem twoPayments_outflow :
    totalOutflow .sample cappedLock [firstPayment, secondPayment] = 200 := by
  decide +kernel

/-- The cap does not bound a run as a whole, not even one that starts from a single account
cell. -/
theorem two_caps_leave :
    ¬ ∀ (P : Platform) (lock : Script) (op : OutPoint) (account : Cell) (txs : List ResolvedTx)
        (L : Ledger), lock.args.length = argsLen →
        (registeredParams lock).spendCap ≠ spendCapUnlimited → account.output.lock = lock →
        Trace (SessionStep P lock) (.ofList [(op, account)]) txs L →
        totalOutflow P lock txs ≤ (registeredParams lock).spendCap.toNat := by
  intro hclaim
  have hle := hclaim .sample cappedLock firstCell (cappedCell 1000) _ _ (by decide)
    (by rw [cappedLock_spendCap]; decide) rfl twoPayments_run
  rw [twoPayments_outflow, cappedLock_spendCap] at hle
  exact absurd hle (by decide)

theorem totalOutflow_le_two_payments :
    (∀ rtx ∈ [firstPayment, secondPayment], outflow .sample cappedLock rtx ≤
        (registeredParams cappedLock).spendCap.toNat) ∧
      totalOutflow .sample cappedLock [firstPayment, secondPayment] ≤
        2 * (registeredParams cappedLock).spendCap.toNat :=
  totalOutflow_le .sample cappedLock cappedLedger _ [firstPayment, secondPayment] (by decide)
    (by rw [cappedLock_spendCap]; decide) twoPayments_run

end CkbController.SessionLock
