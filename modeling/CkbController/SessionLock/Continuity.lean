import CkbController.SessionLock.Exposure

/-!
# What a session leaves of the account

The account walk compares the lock, the args and the data of every output under the lock's own
code with those of the account input. It does not look at the output's type script, and the
policy walk skips these outputs. A session can therefore put any type script on the capacity it
returns, and the cell can then be spent only by transactions that type script accepts.

`preserves_iff` is the exact condition under which the account comes back as it was;
`stuck_return` is a session that returns everything, under a type script that has nothing against
the transaction and refuses the next one.
-/

namespace CkbController.SessionLock

open ByteCodec Checks

variable {P : Platform}

/-- The cell is spent under the same scripts as the account: same lock, same type script, same
data. -/
def SameScripts (account c : Cell) : Prop :=
  c.output.lock = account.output.lock ∧ c.data = account.data ∧
    c.output.type = account.output.type

/-- The type script refuses every transaction that spends a cell under it. What a type script makes
of a transaction is a parameter: any code can be deployed. -/
def RefusesSpending (succeeds : Script → ResolvedTx → Prop) (t : Script) : Prop :=
  ∀ rtx : ResolvedTx, (∃ c ∈ rtx.inputCells, c.output.type = some t) → ¬ succeeds t rtx

/-- The cell cannot be spent, whoever signs. -/
def Stuck (succeeds : Script → ResolvedTx → Prop) (c : Cell) : Prop :=
  ∃ t, c.output.type = some t ∧ RefusesSpending succeeds t

/-- The session left the owner's control of the returned capacity alone: every output under the
lock's code is spent under the account's scripts, and is stuck only if the account was. -/
def Preserves (rtx : ResolvedTx) (account : Cell) : Prop :=
  ∀ c ∈ rtx.outputCells, c.output.lock.sameCode account.output.lock = true →
    SameScripts account c ∧ ∀ succeeds, Stuck succeeds c → Stuck succeeds account

/-- Every output under the lock's code carries the account's type script. -/
def KeepsType (rtx : ResolvedTx) (account : Cell) : Prop :=
  ∀ c ∈ rtx.outputCells, c.output.lock.sameCode account.output.lock = true →
    c.output.type = account.output.type

/-- Two cells under one type script are stuck together. -/
theorem Stuck.of_type_eq {succeeds : Script → ResolvedTx → Prop} {c account : Cell}
    (htype : c.output.type = account.output.type) (h : Stuck succeeds c) :
    Stuck succeeds account := by
  obtain ⟨t, ht, hrefuses⟩ := h
  exact ⟨t, htype ▸ ht, hrefuses⟩

/-- **What a session preserves.** The lock and the data always come back; the type script comes
back exactly when the transaction puts it there. -/
theorem preserves_iff (P : Platform) (rtx : ResolvedTx) (account : Cell) (rest : Bytes)
    (h : Accepts P rtx account.output.lock modeSession account rest) :
    Preserves rtx account ↔ KeepsType rtx account := by
  constructor
  · intro hpreserves c hc hown
    exact (hpreserves c hc hown).1.2.2
  · intro hkeeps c hc hown
    obtain ⟨w, hw⟩ := h.sessionUnlocks
    obtain ⟨hlock, hdata⟩ := hw.continues hc hown
    have htype := hkeeps c hc hown
    exact ⟨⟨hlock, hdata, htype⟩, fun _ hstuck => hstuck.of_type_eq htype⟩

/-! ### Capacity returned under a script that refuses to be spent -/

def sealScript : Script := ⟨sampleHash 7, 1, []⟩

/-- A type script that looks at its group inputs only, and succeeds if there are none. -/
def sealSucceeds (t : Script) (rtx : ResolvedTx) : Bool :=
  rtx.inputCells.all fun c => c.output.type != some t

theorem sealSucceeds_refusesSpending (t : Script) :
    RefusesSpending (fun t rtx => sealSucceeds t rtx = true) t := by
  rintro rtx ⟨c, hc, htype⟩ hsucceeds
  have hother := List.all_eq_true.mp hsucceeds c hc
  rw [htype, bne_self_eq_false] at hother
  exact Bool.false_ne_true hother

def stuckCell : Cell := ⟨⟨1000, cappedLock, some sealScript⟩, []⟩

def stuckPayment : ResolvedTx :=
  .ofCells [(firstCell, cappedCell 1000)] [stuckCell] [] [cappedWitness]

theorem stuckPayment_accepted :
    Accepts .sample stuckPayment cappedLock modeSession (cappedCell 1000)
      (List.replicate 65 2) where
  attempt := ⟨by decide +kernel, 0, cappedWitness, cappedWitnessArgs, by decide +kernel, rfl,
    by decide +kernel, rfl⟩
  ok := eq_ok_of_isOk (by decide +kernel)

/-- A session whose outflow is 0 adds a type script to the account cell. Lock and type script accept
the transaction, and from then on the whole account is stuck. -/
theorem stuck_return :
    Accepts .sample stuckPayment cappedLock modeSession (cappedCell 1000) (List.replicate 65 2) ∧
      outflow .sample cappedLock stuckPayment = 0 ∧
      ¬ Preserves stuckPayment (cappedCell 1000) ∧
      sealSucceeds sealScript stuckPayment = true ∧
      Stuck (fun t rtx => sealSucceeds t rtx = true) stuckCell ∧
      ¬ Stuck (fun t rtx => sealSucceeds t rtx = true) (cappedCell 1000) := by
  refine ⟨stuckPayment_accepted, by decide +kernel, ?_, rfl,
    ⟨sealScript, rfl, sealSucceeds_refusesSpending sealScript⟩, ?_⟩
  · intro hpreserves
    have hout : stuckCell ∈ stuckPayment.outputCells := by
      rw [stuckPayment, ResolvedTx.outputCells_ofCells]
      exact List.mem_singleton_self stuckCell
    have htype := (hpreserves stuckCell hout (by decide)).1.2.2
    cases htype
  · -- the account has no type script
    rintro ⟨t, ht, -⟩
    cases ht

theorem preserves_iff_firstPayment :
    Preserves firstPayment (cappedCell 1000) ↔ KeepsType firstPayment (cappedCell 1000) :=
  preserves_iff .sample firstPayment (cappedCell 1000) _ firstPayment_accepted

end CkbController.SessionLock
