import CkbController.Ckb.Ledger
import CkbController.SessionLock.Refinement

/-!
# Spending an account cell on the ledger

The lock's view of a transaction is one script run; the ledger's view is the transaction as a
whole. `Accepts` joins the two: the run of the lock script `lock` on the transaction succeeds, in
the mode its witness names, and `account` is the cell it spends. The lemmas here say what such a
transaction looks like from outside, and every result about runs goes through them.
-/

namespace CkbController.SessionLock

open ByteCodec Checks

variable {P : Platform} {rtx : ResolvedTx} {lock : Script} {account : Cell} {mode : UInt8}
  {rest : Bytes}

/-- The transaction spends `account` under `lock` in `mode`, and the lock accepts. -/
structure Accepts (P : Platform) (rtx : ResolvedTx) (lock : Script) (mode : UInt8)
    (account : Cell) (rest : Bytes) : Prop where
  attempt : UnlockAttempt P (.ofLock P rtx lock) account mode rest
  ok : auth P (.ofLock P rtx lock) = .ok ()

/-- A SESSION-mode transaction on `lock` that the lock accepts. -/
def SpendsInSession (P : Platform) (rtx : ResolvedTx) (lock : Script) : Prop :=
  ∃ account rest, Accepts P rtx lock modeSession account rest

def Touches (P : Platform) (rtx : ResolvedTx) (lock : Script) : Prop :=
  ∃ c ∈ rtx.inputCells, P.scriptHash c.output.lock = P.scriptHash lock

/-- A transaction is one attempt only: the group, the witness and the mode byte are what they
are. -/
theorem UnlockAttempt.unique {vm : Vm} {account account' : Cell} {mode mode' : UInt8}
    {rest rest' : Bytes} (h : UnlockAttempt P vm account mode rest)
    (h' : UnlockAttempt P vm account' mode' rest') :
    account = account' ∧ mode = mode' ∧ rest = rest' := by
  obtain ⟨hone, k, w, wa, hk, hw, hparse, hlock⟩ := h
  obtain ⟨hone', k', w', wa', hk', hw', hparse', hlock'⟩ := h'
  have haccount : account = account' := List.singleton_inj.mp (hone.symm.trans hone')
  cases hk.symm.trans hk'
  cases hw.symm.trans hw'
  cases hparse.symm.trans hparse'
  have hbytes : mode :: rest = mode' :: rest' := Option.some.inj (hlock.symm.trans hlock')
  exact ⟨haccount, List.cons.inj hbytes⟩

/-- The account is the only input under its lock hash. -/
theorem UnlockAttempt.filter_inputCells
    (h : UnlockAttempt P (.ofLock P rtx lock) account mode rest) :
    (rtx.inputCells.filter fun c => P.scriptHash c.output.lock == P.scriptHash lock) = [account] :=
  (Vm.groupInputCells_ofLock P rtx lock).symm.trans h.single

/-- The account is spent. -/
theorem UnlockAttempt.mem_inputCells
    (h : UnlockAttempt P (.ofLock P rtx lock) account mode rest) :
    account ∈ rtx.inputCells ∧ P.scriptHash account.output.lock = P.scriptHash lock := by
  have hmem : account ∈ rtx.inputCells.filter fun c =>
      P.scriptHash c.output.lock == P.scriptHash lock := by
    rw [h.filter_inputCells]
    exact List.mem_singleton_self account
  obtain ⟨hin, hhash⟩ := List.mem_filter.mp hmem
  exact ⟨hin, beq_iff_eq.mp hhash⟩

/-- What is accepted in SESSION mode has passed the session checks. -/
theorem Accepts.verifySession_ok (h : Accepts P rtx lock modeSession account rest) :
    verifySession P (.ofLock P rtx lock) lock (P.scriptHash lock) lock.args rest
      (txMessage P (.ofLock P rtx lock)) = .ok () := by
  obtain ⟨-, account', mode', rest', hattempt, hmode⟩ := auth_eq_ok_iff_attempt.mp h.ok
  obtain ⟨rfl, rfl, rfl⟩ := h.attempt.unique hattempt
  rcases hmode with ⟨hm, -⟩ | ⟨-, hok⟩
  · exact absurd hm (by decide)
  · exact hok

/-- What is accepted in SESSION mode is unlocked by a session, in the terms of the specification. -/
theorem Accepts.sessionUnlocks (h : Accepts P rtx lock modeSession account rest) :
    ∃ w, SessionUnlocks P (.ofLock P rtx lock) account rest w :=
  (verifySession_eq_ok h.attempt.single).mp h.verifySession_ok

/-- The converse: a transaction that meets the declarative SESSION mode is accepted. -/
theorem accepts_of_sessionUnlocks {w : SessionWitness}
    (hargs : lock.args.length = ownerOnlyArgsLen ∨ lock.args.length = argsLen)
    (hattempt : UnlockAttempt P (.ofLock P rtx lock) account modeSession rest)
    (hunlocks : SessionUnlocks P (.ofLock P rtx lock) account rest w) :
    Accepts P rtx lock modeSession account rest := by
  refine ⟨hattempt, auth_eq_ok_iff_attempt.mpr ⟨hargs, account, _, _, hattempt, Or.inr ⟨rfl, ?_⟩⟩⟩
  exact (verifySession_eq_ok hattempt.single).mpr ⟨w, hunlocks⟩

/-- An output under the lock's code is under the lock itself and has the account's data. -/
theorem SessionUnlocks.continues {w : SessionWitness}
    (h : SessionUnlocks P (.ofLock P rtx lock) account rest w) {c : Cell}
    (hc : c ∈ rtx.outputCells) (hown : c.output.lock.sameCode lock = true) :
    c.output.lock = lock ∧ c.data = account.data := by
  obtain ⟨hargs, hdata⟩ := h.outputs.continuity c hc hown
  exact ⟨Script.eq_of_sameCode hown hargs, hdata⟩

/-- In the registered model the params are those in the args. -/
theorem SessionUnlocks.registered {w : SessionWitness}
    (h : SessionUnlocks P (.ofLock P rtx lock) account rest w)
    (hreg : lock.args.length = argsLen) : w.paramsBlock = lock.args.drop ownerOnlyArgsLen := by
  cases h.blessed with
  | registered _ hblock _ => exact hblock
  | carried hargs _ _ _ =>
    have hlen : ownerOnlyArgsLen = argsLen := hargs.symm.trans hreg
    exact absurd hlen (by decide)

end CkbController.SessionLock
