import CkbController.SessionLock.Exposure

/-!
# Revocation in the carried model

A carried session works as long as the owner's authorization matches the epoch in the data of
the cell being spent. The owner revokes by re-creating the account cell with a higher epoch; a
session cannot lower it again, because the data of an account output must stay as it is.

What the lock cannot see is a cell that never passes through it. Anyone may create a cell under
the account's lock with any data (a deposit, a channel settlement), and such a cell starts at
whatever epoch its data spells. An authorization signed for that epoch spends it.

* `NoStaleCell` — the invariant: no live cell under the lock has an epoch below `e`;
* `noStaleCell_step` — it is kept by SESSION steps, and by other steps that create no stale cell;
* `revocation_effective` — so in such runs no authorization for an epoch below `e` is used again;
* `stale_deposit_unlocks` — a deposit with empty data brings a revoked authorization back.
-/

namespace CkbController.SessionLock

open ByteCodec Checks

variable {P : Platform} {lock : Script}

/-! ## Runs of the ledger around one account lock -/

/-- One transaction by anyone. It commits to the ledger; if it spends a cell under the lock, the
lock accepts it; and no other lock it creates has the lock's script hash. -/
structure LedgerStep (P : Platform) (lock : Script) (L : Ledger) (rtx : ResolvedTx)
    (L' : Ledger) : Prop where
  commits : rtx.Commits P L L'
  accepted : Touches P rtx lock → auth P (.ofLock P rtx lock) = .ok ()
  unforged : ∀ c ∈ rtx.outputCells, P.scriptHash c.output.lock = P.scriptHash lock →
    c.output.lock = lock

/-- An OWNER-mode transaction that re-creates the account with epoch `e`. -/
def Revokes (P : Platform) (lock : Script) (rtx : ResolvedTx) (e : U64) : Prop :=
  (∃ account rest, Accepts P rtx lock modeOwner account rest) ∧
    ∃ c ∈ rtx.outputCells, c.output.lock = lock ∧ epochOfData c.data = e

def CreatesNoStaleCell (P : Platform) (lock : Script) (e : U64) (rtx : ResolvedTx) : Prop :=
  ∀ c ∈ rtx.outputCells, P.scriptHash c.output.lock = P.scriptHash lock →
    e.toNat ≤ (epochOfData c.data).toNat

/-- The live cells under the lock, other than those the transaction spends, have epochs from `e`
on. -/
def LeavesNoStaleCell (P : Platform) (lock : Script) (e : U64) (L : Ledger) (rtx : ResolvedTx) :
    Prop :=
  ∀ op c, L op = some c → op ∉ rtx.spent.map Prod.fst →
    P.scriptHash c.output.lock = P.scriptHash lock → e.toNat ≤ (epochOfData c.data).toNat

/-- A step after the revocation: a SESSION step, or one that creates no stale cell. -/
def CleanStep (P : Platform) (lock : Script) (e : U64) (L : Ledger) (rtx : ResolvedTx)
    (L' : Ledger) : Prop :=
  LedgerStep P lock L rtx L' ∧ (SpendsInSession P rtx lock ∨ CreatesNoStaleCell P lock e rtx)

/-! ## The invariant -/

def NoStaleCell (P : Platform) (lock : Script) (e : U64) (L : Ledger) : Prop :=
  ∀ op c, L op = some c → P.scriptHash c.output.lock = P.scriptHash lock →
    e.toNat ≤ (epochOfData c.data).toNat

/-- A revocation that leaves and creates no stale cell establishes the invariant. -/
theorem noStaleCell_of_revocation {e : U64} {L L' : Ledger} {rtx : ResolvedTx}
    (step : LedgerStep P lock L rtx L') (hcreates : CreatesNoStaleCell P lock e rtx)
    (hleaves : LeavesNoStaleCell P lock e L rtx) : NoStaleCell P lock e L' := by
  intro op c hlive hhash
  rcases step.commits.live_iff.mp hlive with hnew | ⟨hold, hkept⟩
  · exact hcreates c (rtx.mem_outputCells P hnew) hhash
  · exact hleaves op c hold hkept hhash

/-- The account is a live cell under the lock when it is spent. -/
theorem Accepts.exists_live {rtx : ResolvedTx} {mode : UInt8} {account : Cell} {rest : Bytes}
    (h : Accepts P rtx lock mode account rest) {L L' : Ledger} (commits : rtx.Commits P L L') :
    ∃ op, L op = some account ∧ P.scriptHash account.output.lock = P.scriptHash lock := by
  obtain ⟨hmem, hhash⟩ := h.attempt.mem_inputCells
  obtain ⟨op, hop⟩ := rtx.exists_mem_spent hmem
  exact ⟨op, commits.live_of_mem hop, hhash⟩

/-- A SESSION step creates cells under the lock only with the epoch of the cell it spends. -/
theorem createsNoStaleCell_of_session {e : U64} {L L' : Ledger} {rtx : ResolvedTx}
    (step : LedgerStep P lock L rtx L') (hsession : SpendsInSession P rtx lock)
    (hinv : NoStaleCell P lock e L) : CreatesNoStaleCell P lock e rtx := by
  obtain ⟨account, rest, haccepts⟩ := hsession
  obtain ⟨w, hw⟩ := haccepts.sessionUnlocks
  obtain ⟨op, hlive, hhash⟩ := haccepts.exists_live step.commits
  intro c hc hunder
  -- the output is under the lock itself, so it keeps the account's data
  have hlock : c.output.lock = lock := step.unforged c hc hunder
  have hown : c.output.lock.sameCode lock = true := by
    rw [hlock]
    exact lock.sameCode_self
  rw [(hw.continues hc hown).2]
  exact hinv op account hlive hhash

/-- **One step.** -/
theorem noStaleCell_step {e : U64} {L L' : Ledger} {rtx : ResolvedTx}
    (hinv : NoStaleCell P lock e L) (step : CleanStep P lock e L rtx L') :
    NoStaleCell P lock e L' := by
  have hcreates : CreatesNoStaleCell P lock e rtx :=
    step.2.elim (createsNoStaleCell_of_session step.1 · hinv) id
  exact noStaleCell_of_revocation step.1 hcreates fun op c hlive _ => hinv op c hlive

/-! ## Authorizations -/

def Collide (hash : Bytes → Byte32) (s t : Bytes) : Prop := s ≠ t ∧ hash s = hash t

/-- The epoch stands at a fixed place in the string the owner signs. -/
theorem epoch_eq_of_preimage_eq {scriptHash : Byte32} {e e' : U64} {block block' : Bytes}
    (h : sessionAuthPreimage scriptHash e block = sessionAuthPreimage scriptHash e' block') :
    e = e' := by
  simp only [sessionAuthPreimage, List.append_assoc] at h
  have htail : toLe e ++ block = toLe e' ++ block' :=
    List.append_cancel_left (List.append_cancel_left h)
  exact toLe_injective (by decide) (List.append_inj htail (by simp)).1

/-- A run in which the owner revokes every epoch below `e`, and no stale cell is left or made: the
account is re-created with epoch `e`, no other live cell under the lock is below `e`, and later
transactions other than the sessions' own put none there. -/
structure CleanRevocation (P : Platform) (lock : Script) (e : U64) (L₀ : Ledger)
    (revoking : ResolvedTx) (L₁ : Ledger) (txs : List ResolvedTx) (L₂ : Ledger) : Prop where
  carried : lock.args.length = ownerOnlyArgsLen
  step : LedgerStep P lock L₀ revoking L₁
  revokes : Revokes P lock revoking e
  creates : CreatesNoStaleCell P lock e revoking
  leaves : LeavesNoStaleCell P lock e L₀ revoking
  later : Trace (CleanStep P lock e) L₁ txs L₂

def SpendsWith (P : Platform) (lock : Script) (rtx : ResolvedTx) (account : Cell)
    (w : SessionWitness) : Prop :=
  ∃ rest, Accepts P rtx lock modeSession account rest ∧
    SessionUnlocks P (.ofLock P rtx lock) account rest w

/-- The string whose digest the owner's authorization in `w` has to sign. -/
def verifiedPreimage (P : Platform) (lock : Script) (account : Cell) (w : SessionWitness) :
    Bytes :=
  sessionAuthPreimage (P.scriptHash lock) (epochOfData account.data) w.paramsBlock

/-- **Every run** after a clean revocation keeps the lock free of stale cells. -/
theorem CleanRevocation.noStaleCell {e : U64} {L₀ L₁ L₂ : Ledger} {revoking : ResolvedTx}
    {txs : List ResolvedTx} (h : CleanRevocation P lock e L₀ revoking L₁ txs L₂) :
    NoStaleCell P lock e L₂ :=
  h.later.invariant (fun _ L => NoStaleCell P lock e L)
    (noStaleCell_of_revocation h.step h.creates h.leaves)
    fun _ _ _ _ hinv step => noStaleCell_step hinv step

/-- **Revocation is effective in runs without stale cells.** If what the owner signed for epoch
`e'` is what a later session spends with, then `e'` is not below `e`, or the string the owner
signed collides with the one the lock hashed. -/
theorem revocation_effective (P : Platform) (lock : Script) (e : U64) (L₀ L₁ L₂ L₃ : Ledger)
    (revoking last : ResolvedTx) (txs : List ResolvedTx)
    (hrun : CleanRevocation P lock e L₀ revoking L₁ txs L₂)
    (hlast : LedgerStep P lock L₂ last L₃) (account : Cell) (w : SessionWitness)
    (hspends : SpendsWith P lock last account w) (e' : U64) (block : Bytes)
    (hauth : sessionAuthMessage P (P.scriptHash lock) e' block =
      P.blake2b (verifiedPreimage P lock account w)) :
    e.toNat ≤ e'.toNat ∨
      Collide P.blake2b (sessionAuthPreimage (P.scriptHash lock) e' block)
        (verifiedPreimage P lock account w) := by
  obtain ⟨rest, haccepts, -⟩ := hspends
  obtain ⟨op, hlive, hhash⟩ := haccepts.exists_live hlast.commits
  have hepoch : e.toNat ≤ (epochOfData account.data).toNat :=
    hrun.noStaleCell op account hlive hhash
  by_cases heq :
      sessionAuthPreimage (P.scriptHash lock) e' block = verifiedPreimage P lock account w
  · rw [epoch_eq_of_preimage_eq heq]
    exact Or.inl hepoch
  · exact Or.inr ⟨heq, hauth⟩

/-! ### A deposit brings a revoked authorization back

The owner blesses a session at epoch 0 and later revokes it by moving the account to epoch 1.
Somebody then deposits 500 under the account's lock, with empty data. The session spends the
deposit with the authorization for epoch 0. Signatures are ideal here: exactly the messages in
`signedMessages` verify, each under the key that signed it. -/

def carriedLock : Script := ⟨sampleHash 8, 1, Sdk.ownerOnlyArgs (sampleKey 1)⟩

def carriedBlock : Bytes :=
  Sdk.sessionParams (sampleKey 2) noExpiry wildcardRoot spendCapUnlimited zero20

def carriedCell (capacity : U64) (epoch : U64) : Cell :=
  ⟨⟨capacity, carriedLock, none⟩, Sdk.epochData epoch⟩

def shopCell (capacity : U64) : Cell := ⟨⟨capacity, sampleShop, none⟩, []⟩

def ownerSig : Bytes := List.replicate 65 1
def sessionSig : Bytes := List.replicate 65 2

def accountCell : OutPoint := ⟨sampleHash 0, 0⟩
def depositorCell : OutPoint := ⟨sampleHash 0, 1⟩

def revokeTx : ResolvedTx :=
  .ofCells [(accountCell, carriedCell 1000 0)] [carriedCell 1000 1] []
    [Sdk.ownerWitness .sample ownerSig]

def depositTx : ResolvedTx := .ofCells [(depositorCell, shopCell 500)] [carriedCell 500 0] [] []

def drainTx : ResolvedTx :=
  .ofCells [(⟨Platform.sample.txHash depositTx.tx.raw, 0⟩, carriedCell 500 0)] [shopCell 500] []
    [Sdk.sessionWitnessCarried .sample carriedBlock ownerSig sessionSig none []]

/-- The authorization for epoch 0 and the revocation, signed by the owner; the last transaction,
signed by the session key. -/
def signedMessages : List (Byte32 × Bytes) :=
  [(Sdk.sessionAuthMessage .sample (Platform.sample.scriptHash carriedLock) 0 carriedBlock,
      (sampleKey 1).toList),
    (Sdk.txMessage .sample revokeTx.tx, (sampleKey 1).toList),
    (Sdk.txMessage .sample drainTx.tx, (sampleKey 2).toList)]

def idealPlatform : Platform :=
  .molecule sampleDigest fun _ signature message pubkeyHash =>
    signature.length == 65 && signedMessages.contains (message, pubkeyHash)

def revocationLedger : Ledger :=
  .ofList [(accountCell, carriedCell 1000 0), (depositorCell, shopCell 500)]

def afterRevoke : Ledger :=
  Utxo.settle revocationLedger revokeTx.spent (revokeTx.created idealPlatform)

def afterDeposit : Ledger :=
  Utxo.settle afterRevoke depositTx.spent (depositTx.created idealPlatform)

def afterDrain : Ledger :=
  Utxo.settle afterDeposit drainTx.spent (drainTx.created idealPlatform)

theorem stale_steps :
    LedgerStep idealPlatform carriedLock revocationLedger revokeTx afterRevoke ∧
    LedgerStep idealPlatform carriedLock afterRevoke depositTx afterDeposit ∧
    LedgerStep idealPlatform carriedLock afterDeposit drainTx afterDrain where
  left := {
    commits := ⟨by decide +kernel, by decide +kernel, by decide +kernel, by decide +kernel, rfl⟩
    accepted := fun _ => eq_ok_of_isOk (by decide +kernel)
    unforged := by decide +kernel }
  right.left := {
    commits := ⟨by decide +kernel, by decide +kernel, by decide +kernel, by decide +kernel, rfl⟩
    accepted := by
      unfold Touches
      decide +kernel
    unforged := by decide +kernel }
  right.right := {
    commits := ⟨by decide +kernel, by decide +kernel, by decide +kernel, by decide +kernel, rfl⟩
    accepted := fun _ => eq_ok_of_isOk (by decide +kernel)
    unforged := by decide +kernel }

theorem revokeTx_step :
    LedgerStep idealPlatform carriedLock revocationLedger revokeTx afterRevoke :=
  stale_steps.1

theorem revokeTx_revokes : Revokes idealPlatform carriedLock revokeTx 1 := by
  refine ⟨⟨carriedCell 1000 0, ownerSig, ⟨?_, revokeTx_step.accepted ?_⟩⟩, ?_⟩
  · exact ⟨by decide +kernel, 0, _, ⟨some (modeOwner :: ownerSig), none, none⟩, by decide +kernel,
      rfl, by decide +kernel, rfl⟩
  · unfold Touches
    decide +kernel
  · exact ⟨carriedCell 1000 1, by decide +kernel, rfl, by decide +kernel⟩

theorem depositTx_step :
    LedgerStep idealPlatform carriedLock afterRevoke depositTx afterDeposit :=
  stale_steps.2.1

theorem drainTx_step :
    LedgerStep idealPlatform carriedLock afterDeposit drainTx afterDrain :=
  stale_steps.2.2

def drainWitness : SessionWitness := ⟨carriedBlock, ownerSig, sessionSig, [], []⟩

theorem drainWitness_params :
    drainWitness.params = ⟨sampleKey 2, noExpiry, wildcardRoot, spendCapUnlimited, zero20⟩ :=
  Sdk.parseSessionParams_sessionParams ..

theorem drainTx_spends :
    SpendsWith idealPlatform carriedLock drainTx (carriedCell 500 0) drainWitness := by
  refine ⟨drainWitness.encode carriedLock.args, ⟨?_, drainTx_step.accepted ?_⟩, ?_⟩
  · exact ⟨by decide +kernel, 0, _,
      ⟨some (modeSession :: drainWitness.encode carriedLock.args), none, none⟩, by decide +kernel,
      rfl, by decide +kernel, rfl⟩
  · unfold Touches
    decide +kernel
  · refine ⟨rfl, .carried rfl rfl rfl (by decide +kernel), ?_, ?_, ?_, ?_, ?_⟩ <;>
      rw [drainWitness_params]
    · decide
    · exact ⟨rfl, by decide +kernel⟩
    · rfl
    · exact Or.inl rfl
    · refine ⟨Or.inl rfl, ?_, Or.inl rfl⟩
      unfold AccountContinues
      decide +kernel

/-- The owner has signed two messages, and no others verify under the owner's key. -/
theorem idealPlatform_owner (sig : Bytes) (m : Byte32)
    (h : idealPlatform.ckbAuth authIdCkbSecp256k1 sig m (carriedLock.args.take 20) = true) :
    m = Sdk.sessionAuthMessage .sample (Platform.sample.scriptHash carriedLock) 0 carriedBlock ∨
      m = Sdk.txMessage .sample revokeTx.tx := by
  have hmem : (m, carriedLock.args.take 20) ∈ signedMessages := by
    have hcontains := (Bool.and_eq_true _ _ ▸ h).2
    exact List.contains_iff_mem.mp hcontains
  rcases List.mem_cons.mp hmem with h1 | hmem
  · exact Or.inl (congrArg Prod.fst h1)
  · rcases List.mem_cons.mp hmem with h2 | hmem
    · exact Or.inr (congrArg Prod.fst h2)
    · have h3 : carriedLock.args.take 20 = (sampleKey 2).toList :=
        congrArg Prod.snd (List.mem_singleton.mp hmem)
      exact absurd h3 (by decide)

/-- **A revoked authorization is accepted.** The string the lock hashed is the one the owner
signed for epoch 0, although the account has been moved to epoch 1. -/
theorem stale_deposit_unlocks :
    (∀ sig m, idealPlatform.ckbAuth authIdCkbSecp256k1 sig m (carriedLock.args.take 20) = true →
      m = Sdk.sessionAuthMessage .sample (Platform.sample.scriptHash carriedLock) 0 carriedBlock ∨
        m = Sdk.txMessage .sample revokeTx.tx) ∧
    LedgerStep idealPlatform carriedLock revocationLedger revokeTx afterRevoke ∧
    Revokes idealPlatform carriedLock revokeTx 1 ∧
    LedgerStep idealPlatform carriedLock afterRevoke depositTx afterDeposit ∧
    LedgerStep idealPlatform carriedLock afterDeposit drainTx afterDrain ∧
    SpendsWith idealPlatform carriedLock drainTx (carriedCell 500 0) drainWitness ∧
    sessionAuthPreimage (idealPlatform.scriptHash carriedLock) 0 carriedBlock =
      verifiedPreimage idealPlatform carriedLock (carriedCell 500 0) drainWitness ∧
    (0 : U64).toNat < (1 : U64).toNat :=
  ⟨idealPlatform_owner, revokeTx_step, revokeTx_revokes, depositTx_step, drainTx_step,
    drainTx_spends, rfl, by decide⟩

/-! ### A clean revocation

The same revocation, with the session blessed again for epoch 1 and no deposit in between. -/

def blessedTx : ResolvedTx :=
  .ofCells [(⟨Platform.sample.txHash revokeTx.tx.raw, 0⟩, carriedCell 1000 1)] [shopCell 1000] []
    [Sdk.sessionWitnessCarried .sample carriedBlock ownerSig sessionSig none []]

def afterRevoke' : Ledger :=
  Utxo.settle revocationLedger revokeTx.spent (revokeTx.created .sample)

def afterBlessed : Ledger :=
  Utxo.settle afterRevoke' blessedTx.spent (blessedTx.created .sample)

theorem clean_steps :
    LedgerStep .sample carriedLock revocationLedger revokeTx afterRevoke' ∧
    LedgerStep .sample carriedLock afterRevoke' blessedTx afterBlessed where
  left := {
    commits := ⟨by decide +kernel, by decide +kernel, by decide +kernel, by decide +kernel, rfl⟩
    accepted := fun _ => eq_ok_of_isOk (by decide +kernel)
    unforged := by decide +kernel }
  right := {
    commits := ⟨by decide +kernel, by decide +kernel, by decide +kernel, by decide +kernel, rfl⟩
    accepted := fun _ => eq_ok_of_isOk (by decide +kernel)
    unforged := by decide +kernel }

theorem revokeTx_step' : LedgerStep .sample carriedLock revocationLedger revokeTx afterRevoke' :=
  clean_steps.1

theorem blessedTx_step : LedgerStep .sample carriedLock afterRevoke' blessedTx afterBlessed :=
  clean_steps.2

theorem revokeTx_clean :
    CleanRevocation .sample carriedLock 1 revocationLedger revokeTx afterRevoke' []
      afterRevoke' where
  carried := rfl
  step := revokeTx_step'
  revokes := by
    refine ⟨⟨carriedCell 1000 0, ownerSig, ⟨?_, revokeTx_step'.accepted ?_⟩⟩, ?_⟩
    · exact ⟨by decide +kernel, 0, _, ⟨some (modeOwner :: ownerSig), none, none⟩,
        by decide +kernel, rfl, by decide +kernel, rfl⟩
    · unfold Touches
      decide +kernel
    · exact ⟨carriedCell 1000 1, by decide +kernel, rfl, by decide +kernel⟩
  creates := by
    unfold CreatesNoStaleCell
    decide +kernel
  leaves := by
    -- the account is spent, and the other cell is under another lock
    intro op c hlive hkept hhash
    have hmem := (Utxo.lookup_eq_some_iff (by decide)).mp hlive
    rcases List.mem_cons.mp hmem with haccount | hmem
    · obtain ⟨rfl, rfl⟩ := Prod.mk.inj haccount
      exact absurd (by decide +kernel) hkept
    · obtain ⟨rfl, rfl⟩ := Prod.mk.inj (List.mem_singleton.mp hmem)
      exact absurd hhash (by decide +kernel)
  later := .nil

theorem blessedTx_spends :
    SpendsWith .sample carriedLock blessedTx (carriedCell 1000 1) drainWitness := by
  refine ⟨drainWitness.encode carriedLock.args, ⟨?_, blessedTx_step.accepted ?_⟩, ?_⟩
  · exact ⟨by decide +kernel, 0, _,
      ⟨some (modeSession :: drainWitness.encode carriedLock.args), none, none⟩, by decide +kernel,
      rfl, by decide +kernel, rfl⟩
  · unfold Touches
    decide +kernel
  · refine ⟨rfl, .carried rfl rfl rfl (by decide +kernel), ?_, ?_, ?_, ?_, ?_⟩ <;>
      rw [drainWitness_params]
    · decide
    · exact ⟨rfl, by decide +kernel⟩
    · rfl
    · exact Or.inl rfl
    · refine ⟨Or.inl rfl, ?_, Or.inl rfl⟩
      unfold AccountContinues
      decide +kernel

theorem revocation_effective_blessed :
    (1 : U64).toNat ≤ (1 : U64).toNat ∨
      Collide Platform.sample.blake2b
        (sessionAuthPreimage (Platform.sample.scriptHash carriedLock) 1 carriedBlock)
        (verifiedPreimage .sample carriedLock (carriedCell 1000 1) drainWitness) :=
  revocation_effective .sample carriedLock 1 revocationLedger afterRevoke' afterRevoke'
    afterBlessed revokeTx blessedTx [] revokeTx_clean blessedTx_step (carriedCell 1000 1)
    drainWitness blessedTx_spends 1 carriedBlock (by decide +kernel)

end CkbController.SessionLock
