import CkbController.SessionLock.Exposure

/-!
# Expiry and the choice of header

The expiry check compares `expires_at` with the timestamp of the first header dep. A header dep
may name any header of the chain, so the time the check sees is chosen by whoever builds the
transaction: it is a lower bound on the time of the block the transaction lands in, never an
upper bound. An expired session keeps working with an old header.

`expiryEnforced_iff` says exactly when the check is nevertheless effective: not at all for an
enabled session that expires after the first header of the chain. The proof of the hard
direction builds the transaction, a spend of the account to itself under the oldest header.
-/

namespace CkbController.SessionLock

open ByteCodec Checks

variable {P : Platform}

/-! ## The chain -/

structure Chain where
  headers : List Header
  ordered : headers.Pairwise fun h h' => h.timestamp.toNat ≤ h'.timestamp.toNat

structure NextBlock (chain : Chain) where
  timestamp : U64
  after : ∀ tip, chain.headers.getLast? = some tip → tip.timestamp.toNat ≤ timestamp.toNat

/-- A SESSION-mode transaction on `account`, with session params `params` and header deps on the
chain, that the lock accepts. -/
def UnlocksWith (P : Platform) (chain : Chain) (account : Cell) (params : SessionParams)
    (rtx : ResolvedTx) : Prop :=
  (∀ h ∈ rtx.headers, h ∈ chain.headers) ∧ ∃ rest sigRegion,
    Accepts P rtx account.output.lock modeSession account rest ∧
    resolveSession P (.ofLock P rtx account.output.lock) (P.scriptHash account.output.lock)
      account.output.lock.args rest = .ok (params, sigRegion)

def ExpiryEnforced (P : Platform) (chain : Chain) (block : NextBlock chain) (account : Cell)
    (params : SessionParams) : Prop :=
  ∀ rtx, UnlocksWith P chain account params rtx →
    block.timestamp.toNat / 1000 < params.expiresAt.toNat

def ParamsOf (account : Cell) (params : SessionParams) : Prop :=
  (account.output.lock.args.length = argsLen ∧ registeredParams account.output.lock = params) ∨
    account.output.lock.args.length = ownerOnlyArgsLen

/-- Whoever holds the key of `pubkeyHash` can sign any message with it. -/
def CanSign (P : Platform) (pubkeyHash : Bytes) : Prop :=
  ∀ message, ∃ signature : Bytes, signature.length = signatureLen ∧
    P.ckbAuth authIdCkbSecp256k1 signature message pubkeyHash = true

/-- The keys behind a session sign: its own, its guardian's if it has one, and in the carried
model the owner's, for the blessing. -/
structure KeysSign (P : Platform) (lock : Script) (params : SessionParams) : Prop where
  session : CanSign P params.sessionPubkeyHash.toList
  guardian : params.guardianPubkeyHash ≠ zero20 → CanSign P params.guardianPubkeyHash.toList
  owner : lock.args.length = ownerOnlyArgsLen → CanSign P (lock.args.take 20)

/-- Some witness reads as a given lock field, as long as it is short. -/
def ShortWitnessesRead (P : Platform) : Prop :=
  ∀ lockBytes : Bytes, lockBytes.length ≤ 512 →
    ∃ w, P.witnessArgsFromSlice w =
      some { lock := some lockBytes, inputType := none, outputType := none }

/-! ## Spending the account to itself -/

def selfSpend (account : Cell) (h : Header) (witness : Bytes) : ResolvedTx :=
  .ofCells [(⟨zero32, 0⟩, account)] [account] [h] [witness]

theorem groupInputs_selfSpend (account : Cell) (h : Header) (witness : Bytes) :
    (Vm.ofLock P (selfSpend account h witness) account.output.lock).groupInputs = [0] := by
  simp [Vm.ofLock, Vm.indicesOf, selfSpend, ResolvedTx.ofCells, List.range_succ]

/-- The group of the lock is the account. -/
theorem groupInputCells_selfSpend (account : Cell) (h : Header) (witness : Bytes) :
    (Vm.ofLock P (selfSpend account h witness) account.output.lock).groupInputCells =
      [account] := by
  rw [Vm.groupInputCells, groupInputs_selfSpend]
  rfl

/-- The policy, the continuity and the spend cap have nothing to object to. -/
theorem outputsAllowed_selfSpend (account : Cell) (h : Header) (witness : Bytes)
    (params : SessionParams) :
    OutputsAllowed P account.output.lock account.data account.output.capacity.toNat params []
      (selfSpend account h witness).outputCells := by
  rw [selfSpend, ResolvedTx.outputCells_ofCells]
  have hsame := account.output.lock.sameCode_self
  refine ⟨Or.inr ⟨[], [], rfl, ?_⟩, ?_, Or.inr ?_⟩
  · rw [policedOutputs_cons_own hsame]
    exact List.Forall₂.nil
  · intro c hc _
    rw [List.mem_singleton.mp hc]
    exact ⟨rfl, rfl⟩
  · rw [ownOutputs_cons_own hsame]
    simp [ownOutputs, totalCapacity]

/-- Params that the account allows can be blessed: they are in the args, or the owner signs them. -/
theorem exists_paramsBlessed {account : Cell} {params : SessionParams}
    (hmodel : ParamsOf account params) (hkeys : KeysSign P account.output.lock params) :
    ∃ paramsBlock ownerAuth, parseSessionParams paramsBlock = params ∧
      (∀ rtx, ParamsBlessed P (.ofLock P rtx account.output.lock) account paramsBlock
        ownerAuth) ∧
      (account.output.lock.args.length = ownerOnlyArgsLen →
        paramsBlock.length = sessionParamsLen ∧ ownerAuth.length = signatureLen) := by
  rcases hmodel with ⟨hreg, hparams⟩ | hcar
  · -- a registered session has its params in the args
    refine ⟨account.output.lock.args.drop ownerOnlyArgsLen, [], hparams,
      fun rtx => .registered hreg rfl rfl, ?_⟩
    intro hcar
    rw [hreg] at hcar
    exact absurd hcar (by decide)
  · -- in the carried model any params block can be blessed
    let block := Sdk.sessionParams params.sessionPubkeyHash params.expiresAt params.policiesRoot
      params.spendCap params.guardianPubkeyHash
    have hlen : block.length = sessionParamsLen := Sdk.length_sessionParams ..
    obtain ⟨auth, hauthlen, hvalid⟩ :=
      hkeys.owner hcar (blessing P account.output.lock account.data block)
    exact ⟨block, auth, Sdk.parseSessionParams_sessionParams ..,
      fun rtx => .carried hcar hlen hauthlen hvalid, fun _ => ⟨hlen, hauthlen⟩⟩

/-- A witness without a proof is short. -/
theorem length_encode_le {w : SessionWitness} {args : Bytes}
    (hblock : args.length = ownerOnlyArgsLen →
      w.paramsBlock.length = sessionParamsLen ∧ w.ownerAuth.length = signatureLen)
    (hsession : w.sessionSig.length = signatureLen)
    (hguardian : w.guardianSig.length ≤ signatureLen) (hregion : w.proofRegion = []) :
    (w.encode args).length ≤ 511 := by
  have hsig : signatureLen = 65 := rfl
  have hlen : sessionParamsLen = 96 := rfl
  rw [SessionWitness.encode, hregion, List.append_nil, List.length_append, List.length_append]
  by_cases hcar : args.length = ownerOnlyArgsLen
  · obtain ⟨hb, ha⟩ := hblock hcar
    rw [if_pos hcar, List.length_append]
    omega
  · rw [if_neg hcar, List.length_nil]
    omega

/-- **A header before expiry is all an enabled session needs.** -/
theorem exists_unlocksWith {chain : Chain} {account : Cell} {params : SessionParams}
    (hmodel : ParamsOf account params) (hkeys : KeysSign P account.output.lock params)
    (hread : ShortWitnessesRead P) (henabled : params.sessionPubkeyHash ≠ zero20) {h : Header}
    (hmem : h ∈ chain.headers) (hearly : h.timestamp.toNat / 1000 < params.expiresAt.toNat) :
    ∃ rtx, UnlocksWith P chain account params rtx := by
  -- the signatures cover the raw transaction, which does not depend on the witness
  let message := txMessage P (.ofLock P (selfSpend account h []) account.output.lock)
  obtain ⟨sessionSig, hsessionlen, hsession⟩ := hkeys.session message
  obtain ⟨guardianSig, hguardianlen, hguardian⟩ : ∃ guardianSig : Bytes,
      guardianSig.length ≤ signatureLen ∧
      (if params.guardianPubkeyHash = zero20 then guardianSig = []
        else guardianSig.length = signatureLen ∧ P.ckbAuth authIdCkbSecp256k1 guardianSig message
          params.guardianPubkeyHash.toList = true) := by
    by_cases hzero : params.guardianPubkeyHash = zero20
    · exact ⟨[], Nat.zero_le _, by rw [if_pos hzero]⟩
    · obtain ⟨sig, hlen, hvalid⟩ := hkeys.guardian hzero message
      exact ⟨sig, Nat.le_of_eq hlen, by rw [if_neg hzero]; exact ⟨hlen, hvalid⟩⟩
  obtain ⟨paramsBlock, ownerAuth, hparse, hblessed, hlens⟩ := exists_paramsBlessed hmodel hkeys
  let w : SessionWitness := ⟨paramsBlock, ownerAuth, sessionSig, guardianSig, []⟩
  let rest := w.encode account.output.lock.args
  have hshort : (modeSession :: rest).length ≤ 512 := by
    have hrest : rest.length ≤ 511 := length_encode_le hlens hsessionlen hguardianlen rfl
    rw [List.length_cons]
    omega
  obtain ⟨witness, hwitness⟩ := hread _ hshort
  have hgroup := @groupInputCells_selfSpend P account h witness
  have hattempt : UnlockAttempt P (.ofLock P (selfSpend account h witness) account.output.lock)
      account modeSession rest := by
    refine ⟨hgroup, 0, witness, _, ?_, rfl, hwitness, rfl⟩
    rw [groupInputs_selfSpend]
    rfl
  have hunlocks : SessionUnlocks P
      (.ofLock P (selfSpend account h witness) account.output.lock) account rest w := by
    have hparams : w.params = params := hparse
    refine ⟨rfl, hblessed _, ?_, ?_, ?_, ?_, ?_⟩
    · rw [hparams]
      exact henabled
    · rw [hparams]
      exact ⟨hsessionlen, hsession⟩
    · rw [hparams]
      exact hguardian
    · rw [hparams]
      exact Or.inr ⟨h, rfl, hearly⟩
    · rw [hparams]
      exact outputsAllowed_selfSpend account h witness params
  have hargs : account.output.lock.args.length = ownerOnlyArgsLen ∨
      account.output.lock.args.length = argsLen := hmodel.symm.imp_right And.left
  refine ⟨selfSpend account h witness, ?_, rest, sessionSig ++ guardianSig ++ [],
    accepts_of_sessionUnlocks hargs hattempt hunlocks, ?_⟩
  · intro h' hh'
    rw [List.mem_singleton.mp hh']
    exact hmem
  · rw [← hparse]
    exact hunlocks.resolveSession_eq hgroup

/-! ## When the check is effective -/

/-- A session that unlocks has passed the check of its expiry. -/
theorem UnlocksWith.checked {chain : Chain} {account : Cell} {params : SessionParams}
    {rtx : ResolvedTx} (h : UnlocksWith P chain account params rtx) :
    params.sessionPubkeyHash ≠ zero20 ∧ (params.expiresAt = noExpiry ∨
      ∃ h ∈ chain.headers, h.timestamp.toNat / 1000 < params.expiresAt.toNat) := by
  obtain ⟨hchain, rest, sigRegion, haccepts, hresolve⟩ := h
  have hok := haccepts.verifySession_ok
  unfold verifySession at hok
  rw [hresolve, ok_bind] at hok
  obtain ⟨region, hsigs, hok⟩ := bind_eq_ok.mp hok
  obtain ⟨⟨⟩, hexpiry, -⟩ := bind_eq_ok.mp hok
  obtain ⟨-, -, -, henabled, -⟩ := checkSignatures_eq_ok.mp hsigs
  refine ⟨henabled, (checkExpiry_eq_ok.mp hexpiry).imp_right ?_⟩
  rintro ⟨header, hfirst, hearly⟩
  exact ⟨header, hchain _ (List.mem_of_getElem? hfirst), hearly⟩

/-- **When expiry is enforced.** Once a session has expired the lock turns it away only if it was
never enabled or if it had expired before the first header of the chain. -/
theorem expiryEnforced_iff (P : Platform) (chain : Chain) (block : NextBlock chain)
    (account : Cell) (params : SessionParams) (hmodel : ParamsOf account params)
    (hexpires : params.expiresAt ≠ noExpiry) (hkeys : KeysSign P account.output.lock params)
    (hread : ShortWitnessesRead P) :
    ExpiryEnforced P chain block account params ↔
      block.timestamp.toNat / 1000 < params.expiresAt.toNat ∨
        params.sessionPubkeyHash = zero20 ∨
        ∀ h, chain.headers.head? = some h →
          params.expiresAt.toNat ≤ h.timestamp.toNat / 1000 := by
  constructor
  · -- otherwise the oldest header is early enough to unlock with
    intro henforced
    by_contra hnot
    push Not at hnot
    obtain ⟨hexpired, henabled, oldest, hhead, hearly⟩ := hnot
    obtain ⟨rtx, hrtx⟩ := exists_unlocksWith hmodel hkeys hread henabled
      (List.mem_of_head? hhead) hearly
    have := henforced rtx hrtx
    omega
  · rintro (hlive | hdisabled | hlate) rtx hrtx
    · exact hlive
    · exact absurd hdisabled hrtx.checked.1
    · -- the header the check saw is not older than the first one
      obtain ⟨h, hmem, hearly⟩ := hrtx.checked.2.resolve_left hexpires
      have hordered := chain.ordered
      cases hheaders : chain.headers with
      | nil =>
        rw [hheaders] at hmem
        cases hmem
      | cons oldest rest =>
        rw [hheaders] at hmem hordered hlate
        have hoverdue := hlate oldest rfl
        rcases List.mem_cons.mp hmem with rfl | hmem
        · omega
        · have hle := List.rel_of_pairwise_cons hordered hmem
          omega

/-! ### An expired session at work

The session expires at second 100; the chain has a header from second 50. -/

def expiringLock : Script :=
  ⟨sampleHash 8, 1, Sdk.registeredArgs (sampleKey 1)
    (Sdk.sessionParams (sampleKey 2) 100 wildcardRoot 100 zero20)⟩

def expiringCell : Cell := ⟨⟨1000, expiringLock, none⟩, []⟩

def sampleChain : Chain where
  headers := [⟨sampleHash 10, 50000⟩, ⟨sampleHash 11, 150000⟩]
  ordered := by decide

def sampleBlock : NextBlock sampleChain where
  timestamp := 200000
  after := by decide

def expiredSpend : ResolvedTx := selfSpend expiringCell ⟨sampleHash 10, 50000⟩ cappedWitness

theorem expiredSpend_unlocks :
    UnlocksWith .sample sampleChain expiringCell (registeredParams expiringLock) expiredSpend := by
  refine ⟨by decide, List.replicate 65 2, List.replicate 65 2, ⟨?_, ?_⟩, ?_⟩
  · exact ⟨by decide +kernel, 0, cappedWitness, cappedWitnessArgs, by decide +kernel, rfl,
      by decide +kernel, rfl⟩
  · exact eq_ok_of_isOk (by decide +kernel)
  · rfl

theorem expiringLock_expiresAt : (registeredParams expiringLock).expiresAt = 100 := by
  decide +kernel

/-- The lock accepts the session at second 200, one hundred seconds after it expired. -/
theorem expired_session_unlocks :
    UnlocksWith .sample sampleChain expiringCell (registeredParams expiringLock) expiredSpend ∧
      ¬ sampleBlock.timestamp.toNat / 1000 < (registeredParams expiringLock).expiresAt.toNat := by
  rw [expiringLock_expiresAt]
  exact ⟨expiredSpend_unlocks, by decide⟩

theorem canSign_sample (key : Bytes) : CanSign .sample key :=
  fun _ => ⟨List.replicate 65 0, rfl, rfl⟩

theorem shortWitnessesRead_sample : ShortWitnessesRead .sample := by
  intro lockBytes hlen
  refine ⟨WitnessArgs.encode ⟨some lockBytes, none, none⟩, WitnessArgs.decode_encode ?_⟩
  rw [WitnessArgs.length_encode]
  simp only [Molecule.bytesOpt, Molecule.length_bytes, List.length_nil]
  omega

theorem expiryEnforced_iff_sample :
    ExpiryEnforced .sample sampleChain sampleBlock expiringCell (registeredParams expiringLock) ↔
      sampleBlock.timestamp.toNat / 1000 < (registeredParams expiringLock).expiresAt.toNat ∨
        (registeredParams expiringLock).sessionPubkeyHash = zero20 ∨
        ∀ h, sampleChain.headers.head? = some h →
          (registeredParams expiringLock).expiresAt.toNat ≤ h.timestamp.toNat / 1000 :=
  expiryEnforced_iff .sample sampleChain sampleBlock expiringCell (registeredParams expiringLock)
    (Or.inl ⟨by decide, rfl⟩) (by rw [expiringLock_expiresAt]; decide)
    ⟨canSign_sample _, fun _ => canSign_sample _, fun _ => canSign_sample _⟩
    shortWitnessesRead_sample

end CkbController.SessionLock
