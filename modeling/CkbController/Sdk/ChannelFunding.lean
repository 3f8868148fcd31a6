import CkbController.Ckb.Encoding
import CkbController.Sdk.Agreement
import CkbController.Sdk.Channel
import CkbController.SessionLock.Refinement

/-!
# The funding transaction under the session lock

`build_funding_tx` and the lock's checks (3) to (5) are written apart from each other. They agree
on the order of the outputs, on the one-leaf tree with its empty proof and on the spend cap, for
every account capacity and every budget it covers. They do not agree on account data: the builder
writes the change cell with no data, and the lock asks for the data of the account cell. A session
can therefore fund a channel exactly from an account whose data is empty
(`funding_authorized_iff`), which an account whose owner has ever revoked a session is not.
-/

namespace CkbController.Sdk

open ByteCodec SessionLock

variable {P : Platform} {cfg : ChannelConfig} {budget : U64} {account : Cell} {rtx : ResolvedTx}

/-! ## One output goes elsewhere -/

section

variable {script : Script} {data : Bytes} {input : Nat} {params : SessionParams} {kept sent : Cell}

/-- The region is one frame with no siblings, so it allows one output: the one whose lock is the
only leaf of the tree. -/
theorem policyAllows_channelProofRegion {root : Byte32} {cells : List Cell}
    {c : Cell} (hcells : policedOutputs script cells = [c]) :
    PolicyAllows P script root channelProofRegion cells ↔
      root = policyLeafForScript P c.output.lock := by
  unfold PolicyAllows
  rw [hcells]
  constructor
  · rintro ⟨frames, trailing, hregion, hall⟩
    obtain ⟨f, rest, ⟨script, hkind, hclimb⟩, hrest, rfl⟩ := List.forall₂_cons_left_iff.mp hall
    cases hrest
    -- the one frame is read off the two bytes
    have hbytes : [1, 0] = f.kind :: UInt8.ofNat f.siblings.length ::
        (flat f.siblings ++ trailing) := by
      rw [show ([1, 0] : Bytes) = channelProofRegion from rfl, hregion]
      simp [encodeFrames, PolicyFrame.encode]
    -- the kind is LOCK, and nothing is left for siblings
    obtain ⟨hone, htail⟩ := List.cons.inj hbytes
    have hnone : flat f.siblings = [] :=
      (List.append_eq_nil_iff.mp (List.cons.inj htail).2.symm).1
    have hlength := congrArg List.length hnone
    rw [flat_length, List.length_nil] at hlength
    have hsiblings : f.siblings = [] := List.length_eq_zero_iff.mp (by omega)
    rw [hsiblings] at hclimb
    rcases hkind with ⟨htype, -⟩ | ⟨-, rfl⟩
    · rw [← hone] at htype
      cases htype
    · exact hclimb.symm
  · intro hroot
    refine ⟨[⟨SessionLock.policyKindLock, [], by decide⟩], [], rfl, ?_⟩
    exact .cons ⟨c.output.lock, Or.inr ⟨rfl, rfl⟩, hroot.symm⟩ .nil

theorem policedOutputs_send (hsent : sent.output.lock.sameCode script = false) :
    policedOutputs script [sent] = [sent] := by
  simp [policedOutputs, hsent]

/-- All of the input goes to one output. -/
theorem outputsAllowed_send (hsent : sent.output.lock.sameCode script = false) :
    OutputsAllowed P script data input params channelProofRegion [sent] ↔
      (params.policiesRoot = wildcardRoot ∨
        params.policiesRoot = policyLeafForScript P sent.output.lock) ∧
      (params.spendCap = spendCapUnlimited ∨ input ≤ params.spendCap.toNat) := by
  have hpolicy := @policyAllows_channelProofRegion P script params.policiesRoot _ _
    (policedOutputs_send hsent)
  -- nothing comes back to the account, so the whole input is spent
  have hown : totalCapacity (ownOutputs script [sent]) = 0 := by
    simp [ownOutputs, hsent, totalCapacity]
  constructor
  · intro h
    have hspend := h.spend
    rw [hown] at hspend
    exact ⟨h.policy.imp_right hpolicy.mp, hspend⟩
  · intro h
    refine ⟨h.1.imp_right hpolicy.mpr, ?_, ?_⟩
    · intro c hc hcontinues
      rw [List.mem_singleton.mp hc, hsent] at hcontinues
      cases hcontinues
    · rw [hown]
      exact h.2

/-- The account keeps a cell, and the rest of the input goes to one output. -/
theorem outputsAllowed_keep_and_send (hkept : kept.output.lock = script)
    (hsent : sent.output.lock.sameCode script = false) :
    OutputsAllowed P script data input params channelProofRegion [kept, sent] ↔
      (params.policiesRoot = wildcardRoot ∨
        params.policiesRoot = policyLeafForScript P sent.output.lock) ∧
      kept.data = data ∧
      (params.spendCap = spendCapUnlimited ∨
        input - kept.output.capacity.toNat ≤ params.spendCap.toNat) := by
  have hself : kept.output.lock.sameCode script = true := hkept ▸ script.sameCode_self
  have hpolicy := @policyAllows_channelProofRegion P script params.policiesRoot _ _
    ((policedOutputs_cons_own hself).trans (policedOutputs_send hsent))
  -- only the kept output counts as returned
  have hown : totalCapacity (ownOutputs script [kept, sent]) = kept.output.capacity.toNat := by
    simp [ownOutputs, hself, hsent, totalCapacity]
  constructor
  · intro h
    have hspend := h.spend
    rw [hown] at hspend
    exact ⟨h.policy.imp_right hpolicy.mp, (h.continuity kept (by simp) hself).2, hspend⟩
  · intro h
    refine ⟨h.1.imp_right hpolicy.mpr, ?_, ?_⟩
    · intro c hc hcontinues
      rcases List.mem_cons.mp hc with hc | hc
      · rw [hc, hkept]
        exact ⟨rfl, h.2.1⟩
      · -- the other output is under other code
        rw [List.mem_singleton.mp hc, hsent] at hcontinues
        cases hcontinues
    · rw [hown]
      exact h.2.2

end

/-! ## The funding transaction -/

/-- The funding transaction as the node resolves it: the one input is the account cell. -/
structure SpendsAccount (cfg : ChannelConfig) (budget : U64) (account : Cell) (rtx : ResolvedTx) :
    Prop where
  raw : rtx.tx.raw = (buildFundingTx cfg budget).tx.raw
  inputs : rtx.inputCells = [account]
  lock : account.output.lock = cfg.accountLock
  capacity : account.output.capacity = cfg.accountCapacity

/-- The account change, written with no data. -/
def changeCell (cfg : ChannelConfig) (budget : U64) : Cell :=
  ⟨accountChange cfg.accountLock (MachineInt.saturatingSub cfg.accountCapacity budget), []⟩

def fundingCell (cfg : ChannelConfig) (budget : U64) : Cell :=
  ⟨{ capacity := budget, lock := cfg.fundingLock, type := none }, []⟩

/-- The funding cell comes first, and the account change second. -/
theorem SpendsAccount.outputCells (h : SpendsAccount cfg budget account rtx) :
    rtx.outputCells = [changeCell cfg budget, fundingCell cfg budget] := by
  unfold ResolvedTx.outputCells
  rw [h.raw]
  rfl

theorem SpendsAccount.groupInputCells (h : SpendsAccount cfg budget account rtx) :
    (Vm.ofLock P rtx cfg.accountLock).groupInputCells = [account] :=
  Vm.groupInputCells_ofLock_single P h.inputs h.lock fun _ hc => absurd hc List.not_mem_nil

/-! ## Acceptance -/

/-- **The lock authorizes the funding transaction exactly when the account has no data**, whatever
the session's key, expiry and guardian are. -/
theorem funding_authorized_iff (P : Platform) (cfg : ChannelConfig) (budget : U64) (account : Cell)
    (rtx : ResolvedTx) (session : Byte20) (expiresAt : U64) (guardian : Byte20)
    (h : SpendsAccount cfg budget account rtx)
    (hbudget : budget.toNat ≤ cfg.accountCapacity.toNat)
    (hcode : cfg.fundingLock.sameCode cfg.accountLock = false) :
    checkOutputs P (.ofLock P rtx cfg.accountLock) cfg.accountLock cfg.accountLock.args
        (parseSessionParams
          (channelSessionParams P session expiresAt cfg.fundingLock budget guardian))
        channelProofRegion = .ok () ↔
      account.data = [] := by
  have hkept : (changeCell cfg budget).output.lock = cfg.accountLock := rfl
  have hsent : (fundingCell cfg budget).output.lock.sameCode cfg.accountLock = false := hcode
  have hchange : (changeCell cfg budget).output.capacity.toNat =
      cfg.accountCapacity.toNat - budget.toNat := MachineInt.toNat_saturatingSub _ _
  have hwide : (budget.setWidth 128).toNat = budget.toNat :=
    BitVec.toNat_setWidth_of_le (by decide)
  rw [channelSessionParams, parseSessionParams_sessionParams]
  refine (checkOutputs_single (P := P) h.groupInputCells).trans ?_
  show OutputsAllowed P cfg.accountLock account.data account.output.capacity.toNat _ _
    rtx.outputCells ↔ _
  rw [h.outputCells, h.capacity, outputsAllowed_keep_and_send hkept hsent]
  constructor
  · intro hallowed
    -- the change cell is the account's continuation
    exact hallowed.2.1.symm
  · intro hempty
    refine ⟨Or.inr rfl, hempty.symm, Or.inr ?_⟩
    -- the outflow is the budget, and so is the cap
    show cfg.accountCapacity.toNat - _ ≤ (budget.setWidth 128).toNat
    rw [hchange, hwide]
    omega

/-! ### A registered account, before and after a revocation -/

def fiberLock : Script := ⟨sampleHash 0xAB, 0, [102, 105, 98, 101, 114]⟩

def channelAccount : ChannelConfig where
  accountLock := ⟨sampleHash 8, 1, registeredArgs (sampleKey 1)
    (channelSessionParams .sample (sampleKey 2) 100 fiberLock 500 zero20)⟩
  accountInput := ⟨sampleHash 7, 0⟩
  accountCapacity := 1000
  fundingLock := fiberLock
  cellDeps := []
  headerDep := sampleHash 6

def channelAccountCell (data : Bytes) : Cell := ⟨⟨1000, channelAccount.accountLock, none⟩, data⟩

def fundingRtx (data : Bytes) : ResolvedTx where
  tx := (buildFundingTx channelAccount 500).tx
  inputCells := [channelAccountCell data]
  headers := [⟨sampleHash 6, 99999⟩]
  inputs_resolved := rfl
  headers_resolved := rfl
  outputs_paired := rfl

theorem spendsAccount_fundingRtx (data : Bytes) :
    SpendsAccount channelAccount 500 (channelAccountCell data) (fundingRtx data) :=
  ⟨rfl, rfl, rfl, rfl⟩

theorem funding_authorized_iff_fresh :
    checkOutputs .sample (.ofLock .sample (fundingRtx []) channelAccount.accountLock)
      channelAccount.accountLock channelAccount.accountLock.args
      (parseSessionParams (channelSessionParams .sample (sampleKey 2) 100 fiberLock 500 zero20))
      channelProofRegion = .ok () :=
  (funding_authorized_iff .sample channelAccount 500 (channelAccountCell []) (fundingRtx [])
    (sampleKey 2) 100 zero20 (spendsAccount_fundingRtx []) (by decide) (by decide)).mpr rfl

/-- The owner has revoked once, so the account's data spells epoch 1. -/
theorem revoked_account_cannot_fund :
    ¬ ∀ cfg budget account rtx session expiresAt guardian, SpendsAccount cfg budget account rtx →
      budget.toNat ≤ cfg.accountCapacity.toNat →
      cfg.fundingLock.sameCode cfg.accountLock = false →
      checkOutputs .sample (.ofLock .sample rtx cfg.accountLock) cfg.accountLock
        cfg.accountLock.args
        (parseSessionParams
          (channelSessionParams .sample session expiresAt cfg.fundingLock budget guardian))
        channelProofRegion = .ok () := by
  intro hall
  have hok := hall channelAccount 500 (channelAccountCell (epochData 1)) (fundingRtx (epochData 1))
    (sampleKey 2) 100 zero20 (spendsAccount_fundingRtx _) (by decide) (by decide)
  have hchecks := (checkOutputs_single (SpendsAccount.groupInputCells
    (spendsAccount_fundingRtx (epochData 1)))).mp hok
  have hchange := hchecks.continuity (changeCell channelAccount 500) (by
    show _ ∈ (fundingRtx (epochData 1)).outputCells
    rw [(spendsAccount_fundingRtx (epochData 1)).outputCells]
    exact List.mem_cons_self) channelAccount.accountLock.sameCode_self
  exact absurd hchange.2 (by decide)

end CkbController.Sdk
