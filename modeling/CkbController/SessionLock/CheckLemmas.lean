import CkbController.SessionLock.PolicyWalk

/-!
# What each check of the lock accepts

One lemma for each function of the lock but the policy walk, which has its own module: when it
returns `Ok`, in the terms of `SessionLock/Spec.lean`. Callers cite these and never unfold the
function. The spend cap is where machine arithmetic is left behind: the saturating `u128` sums
agree with sums of natural numbers on every transaction whose account inputs fit in a `u128`,
in particular on one account input.
-/

namespace CkbController.SessionLock

open ByteCodec Checks MachineInt

variable {P : Platform} {vm : Vm}

/-! ## Signatures -/

/-- `verify_signature` leaves the decision to ckb-auth. -/
theorem verifySignature_eq_ok {alg : UInt8} {sig : Bytes} {m : Byte32} {pkh : Bytes} {u : Unit} :
    verifySignature P alg sig m pkh = .ok u ↔ P.ckbAuth alg sig m pkh = true := by
  rw [verifySignature, rejectIf_eq_ok, Bool.not_eq_false]

/-- The first signature is a slice from the start. -/
theorem slice_zero_eq_take (b : Bytes) (n : Nat) : slice b 0 n = b.take n := rfl

/-- `verify_owner` accepts exactly when the owner unlocks. -/
theorem verifyOwner_eq_ok {rest : Bytes} {u : Unit} :
    verifyOwner P vm.script.args rest (txMessage P vm) = .ok u ↔ OwnerUnlocks P vm rest := by
  unfold verifyOwner OwnerUnlocks
  rw [rejectIf_bind_eq_ok, verifySignature_eq_ok, Nat.not_lt]
  rfl

/-- The signature region splits into the session signature, the guardian's if there is one, and
the proof region. -/
theorem checkSignatures_eq_ok {params : SessionParams} {sigRegion region : Bytes} {m : Byte32} :
    checkSignatures P params sigRegion m = .ok region ↔
      ∃ sessionSig guardianSig, sigRegion = sessionSig ++ guardianSig ++ region ∧
        params.sessionPubkeyHash ≠ zero20 ∧
        (sessionSig.length = signatureLen ∧ P.ckbAuth authIdCkbSecp256k1 sessionSig m
          params.sessionPubkeyHash.toList = true) ∧
        (if params.guardianPubkeyHash = zero20 then guardianSig = []
          else guardianSig.length = signatureLen ∧ P.ckbAuth authIdCkbSecp256k1 guardianSig m
            params.guardianPubkeyHash.toList = true) := by
  unfold checkSignatures
  rw [rejectIf_bind_eq_ok, rejectIf_bind_eq_ok, bind_eq_ok]
  simp only [verifySignature_eq_ok, signatureLen, Nat.not_lt, slice_zero_eq_take, ne_eq]
  by_cases hg : params.guardianPubkeyHash = zero20
  · -- no guardian: one signature
    simp only [hg, not_true_eq_false, if_false, if_true, pure, Except.pure, Except.ok.injEq]
    constructor
    · rintro ⟨henabled, hlen, -, hsig, rfl⟩
      refine ⟨sigRegion.take 65, [], ?_, henabled, ⟨?_, hsig⟩, rfl⟩
      · rw [List.append_nil, List.take_append_drop]
      · rw [List.length_take]
        omega
    · rintro ⟨sessionSig, guardianSig, rfl, henabled, ⟨hlen, hsig⟩, rfl⟩
      rw [List.append_nil]
      refine ⟨henabled, by rw [List.length_append]; omega, (), ?_, List.drop_left' hlen⟩
      rw [List.take_left' hlen]
      exact hsig
  · -- a guardian: two signatures, cut at 65 and 130
    simp only [hg, not_false_eq_true, if_true, if_false]
    constructor
    · rintro ⟨henabled, hlen, -, hsig, h⟩
      obtain ⟨hlen2, h⟩ := rejectIf_bind_eq_ok.mp h
      obtain ⟨⟨⟩, hguard, h⟩ := bind_eq_ok.mp h
      cases h
      rw [Nat.not_lt] at hlen2
      refine ⟨sigRegion.take 65, slice sigRegion 65 (65 + 65), ?_, henabled, ⟨?_, hsig⟩, ?_,
        verifySignature_eq_ok.mp hguard⟩
      · rw [← slice_zero_eq_take, slice_append_slice (by decide) (by decide),
          slice_zero_eq_take, List.take_append_drop]
      · rw [List.length_take]
        omega
      · rw [slice_length]
        omega
    · rintro ⟨sessionSig, guardianSig, rfl, henabled, ⟨hlen, hsig⟩, hglen, hguard⟩
      have htwo : (sessionSig ++ guardianSig).length = 65 + 65 := by
        rw [List.length_append, hlen, hglen]
      have hslice : slice (sessionSig ++ guardianSig ++ region) 65 (65 + 65) = guardianSig := by
        rw [List.append_assoc, slice_append_right (by omega), hlen, Nat.sub_self,
          Nat.add_sub_cancel, slice_zero_eq_take, List.take_left' hglen]
      refine ⟨henabled, by simp only [List.length_append]; omega, (), ?_, ?_⟩
      · rw [List.append_assoc, List.take_left' hlen]
        exact hsig
      · refine rejectIf_bind_eq_ok.mpr ⟨by simp only [List.length_append]; omega, ?_⟩
        refine bind_eq_ok.mpr ⟨(), verifySignature_eq_ok.mpr (by rw [hslice]; exact hguard), ?_⟩
        exact congrArg Except.ok (List.drop_left' htwo)

/-! ## Expiry -/

/-- A session without an expiry is not checked; any other one needs a first header dep from before
it. -/
theorem checkExpiry_eq_ok {expiresAt : U64} {u : Unit} :
    checkExpiry vm expiresAt = .ok u ↔ expiresAt = noExpiry ∨
      ∃ h, vm.rtx.headers[0]? = some h ∧ h.timestamp.toNat / 1000 < expiresAt.toNat := by
  unfold checkExpiry currentTimestampMs
  by_cases he : expiresAt = noExpiry
  · -- no expiry: no header is read
    rw [if_neg (not_not_intro he)]
    exact iff_of_true rfl (Or.inl he)
  · -- the first header dep gives the time
    rw [if_pos he, bind_eq_ok]
    simp only [bind_eq_ok, sys_eq_ok, Vm.loadHeader_eq_ok, rejectIf_eq_ok, Nat.not_le, pure,
      Except.pure, Except.ok.injEq, he, false_or]
    constructor
    · rintro ⟨ts, ⟨h, hh, rfl⟩, hlt⟩
      exact ⟨h, hh, hlt⟩
    · rintro ⟨h, hh, hlt⟩
      exact ⟨h.timestamp, ⟨h, hh, rfl⟩, hlt⟩

/-! ## Capacities -/

/-- **Saturating sums.** The fold adds capacities up to the largest `u128`. Induction on the cells,
from any sum so far. -/
theorem toNat_foldl_addCapacity (cells : List Cell) (acc : U128) :
    (cells.foldl addCapacity acc).toNat =
      min (acc.toNat + totalCapacity cells) (2 ^ 128 - 1) := by
  -- a saturated sum stays saturated, so only the total counts
  induction cells generalizing acc with
  | nil =>
    have := acc.isLt
    simp only [List.foldl_nil, totalCapacity, List.map_nil, List.sum_nil]
    omega
  | cons c cells ih =>
    have hwiden : (c.output.capacity.setWidth 128).toNat = c.output.capacity.toNat :=
      BitVec.toNat_setWidth_of_le (by decide)
    rw [List.foldl_cons, ih, addCapacity, toNat_saturatingAdd, hwiden]
    simp only [totalCapacity, List.map_cons, List.sum_cons]
    omega

/-- An output under the code of the lock is one of its own. -/
theorem ownOutputs_cons_own {script : Script} {c : Cell} {cells : List Cell}
    (h : c.output.lock.sameCode script = true) :
    ownOutputs script (c :: cells) = c :: ownOutputs script cells := by
  simp [ownOutputs, h]

/-- An output under other code is not one of the lock's own. -/
theorem ownOutputs_cons_other {script : Script} {c : Cell} {cells : List Cell}
    (h : ¬ c.output.lock.sameCode script = true) :
    ownOutputs script (c :: cells) = ownOutputs script cells := by
  simp [ownOutputs, h]

/-- The account walk checks continuity and sums what stays. Induction on the outputs left. -/
theorem accountOutputs_eq_ok {script : Script} {args data : Bytes} {r : U128} :
    ∀ (cells : List Cell) (acc : U128),
      accountOutputs script args data cells acc = .ok r ↔
        AccountContinues script args data cells ∧
          (ownOutputs script cells).foldl addCapacity acc = r := by
  intro cells
  induction cells with
  | nil =>
    intro acc
    simp [accountOutputs, AccountContinues, ownOutputs]
  | cons c cells ih =>
    intro acc
    unfold AccountContinues at ih ⊢
    -- own outputs are checked and counted, all others skipped
    by_cases hown : c.output.lock.sameCode script = true
    · rw [accountOutputs, if_pos hown, rejectIf_bind_eq_ok, rejectIf_bind_eq_ok, ih,
        ownOutputs_cons_own hown, List.foldl_cons, not_not, not_not]
      simp only [List.mem_cons, forall_eq_or_imp, hown, forall_const]
      tauto
    · rw [accountOutputs, if_neg hown, ih, ownOutputs_cons_other hown]
      simp only [List.mem_cons, forall_eq_or_imp]
      tauto

/-! ## Policy and spend cap -/

/-- The wildcard root lets every output pass; any other root asks for the walk. -/
theorem checkPolicy_eq_ok {script : Script} {root : Byte32} {region : Bytes} :
    checkPolicy P vm script root region = .ok () ↔
      root = wildcardRoot ∨ PolicyAllows P script root region vm.rtx.outputCells := by
  unfold checkPolicy
  by_cases hw : root = wildcardRoot
  · rw [if_neg (not_not_intro hw)]
    exact iff_of_true rfl (Or.inl hw)
  · rw [if_pos hw, checkOutputPolicies_eq_ok, List.drop_zero]
    simp only [hw, false_or]

/-- Without a cap any outflow passes. The difference saturates at zero, as that of naturals does. -/
theorem checkSpendCap_eq_ok {cap returned : U128} {u : Unit} :
    checkSpendCap vm cap returned = .ok u ↔ cap = spendCapUnlimited ∨
      (inputCapacity vm).toNat - returned.toNat ≤ cap.toNat := by
  unfold checkSpendCap
  by_cases hc : cap = spendCapUnlimited
  · rw [if_pos hc]
    exact iff_of_true rfl (Or.inl hc)
  · rw [if_neg hc, rejectIf_eq_ok, toNat_saturatingSub, Nat.not_lt]
    simp only [hc, false_or]

/-- Checks (3) to (5) as the lock computes them, on saturating sums. -/
theorem checkOutputs_eq_ok_iff {script : Script} {args : Bytes} {params : SessionParams}
    {region : Bytes} {u : Unit} :
    checkOutputs P vm script args params region = .ok u ↔
      (params.policiesRoot = wildcardRoot ∨
        PolicyAllows P script params.policiesRoot region vm.rtx.outputCells) ∧
      ∃ account, vm.groupInputCells[0]? = some account ∧
        AccountContinues script args account.data vm.rtx.outputCells ∧
        (params.spendCap = spendCapUnlimited ∨
          saturated (totalCapacity vm.groupInputCells) -
            saturated (totalCapacity (ownOutputs script vm.rtx.outputCells)) ≤
              params.spendCap.toNat) := by
  have hsum : ∀ cells : List Cell, (cells.foldl addCapacity 0).toNat =
      saturated (totalCapacity cells) := by
    intro cells
    rw [toNat_foldl_addCapacity]
    simp [saturated]
  -- policy, continuity and cap in turn; the walk over the outputs also returns the sum
  unfold checkOutputs enforceAccountOutputs
  constructor
  · intro h
    obtain ⟨⟨⟩, hp, h⟩ := bind_eq_ok.mp h
    obtain ⟨r, hr, hs⟩ := bind_eq_ok.mp h
    obtain ⟨data, hdata, hwalk⟩ := bind_eq_ok.mp hr
    obtain ⟨account, haccount, rfl⟩ := vm.loadGroupInputData_eq_ok.mp (sys_eq_ok.mp hdata)
    obtain ⟨hc, rfl⟩ := (accountOutputs_eq_ok _ _).mp hwalk
    rw [checkSpendCap_eq_ok, inputCapacity, hsum, hsum] at hs
    exact ⟨checkPolicy_eq_ok.mp hp, account, haccount, hc, hs⟩
  · rintro ⟨hp, account, haccount, hc, hs⟩
    have hdata : sys (vm.loadGroupInputData 0) = .ok account.data :=
      sys_eq_ok.mpr (vm.loadGroupInputData_eq_ok.mpr ⟨account, haccount, rfl⟩)
    let returned := (ownOutputs script vm.rtx.outputCells).foldl addCapacity 0
    have hwalk : accountOutputs script args account.data vm.rtx.outputCells 0 = .ok returned :=
      (accountOutputs_eq_ok _ _).mpr ⟨hc, rfl⟩
    have hcap : checkSpendCap vm params.spendCap returned = .ok u := by
      rw [checkSpendCap_eq_ok, inputCapacity, hsum, hsum]
      exact hs
    refine bind_eq_ok.mpr ⟨(), checkPolicy_eq_ok.mpr hp, bind_eq_ok.mpr ⟨returned, ?_, hcap⟩⟩
    exact bind_eq_ok.mpr ⟨account.data, hdata, hwalk⟩

/-- **Checks (3) to (5).** For account inputs that fit in a `u128`, the saturating sums are the
sums of natural numbers. -/
theorem checkOutputs_eq_ok {account : Cell} {others : List Cell} {params : SessionParams}
    {region : Bytes} {u : Unit} (hgroup : vm.groupInputCells = account :: others)
    (hfit : totalCapacity vm.groupInputCells < 2 ^ 128) :
    checkOutputs P vm vm.script vm.script.args params region = .ok u ↔
      OutputsAllowed P vm.script account.data (totalCapacity vm.groupInputCells) params region
        vm.rtx.outputCells := by
  have haccount : vm.groupInputCells[0]? = some account := by rw [hgroup]; rfl
  -- clamping what stays does not change what is missing from inputs that fit
  have hspend : saturated (totalCapacity vm.groupInputCells) -
        saturated (totalCapacity (ownOutputs vm.script vm.rtx.outputCells)) =
      totalCapacity vm.groupInputCells -
        totalCapacity (ownOutputs vm.script vm.rtx.outputCells) := by
    unfold saturated
    omega
  rw [checkOutputs_eq_ok_iff, hspend]
  constructor
  · rintro ⟨hp, account', haccount', hc, hs⟩
    obtain rfl : account = account' := Option.some.inj (haccount.symm.trans haccount')
    exact ⟨hp, hc, hs⟩
  · rintro ⟨hp, hc, hs⟩
    exact ⟨hp, account, haccount, hc, hs⟩

end CkbController.SessionLock
