import CkbController.PaymasterService.Service
import CkbController.SessionLock.PolicySound

/-!
# What sponsoring does to the lock's output checks

The relayer appends an input and an output to a transaction that the lock may already have
accepted, and the lock inspects every output. This module follows the three output checks across
`balance`. The appended change output is one more policed output, so under a scoped policies
root the proof region must hold one more frame than the client's own outputs need, and that
frame must prove the relayer's lock. `Fits` collects what is asked of the relayer's additions,
and `sponsored_ok_iff` says that nothing else is.
-/

namespace CkbController.PaymasterService

open ByteCodec Checks Paymaster SessionLock

variable {P : Platform}

/-! ## What the client's outputs leave of the proof region -/

/-- The region after its first `n` frames. -/
def dropFrames : Nat → Bytes → Bytes
  | 0, region => region
  | n + 1, _ :: count :: region => dropFrames n (region.drop (count.toNat * 32))
  | _ + 1, _ => []

/-- Dropping as many frames as were written leaves what follows them. -/
theorem dropFrames_encodeFrames (frames : List PolicyFrame) (rest : Bytes) :
    dropFrames frames.length (encodeFrames frames ++ rest) = rest := by
  induction frames with
  | nil => rfl
  | cons f frames ih =>
    have hcut : (flat f.siblings ++ (encodeFrames frames ++ rest)).drop
        ((UInt8.ofNat f.siblings.length).toNat * 32) = encodeFrames frames ++ rest := by
      apply List.drop_left'
      rw [flat_length, f.toNat_count]
    rw [encodeFrames_cons, List.append_assoc]
    show dropFrames frames.length ((flat f.siblings ++ (encodeFrames frames ++ rest)).drop
      ((UInt8.ofNat f.siblings.length).toNat * 32)) = rest
    rw [hcut, ih]

/-- One more policed output asks for one more frame, right after those already read. -/
theorem policyAllows_concat {script : Script} {root : Byte32} {region : Bytes}
    {cells : List Cell} {c : Cell} (hother : ¬ c.output.lock.sameCode script = true)
    (h : PolicyAllows P script root region cells) :
    PolicyAllows P script root region (cells ++ [c]) ↔
      ∃ f rest, dropFrames (policedOutputs script cells).length region =
        PolicyFrame.encode f ++ rest ∧ Allows P root c f := by
  have hpoliced : policedOutputs script (cells ++ [c]) = policedOutputs script cells ++ [c] := by
    simp [policedOutputs, hother]
  unfold PolicyAllows
  rw [hpoliced]
  constructor
  · rintro ⟨frames, trailing, rfl, hall⟩
    -- the frames split where the outputs do
    let n := (policedOutputs script cells).length
    have hfirst : List.Forall₂ (flip (Allows P root)) (frames.take n)
        (policedOutputs script cells) := List.forall₂_take_append _ _ _ hall.flip
    have hlast : List.Forall₂ (flip (Allows P root)) (frames.drop n) [c] :=
      List.forall₂_drop_append _ _ _ hall.flip
    obtain ⟨f, frames', hf, hnil, hdrop⟩ := List.forall₂_cons_right_iff.mp hlast
    obtain rfl := List.forall₂_nil_right_iff.mp hnil
    refine ⟨f, trailing, ?_, hf⟩
    have hregion : encodeFrames frames ++ trailing =
        encodeFrames (frames.take n) ++ (f.encode ++ trailing) := by
      conv_lhs => rw [← List.take_append_drop n frames, hdrop]
      simp [encodeFrames]
    rw [hregion, ← hfirst.length_eq]
    exact dropFrames_encodeFrames _ _
  · rintro ⟨f, rest, hdrop, hf⟩
    -- the region is determined by its frames, so what is left is what follows them
    obtain ⟨frames, trailing, rfl, hall⟩ := h
    rw [hall.length_eq, dropFrames_encodeFrames] at hdrop
    refine ⟨frames ++ [f], rest, ?_, List.rel_append hall (List.Forall₂.cons hf .nil)⟩
    rw [hdrop]
    simp [encodeFrames]

/-! ## The three ways to a balanced transaction -/

/-- `tx` is what the relayer returns for the client's transaction `base`, with its change under
`changeLock`. -/
inductive Sponsorship (P : Platform) (occupiedCapacity : CellOutput → U64) (base : Transaction)
    (changeLock : Script) (tx : Transaction) : Prop where
  | balance {feeInput : OutPoint} {feeInputCapacity feeShannons : U64}
      {feeCellDeps : List CellDep}
      (h : Paymaster.balance base feeInput feeInputCapacity feeShannons changeLock feeCellDeps =
        .ok tx)
  | paymaster {pm : Paymaster} {token : Bytes} {now : U64} {requiredScope : String}
      {feeInput : OutPoint} {feeInputCapacity feeShannons : U64} {feeCellDeps : List CellDep}
      (h : pm.sponsor token now requiredScope base feeInput feeInputCapacity feeShannons
        changeLock feeCellDeps = .ok tx)
  | service {svc : SponsorService} {token : Bytes} {now : U64} {out : Sponsored}
      (h : svc.sponsor P occupiedCapacity token base now = .ok out)
      (hlock : svc.feeLock = changeLock) (htx : out.tx = tx)

/-- A sponsored transaction is the request with one fee input and one change output. -/
theorem Sponsorship.eq_appendFee {occupiedCapacity : CellOutput → U64} {base tx : Transaction}
    {changeLock : Script} (h : Sponsorship P occupiedCapacity base changeLock tx) :
    ∃ feeInput change feeCellDeps,
      tx = appendFee base feeInput ⟨change, changeLock, none⟩ feeCellDeps := by
  cases h with
  | balance h =>
    obtain ⟨change, -, htx⟩ := balance_eq_ok.mp h
    exact ⟨_, change, _, htx⟩
  | paymaster h =>
    obtain ⟨-, h⟩ := Paymaster.sponsor_eq_ok.mp h
    obtain ⟨change, -, htx⟩ := balance_eq_ok.mp h
    exact ⟨_, change, _, htx⟩
  | service h hlock htx =>
    subst hlock
    subst htx
    obtain ⟨_, _, _, _, _, _, _, _, h, _⟩ := SponsorService.sponsor_eq_ok.mp h
    obtain ⟨change, -, htx⟩ := balance_eq_ok.mp h
    exact ⟨_, change, _, htx⟩

/-! ## What is asked of the additions -/

/-- The client's transaction is `rtx`, accepted as far as the outputs go. The relayer adds an
input that resolves to `feeCell` and a change output of capacity `change`. -/
structure Fits (P : Platform) (rtx : ResolvedTx) (lock : Script) (params : SessionParams)
    (region : Bytes) (feeCell : Cell) (changeLock : Script) (change : U64) : Prop where
  /-- Under a scoped root, the part of the region that the client's outputs leave unread starts
  with a proof of the change lock. -/
  policy : params.policiesRoot = wildcardRoot ∨ changeLock.sameCode lock = true ∨
    ∃ f rest, dropFrames (policedOutputs lock rtx.outputCells).length region =
      PolicyFrame.encode f ++ rest ∧ f.kind = policyKindLock ∧
      f.siblings.foldl (hashPair P) (P.blake2b (P.scriptHash changeLock).toList) =
        params.policiesRoot
  /-- A change lock that runs the account's code must be the account's own, on an account without
  data: the change cell has none. -/
  continuity : changeLock.sameCode lock = true → changeLock = lock ∧
    ∀ account, (Vm.ofLock P rtx lock).groupInputCells[0]? = some account → account.data = []
  /-- A fee cell under the account lock is one more account input for the spend cap. -/
  spend : P.scriptHash feeCell.output.lock = P.scriptHash lock →
    params.spendCap = spendCapUnlimited ∨
      saturated (totalCapacity (Vm.ofLock P rtx lock).groupInputCells +
          feeCell.output.capacity.toNat) -
        saturated (totalCapacity (ownOutputs lock rtx.outputCells) +
          if changeLock.sameCode lock then change.toNat else 0) ≤ params.spendCap.toNat

/-! ## The balanced transaction, resolved -/

section Balanced

variable {rtx rtx' : ResolvedTx} {feeInput : OutPoint} {changeLock lock : Script} {change : U64}
  {feeCellDeps : List CellDep} {feeCell : Cell}

/-- The outputs of a sponsored transaction are those of the request and the change. -/
theorem outputCells_appendFee
    (hraw : rtx'.tx.raw =
      (appendFee rtx.tx feeInput ⟨change, changeLock, none⟩ feeCellDeps).raw) :
    rtx'.outputCells = rtx.outputCells ++ [⟨⟨change, changeLock, none⟩, []⟩] := by
  unfold ResolvedTx.outputCells
  rw [hraw]
  show List.zipWith Cell.mk (rtx.tx.raw.outputs ++ [_]) (rtx.tx.raw.outputsData ++ [_]) = _
  rw [List.zipWith_append rtx.outputs_paired.symm]
  rfl

/-- The fee cell is last, so the account inputs keep their places. -/
theorem groupInputCells_appendFee (hinputs : rtx'.inputCells = rtx.inputCells ++ [feeCell]) :
    (Vm.ofLock P rtx' lock).groupInputCells = (Vm.ofLock P rtx lock).groupInputCells ++
      if P.scriptHash feeCell.output.lock = P.scriptHash lock then [feeCell] else [] := by
  rw [Vm.groupInputCells_ofLock, Vm.groupInputCells_ofLock, hinputs, List.filter_append]
  simp [List.filter_singleton]

theorem totalCapacity_append (cells cells' : List Cell) :
    totalCapacity (cells ++ cells') = totalCapacity cells + totalCapacity cells' := by
  simp [totalCapacity]

/-- The change counts as the account's own exactly when its lock has the lock's code. -/
theorem ownOutputs_concat_change (cells : List Cell) :
    totalCapacity (ownOutputs lock (cells ++ [⟨⟨change, changeLock, none⟩, []⟩])) =
      totalCapacity (ownOutputs lock cells) +
        if changeLock.sameCode lock then change.toNat else 0 := by
  unfold ownOutputs
  rw [List.filter_append, totalCapacity_append]
  by_cases hown : changeLock.sameCode lock <;> simp [hown, totalCapacity]

/-- The change output has no type script, so only a LOCK frame speaks for it. -/
theorem allows_change {root : Byte32} {f : PolicyFrame} :
    Allows P root ⟨⟨change, changeLock, none⟩, []⟩ f ↔ f.kind = policyKindLock ∧
      f.siblings.foldl (hashPair P) (P.blake2b (P.scriptHash changeLock).toList) = root := by
  simp [Allows]

/-- Over a request that the policy allows, the change needs the lock's code or a proof of its
own. -/
theorem policy_iff {root : Byte32} {region : Bytes} {cells : List Cell}
    (h : PolicyAllows P lock root region cells) :
    PolicyAllows P lock root region (cells ++ [⟨⟨change, changeLock, none⟩, []⟩]) ↔
      changeLock.sameCode lock = true ∨
        ∃ f rest, dropFrames (policedOutputs lock cells).length region =
          PolicyFrame.encode f ++ rest ∧ f.kind = policyKindLock ∧
          f.siblings.foldl (hashPair P) (P.blake2b (P.scriptHash changeLock).toList) = root := by
  by_cases hown : changeLock.sameCode lock = true
  · have hsame : policedOutputs lock (cells ++ [⟨⟨change, changeLock, none⟩, []⟩]) =
        policedOutputs lock cells := by
      simp [policedOutputs, hown]
    refine iff_of_true ?_ (Or.inl hown)
    unfold PolicyAllows
    rw [hsame]
    exact h
  · rw [policyAllows_concat hown h]
    simp only [allows_change, hown, Bool.false_eq_true, false_or]

/-- Over a request that continues the account, a change under the account code must be the account
itself with its data. -/
theorem continuity_iff {data : Bytes} {cells : List Cell}
    (h : AccountContinues lock lock.args data cells) :
    AccountContinues lock lock.args data (cells ++ [⟨⟨change, changeLock, none⟩, []⟩]) ↔
      (changeLock.sameCode lock = true → changeLock = lock ∧ data = []) := by
  unfold AccountContinues at h ⊢
  constructor
  · intro hall hown
    obtain ⟨hargs, hdata⟩ := hall _ List.mem_concat_self hown
    exact ⟨Script.eq_of_sameCode hown hargs, hdata.symm⟩
  · intro hchange c hc hown
    rcases List.mem_append.mp hc with hc | hc
    · exact h c hc hown
    · obtain rfl := List.mem_singleton.mp hc
      obtain ⟨rfl, rfl⟩ := hchange hown
      exact ⟨rfl, rfl⟩

/-- A change output only adds to what stays; a fee cell counts as spent when it is an account
input. -/
theorem spend_iff {cap : U128} (hinputs : rtx'.inputCells = rtx.inputCells ++ [feeCell])
    (h : cap = spendCapUnlimited ∨
      saturated (totalCapacity (Vm.ofLock P rtx lock).groupInputCells) -
        saturated (totalCapacity (ownOutputs lock rtx.outputCells)) ≤ cap.toNat) :
    (cap = spendCapUnlimited ∨
        saturated (totalCapacity (Vm.ofLock P rtx' lock).groupInputCells) -
          saturated (totalCapacity (ownOutputs lock
            (rtx.outputCells ++ [⟨⟨change, changeLock, none⟩, []⟩]))) ≤ cap.toNat) ↔
      (P.scriptHash feeCell.output.lock = P.scriptHash lock → cap = spendCapUnlimited ∨
        saturated (totalCapacity (Vm.ofLock P rtx lock).groupInputCells +
            feeCell.output.capacity.toNat) -
          saturated (totalCapacity (ownOutputs lock rtx.outputCells) +
            if changeLock.sameCode lock then change.toNat else 0) ≤ cap.toNat) := by
  rw [ownOutputs_concat_change, groupInputCells_appendFee hinputs, totalCapacity_append]
  by_cases hfee : P.scriptHash feeCell.output.lock = P.scriptHash lock
  · simp [hfee, totalCapacity]
  · -- the account inputs are the same, and at least as much stays
    have hstays : saturated (totalCapacity (ownOutputs lock rtx.outputCells)) ≤
        saturated (totalCapacity (ownOutputs lock rtx.outputCells) +
          if changeLock.sameCode lock then change.toNat else 0) := by
      unfold saturated
      omega
    refine iff_of_true ?_ fun hunder => absurd hunder hfee
    rw [if_neg hfee]
    show _ ∨ saturated (totalCapacity (Vm.ofLock P rtx lock).groupInputCells + 0) - _ ≤ _
    rcases h with hcap | h
    · exact Or.inl hcap
    · exact Or.inr (le_trans (Nat.sub_le_sub_left hstays _) h)

end Balanced

/-! ## The output checks across sponsoring -/

/-- **Sponsorship and the lock's output checks.** Take a client's transaction whose outputs the
lock accepts with some proof region, and what the relayer makes of it, resolved over any fee cell
and with any witnesses (the session key signs last). The lock accepts the outputs of the balanced
transaction with the same region exactly when the relayer's additions fit. -/
theorem sponsored_ok_iff (P : Platform) (occupiedCapacity : CellOutput → U64)
    {tx : Transaction} {changeLock : Script} {rtx rtx' : ResolvedTx} {feeCell : Cell}
    {lock : Script} {params : SessionParams} {region : Bytes}
    (hsponsored : Sponsorship P occupiedCapacity rtx.tx changeLock tx)
    (hraw : rtx'.tx.raw = tx.raw) (hinputs : rtx'.inputCells = rtx.inputCells ++ [feeCell])
    (hok : checkOutputs P (.ofLock P rtx lock) lock lock.args params region = .ok ()) :
    ∃ change : U64, rtx'.outputCells = rtx.outputCells ++ [⟨⟨change, changeLock, none⟩, []⟩] ∧
      (checkOutputs P (.ofLock P rtx' lock) lock lock.args params region = .ok () ↔
        Fits P rtx lock params region feeCell changeLock change) := by
  obtain ⟨feeInput, change, feeCellDeps, rfl⟩ := hsponsored.eq_appendFee
  have houts := outputCells_appendFee hraw
  have houts' : (Vm.ofLock P rtx' lock).rtx.outputCells =
      rtx.outputCells ++ [⟨⟨change, changeLock, none⟩, []⟩] := houts
  refine ⟨change, houts, ?_⟩
  rw [checkOutputs_eq_ok_iff] at hok
  rw [checkOutputs_eq_ok_iff, houts']
  obtain ⟨hpolicy, account, haccount, hcontinues, hspend⟩ := hok
  have hgroup := @groupInputCells_appendFee P rtx rtx' lock feeCell hinputs
  -- the account input is still the first of its group
  have haccount' : (Vm.ofLock P rtx' lock).groupInputCells[0]? = some account := by
    rw [hgroup]
    exact List.getElem?_append_left (List.getElem?_eq_some_iff.mp haccount).1 ▸ haccount
  have hspendIff := @spend_iff P _ _ changeLock lock change _ _ hinputs hspend
  constructor
  · rintro ⟨hpolicy', account', hgroup', hcontinues', hspend'⟩
    obtain rfl : account = account' := Option.some.inj (haccount'.symm.trans hgroup')
    refine ⟨?_, ?_, hspendIff.mp hspend'⟩
    · rcases hpolicy with hwild | hpolicy
      · exact Or.inl hwild
      · exact hpolicy'.imp_right (policy_iff hpolicy).mp
    · intro hown
      obtain ⟨hlock, hdata⟩ := (continuity_iff hcontinues).mp hcontinues' hown
      refine ⟨hlock, fun account' h => ?_⟩
      obtain rfl : account = account' := Option.some.inj (haccount.symm.trans h)
      exact hdata
  · intro hfits
    refine ⟨?_, account, haccount', ?_, hspendIff.mpr hfits.spend⟩
    · rcases hpolicy with hwild | hpolicy
      · exact Or.inl hwild
      · exact hfits.policy.imp_right (policy_iff hpolicy).mpr
    · refine (continuity_iff hcontinues).mpr fun hown => ?_
      obtain ⟨hlock, hdata⟩ := hfits.continuity hown
      exact ⟨hlock, hdata account haccount⟩

/-! ### The scoped payment, sponsored

The session of `scopedVm` may pay one shop, and its transaction pays it. A relayer outside the
policy has no frame to justify its change output; when the shop itself sponsors, one more frame
is enough. -/

def relayerLock : Script := ⟨sampleHash 7, 1, []⟩

def feeOutPoint : OutPoint := ⟨sampleHash 1, 0⟩

def sponsoredPayment (changeLock : Script) (capacity change : U64) : ResolvedTx :=
  .ofCells
    [(⟨sampleHash 0, 0⟩, ⟨⟨1000, scopedLock, none⟩, []⟩),
      (feeOutPoint, ⟨⟨capacity, changeLock, none⟩, []⟩)]
    [⟨⟨950, scopedLock, none⟩, []⟩, ⟨⟨50, sampleShop, none⟩, []⟩, ⟨⟨change, changeLock, none⟩, []⟩]
    [] []

/-- A relayer outside the policy: the payment alone is accepted, the sponsored payment is not. -/
theorem relayer_change_rejected :
    checkOutputs .sample scopedVm scopedLock scopedLock.args (parseSessionParams scopedParams)
        [1, 0] = .ok () ∧
      balance scopedVm.rtx.tx feeOutPoint 500 100 relayerLock [] =
        .ok (sponsoredPayment relayerLock 500 400).tx ∧
      checkOutputs .sample (.ofLock .sample (sponsoredPayment relayerLock 500 400) scopedLock)
        scopedLock scopedLock.args (parseSessionParams scopedParams) [1, 0] =
          .error .policyProofMissing := by
  refine ⟨eq_ok_of_isOk (by decide +kernel), eq_ok_of_toOption (by decide +kernel), ?_⟩
  decide +kernel

def shopGate : Gate where
  authorize _ now scope :=
    if now.toNat ≤ 2000000000 then .ok ⟨scope, "player-1", 2000000000⟩ else .error .expired

def shopRpc : CkbRpc where
  collectFeeCell _ minCapacity :=
    .ok (if minCapacity.toNat ≤ 10000000000 then some ⟨feeOutPoint, 10000000000⟩ else none)

def shopService : SponsorService := ⟨shopGate, shopRpc, sampleShop, [], 1000, "sponsor"⟩

/-- One shannon-denominated CKByte for each byte of a cell without type script and data. -/
def plainOccupied (o : CellOutput) : U64 := BitVec.ofNat 64 ((41 + o.lock.args.length) * 100000000)

theorem shopService_sponsors :
    shopService.sponsor .sample plainOccupied [] scopedVm.rtx.tx 1700000000 =
      .ok ⟨(sponsoredPayment sampleShop 10000000000 9999999000).tx, 1000, feeOutPoint,
        "player-1"⟩ :=
  eq_ok_of_toOption (by decide +kernel)

theorem sponsored_ok_iff_shop :
    ∃ change : U64, (sponsoredPayment sampleShop 10000000000 9999999000).outputCells =
        scopedVm.rtx.outputCells ++ [⟨⟨change, sampleShop, none⟩, []⟩] ∧
      (checkOutputs .sample
          (.ofLock .sample (sponsoredPayment sampleShop 10000000000 9999999000) scopedLock)
          scopedLock scopedLock.args (parseSessionParams scopedParams) [1, 0, 1, 0] = .ok () ↔
        Fits .sample scopedVm.rtx scopedLock (parseSessionParams scopedParams) [1, 0, 1, 0]
          ⟨⟨10000000000, sampleShop, none⟩, []⟩ sampleShop change) :=
  sponsored_ok_iff .sample plainOccupied
    (.service shopService_sponsors rfl rfl) rfl rfl (eq_ok_of_isOk (by decide +kernel))

end CkbController.PaymasterService
