import CkbController.SessionLock.CheckLemmas

/-!
# The session lock refines its specification

`auth` accepts exactly the transactions `LockSpec` describes. The work is in the witness: the
carried and the registered model, the optional guardian and the proof region share one byte
string with running offsets, and the equivalence has to rule out every misalignment. Each check
has already been read off as a statement about pieces of the witness; what is left is to glue
the pieces back together in wire order.
-/

namespace CkbController.SessionLock

open ByteCodec Checks

variable {P : Platform} {vm : Vm}

/-! ## The params and the signature region -/

/-- The epoch is read from the account that is spent, and from no other cell. -/
theorem currentRevocationEpoch_eq_ok {account : Cell} (hgroup : vm.groupInputCells = [account]) :
    currentRevocationEpoch vm = .ok (epochOfData account.data) := by
  have hdata : vm.loadGroupInputData 0 = .ok account.data :=
    vm.loadGroupInputData_eq_ok.mpr ⟨account, by rw [hgroup]; rfl, rfl⟩
  rw [currentRevocationEpoch, hdata]
  rfl

/-- An epoch is eight bytes of data, or zero. -/
theorem toLe_epochOfData (data : Bytes) : toLe (epochOfData data) = epochBytes data := by
  by_cases h : 8 ≤ data.length
  · have hread : epochOfData data = ofLe 64 (slice data 0 8) := if_pos h
    have hlen : (slice data 0 8).length = 8 := by
      rw [slice_length]
      omega
    rw [hread, epochBytes, if_pos h, toLe_ofLe (by decide) hlen, slice_zero_eq_take]
  · have hread : epochOfData data = 0 := if_neg h
    rw [hread, epochBytes, if_neg h]
    decide

/-- What the lock hashes is what the owner signs. -/
theorem sessionAuthMessage_eq_blessing (lock : Script) (data paramsBlock : Bytes) :
    sessionAuthMessage P (P.scriptHash lock) (epochOfData data) paramsBlock =
      blessing P lock data paramsBlock := by
  unfold sessionAuthMessage sessionAuthPreimage blessing
  rw [toLe_epochOfData]

/-- The registered model: the params are in the args, and the signatures are all there is. -/
theorem resolveSession_registered {account : Cell} (hreg : vm.script.args.length = argsLen)
    {rest sigRegion : Bytes} {params : SessionParams} :
    resolveSession P vm (P.scriptHash vm.script) vm.script.args rest = .ok (params, sigRegion) ↔
      ∃ paramsBlock ownerAuth, params = parseSessionParams paramsBlock ∧ rest = sigRegion ∧
        ParamsBlessed P vm account paramsBlock ownerAuth := by
  have hblock : slice vm.script.args ownerOnlyArgsLen argsLen =
      vm.script.args.drop ownerOnlyArgsLen :=
    slice_eq_drop (Nat.le_of_eq hreg)
  rw [resolveSession, if_pos hreg]
  simp only [Except.ok.injEq, Prod.mk.injEq, hblock]
  constructor
  · rintro ⟨rfl, rfl⟩
    exact ⟨_, [], rfl, rfl, .registered hreg rfl rfl⟩
  · rintro ⟨paramsBlock, ownerAuth, rfl, rfl, hblessed⟩
    cases hblessed with
    | registered _ hb _ => exact ⟨by rw [hb], rfl⟩
    | carried hargs _ _ _ => exact absurd (hreg.symm.trans hargs) (by decide)

/-- The carried model: the params and the owner's blessing come first. -/
theorem resolveSession_carried {account : Cell} (hgroup : vm.groupInputCells = [account])
    (hcar : vm.script.args.length = ownerOnlyArgsLen) {rest sigRegion : Bytes}
    {params : SessionParams} :
    resolveSession P vm (P.scriptHash vm.script) vm.script.args rest = .ok (params, sigRegion) ↔
      ∃ paramsBlock ownerAuth, params = parseSessionParams paramsBlock ∧
        rest = paramsBlock ++ ownerAuth ++ sigRegion ∧
        ParamsBlessed P vm account paramsBlock ownerAuth := by
  have hreg : ¬ vm.script.args.length = argsLen := by
    rw [hcar]
    decide
  rw [resolveSession, if_neg hreg, if_pos hcar, rejectIf_bind_eq_ok,
    currentRevocationEpoch_eq_ok hgroup, ok_bind, Nat.not_lt, sessionAuthMessage_eq_blessing]
  constructor
  · rintro ⟨hlen, h⟩
    obtain ⟨⟨⟩, hvalid, h⟩ := bind_eq_ok.mp h
    cases h
    -- cut at 96 and 161, as the lock does
    refine ⟨slice rest 0 96, slice rest 96 (96 + 65), rfl, ?_, ?_⟩
    · rw [slice_append_slice (by decide) (by decide)]
      exact (List.take_append_drop (96 + 65) rest).symm
    · simp only [sessionParamsLen, signatureLen] at hlen
      refine .carried hcar ?_ ?_ (verifySignature_eq_ok.mp hvalid)
      · rw [slice_length]
        simp only [sessionParamsLen]
        omega
      · rw [slice_length]
        simp only [signatureLen]
        omega
  · rintro ⟨paramsBlock, ownerAuth, rfl, rfl, hblessed⟩
    cases hblessed with
    | registered hargs _ _ => exact absurd hargs hreg
    | carried _ hb ha hvalid =>
      simp only [sessionParamsLen, signatureLen] at hb ha ⊢
      -- pieces of the right lengths are found again at these cuts
      have htwo : (paramsBlock ++ ownerAuth).length = 96 + 65 := by
        rw [List.length_append, hb, ha]
      have hparams : slice (paramsBlock ++ ownerAuth ++ sigRegion) 0 96 = paramsBlock := by
        rw [List.append_assoc, slice_zero_eq_take, List.take_left' hb]
      have hauth : slice (paramsBlock ++ ownerAuth ++ sigRegion) 96 (96 + 65) = ownerAuth := by
        rw [List.append_assoc, slice_append_right (by omega), hb, Nat.sub_self,
          Nat.add_sub_cancel_left, slice_zero_eq_take, List.take_left' ha]
      refine ⟨by simp only [List.length_append]; omega, ?_⟩
      rw [hparams, hauth, List.drop_left' htwo]
      exact bind_eq_ok.mpr ⟨(), verifySignature_eq_ok.mpr hvalid, rfl⟩

/-- In either model the witness is the blessed params (nothing in the registered model) followed
by the signature region. -/
theorem resolveSession_eq_ok {account : Cell} (hgroup : vm.groupInputCells = [account])
    {rest sigRegion : Bytes} {params : SessionParams} :
    resolveSession P vm (P.scriptHash vm.script) vm.script.args rest = .ok (params, sigRegion) ↔
      ∃ paramsBlock ownerAuth, params = parseSessionParams paramsBlock ∧
        rest = (if vm.script.args.length = ownerOnlyArgsLen then paramsBlock ++ ownerAuth else [])
          ++ sigRegion ∧
        ParamsBlessed P vm account paramsBlock ownerAuth := by
  by_cases hcar : vm.script.args.length = ownerOnlyArgsLen
  · simp only [if_pos hcar]
    exact resolveSession_carried hgroup hcar
  · simp only [if_neg hcar, List.nil_append]
    by_cases hreg : vm.script.args.length = argsLen
    · exact resolveSession_registered hreg
    · -- args of any other length are no session
      rw [resolveSession, if_neg hreg, if_neg hcar]
      constructor
      · intro h
        cases h
      · rintro ⟨paramsBlock, ownerAuth, -, -, hblessed⟩
        cases hblessed with
        | registered hargs _ _ => exact absurd hargs hreg
        | carried hargs _ _ _ => exact absurd hargs hcar

/-! ## SESSION mode -/

theorem totalCapacity_single_lt (account : Cell) : totalCapacity [account] < 2 ^ 128 := by
  have := account.output.capacity.isLt
  simp only [totalCapacity, List.map_cons, List.map_nil, List.sum_cons, List.sum_nil]
  omega

/-- With one account the three output checks are those of the specification. -/
theorem checkOutputs_single {account : Cell} (hgroup : vm.groupInputCells = [account])
    {params : SessionParams} {region : Bytes} {u : Unit} :
    checkOutputs P vm vm.script vm.script.args params region = .ok u ↔
      OutputsAllowed P vm.script account.data account.output.capacity.toNat params region
        vm.rtx.outputCells := by
  have hfits : totalCapacity vm.groupInputCells < 2 ^ 128 := by
    rw [hgroup]
    exact totalCapacity_single_lt account
  have hinput : totalCapacity vm.groupInputCells = account.output.capacity.toNat := by
    rw [hgroup]
    simp [totalCapacity]
  rw [checkOutputs_eq_ok hgroup hfits, hinput]

/-- The lock resolves the params and the signature region of a witness it can unlock with. -/
theorem SessionUnlocks.resolveSession_eq {account : Cell} {rest : Bytes} {w : SessionWitness}
    (h : SessionUnlocks P vm account rest w) (hgroup : vm.groupInputCells = [account]) :
    resolveSession P vm (P.scriptHash vm.script) vm.script.args rest =
      .ok (w.params, w.sessionSig ++ w.guardianSig ++ w.proofRegion) := by
  refine (resolveSession_eq_ok hgroup).mpr ⟨w.paramsBlock, w.ownerAuth, rfl, ?_, h.blessed⟩
  rw [h.layout]
  simp [SessionWitness.encode]

/-- **SESSION mode** is what the specification says. -/
theorem verifySession_eq_ok {account : Cell} (hgroup : vm.groupInputCells = [account])
    {rest : Bytes} {u : Unit} :
    verifySession P vm vm.script (P.scriptHash vm.script) vm.script.args rest (txMessage P vm)
        = .ok u ↔
      ∃ w, SessionUnlocks P vm account rest w := by
  unfold verifySession
  constructor
  · intro h
    obtain ⟨⟨params, sigRegion⟩, hresolve, h⟩ := bind_eq_ok.mp h
    obtain ⟨region, hsigs, h⟩ := bind_eq_ok.mp h
    obtain ⟨⟨⟩, hexpiry, houtputs⟩ := bind_eq_ok.mp h
    obtain ⟨paramsBlock, ownerAuth, rfl, hrest, hblessed⟩ :=
      (resolveSession_eq_ok hgroup).mp hresolve
    obtain ⟨sessionSig, guardianSig, hregion, henabled, hsession, hguardian⟩ :=
      checkSignatures_eq_ok.mp hsigs
    -- the pieces, glued in wire order, are the witness
    refine ⟨⟨paramsBlock, ownerAuth, sessionSig, guardianSig, region⟩, ?_, hblessed, henabled,
      hsession, hguardian, checkExpiry_eq_ok.mp hexpiry, (checkOutputs_single hgroup).mp houtputs⟩
    rw [hrest, hregion]
    simp [SessionWitness.encode]
  · rintro ⟨w, h⟩
    have hsigs : checkSignatures P w.params (w.sessionSig ++ w.guardianSig ++ w.proofRegion)
        (txMessage P vm) = .ok w.proofRegion :=
      checkSignatures_eq_ok.mpr
        ⟨w.sessionSig, w.guardianSig, rfl, h.enabled, h.session, h.guardian⟩
    refine bind_eq_ok.mpr ⟨_, h.resolveSession_eq hgroup, bind_eq_ok.mpr ⟨w.proofRegion, hsigs, ?_⟩⟩
    exact bind_eq_ok.mpr ⟨(), checkExpiry_eq_ok.mpr h.expiry,
      (checkOutputs_single hgroup).mpr h.outputs⟩

/-! ## The entry point -/

/-- The lock gets as far as choosing a mode exactly when there is one account input and the
witness' lock field is present and not empty. -/
theorem auth_eq_ok_iff_attempt :
    auth P vm = .ok () ↔
      (vm.script.args.length = ownerOnlyArgsLen ∨ vm.script.args.length = argsLen) ∧
        ∃ account mode rest, UnlockAttempt P vm account mode rest ∧
          ((mode = modeOwner ∧
              verifyOwner P vm.script.args rest (txMessage P vm) = .ok ()) ∨
            (mode = modeSession ∧
              verifySession P vm vm.script (P.scriptHash vm.script) vm.script.args rest
                (txMessage P vm) = .ok ())) := by
  unfold auth
  rw [rejectIf_bind_eq_ok, rejectIf_bind_eq_ok, Vm.loadGroupInputSince_isOk]
  constructor
  · rintro ⟨hone, hargs, h⟩
    obtain ⟨wa, hwa, h⟩ := bind_eq_ok.mp h
    obtain ⟨lockBytes, hlock, h⟩ := bind_eq_ok.mp h
    obtain ⟨k, w, hk, hw, hparse⟩ := (vm.loadGroupWitnessArgs_eq_ok P).mp (sys_eq_ok.mp hwa)
    refine ⟨by tauto, ?_⟩
    -- a first group input exists, a second one does not
    have hlen : vm.groupInputCells.length = 1 := by
      rw [Vm.length_groupInputCells]
      have hpos : 0 < vm.groupInputs.length := by
        by_contra hle
        rw [List.getElem?_eq_none (by omega)] at hk
        cases hk
      omega
    obtain ⟨account, hgroup⟩ := List.length_eq_one_iff.mp hlen
    match lockBytes, h with
    | [], h => cases h
    | mode :: rest, h =>
      refine ⟨account, mode, rest, ⟨hgroup, k, w, wa, hk, hw, hparse, okOr_eq_ok.mp hlock⟩, ?_⟩
      by_cases ho : mode = modeOwner
      · exact Or.inl ⟨ho, by simpa only [if_pos ho] using h⟩
      · by_cases hs : mode = modeSession
        · exact Or.inr ⟨hs, by simpa only [if_neg ho, if_pos hs] using h⟩
        · simp only [if_neg ho, if_neg hs] at h
          cases h
  · rintro ⟨hargs, account, mode, rest, ⟨hgroup, k, w, wa, hk, hw, hparse, hlock⟩, hmode⟩
    have hlen : vm.groupInputs.length = 1 := by
      rw [← Vm.length_groupInputCells, hgroup]
      rfl
    refine ⟨by omega, by tauto, ?_⟩
    have hload := sys_eq_ok.mpr
      ((vm.loadGroupWitnessArgs_eq_ok P).mpr ⟨k, w, hk, hw, hparse⟩)
    refine bind_eq_ok.mpr ⟨wa, hload, bind_eq_ok.mpr ⟨_, okOr_eq_ok.mpr hlock, ?_⟩⟩
    rcases hmode with ⟨rfl, h⟩ | ⟨rfl, h⟩
    · exact (if_pos rfl).trans h
    · have hne : ¬ modeSession = modeOwner := by decide
      exact (if_neg hne).trans ((if_pos rfl).trans h)

/-- **The session lock refines its specification.** For every transaction, script and witness,
`auth` returns `Ok` exactly when `LockSpec` holds. -/
theorem auth_ok_iff_lockSpec (P : Platform) (vm : Vm) : auth P vm = .ok () ↔ LockSpec P vm := by
  rw [auth_eq_ok_iff_attempt]
  constructor
  · rintro ⟨hargs, account, mode, rest, hattempt, hmode⟩
    refine ⟨hargs, account, mode, rest, hattempt, ?_⟩
    rcases hmode with ⟨hm, h⟩ | ⟨hm, h⟩
    · exact Or.inl ⟨hm, verifyOwner_eq_ok.mp h⟩
    · exact Or.inr ⟨hm, (verifySession_eq_ok hattempt.single).mp h⟩
  · rintro ⟨hargs, account, mode, rest, hattempt, hmode⟩
    refine ⟨hargs, account, mode, rest, hattempt, ?_⟩
    rcases hmode with ⟨hm, h⟩ | ⟨hm, h⟩
    · exact Or.inl ⟨hm, verifyOwner_eq_ok.mpr h⟩
    · exact Or.inr ⟨hm, (verifySession_eq_ok hattempt.single).mpr h⟩

end CkbController.SessionLock
