import CkbController.Cli.Account
import CkbController.Sdk.ChannelFunding
import CkbController.Wasm.RegisteredArgs

/-!
# The account commands under the session lock

Which of the transactions `account grow` and `account drain` send the lock accepts. Both carry one
session signature, no guardian signature, no header dep and a proof region for a single one-leaf
proof, so the lock accepts them only under a session that asks for nothing more (`SessionFits`).
Beyond that a grown account must have no data, and a drained cell must not hold more than the
spend cap: `drain` compares whole CKB, so it lets through a cell that exceeds the cap by less than
one CKB, and the lock does not.
-/

namespace CkbController.Cli

open ByteCodec Checks SessionLock

/-! ## The lock under a plain session witness -/

section Lock

variable {P : Platform} {vm : Vm} {account : Cell} {params : SessionParams} {sig region : Bytes}

/-- After one signature, a region too short for another leaves no room for a guardian. -/
theorem checkSignatures_plain {m : Byte32} {r : Bytes}
    (henabled : params.sessionPubkeyHash ≠ zero20) (hlen : sig.length = signatureLen)
    (hvalid : P.ckbAuth authIdCkbSecp256k1 sig m params.sessionPubkeyHash.toList = true)
    (hshort : region.length < signatureLen) :
    checkSignatures P params (sig ++ region) m = .ok r ↔
      params.guardianPubkeyHash = zero20 ∧ r = region := by
  rw [checkSignatures_eq_ok]
  constructor
  · rintro ⟨sessionSig, guardianSig, hsplit, -, ⟨hslen, -⟩, hguardian⟩
    -- a guardian would take 65 of the bytes behind the session's signature
    have htotal := congrArg List.length hsplit
    simp only [List.length_append, hlen, hslen] at htotal
    by_cases hzero : params.guardianPubkeyHash = zero20
    · rw [if_pos hzero] at hguardian
      rw [hguardian, List.append_nil] at hsplit
      have hparts := List.append_inj hsplit (hlen.trans hslen.symm)
      exact ⟨hzero, hparts.2.symm⟩
    · rw [if_neg hzero] at hguardian
      have hglen := hguardian.1
      simp only [signatureLen] at hglen hshort
      omega
  · rintro ⟨hzero, rfl⟩
    refine ⟨sig, [], ?_, henabled, ⟨hlen, hvalid⟩, ?_⟩
    · rw [List.append_nil]
    · rw [if_pos hzero]

/-- A session witness that has no second signature, its region being too short for one, passes the
session checks only where there is no guardian. -/
theorem verifySession_plain_iff {owner : Byte20} {block : Bytes}
    (hargs : vm.script.args = Sdk.registeredArgs owner block) (hblock : block.length = 96)
    (hparams : parseSessionParams block = params) (hgroup : vm.groupInputCells = [account])
    (henabled : params.sessionPubkeyHash ≠ zero20) (hlen : sig.length = signatureLen)
    (hvalid : P.ckbAuth authIdCkbSecp256k1 sig (txMessage P vm)
      params.sessionPubkeyHash.toList = true)
    (hshort : region.length < signatureLen) :
    verifySession P vm vm.script (P.scriptHash vm.script) vm.script.args (sig ++ region)
        (txMessage P vm) = .ok () ↔
      params.guardianPubkeyHash = zero20 ∧ checkExpiry vm params.expiresAt = .ok () ∧
        OutputsAllowed P vm.script account.data account.output.capacity.toNat params region
          vm.rtx.outputCells := by
  -- the params are read from the args
  have hresolve : resolveSession P vm (P.scriptHash vm.script) vm.script.args (sig ++ region) =
      .ok (params, sig ++ region) := by
    have hlength : vm.script.args.length = argsLen := by
      rw [hargs]
      exact Sdk.length_registeredArgs owner hblock
    have hslice : slice vm.script.args ownerOnlyArgsLen argsLen = block := by
      rw [hargs]
      exact Wasm.slice_registeredArgs hblock
    rw [resolveSession, if_pos hlength, hslice, hparams]
  -- one signature, and a region too short for a second one
  have hsigs := @checkSignatures_plain P params sig region (txMessage P vm)
  unfold verifySession
  rw [hresolve, ok_bind, bind_eq_ok]
  constructor
  · rintro ⟨r, hr, h⟩
    obtain ⟨hzero, rfl⟩ := (hsigs henabled hlen hvalid hshort).mp hr
    obtain ⟨⟨⟩, hexpiry, houtputs⟩ := bind_eq_ok.mp h
    exact ⟨hzero, hexpiry, (checkOutputs_single hgroup).mp houtputs⟩
  · rintro ⟨hzero, hexpiry, houtputs⟩
    refine ⟨region, (hsigs henabled hlen hvalid hshort).mpr ⟨hzero, rfl⟩, ?_⟩
    exact bind_eq_ok.mpr ⟨(), hexpiry, (checkOutputs_single hgroup).mpr houtputs⟩

/-- The lock on a transaction whose first witness the SDK wrote for one session signature. -/
theorem auth_plain_iff {owner : Byte20} {block : Bytes}
    (hargs : vm.script.args = Sdk.registeredArgs owner block) (hblock : block.length = 96)
    (hparams : parseSessionParams block = params) (hgroup : vm.groupInputCells = [account])
    (hfirst : vm.groupInputs[0]? = some 0)
    (hwitness : vm.rtx.tx.witnesses[0]? = some (Sdk.sessionWitnessRegistered P sig none region))
    (hread : P.ReadsWitnesses) (henabled : params.sessionPubkeyHash ≠ zero20)
    (hlen : sig.length = signatureLen)
    (hvalid : P.ckbAuth authIdCkbSecp256k1 sig (txMessage P vm)
      params.sessionPubkeyHash.toList = true)
    (hshort : region.length < signatureLen) :
    auth P vm = .ok () ↔
      params.guardianPubkeyHash = zero20 ∧ checkExpiry vm params.expiresAt = .ok () ∧
        OutputsAllowed P vm.script account.data account.output.capacity.toNat params region
          vm.rtx.outputCells := by
  rw [← verifySession_plain_iff hargs hblock hparams hgroup henabled hlen hvalid hshort,
    auth_eq_ok_iff_attempt]
  have hparsed : P.witnessArgsFromSlice (Sdk.sessionWitnessRegistered P sig none region) =
      some ⟨some (SessionLock.modeSession :: (sig ++ region)), none, none⟩ := by
    -- a witness this short is within what molecule reads back
    unfold Sdk.sessionWitnessRegistered Sdk.wrapLock
    simp only [Option.getD_none, List.append_nil, List.cons_append]
    refine hread.reads _ ?_
    rw [WitnessArgs.length_encode]
    simp only [Molecule.bytesOpt, Molecule.length_bytes, List.length_cons, List.length_append,
      List.length_nil, hlen]
    simp only [signatureLen] at hshort ⊢
    omega
  constructor
  · rintro ⟨-, account', mode, rest, hattempt, hmode⟩
    obtain ⟨k, w, wa, hk, hw, hwa, hlock⟩ := hattempt.witness
    -- the witness the lock reads is the one that was written
    cases hfirst.symm.trans hk
    cases hwitness.symm.trans hw
    cases hparsed.symm.trans hwa
    cases hlock
    rcases hmode with ⟨howner, -⟩ | ⟨-, hverify⟩
    · cases howner
    · exact hverify
  · intro hverify
    refine ⟨Or.inr ?_, account, _, _, ⟨hgroup, 0, _, _, hfirst, hwitness, hparsed, rfl⟩,
      Or.inr ⟨rfl, hverify⟩⟩
    rw [hargs]
    exact Sdk.length_registeredArgs owner hblock

end Lock

/-! ## The lock and the witness the commands write -/

variable {P : Platform} {S : Secp256k1} {net : Network} {find : FindCells} {s : SessionSection}
  {lock : Script}

/-- The signer's signatures are ckb-auth's, and no public key has the zero hash. -/
structure Secp256k1.Signs (S : Secp256k1) (P : Platform) : Prop where
  verifies : ∀ msg priv, P.ckbAuth authIdCkbSecp256k1 (S.sign msg priv).toList msg
    (S.pubHash priv).toList = true
  nonzero : ∀ priv, S.pubHash priv ≠ zero20

/-- What the lock reads out of the args of a configured account. -/
structure ConfiguredParams (S : Secp256k1) (s : SessionSection) (params : SessionParams) :
    Prop where
  session : params.sessionPubkeyHash = S.pubHash s.sessionPrivkey
  expiresAt : params.expiresAt = s.expires
  root : Wasm.arr32 s.root = .ok params.policiesRoot
  cap : s.spendCapCkb * 100000000 = params.spendCap.toNat
  guardian : Wasm.arr20 s.guardianText = .ok params.guardianPubkeyHash

/-- `accountLock` makes the lock of a registered session with the configured params. -/
theorem accountLock_eq_ok (h : accountLock S net s = .ok lock) :
    ∃ block params, block.length = 96 ∧ parseSessionParams block = params ∧
      ConfiguredParams S s params ∧
      lock = ⟨net.codeHash, net.hashType, Sdk.registeredArgs (S.pubHash s.ownerPrivkey) block⟩ := by
  unfold accountLock at h
  obtain ⟨text, htext, h⟩ := bind_eq_ok.mp h
  obtain ⟨argsText, hargsText, h⟩ := bind_eq_ok.mp h
  obtain ⟨args, hargs, h⟩ := bind_eq_ok.mp h
  cases h
  unfold Wasm.sessionParams at htext
  rw [Wasm.arr20_hexout, ok_bind] at htext
  obtain ⟨root, hroot, htext⟩ := bind_eq_ok.mp htext
  obtain ⟨cap, hcap, htext⟩ := bind_eq_ok.mp htext
  obtain ⟨guardian, hguardian, htext⟩ := bind_eq_ok.mp htext
  cases htext
  rw [Wasm.registeredArgs_hexout] at hargsText
  cases hargsText
  rw [Wasm.hx_hexout] at hargs
  cases hargs
  exact ⟨_, _, Sdk.length_sessionParams .., Sdk.parseSessionParams_sessionParams ..,
    ⟨rfl, rfl, hroot, (Wasm.parseU128_toString _ _).mp hcap, hguardian⟩, rfl⟩

/-- A whole number of CKB is never the sentinel for "no limit". -/
theorem ConfiguredParams.limited {params : SessionParams} (h : ConfiguredParams S s params) :
    params.spendCap ≠ spendCapUnlimited := by
  intro hmax
  have hcap := h.cap
  have htop : params.spendCap.toNat = 2 ^ 128 - 1 := by
    rw [hmax]
    exact BitVec.toNat_allOnes
  omega

/-- The witness is the SDK's, for a session without a guardian and one output to prove. -/
theorem sessionWitness_eq (P : Platform) (S : Secp256k1) (priv : Bytes) (tx : Transaction) :
    sessionWitness P S priv tx = .ok (Sdk.sessionWitnessRegistered P
      (S.sign (Sdk.txMessage P tx) priv).toList none Sdk.channelProofRegion) := by
  have hempty : Wasm.hx "" = .ok [] := rfl
  unfold sessionWitness Wasm.sessionWitnessRegistered Wasm.channelProofRegion
  simp only [hempty, Wasm.hx_hexout, ok_bind, pure, Except.pure, if_true]

/-! ## The transaction on its way to the lock -/

/-- What the indexer lists is on the chain and under the lock it was asked for. -/
structure Indexed (chain : OutPoint → Option Cell) (find : FindCells) : Prop where
  live : ∀ lock, ∀ c ∈ find lock, chain c.outPoint = some c.cell
  under : ∀ lock, ∀ c ∈ find lock, c.cell.output.lock = lock

/-- A sent transaction as the node resolves it. The signer of the second input may have added the
cell deps of its own lock, and written the other witnesses. -/
structure Sends (chain : OutPoint → Option Cell) (tx : Transaction) (rtx : ResolvedTx) : Prop where
  raw : ∃ deps, rtx.tx.raw = { tx.raw with cellDeps := deps }
  witness : rtx.tx.witnesses[0]? = tx.witnesses[0]?
  resolved : rtx.inputCells.map some = rtx.tx.raw.inputs.map fun i => chain i.previousOutput

variable {chain : OutPoint → Option Cell} {tx : Transaction} {rtx : ResolvedTx}

/-- A cell dep that is added on the way does not change what was signed. -/
theorem Sends.txMessage_eq (h : Sends chain tx rtx) :
    txMessage P (.ofLock P rtx lock) = Sdk.txMessage P tx := by
  obtain ⟨deps, hraw⟩ := h.raw
  show P.txHash { rtx.tx.raw with cellDeps := [] } = P.txHash { tx.raw with cellDeps := [] }
  rw [hraw]

/-- The outputs are those of the command. -/
theorem Sends.outputCells (h : Sends chain tx rtx) :
    rtx.outputCells = List.zipWith Cell.mk tx.raw.outputs tx.raw.outputsData := by
  obtain ⟨deps, hraw⟩ := h.raw
  unfold ResolvedTx.outputCells
  rw [hraw]

/-- Without header deps a session expires by the sentinel alone. -/
theorem Sends.checkExpiry_iff (h : Sends chain tx rtx) (hheaders : tx.raw.headerDeps = [])
    {expiresAt : U64} :
    checkExpiry (.ofLock P rtx lock) expiresAt = .ok () ↔ expiresAt = SessionLock.noExpiry := by
  obtain ⟨deps, hraw⟩ := h.raw
  -- no header dep is added on the way, so there is no time to compare with
  have hnone : rtx.headers = [] := by
    have hresolved := rtx.headers_resolved
    rw [hraw, hheaders] at hresolved
    exact List.map_eq_nil_iff.mp hresolved
  have hread : (Vm.ofLock P rtx lock).rtx.headers = [] := hnone
  rw [checkExpiry_eq_ok, hread]
  constructor
  · rintro (hmax | ⟨header, hget, -⟩)
    · exact hmax
    · cases hget
  · exact Or.inl

/-- The inputs are the cells the command chose, as they are on the chain. -/
theorem Sends.inputCells (h : Sends chain tx rtx) {cells : List LiveCell}
    (hinputs : tx.raw.inputs = cells.map input)
    (hlive : ∀ c ∈ cells, chain c.outPoint = some c.cell) :
    rtx.inputCells = cells.map LiveCell.cell := by
  obtain ⟨deps, hraw⟩ := h.raw
  have hresolved := h.resolved
  have hsome : cells.map (fun c => chain (input c).previousOutput) =
      (cells.map LiveCell.cell).map some := by
    rw [List.map_map]
    exact List.map_congr_left hlive
  rw [hraw] at hresolved
  rw [show ({ tx.raw with cellDeps := deps } : RawTransaction).inputs = cells.map input from
    hinputs, List.map_map] at hresolved
  exact List.map_injective_iff.mpr (Option.some_injective _) (hresolved.trans hsome)

/-- The account cell comes first, so it is the first of its group. -/
theorem groupInputs_ofLock_head {cells : List Cell} {account : Cell}
    (hcells : rtx.inputCells = account :: cells) (hlock : account.output.lock = lock) :
    (Vm.ofLock P rtx lock).groupInputs[0]? = some 0 := by
  show (Vm.indicesOf _ rtx.inputCells)[0]? = some 0
  unfold Vm.indicesOf
  rw [hcells, List.length_cons, List.range_succ_eq_map, List.filter_cons_of_pos]
  · rfl
  · simp [hlock]

/-! ## The outputs the commands write -/

/-- What fits is written as it is. -/
theorem toCapacity_eq_some {amount : Int} {c : U64} (h : toCapacity amount = some c) :
    (c.toNat : Int) = amount := by
  unfold toCapacity at h
  by_cases hfits : 0 ≤ amount ∧ amount < 2 ^ 64
  · rw [if_pos hfits] at h
    cases h
    rw [BitVec.toNat_ofInt]
    omega
  · rw [if_neg hfits] at h
    cases h

/-- The outputs of `grow`: the account again, with no data, and the change under the command's own
lock. -/
theorem outputsAllowed_grow {account : Cell} {params : SessionParams} {grown change : U64}
    (hcode : net.sighashLock.sameCode lock = false)
    (hlimited : params.spendCap ≠ spendCapUnlimited) :
    OutputsAllowed P lock account.data account.output.capacity.toNat params Sdk.channelProofRegion
        [⟨output lock grown, []⟩, ⟨output net.sighashLock change, []⟩] ↔
      (params.policiesRoot = wildcardRoot ∨
        params.policiesRoot = Sdk.policyLeafForScript P net.sighashLock) ∧
      account.data = [] ∧ account.output.capacity.toNat - grown.toNat ≤ params.spendCap.toNat := by
  have hkept : (⟨output lock grown, []⟩ : Cell).output.lock = lock := rfl
  have hsent : (⟨output net.sighashLock change, []⟩ : Cell).output.lock.sameCode lock = false :=
    hcode
  rw [Sdk.outputsAllowed_keep_and_send hkept hsent]
  simp [hlimited, output, eq_comm]

/-- The output of `drain`: everything goes to the command's own lock. -/
theorem outputsAllowed_drain {account : Cell} {params : SessionParams} {drained : U64}
    (hcode : net.sighashLock.sameCode lock = false)
    (hlimited : params.spendCap ≠ spendCapUnlimited) :
    OutputsAllowed P lock account.data account.output.capacity.toNat params Sdk.channelProofRegion
        [⟨output net.sighashLock drained, []⟩] ↔
      (params.policiesRoot = wildcardRoot ∨
        params.policiesRoot = Sdk.policyLeafForScript P net.sighashLock) ∧
      account.output.capacity.toNat ≤ params.spendCap.toNat := by
  have hsent : (⟨output net.sighashLock drained, []⟩ : Cell).output.lock.sameCode lock = false :=
    hcode
  rw [Sdk.outputsAllowed_send hsent]
  simp [hlimited, output]

/-! ## Acceptance -/

/-- The session asks for nothing the commands leave out: no guardian, no header dep, and at most
the command's own lock in the policy tree. -/
structure SessionFits (P : Platform) (net : Network) (s : SessionSection) : Prop where
  guardian : Wasm.arr20 s.guardianText = .ok zero20
  expiry : s.expires = Wasm.noExpiry
  policy : Wasm.arr32 s.root = .ok wildcardRoot ∨
    Wasm.arr32 s.root = .ok (Sdk.policyLeafForScript P net.sighashLock)

/-- What a top-up needs besides. A negative amount takes CKB out. -/
structure GrowFits (P : Platform) (net : Network) (s : SessionSection) (GROW : Int)
    (account : LiveCell) : Prop extends SessionFits P net s where
  data : account.cell.data = []
  spend : -GROW ≤ s.spendCapCkb * 100000000

/-- What a drain needs besides, in shannons. -/
structure DrainFits (P : Platform) (net : Network) (s : SessionSection) (small : LiveCell) :
    Prop extends SessionFits P net s where
  spend : small.capacity ≤ s.spendCapCkb * 100000000

/-- The condition on the section is one on the params it stands for. -/
theorem ConfiguredParams.fits_iff {params : SessionParams} (h : ConfiguredParams S s params) :
    SessionFits P net s ↔ params.guardianPubkeyHash = zero20 ∧
      params.expiresAt = SessionLock.noExpiry ∧
      (params.policiesRoot = wildcardRoot ∨
        params.policiesRoot = Sdk.policyLeafForScript P net.sighashLock) := by
  have hroot : ∀ root, Wasm.arr32 s.root = .ok root ↔ params.policiesRoot = root := by
    intro root
    rw [h.root, Except.ok.injEq]
  have hguardian : Wasm.arr20 s.guardianText = .ok zero20 ↔
      params.guardianPubkeyHash = zero20 := by
    rw [h.guardian, Except.ok.injEq]
  constructor
  · rintro ⟨hg, he, hp⟩
    refine ⟨hguardian.mp hg, h.expiresAt.trans he, ?_⟩
    exact hp.imp (hroot _).mp (hroot _).mp
  · rintro ⟨hg, he, hp⟩
    refine ⟨hguardian.mpr hg, h.expiresAt.symm.trans he, ?_⟩
    exact hp.imp (hroot _).mpr (hroot _).mpr

/-- The lock on a sent transaction, as far as it does not depend on the outputs. -/
theorem auth_sent_iff {account : Cell} {others : List Cell} {params : SessionParams} {block : Bytes}
    {witnesses : List Bytes} {raw : RawTransaction} (hsigns : S.Signs P) (hread : P.ReadsWitnesses)
    (hparams : ConfiguredParams S s params) (hblock : block.length = 96)
    (hparse : parseSessionParams block = params)
    (hlock : lock = ⟨net.codeHash, net.hashType,
      Sdk.registeredArgs (S.pubHash s.ownerPrivkey) block⟩)
    (hsends : Sends chain ⟨raw, Sdk.sessionWitnessRegistered P
      (S.sign (Sdk.txMessage P ⟨raw, []⟩) s.sessionPrivkey).toList none Sdk.channelProofRegion ::
        witnesses⟩ rtx)
    (hheaders : raw.headerDeps = []) (hcells : rtx.inputCells = account :: others)
    (haccount : account.output.lock = lock)
    (hothers : ∀ c ∈ others, P.scriptHash c.output.lock ≠ P.scriptHash lock) :
    auth P (.ofLock P rtx lock) = .ok () ↔
      params.guardianPubkeyHash = zero20 ∧ params.expiresAt = SessionLock.noExpiry ∧
        OutputsAllowed P lock account.data account.output.capacity.toNat params
          Sdk.channelProofRegion (List.zipWith Cell.mk raw.outputs raw.outputsData) := by
  have hmessage : txMessage P (.ofLock P rtx lock) = Sdk.txMessage P ⟨raw, []⟩ :=
    hsends.txMessage_eq
  have hhead : rtx.tx.witnesses[0]? = some _ := hsends.witness
  have hargs : (Vm.ofLock P rtx lock).script.args =
      Sdk.registeredArgs (S.pubHash s.ownerPrivkey) block := congrArg Script.args hlock
  -- the checks that are left over are about the headers and the outputs
  have hplain := auth_plain_iff (P := P) hargs hblock hparse
    (Vm.groupInputCells_ofLock_single P hcells haccount hothers)
    (groupInputs_ofLock_head hcells haccount) hhead hread
    (by rw [hparams.session]; exact hsigns.nonzero _)
    (S.sign (Sdk.txMessage P ⟨raw, []⟩) s.sessionPrivkey).toList_length
    (by rw [hmessage, hparams.session]; exact hsigns.verifies _ _) (by decide)
  rw [hplain, hsends.checkExpiry_iff hheaders]
  show _ ∧ _ ∧ OutputsAllowed P lock _ _ params _ rtx.outputCells ↔ _
  rw [hsends.outputCells]

/-! ## What the commands send -/

/-- The witness is always built. -/
theorem sessionWitness_toOption (priv : Bytes) (raw : RawTransaction) (witnesses : List Bytes) :
    (sessionWitness P S priv ⟨raw, witnesses⟩).toOption = some (Sdk.sessionWitnessRegistered P
      (S.sign (Sdk.txMessage P ⟨raw, []⟩) priv).toList none Sdk.channelProofRegion) := by
  rw [sessionWitness_eq]
  rfl

/-- What `grow` sends. -/
theorem grow_eq_some {GROW : Int} (hlock : accountLock S net s = .ok lock)
    (h : grow P S net find s GROW = some tx) :
    ∃ deps account feeCell grown change, find lock = [account] ∧
      feeCell ∈ find net.sighashLock ∧ (grown.toNat : Int) = account.capacity + GROW ∧
      tx = ⟨{ version := 0, cellDeps := deps, headerDeps := []
              inputs := [account, feeCell].map input
              outputs := [output lock grown, output net.sighashLock change]
              outputsData := [[], []] },
        [Sdk.sessionWitnessRegistered P (S.sign (Sdk.txMessage P ⟨tx.raw, []⟩)
          s.sessionPrivkey).toList none Sdk.channelProofRegion, []]⟩ := by
  unfold grow at h
  rw [hlock] at h
  obtain ⟨_, hsome, h⟩ := Option.bind_eq_some_iff.mp h
  cases hsome
  obtain ⟨deps, -, h⟩ := Option.bind_eq_some_iff.mp h
  match hfind : find lock with
  | [account] =>
    rw [hfind] at h
    obtain ⟨feeCell, hfee, h⟩ := Option.bind_eq_some_iff.mp h
    obtain ⟨grown, hgrown, h⟩ := Option.bind_eq_some_iff.mp h
    obtain ⟨change, -, h⟩ := Option.bind_eq_some_iff.mp h
    obtain ⟨witness, hwitness, h⟩ := Option.bind_eq_some_iff.mp h
    rw [sessionWitness_toOption] at hwitness
    cases hwitness
    cases h
    exact ⟨deps, account, feeCell, grown, change, rfl, List.mem_of_find?_eq_some hfee,
      toCapacity_eq_some hgrown, rfl⟩
  | [] =>
    rw [hfind] at h
    cases h
  | _ :: _ :: _ =>
    rw [hfind] at h
    cases h

/-- The cell that `drain` takes is one of those listed, and none is smaller. -/
theorem smallest_spec (c : LiveCell) (cells : List LiveCell) :
    smallest c cells ∈ c :: cells ∧ ∀ x ∈ c :: cells, (smallest c cells).capacity ≤ x.capacity := by
  unfold smallest
  induction cells generalizing c with
  | nil => simp
  | cons b cells ih =>
    rw [List.foldl_cons]
    by_cases hle : c.capacity ≤ b.capacity
    · -- `c` stays the candidate
      rw [if_pos hle]
      obtain ⟨hmem, hmin⟩ := ih c
      have hc := hmin c List.mem_cons_self
      refine ⟨?_, fun x hx => ?_⟩
      · rcases List.mem_cons.mp hmem with h | h
        · rw [h]
          exact List.mem_cons_self
        · exact List.mem_cons_of_mem _ (List.mem_cons_of_mem _ h)
      · rcases List.mem_cons.mp hx with rfl | hx
        · exact hc
        · rcases List.mem_cons.mp hx with rfl | hx
          · omega
          · exact hmin x (List.mem_cons_of_mem _ hx)
    · rw [if_neg hle]
      obtain ⟨hmem, hmin⟩ := ih b
      have hb := hmin b List.mem_cons_self
      refine ⟨List.mem_cons_of_mem _ hmem, fun x hx => ?_⟩
      rcases List.mem_cons.mp hx with rfl | hx
      · omega
      · exact hmin x hx

/-- What `drain` sends. -/
theorem drain_eq_some (hlock : accountLock S net s = .ok lock)
    (h : drain P S net find s = some tx) :
    ∃ deps small drained, small ∈ find lock ∧ (∀ c ∈ find lock, small.capacity ≤ c.capacity) ∧
      ¬ exceedsCap s small.capacity ∧
      tx = ⟨{ version := 0, cellDeps := deps, headerDeps := []
              inputs := [small].map input
              outputs := [output net.sighashLock drained]
              outputsData := [[]] },
        [Sdk.sessionWitnessRegistered P (S.sign (Sdk.txMessage P ⟨tx.raw, []⟩)
          s.sessionPrivkey).toList none Sdk.channelProofRegion]⟩ := by
  unfold drain at h
  rw [hlock] at h
  obtain ⟨_, hsome, h⟩ := Option.bind_eq_some_iff.mp h
  cases hsome
  obtain ⟨deps, -, h⟩ := Option.bind_eq_some_iff.mp h
  cases hfind : find lock with
  | nil =>
    rw [hfind] at h
    cases h
  | cons c cells =>
    rw [hfind] at h
    obtain ⟨hmem, hmin⟩ := smallest_spec c cells
    by_cases hcap : exceedsCap s (smallest c cells).capacity
    · simp only [hcap, if_true] at h
      cases h
    · simp only [hcap, if_false] at h
      obtain ⟨drained, -, h⟩ := Option.bind_eq_some_iff.mp h
      obtain ⟨witness, hwitness, h⟩ := Option.bind_eq_some_iff.mp h
      rw [sessionWitness_toOption] at hwitness
      cases hwitness
      cases h
      exact ⟨deps, smallest c cells, drained, hmem, hmin, hcap, rfl⟩

/-! ## The commands and the lock -/

/-- Around the commands: a signer and molecule that work, an indexer that is up to date, and a
command key whose lock runs other code than the account and hashes to another group. -/
structure Surroundings (P : Platform) (S : Secp256k1) (net : Network)
    (chain : OutPoint → Option Cell) (find : FindCells) (lock : Script) : Prop where
  signs : S.Signs P
  reads : P.ReadsWitnesses
  indexed : Indexed chain find
  code : net.sighashLock.sameCode lock = false
  group : P.scriptHash net.sighashLock ≠ P.scriptHash lock

/-- **`account grow`** is accepted exactly when section and account fit. -/
theorem grow_accepted_iff {GROW : Int} (hlock : accountLock S net s = .ok lock)
    (hw : Surroundings P S net chain find lock) (h : grow P S net find s GROW = some tx)
    (hsends : Sends chain tx rtx) :
    ∃ account, find lock = [account] ∧
      (auth P (.ofLock P rtx lock) = .ok () ↔ GrowFits P net s GROW account) := by
  obtain ⟨deps, account, feeCell, grown, change, hfind, hfee, hgrown, htx⟩ := grow_eq_some hlock h
  obtain ⟨block, params, hblock, hparse, hparams, hshape⟩ := accountLock_eq_ok hlock
  have hmem : account ∈ find lock := by
    rw [hfind]
    exact List.mem_cons_self
  have hlive : ∀ c ∈ [account, feeCell], chain c.outPoint = some c.cell := by
    simp [hw.indexed.live lock account hmem, hw.indexed.live _ feeCell hfee]
  have haccount := hw.indexed.under lock account hmem
  have hcells : rtx.inputCells = account.cell :: [feeCell.cell] :=
    hsends.inputCells (congrArg (·.raw.inputs) htx) hlive
  have hothers : ∀ c ∈ [feeCell.cell], P.scriptHash c.output.lock ≠ P.scriptHash lock := by
    intro c hc
    rw [List.mem_singleton.mp hc, hw.indexed.under _ feeCell hfee]
    exact hw.group
  obtain ⟨raw, witnesses⟩ := tx
  obtain ⟨hraw, hwitnesses⟩ := Transaction.mk.inj htx
  rw [hwitnesses] at hsends
  have hauth := auth_sent_iff hw.signs hw.reads hparams hblock hparse hshape hsends
    (by rw [hraw]) hcells haccount hothers
  refine ⟨account, hfind, ?_⟩
  rw [hauth, hraw]
  show _ ∧ _ ∧ OutputsAllowed P lock _ _ params _
    [⟨output lock grown, []⟩, ⟨output net.sighashLock change, []⟩] ↔ _
  rw [outputsAllowed_grow hw.code hparams.limited]
  have hcap := hparams.cap
  have hcapacity : account.capacity = account.cell.output.capacity.toNat := rfl
  constructor
  · rintro ⟨hguardian, hexpiry, hpolicy, hdata, hspend⟩
    exact ⟨hparams.fits_iff.mpr ⟨hguardian, hexpiry, hpolicy⟩, hdata, by omega⟩
  · rintro ⟨hfits, hdata, hspend⟩
    obtain ⟨hguardian, hexpiry, hpolicy⟩ := hparams.fits_iff.mp hfits
    exact ⟨hguardian, hexpiry, hpolicy, hdata, by omega⟩

/-- **`account drain`** is accepted exactly when section and cell fit. -/
theorem drain_accepted_iff (hlock : accountLock S net s = .ok lock)
    (hw : Surroundings P S net chain find lock) (h : drain P S net find s = some tx)
    (hsends : Sends chain tx rtx) :
    ∃ small ∈ find lock, (∀ c ∈ find lock, small.capacity ≤ c.capacity) ∧
      (auth P (.ofLock P rtx lock) = .ok () ↔ DrainFits P net s small) := by
  obtain ⟨deps, small, drained, hmem, hmin, -, htx⟩ := drain_eq_some hlock h
  obtain ⟨block, params, hblock, hparse, hparams, hshape⟩ := accountLock_eq_ok hlock
  have hlive : ∀ c ∈ [small], chain c.outPoint = some c.cell := by
    simp [hw.indexed.live lock small hmem]
  have haccount := hw.indexed.under lock small hmem
  have hcells : rtx.inputCells = small.cell :: [] :=
    hsends.inputCells (congrArg (·.raw.inputs) htx) hlive
  obtain ⟨raw, witnesses⟩ := tx
  obtain ⟨hraw, hwitnesses⟩ := Transaction.mk.inj htx
  rw [hwitnesses] at hsends
  have hauth := auth_sent_iff hw.signs hw.reads hparams hblock hparse hshape hsends
    (by rw [hraw]) hcells haccount (fun c hc => absurd hc List.not_mem_nil)
  refine ⟨small, hmem, hmin, ?_⟩
  rw [hauth, hraw]
  show _ ∧ _ ∧ OutputsAllowed P lock _ _ params _ [⟨output net.sighashLock drained, []⟩] ↔ _
  rw [outputsAllowed_drain hw.code hparams.limited]
  have hcap := hparams.cap
  have hcapacity : small.capacity = small.cell.output.capacity.toNat := rfl
  constructor
  · rintro ⟨hguardian, hexpiry, hpolicy, hspend⟩
    exact ⟨hparams.fits_iff.mpr ⟨hguardian, hexpiry, hpolicy⟩, by omega⟩
  · rintro ⟨hfits, hspend⟩
    obtain ⟨hguardian, hexpiry, hpolicy⟩ := hparams.fits_iff.mp hfits
    exact ⟨hguardian, hexpiry, hpolicy, by omega⟩

/-- What the precheck of `drain` refuses, the lock would reject. -/
theorem checkSpendCap_of_exceedsCap (hlock : accountLock S net s = .ok lock) {c : LiveCell}
    (hcap : exceedsCap s c.capacity) {vm : Vm} (hgroup : vm.groupInputCells = [c.cell]) :
    checkSpendCap vm (parseSessionParams (slice lock.args ownerOnlyArgsLen argsLen)).spendCap 0 =
      .error .spendCapExceeded := by
  obtain ⟨block, params, hblock, hparse, hparams, hshape⟩ := accountLock_eq_ok hlock
  have hslice : slice lock.args ownerOnlyArgsLen argsLen = block := by
    rw [hshape]
    exact Wasm.slice_registeredArgs hblock
  have hinput : (inputCapacity vm).toNat = c.cell.output.capacity.toNat := by
    have hlt := c.cell.output.capacity.isLt
    unfold inputCapacity
    rw [hgroup, toNat_foldl_addCapacity]
    simp [totalCapacity]
    omega
  have hwhole : (s.spendCapCkb : Int) < c.cell.output.capacity.toNat / 100000000 := hcap
  have hpaid := hparams.cap
  rw [hslice, hparse]
  unfold checkSpendCap
  rw [if_neg hparams.limited, rejectIf, if_pos]
  rw [MachineInt.toNat_saturatingSub, hinput]
  show _ < _ - (0 : Nat)
  omega

/-- **The lock accepts what the account commands send exactly when the session fits**, and the
precheck of `drain` never refuses a cell the lock would let go. -/
theorem account_commands_accepted_iff (P : Platform) (S : Secp256k1) (net : Network)
    (chain : OutPoint → Option Cell) (find : FindCells) (s : SessionSection) (lock : Script)
    (hlock : accountLock S net s = .ok lock) (hw : Surroundings P S net chain find lock) :
    (∀ GROW tx rtx, grow P S net find s GROW = some tx → Sends chain tx rtx →
      ∃ account, find lock = [account] ∧
        (auth P (.ofLock P rtx lock) = .ok () ↔ GrowFits P net s GROW account)) ∧
    (∀ tx rtx, drain P S net find s = some tx → Sends chain tx rtx →
      ∃ small ∈ find lock, (∀ c ∈ find lock, small.capacity ≤ c.capacity) ∧
        (auth P (.ofLock P rtx lock) = .ok () ↔ DrainFits P net s small)) ∧
    ∀ c ∈ find lock, exceedsCap s c.capacity → ∀ vm : Vm, vm.groupInputCells = [c.cell] →
      checkSpendCap vm (parseSessionParams (slice lock.args ownerOnlyArgsLen argsLen)).spendCap 0 =
        .error .spendCapExceeded :=
  ⟨fun _ _ _ h hsends => grow_accepted_iff hlock hw h hsends,
    fun _ _ h hsends => drain_accepted_iff hlock hw h hsends,
    fun _ _ hcap _ hgroup => checkSpendCap_of_exceedsCap hlock hcap hgroup⟩

/-! ### One account cell, a cap of 1000 CKB -/

def demoKeys : Secp256k1 where
  pubHash priv := if priv = [1] then sampleKey 1 else sampleKey 2
  sign _ _ := sampleSig

def demoNetwork : Network where
  codeHash := sampleHash 8
  hashType := 4
  lockDep := some ⟨sampleHash 5, 0⟩
  authDep := some ⟨sampleHash 6, 0⟩
  sighashLock := sampleShop

def demoSection : SessionSection where
  ownerPrivkey := [1]
  sessionPrivkey := [2]
  expiresAt := .never
  policiesRoot := "wildcard"
  spendCapCkb := 1000
  guardian := none

def demoLock : Script :=
  ⟨sampleHash 8, 4, Sdk.registeredArgs (sampleKey 1)
    (Sdk.sessionParams (sampleKey 2) Wasm.noExpiry wildcardRoot 100000000000 zero20)⟩

theorem accountLock_demo : accountLock demoKeys demoNetwork demoSection = .ok demoLock := by
  have hroot : Wasm.arr32 demoSection.root = .ok wildcardRoot := by
    rw [show demoSection.root = Wasm.wildcardRoot from if_pos rfl]
    exact Wasm.arr32_hexout wildcardRoot
  have hcap : Wasm.parseU128 demoSection.capShannons = .ok 100000000000 :=
    (Wasm.parseU128_toString _ _).mpr (by decide)
  have hguardian : Wasm.arr20 demoSection.guardianText = .ok zero20 := by
    have hzeros : List.replicate 40 '0' = zero20.toList.flatMap Hex.digits := by decide
    have htext : demoSection.guardianText = Wasm.hexout zero20.toList := by
      unfold SessionSection.guardianText
      rw [hzeros]
      rfl
    rw [htext]
    exact Wasm.arr20_hexout zero20
  unfold accountLock
  rw [Wasm.sessionParams_hexout _ _ hroot hcap hguardian, ok_bind, Wasm.registeredArgs_hexout,
    ok_bind, Wasm.hx_hexout]
  rfl

def demoCell (capacity : U64) : LiveCell := ⟨⟨sampleHash 7, 0⟩, ⟨⟨capacity, demoLock, none⟩, []⟩⟩

def demoFind (capacity : U64) : FindCells := fun lock =>
  if lock = demoLock then [demoCell capacity] else []

def demoChain (capacity : U64) (_ : OutPoint) : Option Cell := some (demoCell capacity).cell

theorem surroundings_demo (capacity : U64) :
    Surroundings .sample demoKeys demoNetwork (demoChain capacity) (demoFind capacity)
      demoLock where
  signs :=
    { verifies := fun _ _ => rfl
      nonzero := fun priv => by
        show (if priv = [1] then sampleKey 1 else sampleKey 2) ≠ zero20
        split <;> decide }
  reads := Platform.readsWitnesses_molecule _ _
  indexed :=
    { live := fun lock c hc => by
        unfold demoFind at hc
        split at hc
        · rw [List.mem_singleton.mp hc]
          rfl
        · cases hc
      under := fun lock c hc => by
        unfold demoFind at hc
        split at hc
        · next h => rw [List.mem_singleton.mp hc, h]; rfl
        · cases hc }
  code := by decide
  group := by decide +kernel

def demoTx (drained : U64) : Transaction :=
  let raw : RawTransaction :=
    { version := 0
      cellDeps := [⟨⟨sampleHash 5, 0⟩, 0⟩, ⟨⟨sampleHash 6, 0⟩, 0⟩]
      headerDeps := []
      inputs := [input (demoCell 0)]
      outputs := [output sampleShop drained]
      outputsData := [[]] }
  ⟨raw, [Sdk.sessionWitnessRegistered .sample sampleSig.toList none Sdk.channelProofRegion]⟩

theorem drain_demo {capacity drained : U64}
    (hcap : ¬ exceedsCap demoSection (demoCell capacity).capacity)
    (hdrained : toCapacity ((demoCell capacity).capacity - FEE) = some drained) :
    drain .sample demoKeys demoNetwork (demoFind capacity) demoSection = some (demoTx drained) := by
  have hfind : demoFind capacity demoLock = [demoCell capacity] := if_pos rfl
  have hsmall : smallest (demoCell capacity) [] = demoCell capacity := rfl
  have hlock : (Except.ok demoLock : Wasm.R Script).toOption = some demoLock := rfl
  have hdeps : codeDeps demoNetwork = some [⟨⟨sampleHash 5, 0⟩, 0⟩, ⟨⟨sampleHash 6, 0⟩, 0⟩] := rfl
  unfold drain
  simp only [accountLock_demo, hlock, hdeps, Option.bind_eq_bind, Option.bind_some, hfind, hsmall,
    hcap, if_false, hdrained, sessionWitness_toOption]
  rfl

def demoRtx (capacity drained : U64) : ResolvedTx where
  tx := demoTx drained
  inputCells := [(demoCell capacity).cell]
  headers := []
  inputs_resolved := rfl
  headers_resolved := List.map_nil
  outputs_paired := rfl

theorem sends_demo (capacity drained : U64) :
    Sends (demoChain capacity) (demoTx drained) (demoRtx capacity drained) :=
  ⟨⟨_, rfl⟩, rfl, rfl⟩

/-- A cell of 900 CKB is drained, and the lock accepts. -/
theorem account_commands_accepted_iff_drained :
    ∃ tx rtx, drain .sample demoKeys demoNetwork (demoFind 90000000000) demoSection = some tx ∧
      Sends (demoChain 90000000000) tx rtx ∧
        auth .sample (.ofLock .sample rtx demoLock) = .ok () := by
  have hdrain := @drain_demo 90000000000 89999900000 (by decide) (by decide)
  obtain ⟨small, hsmall, -, hiff⟩ := (account_commands_accepted_iff .sample demoKeys demoNetwork
    (demoChain 90000000000) (demoFind 90000000000) demoSection demoLock accountLock_demo
    (surroundings_demo _)).2.1 _ _ hdrain (sends_demo _ _)
  refine ⟨_, _, hdrain, sends_demo _ _, hiff.mpr ⟨⟨Wasm.arr20_hexout zero20, rfl,
    Or.inl (Wasm.arr32_hexout wildcardRoot)⟩, ?_⟩⟩
  obtain rfl : small = demoCell 90000000000 := List.mem_singleton.mp hsmall
  decide

/-- A cell of 1000.5 CKB holds 1000 whole CKB, so the precheck lets it through; the outflow exceeds
the cap by half a CKB. -/
theorem drain_of_fraction_rejected :
    ¬ ∀ tx rtx, drain .sample demoKeys demoNetwork (demoFind 100050000000) demoSection = some tx →
      Sends (demoChain 100050000000) tx rtx →
      auth .sample (.ofLock .sample rtx demoLock) = .ok () := by
  intro hall
  have hdrain := @drain_demo 100050000000 100049900000 (by decide) (by decide)
  have hok := hall _ _ hdrain (sends_demo _ _)
  obtain ⟨small, hsmall, -, hiff⟩ := drain_accepted_iff accountLock_demo (surroundings_demo _)
    hdrain (sends_demo _ _)
  obtain rfl : small = demoCell 100050000000 := List.mem_singleton.mp hsmall
  exact absurd (hiff.mp hok).spend (by decide)

end CkbController.Cli
