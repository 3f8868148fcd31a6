import CkbController.Ckb.Encoding
import CkbController.Sdk.Agreement
import CkbController.SessionLock.Refinement

/-!
# What the SDK builds, the lock accepts

A `SessionConfig` is what a client chooses when it opens a session: the trust model, the owner,
the caveats and the policy leaves. `Builds` describes a transaction assembled from it with the
SDK's builders, and `auth_ok_of_builds` says that the lock accepts it. The encoder and the
verifier are written independently, so the proof goes through `Sdk/Agreement.lean` piece by
piece, and then through the declarative reading of SESSION mode.

The policy tree brings in the size bound on the leaf list: a proof has `⌈log₂ n⌉` siblings, and
its count travels in one byte.
-/

namespace CkbController.Sdk

open ByteCodec Checks SessionLock

variable (P : Platform)

/-! ## A session as the client sets it up -/

inductive TrustModel where
  | registered
  | carried
deriving DecidableEq

structure SessionConfig where
  model : TrustModel
  codeHash : Byte32
  hashType : UInt8
  owner : Byte20
  session : Byte20
  expiresAt : U64
  leaves : List Byte32
  spendCap : U128
  guardian : Byte20
  epoch : U64

/-- The signatures the client collects. `ownerAuth` is used in the carried model only. -/
structure Signatures where
  ownerAuth : Bytes
  session : Bytes
  guardian : Option Bytes

/-- How one output is justified: the policy dimension, and the index of its leaf. -/
abbrev Entry := UInt8 × Nat

namespace SessionConfig

variable (cfg : SessionConfig)

def params : Bytes :=
  sessionParams cfg.session cfg.expiresAt (merkleRoot P cfg.leaves) cfg.spendCap cfg.guardian

def args : Bytes :=
  match cfg.model with
  | .registered => registeredArgs cfg.owner (cfg.params P)
  | .carried => ownerOnlyArgs cfg.owner

def lock : Script := ⟨cfg.codeHash, cfg.hashType, cfg.args P⟩

def region (entries : List Entry) : Bytes :=
  proofRegion (entries.map fun e => (e.1, merkleProof P cfg.leaves e.2))

def witness (sigs : Signatures) (entries : List Entry) : Bytes :=
  match cfg.model with
  | .registered => sessionWitnessRegistered P sigs.session sigs.guardian (cfg.region P entries)
  | .carried => sessionWitnessCarried P (cfg.params P) sigs.ownerAuth sigs.session sigs.guardian
      (cfg.region P entries)

def Justifies (c : Cell) (e : Entry) : Prop :=
  ∃ s : Script,
    ((e.1 = Sdk.policyKindType ∧ c.output.type = some s) ∨
      (e.1 = Sdk.policyKindLock ∧ c.output.lock = s)) ∧
    cfg.leaves[e.2]? = some (policyLeafForScript P s)

end SessionConfig

/-- A transaction that spends the account of `cfg` as input `k`, built with the SDK. -/
structure Builds (cfg : SessionConfig) (vm : Vm) (account : Cell) (k : Nat) (sigs : Signatures)
    (entries : List Entry) : Prop where
  enabled : cfg.session ≠ zero20
  leaves : 1 ≤ cfg.leaves.length ∧ cfg.leaves.length ≤ 2 ^ 64 - 1
  -- the account cell, and the only input of its lock group
  script : vm.script = cfg.lock P
  group : vm.groupInputs = [k]
  input : vm.rtx.inputCells[k]? = some account
  data : account.data = epochData cfg.epoch
  -- the outputs
  continuity : ∀ c ∈ vm.rtx.outputCells, c.output.lock.sameCode vm.script = true →
    c.output.lock.args = vm.script.args ∧ c.data = account.data
  outflow : account.output.capacity.toNat - totalCapacity (ownOutputs vm.script vm.rtx.outputCells)
    ≤ cfg.spendCap.toNat
  policy : List.Forall₂ (cfg.Justifies P) (policedOutputs vm.script vm.rtx.outputCells) entries
  expiry : cfg.expiresAt = noExpiry ∨
    ∃ h, vm.rtx.headers[0]? = some h ∧ h.timestamp.toNat / 1000 < cfg.expiresAt.toNat
  -- the signatures and the witness that carries them
  ownerAuth : cfg.model = .carried → sigs.ownerAuth.length = 65 ∧
    P.ckbAuth 0 sigs.ownerAuth
      (sessionAuthMessage P (P.scriptHash (cfg.lock P)) cfg.epoch (cfg.params P))
      cfg.owner.toList = true
  sessionSig : sigs.session.length = 65 ∧
    P.ckbAuth 0 sigs.session (txMessage P vm.rtx.tx) cfg.session.toList = true
  guardianSig : if cfg.guardian = zero20 then sigs.guardian = none
    else ∃ g, sigs.guardian = some g ∧ g.length = 65 ∧
      P.ckbAuth 0 g (txMessage P vm.rtx.tx) cfg.guardian.toList = true
  witness : vm.rtx.tx.witnesses[k]? = some (cfg.witness P sigs entries)

/-- The molecule reader of `ckb-types` returns the `WitnessArgs` the builder wrote. -/
def ReadsBack (witness : Bytes) : Prop :=
  ∀ wa, witness = P.witnessArgsSlice wa → P.witnessArgsFromSlice witness = some wa

/-! ## Proofs from the tree -/

variable {P} {cfg : SessionConfig}

/-- A tree of fewer than `2 ^ 64` leaves has proofs of at most 64 siblings. -/
theorem length_merkleProof_lt {leaves : List Byte32} (h : leaves.length ≤ 2 ^ 64 - 1) (i : Nat) :
    (merkleProof P leaves i).length < 256 := by
  have hle : (merkleProof P leaves i).length ≤ 64 :=
    MerkleTree.length_siblings_le zero32 (pair P) (by omega) i
  omega

/-- The proof of a leaf climbs to the root. -/
theorem foldl_merkleProof {leaves : List Byte32} {i : Nat} {leaf : Byte32}
    (h : leaves[i]? = some leaf) :
    (merkleProof P leaves i).foldl (hashPair P) leaf = merkleRoot P leaves := by
  have hne : leaves ≠ [] := by
    rintro rfl
    cases h
  have hclimb := MerkleTree.climb_siblings zero32 (pair P) (pair_comm P) h
  rw [collapse_eq_merkleRoot P hne] at hclimb
  exact (List.singleton_inj.mp hclimb).symm

def frameOf (P : Platform) {leaves : List Byte32} (h : leaves.length ≤ 2 ^ 64 - 1) (e : Entry) :
    PolicyFrame :=
  ⟨e.1, merkleProof P leaves e.2, length_merkleProof_lt h e.2⟩

theorem region_eq_encodeFrames (h : cfg.leaves.length ≤ 2 ^ 64 - 1) (entries : List Entry) :
    cfg.region P entries = encodeFrames (entries.map (frameOf P h)) := by
  rw [← proofRegion_frames, List.map_map]
  rfl

/-- Outputs that the entries justify pass the policy walk. -/
theorem policyAllows_region (h : cfg.leaves.length ≤ 2 ^ 64 - 1) {script : Script}
    {cells : List Cell} {entries : List Entry}
    (hpolicy : List.Forall₂ (cfg.Justifies P) (policedOutputs script cells) entries) :
    PolicyAllows P script (merkleRoot P cfg.leaves) (cfg.region P entries) cells := by
  refine ⟨entries.map (frameOf P h), [], ?_, ?_⟩
  · rw [region_eq_encodeFrames h, List.append_nil]
  · rw [List.forall₂_map_right_iff]
    refine hpolicy.imp fun c e hjust => ?_
    obtain ⟨s, hkind, hleaf⟩ := hjust
    exact ⟨s, hkind, foldl_merkleProof hleaf⟩

/-! ## The witness the lock sees -/

def pieces (P : Platform) (cfg : SessionConfig) (sigs : Signatures) (entries : List Entry) :
    SessionWitness where
  paramsBlock := cfg.params P
  ownerAuth := match cfg.model with
    | .registered => []
    | .carried => sigs.ownerAuth
  sessionSig := sigs.session
  guardianSig := sigs.guardian.getD []
  proofRegion := cfg.region P entries

theorem length_params : (cfg.params P).length = 96 := length_sessionParams ..

/-- The length of the args tells the trust model. -/
theorem length_args : (cfg.args P).length =
    match cfg.model with
    | .registered => 116
    | .carried => 20 := by
  unfold SessionConfig.args
  cases cfg.model
  · exact length_registeredArgs cfg.owner length_params
  · exact length_ownerOnlyArgs cfg.owner

/-- Either way the args start with the owner. -/
theorem take_args : (cfg.args P).take 20 = cfg.owner.toList := by
  unfold SessionConfig.args
  cases cfg.model
  · exact take_registeredArgs cfg.owner _
  · exact List.take_of_length_le (Nat.le_of_eq cfg.owner.toList_length)

/-- In either model the lock field is the mode byte and the pieces in wire order. -/
theorem witness_eq (sigs : Signatures) (entries : List Entry) :
    cfg.witness P sigs entries = P.witnessArgsSlice
      { lock := some (SessionLock.modeSession ::
          (pieces P cfg sigs entries).encode (cfg.args P))
        inputType := none
        outputType := none } := by
  have hlen := @length_args P cfg
  unfold SessionConfig.witness pieces SessionWitness.encode
  cases hmodel : cfg.model with
  -- the registered model carries no params
  | registered =>
    have hne : ¬ (cfg.args P).length = ownerOnlyArgsLen := by
      rw [hlen, hmodel]
      decide
    rw [if_neg hne]
    rfl
  -- the carried model's params and authorization go before the signatures
  | carried =>
    have heq : (cfg.args P).length = ownerOnlyArgsLen := by
      rw [hlen, hmodel]
      rfl
    rw [if_pos heq]
    rfl

theorem params_pieces (sigs : Signatures) (entries : List Entry) :
    (pieces P cfg sigs entries).params =
      ⟨cfg.session, cfg.expiresAt, merkleRoot P cfg.leaves, cfg.spendCap, cfg.guardian⟩ :=
  parseSessionParams_sessionParams ..

/-! ## Acceptance -/

variable {vm : Vm} {account : Cell} {k : Nat} {sigs : Signatures} {entries : List Entry}

theorem Builds.groupInputCells (h : Builds P cfg vm account k sigs entries) :
    vm.groupInputCells = [account] := by
  unfold Vm.groupInputCells
  rw [h.group, List.filterMap_cons_some h.input, List.filterMap_nil]

/-- The owner's authorization over the SDK's message is the blessing the lock asks for. -/
theorem Builds.paramsBlessed (h : Builds P cfg vm account k sigs entries) :
    ParamsBlessed P vm account (cfg.params P) (pieces P cfg sigs entries).ownerAuth := by
  have hargs : vm.script.args = cfg.args P := by
    rw [h.script]
    rfl
  have hlen := @length_args P cfg
  cases hmodel : cfg.model with
  | registered =>
    rw [hmodel] at hlen
    refine .registered (by rw [hargs, hlen]; rfl) ?_ ?_
    · rw [hargs, SessionConfig.args, hmodel]
      exact (drop_registeredArgs cfg.owner _).symm
    · simp only [pieces, hmodel]
  | carried =>
    rw [hmodel] at hlen
    obtain ⟨hauthlen, hvalid⟩ := h.ownerAuth hmodel
    have hpiece : (pieces P cfg sigs entries).ownerAuth = sigs.ownerAuth := by
      simp only [pieces, hmodel]
    -- what the owner signed for the chosen epoch is what the lock hashes for the account data
    have hblessing : blessing P vm.script account.data (cfg.params P) =
        sessionAuthMessage P (P.scriptHash (cfg.lock P)) cfg.epoch (cfg.params P) := by
      rw [← sessionAuthMessage_eq_blessing, h.data, epochOfData_epochData, h.script,
        sessionAuthMessage_eq]
    refine .carried (by rw [hargs, hlen]; rfl) length_params (by rw [hpiece]; exact hauthlen) ?_
    rw [hpiece, hblessing, hargs, take_args]
    exact hvalid

/-- **What is built unlocks** the account. -/
theorem Builds.sessionUnlocks (h : Builds P cfg vm account k sigs entries) :
    SessionUnlocks P vm account ((pieces P cfg sigs entries).encode (cfg.args P))
      (pieces P cfg sigs entries) where
  layout := by
    rw [h.script]
    rfl
  blessed := h.paramsBlessed
  enabled := by
    rw [params_pieces]
    exact h.enabled
  session := by
    rw [params_pieces]
    exact h.sessionSig
  guardian := by
    rw [params_pieces]
    -- without a guardian there is no second signature
    have hguardian := h.guardianSig
    by_cases hzero : cfg.guardian = zero20
    · rw [if_pos hzero] at hguardian ⊢
      simp only [pieces, hguardian, Option.getD_none]
    · rw [if_neg hzero] at hguardian ⊢
      obtain ⟨g, hg, hvalid⟩ := hguardian
      simp only [pieces, hg, Option.getD_some]
      exact hvalid
  expiry := by
    rw [params_pieces]
    exact h.expiry
  outputs := by
    rw [params_pieces]
    exact ⟨Or.inr (policyAllows_region h.leaves.2 h.policy), h.continuity, Or.inr h.outflow⟩

/-- **The lock accepts what the SDK builds**, in both trust models. -/
theorem auth_ok_of_builds (P : Platform) (cfg : SessionConfig) (vm : Vm) (account : Cell) (k : Nat)
    (sigs : Signatures) (entries : List Entry) (h : Builds P cfg vm account k sigs entries)
    (hread : ReadsBack P (cfg.witness P sigs entries)) : auth P vm = .ok () := by
  have hlen := @length_args P cfg
  have hargs : vm.script.args.length = ownerOnlyArgsLen ∨ vm.script.args.length = argsLen := by
    rw [h.script]
    show (cfg.args P).length = 20 ∨ (cfg.args P).length = 116
    rw [hlen]
    cases cfg.model
    · exact Or.inr rfl
    · exact Or.inl rfl
  have hattempt : UnlockAttempt P vm account SessionLock.modeSession
      ((pieces P cfg sigs entries).encode (cfg.args P)) := by
    refine ⟨h.groupInputCells, k, _, _, ?_, h.witness, hread _ (witness_eq sigs entries), rfl⟩
    rw [h.group]
    rfl
  refine auth_eq_ok_iff_attempt.mpr ⟨hargs, account, _, _, hattempt, Or.inr ⟨rfl, ?_⟩⟩
  exact (verifySession_eq_ok h.groupInputCells).mpr ⟨_, h.sessionUnlocks⟩

/-! ### A carried session with a guardian

Three leaves, the last of them the paid script's: its proof passes through a padded level. -/

/-- A frame takes 2050 bytes at most. -/
theorem length_region_le (h : cfg.leaves.length ≤ 2 ^ 64 - 1) (entries : List Entry) :
    (cfg.region P entries).length ≤ entries.length * 2050 := by
  unfold SessionConfig.region proofRegion
  induction entries with
  | nil => simp
  | cons e entries ih =>
    have hproof : (merkleProof P cfg.leaves e.2).length ≤ 64 :=
      MerkleTree.length_siblings_le zero32 (pair P) (by omega) e.2
    simp only [List.map_cons, List.flatMap_cons, List.length_append, List.length_cons,
      flat_length] at ih ⊢
    omega

/-- The molecule platform reads a short witness back. -/
theorem readsBack_molecule {hash : Bytes → Byte32}
    {ckbAuth : UInt8 → Bytes → Byte32 → Bytes → Bool} {witness : Bytes}
    (h : witness.length < 2 ^ 32) : ReadsBack (.molecule hash ckbAuth) witness := by
  rintro wa rfl
  rw [Platform.molecule_witnessArgsSlice] at h
  exact (Platform.readsWitnesses_molecule hash ckbAuth).reads wa h

def guardedConfig : SessionConfig where
  model := .carried
  codeHash := sampleHash 8
  hashType := 1
  owner := sampleKey 1
  session := sampleKey 2
  expiresAt := 100
  leaves := [sampleHash 3, sampleHash 4, policyLeafForScript .sample sampleShop]
  spendCap := 60
  guardian := sampleKey 5
  epoch := 7

def guardedSigs : Signatures where
  ownerAuth := List.replicate 65 1
  session := List.replicate 65 2
  guardian := some (List.replicate 65 3)

def guardedLock : Script := guardedConfig.lock .sample

def guardedAccount : Cell := ⟨⟨1000, guardedLock, none⟩, epochData 7⟩

def guardedVm : Vm :=
  .ofLock .sample
    (.ofCells [(⟨sampleHash 0, 0⟩, guardedAccount)]
      [⟨⟨950, guardedLock, none⟩, epochData 7⟩, ⟨⟨50, sampleShop, none⟩, []⟩]
      [⟨sampleHash 6, 99999⟩]
      [guardedConfig.witness .sample guardedSigs [(1, 2)]])
    guardedLock

theorem guardedVm_builds :
    Builds .sample guardedConfig guardedVm guardedAccount 0 guardedSigs [(1, 2)] where
  enabled := by decide
  leaves := by decide
  script := rfl
  group := by decide +kernel
  input := rfl
  data := rfl
  continuity := by decide +kernel
  outflow := by decide +kernel
  policy := .cons ⟨sampleShop, Or.inr ⟨rfl, rfl⟩, rfl⟩ .nil
  expiry := Or.inr ⟨_, rfl, by decide⟩
  ownerAuth := fun _ => ⟨rfl, rfl⟩
  sessionSig := ⟨rfl, rfl⟩
  guardianSig := ⟨_, rfl, rfl, rfl⟩
  witness := rfl

theorem guardedVm_readsBack :
    ReadsBack .sample (guardedConfig.witness .sample guardedSigs [(1, 2)]) := by
  apply readsBack_molecule
  have hregion : (guardedConfig.region .sample [(1, 2)]).length ≤ 1 * 2050 :=
    length_region_le (by decide) _
  rw [witness_eq]
  show (WitnessArgs.encode _).length < 2 ^ 32
  have hparams : (guardedConfig.params .sample).length = 96 := length_params
  rw [WitnessArgs.length_encode, SessionWitness.encode, if_pos (by decide)]
  simp only [pieces, guardedSigs, Molecule.bytesOpt, Molecule.length_bytes, List.length_cons,
    List.length_append, List.length_nil, hparams]
  show 16 + (4 + (96 + 65 + 65 + 65 + (guardedConfig.region .sample [(1, 2)]).length + 1)) < 2 ^ 32
  omega

theorem auth_ok_of_builds_guarded : auth .sample guardedVm = .ok () :=
  auth_ok_of_builds .sample guardedConfig guardedVm guardedAccount 0 guardedSigs [(1, 2)]
    guardedVm_builds guardedVm_readsBack

end CkbController.Sdk
