import CkbController.SessionLock.CheckLemmas
import CkbController.Sdk.Agreement
import CkbController.Ckb.Encoding

/-!
# Where a scoped session can send value

A session whose policies root is the SDK's tree over a list of scripts can create outputs under
the account's own lock and outputs that carry one of those scripts, and no others, whatever proof
region its holder writes. The hash is an arbitrary function: the exception is a run whose hashed
strings break it, either by a collision or by hashing to the all-zero node the tree is padded
with.

The strings meant are explicit: `allowedStrings` are the ones the SDK hashes to build the tree,
`walkStrings` the ones the lock hashes while it walks the outputs.

* `checkOutputPolicies_sound` — the policy walk, by induction on the outputs;
* `accountOutputs_sound` — the outputs the policy walk leaves to the account walk;
* `scoped_session_destinations` — the two together, for `verifySession`.
-/

namespace CkbController.SessionLock

open ByteCodec Checks MerkleTree

variable (P : Platform)

/-! ## The hashed strings -/

/-- The strings hashed to build the policy tree over `allowed`: script hashes, and the nodes of
every level. -/
def allowedStrings (allowed : List Script) : List Bytes :=
  treeStrings P.blake2b Sdk.pairBuf zero32 (allowed.map fun s => (P.scriptHash s).toList)

/-- The strings hashed by the policy walk: for each policed output the script hash put to the
policy, and the nodes on the way to the root. -/
def walkStrings (script : Script) (proofRegion : Bytes) : List Cell → Nat → List Bytes
  | [], _ => []
  | c :: cells, cursor =>
    if c.output.lock.sameCode script then walkStrings script proofRegion cells cursor
    else
      match readFrame proofRegion cursor with
      | .error _ => []
      | .ok (kind, proof, cursor) =>
        match policyScript kind c with
        | .error _ => []
        | .ok s =>
          climbStrings P.blake2b pairPreimage (P.scriptHash s).toList
              (chunks 32 (proof.length / 32) proof) ++
            walkStrings script proofRegion cells cursor

/-- The output's type script or its lock script has the hash of an allowed script. -/
def Named (allowed : List Script) (c : Cell) : Prop :=
  ∃ s ∈ allowed, (∃ t, c.output.type = some t ∧ P.scriptHash t = P.scriptHash s) ∨
    P.scriptHash c.output.lock = P.scriptHash s

/-- The output is the account again: the same lock, args included, and the same data. -/
def Continues (script : Script) (data : Bytes) (c : Cell) : Prop :=
  c.output.lock = script ∧ c.data = data

variable {P}

/-! ## The policy walk -/

/-- A leaf is no inner node: they are hashed from 32 bytes and from 64. -/
theorem scriptHash_ne_pairBuf (s : Script) (a b : Byte32) :
    (P.scriptHash s).toList ≠ Sdk.pairBuf a b := by
  intro h
  have hlen := congrArg List.length h
  rw [List.Vector.toList_length, Sdk.length_pairBuf] at hlen
  exact absurd hlen (by decide)

/-- **A proof that verifies** is one of a leaf, unless the hash breaks on the strings of the tree
and the climb. -/
theorem merkleVerify_sound {allowed : List Script} (hne : allowed ≠ []) {strings : List Bytes}
    (htree : allowedStrings P allowed ⊆ strings)
    (hsafe : ¬ Breaks P.blake2b zero32 strings) {s : Script} {proof : Bytes}
    (hwalk : climbStrings P.blake2b pairPreimage (P.scriptHash s).toList
      (chunks 32 (proof.length / 32) proof) ⊆ strings)
    (hverify : merkleVerify P (Sdk.merkleRoot P (allowed.map (Sdk.policyLeafForScript P)))
      (P.blake2b (P.scriptHash s).toList) proof = true) :
    ∃ s' ∈ allowed, P.scriptHash s = P.scriptHash s' := by
  have hleaves : allowed.map (Sdk.policyLeafForScript P) =
      (allowed.map fun s => (P.scriptHash s).toList).map P.blake2b := by
    rw [List.map_map]
    rfl
  have hroot : collapse zero32 (Sdk.pair P) (allowed.map (Sdk.policyLeafForScript P)) =
      [Sdk.merkleRoot P (allowed.map (Sdk.policyLeafForScript P))] :=
    Sdk.collapse_eq_merkleRoot P (by simpa using hne)
  have hclimb : (chunks 32 (proof.length / 32) proof).foldl (hashPair P)
      (P.blake2b (P.scriptHash s).toList) =
        Sdk.merkleRoot P (allowed.map (Sdk.policyLeafForScript P)) := by
    unfold merkleVerify at hverify
    rw [Bool.and_eq_true, beq_iff_eq, beq_iff_eq] at hverify
    exact hverify.2
  rw [hleaves] at hroot hclimb
  -- a 32-byte leaf string cannot pass for the 64 bytes of an inner node
  have hmem : (P.scriptHash s).toList ∈ allowed.map fun s => (P.scriptHash s).toList := by
    refine mem_of_climb_eq_root Sdk.pairBuf_injective ?_ htree hsafe hroot
      (scriptHash_ne_pairBuf s) hwalk hclimb
    intro t ht
    obtain ⟨s', -, rfl⟩ := List.mem_map.mp ht
    exact scriptHash_ne_pairBuf s'
  obtain ⟨s', hs', heq⟩ := List.mem_map.mp hmem
  exact ⟨s', hs', (List.Vector.toList_injective heq).symm⟩

/-- **The policy walk.** Every output it does not skip is named. Induction on the outputs, with
the cursor free: each frame is read where the last one ended. -/
theorem checkOutputPolicies_sound {allowed : List Script} (hne : allowed ≠ [])
    {strings : List Bytes} (htree : allowedStrings P allowed ⊆ strings)
    (hsafe : ¬ Breaks P.blake2b zero32 strings) {script : Script} {region : Bytes} :
    ∀ (cells : List Cell) (cursor : Nat), walkStrings P script region cells cursor ⊆ strings →
      checkOutputPolicies P script (Sdk.merkleRoot P (allowed.map (Sdk.policyLeafForScript P)))
        region cells cursor = .ok () →
      ∀ c ∈ cells, ¬ c.output.lock.sameCode script = true → Named P allowed c := by
  intro cells
  induction cells with
  | nil =>
    intro cursor _ _ c hc
    cases hc
  | cons c cells ih =>
    intro cursor hwalk hok
    by_cases hown : c.output.lock.sameCode script = true
    · -- skipped: the head is the account's own, the tail is walked from the same cursor
      rw [walkStrings, if_pos hown] at hwalk
      rw [checkOutputPolicies, if_pos hown] at hok
      intro c' hc' hother
      rcases List.mem_cons.mp hc' with rfl | hc'
      · exact absurd hown hother
      · exact ih cursor hwalk hok c' hc' hother
    · rw [checkOutputPolicies, if_neg hown] at hok
      obtain ⟨⟨kind, proof, cursor'⟩, hread, hok⟩ := bind_eq_ok.mp hok
      obtain ⟨s, hs, hok⟩ := bind_eq_ok.mp hok
      obtain ⟨hverify, hrest⟩ := rejectIf_bind_eq_ok.mp hok
      rw [walkStrings, if_neg hown, hread] at hwalk
      simp only [hs] at hwalk
      obtain ⟨hhead, htail⟩ := List.append_subset.mp hwalk
      -- the proof climbs to the root of the tree, so the script is one of its leaves
      obtain ⟨s', hs', heq⟩ :=
        merkleVerify_sound hne htree hsafe hhead (Bool.not_eq_false _ ▸ hverify)
      intro c' hc' hother
      rcases List.mem_cons.mp hc' with rfl | hc'
      · -- the frame's kind says which of the output's scripts was looked up
        rcases policyScript_eq_ok.mp hs with ⟨-, htype⟩ | ⟨-, rfl⟩
        · exact ⟨s', hs', Or.inl ⟨s, htype, heq⟩⟩
        · exact ⟨s', hs', Or.inr heq⟩
      · exact ih cursor' htail hrest c' hc' hother

/-! ## The account walk -/

/-- Every output that the account walk has passed under the lock's code is the account again. -/
theorem accountOutputs_sound {script : Script} {data : Bytes} {cells : List Cell} {acc r : U128}
    (hok : accountOutputs script script.args data cells acc = .ok r) {c : Cell} (hc : c ∈ cells)
    (hown : c.output.lock.sameCode script = true) : Continues script data c := by
  obtain ⟨hcontinues, -⟩ := (accountOutputs_eq_ok cells acc).mp hok
  obtain ⟨hargs, hdata⟩ := hcontinues c hc hown
  exact ⟨Script.eq_of_sameCode hown hargs, hdata⟩

/-! ## Both walks -/

/-- **Destination soundness of scoped sessions.** If the lock accepts a session whose policies
root is the SDK's root over `allowed`, then every output continues the account or is named by
`allowed`, unless the strings hashed by the SDK and by the lock break the hash. -/
theorem scoped_session_destinations (P : Platform) (vm : Vm) (rest sigRegion : Bytes)
    (params : SessionParams) (allowed : List Script) (hne : allowed ≠ [])
    (hresolve : resolveSession P vm (P.scriptHash vm.script) vm.script.args rest =
      .ok (params, sigRegion))
    (hroot : params.policiesRoot = Sdk.merkleRoot P (allowed.map (Sdk.policyLeafForScript P)))
    (hscoped : params.policiesRoot ≠ wildcardRoot)
    (hok : verifySession P vm vm.script (P.scriptHash vm.script) vm.script.args rest
      (txMessage P vm) = .ok ()) :
    ∃ account proofRegion, vm.groupInputCells[0]? = some account ∧
      checkSignatures P params sigRegion (txMessage P vm) = .ok proofRegion ∧
      ((∀ c ∈ vm.rtx.outputCells, Continues vm.script account.data c ∨ Named P allowed c) ∨
        Breaks P.blake2b zero32 (allowedStrings P allowed ++
          walkStrings P vm.script proofRegion vm.rtx.outputCells 0)) := by
  unfold verifySession at hok
  rw [hresolve, ok_bind] at hok
  obtain ⟨proofRegion, hsigs, hok⟩ := bind_eq_ok.mp hok
  obtain ⟨⟨⟩, -, hok⟩ := bind_eq_ok.mp hok
  obtain ⟨⟨⟩, hpolicy, hok⟩ := bind_eq_ok.mp hok
  obtain ⟨returned, haccount, -⟩ := bind_eq_ok.mp hok
  obtain ⟨data, hdata, hwalk⟩ := bind_eq_ok.mp haccount
  obtain ⟨account, hgroup, rfl⟩ := vm.loadGroupInputData_eq_ok.mp (sys_eq_ok.mp hdata)
  refine ⟨account, proofRegion, hgroup, hsigs, ?_⟩
  -- either the hashed strings break the hash, or the two walks cover every output
  by_cases hsafe : Breaks P.blake2b zero32 (allowedStrings P allowed ++
      walkStrings P vm.script proofRegion vm.rtx.outputCells 0)
  · exact Or.inr hsafe
  · refine Or.inl fun c hc => ?_
    rw [checkPolicy, if_pos hscoped, hroot] at hpolicy
    by_cases hown : c.output.lock.sameCode vm.script = true
    · exact Or.inl (accountOutputs_sound hwalk hc hown)
    · exact Or.inr (checkOutputPolicies_sound hne (List.subset_append_left _ _) hsafe _ 0
        (List.subset_append_right _ _) hpolicy c hc hown)

/-! ### A scoped session at work

A registered account of capacity 1000 whose session may pay one script; it pays it 50. -/

def scopedParams : Bytes :=
  Sdk.sessionParams (sampleKey 2) noExpiry (Sdk.policyLeafForScript .sample sampleShop) 100 zero20

def scopedLock : Script := ⟨sampleHash 8, 1, Sdk.registeredArgs (sampleKey 1) scopedParams⟩

/-- A signature, and one frame of kind LOCK with no siblings. -/
def scopedRest : Bytes := List.replicate 65 5 ++ [1, 0]

def scopedVm : Vm :=
  .ofLock .sample
    (.ofCells [(⟨sampleHash 0, 0⟩, ⟨⟨1000, scopedLock, none⟩, []⟩)]
      [⟨⟨950, scopedLock, none⟩, []⟩, ⟨⟨50, sampleShop, none⟩, []⟩] [] [])
    scopedLock

theorem resolveSession_scopedVm :
    resolveSession .sample scopedVm (Platform.sample.scriptHash scopedLock) scopedLock.args
      scopedRest = .ok (parseSessionParams scopedParams, scopedRest) := by
  rfl

theorem policiesRoot_scopedParams :
    (parseSessionParams scopedParams).policiesRoot =
      Sdk.merkleRoot .sample ([sampleShop].map (Sdk.policyLeafForScript .sample)) := by
  rw [List.map_singleton, Sdk.merkleRoot_singleton, scopedParams,
    Sdk.parseSessionParams_sessionParams]

theorem policiesRoot_scopedParams_ne :
    (parseSessionParams scopedParams).policiesRoot ≠ wildcardRoot := by
  decide +kernel

theorem verifySession_scopedVm :
    verifySession .sample scopedVm scopedLock (Platform.sample.scriptHash scopedLock)
      scopedLock.args scopedRest (txMessage .sample scopedVm) = .ok () :=
  eq_ok_of_isOk (by decide +kernel)

theorem scoped_session_destinations_shop :
    ∃ account proofRegion, scopedVm.groupInputCells[0]? = some account ∧
      checkSignatures .sample (parseSessionParams scopedParams) scopedRest
        (txMessage .sample scopedVm) = .ok proofRegion ∧
      ((∀ c ∈ scopedVm.rtx.outputCells,
          Continues scopedLock account.data c ∨ Named .sample [sampleShop] c) ∨
        Breaks Platform.sample.blake2b zero32 (allowedStrings .sample [sampleShop] ++
          walkStrings .sample scopedLock proofRegion scopedVm.rtx.outputCells 0)) :=
  scoped_session_destinations .sample scopedVm scopedRest scopedRest
    (parseSessionParams scopedParams) [sampleShop] (by simp) resolveSession_scopedVm
    policiesRoot_scopedParams policiesRoot_scopedParams_ne verifySession_scopedVm

end CkbController.SessionLock
