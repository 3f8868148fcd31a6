import CkbController.Ckb.Encoding
import CkbController.Sdk.Agreement
import CkbController.SessionLock.Refinement
import CkbController.Wasm.Bindings

/-!
# Registered args

`registered_args` appends a params block to the owner hash and leaves it at that: neither the SDK
nor its wasm binding asks how long the block is, although the lock chooses the trust model by the
length of the args alone. Blocks of 96 bytes, which is what `session_params` writes, make a
registered account that its owner can always unlock. An empty block makes an owner-only account
(`registeredArgs_nil`), and a block of any other length an account that nothing unlocks
(`auth_registeredArgs_ne_ok`).
-/

namespace CkbController.Wasm

open ByteCodec Checks SessionLock

variable {P : Platform} {owner : Byte20} {params : Bytes}

/-- Args under which the lock finds the params block, and the owner keeps control. -/
structure Registers (P : Platform) (owner : Byte20) (params args : Bytes) : Prop where
  selected : ∀ (vm : Vm) (scriptHash : Byte32) (rest : Bytes),
    resolveSession P vm scriptHash args rest = .ok (parseSessionParams params, rest)
  block : slice args ownerOnlyArgsLen argsLen = params
  unlocks : ∀ (vm : Vm) (account : Cell) (rest : Bytes), vm.script.args = args →
    UnlockAttempt P vm account modeOwner rest → signatureLen ≤ rest.length →
    P.ckbAuth authIdCkbSecp256k1 (rest.take signatureLen) (txMessage P vm) owner.toList = true →
    auth P vm = .ok ()

theorem length_registeredArgs_eq (owner : Byte20) (params : Bytes) :
    (Sdk.registeredArgs owner params).length = 20 + params.length := by
  simp [Sdk.registeredArgs]

/-! ## A params block of 96 bytes -/

/-- With 96 bytes of params they have the length the lock looks for. -/
theorem length_eq_argsLen (h : params.length = 96) :
    (Sdk.registeredArgs owner params).length = argsLen :=
  Sdk.length_registeredArgs owner h

theorem slice_registeredArgs (h : params.length = 96) :
    slice (Sdk.registeredArgs owner params) ownerOnlyArgsLen argsLen = params := by
  rw [slice_eq_drop (Nat.le_of_eq (length_eq_argsLen h))]
  exact Sdk.drop_registeredArgs owner params

/-- Params of 96 bytes register. -/
theorem registers_of_length (h : params.length = 96) :
    Registers P owner params (Sdk.registeredArgs owner params) where
  selected := by
    intro vm scriptHash rest
    unfold resolveSession
    rw [if_pos (length_eq_argsLen h), slice_registeredArgs h]
  block := slice_registeredArgs h
  unlocks := by
    intro vm account rest hargs hattempt hlen hvalid
    have hlength : vm.script.args.length = argsLen := by
      rw [hargs]
      exact length_eq_argsLen h
    refine auth_eq_ok_iff_attempt.mpr ⟨Or.inr hlength, account, _, rest, hattempt, Or.inl ⟨rfl, ?_⟩⟩
    refine verifyOwner_eq_ok.mpr ⟨hlen, ?_⟩
    rw [hargs, Sdk.take_registeredArgs]
    exact hvalid

/-! ## Any other block -/

/-- The session of args of another length is not resolved from an empty witness. -/
theorem resolveSession_nil_ne_ok {args : Bytes} (h : args.length ≠ argsLen) (vm : Vm)
    (scriptHash : Byte32) (r : SessionParams × Bytes) :
    resolveSession P vm scriptHash args [] ≠ .ok r := by
  unfold resolveSession
  rw [if_neg h]
  by_cases hcarried : args.length = ownerOnlyArgsLen
  · rw [if_pos hcarried]
    intro hok
    exact (rejectIf_bind_eq_ok.mp hok).1 (by decide)
  · rw [if_neg hcarried]
    intro hok
    cases hok

/-- Args that register have the right length. -/
theorem Registers.length (h : Registers P owner params (Sdk.registeredArgs owner params)) :
    params.length = 96 := by
  by_contra hne
  have hlength : (Sdk.registeredArgs owner params).length ≠ argsLen := by
    rw [length_registeredArgs_eq]
    simp only [argsLen]
    omega
  -- args of another length resolve no session from an empty witness
  let vm : Vm := .ofLock P (.ofCells [] [] [] []) ⟨zero32, 0, []⟩
  exact resolveSession_nil_ne_ok hlength vm zero32 _ (h.selected vm zero32 [])

/-- Without params the args are those of the carried model. -/
theorem registeredArgs_nil (owner : Byte20) :
    Sdk.registeredArgs owner [] = Sdk.ownerOnlyArgs owner := by
  unfold Sdk.registeredArgs Sdk.ownerOnlyArgs
  exact List.append_nil _

/-- Neither the owner nor a session unlocks an account with a misshapen params block. -/
theorem auth_registeredArgs_ne_ok {vm : Vm}
    (hargs : vm.script.args = Sdk.registeredArgs owner params) (hne : params ≠ [])
    (hlen : params.length ≠ 96) : auth P vm ≠ .ok () := by
  intro hok
  have hpos := List.length_pos_iff.mpr hne
  have hmodel := (auth_eq_ok_iff_attempt.mp hok).1
  rw [hargs, length_registeredArgs_eq] at hmodel
  simp only [ownerOnlyArgsLen, argsLen] at hmodel
  omega

/-! ## Both callers -/

/-- What the binding returns spells the SDK's args of what its texts spell. -/
theorem registeredArgs_eq_ok {ownerText paramsText argsText : String}
    (h : registeredArgs ownerText paramsText = .ok argsText) :
    ∃ owner params, arr20 ownerText = .ok owner ∧ hx paramsText = .ok params ∧
      hx argsText = .ok (Sdk.registeredArgs owner params) := by
  unfold registeredArgs at h
  obtain ⟨owner, howner, h⟩ := bind_eq_ok.mp h
  obtain ⟨params, hparams, h⟩ := bind_eq_ok.mp h
  cases h
  exact ⟨owner, params, howner, hparams, hx_hexout _⟩

/-- **Args register an account exactly when the params block has 96 bytes**, from the SDK and from
the binding; and the lock reads back the five values a params block was written from. -/
theorem registeredArgs_register_iff (P : Platform) :
    (∀ owner params, Registers P owner params (Sdk.registeredArgs owner params) ↔
      params.length = 96) ∧
    (∀ ownerText paramsText argsText, registeredArgs ownerText paramsText = .ok argsText →
      ∃ owner params args, arr20 ownerText = .ok owner ∧ hx paramsText = .ok params ∧
        hx argsText = .ok args ∧ (Registers P owner params args ↔ params.length = 96)) ∧
    ∀ session expiresAt root cap guardian,
      parseSessionParams (Sdk.sessionParams session expiresAt root cap guardian) =
        ⟨session, expiresAt, root, cap, guardian⟩ := by
  refine ⟨fun _ _ => ⟨Registers.length, registers_of_length⟩, ?_, ?_⟩
  · intro ownerText paramsText argsText h
    obtain ⟨owner, params, howner, hparams, hargs⟩ := registeredArgs_eq_ok h
    exact ⟨owner, params, _, howner, hparams, hargs, Registers.length, registers_of_length⟩
  · exact Sdk.parseSessionParams_sessionParams

/-- A block as `session_params` writes it. -/
def writtenBlock : Bytes := Sdk.sessionParams (sampleKey 2) 100 (sampleHash 3) 60 zero20

/-- An owner hash and a written block, as texts. -/
theorem registeredArgs_register_iff_written :
    ∃ argsText args,
      registeredArgs (hexout (sampleKey 1).toList) (hexout writtenBlock) = .ok argsText ∧
        hx argsText = .ok args ∧ Registers .sample (sampleKey 1) writtenBlock args := by
  have hwritten := registeredArgs_hexout (sampleKey 1) writtenBlock
  obtain ⟨owner, params, args, howner, hparams, hargs, hiff⟩ :=
    (registeredArgs_register_iff .sample).2.1 _ _ _ hwritten
  -- the texts spell what they were written from
  cases (arr20_hexout (sampleKey 1)).symm.trans howner
  cases (hx_hexout writtenBlock).symm.trans hparams
  exact ⟨_, args, hwritten, hargs, hiff.mpr (Sdk.length_sessionParams ..)⟩

/-- A block that lost its last byte: args of 115 bytes. -/
theorem short_params_do_not_register :
    ¬ ∀ owner params, Registers Platform.sample owner params (Sdk.registeredArgs owner params) := by
  intro hall
  have hlength := (hall (sampleKey 1) (List.replicate 95 0)).length
  exact absurd hlength (by decide)

end CkbController.Wasm
