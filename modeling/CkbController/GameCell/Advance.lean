import CkbController.Ckb.Encoding
import CkbController.GameCell.TypeScript
import CkbController.GameRules.Codec

/-!
# Transactions that advance a game cell

The operator, the command `game grow` and whoever drives a game with the browser bindings all
write the same kind of transaction: one game cell in, the next one out, and the batch in the
witness of the game input, next to whatever else the transaction carries. `Plays.verify_iff` says
once what the type script makes of the bytes of a batch, and `Advances.verify_iff` what it makes
of a batch that the transaction's builder has encoded.
-/

namespace CkbController.GameCell

open ByteCodec Checks GameRules

/-- The transaction spends `c` as its one game cell, creates `c'` as the next one, and the witness
of the game input reads as one with the bytes of a batch. -/
structure Plays (P : Platform) (ty : Script) (rtx : ResolvedTx) (c c' : Cell) (bytes : Bytes) :
    Prop where
  inputs : (Vm.ofType P rtx ty).groupInputCells = [c]
  outputs : (Vm.ofType P rtx ty).groupOutputCells = [c']
  witness : ∃ gi wa, findGroupInputIndex P (.ofType P rtx ty) = some gi ∧
    (Vm.ofType P rtx ty).loadWitnessArgs P gi = .ok wa ∧ wa.inputType = some bytes

namespace Plays

variable {P : Platform} {ty : Script} {rtx : ResolvedTx} {c c' : Cell} {bytes : Bytes}

theorem loadBatch_eq (h : Plays P ty rtx c c' bytes) :
    loadBatch P (.ofType P rtx ty) = game (decodeBatch bytes) := by
  obtain ⟨gi, wa, hgi, hwa, hbytes⟩ := h.witness
  unfold loadBatch
  rw [okOr_eq_ok.mpr hgi, ok_bind, sys_eq_ok.mpr hwa, ok_bind, okOr_eq_ok.mpr hbytes]
  rfl

/-- **What the type script makes of it.** The bytes are a batch, every move of it is signed, and
the next board is what it makes of this one. -/
theorem verify_iff (h : Plays P ty rtx c c' bytes) (hargs : ty.args.length = gameIdLen) :
    verify P (.ofType P rtx ty) = .ok () ↔
      ∃ batch s s' out, decodeBatch bytes = .ok batch ∧
        (∀ i ∈ batch, SignedFor P (gameIdOf ty) i) ∧ GameState.decode c.data = .ok s ∧
        GameState.decode c'.data = .ok out ∧ s.applyBatch batch = .ok s' ∧
        s'.equalsUnordered out = true := by
  constructor
  · intro hok
    rcases verify_ok hok with ⟨d, hgenesis⟩ | ⟨d, d', batch, htransition⟩
    · -- a genesis has no game input
      have := hgenesis.inputs.symm.trans h.inputs
      cases this
    · -- one cell on either side, so the transition is between these two
      have hd : d = c := List.singleton_inj.mp (htransition.inputs.symm.trans h.inputs)
      have hd' : d' = c' := List.singleton_inj.mp (htransition.outputs.symm.trans h.outputs)
      subst hd hd'
      have hbatch := h.loadBatch_eq.symm.trans htransition.loaded
      obtain ⟨s, s', out, hs, hout, happly, heq⟩ := htransition.applied
      exact ⟨batch, s, s', out, game_eq_ok.mp hbatch, htransition.signed, hs, hout, happly, heq⟩
  · rintro ⟨batch, s, s', out, hbatch, hsigned, hs, hout, happly, heq⟩
    have hloaded := h.loadBatch_eq.trans (game_eq_ok.mpr hbatch)
    exact verify_of_isTransition hargs
      ⟨h.inputs, h.outputs, hloaded, hsigned, s, s', out, hs, hout, happly, heq⟩

end Plays

/-- The transaction spends `c` as its one game cell, creates `c'` as the next one, and carries
the batch in the witness of the game input, next to a lock field of the size of a signature. -/
structure Advances (P : Platform) (ty : Script) (rtx : ResolvedTx) (c c' : Cell)
    (lock : Option Bytes) (batch : List Intent) : Prop where
  inputs : (Vm.ofType P rtx ty).groupInputCells = [c]
  outputs : (Vm.ofType P rtx ty).groupOutputCells = [c']
  witness : ∃ gi, findGroupInputIndex P (.ofType P rtx ty) = some gi ∧
    rtx.tx.witnesses[gi]? = some (P.witnessArgsSlice ⟨lock, some (encodeBatch batch), none⟩)
  small : ∀ bytes ∈ lock, bytes.length ≤ 65

namespace Advances

variable {P : Platform} {ty : Script} {rtx : ResolvedTx} {c c' : Cell} {lock : Option Bytes}
  {batch : List Intent}

/-- A batch that its count field can count fits into a witness. -/
theorem length_witness_lt (h : Advances P ty rtx c c' lock batch) (hcount : batch.length < 2 ^ 16) :
    (WitnessArgs.encode ⟨lock, some (encodeBatch batch), none⟩).length < 2 ^ 32 := by
  have hlock : (Molecule.bytesOpt lock).length ≤ 69 := by
    cases lock with
    | none => exact Nat.zero_le _
    | some bytes =>
      show (Molecule.bytes bytes).length ≤ 69
      rw [Molecule.length_bytes]
      have := h.small bytes rfl
      omega
  rw [WitnessArgs.length_encode]
  show 16 + (Molecule.bytesOpt lock).length + (Molecule.bytes (encodeBatch batch)).length + 0 <
    2 ^ 32
  rw [Molecule.length_bytes, length_encodeBatch, intentLen]
  omega

/-- The type script loads the batch, or nothing if its count field wraps. -/
theorem loadBatch_eq_ok (h : Advances P ty rtx c c' lock batch) (hread : P.ReadsWitnesses)
    {loaded : List Intent} :
    loadBatch P (.ofType P rtx ty) = .ok loaded ↔ batch.length < 2 ^ 16 ∧ loaded = batch := by
  obtain ⟨gi, hgi, hwitness⟩ := h.witness
  have hslot : (Vm.ofType P rtx ty).rtx.tx.witnesses[gi]? =
      some (P.witnessArgsSlice ⟨lock, some (encodeBatch batch), none⟩) := hwitness
  constructor
  · intro hload
    obtain ⟨gi', hgi', hload⟩ := bind_eq_ok.mp hload
    rw [okOr_eq_ok, hgi] at hgi'
    cases hgi'
    obtain ⟨wa, hwa, hload⟩ := bind_eq_ok.mp hload
    obtain ⟨bytes, hbytes, hload⟩ := bind_eq_ok.mp hload
    -- the witness reads back as it was written, or not at all
    have hsame : wa = ⟨lock, some (encodeBatch batch), none⟩ := by
      rw [sys_eq_ok, Vm.loadWitnessArgs, hslot] at hwa
      cases hslice : P.witnessArgsFromSlice
          (P.witnessArgsSlice ⟨lock, some (encodeBatch batch), none⟩) with
      | none =>
        simp only [hslice] at hwa
        cases hwa
      | some wa' =>
        simp only [hslice] at hwa
        cases hwa
        exact hread.faithful _ _ hslice
    rw [okOr_eq_ok, hsame] at hbytes
    cases hbytes
    rw [game_eq_ok] at hload
    have hcount := lt_of_decodeBatch_encodeBatch hload
    exact ⟨hcount, (Except.ok.inj ((decodeBatch_encodeBatch hcount).symm.trans hload)).symm⟩
  · rintro ⟨hcount, rfl⟩
    have hargs : (Vm.ofType P rtx ty).loadWitnessArgs P gi =
        .ok ⟨lock, some (encodeBatch loaded), none⟩ := by
      unfold Vm.loadWitnessArgs
      rw [hslot]
      simp only [hread.reads _ (h.length_witness_lt hcount)]
    unfold loadBatch
    rw [okOr_eq_ok.mpr hgi, ok_bind, sys_eq_ok.mpr hargs, ok_bind]
    show (okOr (some (encodeBatch loaded)) Error.batchMissing >>= fun b =>
      game (decodeBatch b)) = _
    rw [okOr_eq_ok.mpr rfl, ok_bind, decodeBatch_encodeBatch hcount]
    rfl

/-- **What the type script makes of it.** The batch can be counted, every move of it is signed,
and the next board is what it makes of this one. -/
theorem verify_iff (h : Advances P ty rtx c c' lock batch) (hread : P.ReadsWitnesses)
    (hargs : ty.args.length = gameIdLen) :
    verify P (.ofType P rtx ty) = .ok () ↔
      batch.length < 2 ^ 16 ∧ (∀ i ∈ batch, SignedFor P (gameIdOf ty) i) ∧
        ∃ s s' out, GameState.decode c.data = .ok s ∧ GameState.decode c'.data = .ok out ∧
          s.applyBatch batch = .ok s' ∧ s'.equalsUnordered out = true := by
  constructor
  · intro hok
    rcases verify_ok hok with ⟨d, hgenesis⟩ | ⟨d, d', loaded, htransition⟩
    · have := hgenesis.inputs.symm.trans h.inputs
      cases this
    · have hd : d = c := List.singleton_inj.mp (htransition.inputs.symm.trans h.inputs)
      have hd' : d' = c' := List.singleton_inj.mp (htransition.outputs.symm.trans h.outputs)
      obtain ⟨hcount, hloaded⟩ := (h.loadBatch_eq_ok hread).mp htransition.loaded
      subst hd hd' hloaded
      exact ⟨hcount, htransition.signed, htransition.applied⟩
  · rintro ⟨hcount, hsigned, happlied⟩
    exact verify_of_isTransition hargs
      ⟨h.inputs, h.outputs, (h.loadBatch_eq_ok hread).mpr ⟨hcount, rfl⟩, hsigned, happlied⟩

end Advances

end CkbController.GameCell
