import CkbController.GameRules.Codec
import CkbController.PaymasterService.OperatorRuns

/-!
# The operator's transitions on chain

What the operator builds off chain and what the type script recomputes on chain are the same
batch and the same board, seen through two encoders with count fields of two and four bytes. The
type script accepts the built transition exactly as long as both counts fit
(`transition_accepted_iff`). The operator looks at neither, so a queue of 65536 intents builds a
transition that no node takes.
-/

namespace CkbController.PaymasterService

open ByteCodec Checks GameRules GameCell

/-- The queue and the board it makes can be counted by their encoders. -/
def GameOperator.Countable (op : GameOperator) : Prop :=
  op.mempool.length < 2 ^ 16 ∧
    op.tip.state.players.length + (newcomers op.tip.state.players op.mempool).card < 2 ^ 32

section Built

variable {P : Platform} {op : GameOperator} {t : Transition} {rtx : ResolvedTx} {cell : Cell}
  {ty : Script}

/-- The built transition with its one input resolved to the live game cell. -/
structure Resolves (op : GameOperator) (ty : Script) (t : Transition) (rtx : ResolvedTx)
    (cell : Cell) : Prop where
  tx : rtx.tx = t.tx
  inputs : rtx.inputCells = [cell]
  output : cell.output = op.tip.output
  state : GameState.decode cell.data = .ok op.tip.state
  type : op.tip.output.type = some ty
  args : ty.args = op.gameId.toList

/-- The next game cell. -/
def Transition.nextCell (t : Transition) : Cell := ⟨t.nextOutput, t.nextState.encode⟩

/-- The tip is the only input of the game's group. -/
theorem Resolves.groupInputCells (h : Resolves op ty t rtx cell) :
    (Vm.ofType P rtx ty).groupInputCells = [cell] := by
  rw [Vm.groupInputCells_ofType, h.inputs]
  exact List.filter_eq_self.mpr fun c hc =>
    List.mem_singleton.mp hc ▸ Vm.carries_of_type (h.output ▸ h.type)

/-- The next cell is the only output. -/
theorem Resolves.outputCells (h : Resolves op ty t rtx cell)
    (hbuild : op.buildTransition P = .ok t) : rtx.outputCells = [t.nextCell] := by
  obtain ⟨-, -, -, -, htx, -⟩ := GameOperator.buildTransition_eq_ok.mp hbuild
  unfold ResolvedTx.outputCells
  rw [h.tx, htx]
  rfl

/-- The next cell is the only output of the game's group. -/
theorem Resolves.groupOutputCells (h : Resolves op ty t rtx cell)
    (hbuild : op.buildTransition P = .ok t) :
    (Vm.ofType P rtx ty).groupOutputCells = [t.nextCell] := by
  obtain ⟨-, -, -, hnext, -, -⟩ := GameOperator.buildTransition_eq_ok.mp hbuild
  have htype : t.nextCell.output.type = some ty := by
    show t.nextOutput.type = some ty
    rw [hnext]
    exact h.type
  rw [Vm.groupOutputCells_ofType, h.outputCells hbuild]
  exact List.filter_eq_self.mpr fun c hc => List.mem_singleton.mp hc ▸ Vm.carries_of_type htype

/-- The witness that carries the queue. -/
theorem Resolves.witness (h : Resolves op ty t rtx cell) (hbuild : op.buildTransition P = .ok t) :
    (Vm.ofType P rtx ty).rtx.tx.witnesses[0]? =
      some (P.witnessArgsSlice ⟨none, some (encodeBatch op.mempool), none⟩) := by
  obtain ⟨-, -, -, -, htx, -⟩ := GameOperator.buildTransition_eq_ok.mp hbuild
  show rtx.tx.witnesses[0]? = _
  rw [h.tx, htx]
  rfl

/-- The group's first input is the transaction's. -/
theorem Resolves.findGroupInputIndex (h : Resolves op ty t rtx cell) :
    findGroupInputIndex P (.ofType P rtx ty) = some 0 := by
  show rtx.inputCells.findIdx? _ = some 0
  rw [h.inputs, List.findIdx?_cons, Vm.carries_of_type (h.output ▸ h.type)]
  rfl

/-- The witness reads back as the operator wrote it, or not at all. -/
theorem Resolves.eq_of_loadWitnessArgs (h : Resolves op ty t rtx cell) (hread : P.ReadsWitnesses)
    (hbuild : op.buildTransition P = .ok t) {wa : WitnessArgs}
    (hwa : (Vm.ofType P rtx ty).loadWitnessArgs P 0 = .ok wa) :
    wa = ⟨none, some (encodeBatch op.mempool), none⟩ := by
  unfold Vm.loadWitnessArgs at hwa
  rw [h.witness hbuild] at hwa
  cases hslice : P.witnessArgsFromSlice
      (P.witnessArgsSlice ⟨none, some (encodeBatch op.mempool), none⟩) with
  | none =>
    simp only [hslice] at hwa
    cases hwa
  | some wa' =>
    simp only [hslice] at hwa
    cases hwa
    exact hread.faithful _ _ hslice

/-- A batch that its count field can count fits into a witness. -/
theorem Resolves.loadWitnessArgs (h : Resolves op ty t rtx cell) (hread : P.ReadsWitnesses)
    (hbuild : op.buildTransition P = .ok t) (hcount : op.mempool.length < 2 ^ 16) :
    (Vm.ofType P rtx ty).loadWitnessArgs P 0 =
      .ok ⟨none, some (encodeBatch op.mempool), none⟩ := by
  let wa : WitnessArgs := ⟨none, some (encodeBatch op.mempool), none⟩
  have hsize : wa.encode.length < 2 ^ 32 := by
    rw [WitnessArgs.length_encode]
    show 16 + 0 + (Molecule.bytes (encodeBatch op.mempool)).length + 0 < 2 ^ 32
    rw [Molecule.length_bytes, length_encodeBatch, intentLen]
    omega
  unfold Vm.loadWitnessArgs
  rw [h.witness hbuild]
  simp only [hread.reads wa hsize, wa]

/-- The batch the type script loads is what reads back of the queue's encoding. -/
theorem Resolves.loadBatch_eq_ok (h : Resolves op ty t rtx cell) (hread : P.ReadsWitnesses)
    (hbuild : op.buildTransition P = .ok t) {batch : List Intent} :
    loadBatch P (.ofType P rtx ty) = .ok batch ↔
      op.mempool.length < 2 ^ 16 ∧ batch = op.mempool := by
  constructor
  · intro hload
    obtain ⟨gi, hgi, hload⟩ := bind_eq_ok.mp hload
    rw [okOr_eq_ok, h.findGroupInputIndex] at hgi
    cases hgi
    obtain ⟨wa, hwa, hload⟩ := bind_eq_ok.mp hload
    have hsame := h.eq_of_loadWitnessArgs hread hbuild (sys_eq_ok.mp hwa)
    obtain ⟨bytes, hbytes, hload⟩ := bind_eq_ok.mp hload
    rw [okOr_eq_ok, hsame] at hbytes
    cases hbytes
    rw [game_eq_ok] at hload
    -- a truncated count never reads back
    have hcount := lt_of_decodeBatch_encodeBatch hload
    refine ⟨hcount, ?_⟩
    exact (Except.ok.inj ((decodeBatch_encodeBatch hcount).symm.trans hload)).symm
  · rintro ⟨hcount, rfl⟩
    have hargs := h.loadWitnessArgs hread hbuild hcount
    unfold loadBatch
    rw [okOr_eq_ok.mpr h.findGroupInputIndex, ok_bind, sys_eq_ok.mpr hargs, ok_bind]
    show (okOr (some (encodeBatch op.mempool)) Error.batchMissing >>= fun b =>
      game (decodeBatch b)) = _
    rw [okOr_eq_ok.mpr rfl, ok_bind, decodeBatch_encodeBatch hcount]
    rfl

/-- The board after the queue, counted. -/
theorem length_nextState (hbuild : op.buildTransition P = .ok t) :
    t.nextState.players.length =
      op.tip.state.players.length + (newcomers op.tip.state.players op.mempool).card := by
  obtain ⟨-, happly, -⟩ := GameOperator.buildTransition_eq_ok.mp hbuild
  have hlength := length_applyIntents (applyBatch_eq_ok.mp happly).1
  exact hlength

/-- A board equals itself. -/
theorem equalsUnordered_self (s : GameState) : s.equalsUnordered s = true := by
  unfold GameState.equalsUnordered
  rw [beq_self_eq_true, beq_self_eq_true, Bool.and_self, Bool.true_and, List.all_eq_true]
  intro p hp
  rw [List.any_eq_true]
  exact ⟨p, hp, by simp⟩

/-- The type script accepts a built transition exactly when its sizes fit the encodings. -/
theorem Resolves.verify_iff (h : Resolves op ty t rtx cell) (hread : P.ReadsWitnesses)
    (hbuild : op.buildTransition P = .ok t)
    (hsigned : ∀ i ∈ op.mempool, SignedFor P op.gameId i) :
    verify P (.ofType P rtx ty) = .ok () ↔ op.Countable := by
  obtain ⟨-, happly, -⟩ := GameOperator.buildTransition_eq_ok.mp hbuild
  constructor
  · intro hok
    rcases verify_ok hok with ⟨c, hgenesis⟩ | ⟨c, c', batch, htransition⟩
    · -- a genesis has no input in the group, and this transaction spends the tip
      have := hgenesis.inputs.symm.trans h.groupInputCells
      cases this
    · -- the type script read the batch back and decoded the new board
      have hcount := ((h.loadBatch_eq_ok hread hbuild).mp htransition.loaded).1
      obtain ⟨_, _, out, _, hout, _, _⟩ := htransition.applied
      have hc' : c' = t.nextCell :=
        List.singleton_inj.mp (htransition.outputs.symm.trans (h.groupOutputCells hbuild))
      rw [hc'] at hout
      refine ⟨hcount, ?_⟩
      rw [← length_nextState hbuild]
      exact GameState.lt_of_decode_encode hout
  · rintro ⟨hcount, hplayers⟩
    rw [← length_nextState hbuild] at hplayers
    -- the moves are signed for the game the type script reads from its args
    have hgame : gameIdOf ty = op.gameId := by
      unfold gameIdOf
      rw [h.args, ByteArr.ofBytes_toList]
    refine @verify_of_isTransition P (.ofType P rtx ty) cell t.nextCell op.mempool ?_ ?_
    · show ty.args.length = gameIdLen
      rw [h.args]
      exact op.gameId.toList_length
    · refine ⟨h.groupInputCells, h.groupOutputCells hbuild,
        (h.loadBatch_eq_ok hread hbuild).mpr ⟨hcount, rfl⟩, ?_, ?_⟩
      · show ∀ i ∈ op.mempool, SignedFor P (gameIdOf ty) i
        rw [hgame]
        exact hsigned
      · exact ⟨_, _, _, h.state, GameState.decode_encode hplayers, happly,
          equalsUnordered_self t.nextState⟩

end Built

/-- **Acceptance of a built transition.** Take any operator whose tip is the live game cell and
any queue of signed intents from which a transition is built. The type script accepts the
transition exactly when the batch is shorter than 65536 intents and the board it makes has fewer
than 2^32 players. That is also exactly when the script's batch is the queue and the output reads
back as a board that equals the recomputed one up to order. -/
theorem transition_accepted_iff (P : Platform) (hread : P.ReadsWitnesses) (op : GameOperator)
    (ty : Script) (t : Transition) (rtx : ResolvedTx) (cell : Cell)
    (hresolves : Resolves op ty t rtx cell) (hbuild : op.buildTransition P = .ok t)
    (hsigned : ∀ i ∈ op.mempool, SignedFor P op.gameId i) :
    (verify P (.ofType P rtx ty) = .ok () ↔
      op.mempool.length < 2 ^ 16 ∧
        op.tip.state.players.length + (newcomers op.tip.state.players op.mempool).card < 2 ^ 32) ∧
    ((loadBatch P (.ofType P rtx ty) = .ok op.mempool ∧
        ∃ data s out, rtx.tx.raw.outputsData[0]? = some data ∧ GameState.decode data = .ok out ∧
          op.tip.state.applyBatch op.mempool = .ok s ∧ s.equalsUnordered out = true) ↔
      op.mempool.length < 2 ^ 16 ∧
        op.tip.state.players.length + (newcomers op.tip.state.players op.mempool).card < 2 ^ 32)
      := by
  refine ⟨hresolves.verify_iff hread hbuild hsigned, ?_⟩
  obtain ⟨-, happly, -, -, htx, -⟩ := GameOperator.buildTransition_eq_ok.mp hbuild
  have hdata : rtx.tx.raw.outputsData[0]? = some t.nextState.encode := by
    rw [hresolves.tx, htx]
    rfl
  rw [hresolves.loadBatch_eq_ok hread hbuild, ← length_nextState hbuild]
  -- the board in the output is the one the operator encoded
  constructor
  · rintro ⟨⟨hcount, -⟩, data, s, out, hdata', hout, -, -⟩
    rw [hdata] at hdata'
    cases hdata'
    exact ⟨hcount, GameState.lt_of_decode_encode hout⟩
  · rintro ⟨hcount, hplayers⟩
    exact ⟨⟨hcount, rfl⟩, _, _, _, hdata, GameState.decode_encode hplayers, happly,
      equalsUnordered_self _⟩

/-! ### A short queue and a long one

One player moves without scoring. Each submission succeeds, whatever the length of the queue. -/

/-- The transition of `op` to `nextState`, with the game cell `cell` as its one input. -/
def GameOperator.resolved (op : GameOperator) (t : Transition) (cell : Cell) : ResolvedTx where
  tx := op.transitionTx .sample t.nextOutput t.nextState
  inputCells := [cell]
  headers := []
  inputs_resolved := rfl
  headers_resolved := rfl
  outputs_paired := rfl

def restMove (k : Nat) : Intent := ⟨sampleKey 1, 0, BitVec.ofNat 64 (k + 1), sampleSig⟩

def longOperator (n : Nat) : GameOperator :=
  { sampleOperator with mempool := (List.range n).map restMove }

def longTransition (n : Nat) : Transition :=
  let nextOutput : CellOutput := { (gameCell []).output with capacity := 997 }
  let nextState : GameState := ⟨BitVec.ofNat 64 n, [⟨sampleKey 1, 0, BitVec.ofNat 64 n⟩]⟩
  { tx := (longOperator n).transitionTx .sample nextOutput nextState
    applied := n
    nextState
    nextOutput }

/-- One more move of zero points raises the nonce alone. -/
theorem playOn_restMove {n : Nat} (h : n + 1 < 2 ^ 64) :
    playOn (restMove n) [⟨sampleKey 1, 0, BitVec.ofNat 64 n⟩] =
      .ok [⟨sampleKey 1, 0, BitVec.ofNat 64 (n + 1)⟩] := by
  have hnext : MachineInt.checkedAdd (BitVec.ofNat 64 n) 1 = some (BitVec.ofNat 64 (n + 1)) := by
    rw [MachineInt.checkedAdd_eq_some, BitVec.toNat_ofNat, BitVec.toNat_ofNat,
      Nat.mod_eq_of_lt (by omega), Nat.mod_eq_of_lt h]
    rfl
  have hplay : (PlayerEntry.mk (sampleKey 1) 0 (BitVec.ofNat 64 n)).play (restMove n) =
      .ok ⟨sampleKey 1, 0, BitVec.ofNat 64 (n + 1)⟩ := by
    unfold PlayerEntry.play
    rw [hnext]
    have hnonce : (restMove n).nonce = BitVec.ofNat 64 (n + 1) := rfl
    show (rejectIf ((restMove n).nonce ≠ BitVec.ofNat 64 (n + 1)) _ >>= fun _ => _) = _
    rw [rejectIf_neg (not_not.mpr hnonce)]
    rfl
  have hhash : sampleKey 1 = (restMove n).hash := rfl
  unfold playOn
  rw [if_pos hhash, hplay]
  rfl

/-- One more move of zero points raises the nonce of the one entry. -/
theorem applyIntent_restMove {seq : U64} {n : Nat} (h : n + 1 < 2 ^ 64) :
    (GameState.mk seq [⟨sampleKey 1, 0, BitVec.ofNat 64 n⟩]).applyIntent (restMove n) =
      .ok ⟨seq, [⟨sampleKey 1, 0, BitVec.ofNat 64 (n + 1)⟩]⟩ :=
  applyIntent_eq_ok.mpr ⟨Nat.zero_le _, playOn_restMove h, rfl⟩

/-- Induction on the length of the queue: each move is the next one of the same player. -/
theorem applyIntents_restMoves (n : Nat) (h : n + 1 < 2 ^ 64) :
    GameState.empty.applyIntents ((List.range (n + 1)).map restMove) =
      .ok ⟨0, [⟨sampleKey 1, 0, BitVec.ofNat 64 (n + 1)⟩]⟩ := by
  induction n with
  | zero => rfl
  | succ n ih =>
    rw [List.range_succ, List.map_append]
    exact applyIntents_append.mpr
      ⟨_, ih (by omega), applyIntents_singleton.mpr (applyIntent_restMove h)⟩

/-- Any number of moves of zero points leaves one entry, with their number as its nonce. -/
theorem applyBatch_restMoves (n : Nat) (h : n + 1 < 2 ^ 64) :
    GameState.empty.applyBatch ((List.range (n + 1)).map restMove) =
      .ok (longTransition (n + 1)).nextState := by
  refine applyBatch_eq_ok.mpr ⟨applyIntents_restMoves n h, ?_⟩
  rw [List.length_map, List.length_range]
  show 0 + _ = _
  rw [Nat.zero_add]
  rfl

/-- The operator takes one more move of zero points. -/
theorem submit_restMove (k : Nat) (h : k + 1 < 2 ^ 64) :
    (GameOperator.submit (restMove k)).call (longOperator k) = (.ok (), longOperator (k + 1)) := by
  have henqueue : (longOperator k).enqueue (restMove k) = longOperator (k + 1) := by
    unfold GameOperator.enqueue longOperator
    rw [List.range_succ, List.map_append]
    rfl
  rw [← henqueue]
  cases k with
  | zero => exact GameOperator.submit_accepted (applyBatch_nil _) rfl
  | succ k =>
    exact GameOperator.submit_accepted (applyBatch_restMoves k (by omega)) (applyIntent_restMove h)

/-- The transition of a queue of moves of zero points. -/
theorem buildTransition_long (n : Nat) (h : n + 1 < 2 ^ 64) :
    (longOperator (n + 1)).buildTransition .sample = .ok (longTransition (n + 1)) := by
  refine GameOperator.buildTransition_eq_ok.mpr ⟨?_, applyBatch_restMoves n h, rfl, rfl, rfl, ?_⟩
  · show (List.range (n + 1)).map restMove ≠ []
    simp
  · show n + 1 = ((List.range (n + 1)).map restMove).length
    rw [List.length_map, List.length_range]

theorem resolves_long (n : Nat) :
    Resolves (longOperator n) sampleGame (longTransition n)
      ((longOperator n).resolved (longTransition n) (gameCell [])) (gameCell []) :=
  ⟨rfl, rfl, rfl, rfl, rfl, rfl⟩

theorem signed_long (n : Nat) :
    ∀ i ∈ (longOperator n).mempool, SignedFor .sample (longOperator n).gameId i := by
  intro i hi
  obtain ⟨k, -, rfl⟩ := List.mem_map.mp hi
  rfl

/-- A queue of `2 ^ 16` moves is built and refused: its count does not fit two bytes. -/
theorem not_verify_long {n : Nat} (hlong : 2 ^ 16 ≤ n) (h : n < 2 ^ 64) :
    (longOperator n).buildTransition .sample = .ok (longTransition n) ∧
      verify .sample (.ofType .sample
        ((longOperator n).resolved (longTransition n) (gameCell [])) sampleGame) ≠ .ok () := by
  obtain ⟨m, rfl⟩ : ∃ m, n = m + 1 := ⟨n - 1, by omega⟩
  have hbuild := buildTransition_long m h
  refine ⟨hbuild, fun hok => ?_⟩
  have hiff := (resolves_long (m + 1)).verify_iff (Platform.readsWitnesses_molecule _ _) hbuild
    (signed_long (m + 1))
  have hlen : ((List.range (m + 1)).map restMove).length < 2 ^ 16 := (hiff.mp hok).1
  rw [List.length_map, List.length_range] at hlen
  omega

/-- 65536 moves are submitted and built into a transition that the type script refuses. -/
theorem long_batch_refused :
    (∀ k < 2 ^ 16, (GameOperator.submit (restMove k)).call (longOperator k) =
      (.ok (), longOperator (k + 1))) ∧
    (longOperator (2 ^ 16)).buildTransition .sample = .ok (longTransition (2 ^ 16)) ∧
    Resolves (longOperator (2 ^ 16)) sampleGame (longTransition (2 ^ 16))
      ((longOperator (2 ^ 16)).resolved (longTransition (2 ^ 16)) (gameCell [])) (gameCell []) ∧
    (∀ i ∈ (longOperator (2 ^ 16)).mempool,
      SignedFor .sample (longOperator (2 ^ 16)).gameId i) ∧
    verify .sample (.ofType .sample
      ((longOperator (2 ^ 16)).resolved (longTransition (2 ^ 16)) (gameCell [])) sampleGame) ≠
        .ok () := by
  obtain ⟨hbuild, hrefused⟩ := @not_verify_long (2 ^ 16) (Nat.le_refl _) (by decide)
  exact ⟨fun k hk => submit_restMove k (by omega), hbuild, resolves_long _, signed_long _, hrefused⟩

theorem transition_accepted_iff_two_moves :
    (verify .sample (.ofType .sample
        ((longOperator 2).resolved (longTransition 2) (gameCell [])) sampleGame) = .ok () ↔
      (longOperator 2).mempool.length < 2 ^ 16 ∧
        (longOperator 2).tip.state.players.length +
          (newcomers (longOperator 2).tip.state.players (longOperator 2).mempool).card < 2 ^ 32) ∧
    ((loadBatch .sample (.ofType .sample
        ((longOperator 2).resolved (longTransition 2) (gameCell [])) sampleGame) =
          .ok (longOperator 2).mempool ∧
        ∃ data s out, ((longOperator 2).resolved (longTransition 2)
            (gameCell [])).tx.raw.outputsData[0]? = some data ∧ GameState.decode data = .ok out ∧
          (longOperator 2).tip.state.applyBatch (longOperator 2).mempool = .ok s ∧
          s.equalsUnordered out = true) ↔
      (longOperator 2).mempool.length < 2 ^ 16 ∧
        (longOperator 2).tip.state.players.length +
          (newcomers (longOperator 2).tip.state.players (longOperator 2).mempool).card < 2 ^ 32) :=
  transition_accepted_iff .sample (Platform.readsWitnesses_molecule _ _) (longOperator 2) sampleGame
    (longTransition 2) _ (gameCell []) (resolves_long 2) (buildTransition_long 1 (by decide))
    (signed_long 2)

end CkbController.PaymasterService
