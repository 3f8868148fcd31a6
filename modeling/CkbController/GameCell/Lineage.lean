import CkbController.Ckb.Encoding
import CkbController.GameCell.TypeScript
import CkbController.GameRules.Board

/-!
# The lineage of a game cell

A lineage starts at a genesis and follows one cell through transitions the type script accepts.
Its history is the concatenation of the batches. The operator chooses the batches, their
signatures aside, and the bytes of every output; the board is nevertheless the account of the
history, at every point of every lineage.
-/

namespace CkbController.GameCell

open ByteCodec Checks GameRules Sequenced

variable {P : Platform} {ty : Script}

/-- `Lineage P ty H c`: a chain of accepted transactions leads from a genesis to the cell `c`,
and its batches, in order, make up `H`. -/
inductive Lineage (P : Platform) (ty : Script) : List Intent → Cell → Prop where
  | genesis {rtx : ResolvedTx} {c : Cell}
      (accepted : verify P (.ofType P rtx ty) = .ok ())
      (inputs : (Vm.ofType P rtx ty).groupInputCells = [])
      (outputs : (Vm.ofType P rtx ty).groupOutputCells = [c]) : Lineage P ty [] c
  | transition {H batch : List Intent} {c c' : Cell} {rtx : ResolvedTx}
      (earlier : Lineage P ty H c)
      (accepted : verify P (.ofType P rtx ty) = .ok ())
      (inputs : (Vm.ofType P rtx ty).groupInputCells = [c])
      (outputs : (Vm.ofType P rtx ty).groupOutputCells = [c'])
      (loaded : loadBatch P (.ofType P rtx ty) = .ok batch) : Lineage P ty (H ++ batch) c'

/-- The cell's data is the board of the history, and every move of it is signed. -/
structure Accounts (P : Platform) (ty : Script) (H : List Intent) (c : Cell) : Prop where
  board : ∃ s, GameState.decode c.data = .ok s ∧ Board H s
  signed : ∀ i ∈ H, SignedFor P (gameIdOf ty) i

/-- A genesis has the board of an empty history. -/
theorem accounts_of_isGenesis {vm : Vm} {c : Cell} (h : IsGenesis vm c) : Accounts P ty [] c := by
  obtain ⟨s, hs, hseq, hplayers⟩ := h.empty
  refine ⟨⟨s, hs, ?_, ?_⟩, fun i hi => absurd hi List.not_mem_nil⟩
  · rw [hplayers]
    exact represents_nil
  · rw [hseq]
    rfl

/-- **One transition.** -/
theorem accounts_of_isTransition {rtx : ResolvedTx} {H batch : List Intent} {c c' : Cell}
    (hprev : Accounts P ty H c) (h : IsTransition P (.ofType P rtx ty) c c' batch) :
    Accounts P ty (H ++ batch) c' := by
  obtain ⟨s, hs, hboard⟩ := hprev.board
  obtain ⟨s₀, s', out, hs₀, hout, happly, heq⟩ := h.applied
  have hsame : s₀ = s := Except.ok.inj (hs₀.symm.trans hs)
  rw [hsame] at happly
  -- the batch came through `decodeBatch`, so its length fits in two bytes
  obtain ⟨gi, -, hload⟩ := bind_eq_ok.mp h.loaded
  obtain ⟨wa, -, hload⟩ := bind_eq_ok.mp hload
  obtain ⟨bytes, -, hload⟩ := bind_eq_ok.mp hload
  have hlen : batch.length < 2 ^ 16 := length_decodeBatch_lt (game_eq_ok.mp hload)
  have hboard' : Board (H ++ batch) s' := board_applyBatch hboard (by omega) happly
  refine ⟨⟨out, hout, hboard'.of_equalsUnordered heq⟩, ?_⟩
  intro i hi
  rcases List.mem_append.mp hi with hi | hi
  · exact hprev.signed i hi
  · exact h.signed i hi

/-- **Every lineage** accounts for its history. -/
theorem Lineage.accounts {H : List Intent} {c : Cell} (h : Lineage P ty H c) :
    Accounts P ty H c := by
  induction h with
  | @genesis rtx c accepted inputs outputs =>
    rcases verify_ok accepted with ⟨c₀, hgenesis⟩ | ⟨c₀, c', batch, htransition⟩
    · have hc : c = c₀ := List.singleton_inj.mp (outputs.symm.trans hgenesis.outputs)
      exact hc ▸ accounts_of_isGenesis hgenesis
    · have := htransition.inputs.symm.trans inputs
      cases this
  | @transition H batch c c' rtx earlier accepted inputs outputs loaded ih =>
    rcases verify_ok accepted with ⟨c₀, hgenesis⟩ | ⟨c₀, c₁, batch', htransition⟩
    · have := hgenesis.inputs.symm.trans inputs
      cases this
    · have hc : c₀ = c := List.singleton_inj.mp (htransition.inputs.symm.trans inputs)
      have hc' : c₁ = c' := List.singleton_inj.mp (htransition.outputs.symm.trans outputs)
      have hbatch : batch' = batch := Except.ok.inj (htransition.loaded.symm.trans loaded)
      subst hc hc' hbatch
      exact accounts_of_isTransition ih htransition

/-- **The lineage theorem.** Whatever the operator does, the last cell decodes to a board with
pairwise distinct players; each player's moves carry the nonces 1, 2, 3, … and at most the
allowed points, and its entry is their sum and their number; a player without moves has no entry;
`seq` counts the moves. No player's nonce is used twice, and every move is signed. -/
theorem lineage_board (P : Platform) (ty : Script) (H : List Intent) (c : Cell)
    (h : Lineage P ty H c) :
    ∃ s, GameState.decode c.data = .ok s ∧
      (s.players.map PlayerEntry.hash).Nodup ∧
      (∀ player, (movesOf H player).map (fun i => i.nonce.toNat) =
          List.range' 1 (movesOf H player).length ∧
        (∀ i ∈ movesOf H player, i.points.toNat ≤ maxPointsPerMove.toNat) ∧
        ((∃ p ∈ s.players, p.hash = player) ↔ movesOf H player ≠ []) ∧
        ∀ p ∈ s.players, p.hash = player → p.score.toNat = totalPoints (movesOf H player) ∧
          p.nonce.toNat = (movesOf H player).length) ∧
      s.seq.toNat = H.length ∧
      (H.map fun i => (i.hash, i.nonce)).Nodup ∧
      ∀ i ∈ H, SignedFor P (gameIdOf ty) i := by
  obtain ⟨⟨s, hs, hboard⟩, hsigned⟩ := h.accounts
  have hrep := hboard.players
  have hnodup : (H.map fun i => (i.hash, i.nonce)).Nodup :=
    hrep.inOrder.nodup_map (fun e => (e.1, e.2.toNat)) fun _ => rfl
  refine ⟨s, hs, hrep.distinct, ?_, hboard.seq, hnodup, hsigned⟩
  intro player
  refine ⟨hrep.inOrder player, ?_, hrep.exists_entry_iff player, ?_⟩
  · intro i hi
    exact hrep.capped i (List.mem_of_mem_filter hi)
  · rintro p hp rfl
    exact (hrep.entries p hp).2

/-! ### A game of two moves

The operator lists the two players in the opposite order. -/

def sampleGame : Script := ⟨sampleHash 20, 1, List.replicate 32 7⟩

def gameCell (data : Bytes) : Cell := ⟨⟨1000, sampleShop, some sampleGame⟩, data⟩

def sampleMoves : List Intent :=
  [⟨sampleKey 1, 10, 1, ⟨List.replicate 65 0, rfl⟩⟩,
    ⟨sampleKey 2, 20, 1, ⟨List.replicate 65 0, rfl⟩⟩]

def sampleBoard : GameState := ⟨2, [⟨sampleKey 2, 20, 1⟩, ⟨sampleKey 1, 10, 1⟩]⟩

def genesisTx (op : OutPoint) : ResolvedTx :=
  .ofCells [(op, ⟨⟨1000, sampleShop, none⟩, []⟩)] [gameCell []] [] []

def movesTx (op : OutPoint) : ResolvedTx :=
  .ofCells [(op, gameCell [])] [gameCell sampleBoard.encode] []
    [WitnessArgs.encode ⟨none, some (encodeBatch sampleMoves), none⟩]

def sampleOutPoint : OutPoint := ⟨sampleHash 0, 0⟩

theorem sampleMoves_lineage :
    Lineage .sample sampleGame sampleMoves (gameCell sampleBoard.encode) := by
  have hgenesis : Lineage .sample sampleGame [] (gameCell []) :=
    @Lineage.genesis _ _ (genesisTx sampleOutPoint) _ (eq_ok_of_isOk (by decide +kernel))
      (by decide +kernel) (by decide +kernel)
  exact @Lineage.transition _ _ _ _ _ _ (movesTx sampleOutPoint) hgenesis
    (eq_ok_of_isOk (by decide +kernel)) (by decide +kernel) (by decide +kernel)
    (eq_ok_of_toOption (by decide +kernel))

theorem lineage_board_sampleMoves :
    ∃ s, GameState.decode (gameCell sampleBoard.encode).data = .ok s ∧
      (s.players.map PlayerEntry.hash).Nodup ∧
      (∀ player, (movesOf sampleMoves player).map (fun i => i.nonce.toNat) =
          List.range' 1 (movesOf sampleMoves player).length ∧
        (∀ i ∈ movesOf sampleMoves player, i.points.toNat ≤ maxPointsPerMove.toNat) ∧
        ((∃ p ∈ s.players, p.hash = player) ↔ movesOf sampleMoves player ≠ []) ∧
        ∀ p ∈ s.players, p.hash = player →
          p.score.toNat = totalPoints (movesOf sampleMoves player) ∧
            p.nonce.toNat = (movesOf sampleMoves player).length) ∧
      s.seq.toNat = sampleMoves.length ∧
      (sampleMoves.map fun i => (i.hash, i.nonce)).Nodup ∧
      ∀ i ∈ sampleMoves, SignedFor .sample (gameIdOf sampleGame) i :=
  lineage_board .sample sampleGame sampleMoves _ sampleMoves_lineage

end CkbController.GameCell
