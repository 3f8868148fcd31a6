import CkbController.Ckb.Ledger
import CkbController.GameCell.Lineage

/-!
# The game on the ledger

The type script sees one transaction at a time. It accepts a genesis whenever no game cell is
among the inputs; whether another cell of the same game is live elsewhere it cannot know. So a
game id does not make a singleton by itself: anyone may start the game again, and an intent
signed for the game id can then be played once in each lineage.

* `GameInv` — the invariant of runs in which a genesis happens only while no game cell is live:
  there is none and nothing has been played, or there is exactly one and everything that was
  played is its lineage;
* `game_singleton` — in such runs the cell is unique and no intent is applied twice;
* `second_genesis` — two geneses, and one signed intent applied in both games.
-/

namespace CkbController.GameCell

open ByteCodec Checks GameRules Sequenced

variable {P : Platform} {ty : Script}

/-! ## Runs -/

def TouchesGame (P : Platform) (ty : Script) (rtx : ResolvedTx) : Prop :=
  (∃ c ∈ rtx.inputCells, Vm.carries P ty c = true) ∨ ∃ c ∈ rtx.outputCells, Vm.carries P ty c = true

/-- One transaction by anyone: the type script accepts if the transaction touches the game. -/
structure GameStep (P : Platform) (ty : Script) (L : Ledger) (rtx : ResolvedTx) (L' : Ledger) :
    Prop where
  commits : rtx.Commits P L L'
  accepted : TouchesGame P ty rtx → verify P (.ofType P rtx ty) = .ok ()

def NoGameCell (P : Platform) (ty : Script) (L : Ledger) : Prop :=
  ∀ op c, L op = some c → ¬ Vm.carries P ty c = true

def CreatesGame (P : Platform) (ty : Script) (rtx : ResolvedTx) : Prop :=
  (∃ c ∈ rtx.outputCells, Vm.carries P ty c = true) ∧
    ∀ c ∈ rtx.inputCells, ¬ Vm.carries P ty c = true

def GuardedStep (P : Platform) (ty : Script) (L : Ledger) (rtx : ResolvedTx) (L' : Ledger) :
    Prop :=
  GameStep P ty L rtx L' ∧ (CreatesGame P ty rtx → NoGameCell P ty L)

/-- The intents a transaction applies: the batch, if it spends a game cell. -/
def appliedBy (P : Platform) (ty : Script) (rtx : ResolvedTx) : List Intent :=
  if (Vm.ofType P rtx ty).groupInputCells = [] then []
  else (loadBatch P (.ofType P rtx ty)).toOption.getD []

def applied (P : Platform) (ty : Script) (txs : List ResolvedTx) : List Intent :=
  txs.flatMap (appliedBy P ty)

/-- No game cell is live and nothing has been played, or exactly one is live and its lineage is
what has been played. -/
def GameInv (P : Platform) (ty : Script) (H : List Intent) (L : Ledger) : Prop :=
  (H = [] ∧ NoGameCell P ty L) ∨
    ∃ op c, L op = some c ∧ Vm.carries P ty c = true ∧ Lineage P ty H c ∧
      ∀ op' c', L op' = some c' → Vm.carries P ty c' = true → op' = op

/-! ## The game cells of one transaction -/

/-- The game cells among what is created are the group outputs. -/
theorem filter_created (rtx : ResolvedTx) :
    ((rtx.created P).map Prod.snd).filter (Vm.carries P ty) =
      (Vm.ofType P rtx ty).groupOutputCells := by
  rw [rtx.map_snd_created, Vm.groupOutputCells_ofType]

/-- The one group output is created at some out point, and it is the only game cell created. -/
theorem exists_created {rtx : ResolvedTx} {c : Cell}
    (h : (Vm.ofType P rtx ty).groupOutputCells = [c]) :
    ∃ op, (op, c) ∈ rtx.created P ∧ Vm.carries P ty c = true ∧
      ∀ e ∈ rtx.created P, Vm.carries P ty e.2 = true → e = (op, c) := by
  rw [← filter_created] at h
  have hmem : c ∈ ((rtx.created P).map Prod.snd).filter (Vm.carries P ty) := by
    rw [h]
    exact List.mem_singleton_self c
  obtain ⟨hmem, hcarries⟩ := List.mem_filter.mp hmem
  obtain ⟨⟨op, d⟩, he, rfl⟩ := List.mem_map.mp hmem
  refine ⟨op, he, hcarries, fun e he' hcarries' => ?_⟩
  exact Utxo.eq_of_filter_eq_singleton h he' he hcarries' hcarries

/-- A group input is an input that carries the script. -/
theorem mem_groupInputCells {rtx : ResolvedTx} {c : Cell} :
    c ∈ (Vm.ofType P rtx ty).groupInputCells ↔
      c ∈ rtx.inputCells ∧ Vm.carries P ty c = true := by
  rw [Vm.groupInputCells_ofType, List.mem_filter]

/-- A group output is an output that carries the script. -/
theorem mem_groupOutputCells {rtx : ResolvedTx} {c : Cell} :
    c ∈ (Vm.ofType P rtx ty).groupOutputCells ↔
      c ∈ rtx.outputCells ∧ Vm.carries P ty c = true := by
  rw [Vm.groupOutputCells_ofType, List.mem_filter]

/-! ## The invariant -/

/-- A transaction that does not touch the game keeps the invariant. -/
theorem gameInv_of_not_touches {L L' : Ledger} {rtx : ResolvedTx} {H : List Intent}
    (hinv : GameInv P ty H L) (commits : rtx.Commits P L L') (hnot : ¬ TouchesGame P ty rtx) :
    GameInv P ty (H ++ appliedBy P ty rtx) L' := by
  have hins : ∀ c ∈ rtx.inputCells, ¬ Vm.carries P ty c = true :=
    fun c hc hcarries => hnot (Or.inl ⟨c, hc, hcarries⟩)
  have houts : ∀ c ∈ rtx.outputCells, ¬ Vm.carries P ty c = true :=
    fun c hc hcarries => hnot (Or.inr ⟨c, hc, hcarries⟩)
  have hnone : appliedBy P ty rtx = [] := by
    apply if_pos
    rw [Vm.groupInputCells_ofType, List.filter_eq_nil_iff]
    exact hins
  -- the live game cells are the same before and after
  have hold : ∀ op c, L' op = some c → Vm.carries P ty c = true → L op = some c := by
    intro op c hlive hcarries
    rcases commits.live_iff.mp hlive with hnew | ⟨hold, -⟩
    · exact absurd hcarries (houts c (rtx.mem_outputCells P hnew))
    · exact hold
  rw [hnone, List.append_nil]
  rcases hinv with ⟨hempty, hno⟩ | ⟨op, c, hlive, hcarries, hlineage, hunique⟩
  · exact Or.inl ⟨hempty, fun op c hlive hcarries => hno op c (hold op c hlive hcarries) hcarries⟩
  · refine Or.inr ⟨op, c, ?_, hcarries, hlineage, ?_⟩
    · refine commits.live_iff.mpr (Or.inr ⟨hlive, fun hspent => ?_⟩)
      obtain ⟨⟨op', d⟩, he, rfl⟩ := List.mem_map.mp hspent
      have hd : d = c := Option.some.inj ((commits.live_of_mem he).symm.trans hlive)
      exact hins d (rtx.mem_inputCells he) (hd ▸ hcarries)
    · intro op' c' hlive' hcarries'
      exact hunique op' c' (hold op' c' hlive' hcarries') hcarries'

/-- After a step that creates `c` as its only game cell and leaves no other one, `c` is the game
cell. -/
theorem gameInv_of_created {L L' : Ledger} {rtx : ResolvedTx} {H : List Intent} {c : Cell}
    (commits : rtx.Commits P L L') (houts : (Vm.ofType P rtx ty).groupOutputCells = [c])
    (hlineage : Lineage P ty H c)
    (hspent : ∀ op c', L op = some c' → Vm.carries P ty c' = true →
      op ∈ rtx.spent.map Prod.fst) : GameInv P ty H L' := by
  obtain ⟨op, hcreated, hcarries, hunique⟩ := exists_created houts
  refine Or.inr ⟨op, c, commits.live_iff.mpr (Or.inl hcreated), hcarries, hlineage, ?_⟩
  intro op' c' hlive' hcarries'
  rcases commits.live_iff.mp hlive' with hnew | ⟨hold, hkept⟩
  · exact congrArg Prod.fst (hunique (op', c') hnew hcarries')
  · exact absurd (hspent op' c' hold hcarries') hkept

/-- A genesis while no game cell is live starts the lineage. -/
theorem gameInv_genesis {L L' : Ledger} {rtx : ResolvedTx} {H : List Intent} {c : Cell}
    (hinv : GameInv P ty H L) (commits : rtx.Commits P L L')
    (hguard : CreatesGame P ty rtx → NoGameCell P ty L)
    (hok : verify P (.ofType P rtx ty) = .ok ()) (hgenesis : IsGenesis (.ofType P rtx ty) c) :
    GameInv P ty (H ++ appliedBy P ty rtx) L' := by
  have hnone : appliedBy P ty rtx = [] := if_pos hgenesis.inputs
  have hno : NoGameCell P ty L := by
    refine hguard ⟨⟨c, mem_groupOutputCells.mp ?_⟩, ?_⟩
    · rw [hgenesis.outputs]
      exact List.mem_singleton_self c
    · intro d hd hcarries
      have hmem := mem_groupInputCells.mpr ⟨hd, hcarries⟩
      rw [hgenesis.inputs] at hmem
      exact absurd hmem List.not_mem_nil
  -- nothing was live, so nothing has been played
  have hempty : H = [] := by
    rcases hinv with ⟨hempty, -⟩ | ⟨op, d, hlive, hcarries, -, -⟩
    · exact hempty
    · exact absurd hcarries (hno op d hlive)
  rw [hnone, hempty, List.append_nil]
  apply gameInv_of_created commits hgenesis.outputs
  · exact .genesis hok hgenesis.inputs hgenesis.outputs
  · intro op d hlive hcarries
    exact absurd hcarries (hno op d hlive)

/-- A transition spends the live game cell and continues its lineage. -/
theorem gameInv_transition {L L' : Ledger} {rtx : ResolvedTx} {H batch : List Intent}
    {c c' : Cell} (hinv : GameInv P ty H L) (commits : rtx.Commits P L L')
    (hok : verify P (.ofType P rtx ty) = .ok ())
    (htransition : IsTransition P (.ofType P rtx ty) c c' batch) :
    GameInv P ty (H ++ appliedBy P ty rtx) L' := by
  have hbatch : appliedBy P ty rtx = batch := by
    have hne : ¬ (Vm.ofType P rtx ty).groupInputCells = [] := by
      rw [htransition.inputs]
      exact List.cons_ne_nil _ _
    rw [appliedBy, if_neg hne, htransition.loaded]
    rfl
  have hin : c ∈ (Vm.ofType P rtx ty).groupInputCells := by
    rw [htransition.inputs]
    exact List.mem_singleton_self c
  obtain ⟨hmem, hcarries⟩ := mem_groupInputCells.mp hin
  -- the cell is spent from an out point that was live
  obtain ⟨op, hop⟩ := rtx.exists_mem_spent hmem
  have hlive : L op = some c := commits.live_of_mem hop
  rcases hinv with ⟨-, hno⟩ | ⟨op₀, c₀, hlive₀, -, hlineage, hunique⟩
  · exact absurd hcarries (hno op c hlive)
  · -- the spent game cell is the live one
    have hop₀ : op = op₀ := hunique op c hlive hcarries
    have hc₀ : c₀ = c := Option.some.inj (hlive₀.symm.trans (hop₀ ▸ hlive))
    subst hc₀
    rw [hbatch]
    apply gameInv_of_created commits htransition.outputs
    · exact .transition hlineage hok htransition.inputs htransition.outputs htransition.loaded
    · intro op' c' hlive' hcarries'
      rw [hunique op' c' hlive' hcarries', ← hop₀]
      exact List.mem_map.mpr ⟨_, hop, rfl⟩

/-- **One step.** A genesis starts the lineage, a transition continues it. -/
theorem gameInv_step {L L' : Ledger} {rtx : ResolvedTx} {H : List Intent}
    (hinv : GameInv P ty H L) (step : GuardedStep P ty L rtx L') :
    GameInv P ty (H ++ appliedBy P ty rtx) L' := by
  obtain ⟨⟨commits, haccepted⟩, hguard⟩ := step
  by_cases htouches : TouchesGame P ty rtx
  · have hok := haccepted htouches
    rcases verify_ok hok with ⟨c, hgenesis⟩ | ⟨c, c', batch, htransition⟩
    · exact gameInv_genesis hinv commits hguard hok hgenesis
    · exact gameInv_transition hinv commits hok htransition
  · exact gameInv_of_not_touches hinv commits htouches

/-- **Singleton and anti-replay, in runs with one genesis at a time.** At most one live cell
carries the type script, and no signed intent is applied twice. -/
theorem game_singleton (P : Platform) (ty : Script) (L₀ L : Ledger) (txs : List ResolvedTx)
    (hstart : NoGameCell P ty L₀) (run : Trace (GuardedStep P ty) L₀ txs L) :
    Utxo.AtMostOne (fun c => Vm.carries P ty c = true) L ∧
      ((applied P ty txs).map fun i => (i.hash, i.points, i.nonce)).Nodup := by
  have hinv : GameInv P ty (applied P ty txs) L := by
    refine run.invariant (fun txs L => GameInv P ty (applied P ty txs) L) ?_ ?_
    · exact Or.inl ⟨rfl, hstart⟩
    · intro txs L rtx L' hinv step
      have happlied : applied P ty (txs ++ [rtx]) = applied P ty txs ++ appliedBy P ty rtx := by
        simp [applied]
      rw [happlied]
      exact gameInv_step hinv step
  rcases hinv with ⟨hempty, hno⟩ | ⟨op, c, -, -, hlineage, hunique⟩
  · refine ⟨fun i j c d hi _ hc _ => absurd hc (hno i c hi), ?_⟩
    rw [hempty]
    exact List.nodup_nil
  · refine ⟨fun i j c d hi hj hc hd => (hunique i c hi hc).trans (hunique j d hj hd).symm, ?_⟩
    obtain ⟨⟨s, -, hboard⟩, -⟩ := hlineage.accounts
    exact hboard.players.inOrder.nodup_map (fun e => (e.1, e.2.2.toNat)) fun _ => rfl

/-! ### A second genesis

Two parties create a cell of the same game, one after the other. The operator of each plays the
same signed moves. -/

def plainCell : Cell := ⟨⟨1000, sampleShop, none⟩, []⟩
def otherOutPoint : OutPoint := ⟨sampleHash 0, 1⟩
def plainLedger : Ledger := .ofList [(sampleOutPoint, plainCell), (otherOutPoint, plainCell)]

def genesisA : ResolvedTx := genesisTx sampleOutPoint
def genesisB : ResolvedTx := genesisTx otherOutPoint

def gameA : OutPoint := ⟨Platform.sample.txHash genesisA.tx.raw, 0⟩
def gameB : OutPoint := ⟨Platform.sample.txHash genesisB.tx.raw, 0⟩

def movesA : ResolvedTx := movesTx gameA
def movesB : ResolvedTx := movesTx gameB

def next (L : Ledger) (rtx : ResolvedTx) : Ledger :=
  Utxo.settle L rtx.spent (rtx.created .sample)

theorem genesisA_step : GameStep .sample sampleGame plainLedger genesisA
    (next plainLedger genesisA) where
  commits := ⟨by decide +kernel, by decide +kernel, by decide +kernel, by decide +kernel, rfl⟩
  accepted := fun _ => eq_ok_of_isOk (by decide +kernel)

theorem genesisB_step : GameStep .sample sampleGame (next plainLedger genesisA) genesisB
    (next (next plainLedger genesisA) genesisB) where
  commits := ⟨by decide +kernel, by decide +kernel, by decide +kernel, by decide +kernel, rfl⟩
  accepted := fun _ => eq_ok_of_isOk (by decide +kernel)

theorem movesA_step : GameStep .sample sampleGame (next (next plainLedger genesisA) genesisB)
    movesA (next (next (next plainLedger genesisA) genesisB) movesA) where
  commits := ⟨by decide +kernel, by decide +kernel, by decide +kernel, by decide +kernel, rfl⟩
  accepted := fun _ => eq_ok_of_isOk (by decide +kernel)

theorem movesB_step : GameStep .sample sampleGame
    (next (next (next plainLedger genesisA) genesisB) movesA) movesB
    (next (next (next (next plainLedger genesisA) genesisB) movesA) movesB) where
  commits := ⟨by decide +kernel, by decide +kernel, by decide +kernel, by decide +kernel, rfl⟩
  accepted := fun _ => eq_ok_of_isOk (by decide +kernel)

theorem plainLedger_noGameCell : NoGameCell .sample sampleGame plainLedger := by
  intro op c hlive
  have hmem := (Utxo.lookup_eq_some_iff (by decide)).mp hlive
  have hplain : c = plainCell := by
    rcases List.mem_cons.mp hmem with heq | hmem
    · exact congrArg Prod.snd heq
    · exact congrArg Prod.snd (List.mem_singleton.mp hmem)
  rw [hplain]
  decide

/-- **A game id is not a singleton.** After two geneses two cells carry the type script, and the
same signed intents are applied in both games. -/
theorem second_genesis :
    NoGameCell .sample sampleGame plainLedger ∧
    (∃ L, Trace (GameStep .sample sampleGame) plainLedger [genesisA, genesisB] L ∧
      ¬ Utxo.AtMostOne (fun c => Vm.carries .sample sampleGame c = true) L) ∧
    (∃ L, Trace (GameStep .sample sampleGame) plainLedger [genesisA, genesisB, movesA, movesB] L ∧
      ¬ ((applied .sample sampleGame [genesisA, genesisB, movesA, movesB]).map
        fun i => (i.hash, i.points, i.nonce)).Nodup) := by
  have htwo := (Trace.single genesisA_step).snoc genesisB_step
  refine ⟨plainLedger_noGameCell, ⟨_, htwo, ?_⟩, ⟨_, (htwo.snoc movesA_step).snoc movesB_step, ?_⟩⟩
  · intro hone
    have hsame : gameA = gameB :=
      hone gameA gameB (gameCell []) (gameCell []) (by decide +kernel) (by decide +kernel)
        (by decide +kernel) (by decide +kernel)
    exact absurd hsame (by decide +kernel)
  · decide +kernel

theorem game_singleton_one_game :
    Utxo.AtMostOne (fun c => Vm.carries .sample sampleGame c = true)
        (next (next plainLedger genesisA) movesA) ∧
      ((applied .sample sampleGame [genesisA, movesA]).map
        fun i => (i.hash, i.points, i.nonce)).Nodup := by
  have hmoves : GameStep .sample sampleGame (next plainLedger genesisA) movesA
      (next (next plainLedger genesisA) movesA) := by
    refine ⟨⟨?_, ?_, ?_, ?_, rfl⟩, fun _ => eq_ok_of_isOk (by decide +kernel)⟩ <;>
      decide +kernel
  have hnot : ¬ CreatesGame .sample sampleGame movesA := by
    intro hcreates
    exact hcreates.2 (gameCell []) (by decide +kernel) (by decide +kernel)
  have hrun : Trace (GuardedStep .sample sampleGame) plainLedger [genesisA, movesA]
      (next (next plainLedger genesisA) movesA) :=
    (Trace.single ⟨genesisA_step, fun _ => plainLedger_noGameCell⟩).snoc
      ⟨hmoves, fun hcreates => absurd hcreates hnot⟩
  exact game_singleton .sample sampleGame plainLedger _ _ plainLedger_noGameCell hrun

end CkbController.GameCell
