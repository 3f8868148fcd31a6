import CkbController.GameCell.Singleton
import CkbController.Lib.Oldest

/-!
# The game's code on the chain

A game is a type script, its code is shared by all games. The node runs the code for every cell
that has it for a type script, whatever the args, and it accepts args of 32 bytes only. So no live
cell has the code and longer args.

* `CodeStep` — one transaction that every script of the code accepts;
* `OnChain.step`, `onChain_of_run` — what such transactions keep.
-/

namespace CkbController

/-! ## Runs -/

namespace GameCell

open ByteCodec Checks GameRules Oldest

variable {P : Platform} {ty : Script} {rtx : ResolvedTx} {txs : List ResolvedTx}
  {C C' : Chain OutPoint Cell}

/-- The node runs `t` on the transaction. -/
def Runs (t : Script) (rtx : ResolvedTx) : Prop :=
  ∃ c ∈ rtx.inputCells ++ rtx.outputCells, c.output.type = some t

/-- One transaction by anybody. Every script of the code that the node runs accepts it, a game is
started only while it has no cell, and no other script has the hash of `ty`. -/
structure CodeStep (P : Platform) (ty : Script) (C : Chain OutPoint Cell) (rtx : ResolvedTx)
    (C' : Chain OutPoint Cell) : Prop where
  step : C.Step rtx.spent (rtx.created P) C'
  accepted : ∀ t : Script, ty.sameCode t = true → Runs t rtx →
    verify P (.ofType P rtx t) = .ok ()
  guard : CreatesGame P ty rtx → NoGameCell P ty C.cells
  genuine : ∀ c ∈ rtx.outputCells, Vm.carries P ty c = true → c.output.type = some ty

/-- No cell of this code is live. -/
def NoCode (ty : Script) (L : Ledger) : Prop :=
  ∀ op c t, L op = some c → c.output.type = some t → ¬ ty.sameCode t = true

/-- What holds of a chain on which the transactions have been settled. -/
structure OnChain (P : Platform) (ty : Script) (txs : List ResolvedTx) (C : Chain OutPoint Cell) :
    Prop where
  game : GameInv P ty (applied P ty txs) C.cells
  genuine : ∀ op c, C.cells op = some c → Vm.carries P ty c = true → c.output.type = some ty
  argsLen : ∀ op c t, C.cells op = some c → c.output.type = some t → ty.sameCode t = true →
    t.args.length = gameIdLen

/-- A chain without the game and its code. -/
theorem onChain_start (hstart : NoCode ty C.cells) (hgame : NoGameCell P ty C.cells) :
    OnChain P ty [] C where
  game := Or.inl ⟨rfl, hgame⟩
  genuine op c hlive hcarries := absurd hcarries (hgame op c hlive)
  argsLen op c t hlive htype hcode := absurd hcode (hstart op c t hlive htype)

/-- A transaction that touches the game is one that its script runs on. -/
theorem CodeStep.gameStep (hon : OnChain P ty txs C) (h : CodeStep P ty C rtx C') :
    GameStep P ty C.cells rtx C'.cells := by
  refine ⟨h.step.commits, fun htouches => h.accepted ty (Script.sameCode_self ty) ?_⟩
  rcases htouches with ⟨c, hc, hcarries⟩ | ⟨c, hc, hcarries⟩
  · obtain ⟨op, hop⟩ := rtx.exists_mem_spent hc
    exact ⟨c, List.mem_append_left _ hc,
      hon.genuine op c (h.step.commits.live_of_mem hop) hcarries⟩
  · exact ⟨c, List.mem_append_right _ hc, h.genuine c hc hcarries⟩

/-- What is created under the code has a game id for args: the code has accepted it. -/
theorem CodeStep.argsLen (h : CodeStep P ty C rtx C') {c : Cell} {t : Script}
    (hc : c ∈ rtx.outputCells) (htype : c.output.type = some t) (hcode : ty.sameCode t = true) :
    t.args.length = gameIdLen := by
  have hok := h.accepted t hcode ⟨c, List.mem_append_right _ hc, htype⟩
  exact not_not.mp (rejectIf_bind_eq_ok.mp hok).1

/-- **One transaction.** -/
theorem OnChain.step (hon : OnChain P ty txs C) (h : CodeStep P ty C rtx C') :
    OnChain P ty (txs ++ [rtx]) C' where
  game := by
    have happlied : applied P ty (txs ++ [rtx]) = applied P ty txs ++ appliedBy P ty rtx := by
      simp [applied]
    rw [happlied]
    exact gameInv_step hon.game ⟨h.gameStep hon, h.guard⟩
  genuine op c hlive hcarries := by
    rcases h.step.commits.live_iff.mp hlive with hnew | ⟨hold, -⟩
    · exact h.genuine c (rtx.mem_outputCells P hnew) hcarries
    · exact hon.genuine op c hold hcarries
  argsLen op c t hlive htype hcode := by
    rcases h.step.commits.live_iff.mp hlive with hnew | ⟨hold, -⟩
    · exact h.argsLen (rtx.mem_outputCells P hnew) htype hcode
    · exact hon.argsLen op c t hold htype hcode

/-- **Every run** from such a chain. -/
theorem onChain_of_run {start : Chain OutPoint Cell} (hstart : NoCode ty start.cells)
    (hgame : NoGameCell P ty start.cells) (run : Trace (CodeStep P ty) start txs C) :
    OnChain P ty txs C :=
  run.invariant (OnChain P ty) (onChain_start hstart hgame) fun _ _ _ _ hon h => hon.step h

/-- Nothing is played twice. -/
theorem OnChain.nodup_applied (hon : OnChain P ty txs C) :
    ((applied P ty txs).map fun i => (i.hash, i.points, i.nonce)).Nodup := by
  rcases hon.game with ⟨hempty, -⟩ | ⟨op, c, -, -, hlineage, -⟩
  · rw [hempty]
    exact List.nodup_nil
  · obtain ⟨⟨s, -, hboard⟩, -⟩ := hlineage.accounts
    exact hboard.players.inOrder.nodup_map (fun e => (e.1, e.2.2.toNat)) fun _ => rfl

/-- The live game cell has the board of all that was played. -/
theorem OnChain.accounts (hon : OnChain P ty txs C) {op : OutPoint} {c : Cell}
    (hlive : C.cells op = some c) (hcarries : Vm.carries P ty c = true) :
    Accounts P ty (applied P ty txs) c := by
  rcases hon.game with ⟨-, hnone⟩ | ⟨op₀, c₀, hlive₀, -, hlineage, hunique⟩
  · exact absurd hcarries (hnone op c hlive)
  · have hsame : op = op₀ := hunique op c hlive hcarries
    subst hsame
    obtain rfl : c₀ = c := Option.some.inj (hlive₀.symm.trans hlive)
    exact hlineage.accounts

end GameCell

end CkbController
