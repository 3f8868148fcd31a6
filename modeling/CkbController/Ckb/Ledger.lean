import CkbController.Lib.Trace
import CkbController.Lib.Utxo
import CkbController.Ckb.Vm

/-!
# The CKB ledger

The live cells of the chain, and how a resolved transaction changes them. The cells it creates
live at its own hash and their output index; that these out points are new is what the chain
guarantees of transaction hashes. Scripts are not mentioned here: a run of a system is a `Trace`
whose steps are `Commits` together with the acceptance of the scripts the system is about.
-/

namespace CkbController

open ByteCodec

abbrev Ledger := Utxo.Ledger OutPoint Cell

namespace ResolvedTx

variable (P : Platform) (rtx : ResolvedTx)

def spent : List (OutPoint × Cell) :=
  List.zip (rtx.tx.raw.inputs.map CellInput.previousOutput) rtx.inputCells

def created : List (OutPoint × Cell) :=
  rtx.outputCells.zipIdx.map fun e => (⟨P.txHash rtx.tx.raw, BitVec.ofNat 32 e.2⟩, e.1)

def Commits (L : Ledger) (L' : Ledger) : Prop :=
  Utxo.Commits L rtx.spent (rtx.created P) L'

/-- The cells that are spent are the resolved inputs. -/
theorem map_snd_spent : rtx.spent.map Prod.snd = rtx.inputCells := by
  unfold spent
  rw [List.map_snd_zip]
  rw [List.length_map, rtx.inputs_resolved]

/-- What is spent is what the inputs point at. -/
theorem map_fst_spent :
    rtx.spent.map Prod.fst = rtx.tx.raw.inputs.map CellInput.previousOutput := by
  unfold spent
  rw [List.map_fst_zip]
  rw [List.length_map, rtx.inputs_resolved]

/-- The cells that are created are the outputs. -/
theorem map_snd_created : (rtx.created P).map Prod.snd = rtx.outputCells := by
  unfold created
  rw [List.map_map]
  exact List.zipIdx_map_fst 0 _

/-- Every input cell is spent under an out point. -/
theorem exists_mem_spent {c : Cell} (h : c ∈ rtx.inputCells) : ∃ op, (op, c) ∈ rtx.spent := by
  rw [← rtx.map_snd_spent] at h
  obtain ⟨⟨op, d⟩, he, rfl⟩ := List.mem_map.mp h
  exact ⟨op, he⟩

/-- What is spent is an input. -/
theorem mem_inputCells {e : OutPoint × Cell} (h : e ∈ rtx.spent) : e.2 ∈ rtx.inputCells := by
  rw [← rtx.map_snd_spent]
  exact List.mem_map_of_mem h

/-- What is created is an output. -/
theorem mem_outputCells {e : OutPoint × Cell} (h : e ∈ rtx.created P) :
    e.2 ∈ rtx.outputCells := by
  rw [← rtx.map_snd_created P]
  exact List.mem_map_of_mem h

end ResolvedTx

def Ledger.ofList (cells : List (OutPoint × Cell)) : Ledger := fun op => cells.lookup op

end CkbController
