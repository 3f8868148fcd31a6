import CkbController.Ckb.Transaction
import Mathlib.Data.List.Infix

/-!
# What a running script can read

A script runs in CKB-VM over a resolved transaction: every input and header dep has been looked
up by the node before any script starts. The `load_*` functions are the `ckb-std` syscalls the
scripts of this repository use, with the `SysError` each one returns. A script also sees its
*group*: the inputs (and, for a type script, the outputs) that carry the same script hash.
-/

namespace CkbController

open ByteCodec

inductive SysError where
  | indexOutOfBound
  | itemMissing
  | lengthNotEnough
  | encoding
deriving DecidableEq, Repr

/-- A transaction with its inputs and header deps resolved. The three side conditions are what
the node has checked before it runs a script. -/
structure ResolvedTx where
  tx : Transaction
  inputCells : List Cell
  headers : List Header
  inputs_resolved : inputCells.length = tx.raw.inputs.length
  headers_resolved : headers.map Header.hash = tx.raw.headerDeps
  outputs_paired : tx.raw.outputsData.length = tx.raw.outputs.length

def ResolvedTx.outputCells (rtx : ResolvedTx) : List Cell :=
  List.zipWith Cell.mk rtx.tx.raw.outputs rtx.tx.raw.outputsData

/-- The transaction that spends `inputs` and creates `outputs`, with its inputs resolved. -/
def ResolvedTx.ofCells (inputs : List (OutPoint × Cell)) (outputs : List Cell)
    (headers : List Header) (witnesses : List Bytes) : ResolvedTx where
  tx :=
    { raw :=
        { version := 0
          cellDeps := []
          headerDeps := headers.map Header.hash
          inputs := inputs.map fun i => { since := 0, previousOutput := i.1 }
          outputs := outputs.map Cell.output
          outputsData := outputs.map Cell.data }
      witnesses }
  inputCells := inputs.map Prod.snd
  headers
  inputs_resolved := by simp
  headers_resolved := rfl
  outputs_paired := by simp

/-- The outputs are the cells given. -/
@[simp] theorem ResolvedTx.outputCells_ofCells (inputs : List (OutPoint × Cell))
    (outputs : List Cell) (headers : List Header) (witnesses : List Bytes) :
    (ResolvedTx.ofCells inputs outputs headers witnesses).outputCells = outputs := by
  show List.zipWith Cell.mk (outputs.map Cell.output) (outputs.map Cell.data) = outputs
  rw [List.zipWith_map, List.zipWith_self]
  exact List.map_id outputs

/-- The environment of one script run: the transaction, the script, and the indices of the
inputs and outputs in its group. -/
structure Vm where
  rtx : ResolvedTx
  script : Script
  groupInputs : List Nat
  groupOutputs : List Nat
  groupInputs_lt : ∀ i ∈ groupInputs, i < rtx.inputCells.length
  groupOutputs_lt : ∀ i ∈ groupOutputs, i < rtx.outputCells.length

namespace Vm

variable (P : Platform) (vm : Vm)

/-! ## Cells and headers -/

def groupInputCells : List Cell := vm.groupInputs.filterMap (vm.rtx.inputCells[·]?)

def groupOutputCells : List Cell := vm.groupOutputs.filterMap (vm.rtx.outputCells[·]?)

/-- `load_input_since(i, Source::GroupInput)`. -/
def loadGroupInputSince (i : Nat) : Except SysError U64 :=
  match vm.groupInputs[i]? with
  | none => .error .indexOutOfBound
  | some k =>
    match vm.rtx.tx.raw.inputs[k]? with
    | none => .error .indexOutOfBound
    | some input => .ok input.since

/-- `load_cell_data(i, Source::GroupInput)`. -/
def loadGroupInputData (i : Nat) : Except SysError Bytes :=
  match vm.groupInputCells[i]? with
  | none => .error .indexOutOfBound
  | some c => .ok c.data

/-- `load_cell_data(i, Source::GroupOutput)`. -/
def loadGroupOutputData (i : Nat) : Except SysError Bytes :=
  match vm.groupOutputCells[i]? with
  | none => .error .indexOutOfBound
  | some c => .ok c.data

/-- `load_header(i, Source::HeaderDep)`. -/
def loadHeader (i : Nat) : Except SysError Header :=
  match vm.rtx.headers[i]? with
  | none => .error .indexOutOfBound
  | some h => .ok h

/-- `load_witness_args` at an absolute input index: the witness must exist and parse. -/
def loadWitnessArgs (i : Nat) : Except SysError WitnessArgs :=
  match vm.rtx.tx.witnesses[i]? with
  | none => .error .indexOutOfBound
  | some w =>
    match P.witnessArgsFromSlice w with
    | none => .error .encoding
    | some wa => .ok wa

/-- `load_witness_args(i, Source::GroupInput)`. -/
def loadGroupWitnessArgs (i : Nat) : Except SysError WitnessArgs :=
  match vm.groupInputs[i]? with
  | none => .error .indexOutOfBound
  | some k => vm.loadWitnessArgs P k

/-- Every input of the group has a cell. -/
theorem length_groupInputCells : vm.groupInputCells.length = vm.groupInputs.length := by
  unfold groupInputCells
  generalize hg : vm.groupInputs = is
  have hlt : ∀ i ∈ is, i < vm.rtx.inputCells.length := hg ▸ vm.groupInputs_lt
  clear hg
  induction is with
  | nil => rfl
  | cons i is ih =>
    rw [List.filterMap_cons_some (List.getElem?_eq_getElem (hlt i List.mem_cons_self)),
      List.length_cons, List.length_cons, ih fun j hj => hlt j (List.mem_cons_of_mem i hj)]

/-- The syscall fails past the end of the group only, which is how scripts count it. -/
theorem loadGroupInputSince_isOk (i : Nat) :
    (vm.loadGroupInputSince i).isOk = true ↔ i < vm.groupInputs.length := by
  unfold loadGroupInputSince
  rcases Nat.lt_or_ge i vm.groupInputs.length with hi | hi
  · have hk : vm.groupInputs[i] < vm.rtx.tx.raw.inputs.length :=
      vm.rtx.inputs_resolved ▸ vm.groupInputs_lt _ (List.getElem_mem hi)
    rw [List.getElem?_eq_getElem hi]
    simp only [List.getElem?_eq_getElem hk]
    exact iff_of_true rfl hi
  · rw [List.getElem?_eq_none hi]
    exact iff_of_false Bool.false_ne_true (by omega)

/-- The data is that of the cell. -/
theorem loadGroupInputData_eq_ok {i : Nat} {d : Bytes} :
    vm.loadGroupInputData i = .ok d ↔ ∃ c, vm.groupInputCells[i]? = some c ∧ c.data = d := by
  unfold loadGroupInputData
  cases vm.groupInputCells[i]? <;> simp

/-- A header is read from the header deps, in their order. -/
theorem loadHeader_eq_ok {i : Nat} {h : Header} :
    vm.loadHeader i = .ok h ↔ vm.rtx.headers[i]? = some h := by
  unfold loadHeader
  cases vm.rtx.headers[i]? <;> simp

/-- A witness is read at the index of its input, and has to parse. -/
theorem loadGroupWitnessArgs_eq_ok {i : Nat} {wa : WitnessArgs} :
    vm.loadGroupWitnessArgs P i = .ok wa ↔
      ∃ k w, vm.groupInputs[i]? = some k ∧ vm.rtx.tx.witnesses[k]? = some w ∧
        P.witnessArgsFromSlice w = some wa := by
  unfold loadGroupWitnessArgs loadWitnessArgs
  cases hk : vm.groupInputs[i]? with
  | none => simp
  | some k =>
    cases hw : vm.rtx.tx.witnesses[k]? with
    | none => simp [hw]
    | some w => cases hp : P.witnessArgsFromSlice w <;> simp [hw, hp]

/-! ## Script groups

The node forms a lock's group from the inputs whose lock hash is the script's hash, and a type
script's group from the inputs and outputs whose type hash is. -/

/-- The positions of the cells of a kind. -/
def indicesOf (p : Cell → Bool) (cells : List Cell) : List Nat :=
  (List.range cells.length).filter fun i => (cells[i]?).any p

/-- A group has indices of its transaction only. -/
theorem lt_of_mem_indicesOf {p : Cell → Bool} {cells : List Cell} {i : Nat}
    (h : i ∈ indicesOf p cells) : i < cells.length :=
  List.mem_range.mp (List.mem_of_mem_filter h)

/-- The run of a lock. -/
def ofLock (rtx : ResolvedTx) (lock : Script) : Vm where
  rtx := rtx
  script := lock
  groupInputs := indicesOf (fun c => P.scriptHash c.output.lock == P.scriptHash lock) rtx.inputCells
  groupOutputs := []
  groupInputs_lt := fun _ => lt_of_mem_indicesOf
  groupOutputs_lt := fun _ h => absurd h List.not_mem_nil

/-- The cell's type script has the hash of this one. -/
def carries (ty : Script) (c : Cell) : Bool :=
  c.output.type.any fun t => P.scriptHash t == P.scriptHash ty

/-- A cell carries its own type script. -/
theorem carries_of_type {P : Platform} {ty : Script} {c : Cell} (h : c.output.type = some ty) :
    carries P ty c = true := by
  unfold carries
  rw [h]
  exact beq_self_eq_true _

/-- A cell without a type script carries none. -/
theorem not_carries_of_untyped {P : Platform} {ty : Script} {c : Cell}
    (h : c.output.type = none) : carries P ty c = false := by
  unfold carries
  rw [h]
  rfl

/-- The run of a type script. -/
def ofType (rtx : ResolvedTx) (ty : Script) : Vm where
  rtx := rtx
  script := ty
  groupInputs := indicesOf (carries P ty) rtx.inputCells
  groupOutputs := indicesOf (carries P ty) rtx.outputCells
  groupInputs_lt := fun _ => lt_of_mem_indicesOf
  groupOutputs_lt := fun _ => lt_of_mem_indicesOf

/-- The cells at the indices of a kind are the cells of the kind, in order. -/
theorem filterMap_indicesOf (p : Cell → Bool) (cells : List Cell) :
    (indicesOf p cells).filterMap (cells[·]?) = cells.filter p := by
  unfold indicesOf
  induction cells using List.reverseRecOn with
  | nil => rfl
  | append_singleton cs c ih =>
    have hlow : ∀ i ∈ List.range cs.length, (cs ++ [c])[i]? = cs[i]? := by
      intro i hi
      exact List.getElem?_append_left (List.mem_range.mp hi)
    rw [List.length_append, List.length_singleton, List.range_succ, List.filter_append,
      List.filterMap_append, List.filter_append]
    congr 1
    · rw [← ih, List.filter_congr (fun i hi => by rw [hlow i hi])]
      exact List.filterMap_congr fun i hi => hlow i (List.mem_of_mem_filter hi)
    · by_cases hc : p c <;> simp [hc]

/-- The group of a lock is the inputs under its hash. -/
theorem groupInputCells_ofLock (rtx : ResolvedTx) (lock : Script) :
    (ofLock P rtx lock).groupInputCells =
      rtx.inputCells.filter fun c => P.scriptHash c.output.lock == P.scriptHash lock :=
  filterMap_indicesOf _ _

/-- The account is the only input of its group. -/
theorem groupInputCells_ofLock_single {rtx : ResolvedTx} {lock : Script} {account : Cell}
    {others : List Cell} (hcells : rtx.inputCells = account :: others)
    (hlock : account.output.lock = lock)
    (hothers : ∀ c ∈ others, P.scriptHash c.output.lock ≠ P.scriptHash lock) :
    (ofLock P rtx lock).groupInputCells = [account] := by
  rw [groupInputCells_ofLock, hcells, List.filter_cons_of_pos]
  · rw [List.filter_eq_nil_iff.mpr]
    intro c hc
    rw [beq_iff_eq]
    exact hothers c hc
  · rw [hlock, beq_self_eq_true]

/-- The input group of a type script is the inputs that carry it. -/
theorem groupInputCells_ofType (rtx : ResolvedTx) (ty : Script) :
    (ofType P rtx ty).groupInputCells = rtx.inputCells.filter (carries P ty) :=
  filterMap_indicesOf _ _

/-- The output group of a type script is the outputs that carry it. -/
theorem groupOutputCells_ofType (rtx : ResolvedTx) (ty : Script) :
    (ofType P rtx ty).groupOutputCells = rtx.outputCells.filter (carries P ty) :=
  filterMap_indicesOf _ _

end Vm

end CkbController
