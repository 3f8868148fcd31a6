import CkbController.Cli.AccountAcceptance
import CkbController.GameCell.Descent
import CkbController.GameCell.OnChain
import CkbController.Wasm.GameBindings

/-!
# The game cell from the command line

`game grow` of `cli/commands/game.mjs`. It tops the game cell up with a transition that plays
nothing; the second input is a plain cell, so that a live code cell is never spent.

* `game_grow_accepted` — what `game grow` sends is accepted, keeps the board and costs the fee.

A thrown error is `none`, as in the account commands.
-/

namespace CkbController.Cli

open ByteCodec Checks GameRules GameCell Wasm

/-! ## The configuration -/

/-- What the manifest and the config say of the game. -/
structure GameSection where
  codeHash : Option Byte32
  dep : Option OutPoint
  gameId : Bytes

/-- `data2`. -/
def hashTypeData2 : UInt8 := 4

def GameSection.typeScript (g : GameSection) (codeHash : Byte32) : Script :=
  ⟨codeHash, hashTypeData2, g.gameId⟩

/-- `client.findCellsByType`, in the order the indexer lists the cells. -/
abbrev FindCellsByType := Script → List LiveCell

/-- `signer.sendTransaction` up to the broadcast: it writes signatures into the witnesses. -/
abbrev SignTransaction := Transaction → Option Transaction

/-- Plain cells only: no data, no type. -/
def isPlain (c : LiveCell) : Bool := c.cell.data = [] ∧ c.cell.output.type = none

/-! ## `game grow` -/

section Grow

variable (P : Platform) (net : Network) (g : GameSection) (findByType : FindCellsByType)
  (find : FindCells) (sign : SignTransaction)

/-- The game cell and a paying cell in, the bigger game cell and the change out. The batch in the
witness is the empty one. -/
def growTx (GROW : Int) : Option Transaction := do
  let typeScript := g.typeScript (← g.codeHash)
  let cell ← (findByType typeScript).head?
  -- `JSON.parse(wasm.game_decode_state(cell.outputData))`: a board that does not decode throws
  let _ ← (← gameDecodeState (hexout cell.cell.data)).toOption
  let need := GROW + 6200000000 + FEE
  let feeCell ← (find net.sighashLock).find? (pays need)
  let gameDep ← g.dep
  let authDep ← net.authDep
  let grown ← toCapacity (cell.capacity + GROW)
  let change ← toCapacity (feeCell.capacity - GROW - FEE)
  pure
    { raw :=
        { version := 0
          cellDeps := [⟨gameDep, 0⟩, ⟨authDep, 0⟩]
          headerDeps := []
          inputs := [input cell, input feeCell]
          outputs := [{ cell.cell.output with capacity := grown }, output net.sighashLock change]
          outputsData := [cell.cell.data, []] }
      witnesses := [P.witnessArgsSlice ⟨none, some [0, 0], none⟩, []] }

def gameGrow (GROW : Int) : Option Transaction := do sign (← growTx P net g findByType find GROW)

end Grow

/-! ## What the libraries promise -/

/-- What the indexer lists under a type script is on the chain and carries it. -/
structure IndexedByType (chain : OutPoint → Option Cell) (findByType : FindCellsByType) :
    Prop where
  live : ∀ ty, ∀ c ∈ findByType ty, chain c.outPoint = some c.cell
  typed : ∀ ty, ∀ c ∈ findByType ty, c.cell.output.type = some ty

/-- The signer adds cell deps of its own, and signs by filling the lock fields of witnesses that
have none. -/
structure Signs (P : Platform) (sign : SignTransaction) : Prop where
  raw : ∀ tx signed, sign tx = some signed →
    ∃ deps, signed.raw = { tx.raw with cellDeps := deps }
  witness : ∀ tx signed, sign tx = some signed → ∀ (i : Nat) inputType outputType,
    tx.witnesses[i]? = some (P.witnessArgsSlice ⟨none, inputType, outputType⟩) →
    ∃ lock, (∀ bytes ∈ lock, bytes.length ≤ 65) ∧
      signed.witnesses[i]? = some (P.witnessArgsSlice ⟨lock, inputType, outputType⟩)

/-- A broadcast transaction as the node resolves it. -/
structure Resolved (chain : OutPoint → Option Cell) (tx : Transaction) (rtx : ResolvedTx) :
    Prop where
  sent : rtx.tx = tx
  inputs : rtx.inputCells.map some = tx.raw.inputs.map fun i => chain i.previousOutput

/-! ## What `game grow` sends -/

section GrowSpec

variable {P : Platform} {net : Network} {g : GameSection} {findByType : FindCellsByType}
  {find : FindCells} {sign : SignTransaction} {GROW : Int} {tx : Transaction}

/-- What it takes to get to the send step. -/
structure GrowSpec (P : Platform) (net : Network) (g : GameSection)
    (findByType : FindCellsByType) (find : FindCells) (GROW : Int) (tx : Transaction)
    (ty : Script) (cell feeCell : LiveCell) (grown change : U64) : Prop where
  typeScript : ∃ codeHash, g.codeHash = some codeHash ∧ ty = g.typeScript codeHash
  found : cell ∈ findByType ty
  board : ∃ s, GameState.decode cell.cell.data = .ok s
  paying : feeCell ∈ find net.sighashLock
  plain : feeCell.cell.data = [] ∧ feeCell.cell.output.type = none
  bigger : (grown.toNat : Int) = cell.capacity + GROW
  rest : (change.toNat : Int) = feeCell.capacity - GROW - FEE
  inputs : tx.raw.inputs = [input cell, input feeCell]
  outputs : tx.raw.outputs =
    [{ cell.cell.output with capacity := grown }, output net.sighashLock change]
  outputsData : tx.raw.outputsData = [cell.cell.data, []]
  witness : tx.witnesses[0]? = some (P.witnessArgsSlice ⟨none, some [0, 0], none⟩)

/-- A written transaction comes from one read of either kind, of the game cell and of the
capacity. -/
theorem growTx_eq_some (h : growTx P net g findByType find GROW = some tx) :
    ∃ ty cell feeCell grown change,
      GrowSpec P net g findByType find GROW tx ty cell feeCell grown change := by
  simp only [growTx, Option.bind_eq_bind, Option.bind_eq_some_iff] at h
  obtain ⟨codeHash, hcode, cell, hcell, result, hresult, board, hboard, feeCell, hfee, gameDep, -,
    authDep, -, grown, hgrown, change, hchange, h⟩ := h
  cases h
  have hpays := List.find?_some hfee
  simp only [pays, decide_eq_true_eq] at hpays
  -- a text was shown, so the board decodes
  have htext : gameDecodeState (hexout cell.cell.data) = some (.ok board) := by
    rw [hresult]
    cases result with
    | error e => cases hboard
    | ok text =>
      cases hboard
      rfl
  exact ⟨g.typeScript codeHash, cell, feeCell, grown, change,
    { typeScript := ⟨codeHash, hcode, rfl⟩
      found := List.mem_of_mem_head? hcell
      board := decode_of_gameDecodeState htext
      paying := List.mem_of_find?_eq_some hfee
      plain := ⟨hpays.1, hpays.2.1⟩
      bigger := toCapacity_eq_some hgrown
      rest := toCapacity_eq_some hchange
      inputs := rfl
      outputs := rfl
      outputsData := rfl
      witness := rfl }⟩

variable {chain : OutPoint → Option Cell} {signed : Transaction} {rtx : ResolvedTx} {ty : Script}
  {cell feeCell : LiveCell} {grown change : U64}

/-- The bigger game cell. -/
def grownCell (cell : LiveCell) (grown : U64) : Cell :=
  ⟨{ cell.cell.output with capacity := grown }, cell.cell.data⟩

/-- The cells of the transaction, once it is signed and resolved. -/
theorem GrowSpec.cells (h : GrowSpec P net g findByType find GROW tx ty cell feeCell grown change)
    (htype : IndexedByType chain findByType) (hindexed : Indexed chain find)
    (hsigns : Signs P sign) (hsigned : sign tx = some signed) (hres : Resolved chain signed rtx) :
    rtx.inputCells = [cell.cell, feeCell.cell] ∧
      rtx.outputCells = [grownCell cell grown, ⟨output net.sighashLock change, []⟩] := by
  obtain ⟨deps, hraw⟩ := hsigns.raw _ _ hsigned
  have hin : signed.raw.inputs = [input cell, input feeCell] := by
    rw [hraw]
    exact h.inputs
  constructor
  · have hcells := hres.inputs
    rw [hin] at hcells
    have hlive : [input cell, input feeCell].map (fun i => chain i.previousOutput) =
        [cell.cell, feeCell.cell].map some := by
      show [chain cell.outPoint, chain feeCell.outPoint] = [some cell.cell, some feeCell.cell]
      rw [htype.live ty cell h.found, hindexed.live _ feeCell h.paying]
    exact List.map_injective_iff.mpr (Option.some_injective _) (hcells.trans hlive)
  · unfold ResolvedTx.outputCells
    rw [hres.sent, hraw]
    show List.zipWith Cell.mk tx.raw.outputs tx.raw.outputsData = _
    rw [h.outputs, h.outputsData]
    rfl

theorem encodeBatch_nil : encodeBatch [] = [0, 0] := rfl

/-- It advances the game cell by the empty batch. -/
theorem GrowSpec.advances
    (h : GrowSpec P net g findByType find GROW tx ty cell feeCell grown change)
    (htype : IndexedByType chain findByType) (hindexed : Indexed chain find)
    (hsigns : Signs P sign) (hsigned : sign tx = some signed) (hres : Resolved chain signed rtx) :
    ∃ lock, Advances P ty rtx cell.cell (grownCell cell grown) lock [] := by
  obtain ⟨hins, houts⟩ := h.cells htype hindexed hsigns hsigned hres
  have hgame : Vm.carries P ty cell.cell = true :=
    Vm.carries_of_type (htype.typed ty cell h.found)
  have hgrown : Vm.carries P ty (grownCell cell grown) = true :=
    Vm.carries_of_type (htype.typed ty cell h.found)
  have hfee : Vm.carries P ty feeCell.cell = false := Vm.not_carries_of_untyped h.plain.2
  have hchange : Vm.carries P ty ⟨output net.sighashLock change, []⟩ = false :=
    Vm.not_carries_of_untyped rfl
  obtain ⟨lock, hsmall, hslot⟩ := hsigns.witness _ _ hsigned 0 (some [0, 0]) none h.witness
  refine ⟨lock, ?_, ?_, ⟨0, ?_, ?_⟩, hsmall⟩
  · rw [Vm.groupInputCells_ofType, hins, List.filter_cons_of_pos hgame,
      List.filter_cons_of_neg (by rw [hfee]; exact Bool.false_ne_true), List.filter_nil]
  · rw [Vm.groupOutputCells_ofType, houts, List.filter_cons_of_pos hgrown,
      List.filter_cons_of_neg (by rw [hchange]; exact Bool.false_ne_true), List.filter_nil]
  · show rtx.inputCells.findIdx? (Vm.carries P ty) = some 0
    rw [hins, List.findIdx?_cons, hgame]
    rfl
  · rw [hres.sent, hslot, encodeBatch_nil]

end GrowSpec

/-- **What `game grow` sends is a transition that plays nothing.** For every game, every set of live
cells and every amount: a transaction that the command sends spends the game cell and one plain
cell, makes the game cell bigger by the amount with its lock, type script and board as they were,
gives the rest but the fee back, and is accepted by the type script if and only if the game id has
32 bytes. -/
theorem game_grow_accepted (P : Platform) (hread : P.ReadsWitnesses) (net : Network)
    (g : GameSection) (findByType : FindCellsByType) (find : FindCells) (sign : SignTransaction)
    (GROW : Int) (chain : OutPoint → Option Cell) (htype : IndexedByType chain findByType)
    (hindexed : Indexed chain find) (hsigns : Signs P sign) (signed : Transaction)
    (hsent : gameGrow P net g findByType find sign GROW = some signed) (rtx : ResolvedTx)
    (hres : Resolved chain signed rtx) :
    ∃ ty cell feeCell grown change, cell ∈ findByType ty ∧ feeCell ∈ find net.sighashLock ∧
      isPlain feeCell = true ∧ rtx.inputCells = [cell.cell, feeCell.cell] ∧
      rtx.outputCells = [grownCell cell grown, ⟨output net.sighashLock change, []⟩] ∧
      (grown.toNat : Int) = cell.capacity + GROW ∧
      (grown.toNat : Int) + change.toNat + FEE = cell.capacity + feeCell.capacity ∧
      (verify P (.ofType P rtx ty) = .ok () ↔ g.gameId.length = gameIdLen) ∧
      (g.gameId.length = gameIdLen → Descends P ty cell.cell [] (grownCell cell grown)) := by
  obtain ⟨tx, htx, hsigned⟩ := Option.bind_eq_some_iff.mp hsent
  obtain ⟨ty, cell, feeCell, grown, change, hspec⟩ := growTx_eq_some htx
  obtain ⟨hins, houts⟩ := hspec.cells htype hindexed hsigns hsigned hres
  obtain ⟨lock, hadv⟩ := hspec.advances htype hindexed hsigns hsigned hres
  obtain ⟨codeHash, -, hty⟩ := hspec.typeScript
  obtain ⟨s, hs⟩ := hspec.board
  have hargs : ty.args = g.gameId := by
    rw [hty]
    rfl
  have hbigger := hspec.bigger
  have hrest := hspec.rest
  have haccepted : verify P (.ofType P rtx ty) = .ok () ↔ g.gameId.length = gameIdLen := by
    constructor
    · intro hok
      rw [← hargs]
      exact not_not.mp (rejectIf_bind_eq_ok.mp hok).1
    · intro hlen
      refine (hadv.verify_iff hread (hargs.symm ▸ hlen)).mpr ⟨by decide, ?_, ?_⟩
      · exact fun i hi => absurd hi List.not_mem_nil
      · exact ⟨s, s, s, hs, hs, applyBatch_nil s,
          equalsUnordered_of_perm rfl (List.Perm.refl _)⟩
  refine ⟨ty, cell, feeCell, grown, change, hspec.found, hspec.paying, ?_, hins, houts, hbigger, ?_,
    haccepted, ?_⟩
  · simp [isPlain, hspec.plain]
  · omega
  · intro hlen
    exact .transition .refl (haccepted.mpr hlen) hadv.inputs hadv.outputs
      ((hadv.loadBatch_eq_ok hread).mpr ⟨by decide, rfl⟩)

/-! ### A cell of 1000 CKB gets 500 more -/

def demoGame : GameSection where
  codeHash := some (sampleHash 20)
  dep := some ⟨sampleHash 4, 0⟩
  gameId := List.replicate 32 7

def demoType : Script := ⟨sampleHash 20, hashTypeData2, List.replicate 32 7⟩

def demoGameCell : LiveCell :=
  ⟨⟨sampleHash 30, 0⟩, ⟨⟨100000000000, sampleShop, some demoType⟩, []⟩⟩

def demoFeeCell : LiveCell := ⟨⟨sampleHash 31, 0⟩, ⟨⟨200000000000, sampleShop, none⟩, []⟩⟩

def demoGameChain (op : OutPoint) : Option Cell :=
  if op = demoGameCell.outPoint then some demoGameCell.cell
  else if op = demoFeeCell.outPoint then some demoFeeCell.cell else none

def demoTyped : FindCellsByType := fun ty => if ty = demoType then [demoGameCell] else []

def demoOwned : FindCells := fun lock =>
  if lock = sampleShop then [demoGameCell, demoFeeCell] else []

/-- Fills the lock field of a witness that has none. -/
def fillLock (w : Bytes) : Bytes :=
  match WitnessArgs.decode w with
  | some ⟨none, inputType, outputType⟩ =>
    WitnessArgs.encode ⟨some sampleSig.toList, inputType, outputType⟩
  | _ => w

/-- Both inputs are under the one key, so the first witness takes the signature. -/
def demoSign : SignTransaction := fun tx => some
  { raw := { tx.raw with cellDeps := tx.raw.cellDeps ++ [⟨⟨sampleHash 32, 0⟩, 1⟩] }
    witnesses := tx.witnesses.modifyHead fillLock }

theorem readsWitnesses_sample : Platform.sample.ReadsWitnesses :=
  Platform.readsWitnesses_molecule _ _

theorem signs_demoSign : Signs .sample demoSign where
  raw tx signed h := by
    cases h
    exact ⟨_, rfl⟩
  witness tx signed h i inputType outputType hslot := by
    cases h
    rcases i with - | i
    · obtain ⟨rest, hrest⟩ : ∃ rest, tx.witnesses =
          WitnessArgs.encode ⟨none, inputType, outputType⟩ :: rest := by
        cases hw : tx.witnesses with
        | nil =>
          rw [hw] at hslot
          cases hslot
        | cons w rest =>
          rw [hw] at hslot
          exact ⟨rest, congrArg (· :: rest) (Option.some.inj hslot)⟩
      cases hread : WitnessArgs.decode (WitnessArgs.encode ⟨none, inputType, outputType⟩) with
      | none =>
        refine ⟨none, fun bytes hbytes => (by cases hbytes), ?_⟩
        simp only [hrest, fillLock, hread, List.modifyHead_cons]
        rfl
      | some wa =>
        -- what reads back is what was written
        obtain rfl := readsWitnesses_sample.faithful _ _ hread
        refine ⟨some sampleSig.toList, fun bytes hbytes => ?_, ?_⟩
        · cases hbytes
          decide
        · simp only [hrest, fillLock, hread, List.modifyHead_cons]
          rfl
    · refine ⟨none, fun bytes hbytes => (by cases hbytes), ?_⟩
      cases hw : tx.witnesses with
      | nil =>
        rw [hw] at hslot
        cases hslot
      | cons w rest =>
        rw [hw] at hslot
        simp only [List.modifyHead_cons]
        exact hslot

theorem indexedByType_demo : IndexedByType demoGameChain demoTyped where
  live ty c hc := by
    unfold demoTyped at hc
    split at hc
    · rw [List.mem_singleton.mp hc]
      rfl
    · cases hc
  typed ty c hc := by
    unfold demoTyped at hc
    split at hc
    · next h =>
      rw [List.mem_singleton.mp hc, h]
      rfl
    · cases hc

theorem indexed_demo : Indexed demoGameChain demoOwned where
  live lock c hc := by
    unfold demoOwned at hc
    split at hc
    · rcases List.mem_pair.mp hc with rfl | rfl <;> decide
    · cases hc
  under lock c hc := by
    unfold demoOwned at hc
    split at hc
    · next h => rcases List.mem_pair.mp hc with rfl | rfl <;> exact h.symm
    · cases hc

def demoGrowTx : Transaction where
  raw :=
    { version := 0
      cellDeps := [⟨⟨sampleHash 4, 0⟩, 0⟩, ⟨⟨sampleHash 6, 0⟩, 0⟩]
      headerDeps := []
      inputs := [input demoGameCell, input demoFeeCell]
      outputs := [⟨150000000000, sampleShop, some demoType⟩, output sampleShop 149999900000]
      outputsData := [[], []] }
  witnesses := [WitnessArgs.encode ⟨none, some [0, 0], none⟩, []]

theorem growTx_demo :
    growTx .sample demoNetwork demoGame demoTyped demoOwned 50000000000 = some demoGrowTx := by
  have hfound : demoTyped (demoGame.typeScript (sampleHash 20)) = [demoGameCell] := if_pos rfl
  have hboard : ∃ text, gameDecodeState (hexout []) = some (.ok text) := by
    unfold gameDecodeState
    rw [hx_hexout]
    exact ⟨_, rfl⟩
  have hpays : (demoOwned sampleShop).find? (pays (50000000000 + 6200000000 + FEE)) =
      some demoFeeCell := by decide
  have hgrown : toCapacity (demoGameCell.capacity + 50000000000) = some 150000000000 := by decide
  have hchange : toCapacity (demoFeeCell.capacity - 50000000000 - FEE) = some 149999900000 := by
    decide
  obtain ⟨text, hboard⟩ := hboard
  unfold growTx
  simp only [demoGame] at hfound ⊢
  simp only [Option.bind_eq_bind, Option.bind_some, hfound, List.head?_cons]
  rw [show demoGameCell.cell.data = [] from rfl, hboard]
  simp only [Option.bind_some, Except.toOption, show demoNetwork.sighashLock = sampleShop from rfl,
    hpays, hgrown, hchange]
  rfl

def demoSigned : Transaction :=
  { raw := { demoGrowTx.raw with cellDeps := demoGrowTx.raw.cellDeps ++ [⟨⟨sampleHash 32, 0⟩, 1⟩] }
    witnesses := demoGrowTx.witnesses.modifyHead fillLock }

def demoGrowRtx : ResolvedTx where
  tx := demoSigned
  inputCells := [demoGameCell.cell, demoFeeCell.cell]
  headers := []
  inputs_resolved := rfl
  headers_resolved := List.map_nil
  outputs_paired := rfl

theorem game_grow_accepted_demo :
    verify .sample (.ofType .sample demoGrowRtx demoType) = .ok () ∧
      Descends .sample demoType demoGameCell.cell [] (grownCell demoGameCell 150000000000) := by
  have hsent : gameGrow .sample demoNetwork demoGame demoTyped demoOwned demoSign 50000000000 =
      some demoSigned := by
    unfold gameGrow
    rw [growTx_demo]
    rfl
  have hres : Resolved demoGameChain demoSigned demoGrowRtx := ⟨rfl, by decide⟩
  obtain ⟨ty, cell, feeCell, grown, change, hcell, -, -, -, -, hgrown, -, hiff, hdescends⟩ :=
    game_grow_accepted .sample readsWitnesses_sample demoNetwork demoGame
      demoTyped demoOwned demoSign 50000000000 demoGameChain indexedByType_demo indexed_demo
      signs_demoSign demoSigned hsent demoGrowRtx hres
  unfold demoTyped at hcell
  split at hcell
  · next hty =>
    obtain rfl := List.mem_singleton.mp hcell
    have hgrown : grown = 150000000000 := BitVec.eq_of_toNat_eq (by
      rw [show demoGameCell.capacity = 100000000000 from rfl] at hgrown
      have hvalue : (150000000000 : U64).toNat = 150000000000 := rfl
      omega)
    rw [← hgrown, ← hty]
    exact ⟨hiff.mpr rfl, hdescends rfl⟩
  · cases hcell

end CkbController.Cli
