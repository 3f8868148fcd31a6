import CkbController.GameCell.OnChain
import CkbController.PaymasterService.GameServer
import CkbController.PaymasterService.Indexer

/-!
# Starting the operator on a chain

`HttpCkbRpc::find_cell_by_type` and the part of `main` of `game-operator` that loads the tip when
`CHAIN=http`. The search is for one cell whose type script begins with the game's, and what it
finds is taken for the tip; the operator has no other memory. So an operator that crashes, or
whose tip is out of date because an answer of the node was lost, is put right by a restart.

* `oldest_typed`, `oldest_typed_none` — the search, which goes by a prefix of the args, is exact;
* `findCellByType_eq` — the search returns the oldest cell that it matches;
* `operator_resumes` — on a chain with guarded geneses the operator starts on the live game cell
  with the board of everything that was played, or does not start if there is none.
-/

namespace CkbController.PaymasterService

open ByteCodec Checks Hex GameRules GameCell Oldest

/-! ## The search -/

/-- The client, with the readers that loading a cell takes besides: `serde_json` for an output,
and `hex`. -/
structure CellRpc extends HttpCkbRpc where
  outputFromValue : Json → Except String CellOutput
  hexDecode : String → Except String Bytes

namespace CellRpc

variable (rpc : CellRpc)

def typeSearchKey (typeScript : Script) : Json :=
  .object
    [("script", rpc.jsonScript typeScript), ("script_type", .string "type"),
      ("with_data", .bool true)]

def findCellByType (typeScript : Script) :
    Except String (Option (OutPoint × CellOutput × Bytes)) := do
  let res ← rpc.call "get_cells"
    (.array [rpc.typeSearchKey typeScript, .string "asc", .string "0x1", .null])
  match ((field res "objects").asArray.getD []).head? with
  | none => pure none
  | some obj => do
    let output ← rpc.outputFromValue (field obj "output")
    let txHash ← okOr (field (field obj "out_point") "tx_hash").asStr "cell: no tx_hash"
    let index ← rpc.parseHexU64 (field (field obj "out_point") "index")
    let dataHex ← okOr (field obj "output_data").asStr
      "cell: no output_data (with_data requested)"
    let data ← rpc.hexDecode (String.ofList (trim0x dataHex.toList))
    let hash ← rpc.h256FromStr (String.ofList (trim0x txHash.toList))
    pure (some (⟨hash, index.setWidth 32⟩, output, data))

end CellRpc

/-! ## The operator -/

def hashTypeData2 : UInt8 := 4

/-- The operator of `CHAIN=http`, up to the first request. -/
def startOperator (rpc : CellRpc) (rt : GameServer.Runtime) (codeHash : Byte32) (gameId : Byte32)
    (cellDeps : List CellDep) (fee : U64) : Except String GameOperator := do
  let typeScript := GameOperator.gameTypeScript codeHash hashTypeData2 gameId
  let (outPoint, output, data) ← okOr (← rpc.findCellByType typeScript)
    "no live game cell for this game id — run game-genesis.mjs"
  let state ← (GameState.decode data).mapError fun e =>
    s!"game cell data doesn't decode: {rt.debugGameError e}"
  pure ((GameOperator.new gameId cellDeps { outPoint, output, state }).withFee fee)

/-! ## Searching by type -/

/-- Has a type script that a prefix search for `ty` matches. -/
def typed (ty : Script) (c : Cell) : Bool := c.output.type.any fun t => t.startsWith ty

section Typed

variable {P : Platform} {ty : Script} {txs : List ResolvedTx} {C : Chain OutPoint Cell}

/-- Args that are not longer are the same. -/
theorem eq_of_startsWith {t : Script} (h : t.startsWith ty = true)
    (hlen : t.args.length = ty.args.length) : t = ty := by
  obtain ⟨hcode, hprefix⟩ := Bool.and_eq_true_iff.mp h
  have hargs := (List.isPrefixOf_iff_prefix.mp hprefix).eq_of_length hlen.symm
  exact (Script.eq_of_sameCode hcode hargs).symm

/-- A live cell that a prefix search matches is a cell of the game. -/
theorem type_of_typed (hon : OnChain P ty txs C) (hargs : ty.args.length = gameIdLen)
    {op : OutPoint} {c : Cell} (hlive : C.cells op = some c) (htyped : typed ty c = true) :
    c.output.type = some ty := by
  obtain ⟨t, htype, hstarts⟩ := (Option.any_eq_true _ _).mp htyped
  have hcode := (Bool.and_eq_true_iff.mp hstarts).1
  have hlen := hon.argsLen op c t hlive htype hcode
  rw [htype, eq_of_startsWith hstarts (hlen.trans hargs.symm)]

theorem typed_of_type {c : Cell} (h : c.output.type = some ty) : typed ty c = true := by
  unfold typed
  rw [h]
  exact Script.startsWith_self ty

/-- The search finds the game cell. -/
theorem oldest_typed (hon : OnChain P ty txs C) (hargs : ty.args.length = gameIdLen)
    {op : OutPoint} {c : Cell} (hlive : C.cells op = some c)
    (hcarries : Vm.carries P ty c = true) : C.oldest (typed ty) = some (op, c) := by
  have hmem : (op, c) ∈ C.listed (typed ty) :=
    Chain.mem_listed.mpr ⟨hlive, typed_of_type (hon.genuine op c hlive hcarries)⟩
  rcases hlist : C.listed (typed ty) with - | ⟨⟨op', c'⟩, rest⟩
  · rw [hlist] at hmem
    exact absurd hmem List.not_mem_nil
  · -- the first one that is found carries the script too, and only one cell does
    obtain ⟨hlive', htyped'⟩ : C.cells op' = some c' ∧ typed ty c' = true :=
      Chain.mem_listed.mp (hlist ▸ List.mem_cons_self)
    have hcarries' := Vm.carries_of_type (P := P) (type_of_typed hon hargs hlive' htyped')
    unfold Chain.oldest
    rw [hlist, List.head?_cons]
    rcases hon.game with ⟨-, hnone⟩ | ⟨op₀, c₀, -, -, -, hunique⟩
    · exact absurd hcarries (hnone op c hlive)
    · have hsame : op' = op :=
        (hunique op' c' hlive' hcarries').trans (hunique op c hlive hcarries).symm
      subst hsame
      rw [Option.some.inj (hlive'.symm.trans hlive)]

/-- On a chain without a cell of the game, the search finds none. -/
theorem oldest_typed_none (hon : OnChain P ty txs C) (hargs : ty.args.length = gameIdLen)
    (hnone : NoGameCell P ty C.cells) : C.oldest (typed ty) = none := by
  unfold Chain.oldest
  rw [List.head?_eq_none_iff, Chain.listed_eq_nil_iff]
  intro op c hlive htyped
  exact hnone op c hlive (Vm.carries_of_type (type_of_typed hon hargs hlive htyped))

end Typed

/-! ## What the search returns -/

/-- `obj` is what the indexer writes for a live cell with its data. -/
structure CellRpc.Describes (rpc : CellRpc) (obj : Json) (e : OutPoint × Cell) : Prop where
  output : rpc.outputFromValue (field obj "output") = .ok e.2.output
  txHash : ∃ s, (field (field obj "out_point") "tx_hash").asStr = some s ∧
    rpc.h256FromStr (String.ofList (trim0x s.toList)) = .ok e.1.txHash
  index : ∃ n, rpc.parseHexU64 (field (field obj "out_point") "index") = .ok n ∧
    n.setWidth 32 = e.1.index
  data : ∃ s, (field obj "output_data").asStr = some s ∧
    rpc.hexDecode (String.ofList (trim0x s.toList)) = .ok e.2.data

/-- The node answers a search by type with the first of the live cells that it matches, in the
order they were created. -/
structure CellRpc.AnswersFor (rpc : CellRpc) (C : Chain OutPoint Cell) (typeScript : Script) :
    Prop where
  answer : ∃ res objects, rpc.call "get_cells"
      (.array [rpc.typeSearchKey typeScript, .string "asc", .string "0x1", .null]) = .ok res ∧
    field res "objects" = .array objects ∧
    List.Forall₂ rpc.Describes objects ((C.listed (typed typeScript)).take 1)

variable {rpc : CellRpc} {rt : GameServer.Runtime} {C : Chain OutPoint Cell}

/-- **The search** returns the oldest cell that it matches. -/
theorem CellRpc.findCellByType_eq {typeScript : Script} (h : rpc.AnswersFor C typeScript) :
    rpc.findCellByType typeScript =
      .ok ((C.oldest (typed typeScript)).map fun e => (e.1, e.2.output, e.2.data)) := by
  obtain ⟨res, objects, hres, hobjects, hall⟩ := h.answer
  unfold findCellByType Chain.oldest
  rw [hres, ok_bind, hobjects]
  show (match objects.head? with | none => _ | some obj => _) = _
  cases hlist : C.listed (typed typeScript) with
  | nil =>
    rw [hlist, List.take_nil] at hall
    cases hall
    rfl
  | cons e rest =>
    rw [hlist, List.take_succ_cons, List.take_zero] at hall
    obtain ⟨obj, rest', hobj, -, rfl⟩ := List.forall₂_cons_right_iff.mp hall
    obtain ⟨s, hs, hhash⟩ := hobj.txHash
    obtain ⟨n, hn, hindex⟩ := hobj.index
    obtain ⟨d, hd, hdata⟩ := hobj.data
    simp only [List.head?_cons, hobj.output, hs, hn, hd, okOr, ok_bind, hdata, hhash, hindex]
    rfl

/-- The process starts on the oldest cell it finds, once its state decodes. -/
theorem startOperator_found {codeHash gameId : Byte32} {cellDeps : List CellDep} {fee : U64}
    (h : rpc.AnswersFor C (GameOperator.gameTypeScript codeHash hashTypeData2 gameId))
    {op : OutPoint} {c : Cell} {state : GameState}
    (hfound : C.oldest (typed (GameOperator.gameTypeScript codeHash hashTypeData2 gameId)) =
      some (op, c)) (hstate : GameState.decode c.data = .ok state) :
    startOperator rpc rt codeHash gameId cellDeps fee =
      .ok ((GameOperator.new gameId cellDeps ⟨op, c.output, state⟩).withFee fee) := by
  unfold startOperator
  simp only [CellRpc.findCellByType_eq h, hfound, ok_bind, Option.map_some, okOr, hstate,
    mapError_ok]
  rfl

/-- The process does not start where no cell is found. -/
theorem startOperator_missing {codeHash gameId : Byte32} {cellDeps : List CellDep} {fee : U64}
    (h : rpc.AnswersFor C (GameOperator.gameTypeScript codeHash hashTypeData2 gameId))
    (hmissing : C.oldest (typed (GameOperator.gameTypeScript codeHash hashTypeData2 gameId)) =
      none) :
    startOperator rpc rt codeHash gameId cellDeps fee =
      .error "no live game cell for this game id — run game-genesis.mjs" := by
  unfold startOperator
  simp only [CellRpc.findCellByType_eq h, hmissing, ok_bind, Option.map_none, okOr]
  rfl

/-- **A restart puts the operator right.** Take any run of transactions from a chain without cells
of the game's code, in which the game is started only while it has no cell. At its end, an operator
that starts takes the live game cell for its tip, out point and output and all, and the board of
everything that was played; if no game cell is live, it does not start, and says so. -/
theorem operator_resumes (P : Platform) (rpc : CellRpc) (rt : GameServer.Runtime)
    (codeHash gameId : Byte32) (cellDeps : List CellDep) (fee : U64)
    (start C : Chain OutPoint Cell) (txs : List ResolvedTx)
    (hstart : NoCode (GameOperator.gameTypeScript codeHash hashTypeData2 gameId) start.cells)
    (hgame : NoGameCell P (GameOperator.gameTypeScript codeHash hashTypeData2 gameId) start.cells)
    (run : Trace (CodeStep P (GameOperator.gameTypeScript codeHash hashTypeData2 gameId))
      start txs C)
    (hanswers : rpc.AnswersFor C (GameOperator.gameTypeScript codeHash hashTypeData2 gameId)) :
    (∀ op c, C.cells op = some c →
      Vm.carries P (GameOperator.gameTypeScript codeHash hashTypeData2 gameId) c = true →
      ∃ state, GameState.decode c.data = .ok state ∧
        Board (applied P (GameOperator.gameTypeScript codeHash hashTypeData2 gameId) txs) state ∧
        startOperator rpc rt codeHash gameId cellDeps fee =
          .ok ((GameOperator.new gameId cellDeps ⟨op, c.output, state⟩).withFee fee)) ∧
    (NoGameCell P (GameOperator.gameTypeScript codeHash hashTypeData2 gameId) C.cells →
      startOperator rpc rt codeHash gameId cellDeps fee =
        .error "no live game cell for this game id — run game-genesis.mjs") := by
  have hon := onChain_of_run hstart hgame run
  have hargs : (GameOperator.gameTypeScript codeHash hashTypeData2 gameId).args.length =
      gameIdLen := gameId.toList_length
  constructor
  · intro op c hlive hcarries
    -- the run of accepted transactions says what the cell holds
    obtain ⟨state, hstate, hboard⟩ := (hon.accounts hlive hcarries).board
    exact ⟨state, hstate, hboard,
      startOperator_found hanswers (oldest_typed hon hargs hlive hcarries) hstate⟩
  · intro hnone
    exact startOperator_missing hanswers (oldest_typed_none hon hargs hnone)

/-! ### A node with one game cell -/

/-- Reads a hexadecimal text. -/
def readBytes (v : Json) : Option Bytes := v.asStr.bind fun s => decode (trim0x s.toList)

def readHashType (v : Json) : Option UInt8 :=
  v.asStr.bind fun s =>
    if s = "data" then some 0
    else if s = "type" then some 1
    else if s = "data1" then some 2
    else if s = "data2" then some 4
    else none

def readScript (v : Json) : Option Script := do
  let codeHash ← readBytes (field v "code_hash")
  let hashType ← readHashType (field v "hash_type")
  let args ← readBytes (field v "args")
  if h : codeHash.length = 32 then some ⟨⟨codeHash, h⟩, hashType, args⟩ else none

def readOutput (rpc : HttpCkbRpc) (v : Json) : Except String CellOutput := do
  let capacity ← rpc.parseHexU64 (field v "capacity")
  let lock ← okOr (readScript (field v "lock")) "invalid script"
  if isNull (field v "type") then pure ⟨capacity, lock, none⟩
  else do
    let type ← okOr (readScript (field v "type")) "invalid script"
    pure ⟨capacity, lock, some type⟩

/-- Bytes are read back from their text. -/
theorem readBytes_hexText (b : Bytes) : readBytes (hexText b) = some b := by
  have htrim : trim0x (String.ofList ('0' :: 'x' :: b.flatMap digits)).toList =
      b.flatMap digits := trim0x_ofList fun c hc => isDigit_of_mem_digits hc
  show decode (trim0x _) = some b
  rw [htrim, decode_flatMap_digits]

/-- The hash types that there are. -/
def KnownHashType (s : Script) : Prop :=
  s.hashType = 0 ∨ s.hashType = 1 ∨ s.hashType = 2 ∨ s.hashType = 4

instance : DecidablePred KnownHashType := fun _ => inferInstanceAs (Decidable (_ ∨ _ ∨ _ ∨ _))

/-- A script is read back from its JSON. -/
theorem readScript_scriptJson {s : Script} (h : KnownHashType s) :
    readScript (scriptJson s) = some s := by
  have hcode : field (scriptJson s) "code_hash" = hexText s.codeHash.toList := by
    simp [field, scriptJson]
  have htype : field (scriptJson s) "hash_type" = .string (hashTypeText s.hashType) := by
    simp [field, scriptJson]
  have hargs : field (scriptJson s) "args" = hexText s.args := by
    simp [field, scriptJson]
  have hread : readHashType (.string (hashTypeText s.hashType)) = some s.hashType := by
    rcases h with h | h | h | h <;> rw [h] <;> decide
  unfold readScript
  rw [hcode, htype, hargs, readBytes_hexText, readBytes_hexText, hread]
  exact dif_pos s.codeHash.toList_length

/-- An output reads back as the node wrote it. -/
theorem readOutput_outputJson (rpc : HttpCkbRpc) {o : CellOutput} (hlock : KnownHashType o.lock)
    (htype : ∀ t ∈ o.type, KnownHashType t) : readOutput rpc (outputJson o) = .ok o := by
  obtain ⟨capacity, lock, type⟩ := o
  have hcapacity : field (outputJson ⟨capacity, lock, type⟩) "capacity" =
      quantity capacity.toNat := by
    simp [field, outputJson]
  have hlockJson : field (outputJson ⟨capacity, lock, type⟩) "lock" = scriptJson lock := by
    simp [field, outputJson]
  have htypeJson : field (outputJson ⟨capacity, lock, type⟩) "type" =
      (type.map scriptJson).getD .null := by
    simp [field, outputJson]
  have hnumber : rpc.parseHexU64 (quantity capacity.toNat) = .ok capacity := by
    rw [rpc.parseHexU64_quantity capacity.isLt, BitVec.ofNat_toNat]
    rfl
  unfold readOutput
  rw [hcapacity, hnumber, hlockJson, readScript_scriptJson hlock, htypeJson]
  cases type with
  | none => rfl
  | some t =>
    show (do
      let type ← okOr (readScript (scriptJson t)) "invalid script"
      pure ⟨capacity, lock, some type⟩ : Except String CellOutput) = _
    rw [readScript_scriptJson (htype t rfl)]
    rfl

/-- A node that answers every `get_cells` with the first of the cells. -/
def typeIndexer (cells : LiveCells) : CellRpc :=
  { answering (cells.take 1) with
    outputFromValue := readOutput (answering (cells.take 1))
    hexDecode := fun s => okOr (decode s.toList) "odd number of digits" }

/-- The indexer's JSON describes the cell it was written from. -/
theorem describes_typeIndexer (cells : LiveCells) {e : OutPoint × Cell}
    (hlock : KnownHashType e.2.output.lock)
    (htype : ∀ t ∈ e.2.output.type, KnownHashType t) :
    (typeIndexer cells).Describes (cellJson e) e := by
  have hdesc : (typeIndexer cells).toHttpCkbRpc.Describes (cellJson e) e :=
    HttpCkbRpc.describes_cellJson (cells.take 1) e
  have houtput : field (cellJson e) "output" = outputJson e.2.output := by
    simp [field, cellJson]
  have hdata : field (cellJson e) "output_data" = hexText e.2.data := by
    simp [field, cellJson]
  refine ⟨?_, hdesc.txHash, hdesc.index, ?_⟩
  · rw [houtput]
    exact readOutput_outputJson _ hlock htype
  · refine ⟨_, by rw [hdata]; rfl, ?_⟩
    have htrim : trim0x (String.ofList ('0' :: 'x' :: e.2.data.flatMap digits)).toList =
        e.2.data.flatMap digits := trim0x_ofList fun c hc => isDigit_of_mem_digits hc
    rw [htrim]
    show okOr (decode (String.ofList (e.2.data.flatMap digits)).toList) _ = _
    rw [String.toList_ofList, decode_flatMap_digits]
    rfl

/-- An indexer that lists the cells of the type script, oldest first, answers for the chain. -/
theorem answersFor_typeIndexer {typeScript : Script}
    (hscripts : ∀ e ∈ C.listed (typed typeScript), KnownHashType e.2.output.lock ∧
      ∀ t ∈ e.2.output.type, KnownHashType t) :
    (typeIndexer (C.listed (typed typeScript))).AnswersFor C typeScript := by
  refine ⟨.object [("objects", .array (((C.listed (typed typeScript)).take 1).map cellJson))],
    ((C.listed (typed typeScript)).take 1).map cellJson, ?_, ?_, ?_⟩
  · exact HttpCkbRpc.call_answering _ _ _
  · simp [field]
  · rw [List.forall₂_map_left_iff]
    refine List.forall₂_same.mpr fun e he => ?_
    obtain ⟨hlock, htype⟩ := hscripts e (List.mem_of_mem_take he)
    exact describes_typeIndexer _ hlock htype

def resumedId : Byte32 := ⟨List.replicate 32 7, rfl⟩

def resumedType : Script := GameOperator.gameTypeScript (sampleHash 20) hashTypeData2 resumedId

def resumedCell : Cell := ⟨⟨1000, sampleShop, some resumedType⟩, []⟩

def resumedGenesis : ResolvedTx :=
  .ofCells [(sampleOutPoint, GameCell.plainCell)] [resumedCell] [] []

def resumedStart : Chain OutPoint Cell where
  cells := Ledger.ofList [(sampleOutPoint, GameCell.plainCell)]
  log := [(sampleOutPoint, GameCell.plainCell)]
  logged _ _ := (Utxo.lookup_eq_some_iff (by decide)).mp
  unique := by decide

theorem commits_resumedGenesis : Utxo.Commits resumedStart.cells resumedGenesis.spent
    (resumedGenesis.created .sample)
    (Utxo.settle resumedStart.cells resumedGenesis.spent (resumedGenesis.created .sample)) :=
  ⟨by decide +kernel, by decide +kernel, by decide +kernel, by decide +kernel, rfl⟩

def resumedChain : Chain OutPoint Cell :=
  resumedStart.next commits_resumedGenesis (by decide +kernel)

def resumedOutPoint : OutPoint := ⟨Platform.sample.txHash resumedGenesis.tx.raw, 0⟩

theorem resumedStart_plain {op : OutPoint} {c : Cell} (h : resumedStart.cells op = some c) :
    c.output.type = none := by
  obtain ⟨rfl, rfl⟩ := Prod.mk.inj (List.mem_singleton.mp (resumedStart.logged _ _ h))
  rfl

theorem resumedStart_noGame : NoGameCell .sample resumedType resumedStart.cells := by
  intro op c hlive
  rw [Vm.not_carries_of_untyped (resumedStart_plain hlive)]
  exact Bool.false_ne_true

theorem codeStep_resumedGenesis :
    CodeStep .sample resumedType resumedStart resumedGenesis resumedChain where
  step := ⟨commits_resumedGenesis, rfl⟩
  accepted t _ hruns := by
    obtain ⟨c, hc, htype⟩ := hruns
    have hpair : c = GameCell.plainCell ∨ c = resumedCell := List.mem_pair.mp hc
    rcases hpair with rfl | rfl
    · cases htype
    · cases htype
      exact eq_ok_of_isOk (by decide +kernel)
  guard _ := resumedStart_noGame
  genuine := by decide +kernel

def quietRuntime : GameServer.Runtime where
  fromStr _ := .ok .null
  hexDecode _ := .ok []
  debugError _ := "error"
  debugGameError _ := "error"

theorem operator_resumes_genesis :
    startOperator (typeIndexer (resumedChain.listed (typed resumedType))) quietRuntime
        (sampleHash 20) resumedId [] 3 =
      .ok ((GameOperator.new resumedId []
        ⟨resumedOutPoint, resumedCell.output, GameState.empty⟩).withFee 3) := by
  have hanswers : (typeIndexer (resumedChain.listed (typed resumedType))).AnswersFor resumedChain
      resumedType := answersFor_typeIndexer (by decide +kernel)
  have hrun : Trace (CodeStep .sample resumedType) resumedStart [resumedGenesis] resumedChain :=
    .single codeStep_resumedGenesis
  have hnoCode : NoCode resumedType resumedStart.cells := by
    intro op c t hlive htype
    rw [resumedStart_plain hlive] at htype
    cases htype
  obtain ⟨state, hstate, -, hstarted⟩ := (operator_resumes .sample _ quietRuntime (sampleHash 20)
    resumedId [] 3 resumedStart resumedChain [resumedGenesis] hnoCode resumedStart_noGame hrun
    hanswers).1 resumedOutPoint resumedCell (by decide +kernel) (by decide +kernel)
  cases hstate
  exact hstarted

end CkbController.PaymasterService
