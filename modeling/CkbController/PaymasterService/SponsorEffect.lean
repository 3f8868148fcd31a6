import CkbController.Ckb.Encoding
import CkbController.PaymasterService.LockAcceptance

/-!
# What sponsoring adds

The service sizes its fee on a dry run: the client's transaction balanced with a placeholder out
point and a placeholder capacity. An out point and a capacity take the same bytes whatever they
are, so the dry run is as long as the transaction that is returned, and the fee is the one that
the returned transaction asks for.

* `length_encode_appendFee` — how many bytes the relayer's part takes;
* `feeFor_congr` — transactions of one length, as the dry run and the result are, have one fee;
* `sponsor_appends` — what `sponsor` returns, against what it was given.
-/

namespace CkbController.PaymasterService

open ByteCodec Molecule Paymaster

variable {P : Platform} {occupiedCapacity : CellOutput → U64} {svc : SponsorService}
  {base tx : Transaction} {changeLock : Script} {feeCellDeps : List CellDep}

/-! ## The relayer's part -/

/-- `tx` is `base` with one input, one plain output and the missing fee deps at the end. -/
structure Appends (base tx : Transaction) (feeInput : OutPoint) (change : U64) (changeLock : Script)
    (feeCellDeps : List CellDep) : Prop where
  inputs : tx.raw.inputs = base.raw.inputs ++ [⟨0, feeInput⟩]
  outputs : tx.raw.outputs = base.raw.outputs ++ [⟨change, changeLock, none⟩]
  outputsData : tx.raw.outputsData = base.raw.outputsData ++ [[]]
  cellDeps : ∃ added, tx.raw.cellDeps = base.raw.cellDeps ++ added ∧
    ∀ d ∈ added, d ∈ feeCellDeps ∧ d ∉ base.raw.cellDeps
  feeDeps : ∀ d ∈ feeCellDeps, d ∈ tx.raw.cellDeps
  version : tx.raw.version = base.raw.version
  headerDeps : tx.raw.headerDeps = base.raw.headerDeps
  witnesses : tx.witnesses = base.witnesses

theorem appends_appendFee (base : Transaction) (feeInput : OutPoint) (change : U64)
    (changeLock : Script) (feeCellDeps : List CellDep) :
    Appends base (appendFee base feeInput ⟨change, changeLock, none⟩ feeCellDeps) feeInput change
      changeLock feeCellDeps where
  inputs := rfl
  outputs := rfl
  outputsData := rfl
  cellDeps := by
    refine ⟨feeCellDeps.filter (· ∉ base.raw.cellDeps), rfl, ?_⟩
    intro d hd
    obtain ⟨hmem, hnew⟩ := List.mem_filter.mp hd
    exact ⟨hmem, of_decide_eq_true hnew⟩
  feeDeps := by
    intro d hd
    show d ∈ base.raw.cellDeps ++ feeCellDeps.filter (· ∉ base.raw.cellDeps)
    rw [List.mem_append]
    -- a dep that the client already names is not repeated
    by_cases hold : d ∈ base.raw.cellDeps
    · exact Or.inl hold
    · exact Or.inr (List.mem_filter.mpr ⟨hd, decide_eq_true hold⟩)
  version := rfl
  headerDeps := rfl
  witnesses := rfl

/-! ## Its size -/

/-- An input of 44 bytes, the change output and its empty data with an offset each, and 37 bytes
for every dep that is new. -/
theorem length_encode_appendFee (base : Transaction) (feeInput : OutPoint) (change : CellOutput)
    (feeCellDeps : List CellDep) :
    (appendFee base feeInput change feeCellDeps).encode.length =
      base.encode.length + 44 + (4 + change.encode.length) + 8 +
        37 * (feeCellDeps.filter (· ∉ base.raw.cellDeps)).length := by
  let tx := appendFee base feeInput change feeCellDeps
  have hinputs : tx.raw.inputs = base.raw.inputs ++ [⟨0, feeInput⟩] := rfl
  have hdeps : tx.raw.cellDeps =
      base.raw.cellDeps ++ feeCellDeps.filter (· ∉ base.raw.cellDeps) := rfl
  have houtputs : tx.raw.outputs = base.raw.outputs ++ [change] := rfl
  have hdata : tx.raw.outputsData = base.raw.outputsData ++ [[]] := rfl
  have hheaders : tx.raw.headerDeps = base.raw.headerDeps := rfl
  have hwitnesses : tx.witnesses = base.witnesses := rfl
  show tx.encode.length = _
  rw [tx.length_encode, tx.raw.length_encode, hinputs, hdeps, houtputs, hdata, hheaders,
    hwitnesses, base.length_encode, base.raw.length_encode, List.length_append, List.length_append,
    List.length_singleton, List.map_append, List.map_append, List.map_singleton,
    List.map_singleton, length_table_concat, length_table_concat, length_bytes, List.length_nil]
  omega

/-- Which cell pays, and with how much, does not change the size. -/
theorem length_txSlice_appendFee (hP : P.SizesTransactions) (base : Transaction)
    (feeInput feeInput' : OutPoint) (change change' : U64) (changeLock : Script)
    (feeCellDeps : List CellDep) :
    (P.txSlice (appendFee base feeInput ⟨change, changeLock, none⟩ feeCellDeps)).length =
      (P.txSlice (appendFee base feeInput' ⟨change', changeLock, none⟩ feeCellDeps)).length := by
  rw [hP, hP, length_encode_appendFee, length_encode_appendFee, CellOutput.length_encode,
    CellOutput.length_encode]

theorem feeFor_congr (hsize : (P.txSlice base).length = (P.txSlice tx).length) :
    svc.feeFor P base = svc.feeFor P tx := by
  have hmin : minFee P base svc.feeRate = minFee P tx svc.feeRate := by
    unfold minFee
    rw [hsize]
  unfold SponsorService.feeFor
  rw [hmin]

/-- The fee is the larger of the floor and what the rate asks. -/
theorem toNat_feeFor (P : Platform) (svc : SponsorService) (tx : Transaction) :
    (svc.feeFor P tx).toNat = max minFeeShannons.toNat (minFee P tx svc.feeRate).toNat := by
  unfold SponsorService.feeFor
  split
  · next h => exact (max_eq_left (Nat.le_of_lt h)).symm
  · next h => exact (max_eq_right (Nat.not_lt.mp h)).symm

/-! ## What `sponsor` returns -/

/-- The collector finds nothing smaller than it was asked for. -/
def CkbRpc.HonoursMinCapacity (rpc : CkbRpc) (lock : Script) : Prop :=
  ∀ minCapacity feeCell, rpc.collectFeeCell lock minCapacity = .ok (some feeCell) →
    minCapacity.toNat ≤ feeCell.capacity.toNat

/-- What `out` owes to the fee cell that it spends and to the transaction `base` that it
sponsors. -/
structure Pays (P : Platform) (occupiedCapacity : CellOutput → U64) (svc : SponsorService)
    (base : Transaction) (out : Sponsored) (feeCell : FeeCell) (change : U64) : Prop where
  /-- The cell was collected for the fee and a valid change cell. -/
  collected : ∃ needed : U64,
    out.fee.toNat + (svc.minChange occupiedCapacity).toNat = needed.toNat ∧
      svc.rpc.collectFeeCell svc.feeLock needed = .ok (some feeCell)
  feeInput : out.feeInput = feeCell.outPoint
  conserves : out.fee.toNat + change.toNat = feeCell.capacity.toNat
  drySize : ∀ dry, balance base dryFeeInput dryCapacity 0 svc.feeLock svc.feeCellDeps = .ok dry →
    (P.txSlice dry).length = (P.txSlice out.tx).length
  floor : minFeeShannons.toNat ≤ out.fee.toNat
  rate : (minFee P out.tx svc.feeRate).toNat ≤ out.fee.toNat
  minChange : svc.rpc.HonoursMinCapacity svc.feeLock →
    (svc.minChange occupiedCapacity).toNat ≤ change.toNat

/-- **Sponsoring is append-only, conserves the fee cell and pays its rate.** Whatever the gate, the
node, the client's transaction, the rate and the fee deps are: what `sponsor` returns is the
client's transaction with the relayer's part at the end, and the fee is what its own size asks
for. -/
theorem sponsor_appends (P : Platform) (hP : P.SizesTransactions)
    (occupiedCapacity : CellOutput → U64) (svc : SponsorService) (token : Bytes)
    (base : Transaction) (now : U64) (out : Sponsored)
    (h : svc.sponsor P occupiedCapacity token base now = .ok out) :
    ∃ feeCell change,
      Appends base out.tx out.feeInput change svc.feeLock svc.feeCellDeps ∧
        Pays P occupiedCapacity svc base out feeCell change := by
  obtain ⟨cap, dry, needed, feeCell, -, hdry, hneeded, hcell, hbalance, hout⟩ :=
    SponsorService.sponsor_eq_ok.mp h
  obtain ⟨change, hchange, htx⟩ := balance_eq_ok.mp hbalance
  have hfee : out.fee = svc.feeFor P dry := by rw [hout]
  have hinput : out.feeInput = feeCell.outPoint := by rw [hout]
  -- every dry run is as long as the result
  have hsize : ∀ dry, balance base dryFeeInput dryCapacity 0 svc.feeLock svc.feeCellDeps = .ok dry →
      (P.txSlice dry).length = (P.txSlice out.tx).length := by
    intro dry hdry
    obtain ⟨dryChange, -, rfl⟩ := balance_eq_ok.mp hdry
    rw [htx]
    exact length_txSlice_appendFee hP base _ _ _ _ _ _
  have hmax : out.fee.toNat = max minFeeShannons.toNat (minFee P out.tx svc.feeRate).toNat := by
    rw [hfee, feeFor_congr (hsize dry hdry), toNat_feeFor]
  have hconserves : out.fee.toNat + change.toNat = feeCell.capacity.toNat := by
    rw [hfee]
    exact hchange
  refine ⟨feeCell, change, ?_, ?_⟩
  · rw [htx, hinput]
    exact appends_appendFee base feeCell.outPoint change svc.feeLock svc.feeCellDeps
  · exact
      { collected := ⟨needed, by rw [hfee]; exact hneeded, hcell⟩
        feeInput := hinput
        conserves := hconserves
        drySize := hsize
        floor := hmax ▸ Nat.le_max_left _ _
        rate := hmax ▸ Nat.le_max_right _ _
        minChange := by
          intro hhonours
          -- the cell covers the fee and the least change, and only the fee is taken
          have hcovers := hhonours needed feeCell hcell
          rw [hfee] at hconserves
          omega }

/-! ### A transaction that already names one of the fee deps -/

def clientDep : CellDep := ⟨⟨sampleHash 5, 0⟩, 1⟩

def relayerDep : CellDep := ⟨⟨sampleHash 6, 0⟩, 0⟩

/-- The shop at 5 shannons for a byte, with two cell deps to spend its lock. -/
def rateService : SponsorService :=
  { shopService with feeCellDeps := [clientDep, relayerDep], feeRate := 5000 }

def clientTx : Transaction where
  raw :=
    { version := 0, cellDeps := [clientDep], headerDeps := [sampleHash 4]
      inputs := [⟨0, ⟨sampleHash 3, 1⟩⟩], outputs := [⟨700, relayerLock, none⟩]
      outputsData := [[1, 2]] }
  witnesses := [[], [7]]

def sponsoredClientTx : Sponsored where
  tx := appendFee clientTx feeOutPoint ⟨9999997690, sampleShop, none⟩ [clientDep, relayerDep]
  fee := 2310
  feeInput := feeOutPoint
  subject := "player-1"

theorem rateService_sponsors :
    rateService.sponsor .sample plainOccupied [] clientTx 1700000000 = .ok sponsoredClientTx :=
  Checks.eq_ok_of_toOption (by decide +kernel)

theorem sponsor_appends_clientTx :
    ∃ feeCell change,
      Appends clientTx sponsoredClientTx.tx feeOutPoint change sampleShop [clientDep, relayerDep] ∧
        Pays .sample plainOccupied rateService clientTx sponsoredClientTx feeCell change :=
  sponsor_appends .sample (Platform.sizesTransactions_molecule _ _) plainOccupied rateService []
    clientTx 1700000000 sponsoredClientTx rateService_sponsors

end CkbController.PaymasterService
