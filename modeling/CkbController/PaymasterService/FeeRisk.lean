import CkbController.Ckb.Ledger
import CkbController.PaymasterService.Indexer
import CkbController.PaymasterService.LockAcceptance

/-!
# What the relayer risks

The relayer signs its lock group once, for every input under its lock. What it gives away with
one signature is the capacity of those inputs less the capacity of the outputs under its lock.
The client writes the transaction that the relayer appends to, and nothing looks at the inputs
the client names. The fee cell is whatever the collector's search comes to first, under the fee
lock or under a longer one.

* `sponsored_eq` — what the service returns over an indexer;
* `risk_sponsored` — the risk is the fee, plus what the client's own transaction takes from the
  relayer, less what a fee cell under another lock brings in;
* `risk_le_fee_iff` — so it is at most the fee exactly when the client takes no more than that.
-/

namespace CkbController.PaymasterService

open ByteCodec Checks Paymaster

/-! ## Capacity under a lock -/

def capacityUnder (lock : Script) (o : CellOutput) : Nat :=
  if o.lock = lock then o.capacity.toNat else 0

def capacityOutside (lock : Script) (o : CellOutput) : Nat :=
  if o.lock = lock then 0 else o.capacity.toNat

theorem capacityUnder_add_capacityOutside (lock : Script) (o : CellOutput) :
    capacityUnder lock o + capacityOutside lock o = o.capacity.toNat := by
  unfold capacityUnder capacityOutside
  by_cases h : o.lock = lock
  · rw [if_pos h, if_pos h, Nat.add_zero]
  · rw [if_neg h, if_neg h, Nat.zero_add]

/-- The capacity of the inputs of `tx` whose live cell is under `lock`. -/
def inputsUnder (L : Ledger) (lock : Script) (tx : Transaction) : Nat :=
  (tx.raw.inputs.map fun i =>
    ((L i.previousOutput).map fun c => capacityUnder lock c.output).getD 0).sum

def outputsUnder (lock : Script) (tx : Transaction) : Nat :=
  (tx.raw.outputs.map (capacityUnder lock)).sum

def risk (L : Ledger) (lock : Script) (tx : Transaction) : Int :=
  inputsUnder L lock tx - outputsUnder lock tx

variable {P : Platform} {occupiedCapacity : CellOutput → U64} {svc : SponsorService} {L : Ledger}
  {rpc : HttpCkbRpc} {cells : LiveCells} {token : Bytes} {base : Transaction} {now : U64}
  {out : Sponsored} {lock : Script}

/-- The client's inputs under the lock, and the fee cell if it is under it. -/
theorem inputsUnder_appendFee {feeInput : OutPoint} {change : CellOutput}
    {feeCellDeps : List CellDep} {cell : Cell} (hlive : L feeInput = some cell) :
    inputsUnder L lock (appendFee base feeInput change feeCellDeps) =
      inputsUnder L lock base + capacityUnder lock cell.output := by
  unfold inputsUnder
  show ((base.raw.inputs ++ [(⟨0, feeInput⟩ : CellInput)]).map _).sum = _
  rw [List.map_append, List.sum_append, List.map_singleton, List.sum_singleton, hlive]
  rfl

/-- The client's outputs under the lock, and the change. -/
theorem outputsUnder_appendFee {feeInput : OutPoint} {change : CellOutput}
    {feeCellDeps : List CellDep} :
    outputsUnder lock (appendFee base feeInput change feeCellDeps) =
      outputsUnder lock base + capacityUnder lock change := by
  unfold outputsUnder
  show ((base.raw.outputs ++ [change]).map _).sum = _
  rw [List.map_append, List.sum_append, List.map_singleton, List.sum_singleton]

theorem capacityUnder_self (capacity : U64) (type : Option Script) :
    capacityUnder lock ⟨capacity, lock, type⟩ = capacity.toNat :=
  if_pos rfl

/-! ## What the service returns over an indexer -/

namespace SponsorService

variable (P : Platform) (occupiedCapacity : CellOutput → U64) (svc : SponsorService)

/-- The service over a node. -/
def onNode (rpc : HttpCkbRpc) : SponsorService := { svc with rpc := rpc.toCkbRpc }

/-- The request balanced with a fee cell that covers any fee. -/
def dryTx (base : Transaction) : Transaction :=
  appendFee base dryFeeInput ⟨dryCapacity, svc.feeLock, none⟩ svc.feeCellDeps

/-- What the service asks the node for: the fee of the request and a valid change cell. -/
def needed (base : Transaction) : U64 :=
  svc.feeFor P (svc.dryTx base) + svc.minChange occupiedCapacity

end SponsorService

/-- **What the service returns over an indexer.** The fee cell is the first that the collector's
search shows and that covers the request, and all of it but the fee goes to the change. -/
theorem sponsored_eq (hrpc : rpc.Answers cells (feeSearch svc.feeLock))
    (h : (svc.onNode rpc).sponsor P occupiedCapacity token base now = .ok out) :
    ∃ (e : OutPoint × Cell) (change : U64),
      cells.collected svc.feeLock (svc.needed P occupiedCapacity base) = some e ∧
      out.fee = svc.feeFor P (svc.dryTx base) ∧ out.feeInput = e.1 ∧
      out.fee.toNat + change.toNat = e.2.output.capacity.toNat ∧
      out.tx = appendFee base e.1 ⟨change, svc.feeLock, none⟩ svc.feeCellDeps := by
  obtain ⟨cap, dry, needed, feeCell, -, hdry, hneeded, hcell, hbalance, hout⟩ :=
    SponsorService.sponsor_eq_ok.mp h
  -- the dry balance takes no fee, so its change is the whole dry capacity
  obtain ⟨dryChange, hwhole, rfl⟩ := balance_eq_ok.mp hdry
  obtain rfl : dryChange = dryCapacity := by
    apply BitVec.eq_of_toNat_eq
    rw [← hwhole]
    exact (Nat.zero_add _).symm
  -- the sum was checked, so it does not wrap
  have hasked : svc.needed P occupiedCapacity base = needed := by
    apply BitVec.eq_of_toNat_eq
    have hsum : (svc.feeFor P (svc.dryTx base)).toNat + (svc.minChange occupiedCapacity).toNat =
        needed.toNat := hneeded
    rw [SponsorService.needed, BitVec.toNat_add, hsum]
    exact Nat.mod_eq_of_lt needed.isLt
  have hcollect : rpc.collectFeeCell svc.feeLock needed = .ok (some feeCell) := hcell
  rw [HttpCkbRpc.collectFeeCell_eq needed hrpc] at hcollect
  obtain ⟨e, he, rfl⟩ := Option.map_eq_some_iff.mp (Except.ok.inj hcollect)
  obtain ⟨change, hchange, htx⟩ := balance_eq_ok.mp hbalance
  have hfee : out.fee = svc.feeFor P (svc.dryTx base) := congrArg Sponsored.fee hout
  refine ⟨e, change, hasked ▸ he, hfee, congrArg Sponsored.feeInput hout, ?_, htx⟩
  rw [hfee]
  exact hchange

/-! ## The risk of a sponsored transaction -/

/-- What the fee cell of a request brings in from outside the fee lock. -/
def broughtIn (cells : LiveCells) (lock : Script) (minCapacity : U64) : Nat :=
  ((cells.collected lock minCapacity).map fun e => capacityOutside lock e.2.output).getD 0

/-- A fee cell of the relayer and its change together cost the fee. The change of another cell is
the relayer's gain. -/
theorem risk_sponsored (hnodup : (cells.map Prod.fst).Nodup)
    (hrpc : rpc.Answers cells (feeSearch svc.feeLock))
    (h : (svc.onNode rpc).sponsor P occupiedCapacity token base now = .ok out) :
    risk (.ofList cells) svc.feeLock out.tx +
        broughtIn cells svc.feeLock (svc.needed P occupiedCapacity base) =
      out.fee.toNat + risk (.ofList cells) svc.feeLock base := by
  obtain ⟨e, change, hfound, -, -, hchange, htx⟩ := sponsored_eq hrpc h
  have hlive : Ledger.ofList cells e.1 = some e.2 :=
    (Utxo.lookup_eq_some_iff hnodup).mpr (mem_of_collected hfound).1
  have hin : inputsUnder (.ofList cells) svc.feeLock out.tx =
      inputsUnder (.ofList cells) svc.feeLock base + capacityUnder svc.feeLock e.2.output := by
    rw [htx, inputsUnder_appendFee hlive]
  -- the change always comes back
  have hreturned : outputsUnder svc.feeLock out.tx =
      outputsUnder svc.feeLock base + change.toNat := by
    rw [htx, outputsUnder_appendFee, capacityUnder_self]
  have hbrought : broughtIn cells svc.feeLock (svc.needed P occupiedCapacity base) =
      capacityOutside svc.feeLock e.2.output := by
    rw [broughtIn, hfound]
    rfl
  have hsplit := capacityUnder_add_capacityOutside svc.feeLock e.2.output
  unfold risk
  rw [hin, hreturned, hbrought]
  omega

/-- **What the relayer risks.** In the transaction that `sponsor` returns, the inputs under the fee
lock exceed the outputs under it by at most the reported fee exactly when the client's own
transaction takes no more from cells under the fee lock than it puts into cells under it and the
fee cell, where the collector's search comes to one under a longer lock, brings in. -/
theorem risk_le_fee_iff (P : Platform) (occupiedCapacity : CellOutput → U64) (svc : SponsorService)
    (rpc : HttpCkbRpc) (cells : LiveCells) (hnodup : (cells.map Prod.fst).Nodup)
    (hrpc : rpc.Answers cells (feeSearch svc.feeLock)) (token : Bytes) (base : Transaction)
    (now : U64) (out : Sponsored)
    (h : (svc.onNode rpc).sponsor P occupiedCapacity token base now = .ok out) :
    risk (.ofList cells) svc.feeLock out.tx ≤ out.fee.toNat ↔
      inputsUnder (.ofList cells) svc.feeLock base ≤ outputsUnder svc.feeLock base +
        broughtIn cells svc.feeLock (svc.needed P occupiedCapacity base) := by
  have hrisk := risk_sponsored hnodup hrpc h
  unfold risk at hrisk ⊢
  omega

/-! ### A client that spends the relayer's own cell -/

def relayerOutPoint : OutPoint := ⟨sampleHash 2, 0⟩

def strangerLock : Script := ⟨sampleHash 8, 1, []⟩

/-- The fee cell, and one more cell of the relayer. -/
def relayerCells : LiveCells :=
  [(feeOutPoint, ⟨⟨10000000000, sampleShop, none⟩, []⟩),
    (relayerOutPoint, ⟨⟨50000000000, sampleShop, none⟩, []⟩)]

/-- One input, one output, and all of the input's capacity goes to `lock`. -/
def transfer (input : OutPoint) (lock : Script) : Transaction where
  raw :=
    { version := 0, cellDeps := [], headerDeps := [], inputs := [⟨0, input⟩]
      outputs := [⟨50000000000, lock, none⟩], outputsData := [[]] }
  witnesses := []

def sponsoredTransfer (input : OutPoint) (lock : Script) : Sponsored where
  tx := appendFee (transfer input lock) feeOutPoint ⟨9999999000, sampleShop, none⟩ []
  fee := 1000
  feeInput := feeOutPoint
  subject := "player-1"

/-- A transfer of a client, for a fee cell that the search comes to first. -/
theorem shopService_sponsors_transfer {cells : LiveCells} {input : OutPoint} {e : OutPoint × Cell}
    {change : U64}
    (hfee : shopService.feeFor .sample (shopService.dryTx (transfer input strangerLock)) = 1000)
    (hcell : cells.collected sampleShop 4400001000 = some e)
    (hchange : (1000 : U64).toNat + change.toNat = e.2.output.capacity.toNat) :
    (shopService.onNode (prefixIndexer sampleShop cells)).sponsor .sample plainOccupied []
        (transfer input strangerLock) 1700000000 =
      .ok ⟨appendFee (transfer input strangerLock) e.1 ⟨change, sampleShop, none⟩ [], 1000, e.1,
        "player-1"⟩ := by
  -- the oldest cell that fits is the one the caller names
  have hcollect : (prefixIndexer sampleShop cells).collectFeeCell sampleShop 4400001000 =
      .ok (some (FeeCell.of e)) := by
    rw [HttpCkbRpc.collectFeeCell_eq _ (answers_prefixIndexer sampleShop cells), hcell]
    rfl
  -- a dry run over a cell of zero capacity, for the size only
  have hdry : balance (transfer input strangerLock) dryFeeInput dryCapacity 0 sampleShop [] =
      .ok (shopService.dryTx (transfer input strangerLock)) :=
    balance_eq_ok.mpr ⟨dryCapacity, Nat.zero_add _, rfl⟩
  refine SponsorService.sponsor_eq_ok.mpr
    ⟨⟨"sponsor", "player-1", 2000000000⟩, _, 4400001000, FeeCell.of e, rfl, hdry, ?_, hcollect,
      ?_, ?_⟩
  · show (shopService.feeFor .sample _).toNat + _ = _
    rw [hfee]
    show (1000 : U64).toNat + (plainOccupied ⟨0, sampleShop, none⟩).toNat =
      (4400001000 : U64).toNat
    decide +kernel
  · show balance _ _ _ (shopService.feeFor .sample _) _ _ = _
    rw [hfee]
    exact balance_eq_ok.mpr ⟨change, hchange, rfl⟩
  · show _ = Sponsored.mk _ (shopService.feeFor .sample _) _ _
    rw [hfee]
    rfl

/-- The shop's older cell pays for a transfer. -/
theorem relayerCells_sponsor {input : OutPoint}
    (hfee : shopService.feeFor .sample (shopService.dryTx (transfer input strangerLock)) = 1000) :
    (shopService.onNode (prefixIndexer sampleShop relayerCells)).sponsor .sample plainOccupied []
        (transfer input strangerLock) 1700000000 = .ok (sponsoredTransfer input strangerLock) :=
  shopService_sponsors_transfer (e := (feeOutPoint, ⟨⟨10000000000, sampleShop, none⟩, []⟩)) hfee
    (by decide +kernel) (by decide)

/-- An authorized client sends the relayer's own cell to a stranger: the fee is 1000 shannons, the
relayer's one signature gives away 500 CKB more. -/
theorem client_spends_relayer_cell :
    (relayerCells.map Prod.fst).Nodup ∧
      (prefixIndexer sampleShop relayerCells).Answers relayerCells (feeSearch shopService.feeLock) ∧
      (shopService.onNode (prefixIndexer sampleShop relayerCells)).sponsor .sample plainOccupied []
        (transfer relayerOutPoint strangerLock) 1700000000 =
          .ok (sponsoredTransfer relayerOutPoint strangerLock) ∧
      ¬ risk (.ofList relayerCells) shopService.feeLock
          (sponsoredTransfer relayerOutPoint strangerLock).tx ≤
        (sponsoredTransfer relayerOutPoint strangerLock).fee.toNat := by
  exact ⟨by decide, answers_prefixIndexer _ _, relayerCells_sponsor (by decide +kernel),
    by decide +kernel⟩

theorem risk_le_fee_iff_stranger :
    risk (.ofList relayerCells) shopService.feeLock
        (sponsoredTransfer ⟨sampleHash 3, 0⟩ strangerLock).tx ≤
          (sponsoredTransfer ⟨sampleHash 3, 0⟩ strangerLock).fee.toNat ↔
      inputsUnder (.ofList relayerCells) shopService.feeLock
          (transfer ⟨sampleHash 3, 0⟩ strangerLock) ≤
        outputsUnder shopService.feeLock (transfer ⟨sampleHash 3, 0⟩ strangerLock) +
          broughtIn relayerCells shopService.feeLock (shopService.needed .sample plainOccupied
            (transfer ⟨sampleHash 3, 0⟩ strangerLock)) :=
  risk_le_fee_iff .sample plainOccupied shopService (prefixIndexer sampleShop relayerCells)
    relayerCells (by decide) (answers_prefixIndexer _ _) []
    (transfer ⟨sampleHash 3, 0⟩ strangerLock) 1700000000
    (sponsoredTransfer ⟨sampleHash 3, 0⟩ strangerLock) (relayerCells_sponsor (by decide +kernel))

end CkbController.PaymasterService
