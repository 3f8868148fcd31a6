import CkbController.Ckb.Encoding
import CkbController.Lib.Paging
import CkbController.PaymasterService.Rpc

/-!
# The collector and the indexer

`get_cells` without a `script_search_mode` is a prefix search: it finds every cell whose lock has
the given code and args that start with the given ones, in the order of creation, and answers one
page at a time. `collect_fee_cell` reads the first page of a hundred plain cells and takes the
first that is large enough. So a cell under a longer lock can pass for the relayer's, and one that
is large enough is not seen on a later page.

* `collectFeeCell_eq` — what the collector returns over an indexer;
* `collector_meets_iff` — exactly when that is what the trait promises.
-/

namespace CkbController

/-- The same code, with args that begin with those of `lock`. -/
def Script.startsWith (s lock : Script) : Bool :=
  lock.sameCode s && lock.args.isPrefixOf s.args

theorem Script.startsWith_self (lock : Script) : lock.startsWith lock = true := by
  unfold Script.startsWith
  rw [Bool.and_eq_true]
  exact ⟨(Script.sameCode_iff _ _).mpr ⟨rfl, rfl⟩, List.isPrefixOf_iff_prefix.mpr List.prefix_rfl⟩

namespace PaymasterService

open ByteCodec Checks Paging

/-! ## Searching by lock -/

/-- A range of the filter is half-open. -/
def inRange (range : Nat × Nat) (n : Nat) : Bool := range.1 ≤ n && n < range.2

/-- The bytes of a type script as the filter counts them: code hash, hash type and args. -/
def typeLen (type : Option Script) : Nat := (type.map fun s => 33 + s.args.length).getD 0

/-- The first call of `get_cells` for the cells under a lock: ascending, no cursor yet. -/
structure Search where
  lock : Script
  scriptLenRange : Nat × Nat
  outputDataLenRange : Nat × Nat
  limit : Nat

namespace Search

variable (q : Search)

def rangeJson (range : Nat × Nat) : Json := .array [quantity range.1, quantity range.2]

def params (rpc : HttpCkbRpc) : Json :=
  .array
    [.object
      [("script", rpc.jsonScript q.lock), ("script_type", .string "lock"),
        ("filter", .object
          [("script_len_range", rangeJson q.scriptLenRange),
            ("output_data_len_range", rangeJson q.outputDataLenRange)])],
      .string "asc", quantity q.limit, .null]

def finds (c : Cell) : Bool :=
  c.output.lock.startsWith q.lock && inRange q.scriptLenRange (typeLen c.output.type) &&
    inRange q.outputDataLenRange c.data.length

/-- All that the search finds among the live cells, which stand in the order of creation. -/
def results (cells : LiveCells) : LiveCells := cells.filter fun e => q.finds e.2

def page (cells : LiveCells) : LiveCells := (q.results cells).take q.limit

end Search

/-- The search of `collect_fee_cell`. -/
def feeSearch (lock : Script) : Search := ⟨lock, (0, 1), (0, 1), 100⟩

/-- The first cell on the page of the fee search that holds at least `minCapacity`. -/
def LiveCells.collected (cells : LiveCells) (lock : Script) (minCapacity : U64) :
    Option (OutPoint × Cell) :=
  ((feeSearch lock).page cells).find? (LiveCells.covers minCapacity)

/-- The indexer answers the search with the first page of what it finds. -/
structure HttpCkbRpc.Answers (rpc : HttpCkbRpc) (cells : LiveCells) (q : Search) : Prop where
  answer : ∃ res objects, rpc.call "get_cells" (q.params rpc) = .ok res ∧
    field res "objects" = .array objects ∧ List.Forall₂ rpc.Describes objects (q.page cells)

variable {rpc : HttpCkbRpc} {cells : LiveCells} {lock : Script} {minCapacity : U64}
  {e : OutPoint × Cell}

/-- Only a missing type script has length 0. -/
theorem typeLen_eq_zero {type : Option Script} : typeLen type = 0 ↔ type = none := by
  cases type with
  | none => exact iff_of_true rfl rfl
  | some s =>
    show 33 + s.args.length = 0 ↔ _
    constructor
    · intro h
      omega
    · intro h
      cases h

theorem inRange_zero_one {n : Nat} : inRange (0, 1) n = true ↔ n = 0 := by
  show (decide (0 ≤ n) && decide (n < 1)) = true ↔ _
  rw [Bool.and_eq_true, decide_eq_true_eq, decide_eq_true_eq]
  omega

/-- The fee search finds the plain cells, whatever follows the args of the lock. -/
theorem finds_feeSearch {c : Cell} :
    (feeSearch lock).finds c = true ↔
      c.output.lock.startsWith lock = true ∧ c.output.type = none ∧ c.data = [] := by
  unfold Search.finds
  rw [Bool.and_eq_true, Bool.and_eq_true]
  show (_ ∧ inRange (0, 1) _ = true) ∧ inRange (0, 1) _ = true ↔ _
  rw [inRange_zero_one, inRange_zero_one, typeLen_eq_zero, List.length_eq_zero_iff, and_assoc]
  rfl

/-- The search finds the plain cells whose lock starts with the lock searched for. -/
theorem mem_results : e ∈ (feeSearch lock).results cells ↔
    e ∈ cells ∧ e.2.output.lock.startsWith lock = true ∧ e.2.output.type = none ∧
      e.2.data = [] := by
  unfold Search.results
  rw [List.mem_filter, finds_feeSearch]

/-- What is collected is live and plain and large enough, under a lock that starts with the given
one. -/
theorem mem_of_collected (h : cells.collected lock minCapacity = some e) :
    e ∈ cells ∧ e.2.output.lock.startsWith lock = true ∧ e.2.output.type = none ∧
      e.2.data = [] ∧ minCapacity.toNat ≤ e.2.output.capacity.toNat := by
  have hmem : e ∈ (feeSearch lock).results cells :=
    List.mem_of_mem_take (List.mem_of_find?_eq_some h)
  have hcovers : LiveCells.covers minCapacity e = true := List.find?_some h
  obtain ⟨hlive, hlock, htype, hdata⟩ := mem_results.mp hmem
  exact ⟨hlive, hlock, htype, hdata, of_decide_eq_true hcovers⟩

/-! ## What the collector returns -/

namespace HttpCkbRpc

/-- The request of the code is this search. -/
theorem getCells_eq (rpc : HttpCkbRpc) (lock : Script) :
    rpc.getCells lock = rpc.call "get_cells" ((feeSearch lock).params rpc) := by
  have hzero : quantity 0 = .string "0x0" := rfl
  have hone : quantity 1 = .string "0x1" := rfl
  have hlimit : quantity 100 = .string "0x64" := rfl
  have hrange : Search.rangeJson (0, 1) = .array [.string "0x0", .string "0x1"] := by
    unfold Search.rangeJson
    rw [hzero, hone]
  unfold getCells searchKey Search.params feeSearch
  rw [hrange, hlimit]

/-- **The collector over an indexer.** The first cell of the page that is large enough, whatever
its lock. -/
theorem collectFeeCell_eq (minCapacity : U64) (h : rpc.Answers cells (feeSearch lock)) :
    rpc.collectFeeCell lock minCapacity =
      .ok ((cells.collected lock minCapacity).map FeeCell.of) := by
  obtain ⟨res, objects, hres, hobjects, hall⟩ := h.answer
  have hplain : ∀ e ∈ (feeSearch lock).page cells, e.2.output.type = none := by
    intro e he
    exact (mem_results.mp (List.mem_of_mem_take he)).2.2.1
  unfold collectFeeCell
  rw [getCells_eq, hres, ok_bind, hobjects]
  exact firstCovering_of_describes hall hplain

end HttpCkbRpc

/-! ## What the trait promises -/

/-- A live, plain cell under `lock` with at least `minCapacity` shannons. -/
structure Usable (cells : LiveCells) (lock : Script) (minCapacity : U64) (e : OutPoint × Cell) :
    Prop where
  live : e ∈ cells
  lock : e.2.output.lock = lock
  type : e.2.output.type = none
  data : e.2.data = []
  capacity : minCapacity.toNat ≤ e.2.output.capacity.toNat

/-- The contract of `collect_fee_cell`: a cell that is returned is usable, and `Ok(None)` means
that none is. -/
structure CkbRpc.Meets (rpc : CkbRpc) (cells : LiveCells) (lock : Script) (minCapacity : U64) :
    Prop where
  found : ∀ feeCell, rpc.collectFeeCell lock minCapacity = .ok (some feeCell) →
    ∃ e, Usable cells lock minCapacity e ∧ FeeCell.of e = feeCell
  missing : rpc.collectFeeCell lock minCapacity = .ok none →
    ¬ ∃ e, Usable cells lock minCapacity e

/-- Is the cell under the lock itself? -/
def isUnder (lock : Script) (e : OutPoint × Cell) : Bool := e.2.output.lock = lock

/-- The population lets the collector through to the relayer's own cells: on the page of its
search, a large enough cell under a longer lock comes only after one under the lock itself, and
if there is a usable cell at all, there is one on the page. -/
structure Unobstructed (cells : LiveCells) (lock : Script) (minCapacity : U64) : Prop where
  unshadowed : Unshadowed (LiveCells.covers minCapacity) (isUnder lock)
    ((feeSearch lock).page cells)
  onPage : (∃ e, Usable cells lock minCapacity e) →
    ∃ e ∈ (feeSearch lock).page cells, Usable cells lock minCapacity e

/-- Among what the search finds, the usable cells are the large enough ones under the lock. -/
theorem usable_iff (he : e ∈ (feeSearch lock).results cells) :
    Usable cells lock minCapacity e ↔
      LiveCells.covers minCapacity e = true ∧ isUnder lock e = true := by
  obtain ⟨hlive, -, htype, hdata⟩ := mem_results.mp he
  constructor
  · intro h
    exact ⟨decide_eq_true h.capacity, decide_eq_true h.lock⟩
  · rintro ⟨hcovers, hlock⟩
    exact ⟨hlive, of_decide_eq_true hlock, htype, hdata, of_decide_eq_true hcovers⟩

theorem Usable.mem_results (h : Usable cells lock minCapacity e) :
    e ∈ (feeSearch lock).results cells :=
  PaymasterService.mem_results.mpr
    ⟨h.live, h.lock ▸ Script.startsWith_self e.2.output.lock, h.type, h.data⟩

/-- A usable cell is a result under the lock itself that covers the capacity. -/
theorem exists_usable_iff :
    (∃ e, Usable cells lock minCapacity e) ↔
      ∃ e ∈ (feeSearch lock).results cells,
        LiveCells.covers minCapacity e = true ∧ isUnder lock e = true := by
  constructor
  · rintro ⟨e, he⟩
    exact ⟨e, he.mem_results, (usable_iff he.mem_results).mp he⟩
  · rintro ⟨e, hmem, he⟩
    exact ⟨e, (usable_iff hmem).mpr he⟩

/-- The same on the first page. -/
theorem exists_usable_on_page_iff :
    (∃ e ∈ (feeSearch lock).page cells, Usable cells lock minCapacity e) ↔
      ∃ e ∈ (feeSearch lock).page cells,
        LiveCells.covers minCapacity e = true ∧ isUnder lock e = true := by
  apply exists_congr
  intro e
  exact and_congr_right fun hmem => usable_iff (List.mem_of_mem_take hmem)

/-- The contract, read off the first hit of the page. -/
theorem meets_iff_first (hnodup : (cells.map Prod.fst).Nodup)
    (h : rpc.Answers cells (feeSearch lock)) :
    rpc.toCkbRpc.Meets cells lock minCapacity ↔
      (∀ e, ((feeSearch lock).page cells).find? (LiveCells.covers minCapacity) = some e →
          isUnder lock e = true) ∧
        (((feeSearch lock).page cells).find? (LiveCells.covers minCapacity) = none →
          ¬ ∃ e, Usable cells lock minCapacity e) := by
  have hcollect : rpc.toCkbRpc.collectFeeCell lock minCapacity = _ :=
    HttpCkbRpc.collectFeeCell_eq minCapacity h
  rw [LiveCells.collected] at hcollect
  constructor
  · intro hmeets
    constructor
    · intro e hfirst
      rw [hfirst] at hcollect
      obtain ⟨e', he', hof⟩ := hmeets.found _ hcollect
      have hlive : e ∈ cells := (mem_of_collected hfirst).1
      -- an out point belongs to one live cell
      have hsame : e' = e :=
        List.inj_on_of_nodup_map hnodup he'.live hlive (congrArg FeeCell.outPoint hof)
      exact decide_eq_true (hsame ▸ he'.lock)
    · intro hnone
      rw [hnone] at hcollect
      exact hmeets.missing hcollect
  · rintro ⟨hfirst, hnone⟩
    constructor
    · intro feeCell hfound
      rw [hcollect] at hfound
      obtain ⟨e, he, hof⟩ := Option.map_eq_some_iff.mp (Except.ok.inj hfound)
      have hmem := List.mem_of_mem_take (List.mem_of_find?_eq_some he)
      exact ⟨e, (usable_iff hmem).mpr ⟨List.find?_some he, hfirst e he⟩, hof⟩
    · intro hmissing
      rw [hcollect] at hmissing
      exact hnone (Option.map_eq_none_iff.mp (Except.ok.inj hmissing))

/-- **When the HTTP collector meets the contract.** For every population of live cells, every lock
and every capacity: over an indexer, `collect_fee_cell` keeps the promise of the trait exactly
when the population leaves the relayer's own cells unobstructed. -/
theorem collector_meets_iff (rpc : HttpCkbRpc) (cells : LiveCells) (lock : Script)
    (minCapacity : U64) (hnodup : (cells.map Prod.fst).Nodup)
    (h : rpc.Answers cells (feeSearch lock)) :
    rpc.toCkbRpc.Meets cells lock minCapacity ↔ Unobstructed cells lock minCapacity := by
  rw [meets_iff_first hnodup h, exists_usable_iff, finds_iff, ← exists_usable_iff,
    ← exists_usable_on_page_iff]
  constructor
  · rintro ⟨hunshadowed, honPage⟩
    exact ⟨hunshadowed, honPage⟩
  · intro hclear
    exact ⟨hclear.unshadowed, hclear.onPage⟩

/-! ### Two populations that anyone can make

A node with a prefix search, and what it answers when a stranger has created cells. -/

/-- A node whose indexer answers every `get_cells` with the page of the fee search. -/
def prefixIndexer (lock : Script) (cells : LiveCells) : HttpCkbRpc :=
  answering ((feeSearch lock).page cells)

/-- The node that pages its results answers the search. -/
theorem answers_prefixIndexer (lock : Script) (cells : LiveCells) :
    (prefixIndexer lock cells).Answers cells (feeSearch lock) := by
  refine ⟨.object [("objects", .array (((feeSearch lock).page cells).map cellJson))],
    ((feeSearch lock).page cells).map cellJson, ?_, ?_, ?_⟩
  · exact HttpCkbRpc.call_answering _ _ _
  · simp [field]
  · exact HttpCkbRpc.forall₂_describes _ _

def plainOutPoint (n : Nat) : OutPoint := ⟨sampleHash 2, BitVec.ofNat 32 n⟩

def plainCell (n : Nat) (lock : Script) (capacity : U64) : OutPoint × Cell :=
  (plainOutPoint n, ⟨⟨capacity, lock, none⟩, []⟩)

theorem nodup_plainOutPoints {count : Nat} (h : count ≤ 2 ^ 32) :
    ((List.range count).map plainOutPoint).Nodup := by
  refine List.Nodup.map_on ?_ List.nodup_range
  intro i hi j hj heq
  have hi := List.mem_range.mp hi
  have hj := List.mem_range.mp hj
  have hindex : (BitVec.ofNat 32 i).toNat = (BitVec.ofNat 32 j).toNat :=
    congrArg (fun o : OutPoint => o.index.toNat) heq
  rw [BitVec.toNat_ofNat, BitVec.toNat_ofNat] at hindex
  omega

/-- The shop's args with one byte more. -/
def longerLock : Script := ⟨sampleHash 9, 1, [1, 2, 3, 4]⟩

/-- A stranger's cell under the longer lock is older than the shop's own. -/
def shadowedCells : LiveCells :=
  [plainCell 0 longerLock 10000000000, plainCell 1 sampleShop 10000000000]

/-- A hundred least cells under the shop's lock are older than its one large cell. -/
def crowdedCells : LiveCells :=
  (List.range 100).map (plainCell · sampleShop 4400000000) ++
    [plainCell 100 sampleShop 10000000000]

theorem nodup_crowdedCells : (crowdedCells.map Prod.fst).Nodup := by
  have hpoints : crowdedCells.map Prod.fst = (List.range (100 + 1)).map plainOutPoint := by
    rw [crowdedCells, List.map_append, List.map_map, List.range_succ, List.map_append]
    rfl
  rw [hpoints]
  exact nodup_plainOutPoints (by decide)

/-- The stranger's cell is taken for the shop's, and the shop's large cell is not seen. -/
theorem collector_misled :
    ((shadowedCells.map Prod.fst).Nodup ∧
        (prefixIndexer sampleShop shadowedCells).Answers shadowedCells (feeSearch sampleShop) ∧
        ¬ (prefixIndexer sampleShop shadowedCells).toCkbRpc.Meets shadowedCells sampleShop
          4400001000) ∧
      (crowdedCells.map Prod.fst).Nodup ∧
        (prefixIndexer sampleShop crowdedCells).Answers crowdedCells (feeSearch sampleShop) ∧
        ¬ (prefixIndexer sampleShop crowdedCells).toCkbRpc.Meets crowdedCells sampleShop
          4400001000 := by
  have hshadowed := answers_prefixIndexer sampleShop shadowedCells
  have hcrowded := answers_prefixIndexer sampleShop crowdedCells
  refine ⟨⟨by decide +kernel, hshadowed, ?_⟩, nodup_crowdedCells, hcrowded, ?_⟩
  · intro hmeets
    have hcollect : (prefixIndexer sampleShop shadowedCells).collectFeeCell sampleShop 4400001000 =
        .ok (some (FeeCell.of (plainCell 0 longerLock 10000000000))) := by
      rw [HttpCkbRpc.collectFeeCell_eq _ hshadowed]
      exact congrArg Except.ok (by decide +kernel)
    obtain ⟨e, he, hof⟩ := hmeets.found _ hcollect
    -- of the two live cells, the one under the shop's lock has another out point
    have hother : ∀ e ∈ shadowedCells, e.2.output.lock = sampleShop →
        FeeCell.of e ≠ FeeCell.of (plainCell 0 longerLock 10000000000) := by decide +kernel
    exact hother e he.live he.lock hof
  · intro hmeets
    have hcollect : (prefixIndexer sampleShop crowdedCells).collectFeeCell sampleShop 4400001000 =
        .ok none := by
      rw [HttpCkbRpc.collectFeeCell_eq _ hcrowded]
      exact congrArg Except.ok (by decide +kernel)
    refine hmeets.missing hcollect ⟨plainCell 100 sampleShop 10000000000, ?_⟩
    exact
      { live := List.mem_append_right _ (List.mem_singleton.mpr rfl)
        lock := rfl
        type := rfl
        data := rfl
        capacity := by decide }

/-- The shop's own cell is older than the stranger's. -/
def openCells : LiveCells :=
  [plainCell 0 sampleShop 10000000000, plainCell 1 longerLock 10000000000]

theorem collector_meets_iff_open :
    (prefixIndexer sampleShop openCells).toCkbRpc.Meets openCells sampleShop 4400001000 ↔
      Unobstructed openCells sampleShop 4400001000 :=
  collector_meets_iff (prefixIndexer sampleShop openCells) openCells sampleShop 4400001000
    (by decide +kernel) (answers_prefixIndexer sampleShop openCells)

end PaymasterService

end CkbController
