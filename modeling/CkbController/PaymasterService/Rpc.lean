import CkbController.Ckb.Ledger
import CkbController.Lib.Hex
import CkbController.Lib.Json
import CkbController.PaymasterService.Service

/-!
# The node behind HTTP

`HttpCkbRpc` as far as the relayer's fee cells go: the JSON-RPC call, and the walk through the
objects of a `get_cells` answer. The transport, the JSON of `ckb-jsonrpc-types` and
`H256::from_str` are fields.

* `firstCovering_of_describes` — the walk returns the first cell that the answer describes and that
  is large enough;
* `describes_cellJson` — what a node writes for a cell describes it.
-/

namespace CkbController.PaymasterService

open ByteCodec Checks Hex

/-! ## Reading an answer -/

/-- `v[key]`: `null` where there is no such field. -/
def field (v : Json) (key : String) : Json := (v.get key).getD .null

def isNull : Json → Bool
  | .null => true
  | _ => false

def numberErrorText : NumberError → String
  | .empty => "cannot parse integer from empty string"
  | .invalidDigit => "invalid digit found in string"
  | .overflow => "number too large to fit in target type"

/-- `u64::from_str_radix(s, 16)`. -/
def u64FromStrRadix16 : List Char → Except NumberError Nat := fromStrRadix16 (2 ^ 64)

structure HttpCkbRpc where
  /-- Posts a request and returns the body of the response. -/
  post : Json → Except String Json
  jsonScript : Script → Json
  h256FromStr : String → Except String Byte32
  /-- A JSON value as an error message prints it. -/
  display : Json → String

namespace HttpCkbRpc

variable (rpc : HttpCkbRpc)

def call (method : String) (params : Json) : Except String Json := do
  let resp ← rpc.post (.object
    [("id", .number 1), ("jsonrpc", .string "2.0"), ("method", .string method),
      ("params", params)])
  match resp.get "error" with
  | none => pure (field resp "result")
  | some err =>
    if isNull err then pure (field resp "result")
    else .error ("rpc " ++ method ++ " error: " ++ rpc.display err)

def parseHexU64 (v : Json) : Except String U64 := do
  let s ← okOr v.asStr ("expected hex string, got " ++ rpc.display v)
  let n ← (u64FromStrRadix16 (trim0x s.toList)).mapError numberErrorText
  pure (BitVec.ofNat 64 n)

/-- The first object of the answer that has no type script and enough capacity. -/
def firstCovering (minCapacity : U64) : List Json → Except String (Option FeeCell)
  | [] => .ok none
  | obj :: objects =>
    if isNull (field (field obj "output") "type") then do
      let capacity ← rpc.parseHexU64 (field (field obj "output") "capacity")
      if capacity.toNat < minCapacity.toNat then firstCovering minCapacity objects
      else do
        let txHash ← okOr (field (field obj "out_point") "tx_hash").asStr "cell: no tx_hash"
        let index ← rpc.parseHexU64 (field (field obj "out_point") "index")
        let hash ← rpc.h256FromStr (String.ofList (trim0x txHash.toList))
        pure (some ⟨⟨hash, index.setWidth 32⟩, capacity⟩)
    else firstCovering minCapacity objects

/-- Cells under the lock whose type script and data have length 0. -/
def searchKey (lock : Script) : Json :=
  .object
    [("script", rpc.jsonScript lock), ("script_type", .string "lock"),
      ("filter", .object
        [("script_len_range", .array [.string "0x0", .string "0x1"]),
          ("output_data_len_range", .array [.string "0x0", .string "0x1"])])]

def getCells (lock : Script) : Except String Json :=
  rpc.call "get_cells" (.array [rpc.searchKey lock, .string "asc", .string "0x64", .null])

def collectFeeCell (lock : Script) (minCapacity : U64) : Except String (Option FeeCell) := do
  let res ← rpc.getCells lock
  rpc.firstCovering minCapacity ((field res "objects").asArray.getD [])

def toCkbRpc : CkbRpc := ⟨rpc.collectFeeCell⟩

end HttpCkbRpc

/-! ## What the indexer answers -/

/-- Live cells, in the order of the indexer. -/
abbrev LiveCells := List (OutPoint × Cell)

def LiveCells.covers (minCapacity : U64) (e : OutPoint × Cell) : Bool :=
  minCapacity.toNat ≤ e.2.output.capacity.toNat

def FeeCell.of (e : OutPoint × Cell) : FeeCell := ⟨e.1, e.2.output.capacity⟩

namespace HttpCkbRpc

variable {rpc : HttpCkbRpc} {obj : Json} {e : OutPoint × Cell}

/-- `obj` is what the indexer writes for a live cell. -/
structure Describes (rpc : HttpCkbRpc) (obj : Json) (e : OutPoint × Cell) : Prop where
  type : isNull (field (field obj "output") "type") = e.2.output.type.isNone
  capacity : rpc.parseHexU64 (field (field obj "output") "capacity") = .ok e.2.output.capacity
  txHash : ∃ s, (field (field obj "out_point") "tx_hash").asStr = some s ∧
    rpc.h256FromStr (String.ofList (trim0x s.toList)) = .ok e.1.txHash
  index : ∃ n, rpc.parseHexU64 (field (field obj "out_point") "index") = .ok n ∧
    n.setWidth 32 = e.1.index

/-- The walk passes over what is too small and stops at the first cell that is not. -/
theorem firstCovering_of_describes {minCapacity : U64} {objects : List Json} {cells : LiveCells}
    (h : List.Forall₂ rpc.Describes objects cells)
    (hplain : ∀ e ∈ cells, e.2.output.type = none) :
    rpc.firstCovering minCapacity objects =
      .ok ((cells.find? (LiveCells.covers minCapacity)).map FeeCell.of) := by
  induction h with
  | nil => rfl
  | @cons obj e objects cells hobj _ ih =>
    have hnull : isNull (field (field obj "output") "type") = true := by
      rw [hobj.type, hplain e List.mem_cons_self]
      rfl
    rw [firstCovering, if_pos hnull, hobj.capacity, ok_bind]
    -- the first that is large enough ends the search, and only then its out point is read
    by_cases hcovers : LiveCells.covers minCapacity e = true
    · obtain ⟨s, hs, hhash⟩ := hobj.txHash
      obtain ⟨n, hn, hindex⟩ := hobj.index
      rw [if_neg (Nat.not_lt.mpr (of_decide_eq_true hcovers)), List.find?_cons_of_pos hcovers, hs,
        hn]
      show (rpc.h256FromStr _ >>= _) = _
      rw [hhash]
      show Except.ok (some (FeeCell.mk ⟨e.1.txHash, n.setWidth 32⟩ _)) = _
      rw [hindex]
      rfl
    · have hshort : e.2.output.capacity.toNat < minCapacity.toNat :=
        Nat.not_le.mp (of_decide_eq_false (Bool.not_eq_true _ ▸ hcovers))
      rw [if_pos hshort, List.find?_cons_of_neg hcovers]
      exact ih fun e he => hplain e (List.mem_cons_of_mem _ he)

end HttpCkbRpc

/-! ### A node

What the indexer of a node writes, and that it is read back. -/

/-- A number as CKB's JSON writes it. -/
def quantity (n : Nat) : Json := .string (String.ofList ('0' :: 'x' :: Nat.toDigits 16 n))

def hexText (b : Bytes) : Json := .string (String.ofList ('0' :: 'x' :: b.flatMap digits))

def hashTypeText (hashType : UInt8) : String :=
  if hashType = 0 then "data"
  else if hashType = 1 then "type"
  else if hashType = 2 then "data1"
  else "data2"

def scriptJson (s : Script) : Json :=
  .object
    [("code_hash", hexText s.codeHash.toList), ("hash_type", .string (hashTypeText s.hashType)),
      ("args", hexText s.args)]

def outputJson (o : CellOutput) : Json :=
  .object
    [("capacity", quantity o.capacity.toNat), ("lock", scriptJson o.lock),
      ("type", (o.type.map scriptJson).getD .null)]

def outPointJson (op : OutPoint) : Json :=
  .object [("tx_hash", hexText op.txHash.toList), ("index", quantity op.index.toNat)]

def cellJson (e : OutPoint × Cell) : Json :=
  .object
    [("out_point", outPointJson e.1), ("output", outputJson e.2.output),
      ("output_data", hexText e.2.data)]

/-- A node that answers every call with these cells. -/
def answering (cells : LiveCells) : HttpCkbRpc where
  post _ := .ok (.object
    [("jsonrpc", .string "2.0"),
      ("result", .object [("objects", .array (cells.map cellJson))])])
  jsonScript := scriptJson
  h256FromStr s :=
    match decode s.toList with
    | none => .error "invalid character"
    | some bytes => if h : bytes.length = 32 then .ok ⟨bytes, h⟩ else .error "invalid length"
  display _ := "value"

namespace HttpCkbRpc

theorem call_answering (cells : LiveCells) (method : String) (params : Json) :
    (answering cells).call method params =
      .ok (.object [("objects", .array (cells.map cellJson))]) := by
  simp [call, answering, field, bind, Except.bind, pure, Except.pure]

/-- A number that CKB's JSON writes is read back. -/
theorem parseHexU64_quantity (rpc : HttpCkbRpc) {n : Nat} (h : n < 2 ^ 64) :
    rpc.parseHexU64 (quantity n) = .ok (BitVec.ofNat 64 n) := by
  have htrim : trim0x (String.ofList ('0' :: 'x' :: Nat.toDigits 16 n)).toList =
      Nat.toDigits 16 n := trim0x_ofList fun c hc => isDigit_of_mem_toDigits hc
  have hread : ((u64FromStrRadix16 (trim0x
      (String.ofList ('0' :: 'x' :: Nat.toDigits 16 n)).toList)).mapError numberErrorText) =
        .ok n := by
    rw [htrim, u64FromStrRadix16, fromStrRadix16_toDigits h]
    rfl
  show (Except.mapError numberErrorText _ >>= _) = _
  rw [hread]
  rfl

/-- So is a hash. -/
theorem h256FromStr_hexText (cells : LiveCells) (hash : Byte32) :
    (answering cells).h256FromStr (String.ofList (trim0x
      (String.ofList ('0' :: 'x' :: hash.toList.flatMap digits)).toList)) = .ok hash := by
  have htrim : trim0x (String.ofList ('0' :: 'x' :: hash.toList.flatMap digits)).toList =
      hash.toList.flatMap digits := trim0x_ofList fun c hc => isDigit_of_mem_digits hc
  rw [htrim]
  show (match decode (String.ofList (hash.toList.flatMap digits)).toList with
    | none => Except.error "invalid character"
    | some bytes =>
      if h : bytes.length = 32 then Except.ok ⟨bytes, h⟩ else Except.error "invalid length") =
        Except.ok hash
  rw [String.toList_ofList, decode_flatMap_digits]
  exact dif_pos hash.toList_length

/-- **What the indexer writes for a cell describes it.** -/
theorem describes_cellJson (cells : LiveCells) (e : OutPoint × Cell) :
    (answering cells).Describes (cellJson e) e := by
  have houtput : field (cellJson e) "output" = outputJson e.2.output := by
    simp [field, cellJson]
  have houtPoint : field (cellJson e) "out_point" = outPointJson e.1 := by
    simp [field, cellJson]
  refine ⟨?_, ?_, ?_, ?_⟩
  · rw [houtput]
    have htype : field (outputJson e.2.output) "type" =
        (e.2.output.type.map scriptJson).getD .null := by
      simp [field, outputJson]
    rw [htype]
    cases e.2.output.type <;> rfl
  · have hcapacity : field (outputJson e.2.output) "capacity" =
        quantity e.2.output.capacity.toNat := by
      simp [field, outputJson]
    rw [houtput, hcapacity, parseHexU64_quantity _ e.2.output.capacity.isLt, BitVec.ofNat_toNat]
    rfl
  · have hhash : field (outPointJson e.1) "tx_hash" = hexText e.1.txHash.toList := by
      simp [field, outPointJson]
    rw [houtPoint, hhash]
    exact ⟨_, rfl, h256FromStr_hexText cells e.1.txHash⟩
  · have hindex : field (outPointJson e.1) "index" = quantity e.1.index.toNat := by
      simp [field, outPointJson]
    rw [houtPoint, hindex]
    -- the index of 32 bits is written as a quantity of 64
    have hlt : e.1.index.toNat < 2 ^ 64 := by
      have := e.1.index.isLt
      omega
    refine ⟨_, parseHexU64_quantity _ hlt, ?_⟩
    apply BitVec.eq_of_toNat_eq
    rw [BitVec.toNat_setWidth, BitVec.toNat_ofNat, Nat.mod_eq_of_lt hlt,
      Nat.mod_eq_of_lt e.1.index.isLt]

/-- The objects of such an answer describe its cells. -/
theorem forall₂_describes (answer cells : LiveCells) :
    List.Forall₂ (answering answer).Describes (cells.map cellJson) cells := by
  rw [List.forall₂_map_left_iff]
  exact List.forall₂_same.mpr fun e _ => describes_cellJson answer e

end HttpCkbRpc

end CkbController.PaymasterService
