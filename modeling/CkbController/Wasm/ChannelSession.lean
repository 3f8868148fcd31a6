import CkbController.Ckb.Encoding
import CkbController.Sdk.ChannelAccounting
import CkbController.Wasm.Bindings

/-!
# The channel bindings

The channel half of `wasm/src/lib.rs`: a channel session over the in-memory rail, behind a
JavaScript object. Scripts, out points and transactions cross as hex text and amounts as decimal
text; `close` takes the session out of the object, so later calls find none.

A session keeps the accounts of a purse (`ChannelSession.Keeps`): opened at most once, spent within
its budget, settled at most once. A call is accepted exactly when the purse allows it, and otherwise
it throws and changes nothing; none of them traps.
-/

namespace CkbController.Wasm

open ByteCodec Checks MachineInt

/-- The thrown strings of the channel bindings, by what writes them. -/
inductive ChannelBindingError where
  | text (e : WasmError)
  | invalidAccountLock
  | invalidFundingLock
  | outpointWithoutIndex
  | badOutpointIndex
  | openFailed (e : Sdk.ChannelError Sdk.MockRailError)
  | payFailed (e : Sdk.ChannelError Sdk.MockRailError)
  | closeFailed (e : Sdk.ChannelError Sdk.MockRailError)
  | closed
deriving DecidableEq

abbrev ChannelResult (α : Type) := Except ChannelBindingError α

def fromText {α : Type} (x : R α) : ChannelResult α := x.mapError .text

/-! ## Texts -/

/-- Molecule-encode a script from its parts. -/
def script (P : Platform) (codeHashHex : String) (hashType : UInt8) (argsHex : String) :
    R String := do
  let codeHash ← arr32 codeHashHex
  let args ← hx argsHex
  pure (hexout (P.scriptSlice { codeHash, hashType, args }))

def channelSessionParams (P : Platform) (sessionPubkeyHash : String) (expiresAt : U64)
    (fundingLockScript : String) (budget : U64) (guardianPubkeyHash : String) :
    ChannelResult String := do
  let fundingLock ← okOr (Script.decode (← fromText (hx fundingLockScript))) .invalidFundingLock
  let session ← fromText (arr20 sessionPubkeyHash)
  let guardian ← fromText (arr20 guardianPubkeyHash)
  pure (hexout (Sdk.channelSessionParams P session expiresAt fundingLock budget guardian))

/-- `split_once`. -/
def splitOnce (c : Char) (text : List Char) : Option (List Char × List Char) :=
  match text.dropWhile (· ≠ c) with
  | [] => none
  | _ :: after => some (text.takeWhile (· ≠ c), after)

/-- `u32::from_str`. -/
def parseU32 (text : List Char) : Option U32 := Decimal.fromStr 32 text

/-- `0x<txhash>:<index>`. -/
def parseOutpoint (s : String) : ChannelResult OutPoint := do
  let (tx, idx) ← okOr (splitOnce ':' s.toList) .outpointWithoutIndex
  let index ← okOr (parseU32 idx) .badOutpointIndex
  let txHash ← fromText (arr32 (String.ofList tx))
  pure { txHash, index }

/-! ### What is written reads back -/

/-- A text is split at its first separator. -/
theorem splitOnce_append {c : Char} {before after : List Char} (h : c ∉ before) :
    splitOnce c (before ++ c :: after) = some (before, after) := by
  have hkeep : ∀ d ∈ before, decide (d ≠ c) = true := fun d hd =>
    decide_eq_true fun heq => h (heq ▸ hd)
  have hstop : (c :: after).dropWhile (· ≠ c) = c :: after :=
    List.dropWhile_cons_of_neg (by simp)
  have hnone : (c :: after).takeWhile (· ≠ c) = [] := List.takeWhile_cons_of_neg (by simp)
  unfold splitOnce
  rw [List.dropWhile_append_of_pos hkeep, List.takeWhile_append_of_pos hkeep, hstop, hnone,
    List.append_nil]

/-- No hex text has a colon. -/
theorem colon_notMem_hexout (b : Bytes) : ':' ∉ (hexout b).toList := by
  rw [hexout, Hex.toList_prefixed]
  intro h
  rcases List.mem_cons.mp h with h | h
  · exact absurd h (by decide)
  rcases List.mem_cons.mp h with h | h
  · exact absurd h (by decide)
  obtain ⟨d, hd⟩ := Hex.isDigit_of_mem_digits h
  cases hd

theorem parseU32_toString (index : U32) : parseU32 (toString index.toNat).toList = some index :=
  (Decimal.fromStr_toString_nat _ _).mpr rfl

/-- **An out point reads back.** -/
theorem parseOutpoint_toString (o : OutPoint) :
    parseOutpoint (hexout o.txHash.toList ++ ":" ++ toString o.index.toNat) = .ok o := by
  have hsplit : splitOnce ':'
      (hexout o.txHash.toList ++ ":" ++ toString o.index.toNat).toList =
        some ((hexout o.txHash.toList).toList, (toString o.index.toNat).toList) := by
    rw [String.toList_append, String.toList_append, List.append_assoc]
    exact splitOnce_append (colon_notMem_hexout _)
  unfold parseOutpoint
  simp only [hsplit, okOr, ok_bind, parseU32_toString, String.ofList_toList, arr32_hexout]
  rfl

/-- Molecule is strict, and reads what it wrote. -/
theorem decode_scriptSlice {P : Platform} (hP : P.WritesScripts) {s : Script}
    (h : s.args.length < 2 ^ 31) : Script.decode (P.scriptSlice s) = some s := by
  rw [hP s]
  refine Script.decode_encode ?_
  rw [Script.length_encode]
  omega

/-- On texts that were written by the page, the binding is the SDK's function. -/
theorem channelSessionParams_hexout {P : Platform} (hP : P.WritesScripts) (session : Byte20)
    (expiresAt : U64) {fundingLock : Script} (hlock : fundingLock.args.length < 2 ^ 31)
    (budget : U64) (guardian : Byte20) :
    channelSessionParams P (hexout session.toList) expiresAt (hexout (P.scriptSlice fundingLock))
        budget (hexout guardian.toList) =
      .ok (hexout (Sdk.channelSessionParams P session expiresAt fundingLock budget guardian)) := by
  unfold channelSessionParams
  rw [hx_hexout, arr20_hexout, arr20_hexout]
  simp only [fromText, mapError_ok, ok_bind, decode_scriptSlice hP hlock, okOr]
  rfl

/-! ## The session -/

structure ChannelTx where
  tx : String
  message : String
  outpoint : String
deriving DecidableEq

/-- The fields `local`, `remote` and `settle`. -/
structure CloseResult where
  localBalance : String
  remoteBalance : String
  settle : ChannelTx
deriving DecidableEq

def channelTx (P : Platform) (ct : Sdk.ChannelTx) : ChannelTx where
  tx := hexout (P.txSlice ct.tx)
  message := hexout (Sdk.txMessage P ct.tx).toList
  outpoint := hexout (ct.outpoint P).encode

structure ChannelSession where
  inner : Option (Sdk.ChannelSession Sdk.MockRail U64)
deriving DecidableEq

namespace ChannelSession

def new (accountLockScript accountInput : String) (accountCapacity : U64)
    (fundingLockScript headerDep : String) : ChannelResult ChannelSession := do
  let accountLock ← okOr (Script.decode (← fromText (hx accountLockScript))) .invalidAccountLock
  let fundingLock ← okOr (Script.decode (← fromText (hx fundingLockScript))) .invalidFundingLock
  let accountInput ← parseOutpoint accountInput
  let headerDep ← fromText (arr32 headerDep)
  let cfg : Sdk.ChannelConfig :=
    { accountLock, accountInput, accountCapacity, fundingLock, cellDeps := [], headerDep }
  pure ⟨some (.new cfg .new)⟩

def openChannel (P : Platform) (peer : String) (budget : U64) :
    Sdk.Call ChannelSession ChannelBindingError ChannelTx := fun s =>
  match s.inner with
  | none => some (.error .closed, s)
  | some inner => do
    let (result, inner) ←
      inner.openChannel P Sdk.mockRail ⟨peer.toUTF8.data.toList⟩ budget
    match result with
    | .error e => pure (.error (.openFailed e), ⟨some inner⟩)
    | .ok ct => pure (.ok (channelTx P ct), ⟨some inner⟩)

def pay (amount : U64) : Sdk.Call ChannelSession ChannelBindingError Unit := fun s =>
  match s.inner with
  | none => some (.error .closed, s)
  | some inner => do
    let (result, inner) ← inner.pay Sdk.mockRail (amount.setWidth 128)
    pure (result.mapError .payFailed, ⟨some inner⟩)

/-- The session is taken before it is closed. -/
def close (P : Platform) : Sdk.Call ChannelSession ChannelBindingError CloseResult := fun s =>
  match s.inner with
  | none => some (.error .closed, s)
  | some inner => do
    let (result, _) ← inner.close Sdk.mockRail
    match result with
    | .error e => pure (.error (.closeFailed e), ⟨none⟩)
    | .ok (settlement, ct) =>
      pure (.ok
        { localBalance := toString settlement.localBalance.toNat
          remoteBalance := toString settlement.remoteBalance.toNat
          settle := channelTx P ct }, ⟨none⟩)

/-- The subtraction is checked. -/
def remaining (s : ChannelSession) : Option String :=
  match s.inner with
  | none => some (toString 0)
  | some inner => inner.remaining.map fun rest => toString rest.toNat

def spent (s : ChannelSession) : String :=
  toString ((s.inner.map fun inner => inner.spent.toNat).getD 0)

end ChannelSession

end CkbController.Wasm

/-! ## The session in step with its rail -/

namespace CkbController.Sdk

open ByteCodec MachineInt

variable {P : Platform} {s : ChannelSession MockRail U64} {id : U64} {ch : MockChannel}
  {a b : Allowance} {amount : U128}

/-- The channel of a session that has none yet. -/
theorem openChannel_new (cfg : ChannelConfig) (peer : PeerId) (budget : U64) :
    ∃ s' ch, (ChannelSession.new cfg .new).openChannel P mockRail peer budget =
        some (.ok (buildFundingTx cfg budget), s') ∧ s'.cfg = cfg ∧ s'.channel = some 0 ∧
      s'.funding = some ((buildFundingTx cfg budget).outpoint P) ∧
      InStep s' 0 ch (.grant budget.toNat) := by
  have hbudget : (budget.setWidth 128).toNat = budget.toNat :=
    BitVec.toNat_setWidth_of_le (by decide)
  exact ⟨_, ⟨budget.setWidth 128, 0⟩, rfl, rfl, rfl, rfl,
    ⟨rfl, ⟨hbudget, rfl⟩, ⟨hbudget, rfl⟩, rfl, budget.isLt⟩⟩

/-- What the allowance can spend is paid. -/
theorem InStep.pay_of_spend (hid : s.channel = some id) (h : InStep s id ch a)
    (hspend : a.spend amount.toNat = some b) :
    ∃ s' ch', s.pay mockRail amount = some (.ok (), s') ∧ s'.cfg = s.cfg ∧
      s'.channel = some id ∧ s'.funding = s.funding ∧ InStep s' id ch' b := by
  obtain ⟨hle, hbudget, hspent⟩ := Allowance.spend_eq_some.mp hspend
  obtain ⟨rest, hrest, hleft⟩ := h.session.remaining
  -- the rail pays what the budget covers
  obtain ⟨ch', htracks, hmock⟩ := MockRail.pay_tracks h.listed h.rail
    (Nat.lt_trans h.fits (by decide)) hspend
  -- the counter of 128 bits holds it, since budgets have 64
  have hroom : s.spent.toNat + amount.toNat < 2 ^ 128 := by
    have := h.session.2
    have := h.fits
    have := b.within
    omega
  have hadd : checkedAdd s.spent amount = some (s.spent + amount) := if_pos hroom
  have hpaid : mockRail.pay id amount s.rail =
      some (.ok (), ⟨s.rail.channels.set id.toNat ch'⟩) := hmock
  refine ⟨{ s with rail := ⟨s.rail.channels.set id.toNat ch'⟩, spent := s.spent + amount }, ch',
    ?_, rfl, hid, rfl, ?_⟩
  · unfold ChannelSession.pay
    simp only [hid, hrest, Option.bind_eq_bind, Option.bind_some]
    rw [if_neg (by omega), hpaid]
    simp only [Option.bind_some, hadd]
    rfl
  · refine ⟨?_, ⟨h.session.1.trans hbudget.symm, ?_⟩, htracks, h.funded, ?_⟩
    · obtain ⟨hlt, -⟩ := List.getElem?_eq_some_iff.mp h.listed
      exact List.getElem?_set_self hlt
    · have hsum := checkedAdd_eq_some.mp hadd
      show (s.spent + amount).toNat = b.spent
      rw [← hsum, h.session.2, hspent]
    · rw [hbudget]
      exact h.fits

/-- What it cannot spend is refused before the rail is asked. -/
theorem InStep.pay_of_exceeds (hid : s.channel = some id) (h : InStep s id ch a)
    (hspend : a.spend amount.toNat = none) :
    ∃ rest, s.pay mockRail amount = some (.error (.overBudget rest amount), s) := by
  obtain ⟨rest, hrest, hleft⟩ := h.session.remaining
  have hover : rest.toNat < amount.toNat := by
    by_contra hle
    obtain ⟨b, hb⟩ := Allowance.exists_spend (show amount.toNat ≤ a.remaining by omega)
    cases hb.symm.trans hspend
  refine ⟨rest, ?_⟩
  unfold ChannelSession.pay
  simp only [hid, hrest, Option.bind_eq_bind, Option.bind_some]
  rw [if_pos hover]
  rfl

end CkbController.Sdk

/-! ## The accounts -/

namespace CkbController.Wasm

open ByteCodec Checks

namespace ChannelSession

/-- The funding cell of a channel with this budget. -/
def fundingOutpoint (P : Platform) (cfg : Sdk.ChannelConfig) (budget : U64) : OutPoint :=
  (Sdk.buildFundingTx cfg budget).outpoint P

/-- What a session with a config knows, by the purse whose accounts it keeps. -/
inductive Keeps (P : Platform) (cfg : Sdk.ChannelConfig) : ChannelSession → Purse → Prop where
  | unopened : Keeps P cfg ⟨some (.new cfg .new)⟩ .unopened
  | live {inner : Sdk.ChannelSession Sdk.MockRail U64} {id : U64} {ch : Sdk.MockChannel}
      {a : Allowance} (config : inner.cfg = cfg) (opened : inner.channel = some id)
      (funding : inner.funding = some (fundingOutpoint P cfg (BitVec.ofNat 64 a.budget)))
      (step : Sdk.InStep inner id ch a) : Keeps P cfg ⟨some inner⟩ (.live a)
  | closed : Keeps P cfg ⟨none⟩ .closed

/-- A new session has an unopened purse. -/
theorem exists_keeps_of_new {accountLock accountInput fundingLock headerDep : String}
    {accountCapacity : U64} {s : ChannelSession}
    (h : new accountLock accountInput accountCapacity fundingLock headerDep = .ok s)
    (P : Platform) : ∃ cfg, s.Keeps P cfg .unopened := by
  unfold new at h
  obtain ⟨_, -, h⟩ := bind_eq_ok.mp h
  obtain ⟨_, -, h⟩ := bind_eq_ok.mp h
  obtain ⟨_, -, h⟩ := bind_eq_ok.mp h
  obtain ⟨_, -, h⟩ := bind_eq_ok.mp h
  obtain ⟨_, -, h⟩ := bind_eq_ok.mp h
  obtain ⟨_, -, h⟩ := bind_eq_ok.mp h
  cases h
  exact ⟨_, .unopened⟩

variable {P : Platform} {cfg : Sdk.ChannelConfig} {s : ChannelSession} {p : Purse}

/-- On texts that were written by the page, a session is made with what they stand for. -/
theorem new_hexout (hP : P.WritesScripts) {accountLock fundingLock : Script}
    (haccount : accountLock.args.length < 2 ^ 31) (hfunding : fundingLock.args.length < 2 ^ 31)
    {input : String} {accountInput : OutPoint} (hinput : parseOutpoint input = .ok accountInput)
    (accountCapacity : U64) (headerDep : Byte32) :
    new (hexout (P.scriptSlice accountLock)) input accountCapacity
        (hexout (P.scriptSlice fundingLock)) (hexout headerDep.toList) =
      .ok ⟨some (.new
        ⟨accountLock, accountInput, accountCapacity, fundingLock, [], headerDep⟩ .new)⟩ := by
  unfold new
  rw [hx_hexout, hx_hexout, arr32_hexout, hinput]
  simp only [fromText, mapError_ok, ok_bind, decode_scriptSlice hP haccount,
    decode_scriptSlice hP hfunding, okOr]
  rfl

/-- **A channel is opened once.** -/
theorem Keeps.openChannel (h : s.Keeps P cfg p) (peer : String) (budget : U64) :
    (∃ q s', p.grant budget.toNat = some q ∧ s'.Keeps P cfg q ∧
      s.openChannel P peer budget =
        some (.ok (channelTx P (Sdk.buildFundingTx cfg budget)), s')) ∨
    (p.grant budget.toNat = none ∧ ∃ e, s.openChannel P peer budget = some (.error e, s)) := by
  cases h with
  -- the first opening gets the budget it asks for
  | unopened =>
    obtain ⟨inner, ch, hopen, hcfg, hid, hfunding, hstep⟩ :=
      @Sdk.openChannel_new P cfg ⟨peer.toUTF8.data.toList⟩ budget
    refine Or.inl ⟨.live (.grant budget.toNat), ⟨some inner⟩, rfl, ?_, ?_⟩
    · refine .live hcfg hid ?_ hstep
      rw [hfunding, Allowance.grant, BitVec.ofNat_toNat, BitVec.setWidth_eq]
      rfl
    · unfold openChannel
      simp only [hopen, Option.bind_eq_bind, Option.bind_some]
      rfl
  -- a second one is refused
  | @live inner id ch a hcfg hid hfunding hstep =>
    refine Or.inr ⟨rfl, .openFailed .alreadyOpen, ?_⟩
    have hopen : inner.openChannel P Sdk.mockRail ⟨peer.toUTF8.data.toList⟩ budget =
        some (.error .alreadyOpen, inner) := by
      unfold Sdk.ChannelSession.openChannel
      rw [hid]
      rfl
    unfold openChannel
    simp only [hopen, Option.bind_eq_bind, Option.bind_some]
    rfl
  | closed => exact Or.inr ⟨rfl, .closed, rfl⟩

/-- **A payment is accepted exactly within the budget.** -/
theorem Keeps.pay (h : s.Keeps P cfg p) (amount : U64) :
    (∃ q s', p.spend amount.toNat = some q ∧ s'.Keeps P cfg q ∧
      s.pay amount = some (.ok (), s')) ∨
    (p.spend amount.toNat = none ∧ ∃ e, s.pay amount = some (.error e, s)) := by
  -- the binding widens the amount before the session sees it
  have hwide : (amount.setWidth 128).toNat = amount.toNat :=
    BitVec.toNat_setWidth_of_le (by decide)
  cases h with
  | unopened => exact Or.inr ⟨rfl, .payFailed .notOpen, rfl⟩
  | @live inner id ch a hcfg hid hfunding hstep =>
    cases hspend : a.spend amount.toNat with
    | none =>
      have hover : a.spend (amount.setWidth 128).toNat = none := by rw [hwide]; exact hspend
      obtain ⟨rest, hpay⟩ := hstep.pay_of_exceeds hid hover
      refine Or.inr ⟨congrArg (Option.map Purse.live) hspend,
        .payFailed (.overBudget rest (amount.setWidth 128)), ?_⟩
      unfold pay
      simp only [hpay, Option.bind_eq_bind, Option.bind_some]
      rfl
    | some b =>
      have hfits : a.spend (amount.setWidth 128).toNat = some b := by rw [hwide]; exact hspend
      obtain ⟨inner', ch', hpay, hcfg', hid', hfunding', hstep'⟩ := hstep.pay_of_spend hid hfits
      have hbudget := (Allowance.spend_eq_some.mp hspend).2.1
      refine Or.inl ⟨.live b, ⟨some inner'⟩, congrArg (Option.map Purse.live) hspend, ?_, ?_⟩
      · refine .live (hcfg'.trans hcfg) hid' ?_ hstep'
        rw [hfunding', hfunding, hbudget]
      · unfold pay
        simp only [hpay, Option.bind_eq_bind, Option.bind_some]
        rfl
  | closed => exact Or.inr ⟨rfl, .closed, rfl⟩

/-- The transaction that settles an allowance. -/
def settleTx (P : Platform) (cfg : Sdk.ChannelConfig) (a : Allowance) : Sdk.ChannelTx :=
  Sdk.buildSettleTx cfg (fundingOutpoint P cfg (BitVec.ofNat 64 a.budget))
    ⟨BitVec.ofNat 128 a.remaining, BitVec.ofNat 128 a.spent⟩

/-- **Whatever `close` returns, there is no session afterwards**, and a channel that was opened is
settled with its accounts. -/
theorem Keeps.close (h : s.Keeps P cfg p) :
    (∃ a, p.settle = some a ∧ s.close P =
      some (.ok ⟨toString a.remaining, toString a.spent, channelTx P (settleTx P cfg a)⟩,
        ⟨none⟩)) ∨
    (p.settle = none ∧ ∃ e, s.close P = some (.error e, ⟨none⟩)) := by
  cases h with
  | unopened => exact Or.inr ⟨rfl, .closeFailed .notOpen, rfl⟩
  | @live inner id ch a hcfg hid hfunding hstep =>
    obtain ⟨funding, taken, hfunding', hclose⟩ := hstep.close hid
    obtain rfl := Option.some.inj (hfunding.symm.trans hfunding')
    have hlocal : ch.localBalance = BitVec.ofNat 128 a.remaining := by
      rw [← hstep.rail.1, BitVec.ofNat_toNat, BitVec.setWidth_eq]
    have hremote : ch.remoteBalance = BitVec.ofNat 128 a.spent := by
      rw [← hstep.rail.2, BitVec.ofNat_toNat, BitVec.setWidth_eq]
    refine Or.inl ⟨a, rfl, ?_⟩
    unfold close
    simp only [hclose, Option.bind_eq_bind, Option.bind_some]
    rw [hstep.rail.1, hstep.rail.2, hcfg]
    unfold settleTx
    rw [← hlocal, ← hremote]
    rfl
  | closed => exact Or.inr ⟨rfl, .closed, rfl⟩

/-- `remaining` never traps, and is what the purse has left. -/
theorem Keeps.remaining_eq (h : s.Keeps P cfg p) : s.remaining = some (toString p.remaining) := by
  cases h with
  | unopened =>
    have hnothing : MachineInt.checkedSub (0 : U128) 0 = some 0 := by
      unfold MachineInt.checkedSub
      rw [if_pos (Nat.le_refl _)]
      rfl
    unfold remaining Sdk.ChannelSession.remaining Sdk.ChannelSession.new
    simp only [hnothing, Option.map_some]
    rfl
  | @live inner id ch a hcfg hid hfunding hstep =>
    unfold remaining
    simp only [hstep.remaining, Option.map_some, hstep.rail.1]
    rfl
  | closed => rfl

/-- `spent` is what the purse has spent. -/
theorem Keeps.spent_eq (h : s.Keeps P cfg p) : s.spent = toString p.spent := by
  cases h with
  | unopened => rfl
  | @live inner id ch a hcfg hid hfunding hstep =>
    show toString inner.spent.toNat = toString a.spent
    rw [hstep.session.2]
  | closed => rfl

end ChannelSession

end CkbController.Wasm
