import CkbController.Sdk.Agreement
import CkbController.SdkJs.GamePlayer
import CkbController.SdkJs.LiveRail
import CkbController.Wasm.ChannelSession

/-!
# The mock rail

`MockRail` of the JavaScript SDK: the wasm channel session over a made-up account cell, with the
invoices of the page it runs on. Amounts are whole CKB in bigints; in shannons they enter wasm
modulo `2 ^ 64`. The methods do not wait for anything, so a call runs to its end before another one
starts.

The address that the constructor encodes for display is left out.
-/

namespace CkbController.SdkJs

open ByteCodec Checks Wasm

/-! ## Keys and numbers -/

/-- One leading `0x` goes. -/
def strip : List Char → List Char
  | '0' :: 'x' :: digits => digits
  | text => text

def hexBytes (h : String) : Option Bytes := Hex.decode (strip h.toList)

/-- The key library signs messages of 32 bytes. -/
def signRecoverable (msgHex : String) (key : KeyPair) : Option String := do
  let message ← hexBytes msgHex
  if h : message.length = 32 then some (hexout (key.signRecoverable ⟨message, h⟩).toList) else none

/-- `BigInt` of a text of decimal digits. -/
def bigInt (text : String) : Option Nat :=
  if text.toList.all Char.isDigit then some (Nat.ofDigitChars 10 text.toList 0) else none

/-- `text.repeat(n)`. -/
def repeated (text : String) (n : Nat) : String :=
  String.ofList (List.replicate n text.toList).flatten

/-- `text.split(":")[0]`. -/
def beforeColon (text : String) : String := String.ofList (text.toList.takeWhile (· ≠ ':'))

/-- What a bigint of whole CKB becomes as a `u64` of shannons. -/
def toShannons (ckb : Int) : U64 := toU64 (ckb * CKB)

/-- A byte written out `n` times. -/
theorem repeated_eq {text : String} {x : UInt8} (h : text.toList = Hex.digits x) (n : Nat) :
    "0x" ++ repeated text n = hexout (List.replicate n x) := by
  have hdigits : (List.replicate n text.toList).flatten =
      (List.replicate n x).flatMap Hex.digits := by
    rw [List.flatMap_def, List.map_replicate, h]
  unfold repeated
  rw [hdigits]
  rfl

/-- Signing a message that is given as text signs the message. -/
theorem signRecoverable_hexout (message : Byte32) (key : KeyPair) :
    signRecoverable (hexout message.toList) key =
      some (hexout (key.signRecoverable message).toList) := by
  have hbytes : hexBytes (hexout message.toList) = some message.toList := by
    unfold hexBytes hexout
    rw [Hex.toList_prefixed]
    exact Hex.decode_flatMap_digits _
  unfold signRecoverable
  simp only [hbytes, Option.bind_eq_bind, Option.bind_some]
  rw [dif_pos message.toList_length]
  rfl

/-- A number is read back from its decimal text. -/
theorem bigInt_toString (n : Nat) : bigInt (toString n) = some n := by
  have htext : (toString n).toList = Nat.toDigits 10 n := by
    show (Nat.repr n).toList = _
    rw [Nat.repr_eq_ofList_toDigits, String.toList_ofList]
  have hall : (Nat.toDigits 10 n).all Char.isDigit = true :=
    List.all_eq_true.mpr fun c hc => Nat.isDigit_of_mem_toDigits (by decide) (by decide) hc
  unfold bigInt
  rw [htext, if_pos hall, Nat.ofDigitChars_ten_toDigits]

/-! ## The rail -/

/-- What the methods throw, by what throws it. -/
inductive MockFailure where
  | text (e : WasmError)
  | channel (e : ChannelBindingError)
  | badMessage
  | badNumber
  | unknownInvoice
  | alreadyPaid
deriving DecidableEq

def fromBinding {α : Type} (x : R α) : Except MockFailure α := x.mapError .text

structure MockRail where
  owner : KeyPair
  session : KeyPair
  ch : Wasm.ChannelSession

namespace MockRail

/-- The one place a channel may go to. -/
def fundingLock (P : Platform) : R String :=
  script P ("0x" ++ repeated "ab" 32) 0
    (hexout "fiber-funding".toUTF8.data.toList)

/-- A throwaway controller with a cap of the budget, over an account cell of 1000 CKB. -/
def create (P : Platform) (lockCodeHash : String) (budgetCkb : Int) (owner session : KeyPair) :
    Except MockFailure MockRail := do
  let guardian := "0x" ++ repeated "00" 20
  let fundingLock ← fromBinding (fundingLock P)
  let params ← (channelSessionParams P (hexout session.pubHash.toList) Wasm.noExpiry fundingLock
    (toShannons budgetCkb) guardian).mapError .channel
  let args ← fromBinding (registeredArgs (hexout owner.pubHash.toList) params)
  let accountLock ← fromBinding (script P lockCodeHash 4 args)
  let accountInput := "0x" ++ repeated "11" 32 ++ ":0"
  let headerDep := "0x" ++ repeated "00" 32
  let ch ← (ChannelSession.new accountLock accountInput (toShannons 1000) fundingLock
    headerDep).mapError .channel
  pure { owner, session, ch }

/-- The signature goes into a witness that is dropped. -/
def signFunding (P : Platform) (session : KeyPair) (funding : Wasm.ChannelTx) :
    Except MockFailure OpenResult := do
  let sig ← okOr (signRecoverable funding.message session) .badMessage
  let _ ← fromBinding (sessionWitnessRegistered P sig "" channelProofRegion)
  pure { id := beforeColon funding.outpoint, signedBy := "session key (mock · no node)" }

def openChannel (P : Platform) (budgetCkb : Int) : Sdk.Call MockRail MockFailure OpenResult :=
  fun rail => do
    let (result, ch) ← rail.ch.openChannel P "game-server-node" (toShannons budgetCkb)
    match result with
    | .error e => pure (.error (.channel e), { rail with ch })
    | .ok funding => pure (signFunding P rail.session funding, { rail with ch })

def pay (costCkb : Int) : Sdk.Call MockRail MockFailure Unit := fun rail => do
  let (result, ch) ← rail.ch.pay (toShannons costCkb)
  pure (result.mapError .channel, { rail with ch })

def spentCkb (rail : MockRail) : Option Nat := (bigInt rail.ch.spent).map (· / CKB)

def remainingCkb (rail : MockRail) : Option Nat := do
  let remaining ← rail.ch.remaining
  (bigInt remaining).map (· / CKB)

def signSettle (session : KeyPair) (res : CloseResult) : Except MockFailure SettleResult := do
  let _ ← okOr (signRecoverable res.settle.message session) .badMessage
  let localShannons ← okOr (bigInt res.localBalance) .badNumber
  let remoteShannons ← okOr (bigInt res.remoteBalance) .badNumber
  pure
    { localCkb := (localShannons / CKB : Nat)
      remoteCkb := (remoteShannons / CKB : Nat)
      settleTxHash := beforeColon res.settle.outpoint }

def close (P : Platform) : Sdk.Call MockRail MockFailure SettleResult := fun rail => do
  let (result, ch) ← rail.ch.close P
  match result with
  | .error e => pure (.error (.channel e), { rail with ch })
  | .ok res => pure (signSettle rail.session res, { rail with ch })

end MockRail

/-! ## Invoices -/

structure MockInvoice where
  amountCkb : Int
  paid : Bool
deriving DecidableEq

/-- The map and the counter of the module, which all rails of a page share. The counter is a
double. -/
structure Registry where
  invoices : String → Option MockInvoice
  invoiceSeq : Nat

def invoiceId (amountCkb : Int) (seq : Nat) (random : String) : String :=
  "mockfibt" ++ toString amountCkb ++ "n" ++ toString seq ++ "x" ++ random

namespace Registry

def empty : Registry := ⟨fun _ => none, 0⟩

/-- The amount of an invoice, in whole CKB. -/
def amountOf (r : Registry) (id : String) : Int :=
  ((r.invoices id).map MockInvoice.amountCkb).getD 0

/-- `random` is what `Math.random` contributes. -/
def newInvoice (r : Registry) (amountCkb : Int) (random : String) : String × Registry :=
  let seq := roundToDouble (r.invoiceSeq + 1)
  let id := invoiceId amountCkb seq random
  (id, { invoices := Function.update r.invoices id (some ⟨amountCkb, false⟩), invoiceSeq := seq })

/-- An invoice that was just issued is found unpaid. -/
theorem lookup_newInvoice (r : Registry) (amountCkb : Int) (random : String) :
    (r.newInvoice amountCkb random).2.invoices (r.newInvoice amountCkb random).1 =
      some ⟨amountCkb, false⟩ := by
  unfold newInvoice
  exact Function.update_self ..

end Registry

def MockRail.payInvoice (invoice : String) : Sdk.Call (MockRail × Registry) MockFailure Unit :=
  fun (rail, r) =>
    match r.invoices invoice with
    | none => some (.error .unknownInvoice, rail, r)
    | some inv =>
      if inv.paid then some (.error .alreadyPaid, rail, r)
      else do
        let (result, rail) ← rail.pay inv.amountCkb
        match result with
        | .error e => pure (.error e, rail, r)
        | .ok () =>
          let invoices := Function.update r.invoices invoice (some { inv with paid := true })
          pure (.ok (), rail, { r with invoices })

/-! ## What a rail does -/

namespace MockRail

variable {P : Platform} {cfg : Sdk.ChannelConfig} {rail : MockRail} {p : Purse}

/-- A rail that was created keeps the books of a channel that is not open. -/
theorem exists_keeps_of_create {lockCodeHash : String} {budgetCkb : Int} {owner session : KeyPair}
    (h : create P lockCodeHash budgetCkb owner session = .ok rail) :
    ∃ cfg, rail.ch.Keeps P cfg .unopened := by
  unfold create at h
  obtain ⟨_, -, h⟩ := bind_eq_ok.mp h
  obtain ⟨_, -, h⟩ := bind_eq_ok.mp h
  obtain ⟨_, -, h⟩ := bind_eq_ok.mp h
  obtain ⟨_, -, h⟩ := bind_eq_ok.mp h
  obtain ⟨ch, hnew, h⟩ := bind_eq_ok.mp h
  cases h
  exact ChannelSession.exists_keeps_of_new (mapError_eq_ok.mp hnew) P

/-- The placeholder lock of a channel's funding cell. -/
def fundingScript : Script :=
  ⟨⟨List.replicate 32 0xAB, rfl⟩, 0, "fiber-funding".toUTF8.data.toList⟩

/-- The session of a rail whose lock has this code. -/
def config (P : Platform) (code : Byte32) (budgetCkb : Int) (owner session : KeyPair) :
    Sdk.ChannelConfig where
  accountLock := ⟨code, 4, Sdk.registeredArgs owner.pubHash (Sdk.channelSessionParams P
    session.pubHash Wasm.noExpiry fundingScript (toShannons budgetCkb) zero20)⟩
  accountInput := ⟨⟨List.replicate 32 0x11, rfl⟩, 0⟩
  accountCapacity := toShannons 1000
  fundingLock := fundingScript
  cellDeps := []
  headerDep := zero32

/-- The funding lock is the text of a fixed script. -/
theorem fundingLock_eq : fundingLock P = .ok (hexout (P.scriptSlice fundingScript)) := by
  have hcode : arr32 ("0x" ++ repeated "ab" 32) = .ok fundingScript.codeHash := by
    rw [repeated_eq (x := 0xAB) rfl]
    exact arr32_hexout fundingScript.codeHash
  unfold fundingLock script
  rw [hcode, hx_hexout]
  rfl

/-- **A rail is made for any lock code.** -/
theorem create_eq (hP : P.WritesScripts) (code : Byte32) (budgetCkb : Int)
    (owner session : KeyPair) :
    create P (hexout code.toList) budgetCkb owner session =
      .ok ⟨owner, session, ⟨some (.new (config P code budgetCkb owner session) .new)⟩⟩ := by
  let cfg := config P code budgetCkb owner session
  have hguardian : "0x" ++ repeated "00" 20 = hexout zero20.toList := repeated_eq (x := 0) rfl 20
  have hheader : "0x" ++ repeated "00" 32 = hexout zero32.toList := repeated_eq (x := 0) rfl 32
  have hinput : parseOutpoint ("0x" ++ repeated "11" 32 ++ ":0") = .ok cfg.accountInput := by
    have hindex : ":0" = ":" ++ toString (0 : Nat) := by decide
    rw [repeated_eq (x := 0x11) rfl, hindex, ← String.append_assoc]
    exact parseOutpoint_toString cfg.accountInput
  have hfunding : fundingScript.args.length < 2 ^ 31 := by decide
  -- every text the page passes is one the binding parses
  have hparams := channelSessionParams_hexout hP session.pubHash Wasm.noExpiry hfunding
    (toShannons budgetCkb) zero20
  have hargs := registeredArgs_hexout owner.pubHash (Sdk.channelSessionParams P session.pubHash
    Wasm.noExpiry fundingScript (toShannons budgetCkb) zero20)
  have haccount : cfg.accountLock.args.length < 2 ^ 31 := by
    have hlength : cfg.accountLock.args.length = 116 :=
      Sdk.length_registeredArgs _ (Sdk.length_sessionParams ..)
    omega
  have hlock : script P (hexout code.toList) 4 (hexout cfg.accountLock.args) =
      .ok (hexout (P.scriptSlice cfg.accountLock)) := by
    unfold script
    rw [arr32_hexout, hx_hexout]
    rfl
  have hnew := ChannelSession.new_hexout hP haccount hfunding hinput (toShannons 1000) zero32
  -- the two bindings in turn, each with the values above
  unfold create
  simp only [fundingLock_eq, fromBinding, mapError_ok, ok_bind, hguardian, hparams, hargs, hheader]
  rw [show Sdk.registeredArgs owner.pubHash _ = cfg.accountLock.args from rfl, hlock, mapError_ok,
    ok_bind, hnew]
  rfl

/-- What wasm wrote can be signed. -/
theorem signFunding_channelTx (session : KeyPair) (ct : Sdk.ChannelTx) :
    ∃ result, signFunding P session (channelTx P ct) = .ok result := by
  have hempty : hx "" = .ok [] := rfl
  have hsign : signRecoverable (channelTx P ct).message session = some _ :=
    signRecoverable_hexout _ _
  unfold signFunding sessionWitnessRegistered channelProofRegion
  simp only [hsign, okOr, ok_bind, hempty, hx_hexout]
  exact ⟨_, rfl⟩

/-- Signing a settlement turns its shannons into whole CKB. -/
theorem signSettle_channelTx (session : KeyPair) (m n : Nat) (ct : Sdk.ChannelTx) :
    ∃ hash, signSettle session ⟨toString m, toString n, channelTx P ct⟩ =
      .ok ⟨(m / CKB : Nat), (n / CKB : Nat), hash⟩ := by
  have hsign : signRecoverable (channelTx P ct).message session = some _ :=
    signRecoverable_hexout _ _
  unfold signSettle
  simp only [hsign, okOr, ok_bind, bigInt_toString]
  exact ⟨_, rfl⟩

/-- Opening grants the budget when no channel is open, and otherwise leaves the rail as it was. -/
theorem openChannel_spec (h : rail.ch.Keeps P cfg p) (budgetCkb : Int) :
    (∃ q ch result, p.grant (toShannons budgetCkb).toNat = some q ∧ ch.Keeps P cfg q ∧
      rail.openChannel P budgetCkb = some (.ok result, { rail with ch })) ∨
    (p.grant (toShannons budgetCkb).toNat = none ∧
      ∃ e, rail.openChannel P budgetCkb = some (.error e, rail)) := by
  rcases h.openChannel "game-server-node" (toShannons budgetCkb) with
    ⟨q, ch, hq, hkeeps, hopen⟩ | ⟨hnone, e, hopen⟩
  · obtain ⟨result, hsign⟩ := @signFunding_channelTx P rail.session
      (Sdk.buildFundingTx cfg (toShannons budgetCkb))
    refine Or.inl ⟨q, ch, result, hq, hkeeps, ?_⟩
    unfold openChannel
    simp only [hopen, Option.bind_eq_bind, Option.bind_some, hsign]
    rfl
  · refine Or.inr ⟨hnone, .channel e, ?_⟩
    unfold openChannel
    simp only [hopen, Option.bind_eq_bind, Option.bind_some]
    rfl

/-- A payment spends its cost when the channel has it left, and otherwise leaves the rail as it
was. -/
theorem pay_spec (h : rail.ch.Keeps P cfg p) (costCkb : Int) :
    (∃ q ch, p.spend (toShannons costCkb).toNat = some q ∧ ch.Keeps P cfg q ∧
      rail.pay costCkb = some (.ok (), { rail with ch })) ∨
    (p.spend (toShannons costCkb).toNat = none ∧
      ∃ e, rail.pay costCkb = some (.error e, rail)) := by
  rcases h.pay (toShannons costCkb) with ⟨q, ch, hq, hkeeps, hpay⟩ | ⟨hnone, e, hpay⟩
  · refine Or.inl ⟨q, ch, hq, hkeeps, ?_⟩
    unfold pay
    simp only [hpay, Option.bind_eq_bind, Option.bind_some]
    rfl
  · refine Or.inr ⟨hnone, .channel e, ?_⟩
    unfold pay
    simp only [hpay, Option.bind_eq_bind, Option.bind_some]
    rfl

/-- An invoice is paid as its amount is, and only if it is there and not paid. -/
theorem payInvoice_spec (h : rail.ch.Keeps P cfg p) (r : Registry) (invoice : String) :
    (∃ inv q ch, r.invoices invoice = some inv ∧ inv.paid = false ∧
      p.spend (toShannons inv.amountCkb).toNat = some q ∧ ch.Keeps P cfg q ∧
      payInvoice invoice (rail, r) = some (.ok (), { rail with ch },
        { r with invoices := Function.update r.invoices invoice (some { inv with paid := true }) }))
    ∨ ((∀ inv, r.invoices invoice = some inv → inv.paid = false →
        p.spend (toShannons inv.amountCkb).toNat = none) ∧
      ∃ e, payInvoice invoice (rail, r) = some (.error e, rail, r)) := by
  cases hinv : r.invoices invoice with
  -- the registry does not know the invoice
  | none =>
    refine Or.inr ⟨fun inv hsome => (by cases hsome), .unknownInvoice, ?_⟩
    unfold payInvoice
    simp only [hinv]
  | some inv =>
    cases hpaid : inv.paid with
    -- it is paid already
    | true =>
      refine Or.inr ⟨fun inv' hsome hfalse => ?_, .alreadyPaid, ?_⟩
      · cases hsome
        cases hpaid.symm.trans hfalse
      · unfold payInvoice
        simp only [hinv, hpaid, if_true]
    | false =>
      -- the session decides
      rcases pay_spec h inv.amountCkb with ⟨q, ch, hq, hkeeps, hpay⟩ | ⟨hnone, e, hpay⟩
      · refine Or.inl ⟨inv, q, ch, rfl, hpaid, hq, hkeeps, ?_⟩
        unfold payInvoice
        simp only [hinv, hpaid, hpay, Option.bind_eq_bind, Option.bind_some]
        rfl
      · refine Or.inr ⟨fun inv' hsome _ => Option.some.inj hsome ▸ hnone, e, ?_⟩
        unfold payInvoice
        simp only [hinv, hpaid, hpay, Option.bind_eq_bind, Option.bind_some]
        rfl

/-- A close settles the open channel and forgets it. -/
theorem close_spec (h : rail.ch.Keeps P cfg p) :
    (∃ a hash, p.settle = some a ∧ rail.close P =
      some (.ok ⟨(a.remaining / CKB : Nat), (a.spent / CKB : Nat), hash⟩,
        { rail with ch := ⟨none⟩ })) ∨
    (p.settle = none ∧ ∃ e, rail.close P = some (.error e, { rail with ch := ⟨none⟩ })) := by
  rcases h.close with ⟨a, ha, hclose⟩ | ⟨hnone, e, hclose⟩
  · obtain ⟨hash, hsign⟩ := @signSettle_channelTx P rail.session a.remaining a.spent
      (ChannelSession.settleTx P cfg a)
    refine Or.inl ⟨a, hash, ha, ?_⟩
    unfold close
    simp only [hclose, Option.bind_eq_bind, Option.bind_some, hsign]
    rfl
  · refine Or.inr ⟨hnone, .channel e, ?_⟩
    unfold close
    simp only [hclose, Option.bind_eq_bind, Option.bind_some]
    rfl

/-- The getter shows what the channel has spent, in whole CKB. -/
theorem spentCkb_eq (h : rail.ch.Keeps P cfg p) : rail.spentCkb = some (p.spent / CKB) := by
  unfold spentCkb
  rw [h.spent_eq, bigInt_toString]
  rfl

/-- The getter shows what the channel has left, in whole CKB. -/
theorem remainingCkb_eq (h : rail.ch.Keeps P cfg p) :
    rail.remainingCkb = some (p.remaining / CKB) := by
  unfold remainingCkb
  simp only [h.remaining_eq, Option.bind_eq_bind, Option.bind_some, bigInt_toString]
  rfl

end MockRail

end CkbController.SdkJs
