import CkbController.Lib.Checks
import CkbController.Lib.Decimal
import CkbController.Lib.Hex
import CkbController.Sdk.Channel

/-!
# The wasm bindings

`wasm/src/lib.rs`: the SDK's builders behind a JavaScript boundary that bytes cross as hex text
and a spend cap as decimal text. Each binding reads its texts, calls the SDK, and writes its
answer; what it writes reads back (`hx_hexout`), so a value that has crossed twice is the value.

This module has the readers that all bindings share, and the bindings that the account commands
call. The game's bindings are in `GameBindings`, the channel's in `ChannelSession`.
-/

namespace CkbController.Wasm

open ByteCodec Checks

/-- The thrown strings, by the reader that writes them. -/
inductive WasmError where
  | invalidHex
  | expected20Bytes
  | expected32Bytes
  | invalidU128
deriving DecidableEq, Repr

abbrev R (α : Type) := Except WasmError α

/-! ## Texts -/

def hx (s : String) : R Bytes := okOr (Hex.decode (Hex.trim0x s.toList)) .invalidHex

/-- `Vec<u8>` into an array of exactly `n` bytes. -/
def exactly (n : Nat) (e : WasmError) (b : Bytes) : R (ByteArr n) :=
  if h : b.length = n then .ok ⟨b, h⟩ else .error e

def arr20 (s : String) : R Byte20 := do exactly 20 .expected20Bytes (← hx s)

def arr32 (s : String) : R Byte32 := do exactly 32 .expected32Bytes (← hx s)

def hexout (b : Bytes) : String := "0x" ++ Hex.hexEncode b

def parseU128 (s : String) : R U128 := okOr (Decimal.fromStr 128 s.toList) .invalidU128

/-! ## Sentinels -/

def wildcardRoot : String := hexout (List.replicate 32 0xFF)

def noExpiry : U64 := BitVec.allOnes 64

/-! ## Encoding -/

def sessionParams (sessionPubkeyHash : String) (expiresAt : U64) (policiesRoot spendCap
    guardianPubkeyHash : String) : R String := do
  let session ← arr20 sessionPubkeyHash
  let root ← arr32 policiesRoot
  let cap ← parseU128 spendCap
  let guardian ← arr20 guardianPubkeyHash
  pure (hexout (Sdk.sessionParams session expiresAt root cap guardian))

def registeredArgs (ownerPubkeyHash params : String) : R String := do
  let owner ← arr20 ownerPubkeyHash
  let params ← hx params
  pure (hexout (Sdk.registeredArgs owner params))

/-! ## Witnesses -/

def channelProofRegion : String := hexout Sdk.channelProofRegion

/-- An empty `guardian_sig` is no signature. -/
def sessionWitnessRegistered (P : Platform) (sessionSig guardianSig proofRegion : String) :
    R String := do
  let g ← hx guardianSig
  let guardian := if g = [] then none else some g
  let session ← hx sessionSig
  let region ← hx proofRegion
  pure (hexout (Sdk.sessionWitnessRegistered P session guardian region))

/-! ## What is written reads back -/

@[simp] theorem hx_hexout (b : Bytes) : hx (hexout b) = .ok b := by
  unfold hx hexout
  rw [Hex.trim0x_hexEncode, Hex.decode_flatMap_digits]
  rfl

/-- An array has its own length. -/
@[simp] theorem exactly_toList {n : Nat} {e : WasmError} (a : ByteArr n) :
    exactly n e a.toList = .ok a := by
  unfold exactly
  rw [dif_pos a.toList_length]
  rfl

@[simp] theorem arr20_hexout (a : Byte20) : arr20 (hexout a.toList) = .ok a := by
  unfold arr20
  rw [hx_hexout]
  exact exactly_toList a

@[simp] theorem arr32_hexout (a : Byte32) : arr32 (hexout a.toList) = .ok a := by
  unfold arr32
  rw [hx_hexout]
  exact exactly_toList a

/-- A bigint crosses as its digits, if it is not negative and fits. -/
theorem parseU128_toString (n : Int) (c : U128) :
    parseU128 (toString n) = .ok c ↔ n = c.toNat := by
  unfold parseU128
  rw [okOr_eq_ok, Decimal.fromStr_toString]

/-! ## What the bindings return for texts they read -/

/-- On hashes that were written as text, the binding is the SDK's function. -/
theorem sessionParams_hexout (session : Byte20) (expiresAt : U64)
    {rootText capText guardianText : String} {root : Byte32} {cap : U128} {guardian : Byte20}
    (hroot : arr32 rootText = .ok root) (hcap : parseU128 capText = .ok cap)
    (hguardian : arr20 guardianText = .ok guardian) :
    sessionParams (hexout session.toList) expiresAt rootText capText guardianText =
      .ok (hexout (Sdk.sessionParams session expiresAt root cap guardian)) := by
  unfold sessionParams
  rw [arr20_hexout, hroot, hcap, hguardian]
  rfl

/-- On bytes that were written as text, the binding is the SDK's function. -/
theorem registeredArgs_hexout (owner : Byte20) (params : Bytes) :
    registeredArgs (hexout owner.toList) (hexout params) =
      .ok (hexout (Sdk.registeredArgs owner params)) := by
  unfold registeredArgs
  rw [arr20_hexout, hx_hexout]
  rfl

end CkbController.Wasm
