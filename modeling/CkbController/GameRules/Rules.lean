import CkbController.Lib.Checks
import CkbController.Lib.MachineInt
import CkbController.Ckb.Transaction

/-!
# The game rules

The crate `controller-game-rules`: the shared board, its byte layout, and the transition the
type script enforces. The same code runs off chain, so nothing in it touches a transaction.
-/

namespace CkbController.GameRules

open ByteCodec MachineInt Checks

/-! ## Constants and errors -/

@[simp] def gameIdLen : Nat := 32
@[simp] def signatureLen : Nat := 65
@[simp] def entryLen : Nat := 36
@[simp] def intentLen : Nat := 101
@[simp] def stateHeaderLen : Nat := 12

def maxPointsPerMove : U64 := 1000

/-- The ASCII bytes of `ckb-controller/game-intent/v1`. -/
def intentDomain : Bytes :=
  [99, 107, 98, 45, 99, 111, 110, 116, 114, 111, 108, 108, 101, 114, 47,
   103, 97, 109, 101, 45, 105, 110, 116, 101, 110, 116, 47, 118, 49]

inductive GameError where
  | stateMalformed
  | batchMalformed
  | nonceNotFresh
  | pointsTooHigh
  | overflow
deriving DecidableEq, Repr

/-! ## The board and the moves -/

structure PlayerEntry where
  hash : Byte20
  score : U64
  nonce : U64
deriving DecidableEq

structure GameState where
  seq : U64
  players : List PlayerEntry
deriving DecidableEq

structure Intent where
  hash : Byte20
  points : U64
  nonce : U64
  sig : ByteArr signatureLen
deriving DecidableEq

def GameState.empty : GameState := ⟨0, []⟩

/-! ## The rule -/

def PlayerEntry.play (p : PlayerEntry) (intent : Intent) : Except GameError PlayerEntry := do
  let next ← okOr (checkedAdd p.nonce 1) .overflow
  rejectIf (intent.nonce ≠ next) .nonceNotFresh
  let score ← okOr (checkedAdd p.score intent.points) .overflow
  pure { p with score, nonce := intent.nonce }

/-- The first entry with the player's hash is played; a new player is put at the end. -/
def playOn (intent : Intent) : List PlayerEntry → Except GameError (List PlayerEntry)
  | [] => do
    rejectIf (intent.nonce ≠ 1) .nonceNotFresh
    pure [{ hash := intent.hash, score := intent.points, nonce := 1 }]
  | p :: players =>
    if p.hash = intent.hash then do
      let p' ← p.play intent
      pure (p' :: players)
    else do
      let players' ← playOn intent players
      pure (p :: players')

def GameState.applyIntent (s : GameState) (intent : Intent) : Except GameError GameState := do
  rejectIf (maxPointsPerMove.toNat < intent.points.toNat) .pointsTooHigh
  let players ← playOn intent s.players
  pure { s with players }

def GameState.applyIntents (s : GameState) : List Intent → Except GameError GameState
  | [] => .ok s
  | intent :: intents => do
    let s' ← s.applyIntent intent
    s'.applyIntents intents

def GameState.applyBatch (s : GameState) (intents : List Intent) : Except GameError GameState := do
  let s' ← s.applyIntents intents
  let seq ← okOr (checkedAdd s'.seq (BitVec.ofNat 64 intents.length)) .overflow
  pure { s' with seq }

/-- Every entry of the left board has an equal entry on the right, and the sizes agree. -/
def GameState.equalsUnordered (s other : GameState) : Bool :=
  s.seq == other.seq && s.players.length == other.players.length &&
    s.players.all fun p =>
      other.players.any fun q => q.hash == p.hash && q.score == p.score && q.nonce == p.nonce

/-! ## Bytes -/

def PlayerEntry.encode (p : PlayerEntry) : Bytes := p.hash.toList ++ toLe p.score ++ toLe p.nonce

def GameState.encode (s : GameState) : Bytes :=
  toLe s.seq ++ toLe (BitVec.ofNat 32 s.players.length) ++ s.players.flatMap PlayerEntry.encode

/-- Every caller passes exactly `entryLen` bytes. -/
def readEntry (e : Bytes) : PlayerEntry where
  hash := ByteArr.ofBytes 20 (slice e 0 20)
  score := ofLe 64 (slice e 20 28)
  nonce := ofLe 64 (slice e 28 36)

def GameState.decode (data : Bytes) : Except GameError GameState :=
  if data = [] then .ok .empty
  else do
    rejectIf (data.length < stateHeaderLen) .stateMalformed
    let seq := ofLe 64 (slice data 0 8)
    let count := (ofLe 32 (slice data 8 12)).toNat
    rejectIf (data.length ≠ stateHeaderLen + count * entryLen) .stateMalformed
    let players := (List.range count).map fun i =>
      readEntry
        (slice data (stateHeaderLen + i * entryLen) (stateHeaderLen + i * entryLen + entryLen))
    pure { seq, players }

def Intent.encode (i : Intent) : Bytes :=
  i.hash.toList ++ toLe i.points ++ toLe i.nonce ++ i.sig.toList

def Intent.decode (b : Bytes) : Except GameError Intent := do
  rejectIf (b.length ≠ intentLen) .batchMalformed
  pure
    { hash := ByteArr.ofBytes 20 (slice b 0 20)
      points := ofLe 64 (slice b 20 28)
      nonce := ofLe 64 (slice b 28 36)
      sig := ByteArr.ofBytes 65 (slice b 36 101) }

/-- `intents.len() as u16` truncates. -/
def encodeBatch (intents : List Intent) : Bytes :=
  toLe (BitVec.ofNat 16 intents.length) ++ intents.flatMap Intent.encode

def decodeBatch (batch : Bytes) : Except GameError (List Intent) := do
  rejectIf (batch.length < 2) .batchMalformed
  let n := (ofLe 16 (slice batch 0 2)).toNat
  rejectIf (batch.length ≠ 2 + n * intentLen) .batchMalformed
  (List.range n).mapM fun i =>
    Intent.decode (slice batch (2 + i * intentLen) (2 + i * intentLen + intentLen))

/-! ## The signed message -/

variable (P : Platform)

/-- What a player signs: bound to one game and to one move of it. -/
def intentMessage (gameId : Byte32) (hash : Byte20) (points nonce : U64) : Byte32 :=
  P.blake2b (intentDomain ++ gameId.toList ++ hash.toList ++ toLe points ++ toLe nonce)

end CkbController.GameRules
