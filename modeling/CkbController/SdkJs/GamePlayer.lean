import CkbController.GameRules.Board
import CkbController.GameRules.Codec
import CkbController.PaymasterService.GameServer

/-!
# The player in the browser

`GameClient` and `GamePlayer` of the JavaScript SDK: a player signs its moves with a session key and
numbers them with a local nonce, which counts on before the operator has answered. A board comes as
JSON, and a JSON number is a double, so a nonce from `2 ^ 53` on is rounded.

* `intentOf_intentBody` — what a player posts is the intent that the operator's server reads;
* `board_game` — what a client makes of the server's board;
* `me_of_board` — the entry that `syncNonce` finds, and the nonce in it.
-/

namespace CkbController.SdkJs

open ByteCodec Checks GameRules Hex PaymasterService.GameServer

/-! ## Numbers -/

/-- The double nearest to an unsigned integer, ties to even: the value of a JSON number. -/
def roundToDouble (n : Nat) : Nat :=
  let unit := 2 ^ (n.log2 - 52)
  let q := n / unit
  let r := n % unit
  (if unit < 2 * r ∨ (unit = 2 * r ∧ q % 2 = 1) then q + 1 else q) * unit

/-- Integers below `2 ^ 53` are doubles. -/
theorem roundToDouble_of_lt {n : Nat} (h : n < 2 ^ 53) : roundToDouble n = n := by
  -- 53 bits hold the number
  have hlog : n.log2 - 52 = 0 := by
    by_cases hn : n = 0
    · rw [hn]
      rfl
    · have := (Nat.log2_lt hn).mpr h
      omega
  unfold roundToDouble
  rw [hlog]
  simp [Nat.mod_one]

/-- A `bigint` handed to a `u64` parameter. -/
def toU64 (n : Int) : U64 := BitVec.ofInt 64 n

/-! ## Boards -/

structure BoardPlayer where
  hash : String
  score : Nat
  nonce : Nat
deriving DecidableEq

structure Board where
  seq : Nat
  players : List BoardPlayer
deriving DecidableEq

def asNumber (j : Json) : Option Nat := j.asU64.map fun n => roundToDouble n.toNat

def BoardPlayer.ofJson (j : Json) : Option BoardPlayer := do
  let hash ← (j.get "hash").bind Json.asStr
  let score ← (j.get "score").bind asNumber
  let nonce ← (j.get "nonce").bind asNumber
  some { hash, score, nonce }

def Board.ofJson (j : Json) : Option Board := do
  let seq ← (j.get "seq").bind asNumber
  let players ← (j.get "players").bind Json.asArray
  let players ← players.mapM BoardPlayer.ofJson
  some { seq, players }

/-- `GameClient.board`, from the answer to `GET /game`, if there is one. -/
def board (answer : Option Response) : Option Board := do
  let (status, body) ← answer
  if 200 ≤ status ∧ status < 300 then Board.ofJson body else none

/-! ### The operator's board as a client reads it -/

def hashText (hash : Byte20) : String := "0x" ++ hexEncode hash.toList

def entryOf (p : PlayerEntry) : BoardPlayer :=
  ⟨hashText p.hash, roundToDouble p.score.toNat, roundToDouble p.nonce.toNat⟩

def boardOf (s : GameState) : Board := ⟨roundToDouble s.seq.toNat, s.players.map entryOf⟩

theorem ofJson_playerJson (p : PlayerEntry) :
    BoardPlayer.ofJson (playerJson p) = some (entryOf p) := by
  simp [BoardPlayer.ofJson, playerJson, asNumber, Json.asStr, Json.asU64, entryOf, hashText]

/-- The entries' JSON is read as the entries, in order. -/
theorem mapM_ofJson (players : List PlayerEntry) :
    (players.map playerJson).mapM BoardPlayer.ofJson = some (players.map entryOf) := by
  induction players with
  | nil => rfl
  | cons p players ih =>
    rw [List.map_cons, List.mapM_cons, ofJson_playerJson, ih]
    rfl

/-- The server's answer is read as the board. -/
theorem board_game (s : GameState) : board (some (200, stateJson s)) = some (boardOf s) := by
  show Board.ofJson (stateJson s) = _
  unfold Board.ofJson stateJson
  simp only [Json.get_cons_self, Json.get_cons_of_ne (show "players" ≠ "seq" by decide)]
  show ((s.players.map playerJson).mapM BoardPlayer.ofJson).bind _ = _
  rw [mapM_ofJson]
  rfl

/-! ## Intents -/

/-- A key pair: the hash that names its public key, and what its private key signs. -/
structure KeyPair where
  pubHash : Byte20
  signRecoverable : Byte32 → ByteArr signatureLen

/-- The intent that `encodeIntent` signs and encodes. -/
def signIntent (P : Platform) (gameId : Byte32) (player : KeyPair) (points nonce : Int) :
    Intent where
  hash := player.pubHash
  points := toU64 points
  nonce := toU64 nonce
  sig := player.signRecoverable
    (intentMessage P gameId player.pubHash (toU64 points) (toU64 nonce))

def encodeIntent (intent : Intent) : String := "0x" ++ hexEncode intent.encode

/-- The body that `postIntent` sends. -/
def intentBody (intent : Intent) : Json := .object [("intent", .string (encodeIntent intent))]

/-- The text of an intent is read as its bytes. -/
theorem hexBytes_encodeIntent {rt : Runtime} (hhex : ∀ b, rt.hexDecode (hexEncode b) = .ok b)
    (intent : Intent) : hexBytes rt (encodeIntent intent) = .ok intent.encode := by
  unfold hexBytes encodeIntent
  rw [trim0x_hexEncode]
  exact (congrArg _ (hhex intent.encode)).trans (mapError_ok _ _)

/-- **The operator reads what the player signed.** -/
theorem intentOf_intentBody {rt : Runtime} (hhex : ∀ b, rt.hexDecode (hexEncode b) = .ok b)
    {text : String} {intent : Intent} (htext : rt.fromStr text = .ok (intentBody intent)) :
    intentOf rt text = .ok intent := by
  unfold intentOf
  rw [htext, mapError_ok, ok_bind]
  show (hexBytes rt (encodeIntent intent) >>= _) = _
  rw [hexBytes_encodeIntent hhex, ok_bind, Intent.decode_encode, mapError_ok]

/-! ## The player -/

structure GamePlayer where
  key : KeyPair
  nonce : Int

namespace GamePlayer

def new (key : KeyPair) : GamePlayer := { key, nonce := 0 }

def hash (player : GamePlayer) : String := hashText player.key.pubHash

/-- The entry of a board that is the player's. -/
def me (player : GamePlayer) (board : Option Board) : Option BoardPlayer :=
  board.bind fun b => b.players.find? fun p => p.hash.toLower == player.hash.toLower

def syncNonce (player : GamePlayer) (board : Option Board) : GamePlayer :=
  match player.me board with
  | some me => { player with nonce := me.nonce }
  | none => player

/-- `move`, up to the request: the player that waits for the answer, and what it posts. -/
def move (P : Platform) (gameId : Byte32) (player : GamePlayer) (points : Int) :
    GamePlayer × Intent :=
  let player' := { player with nonce := player.nonce + 1 }
  (player', signIntent P gameId player'.key points player'.nonce)

/-- `move`, after an answer that throws. -/
def rejected (player : GamePlayer) : GamePlayer := { player with nonce := player.nonce - 1 }

variable {player : GamePlayer}

/-- Syncing with a board that has the player takes the nonce from its entry. -/
theorem syncNonce_of_me {board : Option Board} {me : BoardPlayer} (h : player.me board = some me) :
    player.syncNonce board = { player with nonce := me.nonce } := by
  unfold syncNonce
  rw [h]

/-- Syncing with a board that does not have the player changes nothing. -/
theorem syncNonce_of_none {board : Option Board} (h : player.me board = none) :
    player.syncNonce board = player := by
  unfold syncNonce
  rw [h]

theorem syncNonce_key (board : Option Board) : (player.syncNonce board).key = player.key := by
  unfold syncNonce
  split <;> rfl

/-- The case of the texts does not matter, and no two hashes share a text. -/
theorem hash_matches {h h' : Byte20} :
    ((hashText h).toLower == (hashText h').toLower) = decide (h = h') := by
  rw [hashText, hashText, toLower_hexEncode, toLower_hexEncode, Bool.eq_iff_iff, beq_iff_eq,
    decide_eq_true_iff]
  constructor
  · intro heq
    exact List.Vector.toList_injective (hexEncode_injective (String.append_right_inj _ |>.mp heq))
  · rintro rfl
    rfl

/-- The player's entry of a board is found by the hash of its key. -/
theorem me_boardOf (player : GamePlayer) (s : GameState) : player.me (some (boardOf s)) =
    (s.players.find? fun p => p.hash = player.key.pubHash).map entryOf := by
  show (s.players.map entryOf).find? _ = _
  rw [List.find?_map]
  refine congrArg (Option.map entryOf) (congrArg (List.find? · s.players) (funext fun p => ?_))
  exact hash_matches

/-- **The nonce a board gives.** On the account of a history: no entry for a player without moves,
else the number of the moves. -/
theorem me_of_board {H : List Intent} {s : GameState} (h : GameRules.Board H s) :
    (movesOf H player.key.pubHash = [] → player.me (some (boardOf s)) = none) ∧
    (movesOf H player.key.pubHash ≠ [] → ∃ me, player.me (some (boardOf s)) = some me ∧
      me.nonce = roundToDouble (movesOf H player.key.pubHash).length) := by
  rw [me_boardOf]
  constructor
  · intro hmoves
    have hnone : (s.players.find? fun p => p.hash = player.key.pubHash) = none := by
      refine List.find?_eq_none.mpr ?_
      intro p hp hhash
      exact (h.players.exists_entry_iff _).mp ⟨p, hp, of_decide_eq_true hhash⟩ hmoves
    rw [hnone]
    rfl
  · intro hmoves
    obtain ⟨p, hp, hhash⟩ := (h.players.exists_entry_iff _).mpr hmoves
    obtain ⟨q, hq⟩ := Option.isSome_iff_exists.mp
      (List.find?_isSome (p := fun p => decide (p.hash = player.key.pubHash)) |>.mpr
        ⟨p, hp, decide_eq_true hhash⟩)
    have hfound := List.find?_some hq
    have hqhash : q.hash = player.key.pubHash := of_decide_eq_true hfound
    obtain ⟨-, -, hcount⟩ := h.players.entries q (List.mem_of_find?_eq_some hq)
    refine ⟨entryOf q, by rw [hq]; rfl, ?_⟩
    rw [← hqhash, ← hcount]
    rfl

end GamePlayer

end CkbController.SdkJs
