import CkbController.GameCell.Advance
import CkbController.GameCell.Lineage
import CkbController.GameRules.Batches
import CkbController.GameRules.Decoding
import CkbController.GameRules.Interleaving
import CkbController.Wasm.Bindings

/-!
# The game bindings

The game half of `wasm/src/lib.rs`, with which a page builds intents, frames them into a batch and
computes the next board before anything is sent. The module runs with 32-bit `usize` and overflow
checks, so a binding may trap: `none` is a trap.

* `gameEncodeBatch_of_texts` — texts that went through the bindings are the moves they came from;
* `game_apply_predicts` — `game_apply` returns a board exactly when the type script could accept
  the batch on the cell, and then a transaction with these bytes is accepted exactly when every
  move is signed.
-/

namespace CkbController.Wasm

open ByteCodec Checks GameRules GameCell

/-- The thrown strings of the game bindings, by what writes them. -/
inductive GameBindingError where
  | text (e : WasmError)
  | expected65Bytes
  | badState (e : GameError)
  | badBatch (e : GameError)
  | applyFailed (e : GameError)
  | badIntent (e : GameError)
deriving DecidableEq, Repr

abbrev G (α : Type) := Except GameBindingError α

def read {α : Type} (x : R α) : G α := x.mapError .text

@[simp] theorem read_ok {α : Type} (a : α) : read (.ok a) = .ok a := rfl

/-! ## The bindings -/

def gameIntentMessage (P : Platform) (gameId playerPubkeyHash : String) (points nonce : U64) :
    R String := do
  let gameId ← arr32 gameId
  let player ← arr20 playerPubkeyHash
  pure (hexout (intentMessage P gameId player points nonce).toList)

def sig65 (b : Bytes) : G (ByteArr signatureLen) :=
  if h : b.length = signatureLen then .ok ⟨b, h⟩ else .error .expected65Bytes

def gameEncodeIntent (playerPubkeyHash : String) (points nonce : U64) (sig : String) :
    G String := do
  let sig ← sig65 (← read (hx sig))
  let hash ← read (arr20 playerPubkeyHash)
  pure (hexout (Intent.encode { hash, points, nonce, sig }))

/-- `GameState::encode`, which allocates the whole encoding first. -/
def encodeStateAt (w : Nat) (s : GameState) : Option Bytes := do
  let entries ← Usize.fit w (s.players.length * entryLen)
  let size ← Usize.fit w (stateHeaderLen + entries)
  Usize.withCapacity w 1 size
  pure s.encode

/-- `encode_batch`. -/
def encodeBatchAt (w : Nat) (intents : List Intent) : Option Bytes := do
  let body ← Usize.fit w (intents.length * intentLen)
  let size ← Usize.fit w (2 + body)
  Usize.withCapacity w 1 size
  pure (encodeBatch intents)

/-- One text of the list that `game_encode_batch` takes. -/
def parseIntent (text : String) : G Intent := do
  (Intent.decode (← read (hx text))).mapError .badIntent

def gameEncodeBatch (intents : List String) : Option (G String) :=
  match intents.mapM parseIntent with
  | .error e => some (.error e)
  | .ok parsed => do pure (.ok (hexout (← encodeBatchAt 32 parsed)))

def gameApply (state batch : String) : Option (G String) :=
  match read (hx state) with
  | .error e => some (.error e)
  | .ok data => do
    match ← GameState.decodeAt 32 data with
    | .error e => pure (.error (.badState e))
    | .ok s =>
      match read (hx batch) with
      | .error e => pure (.error e)
      | .ok bytes =>
        match ← decodeBatchAt 32 bytes with
        | .error e => pure (.error (.badBatch e))
        | .ok intents =>
          match s.applyBatch intents with
          | .error e => pure (.error (.applyFailed e))
          | .ok s' => pure (.ok (hexout (← encodeStateAt 32 s')))

def playerText (p : PlayerEntry) : String :=
  "\x7b\"hash\":\"" ++ hexout p.hash.toList ++ "\",\"score\":" ++ toString p.score.toNat ++
    ",\"nonce\":" ++ toString p.nonce.toNat ++ "\x7d"

/-- The board as the text of a JSON object. -/
def gameDecodeState (data : String) : Option (G String) :=
  match read (hx data) with
  | .error e => some (.error e)
  | .ok bytes => do
    match ← GameState.decodeAt 32 bytes with
    | .error e => pure (.error (.badState e))
    | .ok state =>
      pure (.ok ("\x7b\"seq\":" ++ toString state.seq.toNat ++ ",\"players\":[" ++
        ",".intercalate (state.players.map playerText) ++ "]\x7d"))

/-! ## Texts and moves -/

@[simp] theorem sig65_toList (sig : ByteArr signatureLen) : sig65 sig.toList = .ok sig := by
  unfold sig65
  rw [dif_pos sig.toList_length]
  rfl

/-- The move a page asks for is the move in the text. -/
theorem gameEncodeIntent_hexout (i : Intent) :
    gameEncodeIntent (hexout i.hash.toList) i.points i.nonce (hexout i.sig.toList) =
      .ok (hexout i.encode) := by
  unfold gameEncodeIntent
  rw [hx_hexout, arr20_hexout, read_ok, read_ok]
  show (sig65 i.sig.toList >>= fun sig => _) = _
  rw [sig65_toList]
  rfl

/-- An intent crosses as text and back. -/
theorem parseIntent_hexout (i : Intent) : parseIntent (hexout i.encode) = .ok i := by
  unfold parseIntent
  rw [hx_hexout, read_ok]
  show (Intent.decode i.encode).mapError GameBindingError.badIntent = .ok i
  rw [Intent.decode_encode]
  rfl

/-- The texts that the page holds are what `game_encode_intent` returned for the moves. -/
def EncodedTexts (intents : List Intent) (texts : List String) : Prop :=
  List.Forall₂ (fun i text => gameEncodeIntent (hexout i.hash.toList) i.points i.nonce
    (hexout i.sig.toList) = .ok text) intents texts

/-- Texts of intents are read as the intents. -/
theorem EncodedTexts.mapM_parseIntent {intents : List Intent} {texts : List String}
    (h : EncodedTexts intents texts) : texts.mapM parseIntent = .ok intents := by
  induction h with
  | nil => rfl
  | @cons i text intents texts htext _ ih =>
    have hsame : text = hexout i.encode :=
      Except.ok.inj (htext.symm.trans (gameEncodeIntent_hexout i))
    rw [List.mapM_cons, hsame, parseIntent_hexout, ok_bind, ih]
    rfl

/-- **The batch text carries the moves.** -/
theorem gameEncodeBatch_of_texts {intents : List Intent} {texts : List String} {batch : String}
    (h : EncodedTexts intents texts) (hbatch : gameEncodeBatch texts = some (.ok batch)) :
    hx batch = .ok (encodeBatch intents) := by
  unfold gameEncodeBatch at hbatch
  simp only [h.mapM_parseIntent] at hbatch
  obtain ⟨bytes, hbytes, hbatch⟩ := Option.bind_eq_some_iff.mp hbatch
  cases hbatch
  unfold encodeBatchAt at hbytes
  simp only [Option.bind_eq_bind, Option.bind_eq_some_iff] at hbytes
  obtain ⟨_, -, _, -, _, -, hbytes⟩ := hbytes
  cases hbytes
  exact hx_hexout _

/-- As long as the count field counts them, moves can be framed. -/
theorem gameEncodeBatch_eq {intents : List Intent} {texts : List String}
    (h : EncodedTexts intents texts) (hcount : intents.length < 2 ^ 16) :
    gameEncodeBatch texts = some (.ok (hexout (encodeBatch intents))) := by
  have hencoded : encodeBatchAt 32 intents = some (encodeBatch intents) := by
    unfold encodeBatchAt Usize.withCapacity
    rw [Usize.fit_of_lt (by simp only [intentLen]; omega)]
    show (Usize.fit 32 (2 + intents.length * intentLen) >>= fun size => _) = _
    rw [Usize.fit_of_lt (by simp only [intentLen]; omega)]
    show ((if 1 * (2 + intents.length * intentLen) < 2 ^ (32 - 1) then some ()
      else none) >>= fun _ => some (encodeBatch intents)) = _
    rw [if_pos (by simp only [intentLen]; omega)]
    rfl
  unfold gameEncodeBatch
  simp only [h.mapM_parseIntent, hencoded]
  rfl

/-- The texts of some moves. -/
def textsOf (intents : List Intent) : List String := intents.map fun i => hexout i.encode

theorem encodedTexts_textsOf (intents : List Intent) : EncodedTexts intents (textsOf intents) := by
  unfold EncodedTexts textsOf
  rw [List.forall₂_map_right_iff]
  exact List.forall₂_same.mpr fun i _ => gameEncodeIntent_hexout i

/-! ## What the 32-bit build can hold -/

/-- A board that its encoding fills to less than a quarter of the address space decodes as on the
chain, and what a batch makes of it encodes. -/
theorem decodeAt_of_decode {data : Bytes} {s : GameState} (hsmall : data.length < 2 ^ 30)
    (h : GameState.decode data = .ok s) :
    GameState.decodeAt 32 data = some (.ok s) ∧ s.players.length * entryLen < 2 ^ 30 := by
  rcases decode_eq_ok_iff.mp h with ⟨rfl, rfl⟩ | ⟨hcount, rfl⟩
  · exact ⟨rfl, by decide⟩
  · have hlen := GameState.length_encode s
    rw [hlen] at hsmall
    simp only [stateHeaderLen, entryLen] at hsmall ⊢
    refine ⟨?_, by omega⟩
    have hclaimed : claimedCount s.encode = s.players.length := by
      unfold claimedCount
      rw [GameState.count_encode]
      exact Nat.mod_eq_of_lt hcount
    have hfits : SizeFits 32 s.encode := by
      unfold SizeFits
      rw [hclaimed]
      simp only [stateHeaderLen, entryLen, playerEntrySize]
      omega
    rw [decodeAt_eq, if_neg (fun hnot => hnot.2 hfits), h]

/-- A batch adds one player for each of its intents at most. -/
theorem length_players_applyBatch {s s' : GameState} {intents : List Intent}
    (happly : s.applyBatch intents = .ok s') :
    s'.players.length ≤ s.players.length + intents.length := by
  have hlen := length_applyIntents (applyBatch_eq_ok.mp happly).1
  have hcard : (newcomers s.players intents).card ≤ intents.length := by
    unfold newcomers
    calc _ ≤ (intents.map Intent.hash).toFinset.card := Finset.card_le_card Finset.sdiff_subset
      _ ≤ (intents.map Intent.hash).length := List.toFinset_card_le _
      _ = intents.length := List.length_map _
  have hplayers : s'.players.length = s.players.length + (newcomers s.players intents).card := hlen
  omega

/-- A board this small is encoded without overflow on 32 bits. -/
theorem encodeStateAt_eq {s : GameState} (h : s.players.length * entryLen < 2 ^ 30 + 2 ^ 22) :
    encodeStateAt 32 s = some s.encode := by
  simp only [entryLen] at h
  unfold encodeStateAt Usize.withCapacity
  rw [Usize.fit_of_lt (by simp only [entryLen]; omega)]
  show (Usize.fit 32 (stateHeaderLen + s.players.length * entryLen) >>= fun size => _) = _
  rw [Usize.fit_of_lt (by simp only [entryLen, stateHeaderLen]; omega)]
  show ((if 1 * (stateHeaderLen + s.players.length * entryLen) < 2 ^ (32 - 1) then some ()
    else none) >>= fun _ => some s.encode) = _
  rw [if_pos (by simp only [entryLen, stateHeaderLen]; omega)]
  rfl

/-- What decodes in the module decodes on the chain. -/
theorem decode_of_decodeAt {w : Nat} {data : Bytes} {result : Except GameError GameState}
    (h : GameState.decodeAt w data = some result) : GameState.decode data = result := by
  rw [decodeAt_eq] at h
  split at h
  · cases h
  · exact Option.some.inj h

/-- A board that is shown is a board. -/
theorem decode_of_gameDecodeState {data : Bytes} {text : String}
    (h : gameDecodeState (hexout data) = some (.ok text)) :
    ∃ s, GameState.decode data = .ok s := by
  unfold gameDecodeState at h
  simp only [hx_hexout, read_ok] at h
  obtain ⟨result, hdecode, h⟩ := Option.bind_eq_some_iff.mp h
  cases result with
  | error e => cases h
  | ok s => exact ⟨s, decode_of_decodeAt hdecode⟩

/-! ## The prediction -/

/-- **What `game_apply` returns**, for a cell's data and a batch that fit the module's memory. -/
theorem gameApply_eq_ok {data bytes : Bytes} {batch next : String} (hsmall : data.length < 2 ^ 30)
    (hbatch : hx batch = .ok bytes) :
    gameApply (hexout data) batch = some (.ok next) ↔
      ∃ s intents s', GameState.decode data = .ok s ∧ decodeBatch bytes = .ok intents ∧
        s.applyBatch intents = .ok s' ∧ next = hexout s'.encode := by
  unfold gameApply
  simp only [hx_hexout, hbatch, read_ok, decodeBatchAt_eq (Nat.le_refl 32)]
  constructor
  · intro h
    obtain ⟨result, hdecode, h⟩ := Option.bind_eq_some_iff.mp h
    have hresult := decode_of_decodeAt hdecode
    -- each step of the binding passed, or nothing was returned
    cases result with
    | error e => cases h
    | ok s =>
      cases hintents : decodeBatch bytes with
      | error e =>
        rw [hintents] at h
        cases h
      | ok intents =>
        rw [hintents] at h
        cases happly : s.applyBatch intents with
        | error e =>
          simp only [Option.bind_eq_bind, Option.bind_some, happly] at h
          cases h
        | ok s' =>
          simp only [Option.bind_eq_bind, Option.bind_some, happly] at h
          obtain ⟨encoded, hencoded, h⟩ := Option.bind_eq_some_iff.mp h
          unfold encodeStateAt at hencoded
          simp only [Option.bind_eq_bind, Option.bind_eq_some_iff] at hencoded
          obtain ⟨_, -, _, -, _, -, hencoded⟩ := hencoded
          cases hencoded
          cases h
          exact ⟨s, intents, s', hresult, rfl, happly, rfl⟩
  · rintro ⟨s, intents, s', hs, hintents, happly, rfl⟩
    -- the board fits 32-bit lengths, before and after the batch
    obtain ⟨hdecode, hplayers⟩ := decodeAt_of_decode hsmall hs
    have hcount : intents.length < 2 ^ 16 := length_decodeBatch_lt hintents
    have hgrown := length_players_applyBatch happly
    have hencoded : encodeStateAt 32 s' = some s'.encode := by
      apply encodeStateAt_eq
      simp only [entryLen] at hplayers ⊢
      omega
    simp only [hdecode, hintents, Option.bind_eq_bind, Option.bind_some, happly, hencoded]
    rfl

/-- **The bindings predict the chain.** Take moves that went through `game_encode_intent` and
`game_encode_batch`, and a game cell whose data is far smaller than the module's memory. If
`game_apply` returns a board, then it is a board a page can write: whatever else the transaction
is, if it advances the cell by these bytes to this board, the type script accepts it exactly when
every move is signed; and the message the page has signed for a move is the one that is checked.
If `game_apply` throws or traps, no transaction that advances the cell by these bytes, to any
board, is accepted. -/
theorem game_apply_predicts (P : Platform) (ty : Script) (hargs : ty.args.length = gameIdLen)
    (c : Cell) (hsmall : c.data.length < 2 ^ 30) (intents : List Intent) (texts : List String)
    (batch : String) (htexts : EncodedTexts intents texts)
    (hbatch : gameEncodeBatch texts = some (.ok batch)) :
    (∀ next, gameApply (hexout c.data) batch = some (.ok next) →
      (∀ bytes board rtx c', hx batch = .ok bytes → hx next = .ok board → c'.data = board →
        Plays P ty rtx c c' bytes →
        (verify P (.ofType P rtx ty) = .ok () ↔ ∀ i ∈ intents, SignedFor P (gameIdOf ty) i)) ∧
      ∀ i ∈ intents, ∃ message : Byte32,
        gameIntentMessage P (hexout (gameIdOf ty).toList) (hexout i.hash.toList) i.points i.nonce =
          .ok (hexout message.toList) ∧
        (SignedFor P (gameIdOf ty) i ↔
          P.ckbAuth GameCell.authIdCkbSecp256k1 i.sig.toList message i.hash.toList = true)) ∧
    ((∀ next, gameApply (hexout c.data) batch ≠ some (.ok next)) →
      ∀ bytes rtx c', hx batch = .ok bytes → Plays P ty rtx c c' bytes →
        verify P (.ofType P rtx ty) ≠ .ok ()) := by
  have hbytes := gameEncodeBatch_of_texts htexts hbatch
  constructor
  · intro next hnext
    obtain ⟨s, decoded, s', hs, hdecoded, happly, rfl⟩ := (gameApply_eq_ok hsmall hbytes).mp hnext
    have hcount := lt_of_decodeBatch_encodeBatch hdecoded
    -- what the binding decoded is what was encoded
    have hsame : decoded = intents :=
      Except.ok.inj (hdecoded.symm.trans (decodeBatch_encodeBatch hcount))
    subst hsame
    -- the new board has an encoding
    have hplayers : s'.players.length < 2 ^ 32 := by
      obtain ⟨-, hfew⟩ := decodeAt_of_decode hsmall hs
      have hgrown := length_players_applyBatch happly
      simp only [entryLen] at hfew
      omega
    constructor
    · rintro bytes board rtx c' hbytes' hboard rfl hplays
      obtain rfl : encodeBatch decoded = bytes := Except.ok.inj (hbytes.symm.trans hbytes')
      have hdata : s'.encode = c'.data := Except.ok.inj ((hx_hexout _).symm.trans hboard)
      rw [hplays.verify_iff hargs]
      constructor
      · rintro ⟨batch', _, _, _, hbatch', hsigned, -⟩
        obtain rfl : decoded = batch' := Except.ok.inj (hdecoded.symm.trans hbatch')
        exact hsigned
      · intro hsigned
        exact ⟨decoded, s, s', s', hdecoded, hsigned, hs,
          hdata ▸ GameState.decode_encode hplayers, happly,
          equalsUnordered_of_perm rfl (List.Perm.refl _)⟩
    · intro i _
      refine ⟨intentMessage P (gameIdOf ty) i.hash i.points i.nonce, ?_, Iff.rfl⟩
      unfold gameIntentMessage
      rw [arr32_hexout, arr20_hexout]
      rfl
  · -- a batch the binding refuses is one the type script refuses
    intro hnone bytes rtx c' hbytes' hplays hok
    obtain rfl : encodeBatch intents = bytes := Except.ok.inj (hbytes.symm.trans hbytes')
    obtain ⟨decoded, s, s', out, hdecoded, -, hs, -, happly, -⟩ := (hplays.verify_iff hargs).mp hok
    exact hnone _ ((gameApply_eq_ok hsmall hbytes).mpr ⟨s, decoded, s', hs, hdecoded, happly, rfl⟩)

/-! ### The first two moves of a game -/

theorem game_apply_predicts_sampleMoves :
    (∀ next, gameApply (hexout (gameCell []).data) (hexout (encodeBatch sampleMoves)) =
        some (.ok next) →
      (∀ bytes board rtx c', hx (hexout (encodeBatch sampleMoves)) = .ok bytes →
        hx next = .ok board → c'.data = board →
        Plays .sample sampleGame rtx (gameCell []) c' bytes →
        (verify .sample (.ofType .sample rtx sampleGame) = .ok () ↔
          ∀ i ∈ sampleMoves, SignedFor .sample (gameIdOf sampleGame) i)) ∧
      ∀ i ∈ sampleMoves, ∃ message : Byte32,
        gameIntentMessage .sample (hexout (gameIdOf sampleGame).toList) (hexout i.hash.toList)
            i.points i.nonce = .ok (hexout message.toList) ∧
        (SignedFor .sample (gameIdOf sampleGame) i ↔
          Platform.sample.ckbAuth GameCell.authIdCkbSecp256k1 i.sig.toList message
            i.hash.toList = true)) ∧
    ((∀ next, gameApply (hexout (gameCell []).data) (hexout (encodeBatch sampleMoves)) ≠
        some (.ok next)) →
      ∀ bytes rtx c', hx (hexout (encodeBatch sampleMoves)) = .ok bytes →
        Plays .sample sampleGame rtx (gameCell []) c' bytes →
        verify .sample (.ofType .sample rtx sampleGame) ≠ .ok ()) :=
  game_apply_predicts .sample sampleGame rfl (gameCell []) (by decide) sampleMoves
    (textsOf sampleMoves) _ (encodedTexts_textsOf sampleMoves)
    (gameEncodeBatch_eq (encodedTexts_textsOf sampleMoves) (by decide))

end CkbController.Wasm
