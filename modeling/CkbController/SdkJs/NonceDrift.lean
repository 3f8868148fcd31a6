import CkbController.Lib.Optimistic
import CkbController.Lib.Trace
import CkbController.PaymasterService.OperatorNode
import CkbController.SdkJs.GamePlayer

/-!
# The local nonce

A player, its moves in flight, and the operator's board. Moves are sent, performed or refused, and
answered, in any order; in between, `syncNonce` overwrites the nonce with that of any board since
the game began. The nonce is an optimistic counter: the moves alone keep it in step, and a call of
`syncNonce` sets it in or out of step for good.

* `answered_step` — what the operator's server does with a posted move is a step of this system;
* `inStep_sync_iff` — which boards set the nonce right;
* `nonce_eq_moves_iff` — with nothing in flight, the nonce is the number of moves on the board
  exactly if it was in step when it was last set.
-/

namespace CkbController.SdkJs

open ByteCodec Checks GameRules PaymasterService PaymasterService.GameServer Optimistic

/-! ## The system -/

/-- What the operator has done with a posted move. -/
inductive Fate where
  | posted
  | applied
  | refused
deriving DecidableEq

/-- A call of `move` that has not returned. -/
structure PendingMove where
  intent : Intent
  fate : Fate
deriving DecidableEq

def PendingMove.isOpen (m : PendingMove) : Bool := m.fate ≠ .applied

structure World where
  player : GamePlayer
  /-- Every move on the operator's board since the game began. -/
  history : List Intent
  board : GameState
  inFlight : List PendingMove
  /-- The counter as it was when the nonce was last set. -/
  lastSet : Counter

namespace World

/-- The player's moves on the board. -/
def applied (w : World) : List Intent := movesOf w.history w.player.key.pubHash

/-- The nonce as an optimistic counter. -/
def counter (w : World) : Counter :=
  ⟨w.player.nonce, w.applied.length, w.inFlight.countP PendingMove.isOpen⟩

/-- A new player, in front of a board that may know its key already. -/
def start (key : KeyPair) (history : List Intent) (board : GameState) : World where
  player := .new key
  history
  board
  inFlight := []
  lastSet := .start (movesOf history key.pubHash).length

/-- A call of `syncNonce`. It sets the nonce if it finds the player. -/
def sync (w : World) (board : Option Board) : World :=
  { w with
    player := w.player.syncNonce board
    lastSet := match w.player.me board with
      | some me => w.counter.set me.nonce
      | none => w.lastSet }

end World

inductive Event where
  | move (points : Int)
  | apply (intent : Intent)
  | refuse (intent : Intent)
  | accept (intent : Intent)
  | reject (intent : Intent)
  | others (intents : List Intent)
  | sync (board : Option GameState)

variable (P : Platform) (gameId : Byte32)

/-- One step. Nobody else signs for the player's key. -/
inductive Step : World → Event → World → Prop where
  | move (w : World) (points : Int) :
      Step w (.move points) { w with
        player := (w.player.move P gameId points).1
        inFlight := w.inFlight ++ [⟨(w.player.move P gameId points).2, .posted⟩] }
  | apply (w : World) {before after : List PendingMove} {intent : Intent} {board' : GameState}
      (posted : w.inFlight = before ++ ⟨intent, .posted⟩ :: after)
      (batch : w.board.applyBatch [intent] = .ok board') :
      Step w (.apply intent) { w with
        history := w.history ++ [intent]
        board := board'
        inFlight := before ++ ⟨intent, .applied⟩ :: after }
  | refuse (w : World) {before after : List PendingMove} {intent : Intent}
      (posted : w.inFlight = before ++ ⟨intent, .posted⟩ :: after) :
      Step w (.refuse intent) { w with inFlight := before ++ ⟨intent, .refused⟩ :: after }
  | accept (w : World) {before after : List PendingMove} {intent : Intent}
      (done : w.inFlight = before ++ ⟨intent, .applied⟩ :: after) :
      Step w (.accept intent) { w with inFlight := before ++ after }
  | reject (w : World) {before after : List PendingMove} {intent : Intent}
      (done : w.inFlight = before ++ ⟨intent, .refused⟩ :: after) :
      Step w (.reject intent) { w with
        player := w.player.rejected
        inFlight := before ++ after }
  | others (w : World) {intents : List Intent} {board' : GameState}
      (other : ∀ i ∈ intents, i.hash ≠ w.player.key.pubHash) (short : intents.length < 2 ^ 64)
      (batch : w.board.applyBatch intents = .ok board') :
      Step w (.others intents) { w with history := w.history ++ intents, board := board' }
  | syncNull (w : World) : Step w (.sync none) (w.sync none)
  | sync (w : World) {H : List Intent} {s : GameState} (earlier : H <+: w.history)
      (board : GameRules.Board H s) : Step w (.sync (some s)) (w.sync (some (boardOf s)))

/-! ## The operator's part -/

section Answer

variable {P gameId} {rt : Runtime} {m : Moment}
  {sendTransaction : Transaction → Except String Byte32}
  {finalize : Transaction → Except String Transaction} {results : ResultsLog} {text : String}

/-- **The operator's server takes a step.** From an empty queue, a request with a posted move in
it is answered below 400 after the move was applied, or else the board has not moved. -/
theorem answered_step {w : World} {op : GameOperator} {before after : List PendingMove}
    {intent : Intent} (hboard : w.board = op.tip.state) (hempty : op.mempool = [])
    (hposted : w.inFlight = before ++ ⟨intent, .posted⟩ :: after)
    (hhex : ∀ b, rt.hexDecode (Hex.hexEncode b) = .ok b)
    (htext : rt.fromStr text = .ok (intentBody intent)) :
    ∃ event w', Step P gameId w event w' ∧
      w'.board = (handleIntent P rt m sendTransaction finalize op results text).2.1.tip.state ∧
      w'.inFlight = before ++ ⟨intent,
        if (handleIntent P rt m sendTransaction finalize op results text).1.1 < 400 then .applied
        else .refused⟩ :: after := by
  have hintent := intentOf_intentBody hhex htext
  rcases @handleIntent_cases P rt m sendTransaction finalize op results text with
    ⟨-, hop, hstatus⟩ | ⟨intent', hread, -, result, hflushed, hstatus⟩
  · -- not admitted
    refine ⟨_, _, .refuse w hposted, ?_, ?_⟩
    · rw [hop]
      exact hboard
    · rw [if_neg (Nat.not_lt.mpr hstatus)]
  · cases hread.symm.trans hintent
    cases result with
    | error e =>
      refine ⟨_, _, .refuse w hposted, hboard.trans ?_, ?_⟩
      · rw [hflushed.tip_of_error]
        rfl
      · rw [if_neg fun h => by cases hstatus.mp h]
    | ok txHash =>
      -- nothing but this move was queued
      have hqueue : (op.enqueue intent).mempool = [intent] := by
        show op.mempool ++ [intent] = [intent]
        rw [hempty, List.nil_append]
      have hbatch := hflushed.applyBatch
      rw [hqueue] at hbatch
      refine ⟨_, _, .apply w hposted (hboard ▸ hbatch), rfl, ?_⟩
      rw [if_pos (hstatus.mpr rfl)]

end Answer

/-! ## What a step does to the counter -/

section Counting

variable {P gameId} {w w' : World} {event : Event} {before after : List PendingMove}
  {intent : Intent}

/-- The moves of the others are not the player's. -/
theorem movesOf_others {H intents : List Intent} {player : Byte20}
    (h : ∀ i ∈ intents, i.hash ≠ player) : movesOf (H ++ intents) player = movesOf H player := by
  have hnone : intents.filter (fun i => i.hash = player) = [] := by
    refine List.filter_eq_nil_iff.mpr ?_
    intro i hi hhash
    exact h i hi (of_decide_eq_true hhash)
  unfold movesOf Sequenced.ofKey
  rw [List.filter_append, hnone, List.append_nil]

theorem movesOf_own {H : List Intent} {player : Byte20} (h : intent.hash = player) :
    (movesOf (H ++ [intent]) player).length = (movesOf H player).length + 1 := by
  subst h
  exact (congrArg List.length (Sequenced.ofKey_snoc_same H intent)).trans List.length_append

/-- The moves in flight that are still open, counted around one of them. -/
theorem countP_middle (m : PendingMove) : (before ++ m :: after).countP PendingMove.isOpen =
    (before ++ after).countP PendingMove.isOpen + if m.isOpen then 1 else 0 := by
  rw [List.countP_append, List.countP_append, List.countP_cons, Nat.add_assoc]

/-- What every state of every run satisfies. -/
structure Tracked (w : World) : Prop where
  board : GameRules.Board w.history w.board
  own : ∀ m ∈ w.inFlight, m.intent.hash = w.player.key.pubHash
  drift : w.counter.drift = w.lastSet.drift

/-- A player who starts has nothing in flight, and counts from the board. -/
theorem tracked_start {key : KeyPair} {history : List Intent} {board : GameState}
    (h : GameRules.Board history board) : Tracked (.start key history board) where
  board := h
  own := fun _ hm => absurd hm List.not_mem_nil
  drift := rfl

/-- A move that changes its fate is still the player's. -/
theorem Tracked.own_middle (h : Tracked w) {m : PendingMove}
    (hm : w.inFlight = before ++ m :: after) (fate : Fate) :
    ∀ m' ∈ before ++ ⟨m.intent, fate⟩ :: after, m'.intent.hash = w.player.key.pubHash := by
  intro m' hm'
  rcases List.mem_append.mp hm' with hb | ha
  · exact h.own m' (hm ▸ List.mem_append_left _ hb)
  · rcases List.mem_cons.mp ha with rfl | ha
    · exact h.own m (hm ▸ List.mem_append_right _ List.mem_cons_self)
    · exact h.own m' (hm ▸ List.mem_append_right _ (List.mem_cons_of_mem _ ha))

/-- What stays in flight after an answer is still the player's. -/
theorem Tracked.own_answered (h : Tracked w) {m : PendingMove}
    (hm : w.inFlight = before ++ m :: after) :
    ∀ m' ∈ before ++ after, m'.intent.hash = w.player.key.pubHash := by
  intro m' hm'
  refine h.own m' (hm ▸ ?_)
  exact (List.sublist_cons_self m after).append_left before |>.subset hm'

/-- `move` counts at once, and is outstanding. -/
theorem counter_move (w : World) (points : Int) : World.counter { w with
      player := (w.player.move P gameId points).1
      inFlight := w.inFlight ++ [⟨(w.player.move P gameId points).2, .posted⟩] } =
    w.counter.send := by
  unfold World.counter Counter.send
  rw [List.countP_append]
  rfl

/-- The server plays a move that was posted. -/
theorem counter_apply {board' : GameState} (hm : w.inFlight = before ++ ⟨intent, .posted⟩ :: after)
    (hown : intent.hash = w.player.key.pubHash) : World.counter { w with
      history := w.history ++ [intent]
      board := board'
      inFlight := before ++ ⟨intent, .applied⟩ :: after } = w.counter.perform := by
  unfold World.counter Counter.perform
  rw [hm, countP_middle, countP_middle]
  congr 1
  exact movesOf_own hown

/-- A move that the server refuses stays outstanding until the player is told. -/
theorem counter_refuse (hm : w.inFlight = before ++ ⟨intent, .posted⟩ :: after) : World.counter
    { w with inFlight := before ++ ⟨intent, .refused⟩ :: after } = w.counter := by
  unfold World.counter
  rw [hm, countP_middle, countP_middle]
  rfl

/-- The answer to a move that was played changes nothing any more. -/
theorem counter_accept (hm : w.inFlight = before ++ ⟨intent, .applied⟩ :: after) :
    World.counter { w with inFlight := before ++ after } = w.counter := by
  unfold World.counter
  rw [hm, countP_middle]
  rfl

/-- The answer to a move that was refused takes it back. -/
theorem counter_reject (hm : w.inFlight = before ++ ⟨intent, .refused⟩ :: after) : World.counter
    { w with player := w.player.rejected, inFlight := before ++ after } = w.counter.takeBack := by
  unfold World.counter Counter.takeBack
  rw [hm, countP_middle]
  rfl

/-- A move in flight that is open is outstanding. -/
theorem outstanding_pos {m : PendingMove} (hm : w.inFlight = before ++ m :: after)
    (hopen : m.isOpen = true) : 0 < w.counter.outstanding := by
  show 0 < w.inFlight.countP PendingMove.isOpen
  rw [hm, countP_middle, if_pos hopen]
  omega

/-- `syncNonce` overwrites the count, whatever is in flight. -/
theorem tracked_sync (h : Tracked w) (board : Option Board) : Tracked (w.sync board) := by
  have hkey := w.player.syncNonce_key board
  refine ⟨h.board, ?_, ?_⟩
  · show ∀ m ∈ w.inFlight, m.intent.hash = (w.player.syncNonce board).key.pubHash
    rw [hkey]
    exact h.own
  · unfold World.sync
    cases hme : w.player.me board with
    | none =>
      rw [GamePlayer.syncNonce_of_none hme]
      exact h.drift
    | some me =>
      rw [GamePlayer.syncNonce_of_me hme]
      rfl

/-- **One step.** Moves and their answers keep the drift, and a sync sets it anew. -/
theorem tracked_step (h : Tracked w) (step : Step P gameId w event w') : Tracked w' := by
  -- one case for each event; only a synchronisation can change the drift
  cases step with
  | move points =>
    refine ⟨h.board, ?_, ?_⟩
    · intro m hm
      rcases List.mem_append.mp hm with hm | hm
      · exact h.own m hm
      · rw [List.mem_singleton.mp hm]
        rfl
    · rw [counter_move, Counter.drift_send]
      exact h.drift
  | @apply before after intent board' posted batch =>
    have hown := h.own _ (posted ▸ List.mem_append_right _ List.mem_cons_self)
    have hboard := @board_applyBatch _ _ [intent] _ h.board (show 1 < 2 ^ 64 by decide) batch
    refine ⟨hboard, h.own_middle posted .applied, ?_⟩
    rw [counter_apply posted hown, Counter.drift_perform (outstanding_pos posted rfl)]
    exact h.drift
  | refuse posted =>
    refine ⟨h.board, h.own_middle posted .refused, ?_⟩
    rw [counter_refuse posted]
    exact h.drift
  | accept done =>
    refine ⟨h.board, h.own_answered done, ?_⟩
    rw [counter_accept done]
    exact h.drift
  | reject done =>
    refine ⟨h.board, h.own_answered done, ?_⟩
    rw [counter_reject done, Counter.drift_takeBack (outstanding_pos done rfl)]
    exact h.drift
  | others other short batch =>
    refine ⟨board_applyBatch h.board short batch, h.own, ?_⟩
    rw [← h.drift]
    unfold World.counter World.applied
    rw [movesOf_others other]
  | syncNull => exact tracked_sync h none
  | sync earlier board => exact tracked_sync h _

end Counting

/-! ## Setting the nonce -/

/-- A player who has not looked at the board counts from 0: in step exactly if the board has no move
of the player. -/
theorem start_inStep_iff {key : KeyPair} {history : List Intent} {board : GameState} :
    (World.start key history board).lastSet.InStep ↔ movesOf history key.pubHash = [] := by
  show (0 : Int) - (((movesOf history key.pubHash).length : Int) + 0) = 0 ↔ _
  rw [← List.length_eq_zero_iff]
  omega

/-- **Which boards set the nonce right.** Those with all the player's moves in them, at a time when
no other move of the player is under way. -/
theorem inStep_sync_iff {w : World} {H : List Intent} {s : GameState} (earlier : H <+: w.history)
    (hboard : GameRules.Board H s) (hfound : movesOf H w.player.key.pubHash ≠ [])
    (hsmall : (movesOf H w.player.key.pubHash).length < 2 ^ 53) :
    (w.sync (some (boardOf s))).lastSet.InStep ↔
      w.counter.outstanding = 0 ∧ movesOf H w.player.key.pubHash = w.applied := by
  obtain ⟨me, hme, hnonce⟩ := (GamePlayer.me_of_board hboard).2 hfound
  have hset : (w.sync (some (boardOf s))).lastSet =
      w.counter.set (movesOf H w.player.key.pubHash).length := by
    rw [← roundToDouble_of_lt hsmall, ← hnonce]
    unfold World.sync
    rw [hme]
  -- the player's moves on the board read are the first of its moves
  have hhead : movesOf H w.player.key.pubHash <+: w.applied := earlier.filter _
  rw [hset, Counter.set_inStep_iff hhead.length_le]
  refine and_congr_right fun _ => ⟨hhead.eq_of_length, fun heq => congrArg List.length heq⟩

/-! ## Runs -/

/-- **When the nonce is right.** In every run of a player, whatever boards `syncNonce` is given and
whatever the order of moves and answers: with nothing in flight, the local nonce is the number of
the player's moves on the operator's board exactly if it was in step when it was last set, and then
the type script does not find the next move's nonce stale. -/
theorem nonce_eq_moves_iff (key : KeyPair) (history : List Intent) (board : GameState)
    (hboard : GameRules.Board history board) (events : List Event) (w : World)
    (run : Trace (Step P gameId) (.start key history board) events w) (quiet : w.inFlight = []) :
    (w.player.nonce = w.applied.length ↔ w.lastSet.InStep) ∧
    (w.lastSet.InStep → ∀ points : Int,
      w.board.applyIntent (w.player.move P gameId points).2 ≠ .error .nonceNotFresh) := by
  have htracked : Tracked w :=
    run.invariant (fun _ w => Tracked w) (tracked_start hboard)
      fun _ _ _ _ h step => tracked_step h step
  have hnone : w.counter.outstanding = 0 := by
    show w.inFlight.countP PendingMove.isOpen = 0
    rw [quiet]
    rfl
  have hiff : w.player.nonce = w.applied.length ↔ w.lastSet.InStep := by
    unfold Counter.InStep
    rw [← htracked.drift]
    exact Counter.value_eq_iff hnone
  refine ⟨hiff, ?_⟩
  intro hset points
  -- in step, the number signed next is the number of moves and one
  apply htracked.board.nonce_due
  show BitVec.ofInt 64 (w.player.nonce + 1) = BitVec.ofNat 64 (w.applied.length + 1)
  rw [hiff.mpr hset]
  exact BitVec.ofInt_natCast ..

/-! ### A board from before the move -/

def samplePlayer : KeyPair where
  pubHash := sampleKey 7
  signRecoverable _ := sampleSig

def sampleMove (nonce : Int) : Intent :=
  signIntent .sample (sampleHash 1) samplePlayer 10 nonce

def sampleBoard (moves : Nat) : GameState where
  seq := BitVec.ofNat 64 moves
  players := [⟨samplePlayer.pubHash, BitVec.ofNat 64 (10 * moves), BitVec.ofNat 64 moves⟩]

/-- One move, performed and answered. -/
def afterOne : World where
  player := ⟨samplePlayer, 1⟩
  history := [sampleMove 1]
  board := sampleBoard 1
  inFlight := []
  lastSet := .start 0

theorem applyBatch_first : GameState.empty.applyBatch [sampleMove 1] = .ok (sampleBoard 1) := by
  decide +kernel

theorem applyBatch_second : (sampleBoard 1).applyBatch [sampleMove 2] = .ok (sampleBoard 2) := by
  decide +kernel

theorem run_afterOne : Trace (Step .sample (sampleHash 1)) (.start samplePlayer [] .empty)
    [.move 10, .apply (sampleMove 1), .accept (sampleMove 1)] afterOne := by
  have posted : Trace (Step .sample (sampleHash 1)) (.start samplePlayer [] .empty) [.move 10] _ :=
    .single (.move _ 10)
  have applied := posted.snoc
    (@Step.apply _ _ _ [] [] (sampleMove 1) _ rfl applyBatch_first)
  exact applied.snoc (@Step.accept _ _ _ [] [] (sampleMove 1) rfl)

theorem board_sampleBoard : GameRules.Board [sampleMove 1] (sampleBoard 1) :=
  @board_applyBatch .empty _ _ [] ⟨represents_nil, rfl⟩ (by decide) applyBatch_first

/-- What the nonce is set to by the board of the first move. -/
theorem me_sampleBoard (nonce : Int) : (GamePlayer.mk samplePlayer nonce).me
    (some (boardOf (sampleBoard 1))) = some ⟨hashText samplePlayer.pubHash, 10, 1⟩ := by
  rw [GamePlayer.me_boardOf]
  rfl

/-- The second move is under way, and a board from before it is read: the nonce goes back to 1, and
the move is then performed as the player's second. -/
theorem stale_board_stalls_player : ∃ w,
    Trace (Step .sample (sampleHash 1)) (.start samplePlayer [] .empty)
      ([.move 10, .apply (sampleMove 1), .accept (sampleMove 1)] ++ [.move 10] ++
        [.sync (some (sampleBoard 1))] ++ [.apply (sampleMove 2)] ++ [.accept (sampleMove 2)]) w ∧
    w.inFlight = [] ∧ w.player.nonce = 1 ∧ w.applied.length = 2 ∧
    w.board.applyIntent (w.player.move .sample (sampleHash 1) 10).2 = .error .nonceNotFresh := by
  have posted := run_afterOne.snoc (.move _ 10)
  have synced := posted.snoc (@Step.sync _ _ _ [sampleMove 1] _ (List.prefix_refl _)
    board_sampleBoard)
  have applied := synced.snoc (@Step.apply _ _ _ [] [] (sampleMove 2) _ rfl applyBatch_second)
  have answered := applied.snoc (@Step.accept _ _ _ [] [] (sampleMove 2) rfl)
  have hplayer : (GamePlayer.mk samplePlayer 2).syncNonce (some (boardOf (sampleBoard 1))) =
      ⟨samplePlayer, 1⟩ := GamePlayer.syncNonce_of_me (me_sampleBoard 2)
  refine ⟨_, answered, rfl, ?_, ?_, ?_⟩
  · exact congrArg GamePlayer.nonce hplayer
  · show (movesOf [sampleMove 1, sampleMove 2] ((GamePlayer.mk samplePlayer 2).syncNonce
      (some (boardOf (sampleBoard 1)))).key.pubHash).length = 2
    rw [hplayer]
    decide +kernel
  · show (sampleBoard 2).applyIntent (((GamePlayer.mk samplePlayer 2).syncNonce
      (some (boardOf (sampleBoard 1)))).move .sample (sampleHash 1) 10).2 = _
    rw [hplayer]
    decide +kernel

theorem nonce_eq_moves_iff_afterSync : ∃ w,
    Trace (Step .sample (sampleHash 1)) (.start samplePlayer [] .empty)
      ([.move 10, .apply (sampleMove 1), .accept (sampleMove 1)] ++
        [.sync (some (sampleBoard 1))]) w ∧
    w.player.nonce = w.applied.length := by
  have synced := run_afterOne.snoc (@Step.sync _ _ _ [sampleMove 1] _ (List.prefix_refl _)
    board_sampleBoard)
  refine ⟨_, synced, ?_⟩
  refine (nonce_eq_moves_iff .sample (sampleHash 1) samplePlayer [] .empty ⟨represents_nil, rfl⟩ _ _
    synced rfl).1.mpr ?_
  refine (inStep_sync_iff (List.prefix_refl _) board_sampleBoard ?_ ?_).mpr ⟨rfl, rfl⟩
  · decide +kernel
  · decide +kernel

end CkbController.SdkJs
