import CkbController.GameCell.Singleton
import CkbController.GameRules.Interleaving
import CkbController.Lib.Threads

/-!
# What becomes of a live game cell

Whoever sends transactions, and however many games carry the same id: a live game cell is never
destroyed and never merged with another. It moves, one accepted transition at a time, and its
board changes only by the signed intents of the transitions on its way. So the number of live
cells of a game is the number of its geneses, and no player ever loses points.

* `game_cells_persist` — the live game cells along any run;
* `players_keep_scores` — the boards along any run.
-/

namespace CkbController.GameCell

open ByteCodec Checks GameRules KeyedTable Sequenced Threads

/-! ## Descent -/

/-- A chain of accepted transitions leads from the cell `c` to the cell it ends at, and their
batches, in order, make up `K`. -/
inductive Descends (P : Platform) (ty : Script) (c : Cell) : List Intent → Cell → Prop where
  | refl : Descends P ty c [] c
  | transition {K batch : List Intent} {d d' : Cell} {rtx : ResolvedTx}
      (earlier : Descends P ty c K d)
      (accepted : verify P (.ofType P rtx ty) = .ok ())
      (inputs : (Vm.ofType P rtx ty).groupInputCells = [d])
      (outputs : (Vm.ofType P rtx ty).groupOutputCells = [d'])
      (loaded : loadBatch P (.ofType P rtx ty) = .ok batch) : Descends P ty c (K ++ batch) d'

variable {P : Platform} {ty : Script}

/-- `s'` is what the moves `K` make of the board `s`, whatever the order of its entries. -/
structure Played (s : GameState) (K : List Intent) (s' : GameState) : Prop where
  board : ∃ t, s.applyBatch K = .ok t ∧ SameBoard t s'
  counted : s.seq.toNat + K.length = s'.seq.toNat

theorem played_nil (s : GameState) : Played s [] s :=
  ⟨⟨s, applyBatch_nil s, sameBoard_equivalence.refl s⟩, rfl⟩

/-- Players stay distinct. -/
theorem Played.nodup {s s' : GameState} {K : List Intent} (h : Played s K s')
    (hdistinct : (s.players.map PlayerEntry.hash).Nodup) :
    (s'.players.map PlayerEntry.hash).Nodup := by
  obtain ⟨t, ht, hsame⟩ := h.board
  exact (hsame.players.perm.map _).nodup_iff.mp (nodup_applyBatch hdistinct ht)

/-- The comparison of the script accepts boards that no move tells apart, and no others. -/
theorem sameBoard_of_equalsUnordered {s t : GameState}
    (hdistinct : (s.players.map PlayerEntry.hash).Nodup) (h : s.equalsUnordered t = true) :
    SameBoard s t := by
  obtain ⟨hperm, hseq⟩ := perm_of_equalsUnordered hdistinct h
  exact ⟨hseq, same_of_perm hdistinct hperm⟩

/-- Two batches in a row are one. -/
theorem applyBatch_append {s t u : GameState} {xs ys : List Intent}
    (hlen : xs.length + ys.length < 2 ^ 64) (hxs : s.applyBatch xs = .ok t)
    (hys : t.applyBatch ys = .ok u) : s.applyBatch (xs ++ ys) = .ok u := by
  have htwo : s.applyBatches [xs, ys] = .ok u := by
    show (s.applyBatch xs >>= fun t => t.applyBatch ys >>= fun u => pure u) = .ok u
    rw [hxs, ok_bind, hys]
    rfl
  have hflat : [xs, ys].flatten = xs ++ ys := by simp
  rw [applyBatches_eq_ok (by rw [hflat, List.length_append]; exact hlen), hflat] at htwo
  have hcount : (BitVec.ofNat 64 (xs ++ ys).length).toNat = (xs ++ ys).length := by
    rw [BitVec.toNat_ofNat, Nat.mod_eq_of_lt (by rw [List.length_append]; exact hlen)]
  exact applyBatch_eq_ok.mpr ⟨htwo.1, hcount.symm ▸ htwo.2⟩

/-- **One more transition.** -/
theorem Played.transition {s s' t out : GameState} {K batch : List Intent} (h : Played s K s')
    (hdistinct : (s.players.map PlayerEntry.hash).Nodup) (hlen : batch.length < 2 ^ 16)
    (happly : s'.applyBatch batch = .ok t) (heq : t.equalsUnordered out = true) :
    Played s (K ++ batch) out := by
  obtain ⟨u, hu, hsame⟩ := h.board
  have hout : SameBoard t out :=
    sameBoard_of_equalsUnordered (nodup_applyBatch (h.nodup hdistinct) happly) heq
  have hcount := (applyBatch_eq_ok.mp happly).2
  rw [BitVec.toNat_ofNat, Nat.mod_eq_of_lt (by omega)] at hcount
  have hseq : t.seq.toNat = out.seq.toNat := congrArg BitVec.toNat hout.seq
  have hfits := out.seq.isLt
  have hcounted := h.counted
  -- the batch does to the board as it was computed what it does to the one that was written
  obtain ⟨v, hv, hvt⟩ : ∃ v, u.applyBatch batch = .ok v ∧ SameBoard v t := by
    have hagree := applyBatch_congr hsame batch
    rw [happly] at hagree
    cases hresult : u.applyBatch batch with
    | error e =>
      rw [hresult] at hagree
      cases hagree
    | ok v =>
      rw [hresult] at hagree
      cases hagree with
      | ok hvt => exact ⟨v, rfl, hvt⟩
  refine ⟨⟨v, applyBatch_append (by omega) hu hv, sameBoard_equivalence.trans hvt hout⟩, ?_⟩
  rw [List.length_append]
  omega

/-- **A descendant's board** is what the moves on the way make of the ancestor's. -/
theorem Descends.played {c c' : Cell} {K : List Intent} {s : GameState}
    (h : Descends P ty c K c') (hs : GameState.decode c.data = .ok s)
    (hdistinct : (s.players.map PlayerEntry.hash).Nodup) :
    ∃ s', GameState.decode c'.data = .ok s' ∧ Played s K s' := by
  induction h with
  | refl => exact ⟨s, hs, played_nil s⟩
  | @transition K batch d d' rtx earlier accepted inputs outputs loaded ih =>
    obtain ⟨s', hs', hplayed⟩ := ih
    rcases verify_ok accepted with ⟨c₀, hgenesis⟩ | ⟨c₀, c₁, batch', htransition⟩
    · -- a genesis has no game input
      have := hgenesis.inputs.symm.trans inputs
      cases this
    · have hd : c₀ = d := List.singleton_inj.mp (htransition.inputs.symm.trans inputs)
      have hd' : c₁ = d' := List.singleton_inj.mp (htransition.outputs.symm.trans outputs)
      have hbatch : batch' = batch := Except.ok.inj (htransition.loaded.symm.trans loaded)
      subst hd hd' hbatch
      obtain ⟨s₀, t, out, hs₀, hout, happly, heq⟩ := htransition.applied
      have hsame : s₀ = s' := Except.ok.inj (hs₀.symm.trans hs')
      rw [hsame] at happly
      obtain ⟨gi, -, hload⟩ := bind_eq_ok.mp loaded
      obtain ⟨wa, -, hload⟩ := bind_eq_ok.mp hload
      obtain ⟨bytes, -, hload⟩ := bind_eq_ok.mp hload
      -- two bytes count the batch
      have hlen : batch'.length < 2 ^ 16 := length_decodeBatch_lt (game_eq_ok.mp hload)
      exact ⟨out, hout, hplayed.transition hdistinct hlen happly heq⟩

/-- Every move on the way is signed for the game. -/
theorem Descends.signed {c c' : Cell} {K : List Intent} (h : Descends P ty c K c') :
    ∀ i ∈ K, SignedFor P (gameIdOf ty) i := by
  induction h with
  | refl => exact fun i hi => absurd hi List.not_mem_nil
  | @transition K batch d d' rtx earlier accepted inputs outputs loaded ih =>
    intro i hi
    rcases List.mem_append.mp hi with hi | hi
    · exact ih i hi
    · rcases verify_ok accepted with ⟨c₀, hgenesis⟩ | ⟨c₀, c₁, batch', htransition⟩
      · have := hgenesis.inputs.symm.trans inputs
        cases this
      · have hbatch : batch' = batch := Except.ok.inj (htransition.loaded.symm.trans loaded)
        exact htransition.signed i (hbatch ▸ hi)

/-! ## What a player keeps -/

/-- `p'` is the entry `p` after the moves: as many nonces further, and richer by their points. -/
structure Grown (p : PlayerEntry) (moves : List Intent) (p' : PlayerEntry) : Prop where
  hash : p'.hash = p.hash
  nonce : p'.nonce.toNat = p.nonce.toNat + moves.length
  score : p'.score.toNat = p.score.toNat + totalPoints moves

theorem movesOf_cons_same (K : List Intent) (i : Intent) :
    movesOf (i :: K) i.hash = i :: movesOf K i.hash := by
  simp [movesOf, ofKey]

theorem movesOf_cons_other {K : List Intent} {i : Intent} {player : Byte20}
    (h : i.hash ≠ player) : movesOf (i :: K) player = movesOf K player := by
  simp [movesOf, ofKey, h]

/-- One move: the mover's entry grows by it, and the others stay. -/
theorem exists_grown_applyIntent {s s' : GameState} {i : Intent}
    (hdistinct : (s.players.map PlayerEntry.hash).Nodup) (h : s.applyIntent i = .ok s')
    {p : PlayerEntry} (hp : p ∈ s.players) :
    ∃ p' ∈ s'.players, Grown p (movesOf [i] p.hash) p' := by
  have hstays : i.hash ≠ p.hash → Grown p (movesOf [i] p.hash) p := by
    intro hother
    rw [movesOf_cons_other hother]
    exact ⟨rfl, rfl, rfl⟩
  obtain ⟨-, hplay, -⟩ := applyIntent_eq_ok.mp h
  rcases playOn_eq_ok hplay with
    ⟨before, q, after, q', hbefore, hafter, hhash, hq⟩ | ⟨hnone, -, hafter⟩
  · rw [hafter]
    by_cases hpq : i.hash = p.hash
    · -- with distinct hashes, the entry that is played is this one
      have hqmem : q ∈ s.players := by
        rw [hbefore]
        simp
      obtain rfl : q = p := List.inj_on_of_nodup_map hdistinct hqmem hp (hhash.trans hpq)
      obtain ⟨hsame, hnonce, hset, hscore⟩ := play_eq_ok hq
      refine ⟨q', by simp, hsame, ?_, ?_⟩
      · rw [hset, hnonce, hhash, movesOf_cons_same]
        rfl
      · rw [hscore, hhash, movesOf_cons_same]
        simp [totalPoints, movesOf, ofKey]
    · -- another player's entry was played, and this one stays
      refine ⟨p, ?_, hstays hpq⟩
      rw [hbefore] at hp
      have hne : p ≠ q := by
        rintro rfl
        exact hpq hhash.symm
      have hmem : p ∈ before ∨ p ∈ after := by simpa [hne] using hp
      rcases hmem with hmem | hmem
      · exact List.mem_append_left _ hmem
      · exact List.mem_append_right _ (List.mem_cons_of_mem _ hmem)
  · -- a new player is appended
    rw [hafter]
    exact ⟨p, List.mem_append_left _ hp, hstays fun heq => hnone p hp heq.symm⟩

/-- Growth adds up. -/
theorem Grown.trans {p q r : PlayerEntry} {xs ys : List Intent} (h : Grown p xs q)
    (h' : Grown q ys r) : Grown p (xs ++ ys) r := by
  refine ⟨h'.hash.trans h.hash, ?_, ?_⟩
  · rw [h'.nonce, h.nonce, List.length_append, Nat.add_assoc]
  · rw [h'.score, h.score, totalPoints, totalPoints, totalPoints, List.map_append,
      List.sum_append, Nat.add_assoc]

/-- **Entries only grow.** Induction on the moves. -/
theorem exists_grown_applyIntents {s s' : GameState} {K : List Intent}
    (hdistinct : (s.players.map PlayerEntry.hash).Nodup) (h : s.applyIntents K = .ok s')
    {p : PlayerEntry} (hp : p ∈ s.players) :
    ∃ p' ∈ s'.players, Grown p (movesOf K p.hash) p' := by
  induction K generalizing s p with
  | nil =>
    cases h
    exact ⟨p, hp, rfl, rfl, rfl⟩
  | cons i K ih =>
    obtain ⟨t, hmove, hrest⟩ := bind_eq_ok.mp h
    obtain ⟨q, hq, hgrown⟩ := exists_grown_applyIntent hdistinct hmove hp
    -- the entry that was reached goes on, on a board that is still distinct
    have hnodup : (t.players.map PlayerEntry.hash).Nodup :=
      nodup_applyIntents hdistinct (applyIntents_singleton.mpr hmove)
    obtain ⟨r, hr, hgrown'⟩ := ih hnodup hrest hq
    have hmoves : movesOf ([i] ++ K) p.hash = movesOf [i] p.hash ++ movesOf K p.hash := by
      simp only [movesOf, ofKey, List.filter_append]
    rw [hgrown.hash] at hgrown'
    show ∃ p' ∈ s'.players, Grown p (movesOf ([i] ++ K) p.hash) p'
    rw [hmoves]
    exact ⟨r, hr, hgrown.trans hgrown'⟩

/-- Entries only grow, whatever order the operator writes them in. -/
theorem Played.exists_grown {s s' : GameState} {K : List Intent} (h : Played s K s')
    (hdistinct : (s.players.map PlayerEntry.hash).Nodup) {p : PlayerEntry} (hp : p ∈ s.players) :
    ∃ p' ∈ s'.players, Grown p (movesOf K p.hash) p' := by
  obtain ⟨t, ht, hsame⟩ := h.board
  obtain ⟨p', hp', hgrown⟩ := exists_grown_applyIntents hdistinct (applyBatch_eq_ok.mp ht).1 hp
  exact ⟨p', hsame.players.perm.mem_iff.mp hp', hgrown⟩

/-! ## The game cells of a ledger -/

def gameCells (P : Platform) (ty : Script) (L : Ledger) : Set (OutPoint × Cell) :=
  liveOf (Vm.carries P ty) L

/-- What a transaction does to the game cells. -/
def gameEvent (P : Platform) (ty : Script) (rtx : ResolvedTx) : Event (OutPoint × Cell) :=
  eventOf (Vm.carries P ty) rtx.spent (rtx.created P)

/-- Where the transactions leave a live game cell. -/
def thread (P : Platform) (ty : Script) (txs : List ResolvedTx) (e : OutPoint × Cell) :
    OutPoint × Cell := follow (txs.map (gameEvent P ty)) e

/-- The game cells that are spent are the inputs of the group. -/
theorem map_ofKind_spent (rtx : ResolvedTx) :
    (ofKind (Vm.carries P ty) rtx.spent).map Prod.snd =
      (Vm.ofType P rtx ty).groupInputCells := by
  rw [Vm.groupInputCells_ofType, ← rtx.map_snd_spent, List.filter_map]
  rfl

/-- The game cells that are created are the outputs of the group. -/
theorem map_ofKind_created (rtx : ResolvedTx) :
    (ofKind (Vm.carries P ty) (rtx.created P)).map Prod.snd =
      (Vm.ofType P rtx ty).groupOutputCells := by
  rw [Vm.groupOutputCells_ofType, ← rtx.map_snd_created P, List.filter_map]
  rfl

/-- The type script lets a transaction treat the game cells one for one only. -/
theorem GameStep.oneForOne {L L' : Ledger} {rtx : ResolvedTx} (step : GameStep P ty L rtx L') :
    OneForOne (Vm.carries P ty) rtx.spent (rtx.created P) := by
  have hspent := congrArg List.length (@map_ofKind_spent P ty rtx)
  have hcreated := congrArg List.length (@map_ofKind_created P ty rtx)
  rw [List.length_map] at hspent hcreated
  by_cases htouches : TouchesGame P ty rtx
  · rcases verify_ok (step.accepted htouches) with ⟨c, h⟩ | ⟨c, c', batch, h⟩
    · rw [h.inputs] at hspent
      rw [h.outputs] at hcreated
      exact Or.inl ⟨List.length_eq_zero_iff.mp hspent, Nat.le_of_eq hcreated⟩
    · rw [h.inputs] at hspent
      rw [h.outputs] at hcreated
      exact Or.inr ⟨hspent, hcreated⟩
  · -- nothing of the game goes in or out
    have hins : (Vm.ofType P rtx ty).groupInputCells = [] := by
      rw [Vm.groupInputCells_ofType, List.filter_eq_nil_iff]
      exact fun c hc hcarries => htouches (Or.inl ⟨c, hc, hcarries⟩)
    have houts : (Vm.ofType P rtx ty).groupOutputCells = [] := by
      rw [Vm.groupOutputCells_ofType, List.filter_eq_nil_iff]
      exact fun c hc hcarries => htouches (Or.inr ⟨c, hc, hcarries⟩)
    rw [hins] at hspent
    rw [houts] at hcreated
    exact Or.inl ⟨List.length_eq_zero_iff.mp hspent, by
      rw [hcreated]
      exact Nat.zero_le 1⟩

/-- **A transaction is one event** in the population of game cells: the script lets it be nothing
else. -/
theorem GameStep.applies {L L' : Ledger} {rtx : ResolvedTx} (step : GameStep P ty L rtx L') :
    (gameEvent P ty rtx).Applies (gameCells P ty L) (gameCells P ty L') :=
  applies_of_commits step.commits step.oneForOne

/-- The run, as the game cells see it. -/
theorem events_of_run {L₀ L : Ledger} {txs : List ResolvedTx}
    (run : Trace (GameStep P ty) L₀ txs L) :
    Trace Event.Applies (gameCells P ty L₀) (txs.map (gameEvent P ty)) (gameCells P ty L) := by
  refine run.invariant (fun txs L => Trace Event.Applies (gameCells P ty L₀)
    (txs.map (gameEvent P ty)) (gameCells P ty L)) .nil ?_
  intro txs L rtx L' ih step
  rw [List.map_append, List.map_singleton]
  exact ih.snoc step.applies

/-- Where one transaction leaves a live game cell: it stays, or it is the one that the transition
advances. -/
theorem GameStep.next_cases {L L' : Ledger} {rtx : ResolvedTx} (step : GameStep P ty L rtx L')
    (e : OutPoint × Cell) :
    (gameEvent P ty rtx).next e = e ∨
      verify P (.ofType P rtx ty) = .ok () ∧
        (Vm.ofType P rtx ty).groupInputCells = [e.2] ∧
        (Vm.ofType P rtx ty).groupOutputCells = [((gameEvent P ty rtx).next e).2] ∧
        loadBatch P (.ofType P rtx ty) = .ok (appliedBy P ty rtx) := by
  unfold gameEvent eventOf
  rcases step.oneForOne with ⟨hspent, -⟩ | ⟨hspent, hcreated⟩
  · -- no game cell is spent, so none moves
    rw [hspent]
    rcases ofKind (Vm.carries P ty) (rtx.created P) with - | ⟨b, - | ⟨b', rest⟩⟩
    · exact Or.inl rfl
    · exact Or.inl rfl
    · exact Or.inl rfl
  · obtain ⟨a, ha⟩ := List.length_eq_one_iff.mp hspent
    obtain ⟨b, hb⟩ := List.length_eq_one_iff.mp hcreated
    rw [ha, hb]
    by_cases hea : e = a
    · -- the game cell that is spent is this one
      right
      have hnext : (Event.move a b).next e = b := if_pos hea
      have hins : (Vm.ofType P rtx ty).groupInputCells = [e.2] := by
        rw [← map_ofKind_spent, ha, hea]
        rfl
      have houts : (Vm.ofType P rtx ty).groupOutputCells = [b.2] := by
        rw [← map_ofKind_created, hb]
        rfl
      have htouches : TouchesGame P ty rtx := by
        left
        have hmem : e.2 ∈ (Vm.ofType P rtx ty).groupInputCells :=
          hins ▸ List.mem_singleton_self e.2
        exact ⟨e.2, mem_groupInputCells.mp hmem⟩
      have hok := step.accepted htouches
      refine ⟨hok, hins, ?_, ?_⟩
      · rw [houts]
        exact congrArg (fun e : OutPoint × Cell => [e.2]) hnext.symm
      · rcases verify_ok hok with ⟨c, h⟩ | ⟨c, c', batch, h⟩
        · have := h.inputs.symm.trans hins
          cases this
        · rw [appliedBy, if_neg (by rw [hins]; exact List.cons_ne_nil _ _), h.loaded]
          rfl
    · exact Or.inl (if_neg hea)

/-- **The thread of a cell is its descent.** The moves on it are among those of the run, in the
same order. -/
theorem thread_descends {L₀ L : Ledger} {txs : List ResolvedTx}
    (run : Trace (GameStep P ty) L₀ txs L) (e : OutPoint × Cell) :
    ∃ K, K.Sublist (applied P ty txs) ∧ Descends P ty e.2 K (thread P ty txs e).2 := by
  induction run with
  | nil => exact ⟨[], List.nil_sublist _, .refl⟩
  | @snoc txs L L' rtx run step ih =>
    obtain ⟨K, hsub, hdescends⟩ := ih
    have happlied : applied P ty (txs ++ [rtx]) = applied P ty txs ++ appliedBy P ty rtx := by
      simp [applied]
    have hthread : thread P ty (txs ++ [rtx]) e =
        (gameEvent P ty rtx).next (thread P ty txs e) := by
      unfold thread
      rw [List.map_append, List.map_singleton, follow_snoc]
    rw [happlied, hthread]
    rcases step.next_cases (thread P ty txs e) with hstay | ⟨hok, hins, houts, hloaded⟩
    · rw [hstay]
      exact ⟨K, hsub.trans (List.sublist_append_left _ _), hdescends⟩
    · exact ⟨K ++ appliedBy P ty rtx, hsub.append (List.Sublist.refl _),
        .transition hdescends hok hins houts hloaded⟩

/-- The transactions that create a game cell and spend none. -/
def geneses (P : Platform) (ty : Script) (txs : List ResolvedTx) : Nat :=
  births (txs.map (gameEvent P ty))

/-- **No game cell is ever destroyed or merged.** In every run of transactions by anyone: each
live game cell has a thread to a live game cell at the end, through accepted transitions whose
moves are among those of the run; two cells never get the same one; a live game cell at the end
is on the thread of one at the start or of one that a transaction of the run created without
spending any; and the number of live game cells has grown by the number of these. -/
theorem game_cells_persist (P : Platform) (ty : Script) (L₀ L : Ledger) (txs : List ResolvedTx)
    (run : Trace (GameStep P ty) L₀ txs L) :
    (∀ e ∈ gameCells P ty L₀, thread P ty txs e ∈ gameCells P ty L ∧
      ∃ K, K.Sublist (applied P ty txs) ∧ Descends P ty e.2 K (thread P ty txs e).2) ∧
    Set.InjOn (thread P ty txs) (gameCells P ty L₀) ∧
    (∀ e ∈ gameCells P ty L, (∃ e₀ ∈ gameCells P ty L₀, thread P ty txs e₀ = e) ∨
      ∃ before rtx after e₀, txs = before ++ rtx :: after ∧
        (Vm.ofType P rtx ty).groupInputCells = [] ∧ e₀ ∈ rtx.created P ∧
        thread P ty after e₀ = e) ∧
    ((gameCells P ty L₀).Finite →
      (gameCells P ty L).ncard = (gameCells P ty L₀).ncard + geneses P ty txs) := by
  have hevents := events_of_run run
  refine ⟨fun e he => ⟨follow_mem hevents e he, thread_descends run e⟩, injOn_follow hevents, ?_,
    fun hfin => (ncard_run hevents hfin).2⟩
  intro e he
  rcases exists_origin hevents e he with horigin | ⟨before, a, after, hsplit, hfollow⟩
  · exact Or.inl horigin
  · -- the birth is the event of one transaction of the run
    obtain ⟨before', rest, rfl, rfl, hrest⟩ := List.map_eq_append_iff.mp hsplit
    obtain ⟨rtx, after', rfl, hbirth, rfl⟩ := List.map_eq_cons_iff.mp hrest
    obtain ⟨hspent, hcreated⟩ := eventOf_eq_birth _ hbirth
    have hmem : a ∈ ofKind (Vm.carries P ty) (rtx.created P) :=
      hcreated ▸ List.mem_singleton_self a
    refine Or.inr ⟨before', rtx, after', a, rfl, ?_, (mem_ofKind.mp hmem).1, hfollow⟩
    rw [← map_ofKind_spent, hspent]
    rfl

/-- **No player ever loses points.** In every run of transactions by anyone, a live game cell with
pairwise distinct players ends as a live game cell whose board is what some of the moves of the
run, each signed, make of it: every entry is still there, as many nonces further as its player
made moves and richer by exactly their points. -/
theorem players_keep_scores (P : Platform) (ty : Script) (L₀ L : Ledger) (txs : List ResolvedTx)
    (run : Trace (GameStep P ty) L₀ txs L) (op : OutPoint) (c : Cell) (s : GameState)
    (hlive : L₀ op = some c) (hgame : Vm.carries P ty c = true)
    (hs : GameState.decode c.data = .ok s) (hdistinct : (s.players.map PlayerEntry.hash).Nodup) :
    ∃ op' c' s' K, L op' = some c' ∧ Vm.carries P ty c' = true ∧
      GameState.decode c'.data = .ok s' ∧ K.Sublist (applied P ty txs) ∧
      (∀ i ∈ K, SignedFor P (gameIdOf ty) i) ∧
      (∃ t, s.applyBatch K = .ok t ∧ SameBoard t s') ∧
      s'.seq.toNat = s.seq.toNat + K.length ∧
      (∀ p ∈ s.players, ∃ p' ∈ s'.players, Grown p (movesOf K p.hash) p') := by
  have hmem : (op, c) ∈ gameCells P ty L₀ := ⟨hlive, hgame⟩
  obtain ⟨hlive', hgame'⟩ := follow_mem (events_of_run run) _ hmem
  obtain ⟨K, hsub, hdescends⟩ := thread_descends run (op, c)
  obtain ⟨s', hs', hplayed⟩ := hdescends.played hs hdistinct
  exact ⟨_, _, s', K, hlive', hgame', hs', hsub, hdescends.signed, hplayed.board,
    hplayed.counted.symm, fun p hp => hplayed.exists_grown hdistinct hp⟩

/-! ### Two games of one id

Both cells of a twice-started game are played on, and both keep their thread. -/

def twoGames : Ledger := next (next plainLedger genesisA) genesisB

theorem twoGames_run :
    Trace (GameStep .sample sampleGame) twoGames [movesA, movesB]
      (next (next twoGames movesA) movesB) :=
  (Trace.single movesA_step).snoc movesB_step

theorem game_cells_persist_two_games :
    (∀ e ∈ gameCells .sample sampleGame twoGames,
      thread .sample sampleGame [movesA, movesB] e ∈
          gameCells .sample sampleGame (next (next twoGames movesA) movesB) ∧
        ∃ K, K.Sublist (applied .sample sampleGame [movesA, movesB]) ∧
          Descends .sample sampleGame e.2 K (thread .sample sampleGame [movesA, movesB] e).2) ∧
    Set.InjOn (thread .sample sampleGame [movesA, movesB])
      (gameCells .sample sampleGame twoGames) ∧
    (∀ e ∈ gameCells .sample sampleGame (next (next twoGames movesA) movesB),
      (∃ e₀ ∈ gameCells .sample sampleGame twoGames,
        thread .sample sampleGame [movesA, movesB] e₀ = e) ∨
      ∃ before rtx after e₀, [movesA, movesB] = before ++ rtx :: after ∧
        (Vm.ofType .sample rtx sampleGame).groupInputCells = [] ∧
        e₀ ∈ rtx.created .sample ∧ thread .sample sampleGame after e₀ = e) ∧
    ((gameCells .sample sampleGame twoGames).Finite →
      (gameCells .sample sampleGame (next (next twoGames movesA) movesB)).ncard =
        (gameCells .sample sampleGame twoGames).ncard +
          geneses .sample sampleGame [movesA, movesB]) :=
  game_cells_persist .sample sampleGame twoGames _ _ twoGames_run

/-- The moves of the second game leave the first one alone. -/
theorem players_keep_scores_two_games :
    ∃ op' c' s' K, next (next twoGames movesA) movesB op' = some c' ∧
      Vm.carries .sample sampleGame c' = true ∧
      GameState.decode c'.data = .ok s' ∧
      K.Sublist (applied .sample sampleGame [movesB]) ∧
      (∀ i ∈ K, SignedFor .sample (gameIdOf sampleGame) i) ∧
      (∃ t, sampleBoard.applyBatch K = .ok t ∧ SameBoard t s') ∧
      s'.seq.toNat = sampleBoard.seq.toNat + K.length ∧
      (∀ p ∈ sampleBoard.players, ∃ p' ∈ s'.players, Grown p (movesOf K p.hash) p') :=
  players_keep_scores .sample sampleGame (next twoGames movesA) _ _ (.single movesB_step)
    ⟨Platform.sample.txHash movesA.tx.raw, 0⟩ (gameCell sampleBoard.encode) sampleBoard
    (by decide +kernel) (by decide +kernel) (eq_ok_of_toOption (by decide +kernel))
    (by decide +kernel)

end CkbController.GameCell
