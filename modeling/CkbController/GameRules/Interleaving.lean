import CkbController.Lib.KeyedTable
import CkbController.Lib.Interleaving
import CkbController.Ckb.Encoding
import CkbController.GameRules.Batches

/-!
# What the order of moves and entries cannot change

A board is a table searched by player hash, and a move is one update of it
(`applyIntent_eq_upsert`). So moves of different players commute up to the order of the entries,
and the operator is free in three ways: how it interleaves the players (`batches_interleave`), where
it cuts the stream into transitions, and in which order it writes the entries
(`equalsUnordered_congr`).

Nothing here assumes that the hashes on a board are distinct, except where it says so: a decoded
board may list a player twice, and then only its first entry ever moves.
-/

namespace CkbController.GameRules

open ByteCodec MachineInt Checks Sequenced KeyedTable

/-! ## A move as an update -/

/-- What a move makes of the player's entry, if there is one. -/
def Intent.move (intent : Intent) (entry : Option PlayerEntry) :
    Except GameError PlayerEntry := do
  rejectIf (maxPointsPerMove.toNat < intent.points.toNat) .pointsTooHigh
  match entry with
  | some p => p.play intent
  | none => do
    rejectIf (intent.nonce ≠ 1) .nonceNotFresh
    pure { hash := intent.hash, score := intent.points, nonce := 1 }

/-- A move changes no hash. -/
theorem keepsKey_move (intent : Intent) :
    KeepsKey PlayerEntry.hash intent.hash intent.move := by
  intro o q hkey h
  obtain ⟨-, h⟩ := rejectIf_bind_eq_ok.mp h
  cases o with
  | none =>
    obtain ⟨-, h⟩ := rejectIf_bind_eq_ok.mp h
    cases h
    rfl
  | some p => exact (play_eq_ok h).1.trans (hkey p rfl)

/-- The search of a move is that of a table by the player's hash. -/
theorem playOn_eq_upsert {intent : Intent} (players : List PlayerEntry)
    (hcap : ¬ maxPointsPerMove.toNat < intent.points.toNat) :
    playOn intent players = upsert PlayerEntry.hash intent.hash intent.move players := by
  -- below the cap the update is one of the entry or a new entry
  have hmove : ∀ o, intent.move o = match (o : Option PlayerEntry) with
      | some p => p.play intent
      | none => (do
        rejectIf (intent.nonce ≠ 1) .nonceNotFresh
        pure { hash := intent.hash, score := intent.points, nonce := 1 }) := by
    intro o
    unfold Intent.move
    rw [rejectIf_neg hcap, ok_bind]
  induction players with
  | nil =>
    unfold playOn upsert
    rw [hmove none]
    by_cases hnonce : intent.nonce ≠ 1
    · rw [rejectIf, if_pos hnonce]
      rfl
    · rw [rejectIf_neg hnonce]
      rfl
  | cons p players ih =>
    unfold playOn upsert
    rw [ih, hmove (some p)]

/-- Above the cap the update fails, whatever the table. -/
theorem upsert_of_pointsTooHigh {intent : Intent} (players : List PlayerEntry)
    (hcap : maxPointsPerMove.toNat < intent.points.toNat) :
    upsert PlayerEntry.hash intent.hash intent.move players = .error .pointsTooHigh := by
  apply upsert_error
  unfold Intent.move
  rw [rejectIf, if_pos hcap]
  rfl

/-- **A move is one update of the table**, the cap included. -/
theorem applyIntent_eq_upsert (s : GameState) (intent : Intent) :
    s.applyIntent intent =
      (upsert PlayerEntry.hash intent.hash intent.move s.players >>= fun players =>
        pure { s with players }) := by
  unfold GameState.applyIntent
  by_cases hcap : maxPointsPerMove.toNat < intent.points.toNat
  · rw [upsert_of_pointsTooHigh s.players hcap, rejectIf, if_pos hcap]
    rfl
  · rw [rejectIf_neg hcap, ok_bind, playOn_eq_upsert s.players hcap]

/-! ## Boards that no move tells apart -/

structure SameBoard (s t : GameState) : Prop where
  seq : s.seq = t.seq
  players : Same PlayerEntry.hash s.players t.players

/-- Boards that no move tells apart are an equivalence. -/
theorem sameBoard_equivalence : Equivalence SameBoard where
  refl := fun s => ⟨rfl, .refl s.players⟩
  symm := fun h => ⟨h.seq.symm, h.players.symm⟩
  trans := fun h h' => ⟨h.seq.trans h'.seq, h.players.trans h'.players⟩

/-- A move does the same to both. -/
theorem applyIntent_congr {s t : GameState} (h : SameBoard s t) (intent : Intent) :
    Agree SameBoard (s.applyIntent intent) (t.applyIntent intent) := by
  rw [applyIntent_eq_upsert, applyIntent_eq_upsert]
  refine (upsert_congr (keepsKey_move intent) h.players).bind ?_
  intro players players' hsame
  exact .ok ⟨h.seq, hsame⟩

/-- Moves do the same to both. -/
theorem applyIntents_congr {s t : GameState} (h : SameBoard s t) (intents : List Intent) :
    Agree SameBoard (s.applyIntents intents) (t.applyIntents intents) := by
  induction intents generalizing s t with
  | nil => exact .ok h
  | cons i intents ih => exact (applyIntent_congr h i).bind fun _ _ hsame => ih hsame

/-- A batch does the same to both, with the same error if it fails. -/
theorem applyBatch_congr {s t : GameState} (h : SameBoard s t) (intents : List Intent) :
    Agree SameBoard (s.applyBatch intents) (t.applyBatch intents) := by
  refine (applyIntents_congr h intents).bind ?_
  intro s' t' hsame
  rw [← hsame.seq]
  cases hseq : checkedAdd s'.seq (BitVec.ofNat 64 intents.length) with
  | none => exact Agree.error GameError.overflow
  | some seq => exact .ok ⟨rfl, hsame.players⟩

/-! ## The comparison -/

/-- The comparison accepts every order of the entries. -/
theorem equalsUnordered_of_perm {s t : GameState} (hseq : s.seq = t.seq)
    (h : s.players.Perm t.players) : s.equalsUnordered t = true := by
  simp only [GameState.equalsUnordered, Bool.and_eq_true, beq_iff_eq]
  refine ⟨⟨hseq, h.length_eq⟩, List.all_eq_true.mpr ?_⟩
  intro p hp
  refine List.any_eq_true.mpr ⟨p, h.mem_iff.mp hp, ?_⟩
  simp

/-- Moves keep the players distinct. -/
theorem nodup_applyIntents {s s' : GameState} {intents : List Intent}
    (hdistinct : (s.players.map PlayerEntry.hash).Nodup)
    (h : s.applyIntents intents = .ok s') : (s'.players.map PlayerEntry.hash).Nodup := by
  induction intents generalizing s with
  | nil =>
    cases h
    exact hdistinct
  | cons i intents ih =>
    obtain ⟨t, hmove, hrest⟩ := bind_eq_ok.mp h
    refine ih ?_ hrest
    rcases hashes_applyIntent hmove with ⟨-, hsame⟩ | ⟨hnew, hsame⟩
    · rw [hsame]
      exact hdistinct
    · rw [hsame]
      exact List.nodup_append.mpr ⟨hdistinct, List.nodup_singleton _, by
        intro x hx y hy heq
        rw [List.mem_singleton.mp hy] at heq
        exact hnew (heq ▸ hx)⟩

/-- A batch keeps the players distinct. -/
theorem nodup_applyBatch {s s' : GameState} {intents : List Intent}
    (hdistinct : (s.players.map PlayerEntry.hash).Nodup)
    (h : s.applyBatch intents = .ok s') : (s'.players.map PlayerEntry.hash).Nodup := by
  -- the batch counts its moves beside them, the table is the one the moves leave
  have hnodup := nodup_applyIntents hdistinct (applyBatch_eq_ok.mp h).1
  exact hnodup

/-- **The order of the entries is never consensus.** One inclusion and equal sizes are an equality
up to order, because the left entries are distinct; and boards that are equal up to order take
every batch alike. -/
theorem equalsUnordered_congr {a b : GameState}
    (hdistinct : (a.players.map PlayerEntry.hash).Nodup) :
    (a.equalsUnordered b = true ↔ a.seq = b.seq ∧ b.players.Perm a.players) ∧
    (a.equalsUnordered b = true →
      (b.players.map PlayerEntry.hash).Nodup ∧ b.equalsUnordered a = true ∧
      ∀ batch, (∃ e, a.applyBatch batch = .error e ∧ b.applyBatch batch = .error e) ∨
        ∃ a' b', a.applyBatch batch = .ok a' ∧ b.applyBatch batch = .ok b' ∧
          a'.equalsUnordered b' = true ∧ (a'.players.map PlayerEntry.hash).Nodup ∧
          (b'.players.map PlayerEntry.hash).Nodup) := by
  constructor
  · constructor
    · intro heq
      obtain ⟨hperm, hseq⟩ := perm_of_equalsUnordered hdistinct heq
      exact ⟨hseq, hperm.symm⟩
    · rintro ⟨hseq, hperm⟩
      exact equalsUnordered_of_perm hseq hperm.symm
  · intro heq
    obtain ⟨hperm, hseq⟩ := perm_of_equalsUnordered hdistinct heq
    have hdistinct' : (b.players.map PlayerEntry.hash).Nodup :=
      (hperm.map _).nodup_iff.mp hdistinct
    refine ⟨hdistinct', equalsUnordered_of_perm hseq.symm hperm.symm, ?_⟩
    intro batch
    -- equal up to order is the same board to every move
    have hagree := applyBatch_congr ⟨hseq, same_of_perm hdistinct hperm⟩ batch
    rcases hagree.cases with herror | ⟨a', b', ha, hb, hsame⟩
    · exact Or.inl herror
    · exact Or.inr ⟨a', b', ha, hb, equalsUnordered_of_perm hsame.seq hsame.players.perm,
        nodup_applyBatch hdistinct ha, nodup_applyBatch hdistinct' hb⟩

/-- Two players, written in either order. -/
theorem equalsUnordered_swapped :
    (⟨2, [⟨sampleKey 1, 10, 1⟩, ⟨sampleKey 2, 20, 1⟩]⟩ : GameState).equalsUnordered
        ⟨2, [⟨sampleKey 2, 20, 1⟩, ⟨sampleKey 1, 10, 1⟩]⟩ = true ∧
      (⟨2, [⟨sampleKey 2, 20, 1⟩, ⟨sampleKey 1, 10, 1⟩]⟩ : GameState).equalsUnordered
        ⟨2, [⟨sampleKey 1, 10, 1⟩, ⟨sampleKey 2, 20, 1⟩]⟩ = true := by
  have hcongr := @equalsUnordered_congr ⟨2, [⟨sampleKey 1, 10, 1⟩, ⟨sampleKey 2, 20, 1⟩]⟩
    ⟨2, [⟨sampleKey 2, 20, 1⟩, ⟨sampleKey 1, 10, 1⟩]⟩ (by decide)
  have heq := hcongr.1.mpr ⟨rfl, List.Perm.swap _ _ _⟩
  exact ⟨heq, (hcongr.2 heq).2.1⟩

/-! ## Batches in a row -/

def GameState.applyBatches (s : GameState) (batches : List (List Intent)) :
    Except GameError GameState := batches.foldlM GameState.applyBatch s

/-- Where the stream is cut does not matter: its moves apply, and `seq` can count them. -/
theorem applyBatches_eq_ok {s s' : GameState} {batches : List (List Intent)}
    (hlen : batches.flatten.length < 2 ^ 64) :
    s.applyBatches batches = .ok s' ↔
      s.applyIntents batches.flatten = .ok { s' with seq := s.seq } ∧
        s.seq.toNat + batches.flatten.length = s'.seq.toNat := by
  induction batches generalizing s with
  | nil =>
    show Except.ok s = .ok s' ↔ Except.ok s = .ok { s' with seq := s.seq } ∧ _
    constructor
    · rintro ⟨⟩
      exact ⟨rfl, rfl⟩
    · rintro ⟨hplayers, hseq⟩
      have hsame : s.seq = s'.seq := BitVec.eq_of_toNat_eq hseq
      rw [hplayers, hsame]
  | cons batch batches ih =>
    rw [List.flatten_cons, List.length_append] at hlen
    have hbatch : (BitVec.ofNat 64 batch.length).toNat = batch.length := by
      rw [BitVec.toNat_ofNat, Nat.mod_eq_of_lt (by omega)]
    show (s.applyBatch batch >>= fun t => t.applyBatches batches) = .ok s' ↔ _
    rw [bind_eq_ok, List.flatten_cons, List.length_append, applyIntents_append]
    constructor
    · rintro ⟨t, hfirst, hrest⟩
      obtain ⟨hmoves, hseq⟩ := applyBatch_eq_ok.mp hfirst
      obtain ⟨hmoves', hseq'⟩ := (ih (by omega)).mp hrest
      -- the moves do not look at `seq`, so the rest applies with the first one still in place
      have hmoves'' := applyIntents_withSeq s.seq hmoves'
      rw [hbatch] at hseq
      exact ⟨⟨_, hmoves, hmoves''⟩, by omega⟩
    · rintro ⟨⟨u, hmoves, hmoves'⟩, hseq⟩
      have hsame := applyIntents_seq hmoves
      have hfits := s'.seq.isLt
      -- the count at the cut is at most the final one, so it fits
      let seq : U64 := BitVec.ofNat 64 (s.seq.toNat + batch.length)
      have hcut : seq.toNat = s.seq.toNat + batch.length := by
        rw [BitVec.toNat_ofNat, Nat.mod_eq_of_lt (by omega)]
      refine ⟨{ u with seq }, applyBatch_eq_ok.mpr ⟨?_, ?_⟩, (ih (by omega)).mpr ⟨?_, ?_⟩⟩
      · rw [hmoves, ← hsame]
      · rw [hbatch, hcut]
      · have hmoves'' := applyIntents_withSeq seq hmoves'
        exact hmoves''
      · show seq.toNat + batches.flatten.length = s'.seq.toNat
        omega

/-! ## Interleavings -/

/-- A move without its error. -/
theorem toOption_applyIntent (s : GameState) (intent : Intent) :
    (s.applyIntent intent).toOption =
      (upsert PlayerEntry.hash intent.hash intent.move s.players).toOption.map
        fun players => { s with players } := by
  rw [applyIntent_eq_upsert]
  cases upsert PlayerEntry.hash intent.hash intent.move s.players <;> rfl

/-- Moves without their errors are a run of updates. -/
theorem run_eq_toOption (s : GameState) (intents : List Intent) :
    Interleaving.run (fun s i => (GameState.applyIntent s i).toOption) s intents =
      (s.applyIntents intents).toOption := by
  induction intents generalizing s with
  | nil => rfl
  | cons i intents ih =>
    rw [Interleaving.run_cons]
    show _ = (s.applyIntent i >>= fun t => t.applyIntents intents).toOption
    cases s.applyIntent i with
    | error e => rfl
    | ok t => exact ih t

/-- Moves of different players commute. -/
theorem independent_players :
    Interleaving.Independent Intent.hash (fun s i => (GameState.applyIntent s i).toOption)
      SameBoard where
  equiv := sameBoard_equivalence
  congr := fun _ _ intent h => (applyIntent_congr h intent).toOption
  swap := by
    intro s i j hij
    -- two moves are two updates of the table; neither looks at `seq`
    have htwo : ∀ i j : Intent, ((s.applyIntent i).toOption.bind fun t =>
        (t.applyIntent j).toOption) =
        ((upsert PlayerEntry.hash i.hash i.move s.players).toOption.bind fun m =>
          (upsert PlayerEntry.hash j.hash j.move m).toOption).map
            fun players => { s with players } := by
      intro i j
      rw [toOption_applyIntent]
      cases (upsert PlayerEntry.hash i.hash i.move s.players).toOption with
      | none => rfl
      | some m => exact toOption_applyIntent { s with players := m } j
    rw [htwo i j, htwo j i]
    refine Interleaving.rel_map (upsert_swap hij (keepsKey_move i) (keepsKey_move j)) ?_
    intro players players' hsame
    exact ⟨rfl, hsame⟩

/-- What one arrangement of the moves reaches, every other one reaches up to order. -/
theorem applyBatches_of_ofKey_eq {s s₁ : GameState} {L₁ L₂ : List (List Intent)}
    (hlen : L₁.flatten.length < 2 ^ 64)
    (hplayers : ∀ player, movesOf L₁.flatten player = movesOf L₂.flatten player)
    (h : s.applyBatches L₁ = .ok s₁) : ∃ s₂, s.applyBatches L₂ = .ok s₂ ∧ SameBoard s₁ s₂ := by
  have hcount : L₁.flatten.length = L₂.flatten.length :=
    (Interleaving.perm_of_ofKey_eq hplayers).length_eq
  obtain ⟨hmoves, hseq⟩ := (applyBatches_eq_ok hlen).mp h
  have hruns := independent_players.run_of_ofKey_eq (sameBoard_equivalence.refl s) hplayers
  rw [run_eq_toOption, run_eq_toOption, hmoves] at hruns
  cases hother : s.applyIntents L₂.flatten with
  | error e =>
    rw [hother] at hruns
    cases hruns
  | ok t =>
    rw [hother] at hruns
    cases hruns with
    | some hsame =>
      refine ⟨{ t with seq := s₁.seq }, (applyBatches_eq_ok (hcount ▸ hlen)).mpr ⟨?_, ?_⟩, ?_⟩
      · rw [hother, hsame.seq]
      · rw [← hcount]
        exact hseq
      · exact ⟨rfl, hsame.players⟩

/-- **How the players are interleaved and where the stream is cut decides nothing.** -/
theorem batches_interleave (s : GameState) {L₁ L₂ : List (List Intent)}
    (hlen : L₁.flatten.length < 2 ^ 64)
    (hplayers : ∀ player, movesOf L₁.flatten player = movesOf L₂.flatten player) :
    ((∃ s₁, s.applyBatches L₁ = .ok s₁) ↔ ∃ s₂, s.applyBatches L₂ = .ok s₂) ∧
    ∀ s₁ s₂, s.applyBatches L₁ = .ok s₁ → s.applyBatches L₂ = .ok s₂ →
      s₁.equalsUnordered s₂ = true ∧ s₂.equalsUnordered s₁ = true ∧ s₁.seq = s₂.seq ∧
        s₁.players.Perm s₂.players := by
  have hcount : L₁.flatten.length = L₂.flatten.length :=
    (Interleaving.perm_of_ofKey_eq hplayers).length_eq
  constructor
  · constructor
    · rintro ⟨s₁, h₁⟩
      obtain ⟨s₂, h₂, -⟩ := applyBatches_of_ofKey_eq hlen hplayers h₁
      exact ⟨s₂, h₂⟩
    · rintro ⟨s₂, h₂⟩
      obtain ⟨s₁, h₁, -⟩ := applyBatches_of_ofKey_eq (hcount ▸ hlen)
        (fun player => (hplayers player).symm) h₂
      exact ⟨s₁, h₁⟩
  · intro s₁ s₂ h₁ h₂
    obtain ⟨s₂', h₂', hsame⟩ := applyBatches_of_ofKey_eq hlen hplayers h₁
    obtain rfl : s₂' = s₂ := Except.ok.inj (h₂'.symm.trans h₂)
    have hperm := hsame.players.perm
    exact ⟨equalsUnordered_of_perm hsame.seq hperm,
      equalsUnordered_of_perm hsame.seq.symm hperm.symm, hsame.seq, hperm⟩

def firstMoveOf (n : UInt8) : Intent := ⟨sampleKey n, 10, 1, sampleSig⟩

/-- Two first moves, in two batches or the other way round in one. -/
theorem batches_interleave_sample :
    (∃ s₁, GameState.empty.applyBatches [[firstMoveOf 1], [firstMoveOf 2]] = .ok s₁) ∧
      ∃ s₂, GameState.empty.applyBatches [[firstMoveOf 2, firstMoveOf 1]] = .ok s₂ := by
  have hone : ∃ s₁, GameState.empty.applyBatches [[firstMoveOf 1], [firstMoveOf 2]] = .ok s₁ :=
    ⟨⟨2, [⟨sampleKey 1, 10, 1⟩, ⟨sampleKey 2, 10, 1⟩]⟩, eq_ok_of_toOption (by decide)⟩
  have hplayers : ∀ player, movesOf [[firstMoveOf 1], [firstMoveOf 2]].flatten player =
      movesOf [[firstMoveOf 2, firstMoveOf 1]].flatten player := by
    intro player
    have hne : (firstMoveOf 1).hash ≠ (firstMoveOf 2).hash := by decide
    by_cases h₁ : (firstMoveOf 1).hash = player
    · have h₂ : (firstMoveOf 2).hash ≠ player := fun h => hne (h₁.trans h.symm)
      simp [movesOf, ofKey, h₁, h₂]
    · simp [movesOf, ofKey, List.filter_cons, h₁]
  exact ⟨hone, (batches_interleave GameState.empty (by decide) hplayers).1.mp hone⟩

end CkbController.GameRules
