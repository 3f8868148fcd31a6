import CkbController.Lib.Sequenced
import CkbController.GameRules.Rules
import Mathlib.Data.List.Perm.Subperm

/-!
# The board and the history behind it

What a board means: it is the account of a history of moves. `Represents H players` says that
the entries are exactly the players of `H`, each with the sum of its points and the number of its
moves, and that `H` itself respects the nonces and the cap. The rule keeps this one move at a
time (`represents_playOn`), so a batch does (`board_applyBatch`), and the order-insensitive
comparison transfers it to the board the operator wrote (`Board.of_equalsUnordered`).

The comparison only looks from left to right. It is an equality up to order because the left
board has pairwise distinct hashes, which is part of the invariant.
-/

namespace CkbController.GameRules

open ByteCodec MachineInt Checks Sequenced

/-! ## The abstract board -/

def movesOf (H : List Intent) (player : Byte20) : List Intent := ofKey Intent.hash H player

def totalPoints (moves : List Intent) : Nat := (moves.map fun i => i.points.toNat).sum

def NoncesInOrder (H : List Intent) : Prop := InOrder Intent.hash (fun i => i.nonce.toNat) H

/-- The entries are the account of the history. -/
structure Represents (H : List Intent) (players : List PlayerEntry) : Prop where
  distinct : (players.map PlayerEntry.hash).Nodup
  inOrder : NoncesInOrder H
  capped : ∀ i ∈ H, i.points.toNat ≤ maxPointsPerMove.toNat
  entries : ∀ p ∈ players, movesOf H p.hash ≠ [] ∧
    p.score.toNat = totalPoints (movesOf H p.hash) ∧ p.nonce.toNat = (movesOf H p.hash).length
  complete : ∀ i ∈ H, ∃ p ∈ players, p.hash = i.hash

/-- The state is the account of the history, and `seq` counts it. -/
structure Board (H : List Intent) (s : GameState) : Prop where
  players : Represents H s.players
  seq : s.seq.toNat = H.length

/-- No moves, no entries. -/
theorem represents_nil : Represents [] [] where
  distinct := List.nodup_nil
  inOrder := inOrder_nil
  capped := fun _ h => absurd h List.not_mem_nil
  entries := fun _ h => absurd h List.not_mem_nil
  complete := fun _ h => absurd h List.not_mem_nil

/-- A player has an entry once there is a move. -/
theorem Represents.exists_entry_iff {H : List Intent} {players : List PlayerEntry}
    (h : Represents H players) (player : Byte20) :
    (∃ p ∈ players, p.hash = player) ↔ movesOf H player ≠ [] := by
  constructor
  · rintro ⟨p, hp, rfl⟩
    exact (h.entries p hp).1
  · intro hmoves
    obtain ⟨i, hi⟩ := List.exists_mem_of_ne_nil _ hmoves
    obtain ⟨hmem, hkey⟩ := List.mem_filter.mp hi
    obtain ⟨p, hp, hhash⟩ := h.complete i hmem
    exact ⟨p, hp, hhash.trans (of_decide_eq_true hkey)⟩

theorem totalPoints_snoc (moves : List Intent) (i : Intent) :
    totalPoints (moves ++ [i]) = totalPoints moves + i.points.toNat := by
  simp [totalPoints]

/-! ## One move -/

/-- What playing an entry does when it succeeds. -/
theorem play_eq_ok {p p' : PlayerEntry} {intent : Intent} (h : p.play intent = .ok p') :
    p'.hash = p.hash ∧ intent.nonce.toNat = p.nonce.toNat + 1 ∧ p'.nonce = intent.nonce ∧
      p'.score.toNat = p.score.toNat + intent.points.toNat := by
  obtain ⟨next, hnext, h⟩ := bind_eq_ok.mp h
  obtain ⟨hnonce, h⟩ := rejectIf_bind_eq_ok.mp h
  obtain ⟨score, hscore, h⟩ := bind_eq_ok.mp h
  cases h
  have hn := checkedAdd_eq_some.mp (okOr_eq_ok.mp hnext)
  have hs := checkedAdd_eq_some.mp (okOr_eq_ok.mp hscore)
  rw [not_not.mp hnonce]
  exact ⟨rfl, hn.symm, rfl, hs.symm⟩

/-- What a move does to the entries: it plays the first entry with the player's hash, or puts a
new entry at the end if there is none. Induction on the entries. -/
theorem playOn_eq_ok {intent : Intent} {players players' : List PlayerEntry}
    (h : playOn intent players = .ok players') :
    (∃ before p after p', players = before ++ p :: after ∧ players' = before ++ p' :: after ∧
      p.hash = intent.hash ∧ p.play intent = .ok p') ∨
    ((∀ p ∈ players, p.hash ≠ intent.hash) ∧ intent.nonce = 1 ∧
      players' = players ++ [⟨intent.hash, intent.points, 1⟩]) := by
  induction players generalizing players' with
  -- at the end of the board: a newcomer, whose first nonce is 1
  | nil =>
    obtain ⟨hnonce, h⟩ := rejectIf_bind_eq_ok.mp h
    cases h
    exact Or.inr ⟨fun _ hp => absurd hp List.not_mem_nil, not_not.mp hnonce, rfl⟩
  | cons p players ih =>
    unfold playOn at h
    by_cases hhash : p.hash = intent.hash
    · -- the first entry of the player is the one that is played
      rw [if_pos hhash] at h
      obtain ⟨p', hplay, h⟩ := bind_eq_ok.mp h
      cases h
      exact Or.inl ⟨[], p, players, p', rfl, rfl, hhash, hplay⟩
    · rw [if_neg hhash] at h
      obtain ⟨players'', hrest, h⟩ := bind_eq_ok.mp h
      cases h
      rcases ih hrest with ⟨before, q, after, q', rfl, rfl, hq, hplay⟩ | ⟨hnone, hnonce, rfl⟩
      · exact Or.inl ⟨p :: before, q, after, q', rfl, rfl, hq, hplay⟩
      · exact Or.inr ⟨List.forall_mem_cons.mpr ⟨hhash, hnone⟩, hnonce, rfl⟩

/-- The entries of the others are right as they are. -/
theorem Represents.entries_other {H : List Intent} {players : List PlayerEntry}
    (h : Represents H players) {i : Intent} {p : PlayerEntry} (hp : p ∈ players)
    (hother : p.hash ≠ i.hash) :
    movesOf (H ++ [i]) p.hash ≠ [] ∧
      p.score.toNat = totalPoints (movesOf (H ++ [i]) p.hash) ∧
      p.nonce.toNat = (movesOf (H ++ [i]) p.hash).length := by
  have hmoves : movesOf (H ++ [i]) p.hash = movesOf H p.hash := ofKey_snoc_other hother.symm
  rw [hmoves]
  exact h.entries p hp

/-- A move within the cap keeps the history within it. -/
theorem Represents.capped_snoc {H : List Intent} {players : List PlayerEntry} {i : Intent}
    (h : Represents H players) (hcap : i.points.toNat ≤ maxPointsPerMove.toNat) :
    ∀ j ∈ H ++ [i], j.points.toNat ≤ maxPointsPerMove.toNat := by
  intro j hj
  rcases List.mem_append.mp hj with hj | hj
  · exact h.capped j hj
  · rw [List.mem_singleton.mp hj]
    exact hcap

/-- Every mover has an entry after the move, if no hash is lost and the mover's is there. -/
theorem Represents.complete_snoc {H : List Intent} {players players' : List PlayerEntry}
    {i : Intent} (h : Represents H players)
    (hkeep : ∀ q ∈ players, ∃ q' ∈ players', q'.hash = q.hash)
    (hmover : ∃ p ∈ players', p.hash = i.hash) :
    ∀ j ∈ H ++ [i], ∃ p ∈ players', p.hash = j.hash := by
  intro j hj
  rcases List.mem_append.mp hj with hj | hj
  · obtain ⟨q, hq, heq⟩ := h.complete j hj
    obtain ⟨q', hq', heq'⟩ := hkeep q hq
    exact ⟨q', hq', heq'.trans heq⟩
  · rw [List.mem_singleton.mp hj]
    exact hmover

/-- A player that has an entry plays the next nonce. -/
theorem represents_played {H : List Intent} {before after : List PlayerEntry}
    {p p' : PlayerEntry} {i : Intent} (h : Represents H (before ++ p :: after))
    (hcap : i.points.toNat ≤ maxPointsPerMove.toNat) (hhash : p.hash = i.hash)
    (hplay : p.play i = .ok p') : Represents (H ++ [i]) (before ++ p' :: after) := by
  have hmine : movesOf (H ++ [i]) i.hash = movesOf H i.hash ++ [i] := ofKey_snoc_same H i
  obtain ⟨hhash', hnext, hnonce', hscore'⟩ := play_eq_ok hplay
  obtain ⟨-, hscore, hnonce⟩ := h.entries p (by simp)
  rw [hhash] at hscore hnonce
  have hdistinct := h.distinct
  rw [List.map_append, List.map_cons] at hdistinct
  -- distinct hashes: the entry that was played is the player's only one
  have hothers : ∀ q ∈ before ++ after, q.hash ≠ i.hash := by
    intro q hq heq
    have hnodup := (List.nodup_middle.mp hdistinct)
    rw [List.nodup_cons, ← List.map_append] at hnodup
    exact hnodup.1 (List.mem_map.mpr ⟨q, hq, heq.trans hhash.symm⟩)
  refine ⟨?_, h.inOrder.snoc (hnext.trans (by rw [hnonce]; rfl)), h.capped_snoc hcap, ?_, ?_⟩
  · rw [List.map_append, List.map_cons, hhash']
    exact hdistinct
  · intro q hq
    rcases List.mem_append.mp hq with hq | hq
    · exact h.entries_other (by simp [hq]) (hothers q (by simp [hq]))
    · rcases List.mem_cons.mp hq with rfl | hq
      · -- the player's own entry: one more move
        rw [hhash', hhash, hmine]
        refine ⟨by simp, ?_, ?_⟩
        · rw [totalPoints_snoc, hscore', hscore]
        · rw [hnonce', hnext, hnonce, List.length_append, List.length_singleton]
      · exact h.entries_other (by simp [hq]) (hothers q (by simp [hq]))
  · refine h.complete_snoc ?_ ⟨p', by simp, hhash'.trans hhash⟩
    intro q hq
    rcases List.mem_append.mp hq with hq | hq
    · exact ⟨q, by simp [hq], rfl⟩
    · rcases List.mem_cons.mp hq with rfl | hq
      · exact ⟨p', by simp, hhash'⟩
      · exact ⟨q, by simp [hq], rfl⟩

/-- A player without an entry has made no move, so it starts with nonce 1. -/
theorem represents_joined {H : List Intent} {players : List PlayerEntry} {i : Intent}
    (h : Represents H players) (hcap : i.points.toNat ≤ maxPointsPerMove.toNat)
    (hnone : ∀ p ∈ players, p.hash ≠ i.hash) (hnonce : i.nonce = 1) :
    Represents (H ++ [i]) (players ++ [⟨i.hash, i.points, 1⟩]) := by
  have hmine : movesOf (H ++ [i]) i.hash = movesOf H i.hash ++ [i] := ofKey_snoc_same H i
  -- a move in the history would have left an entry
  have hfresh : movesOf H i.hash = [] := by
    by_contra hmoves
    obtain ⟨p, hp, heq⟩ := (h.exists_entry_iff i.hash).mpr hmoves
    exact hnone p hp heq
  have hfirst : i.nonce.toNat = (movesOf H i.hash).length + 1 := by
    rw [hfresh, hnonce]
    rfl
  refine ⟨?_, h.inOrder.snoc hfirst, h.capped_snoc hcap, ?_, ?_⟩
  · rw [List.map_append, List.nodup_append]
    refine ⟨h.distinct, List.nodup_singleton _, ?_⟩
    intro a ha b hb
    obtain ⟨p, hp, rfl⟩ := List.mem_map.mp ha
    rw [List.mem_singleton.mp hb]
    exact hnone p hp
  · intro q hq
    rcases List.mem_append.mp hq with hq | hq
    · exact h.entries_other hq (hnone q hq)
    · rw [List.mem_singleton.mp hq]
      -- the new entry holds this one move
      show movesOf (H ++ [i]) i.hash ≠ [] ∧
        i.points.toNat = totalPoints (movesOf (H ++ [i]) i.hash) ∧
        (1 : U64).toNat = (movesOf (H ++ [i]) i.hash).length
      rw [hmine, hfresh]
      refine ⟨by simp, ?_, rfl⟩
      rw [totalPoints_snoc]
      exact (Nat.zero_add _).symm
  · refine h.complete_snoc (fun q hq => ⟨q, List.mem_append_left _ hq, rfl⟩) ?_
    exact ⟨_, List.mem_append_right _ (List.mem_singleton_self _), rfl⟩

/-- **One move.** -/
theorem represents_playOn {H : List Intent} {players players' : List PlayerEntry} {i : Intent}
    (h : Represents H players) (hcap : i.points.toNat ≤ maxPointsPerMove.toNat)
    (hok : playOn i players = .ok players') : Represents (H ++ [i]) players' := by
  rcases playOn_eq_ok hok with ⟨before, p, after, p', rfl, rfl, hhash, hplay⟩ | ⟨hnone, hnonce, rfl⟩
  · exact represents_played h hcap hhash hplay
  · exact represents_joined h hcap hnone hnonce

/-! ### The nonce that is due -/

/-- A move that is refused for its nonce was not the next one. -/
theorem play_error_nonce {p : PlayerEntry} {intent : Intent}
    (h : p.play intent = .error .nonceNotFresh) : intent.nonce ≠ p.nonce + 1 := by
  unfold PlayerEntry.play at h
  rcases bind_eq_error.mp h with h | ⟨next, hnext, h⟩
  · cases (okOr_eq_error.mp h).2
  rcases rejectIf_bind_eq_error.mp h with ⟨hnonce, -⟩ | ⟨-, h⟩
  · -- the sum was checked, so it is the wrapping sum
    have hadd := checkedAdd_eq_some.mp (okOr_eq_ok.mp hnext)
    have hsame : next = p.nonce + 1 := by
      apply BitVec.eq_of_toNat_eq
      rw [BitVec.toNat_add, hadd, Nat.mod_eq_of_lt next.isLt]
    rw [← hsame]
    exact hnonce
  · rcases bind_eq_error.mp h with h | ⟨score, -, h⟩
    · cases (okOr_eq_error.mp h).2
    · cases h

/-- Why a move is not played. Induction on the entries. -/
theorem playOn_eq_error {intent : Intent} {players : List PlayerEntry} {e : GameError}
    (h : playOn intent players = .error e) :
    (∃ p ∈ players, p.hash = intent.hash ∧ p.play intent = .error e) ∨
    ((∀ p ∈ players, p.hash ≠ intent.hash) ∧ intent.nonce ≠ 1) := by
  induction players with
  -- a newcomer fails on its nonce only
  | nil =>
    rcases rejectIf_bind_eq_error.mp h with ⟨hnonce, -⟩ | ⟨-, h⟩
    · exact Or.inr ⟨fun _ hp => absurd hp List.not_mem_nil, hnonce⟩
    · cases h
  | cons p players ih =>
    unfold playOn at h
    by_cases hhash : p.hash = intent.hash
    · rw [if_pos hhash] at h
      rcases bind_eq_error.mp h with hplay | ⟨p', -, h⟩
      · exact Or.inl ⟨p, List.mem_cons_self, hhash, hplay⟩
      · cases h
    · rw [if_neg hhash] at h
      rcases bind_eq_error.mp h with hrest | ⟨players', -, h⟩
      · rcases ih hrest with ⟨q, hq, hqhash, hplay⟩ | ⟨hnone, hnonce⟩
        · exact Or.inl ⟨q, List.mem_cons_of_mem _ hq, hqhash, hplay⟩
        · exact Or.inr ⟨List.forall_mem_cons.mpr ⟨hhash, hnone⟩, hnonce⟩
      · cases h

/-- **The next number is never stale.** -/
theorem Board.nonce_due {H : List Intent} {s : GameState} {i : Intent} (h : Board H s)
    (hnonce : i.nonce = BitVec.ofNat 64 ((movesOf H i.hash).length + 1)) :
    s.applyIntent i ≠ .error .nonceNotFresh := by
  intro herror
  unfold GameState.applyIntent at herror
  rcases rejectIf_bind_eq_error.mp herror with ⟨-, hcap⟩ | ⟨-, herror⟩
  · cases hcap
  rcases bind_eq_error.mp herror with hplay | ⟨players, -, herror⟩
  · rcases playOn_eq_error hplay with ⟨p, hp, hhash, hplay⟩ | ⟨hnone, hone⟩
    · -- the entry's nonce is the number of moves, modulo the width of the field
      obtain ⟨-, -, hcount⟩ := h.players.entries p hp
      apply play_error_nonce hplay
      rw [hnonce, BitVec.ofNat_add, ← hhash, ← hcount, BitVec.ofNat_toNat, BitVec.setWidth_eq]
      rfl
    · -- a newcomer has made no move, so 1 is due
      have hfresh : movesOf H i.hash = [] := by
        by_contra hmoves
        obtain ⟨p, hp, heq⟩ := (h.players.exists_entry_iff i.hash).mpr hmoves
        exact hnone p hp heq
      apply hone
      rw [hnonce, hfresh]
      rfl
  · cases herror

/-! ## A batch -/

/-- **The moves of a batch**, by induction. -/
theorem represents_applyIntents {s s' : GameState} {intents : List Intent} {H : List Intent}
    (h : Represents H s.players) (hok : s.applyIntents intents = .ok s') :
    Represents (H ++ intents) s'.players ∧ s'.seq = s.seq := by
  induction intents generalizing s H with
  | nil =>
    cases hok
    rw [List.append_nil]
    exact ⟨h, rfl⟩
  | cons i intents ih =>
    obtain ⟨s₁, hmove, hrest⟩ := bind_eq_ok.mp hok
    obtain ⟨hcap, hmove⟩ := rejectIf_bind_eq_ok.mp hmove
    obtain ⟨players, hplayers, hmove⟩ := bind_eq_ok.mp hmove
    cases hmove
    have hone : Represents (H ++ [i]) players := represents_playOn h (by omega) hplayers
    obtain ⟨hall, hseq⟩ := ih hone hrest
    rw [List.append_assoc] at hall
    exact ⟨hall, hseq⟩

/-- **A batch extends the history.** -/
theorem board_applyBatch {s s' : GameState} {intents : List Intent} {H : List Intent}
    (h : Board H s) (hlen : intents.length < 2 ^ 64) (hok : s.applyBatch intents = .ok s') :
    Board (H ++ intents) s' := by
  obtain ⟨s₁, hmoves, hok⟩ := bind_eq_ok.mp hok
  obtain ⟨seq, hseq, hok⟩ := bind_eq_ok.mp hok
  cases hok
  obtain ⟨hplayers, hsame⟩ := represents_applyIntents h.players hmoves
  refine ⟨hplayers, ?_⟩
  have hadd := checkedAdd_eq_some.mp (okOr_eq_ok.mp hseq)
  rw [hsame, h.seq, BitVec.toNat_ofNat, Nat.mod_eq_of_lt hlen] at hadd
  rw [List.length_append]
  exact hadd.symm

/-! ## The comparison -/

/-- With distinct hashes on the left, equal up to order means a permutation: every left entry is
on the right, and the sizes leave no room for others. -/
theorem perm_of_equalsUnordered {s other : GameState}
    (hdistinct : (s.players.map PlayerEntry.hash).Nodup)
    (h : s.equalsUnordered other = true) : s.players.Perm other.players ∧ s.seq = other.seq := by
  simp only [GameState.equalsUnordered, Bool.and_eq_true, beq_iff_eq] at h
  obtain ⟨⟨hseq, hlen⟩, hall⟩ := h
  have hsub : s.players ⊆ other.players := by
    intro p hp
    obtain ⟨q, hq, heq⟩ := List.any_eq_true.mp (List.all_eq_true.mp hall p hp)
    simp only [Bool.and_eq_true, beq_iff_eq] at heq
    obtain ⟨⟨hhash, hscore⟩, hnonce⟩ := heq
    have hqp : q = p := by
      cases q
      cases p
      simp_all
    exact hqp ▸ hq
  have hnodup : s.players.Nodup := List.Nodup.of_map _ hdistinct
  exact ⟨(hnodup.subperm hsub).perm_of_length_le (Nat.le_of_eq hlen.symm), hseq⟩

/-- The order of the entries does not matter. -/
theorem Represents.perm {H : List Intent} {players players' : List PlayerEntry}
    (h : Represents H players) (hperm : players.Perm players') : Represents H players' where
  distinct := (hperm.map _).nodup_iff.mp h.distinct
  inOrder := h.inOrder
  capped := h.capped
  entries := fun p hp => h.entries p (hperm.mem_iff.mpr hp)
  complete := fun i hi => by
    obtain ⟨p, hp, heq⟩ := h.complete i hi
    exact ⟨p, hperm.mem_iff.mp hp, heq⟩

/-- **The operator's board accounts for the same history.** -/
theorem Board.of_equalsUnordered {H : List Intent} {s other : GameState} (h : Board H s)
    (heq : s.equalsUnordered other = true) : Board H other := by
  obtain ⟨hperm, hseq⟩ := perm_of_equalsUnordered h.players.distinct heq
  exact ⟨h.players.perm hperm, hseq ▸ h.seq⟩

/-! ## Sizes of decoded batches -/

/-- A loop over a list gives one result for each item. -/
theorem length_of_mapM_eq_ok {ε α β : Type} {f : α → Except ε β} :
    ∀ {l : List α} {r : List β}, l.mapM f = .ok r → r.length = l.length
  | [], r, h => by
    cases h
    rfl
  | a :: l, r, h => by
    rw [List.mapM_cons] at h
    obtain ⟨b, -, h⟩ := bind_eq_ok.mp h
    obtain ⟨bs, hbs, h⟩ := bind_eq_ok.mp h
    cases h
    rw [List.length_cons, List.length_cons, length_of_mapM_eq_ok hbs]

/-- A batch that was read has fewer than `2 ^ 16` intents: its count takes two bytes. -/
theorem length_decodeBatch_lt {batch : Bytes} {intents : List Intent}
    (h : decodeBatch batch = .ok intents) : intents.length < 2 ^ 16 := by
  obtain ⟨-, h⟩ := rejectIf_bind_eq_ok.mp h
  obtain ⟨-, h⟩ := rejectIf_bind_eq_ok.mp h
  rw [length_of_mapM_eq_ok h, List.length_range]
  exact (ofLe 16 (slice batch 0 2)).isLt

end CkbController.GameRules
