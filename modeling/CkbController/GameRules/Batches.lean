import CkbController.GameRules.Board
import Mathlib.Data.Finset.Card

/-!
# How batches compose

A batch changes the entries move by move and `seq` once, at its end, and no move looks at `seq`.
So applying a queue and then one more intent is applying the longer queue, except for the last
addition to `seq` (`applyBatch_snoc`).
-/

namespace CkbController.GameRules

open ByteCodec MachineInt Checks

/-- What a single move does: it keeps to the cap and plays an entry, and leaves `seq` to the
batch. -/
theorem applyIntent_eq_ok {s s' : GameState} {intent : Intent} :
    s.applyIntent intent = .ok s' ↔ intent.points.toNat ≤ maxPointsPerMove.toNat ∧
      playOn intent s.players = .ok s'.players ∧ s'.seq = s.seq := by
  unfold GameState.applyIntent
  rw [rejectIf_bind_eq_ok, not_lt]
  refine and_congr_right fun _ => ?_
  simp only [bind_eq_ok, pure, Except.pure, Except.ok.injEq]
  constructor
  · rintro ⟨players, hplay, rfl⟩
    exact ⟨hplay, rfl⟩
  · rintro ⟨hplay, hseq⟩
    exact ⟨s'.players, hplay, by rw [← hseq]⟩

/-- Moves are played one after the other. -/
theorem applyIntents_append {s s' : GameState} {xs ys : List Intent} :
    s.applyIntents (xs ++ ys) = .ok s' ↔
      ∃ t, s.applyIntents xs = .ok t ∧ t.applyIntents ys = .ok s' := by
  induction xs generalizing s with
  | nil =>
    constructor
    · intro h
      exact ⟨s, rfl, h⟩
    · rintro ⟨t, ht, h⟩
      cases ht
      exact h
  | cons x xs ih =>
    -- the first move is played before either way of cutting the rest
    show (s.applyIntent x >>= fun t => t.applyIntents (xs ++ ys)) = .ok s' ↔
      ∃ t, (s.applyIntent x >>= fun t => t.applyIntents xs) = .ok t ∧ _
    simp only [bind_eq_ok, ih]
    constructor
    · rintro ⟨u, hu, t, ht, h⟩
      exact ⟨t, ⟨u, hu, ht⟩, h⟩
    · rintro ⟨t, ⟨u, hu, ht⟩, h⟩
      exact ⟨u, hu, t, ht, h⟩

/-- One move is a list of one. -/
theorem applyIntents_singleton {s s' : GameState} {intent : Intent} :
    s.applyIntents [intent] = .ok s' ↔ s.applyIntent intent = .ok s' := by
  show (s.applyIntent intent >>= fun t => t.applyIntents []) = .ok s' ↔ _
  rw [bind_eq_ok]
  constructor
  · rintro ⟨t, ht, h⟩
    cases h
    exact ht
  · intro h
    exact ⟨s', h, rfl⟩

/-- `seq` is not counted by the moves. -/
theorem applyIntents_seq {s s' : GameState} {intents : List Intent}
    (h : s.applyIntents intents = .ok s') : s'.seq = s.seq := by
  induction intents generalizing s with
  | nil =>
    cases h
    rfl
  | cons i intents ih =>
    obtain ⟨t, hmove, hrest⟩ := bind_eq_ok.mp h
    rw [ih hrest, (applyIntent_eq_ok.mp hmove).2.2]

/-- The moves do not look at `seq`. -/
theorem applyIntents_withSeq {s s' : GameState} {intents : List Intent} (seq : U64)
    (h : s.applyIntents intents = .ok s') :
    ({ s with seq } : GameState).applyIntents intents = .ok { s' with seq } := by
  induction intents generalizing s with
  | nil =>
    cases h
    rfl
  | cons i intents ih =>
    obtain ⟨t, hmove, hrest⟩ := bind_eq_ok.mp h
    obtain ⟨hcap, hplay, -⟩ := applyIntent_eq_ok.mp hmove
    have hmove' : ({ s with seq } : GameState).applyIntent i = .ok { t with seq } :=
      applyIntent_eq_ok.mpr ⟨hcap, hplay, rfl⟩
    exact bind_eq_ok.mpr ⟨_, hmove', ih hrest⟩

/-- The moves of a batch, and its length added to `seq` without overflow. -/
theorem applyBatch_eq_ok {s s' : GameState} {intents : List Intent} :
    s.applyBatch intents = .ok s' ↔ s.applyIntents intents = .ok { s' with seq := s.seq } ∧
      s.seq.toNat + (BitVec.ofNat 64 intents.length).toNat = s'.seq.toNat := by
  unfold GameState.applyBatch
  simp only [bind_eq_ok, okOr_eq_ok, checkedAdd_eq_some, pure, Except.pure, Except.ok.injEq]
  constructor
  · rintro ⟨t, ht, seq, hseq, rfl⟩
    have hsame := applyIntents_seq ht
    rw [hsame] at hseq
    refine ⟨?_, hseq⟩
    rw [ht, ← hsame]
  · rintro ⟨ht, hseq⟩
    exact ⟨_, ht, s'.seq, hseq, rfl⟩

theorem applyBatch_nil (s : GameState) : s.applyBatch [] = .ok s :=
  applyBatch_eq_ok.mpr ⟨rfl, rfl⟩

/-- A queue and a newcomer that applies on top of it make a longer queue, as long as `seq` can
count them all. -/
theorem applyBatch_snoc {s projected next : GameState} {intents : List Intent} {intent : Intent}
    (hqueue : s.applyBatch intents = .ok projected) (hnew : projected.applyIntent intent = .ok next)
    (hroom : s.seq.toNat + intents.length + 1 < 2 ^ 64) :
    ∃ s', s.applyBatch (intents ++ [intent]) = .ok s' ∧ s'.players = next.players := by
  obtain ⟨hmoves, -⟩ := applyBatch_eq_ok.mp hqueue
  obtain ⟨hcap, hplay, -⟩ := applyIntent_eq_ok.mp hnew
  let seq : U64 := BitVec.ofNat 64 (s.seq.toNat + intents.length + 1)
  refine ⟨⟨seq, next.players⟩, applyBatch_eq_ok.mpr ⟨?_, ?_⟩, rfl⟩
  · refine applyIntents_append.mpr ⟨_, hmoves, applyIntents_singleton.mpr ?_⟩
    exact applyIntent_eq_ok.mpr ⟨hcap, hplay, rfl⟩
  · rw [List.length_append, List.length_singleton, BitVec.toNat_ofNat, BitVec.toNat_ofNat,
      Nat.mod_eq_of_lt hroom, Nat.mod_eq_of_lt (by omega)]
    omega

/-- At the top of `seq` the queue with the newcomer no longer applies. -/
theorem applyBatch_snoc_full {s : GameState} {intents : List Intent} {intent : Intent}
    (hlen : intents.length + 1 < 2 ^ 64) (hfull : 2 ^ 64 ≤ s.seq.toNat + intents.length + 1)
    (s' : GameState) : s.applyBatch (intents ++ [intent]) ≠ .ok s' := by
  intro h
  have hseq := (applyBatch_eq_ok.mp h).2
  rw [List.length_append, List.length_singleton, BitVec.toNat_ofNat, Nat.mod_eq_of_lt hlen] at hseq
  have := s'.seq.isLt
  omega

/-! ## How many players -/

/-- The movers of a batch that the board does not list yet. -/
def newcomers (players : List PlayerEntry) (intents : List Intent) : Finset Byte20 :=
  (intents.map Intent.hash).toFinset \ (players.map PlayerEntry.hash).toFinset

/-- One move keeps the hashes, or adds the mover's at the end. -/
theorem hashes_applyIntent {s s' : GameState} {i : Intent} (h : s.applyIntent i = .ok s') :
    (i.hash ∈ s.players.map PlayerEntry.hash ∧
        s'.players.map PlayerEntry.hash = s.players.map PlayerEntry.hash) ∨
      (i.hash ∉ s.players.map PlayerEntry.hash ∧
        s'.players.map PlayerEntry.hash = s.players.map PlayerEntry.hash ++ [i.hash]) := by
  obtain ⟨-, hplay, -⟩ := applyIntent_eq_ok.mp h
  rcases playOn_eq_ok hplay with ⟨before, p, after, p', hold, hnew, hhash, hp⟩ | ⟨hnone, -, hnew⟩
  · left
    have hsame := (play_eq_ok hp).1
    rw [hold, hnew]
    simp [hsame, hhash]
  · right
    rw [hnew]
    refine ⟨?_, by simp⟩
    intro hmem
    obtain ⟨p, hp, hhash⟩ := List.mem_map.mp hmem
    exact hnone p hp hhash

/-- A batch adds one entry for each newcomer. -/
theorem length_applyIntents {s s' : GameState} {intents : List Intent}
    (h : s.applyIntents intents = .ok s') :
    s'.players.length = s.players.length + (newcomers s.players intents).card := by
  induction intents generalizing s with
  | nil =>
    cases h
    simp [newcomers]
  | cons i intents ih =>
    obtain ⟨t, hmove, hrest⟩ := bind_eq_ok.mp h
    rw [ih hrest, ← List.length_map PlayerEntry.hash,
      ← @List.length_map _ _ s.players PlayerEntry.hash]
    unfold newcomers
    rcases hashes_applyIntent hmove with ⟨hknown, hsame⟩ | ⟨hnew, hsame⟩
    · rw [hsame, List.map_cons, List.toFinset_cons,
        Finset.insert_sdiff_of_mem _ (List.mem_toFinset.mpr hknown)]
    · -- the mover is a newcomer now, and none later
      have hgrow : insert i.hash (intents.map Intent.hash).toFinset \
            (s.players.map PlayerEntry.hash).toFinset =
          insert i.hash ((intents.map Intent.hash).toFinset \
            (t.players.map PlayerEntry.hash).toFinset) := by
        rw [hsame]
        ext x
        simp only [Finset.mem_sdiff, Finset.mem_insert, List.mem_toFinset, List.mem_append,
          List.mem_singleton]
        by_cases hx : x = i.hash
        · subst hx
          simp [hnew]
        · simp [hx]
      have hfresh : i.hash ∉ (intents.map Intent.hash).toFinset \
          (t.players.map PlayerEntry.hash).toFinset := by
        rw [hsame]
        simp
      rw [List.map_cons, List.toFinset_cons, hgrow, Finset.card_insert_of_notMem hfresh, hsame,
        List.length_append, List.length_singleton]
      omega

end CkbController.GameRules
