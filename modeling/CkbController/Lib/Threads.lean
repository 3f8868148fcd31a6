import CkbController.Lib.Trace
import CkbController.Lib.Utxo
import Mathlib.Data.Set.Card

/-!
# Threads of entries

A population of entries in which one event at a time happens: an entry is born, or one entry moves
(it disappears and another one takes its place), or nothing happens to the population. Then every
entry has a thread through any run: where it is at the end. Threads of different entries never
meet, and what lives at the end is where some entry of the start, or some birth of the run, has
got to.

* `Event.Applies` — one event takes a population to the next;
* `follow` — where an entry is after the events;
* `follow_mem`, `injOn_follow`, `exists_origin` — the threads of a run;
* `ncard_run` — a population grows by its births only;
* `subsingleton_liveOf` — on a ledger, one entry of a kind stays one;
* `applies_of_commits` — the entries of a kind are such a population, as long as each
  transaction spends and creates them one for one, or creates one and spends none.
-/

namespace Threads

variable {α : Type _}

/-- What happens to a population. -/
inductive Event (α : Type _) where
  | idle
  | birth (a : α)
  | move (a b : α)

namespace Event

def Applies (S : Set α) : Event α → Set α → Prop
  | idle, S' => S' = S
  | birth a, S' => a ∉ S ∧ S' = insert a S
  | move a b, S' => a ∈ S ∧ b ∉ S ∧ S' = insert b (S \ {a})

def isBirth : Event α → Bool
  | birth _ => true
  | _ => false

variable {S S' : Set α} {e : Event α} {x y : α}

/-- An event leaves a finite population finite. -/
theorem finite_applies (h : e.Applies S S') (hfin : S.Finite) : S'.Finite := by
  cases e with
  | idle =>
    have hS : S' = S := h
    rwa [hS]
  | birth a =>
    obtain ⟨-, rfl⟩ := h
    exact hfin.insert a
  | move a b =>
    obtain ⟨-, -, rfl⟩ := h
    exact hfin.sdiff.insert b

/-- A birth adds one, and nothing else changes the number. -/
theorem ncard_applies (h : e.Applies S S') (hfin : S.Finite) :
    S'.ncard = S.ncard + e.isBirth.toNat := by
  cases e with
  | idle =>
    have hS : S' = S := h
    rw [hS]
    rfl
  | birth a =>
    obtain ⟨ha, rfl⟩ := h
    exact Set.ncard_insert_of_notMem ha hfin
  | move a b =>
    obtain ⟨ha, hb, rfl⟩ := h
    have hnot : b ∉ S \ {a} := fun hmem => hb hmem.1
    rw [Set.ncard_insert_of_notMem hnot hfin.sdiff]
    exact Set.ncard_sdiff_singleton_add_one ha hfin

variable [DecidableEq α]

/-- Where the event leaves an entry. -/
def next (x : α) : Event α → α
  | move a b => if x = a then b else x
  | _ => x

theorem next_move (a b x : α) : (move a b).next x = if x = a then b else x := rfl

/-- What is there is somewhere after the event. -/
theorem next_mem (h : e.Applies S S') (hx : x ∈ S) : e.next x ∈ S' := by
  cases e with
  | idle =>
    have hS : S' = S := h
    rwa [hS]
  | birth a =>
    obtain ⟨-, rfl⟩ := h
    exact Set.mem_insert_of_mem a hx
  | move a b =>
    obtain ⟨-, -, rfl⟩ := h
    by_cases hxa : x = a
    · rw [next_move, if_pos hxa]
      exact Set.mem_insert b _
    · rw [next_move, if_neg hxa]
      exact Set.mem_insert_of_mem b ⟨hx, hxa⟩

/-- Two entries are not left at the same place. -/
theorem next_injective (h : e.Applies S S') (hx : x ∈ S) (hy : y ∈ S)
    (heq : e.next x = e.next y) : x = y := by
  cases e with
  | idle => exact heq
  | birth a => exact heq
  | move a b =>
    -- a move goes to a place that nobody had
    obtain ⟨-, hb, -⟩ := h
    have hne : ∀ {z : α}, z ∈ S → b ≠ z := by
      rintro z hz rfl
      exact hb hz
    rw [next_move, next_move] at heq
    by_cases hxa : x = a
    · by_cases hya : y = a
      · rw [hxa, hya]
      · rw [if_pos hxa, if_neg hya] at heq
        exact absurd heq (hne hy)
    · by_cases hya : y = a
      · rw [if_neg hxa, if_pos hya] at heq
        exact absurd heq.symm (hne hx)
      · rwa [if_neg hxa, if_neg hya] at heq

/-- What lives after the event was there before it, or has just been born. -/
theorem exists_next (h : e.Applies S S') (hy : y ∈ S') :
    (∃ x ∈ S, e.next x = y) ∨ e = birth y := by
  cases e with
  | idle =>
    have hS : S' = S := h
    rw [hS] at hy
    exact Or.inl ⟨y, hy, rfl⟩
  | birth a =>
    obtain ⟨-, rfl⟩ := h
    rcases Set.mem_insert_iff.mp hy with rfl | hy
    · exact Or.inr rfl
    · exact Or.inl ⟨y, hy, rfl⟩
  -- what is there is what arrived, or what stayed
  | move a b =>
    obtain ⟨ha, -, rfl⟩ := h
    rcases Set.mem_insert_iff.mp hy with rfl | ⟨hy, hya⟩
    · exact Or.inl ⟨a, ha, if_pos rfl⟩
    · exact Or.inl ⟨y, hy, if_neg hya⟩

end Event

/-! ## Runs -/

section Runs

variable {S S' : Set α} {es : List (Event α)}

def births (es : List (Event α)) : Nat := es.countP Event.isBirth

/-- **A population grows by its births only.** -/
theorem ncard_run (run : Trace Event.Applies S es S')
    (hfin : S.Finite) : S'.Finite ∧ S'.ncard = S.ncard + births es := by
  refine run.invariant (fun es S' => S'.Finite ∧ S'.ncard = S.ncard + births es)
    ⟨hfin, rfl⟩ ?_
  rintro es T e T' ⟨hfinT, hcard⟩ step
  refine ⟨Event.finite_applies step hfinT, ?_⟩
  rw [Event.ncard_applies step hfinT, hcard, births, births, List.countP_append,
    List.countP_singleton, Nat.add_assoc]
  cases e.isBirth <;> rfl

variable [DecidableEq α]

/-- Where an entry is after the events, oldest first. -/
def follow (es : List (Event α)) (x : α) : α := es.foldl Event.next x

/-- Following one event more. -/
theorem follow_snoc (es : List (Event α)) (e : Event α) (x : α) :
    follow (es ++ [e]) x = e.next (follow es x) := by
  simp [follow]

/-- Every thread ends in the population. -/
theorem follow_mem (run : Trace Event.Applies S es S') :
    ∀ x ∈ S, follow es x ∈ S' := by
  refine run.invariant (fun es S' => ∀ x ∈ S, follow es x ∈ S') (fun x hx => hx) ?_
  intro es T e T' ih step x hx
  rw [follow_snoc]
  exact Event.next_mem step (ih x hx)

/-- **Threads never meet.** -/
theorem injOn_follow (run : Trace Event.Applies S es S') :
    Set.InjOn (follow es) S := by
  induction run with
  | nil => exact fun x _ y _ h => h
  | @snoc es T T' e run step ih =>
    intro x hx y hy heq
    rw [follow_snoc, follow_snoc] at heq
    exact ih hx hy
      (Event.next_injective step (follow_mem run x hx) (follow_mem run y hy) heq)

/-- **Every thread has a beginning.** -/
theorem exists_origin (run : Trace Event.Applies S es S') :
    ∀ y ∈ S', (∃ x ∈ S, follow es x = y) ∨
      ∃ before a after, es = before ++ .birth a :: after ∧ follow after a = y := by
  refine run.invariant (fun es S' => ∀ y ∈ S', (∃ x ∈ S, follow es x = y) ∨
    ∃ before a after, es = before ++ .birth a :: after ∧ follow after a = y)
    (fun y hy => Or.inl ⟨y, hy, rfl⟩) ?_
  intro es T e T' ih step y hy
  rcases Event.exists_next step hy with ⟨z, hz, hzy⟩ | rfl
  · rcases ih z hz with ⟨x, hx, rfl⟩ | ⟨before, a, after, rfl, rfl⟩
    · exact Or.inl ⟨x, hx, by rw [follow_snoc, hzy]⟩
    · refine Or.inr ⟨before, a, after ++ [e], by simp, ?_⟩
      rw [follow_snoc, hzy]
  · exact Or.inr ⟨es, y, [], rfl, rfl⟩

end Runs

/-! ## Ledgers -/

section Ledgers

variable {ι κ : Type _} (p : κ → Bool)

/-- The live entries of a kind. -/
def liveOf (L : Utxo.Ledger ι κ) : Set (ι × κ) := {e | L e.1 = some e.2 ∧ p e.2 = true}

def ofKind (entries : List (ι × κ)) : List (ι × κ) := entries.filter fun e => p e.2

/-- What a transaction does to the entries of a kind, if it treats them one for one. -/
def eventOf (spent created : List (ι × κ)) : Event (ι × κ) :=
  match ofKind p spent, ofKind p created with
  | [], [b] => .birth b
  | [a], [b] => .move a b
  | _, _ => .idle

/-- A birth spends none of the kind and creates one. -/
theorem eventOf_eq_birth {spent created : List (ι × κ)} {b : ι × κ}
    (h : eventOf p spent created = .birth b) :
    ofKind p spent = [] ∧ ofKind p created = [b] := by
  unfold eventOf at h
  split at h
  · next hspent hcreated =>
    cases h
    exact ⟨hspent, hcreated⟩
  · cases h
  · cases h

/-- It spends none of the kind and creates at most one, or one and one. -/
def OneForOne (spent created : List (ι × κ)) : Prop :=
  (ofKind p spent = [] ∧ (ofKind p created).length ≤ 1) ∨
    ((ofKind p spent).length = 1 ∧ (ofKind p created).length = 1)

variable {p}

/-- The entries of a kind among those given. -/
theorem mem_ofKind {entries : List (ι × κ)} {e : ι × κ} :
    e ∈ ofKind p entries ↔ e ∈ entries ∧ p e.2 = true := List.mem_filter

variable [DecidableEq ι] {L L' : Utxo.Ledger ι κ} {spent created : List (ι × κ)}

/-- The entries of a kind after a transaction. -/
theorem mem_liveOf_iff (h : Utxo.Commits L spent created L') {e : ι × κ} :
    e ∈ liveOf p L' ↔ e ∈ ofKind p created ∨ e ∈ liveOf p L ∧ e ∉ ofKind p spent := by
  obtain ⟨i, c⟩ := e
  show (L' i = some c ∧ p c = true) ↔ _
  rw [h.live_iff, mem_ofKind, mem_ofKind]
  -- a live entry is spent when its identifier is
  have hspent : L i = some c → (i ∈ spent.map Prod.fst ↔ (i, c) ∈ spent) := by
    intro hlive
    constructor
    · intro hmem
      obtain ⟨⟨j, d⟩, he, rfl⟩ := List.mem_map.mp hmem
      have hd : d = c := Option.some.inj ((h.live_of_mem he).symm.trans hlive)
      rwa [hd] at he
    · exact fun hmem => List.mem_map_of_mem hmem
  constructor
  · rintro ⟨hnew | ⟨hlive, hkept⟩, hp⟩
    · exact Or.inl ⟨hnew, hp⟩
    · exact Or.inr ⟨⟨hlive, hp⟩, fun hmem => hkept ((hspent hlive).mpr hmem.1)⟩
  · rintro (⟨hnew, hp⟩ | ⟨⟨hlive, hp⟩, hkept⟩)
    · exact ⟨Or.inl hnew, hp⟩
    · exact ⟨Or.inr ⟨hlive, fun hmem => hkept ⟨(hspent hlive).mp hmem, hp⟩⟩, hp⟩

/-- What is spent was live. -/
theorem mem_liveOf_of_spent (h : Utxo.Commits L spent created L') {e : ι × κ}
    (he : e ∈ ofKind p spent) : e ∈ liveOf p L :=
  ⟨h.live e (mem_ofKind.mp he).1, (mem_ofKind.mp he).2⟩

/-- What is created was not live. -/
theorem not_mem_liveOf_of_created (h : Utxo.Commits L spent created L') {e : ι × κ}
    (he : e ∈ ofKind p created) : e ∉ liveOf p L := by
  rintro ⟨hlive, -⟩
  rw [h.fresh e (mem_ofKind.mp he).1] at hlive
  cases hlive

/-- **One transaction** that treats the kind one for one is one event. -/
theorem applies_of_commits (h : Utxo.Commits L spent created L')
    (hone : OneForOne p spent created) :
    (eventOf p spent created).Applies (liveOf p L) (liveOf p L') := by
  unfold eventOf
  rcases hone with ⟨hspent, hcreated⟩ | ⟨hspent, hcreated⟩
  · -- none is spent: at most one is born
    rw [hspent]
    rcases hnew : ofKind p created with - | ⟨b, - | ⟨b', rest⟩⟩
    · show liveOf p L' = liveOf p L
      ext e
      rw [mem_liveOf_iff h, hspent, hnew]
      simp
    · refine ⟨not_mem_liveOf_of_created h (hnew ▸ List.mem_singleton_self b), ?_⟩
      ext e
      rw [mem_liveOf_iff h, hspent, hnew]
      simp
    · rw [hnew] at hcreated
      exact absurd hcreated (by simp)
  · -- one is spent and one created: the entry moves
    obtain ⟨a, ha⟩ := List.length_eq_one_iff.mp hspent
    obtain ⟨b, hb⟩ := List.length_eq_one_iff.mp hcreated
    rw [ha, hb]
    refine ⟨mem_liveOf_of_spent h (ha ▸ List.mem_singleton_self a),
      not_mem_liveOf_of_created h (hb ▸ List.mem_singleton_self b), ?_⟩
    ext e
    rw [mem_liveOf_iff h, ha, hb]
    simp

end Ledgers

end Threads
