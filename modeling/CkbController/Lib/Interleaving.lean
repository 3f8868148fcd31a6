import CkbController.Lib.Sequenced
import Mathlib.Logic.Relation

/-!
# Interleavings of independent labels

A deterministic machine takes labels, each of which belongs to a key. Labels of different keys
commute, up to an equivalence of states that every step respects (`Independent`). Then only the
order within each key matters: two runs that agree on the labels of every key end alike, in whether
they get through and, up to the equivalence, in where they get to (`run_of_ofKey_eq`).
-/

namespace Interleaving

open Sequenced

variable {σ α κ : Type _} (key : α → κ) (step : σ → α → Option σ)
  (E : σ → σ → Prop)

structure Independent : Prop where
  equiv : Equivalence E
  congr : ∀ s t a, E s t → Option.Rel E (step s a) (step t a)
  swap : ∀ s a b, key a ≠ key b →
    Option.Rel E ((step s a).bind fun t => step t b) ((step s b).bind fun t => step t a)

def run (s : σ) (as : List α) : Option σ := as.foldlM step s

variable {key step E}

/-- Comparing optional results is symmetric where comparing values is. -/
theorem rel_symm (hE : Equivalence E) {x y : Option σ} (h : Option.Rel E x y) :
    Option.Rel E y x := by
  cases h with
  | some hab => exact .some (hE.symm hab)
  | none => exact .none

/-- Comparing optional results is transitive where comparing values is. -/
theorem rel_trans (hE : Equivalence E) {x y z : Option σ} (h : Option.Rel E x y)
    (h' : Option.Rel E y z) : Option.Rel E x z := by
  cases h with
  | some hab =>
    cases h' with
    | some hbc => exact .some (hE.trans hab hbc)
  | none => exact h'

/-- A run is its first step and the rest. -/
theorem run_cons (s : σ) (a : α) (as : List α) :
    run step s (a :: as) = (step s a).bind fun t => run step t as := rfl

/-- Related results stay related through steps that keep the relation. -/
theorem rel_bind {f g : σ → Option σ} {x y : Option σ} (h : Option.Rel E x y)
    (hfg : ∀ s t, E s t → Option.Rel E (f s) (g t)) : Option.Rel E (x.bind f) (y.bind g) := by
  cases h with
  | some hab => exact hfg _ _ hab
  | none => exact .none

/-- Related results stay related under functions that keep the relation. -/
theorem rel_map {β τ : Type _} {E : β → β → Prop} {F : τ → τ → Prop} {f g : β → τ}
    {x y : Option β} (h : Option.Rel E x y) (hfg : ∀ a b, E a b → F (f a) (g b)) :
    Option.Rel F (x.map f) (y.map g) := by
  cases h with
  | some hab => exact .some (hfg _ _ hab)
  | none => exact .none

/-- Equivalent states stay equivalent. -/
theorem Independent.run_congr (h : Independent key step E) {s t : σ} (hst : E s t)
    (as : List α) : Option.Rel E (run step s as) (run step t as) := by
  induction as generalizing s t with
  | nil => exact .some hst
  | cons a as ih => exact rel_bind (h.congr s t a hst) fun _ _ hab => ih hab

/-- A label moves to the front past labels of other keys. Induction on these. -/
theorem Independent.run_front (h : Independent key step E) (s : σ) {a : α} {before : List α}
    (hother : ∀ b ∈ before, key b ≠ key a) (after : List α) :
    Option.Rel E (run step s (before ++ a :: after)) (run step s (a :: (before ++ after))) := by
  induction before generalizing s with
  | nil => exact h.run_congr (h.equiv.refl s) _
  | cons b before ih =>
    obtain ⟨hb, hbefore⟩ := List.forall_mem_cons.mp hother
    -- first past the rest, then past the head
    have hrest : Option.Rel E (run step s (b :: (before ++ a :: after)))
        (run step s (b :: a :: (before ++ after))) := by
      cases hstep : step s b with
      | none =>
        rw [run_cons, run_cons, hstep]
        exact .none
      | some t =>
        rw [run_cons, run_cons, hstep]
        exact ih t hbefore
    have hhead : Option.Rel E (run step s (b :: a :: (before ++ after)))
        (run step s (a :: b :: (before ++ after))) := by
      have htwo := rel_bind (h.swap s b a hb)
        fun t u htu => h.run_congr htu (before ++ after)
      rw [Option.bind_assoc, Option.bind_assoc] at htwo
      exact htwo
    exact rel_trans h.equiv hrest hhead

variable [DecidableEq κ]

/-- The labels of each key, without the first label. -/
theorem split_of_ofKey_eq {a : α} {as bs : List α}
    (h : ∀ k, ofKey key (a :: as) k = ofKey key bs k) :
    ∃ before after, bs = before ++ a :: after ∧ (∀ b ∈ before, key b ≠ key a) ∧
      ∀ k, ofKey key as k = ofKey key (before ++ after) k := by
  -- `a` is the first of its key in `bs` as well
  have hfirst : ofKey key bs (key a) = a :: ofKey key as (key a) := by
    rw [← h]
    simp [ofKey]
  obtain ⟨before, after, rfl, hbefore, -, -⟩ := List.filter_eq_cons_iff.mp hfirst
  have hother : ∀ b ∈ before, key b ≠ key a := by
    intro b hb heq
    exact hbefore b hb (decide_eq_true heq)
  refine ⟨before, after, rfl, hother, ?_⟩
  intro k
  have hk := h k
  unfold ofKey at hk ⊢
  by_cases hak : key a = k
  · -- `a` is the first of its key on both sides
    have hnone : before.filter (fun b => key b = k) = [] := by
      rw [List.filter_eq_nil_iff]
      intro b hb heq
      exact hother b hb ((of_decide_eq_true heq).trans hak.symm)
    rw [List.filter_append, hnone, List.nil_append, List.filter_cons_of_pos (by simpa using hak),
      List.filter_cons_of_pos (by simpa using hak)] at hk
    rw [List.filter_append, hnone, List.nil_append]
    exact (List.cons.inj hk).2
  · rw [List.filter_append, List.filter_cons_of_neg (by simpa using hak),
      List.filter_cons_of_neg (by simpa using hak)] at hk
    rw [List.filter_append]
    exact hk

/-- **Only the order within each key matters.** Induction on the one run, whose first label is
brought to the front of the other. -/
theorem Independent.run_of_ofKey_eq (h : Independent key step E) {s t : σ} (hst : E s t)
    {as bs : List α} (hkeys : ∀ k, ofKey key as k = ofKey key bs k) :
    Option.Rel E (run step s as) (run step t bs) := by
  induction as generalizing s t bs with
  | nil =>
    have hnil : bs = [] := by
      rcases bs with _ | ⟨b, bs⟩
      · rfl
      · have hb := hkeys (key b)
        simp [ofKey] at hb
    rw [hnil]
    exact .some hst
  | cons a as ih =>
    -- `a` moves to the front past labels of other keys
    obtain ⟨before, after, rfl, hother, hrest⟩ := split_of_ofKey_eq hkeys
    have hfront : Option.Rel E (run step s (a :: as)) (run step t (a :: (before ++ after))) :=
      rel_bind (h.congr s t a hst) fun _ _ hab => ih hab hrest
    exact rel_trans h.equiv hfront (rel_symm h.equiv (h.run_front t hother after))

/-- Runs that agree on the labels of every key are equally long. -/
theorem perm_of_ofKey_eq [DecidableEq α] {as bs : List α}
    (h : ∀ k, ofKey key as k = ofKey key bs k) : as.Perm bs := by
  rw [List.perm_iff_count]
  intro a
  have hcount := congrArg (List.count a) (h (key a))
  unfold ofKey at hcount
  rw [List.count_filter (by simp), List.count_filter (by simp)] at hcount
  exact hcount

end Interleaving
