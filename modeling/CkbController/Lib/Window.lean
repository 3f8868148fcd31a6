import Mathlib.Data.List.Basic
import Mathlib.Data.List.Forall2

/-!
# A bounded queue of numbered entries

Entries are numbered from 1 in the order of their arrival, and a queue of capacity `cap` sheds its
oldest ones. Such a queue holds the last `cap` numbers, the `window`.
-/

namespace Window

/-- The last `cap` of the numbers up to `n`. -/
def window (cap n : Nat) : List Nat := (List.range' 1 n).drop (n - cap)

def shed {α : Type _} (cap : Nat) (entries : List α) : List α :=
  entries.drop (entries.length - cap)

variable {cap n k : Nat}

/-- The last `cap` numbers up to `n`. -/
theorem mem_window : k ∈ window cap n ↔ 0 < k ∧ k ≤ n ∧ n < k + cap := by
  unfold window
  rw [List.drop_range', List.mem_range'_1]
  omega

/-- A window holds `cap` numbers, or all there are. -/
theorem length_window : (window cap n).length = n - (n - cap) := by
  unfold window
  rw [List.length_drop, List.length_range']

/-- The next number pushes the oldest one out. -/
theorem shed_window : shed cap (window cap n ++ [n + 1]) = window cap (n + 1) := by
  have hall : List.range' 1 (n + 1) = List.range' 1 n ++ [n + 1] := by
    rw [List.range'_1_concat, Nat.add_comm]
  have hdrop : (List.range' 1 n).drop (n - cap) ++ [n + 1] =
      (List.range' 1 n ++ [n + 1]).drop (n - cap) := by
    rw [List.drop_append_of_le_length]
    rw [List.length_range']
    exact Nat.sub_le _ _
  unfold shed
  rw [List.length_append, length_window, List.length_singleton]
  unfold window
  rw [hdrop, List.drop_drop, ← hall]
  congr 1
  omega

/-- Shedding sees the length only, so it goes through a map. -/
theorem map_shed {α β : Type _} (f : α → β) (entries : List α) :
    (shed cap entries).map f = shed cap (entries.map f) := by
  unfold shed
  rw [List.map_drop, List.length_map]

/-- What is shed early would be shed anyway. -/
theorem shed_shed_append {α : Type _} (entries later : List α) :
    shed cap (shed cap entries ++ later) = shed cap (entries ++ later) := by
  have hmerge : shed cap entries ++ later =
      (entries ++ later).drop (entries.length - cap) := by
    unfold shed
    rw [List.drop_append_of_le_length (Nat.sub_le _ _)]
  rw [hmerge]
  unfold shed
  rw [List.drop_drop, List.length_drop, List.length_append]
  congr 1
  omega

/-- Shedding all numbers at once leaves the last ones. -/
theorem shed_range' (n : Nat) : shed cap (List.range' 1 n) = window cap n := by
  unfold shed window
  rw [List.length_range']

/-- The numbers of a window stand in order. -/
theorem pairwise_window : (window cap n).Pairwise (· < ·) := by
  unfold window
  exact (List.pairwise_lt_range' 1).drop

/-- Two lists that correspond still do when both have shed. -/
theorem forall₂_shed {α β : Type _} {R : α → β → Prop} {entries : List α} {entries' : List β}
    (h : List.Forall₂ R entries entries') :
    List.Forall₂ R (shed cap entries) (shed cap entries') := by
  unfold shed
  rw [h.length_eq]
  exact List.forall₂_drop _ h

/-- In a queue in the order of its numbers, the first match is the one with the least number. -/
theorem find?_eq_some_iff_least {α : Type _} {number : α → Nat} {p : α → Bool} {entries : List α}
    {a : α} (h : (entries.map number).Pairwise (· < ·)) :
    entries.find? p = some a ↔
      a ∈ entries ∧ p a = true ∧ ∀ b ∈ entries, p b = true → number a ≤ number b := by
  induction entries with
  | nil => simp
  | cons x rest ih =>
    obtain ⟨hfirst, hrest⟩ := List.pairwise_cons.mp h
    -- the numbers increase, so the first hit is the least
    have hlt : ∀ b ∈ rest, number x < number b :=
      fun b hb => hfirst _ (List.mem_map_of_mem hb)
    by_cases hx : p x = true
    · -- the head is a hit
      rw [List.find?_cons_of_pos hx, Option.some_inj]
      refine ⟨?_, fun ⟨hmem, _, hleast⟩ => ?_⟩
      · intro heq
        subst heq
        refine ⟨List.mem_cons_self, hx, fun b hb _ => ?_⟩
        rcases List.mem_cons.mp hb with hb | hb
        · exact Nat.le_of_eq (congrArg number hb).symm
        · exact Nat.le_of_lt (hlt b hb)
      · rcases List.mem_cons.mp hmem with hmem | hmem
        · exact hmem.symm
        · have hle := hleast x List.mem_cons_self hx
          exact absurd (hlt a hmem) (Nat.not_lt.mpr hle)
    · -- the head is none, and is passed over
      rw [List.find?_cons_of_neg hx, ih hrest]
      refine ⟨fun ⟨hmem, ha, hleast⟩ => ?_, fun ⟨hmem, ha, hleast⟩ => ?_⟩
      · refine ⟨List.mem_cons_of_mem _ hmem, ha, fun b hb hpb => ?_⟩
        rcases List.mem_cons.mp hb with hb | hb
        · exact absurd (hb ▸ hpb) hx
        · exact hleast b hb hpb
      · rcases List.mem_cons.mp hmem with hmem | hmem
        · exact absurd (hmem ▸ ha) hx
        · exact ⟨hmem, ha, fun b hb => hleast b (List.mem_cons_of_mem _ hb)⟩

end Window
