import Mathlib.Data.List.Nodup
import Mathlib.Data.List.Range

/-!
# Histories with a sequence number for each key

A history is a list of moves; every move belongs to a key and carries a number. The history is
*in order* when the moves of each key are numbered 1, 2, 3, … in the order they occur. That is
what a nonce discipline enforces, one move at a time (`InOrder.snoc`), and it implies that no
key uses a number twice (`InOrder.nodup`), so nothing is replayed.
-/

namespace Sequenced

variable {κ μ : Type _} [DecidableEq κ] (key : μ → κ) (number : μ → Nat)

def ofKey (history : List μ) (k : κ) : List μ := history.filter fun m => key m = k

/-- The moves of each key are numbered 1, 2, 3, … -/
def InOrder (history : List μ) : Prop :=
  ∀ k, (ofKey key history k).map number = List.range' 1 (ofKey key history k).length

variable {key number}

/-- A message of this key comes last among those of the key. -/
theorem ofKey_snoc_same (history : List μ) (m : μ) :
    ofKey key (history ++ [m]) (key m) = ofKey key history (key m) ++ [m] := by
  simp [ofKey, List.filter_append]

/-- A message of another key changes nothing for this one. -/
theorem ofKey_snoc_other {history : List μ} {m : μ} {k : κ} (h : key m ≠ k) :
    ofKey key (history ++ [m]) k = ofKey key history k := by
  simp [ofKey, List.filter_append, h]

theorem inOrder_nil : InOrder key number [] := fun _ => rfl

/-- A move with the next number of its key keeps the history in order. -/
theorem InOrder.snoc {history : List μ} (h : InOrder key number history) {m : μ}
    (hnext : number m = (ofKey key history (key m)).length + 1) :
    InOrder key number (history ++ [m]) := by
  intro k
  by_cases hk : key m = k
  · subst hk
    rw [ofKey_snoc_same, List.map_append, h, List.map_singleton, hnext, List.length_append,
      List.length_singleton, List.range'_1_concat, Nat.add_comm]
  · rw [ofKey_snoc_other hk, h]

/-- **No replay.** No key uses a number twice. -/
theorem InOrder.nodup {history : List μ} (h : InOrder key number history) :
    (history.map fun m => (key m, number m)).Nodup := by
  rw [List.nodup_iff_sublist]
  rintro ⟨k, n⟩ hsub
  -- a repeated pair would be repeated among the numbers of its key
  obtain ⟨twice, htwice, heq⟩ := List.sublist_map_iff.mp hsub
  have hnumbers : (ofKey key history k).map number = List.range' 1 _ := h k
  have hnodup : ((ofKey key history k).map number).Nodup := by
    rw [hnumbers]
    exact List.nodup_range'
  have hlen : twice.length = 2 := by
    have hcount := congrArg List.length heq
    rw [List.length_map] at hcount
    exact hcount.symm
  obtain ⟨x, y, rfl⟩ := List.length_eq_two.mp hlen
  simp only [List.map_cons, List.map_nil, List.cons.injEq, Prod.mk.injEq, and_true] at heq
  obtain ⟨⟨hkx, hnx⟩, hky, hny⟩ := heq
  have hkeep : ofKey key [x, y] k = [x, y] := by
    simp [ofKey, ← hkx, ← hky]
  have hpair : ((ofKey key [x, y] k).map number).Sublist ((ofKey key history k).map number) :=
    (htwice.filter fun m => key m = k).map number
  rw [hkeep, List.map_cons, List.map_cons, List.map_nil, ← hnx, ← hny] at hpair
  exact List.nodup_iff_sublist.mp hnodup n hpair

/-- In order, no message has the number of another one of its key, so nothing that tells key and
number is repeated. -/
theorem InOrder.nodup_map {β : Type _} {f : μ → β} {history : List μ}
    (h : InOrder key number history) (g : β → κ × Nat) (hfg : ∀ m, g (f m) = (key m, number m)) :
    (history.map f).Nodup := by
  have hmap : (history.map f).map g = history.map fun m => (key m, number m) := by
    rw [List.map_map]
    exact List.map_congr_left fun m _ => hfg m
  exact List.Nodup.of_map g (hmap ▸ h.nodup)

end Sequenced
