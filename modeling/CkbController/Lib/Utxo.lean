import Mathlib.Data.List.Basic

/-!
# Ledgers of unspent entries

A ledger maps identifiers to the entries that are live under them. A transaction commits to a
ledger by spending live entries and creating entries under fresh identifiers; nothing else about
an entry is looked at, so identifiers and entries are arbitrary types.

* `Commits` — one transaction takes a ledger to the next;
* `Commits.live_iff` — what is live afterwards was created now, or was live and is not spent;
* `AtMostOne` — at most one live entry satisfies a property.
-/

namespace Utxo

variable {ι κ : Type _}

abbrev Ledger (ι κ : Type _) := ι → Option κ

section Decidable

variable [DecidableEq ι]

def settle (L : Ledger ι κ) (spent created : List (ι × κ)) : Ledger ι κ := fun i =>
  (created.lookup i).or (if i ∈ spent.map Prod.fst then none else L i)

structure Commits (L : Ledger ι κ) (spent created : List (ι × κ)) (L' : Ledger ι κ) : Prop where
  live : ∀ e ∈ spent, L e.1 = some e.2
  once : (spent.map Prod.fst).Nodup
  fresh : ∀ e ∈ created, L e.1 = none
  distinct : (created.map Prod.fst).Nodup
  next : L' = settle L spent created

/-- Under different identifiers, an entry is found exactly when it is there. -/
theorem lookup_eq_some_iff {entries : List (ι × κ)} (h : (entries.map Prod.fst).Nodup) {i : ι}
    {c : κ} : entries.lookup i = some c ↔ (i, c) ∈ entries := by
  induction entries with
  | nil => simp
  | cons e entries ih =>
    obtain ⟨j, d⟩ := e
    rw [List.map_cons, List.nodup_cons] at h
    rw [List.lookup_cons, List.mem_cons, Prod.mk.injEq]
    by_cases hij : i = j
    · subst hij
      have hnot : (i, c) ∉ entries := fun hmem => h.1 (List.mem_map.mpr ⟨_, hmem, rfl⟩)
      simp [hnot, eq_comm]
    · rw [beq_eq_false_iff_ne.mpr hij, ih h.2]
      simp [hij]

/-- None is found exactly when its identifier is not there. -/
theorem lookup_eq_none_iff {entries : List (ι × κ)} {i : ι} :
    entries.lookup i = none ↔ i ∉ entries.map Prod.fst := by
  induction entries with
  | nil => simp
  | cons e entries ih =>
    obtain ⟨j, d⟩ := e
    rw [List.lookup_cons, List.map_cons, List.mem_cons, not_or]
    by_cases hij : i = j
    · subst hij
      simp
    · rw [beq_eq_false_iff_ne.mpr hij, ih]
      simp [hij]

namespace Commits

variable {L L' : Ledger ι κ} {spent created : List (ι × κ)}

/-- What is live after a transaction was created by it, or was live before and is not spent. -/
theorem live_iff (h : Commits L spent created L') {i : ι} {c : κ} :
    L' i = some c ↔ (i, c) ∈ created ∨ (L i = some c ∧ i ∉ spent.map Prod.fst) := by
  rw [h.next, settle, Option.or_eq_some_iff, lookup_eq_some_iff h.distinct, lookup_eq_none_iff]
  -- a fresh identifier was not live before
  have hfresh : L i = some c → i ∉ created.map Prod.fst := by
    intro hlive hmem
    obtain ⟨e, he, rfl⟩ := List.mem_map.mp hmem
    rw [h.fresh e he] at hlive
    cases hlive
  by_cases hspent : i ∈ spent.map Prod.fst
  · simp [hspent]
  · rw [if_neg hspent]
    exact or_congr_right ⟨fun hr => ⟨hr.2, hspent⟩, fun hr => ⟨hfresh hr.1, hr.1⟩⟩

/-- What a transaction spends is live before it. -/
theorem live_of_mem (h : Commits L spent created L') {i : ι} {c : κ} (hmem : (i, c) ∈ spent) :
    L i = some c :=
  h.live (i, c) hmem

end Commits

end Decidable

/-! ## At most one -/

/-- If one entry of a list satisfies `p`, then it is the only one that does. -/
theorem eq_of_filter_eq_singleton {entries : List (ι × κ)} {p : κ → Bool} {c : κ}
    (h : (entries.map Prod.snd).filter p = [c]) {e e' : ι × κ} (he : e ∈ entries)
    (he' : e' ∈ entries) (hp : p e.2 = true) (hp' : p e'.2 = true) : e = e' := by
  rw [List.filter_map] at h
  obtain ⟨e₀, hone, -⟩ := List.map_eq_singleton_iff.mp h
  have hmem : ∀ {x : ι × κ}, x ∈ entries → p x.2 = true → x = e₀ := by
    intro x hx hpx
    have hfilter : x ∈ entries.filter (p ∘ Prod.snd) := List.mem_filter.mpr ⟨hx, hpx⟩
    rw [hone] at hfilter
    exact List.mem_singleton.mp hfilter
  rw [hmem he hp, hmem he' hp']

def AtMostOne (p : κ → Prop) (L : Ledger ι κ) : Prop :=
  ∀ i j c d, L i = some c → L j = some d → p c → p d → i = j

end Utxo
