import CkbController.Lib.Trace
import CkbController.Lib.Utxo
import Mathlib.Data.List.Nodup

/-!
# Paying with the oldest entry

A ledger that remembers what it has held, in the order of creation, and parties that look at it
now and act later. A party that sees no entry of a kind `q` creates one, and pays with the oldest
live entry of a kind `p` that it saw. Its view may be out of date when its transaction settles, and
other parties may do the same meanwhile. All the same, no transaction of this form settles while an
entry of the kind `q` is live: whoever came first has spent the oldest entry, and a later view has
seen what it created.

* `Chain.Step.oldest` — while it is live, the oldest entry stays the oldest;
* `Inv` — no view without the kind `q` from before can still be paid for once `q` is live;
* `Inv.step`, `Inv.none_of_claims` — the invariant of a run, and what it gives.
-/

namespace Oldest

open Utxo

variable {ι κ : Type _}

/-- A ledger with everything it has ever held. An identifier stands for one entry only. -/
structure Chain (ι κ : Type _) where
  cells : Ledger ι κ
  log : List (ι × κ)
  logged : ∀ i c, cells i = some c → (i, c) ∈ log
  unique : (log.map Prod.fst).Nodup

/-- A chain now and as it was before, newest first. -/
structure History (ι κ : Type _) where
  past : List (Chain ι κ)
  now : Chain ι κ

def History.views (H : History ι κ) : List (Chain ι κ) := H.now :: H.past

def NoneOf (q : κ → Bool) (L : Ledger ι κ) : Prop := ∀ i c, L i = some c → ¬ q c = true

namespace Chain

/-- An identifier never stands for two entries. -/
theorem eq_of_mem_log (C : Chain ι κ) {i : ι} {c d : κ} (hc : (i, c) ∈ C.log)
    (hd : (i, d) ∈ C.log) : c = d := by
  have heq := List.inj_on_of_nodup_map C.unique hc hd rfl
  exact congrArg Prod.snd heq

section Listed

variable [DecidableEq κ]

/-- Live, and of the kind `p`. -/
def eligible (C : Chain ι κ) (p : κ → Bool) (e : ι × κ) : Bool :=
  decide (C.cells e.1 = some e.2) && p e.2

theorem eligible_iff {C : Chain ι κ} {p : κ → Bool} {e : ι × κ} :
    C.eligible p e = true ↔ C.cells e.1 = some e.2 ∧ p e.2 = true := by
  simp [eligible]

/-- The live entries of a kind, in the order they were created. -/
def listed (C : Chain ι κ) (p : κ → Bool) : List (ι × κ) := C.log.filter (C.eligible p)

def oldest (C : Chain ι κ) (p : κ → Bool) : Option (ι × κ) := (C.listed p).head?

/-- The oldest one is found first on the log. -/
theorem oldest_eq_find (C : Chain ι κ) (p : κ → Bool) :
    C.oldest p = C.log.find? (C.eligible p) := List.head?_filter

/-- What is listed is what is live: everything live is on the log. -/
theorem mem_listed {C : Chain ι κ} {p : κ → Bool} {e : ι × κ} :
    e ∈ C.listed p ↔ C.cells e.1 = some e.2 ∧ p e.2 = true := by
  unfold listed
  rw [List.mem_filter, eligible_iff]
  exact ⟨fun h => h.2, fun h => ⟨C.logged _ _ h.1, h⟩⟩

/-- Listing a kind and picking from the list is listing the narrower kind. -/
theorem filter_listed (C : Chain ι κ) (p r : κ → Bool) :
    (C.listed p).filter (fun e => r e.2) = C.listed fun c => p c && r c := by
  unfold listed
  rw [List.filter_filter]
  refine List.filter_congr fun e _ => ?_
  unfold eligible
  rw [Bool.and_comm, Bool.and_assoc]

/-- Nothing is listed when nothing of the kind is live. -/
theorem listed_eq_nil_iff {C : Chain ι κ} {q : κ → Bool} :
    C.listed q = [] ↔ NoneOf q C.cells := by
  constructor
  · intro h i c hlive hq
    have hmem : (i, c) ∈ C.listed q := mem_listed.mpr ⟨hlive, hq⟩
    rw [h] at hmem
    exact absurd hmem List.not_mem_nil
  · intro h
    refine List.eq_nil_iff_forall_not_mem.mpr fun e he => ?_
    obtain ⟨hlive, hq⟩ := mem_listed.mp he
    exact h _ _ hlive hq

theorem mem_listed_of_oldest {C : Chain ι κ} {p : κ → Bool} {e : ι × κ}
    (h : C.oldest p = some e) : e ∈ C.listed p := List.mem_of_mem_head? h

end Listed

variable [DecidableEq ι]

/-- One transaction. What it creates goes to the end of the log, under new identifiers. -/
structure Step (C : Chain ι κ) (spent created : List (ι × κ)) (C' : Chain ι κ) : Prop where
  commits : Commits C.cells spent created C'.cells
  log : C'.log = C.log ++ created

/-- The chain after a transaction whose identifiers are new. -/
def next (C : Chain ι κ) {spent created : List (ι × κ)} {L' : Ledger ι κ}
    (commits : Commits C.cells spent created L')
    (unused : ∀ e ∈ created, e.1 ∉ C.log.map Prod.fst) : Chain ι κ where
  cells := L'
  log := C.log ++ created
  logged i c hlive := by
    rcases commits.live_iff.mp hlive with hnew | ⟨hold, -⟩
    · exact List.mem_append_right _ hnew
    · exact List.mem_append_left _ (C.logged i c hold)
  unique := by
    rw [List.map_append]
    refine List.nodup_append.mpr ⟨C.unique, commits.distinct, ?_⟩
    rintro i hi j hj rfl
    obtain ⟨e, he, rfl⟩ := List.mem_map.mp hj
    exact unused e he hi

variable {C C' : Chain ι κ} {spent created : List (ι × κ)} {p : κ → Bool} {e : ι × κ}

/-- The log keeps what it has. -/
theorem Step.mem_log (h : C.Step spent created C') (he : e ∈ C.log) : e ∈ C'.log := by
  rw [h.log]
  exact List.mem_append_left _ he

/-- What was there before and is live now has been live before. -/
theorem Step.live_before (h : C.Step spent created C') (he : e ∈ C.log)
    (hlive : C'.cells e.1 = some e.2) : C.cells e.1 = some e.2 ∧ e.1 ∉ spent.map Prod.fst := by
  rcases h.commits.live_iff.mp hlive with hnew | hold
  · -- its identifier is in the log already, so it is not created again
    have hunique := C'.unique
    rw [h.log, List.map_append, List.nodup_append] at hunique
    exact absurd rfl (hunique.2.2 e.1 (List.mem_map_of_mem he) e.1 (List.mem_map_of_mem hnew))
  · exact hold

/-- What is not live any more does not come back. -/
theorem Step.gone {i : ι} {c : κ} (h : C.Step spent created C') (hlog : (i, c) ∈ C.log)
    (hgone : C.cells i = none) : C'.cells i = none := by
  cases hlive : C'.cells i with
  | none => rfl
  | some d =>
    -- the log has one entry under the identifier
    obtain rfl : d = c := C'.eq_of_mem_log (C'.logged i d hlive) (h.mem_log hlog)
    have hbefore := (h.live_before hlog hlive).1
    rw [hgone] at hbefore
    cases hbefore

/-- **The oldest entry stays the oldest** until it is spent. -/
theorem Step.oldest [DecidableEq κ] (h : C.Step spent created C') (hold : C.oldest p = some e)
    (hlive : C'.cells e.1 = some e.2) : C'.oldest p = some e := by
  rw [oldest_eq_find] at hold ⊢
  obtain ⟨hp, before, after, hlog, hbefore⟩ := List.find?_eq_some_iff_append.mp hold
  -- the log only grows at its end, so what stood in front still does
  refine List.find?_eq_some_iff_append.mpr
    ⟨eligible_iff.mpr ⟨hlive, (eligible_iff.mp hp).2⟩, before, after ++ created, ?_, ?_⟩
  · rw [h.log, hlog, List.append_assoc, List.cons_append]
  · -- what was not eligible does not become so
    intro x hx
    have hxlog : x ∈ C.log := by
      rw [hlog]
      exact List.mem_append_left _ hx
    have hnot := hbefore x hx
    rw [Bool.not_eq_true', Bool.eq_false_iff] at hnot ⊢
    intro hx'
    obtain ⟨hxlive, hxp⟩ := eligible_iff.mp hx'
    exact hnot (eligible_iff.mpr ⟨(h.live_before hxlog hxlive).1, hxp⟩)

end Chain

/-! ## Claims -/

section Claims

/-- It creates an entry of the kind and spends none. -/
def Starts (q : κ → Bool) (spent created : List (ι × κ)) : Prop :=
  (∃ e ∈ created, q e.2 = true) ∧ ∀ e ∈ spent, ¬ q e.2 = true

/-- Without a start, `q` is live afterwards only if it was before. -/
theorem some_before [DecidableEq ι] {q : κ → Bool} {C C' : Chain ι κ}
    {spent created : List (ι × κ)} (h : C.Step spent created C')
    (hnot : ¬ Starts q spent created) (hsome : ¬ NoneOf q C'.cells) :
    ¬ NoneOf q C.cells := by
  intro hnone
  refine hsome fun i c hlive hq => ?_
  rcases h.commits.live_iff.mp hlive with hnew | ⟨hold, -⟩
  · exact hnot ⟨⟨(i, c), hnew, hq⟩, fun e he => hnone _ _ (h.commits.live e he)⟩
  · exact hnone i c hold hq

variable [DecidableEq κ] (p q : κ → Bool)

/-- A transaction pays with the oldest entry of a view in which no `q` is live. -/
def Claims (H : History ι κ) (spent : List (ι × κ)) : Prop :=
  ∃ v ∈ H.views, NoneOf q v.cells ∧ ∃ e, v.oldest p = some e ∧ e.1 ∈ spent.map Prod.fst

/-- Anybody may settle any transaction, but only a claim starts the kind `q`. -/
structure HistoryStep [DecidableEq ι] (H : History ι κ) (spent created : List (ι × κ))
    (H' : History ι κ) : Prop where
  step : H.now.Step spent created H'.now
  past : H'.past = H.views
  claimed : Starts q spent created → Claims p q H spent

/-- The invariant. A view without `q` cannot be paid for any more once `q` is live. -/
structure Inv (H : History ι κ) : Prop where
  known : ∀ v ∈ H.views, ∀ e, v.oldest p = some e → e ∈ H.now.log
  oldest : ∀ v ∈ H.views, ∀ e, v.oldest p = some e → H.now.cells e.1 = some e.2 →
    H.now.oldest p = some e
  stale : ¬ NoneOf q H.now.cells → ∀ v ∈ H.views, NoneOf q v.cells → ∀ e,
    v.oldest p = some e → H.now.cells e.1 ≠ some e.2

variable {p q} {H H' : History ι κ} {spent created : List (ι × κ)}

/-- A chain without a past has no view to be out of date. -/
theorem Inv.start (C : Chain ι κ) : Inv p q ⟨[], C⟩ where
  known v hv e he := by
    obtain rfl := List.mem_singleton.mp hv
    obtain ⟨hlive, -⟩ := Chain.mem_listed.mp (Chain.mem_listed_of_oldest he)
    exact v.logged _ _ hlive
  oldest v hv e he _ := by
    obtain rfl := List.mem_singleton.mp hv
    exact he
  stale hsome v hv hnone := by
    obtain rfl := List.mem_singleton.mp hv
    exact absurd hnone hsome

/-- A claim spends the oldest entry there is. -/
theorem Inv.oldest_of_claims (hinv : Inv p q H) (hlive : ∀ e ∈ spent, H.now.cells e.1 = some e.2)
    (hclaims : Claims p q H spent) :
    NoneOf q H.now.cells ∧ ∃ e, H.now.oldest p = some e ∧ e.1 ∈ spent.map Prod.fst := by
  obtain ⟨v, hv, hnone, e, he, hspent⟩ := hclaims
  obtain ⟨⟨i, c⟩, hmem, hi⟩ := List.mem_map.mp hspent
  -- under its identifier there is nothing but the entry of the view
  have hc : c = e.2 := by
    have hlog := H.now.logged _ _ (hlive _ hmem)
    have hknown := hinv.known v hv e he
    exact H.now.eq_of_mem_log hlog (hi ▸ hknown)
  have hnow : H.now.cells e.1 = some e.2 := by
    rw [← hi, ← hc]
    exact hlive _ hmem
  refine ⟨?_, e, hinv.oldest v hv e he hnow, hspent⟩
  by_contra hsome
  exact hinv.stale hsome v hv hnone e he hnow

variable [DecidableEq ι]

/-- **A claim settles only while no entry of the kind is live.** -/
theorem Inv.none_of_claims (hinv : Inv p q H) (hstep : H.now.Step spent created H'.now)
    (hclaims : Claims p q H spent) : NoneOf q H.now.cells :=
  (hinv.oldest_of_claims hstep.commits.live hclaims).1

/-- **One transaction keeps the invariant.** -/
theorem Inv.step (hinv : Inv p q H) (h : HistoryStep p q H spent created H') : Inv p q H' where
  known v hv e he := by
    rcases List.mem_cons.mp hv with rfl | hv
    · -- the new view shows live entries only
      obtain ⟨hlive, -⟩ := Chain.mem_listed.mp (Chain.mem_listed_of_oldest he)
      exact H'.now.logged _ _ hlive
    · exact h.step.mem_log (hinv.known v (h.past ▸ hv) e he)
  oldest v hv e he hlive := by
    rcases List.mem_cons.mp hv with rfl | hv
    · exact he
    · have hv : v ∈ H.views := h.past ▸ hv
      -- what is live now was live before, unless it is new
      obtain ⟨hbefore, -⟩ := h.step.live_before (hinv.known v hv e he) hlive
      exact h.step.oldest (hinv.oldest v hv e he hbefore) hlive
  stale hsome v hv hnone e he hlive := by
    rcases List.mem_cons.mp hv with rfl | hv
    · exact hsome hnone
    · have hv : v ∈ H.views := h.past ▸ hv
      obtain ⟨hbefore, hunspent⟩ := h.step.live_before (hinv.known v hv e he) hlive
      by_cases hstarts : Starts q spent created
      · -- the claim has spent the oldest entry, which is the one the view would pay with
        obtain ⟨-, e', he', hspent⟩ :=
          hinv.oldest_of_claims h.step.commits.live (h.claimed hstarts)
        have hsame : e' = e :=
          Option.some.inj (he'.symm.trans (hinv.oldest v hv e he hbefore))
        exact hunspent (hsame ▸ hspent)
      · exact hinv.stale (some_before h.step hstarts hsome) v hv hnone e he hbefore

end Claims

end Oldest
