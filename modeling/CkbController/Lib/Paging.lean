import Mathlib.Data.List.Basic

/-!
# The first hit of a page

A client asks for the first page of a search and takes the first entry on it that is a hit. The
search may be wider than what the client wants: a hit need not be wanted, and what is wanted may
only follow on a later page. `finds_iff` says for which pages the client is right all the same.
-/

namespace Paging

variable {α : Type _} {hit wanted : α → Bool} {page all : List α}

/-- A hit that is not wanted comes only after one that is. -/
def Unshadowed (hit wanted : α → Bool) (page : List α) : Prop :=
  ∀ front e back, page = front ++ e :: back → hit e = true → ¬ wanted e = true →
    ∃ e' ∈ front, hit e' = true ∧ wanted e' = true

/-- The first one that passes is a wanted one exactly when no unwanted one that passes stands in
front. -/
theorem wanted_find?_iff :
    (∀ e, page.find? hit = some e → wanted e = true) ↔ Unshadowed hit wanted page := by
  constructor
  · intro hfirst front e back hpage hhit hother
    have hsplit : page.find? hit = (front.find? hit).or (some e) := by
      rw [hpage, List.find?_append, List.find?_cons_of_pos hhit]
    -- either the first hit is in front of `e`, or it is `e` itself
    cases hfront : front.find? hit with
    | none =>
      rw [hfront] at hsplit
      exact absurd (hfirst e hsplit) hother
    | some e' =>
      rw [hfront] at hsplit
      exact ⟨e', List.mem_of_find?_eq_some hfront, List.find?_some hfront, hfirst e' hsplit⟩
  · intro hpage e hfind
    obtain ⟨hhit, front, back, hsplit, hfront⟩ := List.find?_eq_some_iff_append.mp hfind
    by_contra hother
    obtain ⟨e', hmem, hhit', -⟩ := hpage front e back hsplit hhit hother
    have hmiss := hfront e' hmem
    rw [hhit'] at hmiss
    cases hmiss

/-- **When the first hit is right.** The client ends with a wanted hit, or rightly with none,
exactly when no other hit of the page comes first and what is wanted is on the page if it is
anywhere. -/
theorem finds_iff :
    ((∀ e, page.find? hit = some e → wanted e = true) ∧
        (page.find? hit = none → ¬ ∃ e ∈ all, hit e = true ∧ wanted e = true)) ↔
      Unshadowed hit wanted page ∧
        ((∃ e ∈ all, hit e = true ∧ wanted e = true) →
          ∃ e ∈ page, hit e = true ∧ wanted e = true) := by
  constructor
  · -- if the client is right, its first hit is the one on the page that is wanted
    rintro ⟨hfirst, hnone⟩
    refine ⟨wanted_find?_iff.mp hfirst, fun hsome => ?_⟩
    cases hfind : page.find? hit with
    | none => exact absurd hsome (hnone hfind)
    | some e =>
      exact ⟨e, List.mem_of_find?_eq_some hfind, List.find?_some hfind, hfirst e hfind⟩
  · -- no hit on the page, so no wanted one either
    rintro ⟨hpage, honPage⟩
    refine ⟨wanted_find?_iff.mpr hpage, fun hnone hsome => ?_⟩
    obtain ⟨e, hmem, hhit, -⟩ := honPage hsome
    exact List.find?_eq_none.mp hnone e hmem hhit

end Paging
