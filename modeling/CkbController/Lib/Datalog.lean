import Mathlib.Data.List.Basic

/-!
# Conjunctive queries over facts

The part of datalog a capability check needs: ground facts, queries that are a conjunction of atoms
with variables, and comparisons `x <= y` of what the variables stand for. `solutions` finds the
bindings atom by atom, each atom tried against every fact. Where every predicate holds of one thing,
an atom has one fact to match (`solutions_of_unique`), and a query for that thing has one answer
(`answers_of_unique`).
-/

namespace Datalog

structure Fact (α : Type) where
  name : String
  args : List α
deriving DecidableEq

inductive Term (α : Type) where
  | const (a : α)
  | var (x : String)
deriving DecidableEq

structure Atom (α : Type) where
  name : String
  args : List (Term α)
deriving DecidableEq

/-- A conjunction of atoms and of comparisons `x <= y`. -/
structure Query (α : Type) where
  body : List (Atom α)
  guards : List (String × String)
deriving DecidableEq

abbrev Binding (α : Type) := List (String × α)

variable {α : Type} [DecidableEq α]

/-- A variable stands for one value: the first occurrence binds it, the others must agree. -/
def matchArgs : Binding α → List (Term α) → List α → Option (Binding α)
  | σ, [], [] => some σ
  | σ, .const a :: ts, b :: bs => if a = b then matchArgs σ ts bs else none
  | σ, .var x :: ts, b :: bs =>
    match σ.lookup x with
    | some a => if a = b then matchArgs σ ts bs else none
    | none => matchArgs ((x, b) :: σ) ts bs
  | _, [], _ :: _ => none
  | _, _ :: _, [] => none

def Atom.matchFact (p : Atom α) (σ : Binding α) (f : Fact α) : Option (Binding α) :=
  if f.name = p.name then matchArgs σ p.args f.args else none

def solutions (facts : List (Fact α)) : List (Atom α) → Binding α → List (Binding α)
  | [], σ => [σ]
  | p :: body, σ => (facts.filterMap (p.matchFact σ)).flatMap (solutions facts body)

def guardHolds (le : α → α → Bool) (σ : Binding α) (guard : String × String) : Bool :=
  match σ.lookup guard.1, σ.lookup guard.2 with
  | some a, some b => le a b
  | _, _ => false

def Query.holds (le : α → α → Bool) (facts : List (Fact α)) (q : Query α) : Bool :=
  (solutions facts q.body []).any fun σ => q.guards.all (guardHolds le σ)

/-- What the variable stands for in the solutions, each value once. -/
def Query.answers (facts : List (Fact α)) (q : Query α) (x : String) : List α :=
  ((solutions facts q.body []).filterMap fun σ => σ.lookup x).dedup

/-! ## One fact for each name -/

/-- Facts of other names do not match. -/
theorem filterMap_matchFact (p : Atom α) (σ : Binding α) (facts : List (Fact α)) :
    facts.filterMap (p.matchFact σ) =
      (facts.filter fun f => f.name = p.name).filterMap (p.matchFact σ) := by
  induction facts with
  | nil => rfl
  | cons f facts ih =>
    by_cases hname : f.name = p.name
    · rw [List.filter_cons_of_pos (by simpa using hname), List.filterMap_cons, List.filterMap_cons,
        ih]
    · have hnone : p.matchFact σ f = none := if_neg hname
      rw [List.filter_cons_of_neg (by simpa using hname), List.filterMap_cons, hnone, ih]

/-- An atom that is named like one fact only has that fact to match. -/
theorem solutions_of_unique {p : Atom α} {body : List (Atom α)} {σ : Binding α}
    {facts : List (Fact α)} {f : Fact α} (h : (facts.filter fun f => f.name = p.name) = [f]) :
    solutions facts (p :: body) σ =
      (matchArgs σ p.args f.args).toList.flatMap (solutions facts body) := by
  have hf : f ∈ facts.filter fun f => f.name = p.name := by
    rw [h]
    exact List.mem_singleton_self f
  have hname : f.name = p.name := of_decide_eq_true (List.mem_filter.mp hf).2
  have hmatch : p.matchFact σ f = matchArgs σ p.args f.args := if_pos hname
  rw [solutions, filterMap_matchFact, h, List.filterMap_cons, hmatch]
  cases matchArgs σ p.args f.args <;> rfl

/-- The one value a predicate holds of is the one answer. -/
theorem answers_of_unique {name x : String} {a : α} {facts : List (Fact α)}
    (h : (facts.filter fun f => f.name = name) = [⟨name, [a]⟩]) :
    Query.answers facts { body := [⟨name, [.var x]⟩], guards := [] } x = [a] := by
  have hsolutions : solutions facts [⟨name, [.var x]⟩] [] = [[(x, a)]] := by
    rw [solutions_of_unique h]
    rfl
  have hlookup : List.lookup x [(x, a)] = some a := List.lookup_cons_self
  unfold Query.answers
  rw [hsolutions, List.filterMap_cons, hlookup]
  rfl

end Datalog
