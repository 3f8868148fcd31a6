/-!
# Allowances

A budget that is spent piece by piece and never topped up. The bound is part of the value, so
what is left is an honest difference (`spent_add_remaining`), and spending is possible exactly
while the piece is no larger than what is left (`spend_eq_some`).
-/

structure Allowance where
  budget : Nat
  spent : Nat
  within : spent ≤ budget

namespace Allowance

def grant (budget : Nat) : Allowance := ⟨budget, 0, Nat.zero_le budget⟩

def remaining (a : Allowance) : Nat := a.budget - a.spent

def spend (a : Allowance) (amount : Nat) : Option Allowance :=
  if h : a.spent + amount ≤ a.budget then some ⟨a.budget, a.spent + amount, h⟩ else none

/-- Nothing is lost between what is spent and what is left. -/
theorem spent_add_remaining (a : Allowance) : a.spent + a.remaining = a.budget := by
  have := a.within
  unfold remaining
  omega

/-- What `spend` does when it succeeds: the amount fits into what is left, and moves to what is
spent. -/
theorem spend_eq_some {a b : Allowance} {amount : Nat} :
    a.spend amount = some b ↔
      amount ≤ a.remaining ∧ b.budget = a.budget ∧ b.spent = a.spent + amount := by
  have hsum := a.spent_add_remaining
  unfold spend
  by_cases h : a.spent + amount ≤ a.budget
  · rw [dif_pos h, Option.some.injEq]
    constructor
    · rintro ⟨⟩
      exact ⟨by omega, rfl, rfl⟩
    · -- the bound is a proof, so two numbers make the allowance
      rintro ⟨-, hbudget, hspent⟩
      obtain ⟨budget, spent, within⟩ := b
      obtain rfl : budget = a.budget := hbudget
      obtain rfl : spent = a.spent + amount := hspent
      rfl
  · rw [dif_neg h]
    constructor
    · intro hnone
      cases hnone
    · -- what is left is less than the amount
      rintro ⟨hle, -, -⟩
      omega

/-- What fits can be spent. -/
theorem exists_spend {a : Allowance} {amount : Nat} (h : amount ≤ a.remaining) :
    ∃ b, a.spend amount = some b := by
  have hsum := a.spent_add_remaining
  exact ⟨⟨a.budget, a.spent + amount, by omega⟩, spend_eq_some.mpr ⟨h, rfl, rfl⟩⟩

/-- What is spent is no longer there. -/
theorem remaining_spend {a b : Allowance} {amount : Nat} (h : a.spend amount = some b) :
    b.remaining + amount = a.remaining := by
  obtain ⟨hle, hbudget, hspent⟩ := spend_eq_some.mp h
  have ha := a.spent_add_remaining
  have hb := b.spent_add_remaining
  omega

end Allowance

/-! ## Purses -/

/-- An allowance that is granted at most once and given back at most once. -/
inductive Purse where
  | unopened
  | live (a : Allowance)
  | closed

namespace Purse

def grant (budget : Nat) : Purse → Option Purse
  | .unopened => some (.live (.grant budget))
  | _ => none

def spend (amount : Nat) : Purse → Option Purse
  | .live a => (a.spend amount).map .live
  | _ => none

/-- What there is to settle. The purse is closed in any case. -/
def settle : Purse → Option Allowance
  | .live a => some a
  | _ => none

def spent (p : Purse) : Nat := (p.settle.map Allowance.spent).getD 0

def remaining (p : Purse) : Nat := (p.settle.map Allowance.remaining).getD 0

end Purse
