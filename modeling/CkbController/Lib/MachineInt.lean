import Mathlib.Algebra.Ring.Nat

/-!
# Checked and saturating arithmetic on machine words

Rust's `checked_*` and `saturating_*` operations on an unsigned word of any width. A checked
operation reports overflow as `none`; a saturating one clamps at the bound. Each comes with
the one lemma that says what it computes on `toNat`, and proofs above this module use only
those.
-/

namespace MachineInt

variable {w : Nat}

def checkedAdd (x y : BitVec w) : Option (BitVec w) :=
  if x.toNat + y.toNat < 2 ^ w then some (x + y) else none

def checkedSub (x y : BitVec w) : Option (BitVec w) :=
  if y.toNat ≤ x.toNat then some (x - y) else none

def saturatingAdd (x y : BitVec w) : BitVec w :=
  if x.toNat + y.toNat < 2 ^ w then x + y else BitVec.allOnes w

def saturatingSub (x y : BitVec w) : BitVec w :=
  if y.toNat ≤ x.toNat then x - y else 0

def saturatingMul (x y : BitVec w) : BitVec w :=
  if x.toNat * y.toNat < 2 ^ w then x * y else BitVec.allOnes w

def divCeil (x y : BitVec w) : BitVec w := if x % y = 0 then x / y else x / y + 1

/-- A checked sum is the sum. -/
theorem checkedAdd_eq_some {x y z : BitVec w} :
    checkedAdd x y = some z ↔ x.toNat + y.toNat = z.toNat := by
  unfold checkedAdd
  by_cases h : x.toNat + y.toNat < 2 ^ w
  · rw [if_pos h, Option.some.injEq, ← BitVec.toNat_inj, BitVec.toNat_add, Nat.mod_eq_of_lt h]
  · rw [if_neg h]
    have := z.isLt
    constructor
    · intro hz; cases hz
    · intro hz; omega

/-- It is there unless it overflows. -/
theorem isSome_checkedAdd {x y : BitVec w} :
    (checkedAdd x y).isSome = true ↔ x.toNat + y.toNat < 2 ^ w := by
  unfold checkedAdd
  split <;> simp [*]

/-- A checked difference is what has to be added to get back. -/
theorem checkedSub_eq_some {x y z : BitVec w} :
    checkedSub x y = some z ↔ y.toNat + z.toNat = x.toNat := by
  unfold checkedSub
  by_cases h : y.toNat ≤ x.toNat
  · rw [if_pos h, Option.some.injEq, ← BitVec.toNat_inj, BitVec.toNat_sub_of_le h]
    omega
  · rw [if_neg h]
    constructor
    · intro hz; cases hz
    · intro hz; omega

/-- A saturating sum stops at the largest word. -/
@[simp] theorem toNat_saturatingAdd (x y : BitVec w) :
    (saturatingAdd x y).toNat = min (x.toNat + y.toNat) (2 ^ w - 1) := by
  unfold saturatingAdd
  split
  · next h => rw [BitVec.toNat_add, Nat.mod_eq_of_lt h]; omega
  · next h => rw [BitVec.toNat_allOnes]; omega

/-- A saturating difference stops at zero, as subtraction of naturals does. -/
@[simp] theorem toNat_saturatingSub (x y : BitVec w) :
    (saturatingSub x y).toNat = x.toNat - y.toNat := by
  unfold saturatingSub
  split
  · next h => exact BitVec.toNat_sub_of_le h
  · next h => simp; omega

end MachineInt
