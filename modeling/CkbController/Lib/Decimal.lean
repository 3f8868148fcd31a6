import Mathlib.Algebra.Ring.Nat

/-!
# Decimal text

`from_str` of the unsigned integer types: an optional plus sign, at least one digit, and a value
in range. Whatever an integer's `toString` is, it is read back exactly when the integer is in range
(`fromStr_toString`).
-/

namespace Decimal

/-- The text after one leading plus sign. -/
def unsignedDigits : List Char → List Char
  | '+' :: digits => digits
  | digits => digits

/-- `from_str` of the unsigned type with `w` bits. -/
def fromStr (w : Nat) (text : List Char) : Option (BitVec w) :=
  let digits := unsignedDigits text
  let value := Nat.ofDigitChars 10 digits 0
  if !digits.isEmpty && digits.all Char.isDigit && value < 2 ^ w then some (BitVec.ofNat w value)
  else none

/-- Digits have no sign to skip. -/
theorem unsignedDigits_of_isDigit {cs : List Char} (h : ∀ c ∈ cs, c.isDigit = true) :
    unsignedDigits cs = cs := by
  cases cs with
  | nil => rfl
  | cons c cs =>
    have hc : c.isDigit = true := h c List.mem_cons_self
    unfold unsignedDigits
    split
    · next heq =>
      cases heq
      cases hc
    · rfl

/-- `toString` writes the digits to base 10, most significant first. -/
theorem toList_toString (n : Nat) : (toString n).toList = Nat.toDigits 10 n := by
  show (Nat.repr n).toList = _
  rw [Nat.repr_eq_ofList_toDigits, String.toList_ofList]

/-- What `toString` writes for a number are digits. -/
theorem isDigit_of_mem_toString {n : Nat} {c : Char} (h : c ∈ (toString n).toList) :
    c.isDigit = true := by
  rw [toList_toString] at h
  exact Nat.isDigit_of_mem_toDigits (by decide) (by decide) h

/-- A negative integer is written behind a minus sign. -/
theorem toList_toString_negSucc (n : Nat) :
    (toString (Int.negSucc n)).toList = '-' :: (toString (n + 1)).toList := by
  show ("-" ++ Nat.repr (n + 1)).toList = _
  rw [String.toList_append]
  rfl

/-- What `toString` writes for an integer are digits, behind a minus sign. -/
theorem mem_toString_int {z : Int} {c : Char} (h : c ∈ (toString z).toList) :
    c = '-' ∨ c.isDigit = true := by
  cases z with
  | ofNat n => exact Or.inr (isDigit_of_mem_toString h)
  | negSucc n =>
    rw [toList_toString_negSucc] at h
    exact (List.mem_cons.mp h).imp_right isDigit_of_mem_toString

/-- A number that is in range is read as it was written, and no other is read. -/
theorem fromStr_toString_nat {w : Nat} (n : Nat) (c : BitVec w) :
    fromStr w (toString n).toList = some c ↔ n = c.toNat := by
  have hdigits : ∀ c ∈ Nat.toDigits 10 n, c.isDigit = true := fun c hc =>
    Nat.isDigit_of_mem_toDigits (by decide) (by decide) hc
  have hne : (Nat.toDigits 10 n).isEmpty = false :=
    List.isEmpty_eq_false_iff.mpr (List.length_pos_iff.mp Nat.length_toDigits_pos)
  have hall : (Nat.toDigits 10 n).all Char.isDigit = true := List.all_eq_true.mpr hdigits
  have hlt := c.isLt
  unfold fromStr
  simp only [toList_toString, unsignedDigits_of_isDigit hdigits, Nat.ofDigitChars_ten_toDigits,
    hne, hall, Bool.not_false, Bool.true_and, decide_eq_true_eq]
  by_cases hn : n < 2 ^ w
  · rw [if_pos hn, Option.some.injEq, ← BitVec.toNat_inj, BitVec.toNat_ofNat, Nat.mod_eq_of_lt hn]
  · rw [if_neg hn]
    refine iff_of_false (fun h => by cases h) ?_
    intro h
    exact hn (h ▸ hlt)

/-- A minus sign is no digit. -/
theorem fromStr_negSucc {w : Nat} (n : Nat) :
    fromStr w (toString (Int.negSucc n)).toList = none := by
  -- the sign stays where it is, since it is no plus sign
  have hsigned : unsignedDigits ('-' :: (toString (n + 1)).toList) =
      '-' :: (toString (n + 1)).toList := rfl
  have hall : ('-' :: (toString (n + 1)).toList).all Char.isDigit = false := rfl
  unfold fromStr
  simp only [toList_toString_negSucc, hsigned, hall, Bool.and_false, Bool.false_and,
    Bool.false_eq_true, if_false]

/-- **Reading an integer's text.** It is read exactly when the integer is in range, as itself. -/
theorem fromStr_toString {w : Nat} (n : Int) (c : BitVec w) :
    fromStr w (toString n).toList = some c ↔ n = c.toNat := by
  cases n with
  | ofNat n =>
    show fromStr w (toString n).toList = some c ↔ _
    rw [fromStr_toString_nat]
    exact Int.ofNat_inj.symm
  | negSucc n =>
    rw [fromStr_negSucc]
    refine iff_of_false (fun h => by cases h) ?_
    omega

end Decimal
