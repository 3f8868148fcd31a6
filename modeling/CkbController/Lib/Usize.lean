import CkbController.Lib.ByteCodec

/-!
# Index arithmetic that can panic

Ranges, allocations and the arithmetic of offsets, as a build with overflow checks runs them:
`none` is a panic. The width `w` of `usize` is a parameter, so that one function can be run for
two targets and the results compared.
-/

namespace Usize

open ByteCodec

/-- The value of a sum or a product, if it fits. -/
def fit (w n : Nat) : Option Nat := if n < 2 ^ w then some n else none

/-- `Vec::with_capacity`, for elements of `size` bytes: at most `isize::MAX` bytes in all. -/
def withCapacity (w size count : Nat) : Option Unit :=
  if size * count < 2 ^ (w - 1) then some () else none

/-- `&b[i..j]`. -/
def range (b : Bytes) (i j : Nat) : Option Bytes :=
  if i ≤ j ∧ j ≤ b.length then some (slice b i j) else none

/-- `b.try_into().unwrap()`, for an array of `n` bytes. -/
def array (n : Nat) (b : Bytes) : Option (ByteArr n) :=
  if b.length = n then some (ByteArr.ofBytes n b) else none

/-- `from_le_bytes(b.try_into().unwrap())`, for a word of `n` bits. -/
def word (n : Nat) (b : Bytes) : Option (BitVec n) :=
  if b.length = n / 8 then some (ofLe n b) else none

/-- A number that fits the width is itself. -/
theorem fit_of_lt {w n : Nat} (h : n < 2 ^ w) : fit w n = some n := if_pos h

/-- A number that does not fit traps. -/
theorem fit_of_le {w n : Nat} (h : 2 ^ w ≤ n) : fit w n = none := if_neg (Nat.not_lt.mpr h)

/-- An offset added to a product: the sum fits only if the product does. -/
theorem fit_add_bind {β : Type} (w c n : Nat) (k : Nat → Option β) :
    (fit w n >>= fun m => fit w (c + m) >>= k) = (fit w (c + n) >>= k) := by
  by_cases h : n < 2 ^ w
  · rw [fit_of_lt h]
    rfl
  · rw [fit_of_le (Nat.le_of_not_lt h), fit_of_le (show 2 ^ w ≤ c + n by omega)]
    rfl

/-- A range within the string is the slice. -/
theorem range_of_le {b : Bytes} {i j : Nat} (hij : i ≤ j) (hj : j ≤ b.length) :
    range b i j = some (slice b i j) := if_pos ⟨hij, hj⟩

/-- Bytes of the right number are the array. -/
theorem array_of_length {n : Nat} {b : Bytes} (h : b.length = n) :
    array n b = some (ByteArr.ofBytes n b) := if_pos h

/-- Bytes of the right number are a word. -/
theorem word_of_length {n : Nat} {b : Bytes} (h : b.length = n / 8) :
    word n b = some (ofLe n b) := if_pos h

/-- A range of the right width reads as an array. -/
theorem range_array {n : Nat} {b : Bytes} {i j : Nat} (hj : j ≤ b.length) (hn : i + n = j) :
    ((range b i j).bind fun e => array n e) = some (ByteArr.ofBytes n (slice b i j)) := by
  rw [range_of_le (by omega) hj]
  exact array_of_length (by rw [slice_length]; omega)

/-- A word is read at its place. -/
theorem range_word {n : Nat} {b : Bytes} {i j : Nat} (hj : j ≤ b.length) (hn : i + n / 8 = j) :
    ((range b i j).bind fun e => word n e) = some (ofLe n (slice b i j)) := by
  rw [range_of_le (by omega) hj]
  exact word_of_length (by rw [slice_length]; omega)

/-- A loop none of whose rounds panics. -/
theorem mapM_eq_some {α β : Type} {f : α → Option β} {g : α → β} {l : List α}
    (h : ∀ a ∈ l, f a = some (g a)) : l.mapM f = some (l.map g) := by
  induction l with
  | nil => rfl
  | cons a l ih =>
    rw [List.mapM_cons, h a List.mem_cons_self, ih fun b hb => h b (List.mem_cons_of_mem a hb)]
    rfl

end Usize
