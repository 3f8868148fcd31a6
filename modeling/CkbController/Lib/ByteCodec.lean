import Mathlib.Data.Vector.Basic
import Mathlib.Data.List.TakeDrop

/-!
# Byte strings, fixed-width byte arrays and little-endian words

The wire formats of this development are concatenations of three kinds of piece: raw byte
strings, byte arrays of a fixed width, and machine words written little-endian. This module
owns the vocabulary for all three, over arbitrary widths:

* `Bytes` and `ByteArr n` — a byte string, and one that carries the proof of its length;
* `slice b i j` — the half-open range `b[i..j]`;
* `toLe` / `ofLe` — a `BitVec w` as `w / 8` little-endian bytes and back, inverse to each other
  on whole-byte widths (`ofLe_toLe`, `toLe_ofLe`).
-/

namespace ByteCodec

abbrev Bytes := List UInt8

/-- A byte array of width `n`: the length is part of the value. -/
abbrev ByteArr (n : Nat) := List.Vector UInt8 n

abbrev U32 := BitVec 32
abbrev U64 := BitVec 64
abbrev U128 := BitVec 128

/-! ## Ranges -/

/-- The half-open range `b[i..j]`. Short strings give short ranges; every caller that depends
on the width checks the length first. -/
def slice (b : Bytes) (i j : Nat) : Bytes := (b.drop i).take (j - i)

/-- A slice that runs past the end is cut off there. -/
@[simp] theorem slice_length (b : Bytes) (i j : Nat) :
    (slice b i j).length = min (j - i) (b.length - i) := by
  simp [slice]

/-- A range that starts past a prefix is a range of what follows the prefix. -/
theorem slice_append_right {a b : Bytes} {i j : Nat} (h : a.length ≤ i) :
    slice (a ++ b) i j = slice b (i - a.length) (j - a.length) := by
  unfold slice
  rw [List.drop_append, List.drop_eq_nil_of_le h, List.nil_append]
  congr 1
  omega

/-- A slice that ends within the first part does not see the second. -/
theorem slice_append_left {a b : Bytes} {i j : Nat} (h : j ≤ a.length) :
    slice (a ++ b) i j = slice a i j := by
  unfold slice
  rcases Nat.le_total i a.length with hi | hi
  · rw [List.drop_append_of_le_length hi, List.take_append_of_le_length]
    simp only [List.length_drop]
    omega
  · rw [show j - i = 0 from by omega, List.take_zero, List.take_zero]

/-- The slice from end to end is everything. -/
theorem slice_zero_length (b : Bytes) : slice b 0 b.length = b := by
  simp [slice]

/-- Two slices that meet are one. -/
theorem slice_append_slice {b : Bytes} {i j k : Nat} (hij : i ≤ j) (hjk : j ≤ k) :
    slice b i j ++ slice b j k = slice b i k := by
  unfold slice
  rw [show k - i = (j - i) + (k - j) from by omega, List.take_add, List.drop_drop,
    show i + (j - i) = j from by omega]

/-- A slice that reaches the end is what is left after dropping its start. -/
theorem slice_eq_drop {b : Bytes} {i j : Nat} (h : b.length ≤ j) : slice b i j = b.drop i := by
  unfold slice
  rw [List.take_of_length_le]
  simp only [List.length_drop]
  omega

/-- The middle one of three parts, by the lengths of the first two. -/
theorem slice_append_middle (a b c : Bytes) {i j : Nat} (hi : a.length = i)
    (hj : i + b.length = j) : slice (a ++ (b ++ c)) i j = b := by
  rw [slice_append_right (by omega), hi, Nat.sub_self, slice_append_left (by omega),
    show j - i = b.length from by omega, slice_zero_length]

/-- The last one of two parts, by the length of the first. -/
theorem slice_append_last (a b : Bytes) {i j : Nat} (hi : a.length = i)
    (hj : i + b.length = j) : slice (a ++ b) i j = b := by
  rw [slice_append_right (by omega), hi, Nat.sub_self, show j - i = b.length from by omega,
    slice_zero_length]

/-- In a sequence of blocks of one width, each block is where the width says. -/
theorem slice_flatMap {α : Type _} {f : α → Bytes} {w : Nat} {l : List α}
    (hw : ∀ a ∈ l, (f a).length = w) (pre : Bytes) {i : Nat} (hi : i < l.length) :
    slice (pre ++ l.flatMap f) (pre.length + i * w) (pre.length + i * w + w) = f l[i] := by
  induction l generalizing pre i with
  | nil => exact absurd hi (Nat.not_lt_zero i)
  | cons a l ih =>
    have ha : (f a).length = w := hw a List.mem_cons_self
    rw [List.flatMap_cons]
    cases i with
    | zero =>
      rw [Nat.zero_mul, Nat.add_zero]
      exact slice_append_middle pre (f a) _ rfl (by rw [ha])
    | succ i =>
      -- the first block moves into the prefix
      have hrest := ih (fun b hb => hw b (List.mem_cons_of_mem a hb)) (pre ++ f a)
        (Nat.lt_of_succ_lt_succ hi)
      have hstart : pre.length + (i + 1) * w = (pre ++ f a).length + i * w := by
        rw [List.length_append, ha, Nat.succ_mul]
        omega
      rw [hstart, ← List.append_assoc]
      exact hrest

/-- Pieces of one width, put together. -/
theorem length_flatMap_width {α : Type _} {f : α → Bytes} {w : Nat} {l : List α}
    (hw : ∀ a ∈ l, (f a).length = w) : (l.flatMap f).length = l.length * w := by
  induction l with
  | nil => rw [List.flatMap_nil, List.length_nil, List.length_nil, Nat.zero_mul]
  | cons a l ih =>
    rw [List.flatMap_cons, List.length_append, hw a List.mem_cons_self,
      ih fun b hb => hw b (List.mem_cons_of_mem a hb), List.length_cons, Nat.succ_mul, Nat.add_comm]

/-- Consecutive ranges of one width put together. -/
theorem flatMap_slice (b : Bytes) (start w k : Nat) :
    ((List.range k).flatMap fun i => slice b (start + i * w) (start + i * w + w)) =
      slice b start (start + k * w) := by
  induction k with
  | zero => simp [slice]
  | succ k ih =>
    rw [List.range_succ, List.flatMap_append, ih, List.flatMap_singleton, Nat.succ_mul,
      ← Nat.add_assoc]
    exact slice_append_slice (by omega) (by omega)

/-! ## Fixed-width arrays -/

/-- Read the first `n` bytes as an array (`b.try_into().unwrap()` on a range of width `n`). -/
def ByteArr.ofBytes (n : Nat) (b : Bytes) : ByteArr n :=
  ⟨b.takeD n 0, List.takeD_length n b 0⟩

@[simp] theorem ByteArr.toList_ofBytes {n : Nat} {b : Bytes} (h : b.length = n) :
    (ByteArr.ofBytes n b).toList = b := by
  show b.takeD n 0 = b
  rw [List.takeD_eq_take 0 (by omega), List.take_of_length_le (by omega)]

/-- A range of the right width, kept as an array. -/
theorem ByteArr.toList_ofBytes_slice {n : Nat} {b : Bytes} {i j : Nat} (hj : j ≤ b.length)
    (hn : i + n = j) : (ByteArr.ofBytes n (slice b i j)).toList = slice b i j :=
  ByteArr.toList_ofBytes (by rw [slice_length]; omega)

@[simp] theorem ByteArr.ofBytes_toList {n : Nat} (a : ByteArr n) :
    ByteArr.ofBytes n a.toList = a :=
  List.Vector.toList_injective (ByteArr.toList_ofBytes a.toList_length)

/-! ## Chunks -/

/-- The first `k` chunks of width `n` (`chunks_exact(n)` when `k = b.len() / n`). -/
def chunks (n : Nat) : Nat → Bytes → List (ByteArr n)
  | 0, _ => []
  | k + 1, b => ByteArr.ofBytes n b :: chunks n k (b.drop n)

def flat {n : Nat} (l : List (ByteArr n)) : Bytes := l.flatMap List.Vector.toList

@[simp] theorem chunks_length (n k : Nat) (b : Bytes) : (chunks n k b).length = k := by
  induction k generalizing b with
  | zero => rfl
  | succ k ih => simp [chunks, ih]

@[simp] theorem flat_length {n : Nat} (l : List (ByteArr n)) : (flat l).length = l.length * n := by
  induction l with
  | nil => simp [flat]
  | cons a l ih =>
    simp only [flat, List.flatMap_cons, List.length_append, List.Vector.toList_length] at ih ⊢
    rw [ih, List.length_cons, Nat.succ_mul, Nat.add_comm]

/-- Cutting what was put together gives the pieces back. -/
theorem chunks_flat {n : Nat} (l : List (ByteArr n)) : chunks n l.length (flat l) = l := by
  induction l with
  | nil => rfl
  | cons a l ih =>
    have hsplit : flat (a :: l) = a.toList ++ flat l := rfl
    -- what is cut off is the first array, what is left the flattened rest
    have hdrop : (flat (a :: l)).drop n = flat l := by
      rw [hsplit, List.drop_append_of_le_length (by simp), List.drop_eq_nil_of_le (by simp),
        List.nil_append]
    have hhead : ByteArr.ofBytes n (flat (a :: l)) = a := by
      apply List.Vector.toList_injective
      show (flat (a :: l)).takeD n 0 = a.toList
      rw [List.takeD_eq_take 0 (by simp [Nat.succ_mul]), hsplit,
        List.take_append_of_le_length (by simp), List.take_of_length_le (by simp)]
    rw [List.length_cons, chunks, hdrop, ih, hhead]

/-- Putting together what was cut gives the string back, if nothing was left over. -/
theorem flat_chunks {n k : Nat} {b : Bytes} (h : b.length = k * n) : flat (chunks n k b) = b := by
  induction k generalizing b with
  | zero =>
    rw [Nat.zero_mul] at h
    rw [List.eq_nil_of_length_eq_zero h]
    rfl
  | succ k ih =>
    have hn : n ≤ b.length := by rw [h, Nat.succ_mul]; omega
    have hrest : (b.drop n).length = k * n := by rw [List.length_drop, h, Nat.succ_mul]; omega
    show (ByteArr.ofBytes n b).toList ++ flat (chunks n k (b.drop n)) = b
    rw [ih hrest]
    show b.takeD n 0 ++ b.drop n = b
    rw [List.takeD_eq_take 0 hn, List.take_append_drop]

/-! ## Little-endian naturals -/

def leBytes : Nat → Nat → Bytes
  | 0, _ => []
  | n + 1, v => UInt8.ofNat v :: leBytes n (v / 256)

/-- The natural a little-endian byte string spells. -/
def leNat : Bytes → Nat
  | [] => 0
  | b :: bs => b.toNat + 256 * leNat bs

@[simp] theorem leBytes_length (n v : Nat) : (leBytes n v).length = n := by
  induction n generalizing v with
  | zero => rfl
  | succ n ih => simp [leBytes, ih]

/-- `n` bytes hold less than `256 ^ n`. -/
theorem leNat_lt (bs : Bytes) : leNat bs < 256 ^ bs.length := by
  induction bs with
  | nil => simp [leNat]
  | cons b bs ih =>
    have hb : b.toNat < 256 := b.toNat_lt
    simp only [leNat, List.length_cons, Nat.pow_succ]
    omega

/-- A number that is too large for its bytes is read back modulo their range. -/
theorem leNat_leBytes (n v : Nat) : leNat (leBytes n v) = v % 256 ^ n := by
  induction n generalizing v with
  | zero => simp [leBytes, leNat, Nat.mod_one]
  | succ n ih =>
    have hhead : (UInt8.ofNat v).toNat = v % 256 := by simp
    simp only [leBytes, leNat, ih, hhead]
    rw [Nat.pow_succ, Nat.mul_comm (256 ^ n) 256, Nat.mod_mul]

/-- Every byte string is how its own number is written in as many bytes. -/
theorem leBytes_leNat (bs : Bytes) : leBytes bs.length (leNat bs) = bs := by
  induction bs with
  | nil => rfl
  | cons b bs ih =>
    have hb : b.toNat < 256 := b.toNat_lt
    have hdiv : (b.toNat + 256 * leNat bs) / 256 = leNat bs := by omega
    have hhead : UInt8.ofNat (b.toNat + 256 * leNat bs) = b := by
      apply UInt8.toNat_inj.mp
      rw [UInt8.toNat_ofNat', Nat.add_mul_mod_self_left]
      exact Nat.mod_eq_of_lt hb
    rw [List.length_cons, leBytes, leNat, hdiv, ih, hhead]

/-! ## Little-endian machine words -/

/-- `x.to_le_bytes()`: the `w / 8` bytes of a word, least significant first. -/
def toLe {w : Nat} (x : BitVec w) : Bytes := leBytes (w / 8) x.toNat

/-- `uN::from_le_bytes`: the word a little-endian byte string spells. -/
def ofLe (w : Nat) (bs : Bytes) : BitVec w := BitVec.ofNat w (leNat bs)

@[simp] theorem toLe_length {w : Nat} (x : BitVec w) : (toLe x).length = w / 8 := leBytes_length ..

/-- A width of whole bytes. -/
theorem two_pow_eq_bytes {w : Nat} (hw : 8 ∣ w) : 2 ^ w = 256 ^ (w / 8) := by
  obtain ⟨n, rfl⟩ := hw
  rw [Nat.mul_div_cancel_left n (by decide), Nat.pow_mul]

/-- **Round trip** of a word. -/
theorem ofLe_toLe {w : Nat} (hw : 8 ∣ w) (x : BitVec w) : ofLe w (toLe x) = x := by
  have hx : x.toNat < 256 ^ (w / 8) := two_pow_eq_bytes hw ▸ x.isLt
  apply BitVec.eq_of_toNat_eq
  rw [ofLe, toLe, leNat_leBytes, Nat.mod_eq_of_lt hx, BitVec.toNat_ofNat,
    Nat.mod_eq_of_lt x.isLt]

/-- **Round trip** of the bytes of a word. -/
theorem toLe_ofLe {w : Nat} (hw : 8 ∣ w) {bs : Bytes} (h : bs.length = w / 8) :
    toLe (ofLe w bs) = bs := by
  have hlt : leNat bs < 2 ^ w := by
    rw [two_pow_eq_bytes hw, ← h]
    exact leNat_lt bs
  rw [toLe, ofLe, BitVec.toNat_ofNat, Nat.mod_eq_of_lt hlt, ← h]
  exact leBytes_leNat bs

/-- Two words are told apart by their bytes. -/
theorem toLe_injective {w : Nat} (hw : 8 ∣ w) : Function.Injective (@toLe w) :=
  fun x y h => by rw [← ofLe_toLe hw x, h, ofLe_toLe hw y]

/-- A range of the right width, read as a word. -/
theorem toLe_ofLe_slice {w : Nat} (hw : 8 ∣ w) {b : Bytes} {i j : Nat} (hj : j ≤ b.length)
    (hn : i + w / 8 = j) : toLe (ofLe w (slice b i j)) = slice b i j :=
  toLe_ofLe hw (by rw [slice_length]; omega)

end ByteCodec
