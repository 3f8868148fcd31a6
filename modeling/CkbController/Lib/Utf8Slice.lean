import CkbController.Lib.Prefixed

/-!
# Slices of UTF-8 strings by byte offsets

A string slice `&s[i..j]` is taken by byte offsets and panics when one of them is inside a
character or past the end. On the list of characters: `splitAt` walks to an offset, and
`slice_append` is the slice that starts behind a given prefix.
-/

namespace Utf8Slice

/-- The bytes that the characters take. -/
def byteLen : List Char → Nat
  | [] => 0
  | c :: cs => c.utf8Size + byteLen cs

/-- The characters before and after a byte offset. -/
def splitAt : List Char → Nat → Option (List Char × List Char)
  | cs, 0 => some ([], cs)
  | [], _ + 1 => none
  | c :: cs, n + 1 =>
    if c.utf8Size ≤ n + 1 then
      (splitAt cs (n + 1 - c.utf8Size)).map fun (before, after) => (c :: before, after)
    else none

/-- `&s[i..j]`. `none`: it panics. -/
def slice (cs : List Char) (i j : Nat) : Option (List Char) :=
  if i ≤ j then
    (splitAt cs i).bind fun (_, rest) => (splitAt rest (j - i)).map Prod.fst
  else none

@[simp] theorem byteLen_nil : byteLen [] = 0 := rfl

@[simp] theorem byteLen_cons (c : Char) (cs : List Char) :
    byteLen (c :: cs) = c.utf8Size + byteLen cs := rfl

/-- The bytes of a text are those of its parts. -/
theorem byteLen_append (cs ds : List Char) : byteLen (cs ++ ds) = byteLen cs + byteLen ds := by
  induction cs with
  | nil => simp
  | cons c cs ih =>
    rw [List.cons_append, byteLen_cons, byteLen_cons, ih]
    omega

/-- `s.len()`. -/
theorem length_asBytes (s : String) : (ByteCodec.asBytes s).length = byteLen s.toList := by
  have hbytes := ByteCodec.asBytes_ofList s.toList
  rw [String.ofList_toList] at hbytes
  rw [hbytes]
  induction s.toList with
  | nil => rfl
  | cons c cs ih =>
    rw [List.flatMap_cons, List.length_append, String.length_utf8EncodeChar, ih]
    rfl

@[simp] theorem splitAt_zero (cs : List Char) : splitAt cs 0 = some ([], cs) := by
  cases cs <;> rfl

/-- A split within the first character is none; one behind it goes on in the rest. -/
theorem splitAt_cons {c : Char} {cs : List Char} {n : Nat} (hn : 0 < n) :
    splitAt (c :: cs) n =
      if c.utf8Size ≤ n then
        (splitAt cs (n - c.utf8Size)).map fun (before, after) => (c :: before, after)
      else none := by
  cases n with
  | zero => exact absurd hn (Nat.lt_irrefl 0)
  | succ n => rw [splitAt]

/-- A text is split at the end of its first part, and from there on as the second part is. -/
theorem splitAt_append (before rest : List Char) (n : Nat) :
    splitAt (before ++ rest) (byteLen before + n) =
      (splitAt rest n).map fun (text, after) => (before ++ text, after) := by
  induction before with
  | nil =>
    rw [byteLen_nil, Nat.zero_add, List.nil_append]
    exact Option.map_id'.symm
  | cons c before ih =>
    have hpos := c.utf8Size_pos
    have hrest : byteLen (c :: before) + n - c.utf8Size = byteLen before + n := by
      rw [byteLen_cons]
      omega
    rw [List.cons_append, splitAt_cons (by rw [byteLen_cons]; omega), if_pos (by
      rw [byteLen_cons]; omega), hrest, ih, Option.map_map]
    rfl

/-- The slice behind a first part is a slice of the second. -/
theorem slice_append (before rest : List Char) (n : Nat) :
    slice (before ++ rest) (byteLen before) (byteLen before + n) =
      (splitAt rest n).map Prod.fst := by
  have hsplit : splitAt (before ++ rest) (byteLen before) = some (before, rest) := by
    have happend := splitAt_append before rest 0
    rw [Nat.add_zero, splitAt_zero] at happend
    rw [happend]
    show some (before ++ [], rest) = _
    rw [List.append_nil]
  unfold slice
  rw [if_pos (Nat.le_add_right _ _), hsplit, Nat.add_sub_cancel_left]
  rfl

/-- Splitting loses nothing. -/
theorem splitAt_eq_some {cs before after : List Char} {n : Nat}
    (h : splitAt cs n = some (before, after)) : cs = before ++ after ∧ byteLen before = n := by
  induction cs generalizing n before with
  | nil =>
    cases n with
    | zero =>
      cases h
      exact ⟨rfl, rfl⟩
    | succ n => cases h
  | cons c cs ih =>
    cases n with
    | zero =>
      cases h
      exact ⟨rfl, rfl⟩
    | succ n =>
      rw [splitAt] at h
      by_cases hle : c.utf8Size ≤ n + 1
      · -- the character lies before the cut
        rw [if_pos hle] at h
        obtain ⟨⟨before', after'⟩, hsplit, heq⟩ := Option.map_eq_some_iff.mp h
        cases heq
        obtain ⟨hcs, hlength⟩ := ih hsplit
        refine ⟨by rw [hcs, List.cons_append], ?_⟩
        rw [byteLen_cons, hlength]
        omega
      · -- the cut is inside the character
        rw [if_neg hle] at h
        cases h

end Utf8Slice
