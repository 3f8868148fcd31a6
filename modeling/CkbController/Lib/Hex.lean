import CkbController.Lib.ByteCodec

/-!
# Hexadecimal text

Bytes as lower-case digits, two for each byte. The text determines the bytes
(`hexEncode_injective`) and has no upper-case letter, so comparing two such texts without regard
to case compares the bytes. Reading takes either case; `decode` and `fromStrRadix16` are the
inverses of writing bytes and numbers.
-/

namespace Hex

open ByteCodec

def digits (x : UInt8) : List Char := [Nat.digitChar (x.toNat / 16), Nat.digitChar (x.toNat % 16)]

def hexEncode (b : Bytes) : String := String.ofList (b.flatMap digits)

/-- The sixteen digits are different characters. -/
theorem digitChar_injective {m n : Nat} (hm : m < 16) (hn : n < 16)
    (h : Nat.digitChar m = Nat.digitChar n) : m = n := by
  have hall : ∀ i j : Fin 16, Nat.digitChar i = Nat.digitChar j → i = j := by decide
  exact Fin.mk.inj (hall ⟨m, hm⟩ ⟨n, hn⟩ h)

/-- A digit is written in lower case. -/
theorem toLower_digitChar {n : Nat} (h : n < 16) : (Nat.digitChar n).toLower = Nat.digitChar n := by
  have hall : ∀ i : Fin 16, (Nat.digitChar i).toLower = Nat.digitChar i := by decide
  exact hall ⟨n, h⟩

/-- A byte is told by its two digits. -/
theorem digits_injective {x y : UInt8} (h : digits x = digits y) : x = y := by
  have hx := x.toNat_lt
  have hy := y.toNat_lt
  obtain ⟨hhigh, hlow⟩ := List.cons.inj h
  have hhigh' := digitChar_injective (by omega) (by omega) hhigh
  have hlow' := digitChar_injective (by omega) (by omega) (List.cons.inj hlow).1
  apply UInt8.toNat_inj.mp
  omega

/-- Two byte strings are told apart by their digits: both are read off two characters at a time. -/
theorem flatMap_digits_injective : ∀ {b c : Bytes}, b.flatMap digits = c.flatMap digits → b = c
  | [], [], _ => rfl
  | [], y :: c, h => by cases h
  | x :: b, [], h => by cases h
  | x :: b, y :: c, h => by
    rw [List.flatMap_cons, List.flatMap_cons] at h
    obtain ⟨hhead, htail⟩ := List.append_inj h rfl
    rw [digits_injective hhead, flatMap_digits_injective htail]

/-- A hex text stands for one byte string. -/
theorem hexEncode_injective : Function.Injective hexEncode := by
  intro b c h
  have hlist := congrArg String.toList h
  simp only [hexEncode, String.toList_ofList] at hlist
  exact flatMap_digits_injective hlist

/-! ## Reading -/

def toDigit (c : Char) : Option Nat :=
  if '0' ≤ c ∧ c ≤ '9' then some (c.toNat - 48)
  else if 'a' ≤ c ∧ c ≤ 'f' then some (c.toNat - 87)
  else if 'A' ≤ c ∧ c ≤ 'F' then some (c.toNat - 55)
  else none

/-- A digit is read as what it was written for. -/
theorem toDigit_digitChar {n : Nat} (h : n < 16) : toDigit (Nat.digitChar n) = some n := by
  have hall : ∀ i : Fin 16, toDigit (Nat.digitChar i) = some i.val := by decide
  exact hall ⟨n, h⟩

/-- A digit is one of the first 128 characters, with a value below 16. -/
theorem toDigit_eq_some {c : Char} {d : Nat} (h : toDigit c = some d) : c.toNat < 128 ∧ d < 16 := by
  unfold toDigit at h
  split_ifs at h with hdec hlower hupper
  · have hle : c.toNat ≤ 57 := hdec.2
    cases h
    omega
  · have hle : c.toNat ≤ 102 := hlower.2
    cases h
    omega
  · have hle : c.toNat ≤ 70 := hupper.2
    cases h
    omega

/-- `trim_start_matches("0x")`: every leading `0x` goes. -/
def trim0x : List Char → List Char
  | '0' :: 'x' :: rest => trim0x rest
  | text => text

/-- Digits have no prefix to trim. -/
theorem trim0x_eq_self {cs : List Char} (h : ∀ c ∈ cs, ∃ d, toDigit c = some d) :
    trim0x cs = cs := by
  unfold trim0x
  split
  · obtain ⟨d, hd⟩ := h 'x' (List.mem_cons_of_mem _ List.mem_cons_self)
    have hx : toDigit 'x' = none := rfl
    rw [hx] at hd
    cases hd
  · rfl

def decode : List Char → Option Bytes
  | [] => some []
  | [_] => none
  | high :: low :: rest => do
    let h ← toDigit high
    let l ← toDigit low
    let bytes ← decode rest
    some (UInt8.ofNat (h * 16 + l) :: bytes)

/-- The first two characters are the first byte. -/
theorem decode_digits_append (x : UInt8) (rest : List Char) :
    decode (digits x ++ rest) = (decode rest).map (x :: ·) := by
  have hx := x.toNat_lt
  -- each of the two digits is read as its half of the byte
  have hhigh : toDigit (Nat.digitChar (x.toNat / 16)) = some (x.toNat / 16) :=
    toDigit_digitChar (by omega)
  have hlow : toDigit (Nat.digitChar (x.toNat % 16)) = some (x.toNat % 16) :=
    toDigit_digitChar (by omega)
  have hbyte : UInt8.ofNat (x.toNat / 16 * 16 + x.toNat % 16) = x := by
    rw [Nat.div_add_mod', UInt8.ofNat_toNat]
  show (do
    let h ← toDigit (Nat.digitChar (x.toNat / 16))
    let l ← toDigit (Nat.digitChar (x.toNat % 16))
    let bytes ← decode rest
    some (UInt8.ofNat (h * 16 + l) :: bytes)) = _
  rw [hhigh, hlow]
  cases hrest : decode rest with
  | none => rfl
  | some bytes =>
    show some (UInt8.ofNat (x.toNat / 16 * 16 + x.toNat % 16) :: bytes) = some (x :: bytes)
    rw [hbyte]

/-- **Round trip** of the digits of a byte string. -/
theorem decode_flatMap_digits (b : Bytes) : decode (b.flatMap digits) = some b := by
  induction b with
  | nil => rfl
  | cons x b ih =>
    rw [List.flatMap_cons, decode_digits_append, ih]
    rfl

/-- What is wrong with the text of a number. -/
inductive NumberError where
  | empty
  | invalidDigit
  | overflow
deriving DecidableEq

/-- The digits of a number below `bound`, after a part that stands for `n`. -/
def readDigits (bound : Nat) : Nat → List Char → Except NumberError Nat
  | n, [] => .ok n
  | n, c :: cs =>
    match toDigit c with
    | none => .error .invalidDigit
    | some d => if n * 16 + d < bound then readDigits bound (n * 16 + d) cs else .error .overflow

/-- A character that is no digit ends the reading with an error. -/
theorem readDigits_cons_of_none {bound n : Nat} {c : Char} (h : toDigit c = none) (cs : List Char) :
    readDigits bound n (c :: cs) = .error .invalidDigit := by
  rw [readDigits, h]

/-- One digit more, as long as the number stays within the bound. -/
theorem readDigits_cons {bound n d : Nat} {c : Char} (h : toDigit c = some d)
    (hbound : n * 16 + d < bound) (cs : List Char) :
    readDigits bound n (c :: cs) = readDigits bound (n * 16 + d) cs := by
  rw [readDigits, h]
  exact if_pos hbound

/-- One digit that was written is read as itself. -/
theorem readDigits_digit {bound n d : Nat} (hd : d < 16) (hbound : n * 16 + d < bound)
    (cs : List Char) :
    readDigits bound n (Nat.digitChar d :: cs) = readDigits bound (n * 16 + d) cs :=
  readDigits_cons (toDigit_digitChar hd) hbound cs

/-- What `Nat.toDigits` writes is read back. -/
theorem readDigits_toDigits {bound : Nat} (n : Nat) (h : n < bound) (cs : List Char) :
    readDigits bound 0 (Nat.toDigits 16 n ++ cs) = readDigits bound n cs := by
  induction n using Nat.strongRecOn generalizing cs with
  | ind n ih =>
    by_cases hsmall : n < 16
    · rw [Nat.toDigits_of_lt_base hsmall, List.singleton_append,
        readDigits_digit hsmall (by omega), Nat.zero_mul, Nat.zero_add]
    · -- the last digit, after the digits of the quotient
      rw [Nat.toDigits_of_base_le (by decide) (Nat.le_of_not_lt hsmall), List.append_assoc,
        ih (n / 16) (by omega) (by omega), List.singleton_append,
        readDigits_digit (Nat.mod_lt n (by decide)) (by omega), Nat.div_add_mod']

/-- `from_str_radix(s, 16)` of an unsigned type with values below `bound`. A leading `+` is allowed
when something follows it. -/
def fromStrRadix16 (bound : Nat) : List Char → Except NumberError Nat
  | [] => .error .empty
  | ['+'] => .error .invalidDigit
  -- a minus sign is a sign for signed types only
  | '+' :: c :: cs => readDigits bound 0 (c :: cs)
  | c :: cs => readDigits bound 0 (c :: cs)

/-- A text without a sign is all digits. -/
theorem fromStrRadix16_of_ne {bound : Nat} {c : Char} (h : c ≠ '+') (cs : List Char) :
    fromStrRadix16 bound (c :: cs) = readDigits bound 0 (c :: cs) := by
  unfold fromStrRadix16
  split
  · rename_i heq
    cases heq
  · rename_i heq
    exact absurd (List.cons.inj heq).1 h
  · rename_i heq
    exact absurd (List.cons.inj heq).1 h
  · rename_i heq
    rw [heq]

/-- The digits of a number are digits of the alphabet. -/
theorem isDigit_of_mem_toDigits {n : Nat} {c : Char} (h : c ∈ Nat.toDigits 16 n) :
    ∃ d, toDigit c = some d := by
  induction n using Nat.strongRecOn with
  | ind n ih =>
    by_cases hsmall : n < 16
    · rw [Nat.toDigits_of_lt_base hsmall] at h
      rw [List.mem_singleton.mp h]
      exact ⟨n, toDigit_digitChar hsmall⟩
    · rw [Nat.toDigits_of_base_le (by decide) (Nat.le_of_not_lt hsmall)] at h
      rcases List.mem_append.mp h with h | h
      · exact ih (n / 16) (by omega) h
      · rw [List.mem_singleton.mp h]
        exact ⟨n % 16, toDigit_digitChar (Nat.mod_lt n (by decide))⟩

/-- A number that is in range is read as it was written. -/
theorem fromStrRadix16_toDigits {bound n : Nat} (h : n < bound) :
    fromStrRadix16 bound (Nat.toDigits 16 n) = .ok n := by
  have hread := readDigits_toDigits n h []
  rw [List.append_nil] at hread
  have hdigit : ∀ c ∈ Nat.toDigits 16 n, ∃ d, toDigit c = some d :=
    fun c hc => isDigit_of_mem_toDigits hc
  cases hcs : Nat.toDigits 16 n with
  | nil => exact absurd hcs Nat.toDigits_ne_nil
  | cons c cs =>
    rw [hcs] at hread hdigit
    obtain ⟨d, hd⟩ := hdigit c List.mem_cons_self
    -- a digit is not a sign
    have hsign : c ≠ '+' := by
      rintro rfl
      cases hd
    rw [fromStrRadix16_of_ne hsign, hread]
    rfl

/-- The digits of a byte string are digits of the alphabet. -/
theorem isDigit_of_mem_digits {b : Bytes} {c : Char} (h : c ∈ b.flatMap digits) :
    ∃ d, toDigit c = some d := by
  obtain ⟨x, -, hc⟩ := List.mem_flatMap.mp h
  have hx := x.toNat_lt
  rcases List.mem_cons.mp hc with rfl | hc
  · exact ⟨_, toDigit_digitChar (by omega)⟩
  · rw [List.mem_singleton.mp hc]
    exact ⟨_, toDigit_digitChar (by omega)⟩

/-- A text of digits, without its prefix. -/
theorem trim0x_ofList {cs : List Char} (h : ∀ c ∈ cs, ∃ d, toDigit c = some d) :
    trim0x (String.ofList ('0' :: 'x' :: cs)).toList = cs := by
  rw [String.toList_ofList]
  show trim0x cs = cs
  exact trim0x_eq_self h

/-- A hex text is `0x` and the digits. -/
theorem toList_prefixed (b : Bytes) :
    ("0x" ++ hexEncode b).toList = '0' :: 'x' :: b.flatMap digits := by
  rw [String.toList_append, show (hexEncode b).toList = b.flatMap digits from String.toList_ofList]
  rfl

/-- The usual text of bytes, without its prefix. -/
theorem trim0x_hexEncode (b : Bytes) : trim0x ("0x" ++ hexEncode b).toList = b.flatMap digits := by
  rw [toList_prefixed]
  show trim0x (b.flatMap digits) = _
  exact trim0x_eq_self fun c hc => isDigit_of_mem_digits hc

/-- The digits of a byte string are in lower case. -/
theorem toLower_flatMap_digits (b : Bytes) : (b.flatMap digits).map Char.toLower =
    b.flatMap digits := by
  rw [List.map_flatMap]
  refine congrArg (List.flatMap · b) (funext fun x => ?_)
  have hx := x.toNat_lt
  show [(Nat.digitChar _).toLower, (Nat.digitChar _).toLower] = _
  rw [toLower_digitChar (by omega), toLower_digitChar (by omega)]
  rfl

/-- A hex text is in lower case. -/
theorem toLower_hexEncode (b : Bytes) : ("0x" ++ hexEncode b).toLower = "0x" ++ hexEncode b := by
  apply String.toList_injective
  show (String.map Char.toLower _).toList = _
  rw [String.toList_map, toList_prefixed, List.map_cons, List.map_cons, toLower_flatMap_digits]
  rfl

end Hex
