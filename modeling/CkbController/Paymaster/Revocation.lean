import CkbController.Lib.Hex
import CkbController.Lib.Utf8Slice
import CkbController.Paymaster.Biscuit

/-!
# Revocation ids

An operator revokes a token by the hexadecimal text of its id. `decode_hex` cuts the text into
slices of two bytes and parses each as a number, so a slice that ends inside a character panics,
and a sign is read where a digit should be; `trim_start_matches` takes any number of prefixes.
`revocation_ids_exact_iff` says that these are the only texts that are not read as written.
-/

namespace CkbController.Paymaster

open ByteCodec Hex Utf8Slice

/-! ## Parsing -/

/-- `u8::from_str_radix(s, 16)`. -/
def u8FromStrRadix16 : List Char → Except NumberError Nat := fromStrRadix16 (2 ^ 8)

/-- The bytes at the offsets. The first slice that is not a number ends it (`some none`), and a
slice that ends inside a character panics (`none`). -/
def decodeAt (cs : List Char) : List Nat → Option (Option Bytes)
  | [] => some (some [])
  | i :: offsets => do
    let text ← slice cs i (i + 2)
    match u8FromStrRadix16 text with
    | .error _ => some none
    | .ok n => do
      let bytes ← decodeAt cs offsets
      some (bytes.map (UInt8.ofNat n :: ·))

def decodeHex (s : String) : Option (Option Bytes) :=
  let len := (asBytes s).length
  if len % 2 ≠ 0 then some none
  -- `(0..len).step_by(2)`
  else decodeAt s.toList ((List.range (len / 2)).map (2 * ·))

def BiscuitGate.revokeHex {lib : BiscuitAuth} (gate : BiscuitGate lib) (revocationId : String) :
    Option (Except AuthzError Unit × BiscuitGate lib) := do
  match ← decodeHex (String.ofList (trim0x revocationId.toList)) with
  | none => some (.error .malformed, gate)
  | some id => some (.ok (), { gate with revoked := gate.revoked.insert id })

/-! ## What is written -/

/-- The text after an optional `0x`. -/
def strip0x : List Char → List Char
  | '0' :: 'x' :: rest => rest
  | text => text

/-- The gate with an id, if there is one. -/
def BiscuitGate.withRevoked {lib : BiscuitAuth} (gate : BiscuitGate lib) :
    Option Bytes → Except AuthzError Unit × BiscuitGate lib
  | none => (.error .malformed, gate)
  | some id => (.ok (), { gate with revoked := gate.revoked.insert id })

/-- The gate with the id that is written, if one is. -/
def BiscuitGate.revoking {lib : BiscuitAuth} (gate : BiscuitGate lib) (revocationId : String) :
    Except AuthzError Unit × BiscuitGate lib :=
  gate.withRevoked (Hex.decode (strip0x revocationId.toList))

def IsDigit (c : Char) : Prop := (toDigit c).isSome = true

/-- After some pairs of a digit or `+` and a digit, what follows is `p`. -/
inductive AfterPairs (p : List Char → Prop) : List Char → Prop where
  | here {rest : List Char} (h : p rest) : AfterPairs p rest
  | pair {high low : Char} {rest : List Char} (hhigh : IsDigit high ∨ high = '+')
      (hlow : IsDigit low) (h : AfterPairs p rest) : AfterPairs p (high :: low :: rest)

/-- The first two bytes end inside a character. -/
def Straddles : List Char → Prop
  | [] => False
  | [c] => 2 < c.utf8Size
  | c :: d :: _ => 2 < c.utf8Size ∨ c.utf8Size = 1 ∧ 1 < d.utf8Size

/-- Read in pairs, the text leads to a slice that ends inside a character. -/
def Panics (cs : List Char) : Prop := byteLen cs % 2 = 0 ∧ AfterPairs Straddles cs

/-- The text is read in pairs to its end. -/
def Parses (cs : List Char) : Prop := AfterPairs (· = []) cs

/-- No slice ends inside a character, and no sign is read. -/
def Unmistaken (cs : List Char) : Prop := ¬ Panics cs ∧ (Parses cs → '+' ∉ cs)

/-! ## Two bytes -/

/-- A hex digit is one byte long. -/
theorem utf8Size_of_isDigit {c : Char} (h : IsDigit c) : c.utf8Size = 1 := by
  obtain ⟨d, hd⟩ := Option.isSome_iff_exists.mp h
  have hlt := (toDigit_eq_some hd).1
  refine Char.utf8Size_eq_one_iff.mpr ?_
  exact Nat.le_of_lt_succ hlt

theorem toDigit_of_not_isDigit {c : Char} (h : ¬ IsDigit c) : toDigit c = none :=
  Option.not_isSome_iff_eq_none.mp h

theorem u8_of_ne {c : Char} (h : c ≠ '+') (cs : List Char) :
    u8FromStrRadix16 (c :: cs) = readDigits (2 ^ 8) 0 (c :: cs) :=
  fromStrRadix16_of_ne h cs

/-- The reader of hex takes two digits for a byte. -/
theorem decode_pair {high low : Char} {h l : Nat} (hhigh : toDigit high = some h)
    (hlow : toDigit low = some l) (rest : List Char) :
    Hex.decode (high :: low :: rest) =
      (Hex.decode rest).map (UInt8.ofNat (h * 16 + l) :: ·) := by
  rw [Hex.decode, hhigh, hlow]
  cases Hex.decode rest with
  | none => rfl
  | some bytes => rfl

/-- A pair that is read is the byte of its digits, unless it starts with a sign. -/
theorem u8_pair {high low : Char} (hhigh : IsDigit high ∨ high = '+') (hlow : IsDigit low) :
    ∃ n, u8FromStrRadix16 [high, low] = .ok n ∧
      (high ≠ '+' → ∀ rest, Hex.decode (high :: low :: rest) =
        (Hex.decode rest).map (UInt8.ofNat n :: ·)) := by
  obtain ⟨l, hl⟩ := Option.isSome_iff_exists.mp hlow
  have hlsmall := (toDigit_eq_some hl).2
  by_cases hsign : high = '+'
  · subst hsign
    refine ⟨l, ?_, fun hne => absurd rfl hne⟩
    show readDigits (2 ^ 8) 0 [low] = .ok l
    rw [readDigits_cons hl (by omega), Nat.zero_mul, Nat.zero_add]
    rfl
  · obtain ⟨h, hh⟩ := Option.isSome_iff_exists.mp (hhigh.resolve_right hsign)
    have hhsmall := (toDigit_eq_some hh).2
    refine ⟨h * 16 + l, ?_, fun _ rest => decode_pair hh hl rest⟩
    rw [u8_of_ne hsign, readDigits_cons hh (by omega), readDigits_cons hl (by omega), Nat.zero_mul,
      Nat.zero_add]
    rfl

/-- A pair is refused unless it is two digits, or a sign and a digit. -/
theorem u8_pair_error {high low : Char} (h : ¬ ((IsDigit high ∨ high = '+') ∧ IsDigit low)) :
    ∃ e, u8FromStrRadix16 [high, low] = .error e := by
  by_cases hsign : high = '+'
  · subst hsign
    have hlow : ¬ IsDigit low := fun hlow => h ⟨Or.inr rfl, hlow⟩
    refine ⟨.invalidDigit, ?_⟩
    show readDigits (2 ^ 8) 0 [low] = _
    rw [readDigits_cons_of_none (toDigit_of_not_isDigit hlow)]
  · rw [u8_of_ne hsign]
    by_cases hhigh : IsDigit high
    · have hlow : ¬ IsDigit low := fun hlow => h ⟨Or.inl hhigh, hlow⟩
      obtain ⟨d, hd⟩ := Option.isSome_iff_exists.mp hhigh
      have hsmall := (toDigit_eq_some hd).2
      refine ⟨.invalidDigit, ?_⟩
      rw [readDigits_cons hd (by omega), readDigits_cons_of_none (toDigit_of_not_isDigit hlow)]
    · exact ⟨.invalidDigit, readDigits_cons_of_none (toDigit_of_not_isDigit hhigh) [low]⟩

/-- A character of two bytes is no digit. -/
theorem u8_wide {c : Char} (h : c.utf8Size = 2) : ∃ e, u8FromStrRadix16 [c] = .error e := by
  have hsign : c ≠ '+' := by
    intro heq
    subst heq
    exact absurd h (by decide)
  have hdigit : ¬ IsDigit c := fun hd => absurd ((utf8Size_of_isDigit hd).symm.trans h) (by decide)
  refine ⟨.invalidDigit, ?_⟩
  rw [u8_of_ne hsign, readDigits_cons_of_none (toDigit_of_not_isDigit hdigit)]

/-- A sign is one byte long too. -/
theorem utf8Size_high {c : Char} (h : IsDigit c ∨ c = '+') : c.utf8Size = 1 := by
  rcases h with hdigit | hsign
  · exact utf8Size_of_isDigit hdigit
  · rw [hsign]
    rfl

/-- Two characters of one byte are a slice of two. -/
theorem splitAt_pair {high low : Char} (hhigh : high.utf8Size = 1) (hlow : low.utf8Size = 1)
    (rest : List Char) : splitAt (high :: low :: rest) 2 = some ([high, low], rest) := by
  rw [splitAt_cons (by decide), hhigh, if_pos (by decide), splitAt_cons (by decide), hlow,
    if_pos (by decide), splitAt_zero]
  rfl

/-- A slice that ends inside a character: the first one is too long, or the second one may be. -/
theorem straddles_first {c : Char} {cs : List Char} (h : Straddles (c :: cs)) :
    2 < c.utf8Size ∨ c.utf8Size = 1 := by
  cases cs with
  | nil => exact Or.inl h
  | cons d after => exact h.imp_right And.left

/-- A slice of two characters of one byte ends between characters. -/
theorem not_straddles {c d : Char} (hc : c.utf8Size = 1) (hd : d.utf8Size = 1) {cs : List Char} :
    ¬ Straddles (c :: d :: cs) := by
  intro h
  change 2 < c.utf8Size ∨ c.utf8Size = 1 ∧ 1 < d.utf8Size at h
  omega

/-- What the first two bytes of a text can be: a pair that is read, a slice that panics, or a slice
that is not a number. -/
theorem read_cases {rest : List Char} {n : Nat} (h : byteLen rest = 2 * (n + 1)) :
    (∃ high low after, rest = high :: low :: after ∧ (IsDigit high ∨ high = '+') ∧ IsDigit low) ∨
    (Straddles rest ∧ splitAt rest 2 = none) ∨
    ¬ Straddles rest ∧
      (∃ text after e, splitAt rest 2 = some (text, after) ∧ u8FromStrRadix16 text = .error e) ∧
      ∀ high low after, rest = high :: low :: after →
        ¬ ((IsDigit high ∨ high = '+') ∧ IsDigit low) := by
  cases rest with
  | nil => cases h
  | cons c cs =>
    rw [byteLen_cons] at h
    rcases Nat.lt_or_ge 2 c.utf8Size with hwide | hnarrow
    · -- the slice ends inside the first character
      refine Or.inr (Or.inl ⟨?_, ?_⟩)
      · cases cs with
        | nil => exact hwide
        | cons d after => exact Or.inl hwide
      · rw [splitAt_cons (by decide), if_neg (Nat.not_le.mpr hwide)]
    · by_cases htwo : c.utf8Size = 2
      · -- the character is the slice
        obtain ⟨e, he⟩ := u8_wide htwo
        refine Or.inr (Or.inr ⟨fun hstraddles => ?_, ⟨[c], cs, e, ?_, he⟩, ?_⟩)
        · have := straddles_first hstraddles
          omega
        · rw [splitAt_cons (by decide), htwo, if_pos (by decide), Nat.sub_self, splitAt_zero]
          rfl
        · intro high low after heq hpair
          cases heq
          exact absurd ((utf8Size_high hpair.1).symm.trans htwo) (by decide)
      · -- two characters at least, the first of one byte
        have hone : c.utf8Size = 1 := by
          have := c.utf8Size_pos
          omega
        cases cs with
        | nil =>
          rw [byteLen_nil] at h
          omega
        | cons d after =>
          by_cases hd : d.utf8Size = 1
          · by_cases hpair : (IsDigit c ∨ c = '+') ∧ IsDigit d
            · exact Or.inl ⟨c, d, after, rfl, hpair.1, hpair.2⟩
            · obtain ⟨e, he⟩ := u8_pair_error hpair
              refine Or.inr (Or.inr ⟨not_straddles hone hd,
                ⟨[c, d], after, e, splitAt_pair hone hd after, he⟩, ?_⟩)
              intro high low after' heq
              cases heq
              exact hpair
          · have hdwide : 1 < d.utf8Size := by
              have := d.utf8Size_pos
              omega
            -- the slice ends inside the second character
            refine Or.inr (Or.inl ⟨Or.inr ⟨hone, hdwide⟩, ?_⟩)
            rw [splitAt_cons (by decide), hone, if_pos (by decide), splitAt_cons (by decide),
              if_neg (Nat.not_le.mpr hdwide)]
            rfl

/-! ## The loop -/

/-- The loop on what is left of the text, for `n` more bytes. -/
def decodeRest : Nat → List Char → Option (Option Bytes)
  | 0, _ => some (some [])
  | n + 1, rest => do
    let (text, after) ← splitAt rest 2
    match u8FromStrRadix16 text with
    | .error _ => some none
    | .ok byte => do
      let bytes ← decodeRest n after
      some (bytes.map (UInt8.ofNat byte :: ·))

/-- The loop by byte positions reads what is left of the text, slice by slice. -/
theorem decodeAt_append (n k : Nat) (before rest : List Char) (hbefore : byteLen before = 2 * k) :
    decodeAt (before ++ rest) ((List.range' k n).map (2 * ·)) = decodeRest n rest := by
  induction n generalizing k before rest with
  | zero => rfl
  | succ n ih =>
    -- the next slice starts where the text read so far ends
    have hslice : slice (before ++ rest) (2 * k) (2 * k + 2) = (splitAt rest 2).map Prod.fst := by
      rw [← hbefore]
      exact slice_append before rest 2
    rw [List.range'_succ, List.map_cons, decodeAt, decodeRest, hslice]
    cases hsplit : splitAt rest 2 with
    | none => rfl
    | some out =>
      obtain ⟨text, after⟩ := out
      obtain ⟨hrest, htext⟩ := splitAt_eq_some hsplit
      cases hbyte : u8FromStrRadix16 text with
      | error e => simp [hbyte]
      | ok byte =>
        have hnext := ih (k + 1) (before ++ text) after (by
          rw [byteLen_append, hbefore, htext]
          omega)
        rw [List.append_assoc, ← hrest] at hnext
        simp [hbyte, hnext]

theorem decodeRest_none {n : Nat} {rest : List Char} (h : splitAt rest 2 = none) :
    decodeRest (n + 1) rest = none := by
  rw [decodeRest, h]
  rfl

/-- A slice that is no number ends the loop with an error. -/
theorem decodeRest_error {n : Nat} {rest text after : List Char} {e : NumberError}
    (hsplit : splitAt rest 2 = some (text, after)) (h : u8FromStrRadix16 text = .error e) :
    decodeRest (n + 1) rest = some none := by
  rw [decodeRest, hsplit]
  simp [h]

/-- A pair that is read is the next byte. -/
theorem decodeRest_pair {n byte : Nat} {high low : Char} (hhigh : IsDigit high ∨ high = '+')
    (hlow : IsDigit low) (h : u8FromStrRadix16 [high, low] = .ok byte) (rest : List Char) :
    decodeRest (n + 1) (high :: low :: rest) =
      (decodeRest n rest).map fun bytes => bytes.map (UInt8.ofNat byte :: ·) := by
  rw [decodeRest, splitAt_pair (utf8Size_high hhigh) (utf8Size_of_isDigit hlow)]
  simp only [Option.bind_eq_bind, Option.bind_some, h]
  cases decodeRest n rest with
  | none => rfl
  | some bytes => rfl

theorem byteLen_pair {high low : Char} (hhigh : IsDigit high ∨ high = '+') (hlow : IsDigit low)
    (rest : List Char) : byteLen (high :: low :: rest) = 2 + byteLen rest := by
  rw [byteLen_cons, byteLen_cons, utf8Size_high hhigh, utf8Size_of_isDigit hlow]
  omega

/-! ## Where the loop ends -/

/-- A text that is read in pairs up to a straddled character panics. -/
theorem decodeRest_panics {n : Nat} {rest : List Char} (h : AfterPairs Straddles rest)
    (hlength : byteLen rest = 2 * n) : decodeRest n rest = none := by
  -- induction on the pairs in front of the straddled character
  induction h generalizing n with
  | @here rest hstraddles =>
    cases n with
    | zero =>
      cases rest with
      | nil => exact absurd hstraddles id
      | cons c cs =>
        have := c.utf8Size_pos
        rw [byteLen_cons] at hlength
        omega
    | succ n =>
      rcases read_cases hlength with ⟨high, low, after, heq, hhigh, hlow⟩ | ⟨-, hsplit⟩ |
        ⟨hnot, -⟩
      · rw [heq] at hstraddles
        exact absurd hstraddles (not_straddles (utf8Size_high hhigh) (utf8Size_of_isDigit hlow))
      · exact decodeRest_none hsplit
      · exact absurd hstraddles hnot
  | @pair high low rest hhigh hlow h ih =>
    rw [byteLen_pair hhigh hlow] at hlength
    cases n with
    | zero => omega
    | succ n =>
      obtain ⟨byte, hbyte, -⟩ := u8_pair hhigh hlow
      rw [decodeRest_pair hhigh hlow hbyte, ih (by omega)]
      rfl

/-- What the reader of hex takes has digits only. -/
theorem isDigit_of_decode {cs : List Char} {bytes : Bytes} (h : Hex.decode cs = some bytes) :
    ∀ c ∈ cs, IsDigit c := by
  induction cs using Hex.decode.induct generalizing bytes with
  | case1 =>
    intro c hc
    cases hc
  | case2 c => cases h
  | case3 high low rest ih =>
    rw [Hex.decode] at h
    obtain ⟨d, hd, h⟩ := Option.bind_eq_some_iff.mp h
    obtain ⟨l, hl, h⟩ := Option.bind_eq_some_iff.mp h
    obtain ⟨bytes', hrest, -⟩ := Option.bind_eq_some_iff.mp h
    intro c hc
    rcases List.mem_cons.mp hc with hc | hc
    · rw [hc]
      exact Option.isSome_of_eq_some hd
    · rcases List.mem_cons.mp hc with hc | hc
      · rw [hc]
        exact Option.isSome_of_eq_some hl
      · exact ih hrest c hc

theorem not_isDigit_plus : ¬ IsDigit '+' := by
  unfold IsDigit
  decide

/-- A text that is read to its end is read as written if it has no sign. -/
theorem decodeRest_parses {n : Nat} {rest : List Char} (h : Parses rest)
    (hlength : byteLen rest = 2 * n) :
    ∃ bytes, decodeRest n rest = some (some bytes) ∧
      ('+' ∉ rest → Hex.decode rest = some bytes) := by
  unfold Parses at h
  -- on the derivation, which follows the pairs that are read
  induction h generalizing n with
  | @here rest hnil =>
    subst hnil
    cases n with
    | zero => exact ⟨[], rfl, fun _ => rfl⟩
    | succ n => cases hlength
  | @pair high low rest hhigh hlow h ih =>
    rw [byteLen_pair hhigh hlow] at hlength
    cases n with
    | zero => omega
    | succ n =>
      obtain ⟨byte, hbyte, hdecode⟩ := u8_pair hhigh hlow
      obtain ⟨bytes, hrest, hbytes⟩ := @ih n (by omega)
      refine ⟨UInt8.ofNat byte :: bytes, ?_, fun hplus => ?_⟩
      · rw [decodeRest_pair hhigh hlow hbyte, hrest]
        rfl
      · simp only [List.mem_cons, not_or] at hplus
        rw [hdecode (Ne.symm hplus.1), hbytes hplus.2.2]
        rfl

/-- Any other text is rejected, and is not one of digits. -/
theorem decodeRest_rejects {n : Nat} {rest : List Char} (hlength : byteLen rest = 2 * n)
    (hpanics : ¬ AfterPairs Straddles rest) (hparses : ¬ Parses rest) :
    decodeRest n rest = some none ∧ Hex.decode rest = none := by
  induction n generalizing rest with
  | zero =>
    cases rest with
    | nil => exact absurd (.here rfl) hparses
    | cons c cs =>
      have := c.utf8Size_pos
      rw [byteLen_cons] at hlength
      omega
  | succ n ih =>
    rcases read_cases hlength with ⟨high, low, after, heq, hhigh, hlow⟩ | ⟨hstraddles, -⟩ |
      ⟨-, ⟨text, after, e, hsplit, he⟩, hother⟩
    · subst heq
      rw [byteLen_pair hhigh hlow] at hlength
      obtain ⟨hrest, hdecode⟩ := @ih after (by omega) (fun h => hpanics (.pair hhigh hlow h))
        (fun h => hparses (.pair hhigh hlow h))
      obtain ⟨byte, hbyte, hpair⟩ := u8_pair hhigh hlow
      refine ⟨by rw [decodeRest_pair hhigh hlow hbyte, hrest]; rfl, ?_⟩
      cases hall : Hex.decode (high :: low :: after) with
      | none => rfl
      | some bytes =>
        -- the text would be one of digits
        have hdigit := isDigit_of_decode hall high List.mem_cons_self
        have hsign : high ≠ '+' := fun heq => not_isDigit_plus (heq ▸ hdigit)
        rw [hpair hsign, hdecode] at hall
        cases hall
    · exact absurd (.here hstraddles) hpanics
    · refine ⟨decodeRest_error hsplit he, ?_⟩
      cases hall : Hex.decode rest with
      | none => rfl
      | some bytes =>
        have hdigit := isDigit_of_decode hall
        match rest with
        | [] => cases hlength
        | [c] => cases hall
        | high :: low :: after =>
          exact absurd ⟨Or.inl (hdigit high (by simp)), hdigit low (by simp)⟩
            (hother high low after rfl)

/-! ## Ids -/

/-- What the reader of hex takes is of even length. -/
theorem even_of_decode {cs : List Char} {bytes : Bytes} (h : Hex.decode cs = some bytes) :
    byteLen cs % 2 = 0 := by
  have hdigit := isDigit_of_decode h
  induction cs using Hex.decode.induct generalizing bytes with
  | case1 => rfl
  | case2 c => cases h
  | case3 high low rest ih =>
    rw [Hex.decode] at h
    obtain ⟨d, -, h⟩ := Option.bind_eq_some_iff.mp h
    obtain ⟨l, -, h⟩ := Option.bind_eq_some_iff.mp h
    obtain ⟨bytes', hrest, -⟩ := Option.bind_eq_some_iff.mp h
    have heven := ih hrest fun c hc => hdigit c (by simp [hc])
    rw [byteLen_pair (Or.inl (hdigit high (by simp))) (hdigit low (by simp))]
    omega

/-- What `decode_hex` takes is of even length. -/
theorem even_of_parses {cs : List Char} (h : Parses cs) : byteLen cs % 2 = 0 := by
  unfold Parses at h
  induction h with
  | here hnil => rw [hnil]; rfl
  | pair hhigh hlow h ih =>
    rw [byteLen_pair hhigh hlow]
    omega

/-- `decode_hex` refuses a text of odd length, and reads any other from the front. -/
theorem decodeHex_eq (s : String) : decodeHex s =
    if byteLen s.toList % 2 ≠ 0 then some none
    else decodeRest (byteLen s.toList / 2) s.toList := by
  have hloop := decodeAt_append (byteLen s.toList / 2) 0 [] s.toList rfl
  rw [List.nil_append, ← List.range_eq_range'] at hloop
  simp only [decodeHex, length_asBytes, hloop]

/-- What `decode_hex` does with a text. -/
theorem decodeHex_cases (s : String) :
    (Panics s.toList ∧ decodeHex s = none) ∨
    (¬ Panics s.toList ∧ Parses s.toList ∧ ∃ bytes, decodeHex s = some (some bytes) ∧
      ('+' ∉ s.toList → Hex.decode s.toList = some bytes)) ∨
    (¬ Panics s.toList ∧ ¬ Parses s.toList ∧ decodeHex s = some none ∧
      Hex.decode s.toList = none) := by
  rw [decodeHex_eq]
  by_cases heven : byteLen s.toList % 2 = 0
  · have hlength : byteLen s.toList = 2 * (byteLen s.toList / 2) := by omega
    rw [if_neg (not_not_intro heven)]
    by_cases hstraddles : AfterPairs Straddles s.toList
    · exact Or.inl ⟨⟨heven, hstraddles⟩, decodeRest_panics hstraddles hlength⟩
    · refine Or.inr ?_
      have hpanics : ¬ Panics s.toList := fun h => hstraddles h.2
      by_cases hparses : Parses s.toList
      · exact Or.inl ⟨hpanics, hparses, decodeRest_parses hparses hlength⟩
      · exact Or.inr ⟨hpanics, hparses, decodeRest_rejects hlength hstraddles hparses⟩
  · refine Or.inr (Or.inr ⟨fun h => heven h.1, fun h => heven (even_of_parses h), ?_, ?_⟩)
    · rw [if_pos heven]
    · exact Option.eq_none_iff_forall_ne_some.mpr fun bytes h => heven (even_of_decode h)

theorem decode_of_plus {cs : List Char} (h : '+' ∈ cs) : Hex.decode cs = none :=
  Option.eq_none_iff_forall_ne_some.mpr fun _ hsome =>
    not_isDigit_plus (isDigit_of_decode hsome '+' h)

/-- `decode_hex` is the reader of hex exactly on texts that mislead it nowhere. -/
theorem decodeHex_exact_iff (s : String) :
    decodeHex s = some (Hex.decode s.toList) ↔ Unmistaken s.toList := by
  rcases decodeHex_cases s with ⟨hpanics, heq⟩ | ⟨hpanics, hparses, bytes, heq, hdecode⟩ |
    ⟨hpanics, hparses, heq, hdecode⟩
  · rw [heq]
    exact ⟨fun h => (Option.some_ne_none _ h.symm).elim, fun h => absurd hpanics h.1⟩
  · refine ⟨fun h => ⟨hpanics, fun _ hplus => ?_⟩, fun h => ?_⟩
    · rw [heq, decode_of_plus hplus] at h
      cases h
    · rw [heq, hdecode (h.2 hparses)]
  · rw [heq, hdecode]
    exact ⟨fun _ => ⟨hpanics, fun h => absurd h hparses⟩, fun _ => rfl⟩

/-- Stripping one prefix first does not change what trimming leaves. -/
theorem trim0x_strip0x (text : List Char) : trim0x text = trim0x (strip0x text) := by
  unfold strip0x
  split
  · rfl
  · rfl

/-- A text with another prefix left is not one of digits. -/
theorem decode_strip0x {text : List Char} (h : trim0x text ≠ strip0x text) :
    Hex.decode (strip0x text) = none := by
  refine Option.eq_none_iff_forall_ne_some.mpr fun bytes hsome => h ?_
  rw [trim0x_strip0x]
  apply trim0x_eq_self
  intro c hc
  exact Option.isSome_iff_exists.mp (isDigit_of_decode hsome c hc)

/-- `revoke_hex` trims all prefixes before it decodes. -/
theorem revokeHex_eq {lib : BiscuitAuth} (gate : BiscuitGate lib) (s : String) :
    gate.revokeHex s =
      (decodeHex (String.ofList (trim0x s.toList))).map gate.withRevoked := by
  unfold BiscuitGate.revokeHex
  cases decodeHex (String.ofList (trim0x s.toList)) with
  | none => rfl
  | some out =>
    cases out with
    | none => rfl
    | some id => rfl

/-- `decode_hex` reads a text as written exactly if no slice of it ends inside a character and no
sign is read, and `revoke_hex` if moreover what it reads has no second prefix. -/
theorem revocation_ids_exact_iff {lib : BiscuitAuth} (gate : BiscuitGate lib) (s : String) :
    (decodeHex s = some (Hex.decode s.toList) ↔ Unmistaken s.toList) ∧
    (gate.revokeHex s = some (gate.revoking s) ↔
      Unmistaken (trim0x s.toList) ∧
        (Parses (trim0x s.toList) → trim0x s.toList = strip0x s.toList)) := by
  refine ⟨decodeHex_exact_iff s, ?_⟩
  have hcases := decodeHex_cases (String.ofList (trim0x s.toList))
  rw [String.toList_ofList] at hcases
  rw [revokeHex_eq, BiscuitGate.revoking]
  rcases hcases with ⟨hpanics, heq⟩ | ⟨hpanics, hparses, bytes, heq, hdecode⟩ |
    ⟨hpanics, hparses, heq, hdecode⟩
  · rw [heq]
    exact ⟨fun h => (Option.some_ne_none _ h.symm).elim, fun h => absurd hpanics h.1.1⟩
  · -- an id is read from what follows every prefix
    rw [heq, Option.map_some]
    refine ⟨fun h => ?_, fun h => ?_⟩
    · -- an id went in, so one is written
      cases hwritten : Hex.decode (strip0x s.toList) with
      | none =>
        rw [hwritten] at h
        cases h
      | some id =>
        have hprefix : trim0x s.toList = strip0x s.toList := by
          by_contra hne
          rw [decode_strip0x hne] at hwritten
          cases hwritten
        refine ⟨⟨hpanics, fun _ hplus => ?_⟩, fun _ => hprefix⟩
        rw [← hprefix, decode_of_plus hplus] at hwritten
        cases hwritten
    · rw [← h.2 hparses, hdecode (h.1.2 hparses)]
  · -- nothing is read, and nothing is written
    have hwritten : Hex.decode (strip0x s.toList) = none := by
      by_cases hprefix : trim0x s.toList = strip0x s.toList
      · rw [← hprefix, hdecode]
      · exact decode_strip0x hprefix
    rw [heq, hwritten]
    exact ⟨fun _ => ⟨⟨hpanics, fun h => absurd h hparses⟩, fun h => absurd h hparses⟩, fun _ => rfl⟩

/-- A sign is read as part of an id, a slice inside a character panics, and a second prefix goes
too. -/
theorem sign_is_read : ¬ ((∀ s, decodeHex s = some (Hex.decode s.toList)) ∧
    ∀ (lib : BiscuitAuth) (gate : BiscuitGate lib) (s : String),
      gate.revokeHex s = some (gate.revoking s)) ∧
    (decodeHex "+5" = some (some [5]) ∧ Hex.decode "+5".toList = none) ∧
    decodeHex "aéb" = none ∧
    ∀ (lib : BiscuitAuth) (gate : BiscuitGate lib),
      gate.revokeHex "0x0xab" =
        some (.ok (), { gate with revoked := gate.revoked.insert [0xab] }) ∧
      gate.revoking "0x0xab" = (.error .malformed, gate) := by
  have hsign : decodeHex "+5" = some (some [5]) := by
    rw [decodeHex_eq]
    decide
  have hpanic : decodeHex "aéb" = none := by
    rw [decodeHex_eq]
    decide
  have htwice : decodeHex (String.ofList (trim0x "0x0xab".toList)) = some (some [0xab]) := by
    rw [decodeHex_eq, String.toList_ofList]
    decide
  refine ⟨fun h => ?_, ⟨hsign, by decide⟩, hpanic, fun lib gate => ⟨?_, ?_⟩⟩
  · -- the sign is taken for a digit
    have hexact := h.1 "+5"
    rw [hsign] at hexact
    exact absurd hexact (by decide)
  · rw [revokeHex_eq, htwice]
    rfl
  · -- one prefix is stripped, the second stays
    have hnone : Hex.decode (strip0x "0x0xab".toList) = none := by decide
    rw [BiscuitGate.revoking, hnone]
    rfl

end CkbController.Paymaster
