import CkbController.Lib.Checks
import CkbController.Lib.Prefixed
import CkbController.Paymaster.Authz

/-!
# Ed25519 sponsor tokens

The token format of the reference gate: the canonical bytes of a capability, then a signature
over them. The gate parses first and verifies what it parsed, so what is signed is a prefix of the
token whose length the token itself names. The issuer writes lengths modulo 2^16.

* `parse_eq_ok` — `parse` finds the capability whose canonical bytes the token starts with;
* `authorized_was_issued` — when signatures cannot be forged, the gate returns only capabilities
  that were issued, with the scope it asked for and before they expire.
-/

namespace CkbController.Paymaster

open ByteCodec Checks

def sigLen : Nat := 64

namespace Capability

def canonical (cap : Capability) : Bytes :=
  prefixed (asBytes cap.scope) ++ (prefixed (asBytes cap.subject) ++ toLe cap.notAfter)

/-! ## Parsing -/

/-- Moves past `n` bytes. -/
def take (buf : Bytes) (i n : Nat) : Except AuthzError Nat := do
  rejectIf (buf.length < i + n) .malformed
  pure (i + n)

/-- A length, and the position after it. -/
def readU16 (buf : Bytes) (i : Nat) : Except AuthzError (Nat × Nat) := do
  rejectIf (buf.length < i + 2) .malformed
  pure ((ofLe 16 (slice buf i (i + 2))).toNat, i + 2)

/-- A string behind its length, and the position after it. -/
def readString (buf : Bytes) (i : Nat) : Except AuthzError (String × Nat) := do
  let (len, start) ← readU16 buf i
  let i ← take buf start len
  let s ← okOr (fromUtf8 (slice buf start i)) .malformed
  pure (s, i)

/-- The capability that `token` starts with, and where the signature begins. -/
def parse (token : Bytes) : Except AuthzError (Capability × Nat) := do
  let (scope, i) ← readString token 0
  let (subject, i) ← readString token i
  rejectIf (token.length < i + 8) .malformed
  let notAfter := ofLe 64 (slice token i (i + 8))
  pure ({ scope, subject, notAfter }, i + 8)

/-- A length is read where two bytes are left. -/
theorem readU16_eq_ok {buf : Bytes} {i len start : Nat} :
    readU16 buf i = .ok (len, start) ↔
      i + 2 ≤ buf.length ∧ len = (ofLe 16 (slice buf i (i + 2))).toNat ∧ start = i + 2 := by
  unfold readU16
  rw [rejectIf_bind_eq_ok, Nat.not_lt]
  simp only [pure, Except.pure, Except.ok.injEq, Prod.mk.injEq]
  exact and_congr_right fun _ => and_congr eq_comm eq_comm

/-- The cursor moves within the token only. -/
theorem take_eq_ok {buf : Bytes} {i n j : Nat} :
    take buf i n = .ok j ↔ i + n ≤ buf.length ∧ j = i + n := by
  unfold take
  rw [rejectIf_bind_eq_ok, Nat.not_lt]
  simp only [pure, Except.pure, Except.ok.injEq]
  exact and_congr_right fun _ => eq_comm

/-- A string is read where its bytes stand behind their length, which did not wrap. -/
theorem readString_eq_ok {buf : Bytes} {i j : Nat} {s : String} :
    readString buf i = .ok (s, j) ↔
      (asBytes s).length < 2 ^ 16 ∧ j = i + (prefixed (asBytes s)).length ∧ j ≤ buf.length ∧
        slice buf i j = prefixed (asBytes s) := by
  have hwidth : i + (prefixed (asBytes s)).length = i + 2 + (asBytes s).length := by
    rw [prefixed_length]
    omega
  unfold readString
  rw [bind_eq_ok, hwidth]
  constructor
  · -- the length read is the length of the string
    rintro ⟨⟨len, start⟩, hlen, hrest⟩
    obtain ⟨-, hvalue, rfl⟩ := readU16_eq_ok.mp hlen
    obtain ⟨k, hk, hrest⟩ := bind_eq_ok.mp hrest
    obtain ⟨hend, rfl⟩ := take_eq_ok.mp hk
    obtain ⟨s', hs', heq⟩ := bind_eq_ok.mp hrest
    cases heq
    have hbytes : asBytes s = slice buf (i + 2) (i + 2 + len) :=
      fromUtf8_eq_some.mp (okOr_eq_ok.mp hs')
    have hlength : (asBytes s).length = len := by
      rw [hbytes, slice_length]
      omega
    have hshort : (asBytes s).length < 2 ^ 16 := hlength ▸ hvalue ▸ BitVec.isLt _
    subst hlength
    exact ⟨hshort, rfl, hend, (slice_eq_prefixed_iff hshort hend).mpr ⟨hvalue.symm, hbytes.symm⟩⟩
  · -- the prefix and the bytes are where the reader looks for them
    rintro ⟨hshort, rfl, hend, hslice⟩
    obtain ⟨hvalue, hbytes⟩ := (slice_eq_prefixed_iff hshort hend).mp hslice
    refine ⟨_, readU16_eq_ok.mpr ⟨by omega, hvalue.symm, rfl⟩, ?_⟩
    refine bind_eq_ok.mpr ⟨_, take_eq_ok.mpr ⟨hend, rfl⟩, ?_⟩
    exact bind_eq_ok.mpr ⟨s, okOr_eq_ok.mpr (fromUtf8_eq_some.mpr hbytes.symm), rfl⟩

/-- A string that was written with a length that fits is read back. -/
theorem readString_append {s : String} (hshort : (asBytes s).length < 2 ^ 16)
    (before after : Bytes) : readString (before ++ (prefixed (asBytes s) ++ after)) before.length =
      .ok (s, before.length + (prefixed (asBytes s)).length) := by
  refine readString_eq_ok.mpr ⟨hshort, rfl, ?_, slice_append_middle before _ after rfl rfl⟩
  rw [List.length_append, List.length_append]
  omega

theorem take_eq_slice (b : Bytes) (n : Nat) : b.take n = slice b 0 n := by
  simp [slice]

theorem length_canonical (cap : Capability) : cap.canonical.length =
    (prefixed (asBytes cap.scope)).length + (prefixed (asBytes cap.subject)).length + 8 := by
  rw [canonical, List.length_append, List.length_append, toLe_length, Nat.add_assoc]

/-- An issued token is parsed back, unless a length wraps. -/
theorem parse_canonical_append {cap : Capability} (hscope : (asBytes cap.scope).length < 2 ^ 16)
    (hsubject : (asBytes cap.subject).length < 2 ^ 16) (rest : Bytes) :
    parse (cap.canonical ++ rest) = .ok (cap, cap.canonical.length) := by
  have htoken : cap.canonical ++ rest = prefixed (asBytes cap.scope) ++
      (prefixed (asBytes cap.subject) ++ (toLe cap.notAfter ++ rest)) := by
    simp only [canonical, List.append_assoc]
  have hlength := congrArg List.length htoken
  rw [List.length_append, length_canonical] at hlength
  have hfirst := readString_append hscope []
    (prefixed (asBytes cap.subject) ++ (toLe cap.notAfter ++ rest))
  have hsecond := readString_append hsubject (prefixed (asBytes cap.scope))
    (toLe cap.notAfter ++ rest)
  have htail (j : Nat)
      (hj : j = (prefixed (asBytes cap.scope)).length + (prefixed (asBytes cap.subject)).length) :
      slice (cap.canonical ++ rest) j (j + 8) = toLe cap.notAfter := by
    rw [htoken, ← List.append_assoc, hj]
    exact slice_append_middle _ _ rest List.length_append (by rw [toLe_length])
  rw [List.nil_append, List.length_nil, Nat.zero_add, ← htoken] at hfirst
  rw [← htoken] at hsecond hlength
  refine bind_eq_ok.mpr ⟨_, hfirst, bind_eq_ok.mpr ⟨_, hsecond,
    rejectIf_bind_eq_ok.mpr ⟨by omega, ?_⟩⟩⟩
  show Except.ok (Capability.mk _ _ (ofLe 64 _), _) = _
  rw [htail _ rfl, ofLe_toLe (by decide), length_canonical]

/-- **What `parse` accepts.** A token that starts with the canonical bytes of a capability whose
lengths do not wrap; the signature begins right after them. -/
theorem parse_eq_ok {token : Bytes} {cap : Capability} {n : Nat} :
    parse token = .ok (cap, n) ↔
      (asBytes cap.scope).length < 2 ^ 16 ∧ (asBytes cap.subject).length < 2 ^ 16 ∧
        n ≤ token.length ∧ token.take n = cap.canonical := by
  constructor
  · intro h
    obtain ⟨⟨scope, i⟩, hscope, hrest⟩ := bind_eq_ok.mp h
    obtain ⟨⟨subject, j⟩, hsubject, hrest⟩ := bind_eq_ok.mp hrest
    obtain ⟨hend, heq⟩ := rejectIf_bind_eq_ok.mp hrest
    cases heq
    -- the three slices are adjacent
    obtain ⟨hscopeShort, -, -, hscopeSlice⟩ := readString_eq_ok.mp hscope
    obtain ⟨hsubjectShort, hj, -, hsubjectSlice⟩ := readString_eq_ok.mp hsubject
    refine ⟨hscopeShort, hsubjectShort, Nat.not_lt.mp hend, ?_⟩
    have htail : toLe (ofLe 64 (slice token j (j + 8))) = slice token j (j + 8) :=
      toLe_ofLe_slice (by decide) (by omega) rfl
    unfold canonical
    rw [htail, ← hscopeSlice, ← hsubjectSlice, slice_append_slice (by omega) (by omega),
      slice_append_slice (by omega) (by omega), take_eq_slice]
  · rintro ⟨hscope, hsubject, hend, htake⟩
    have hn : n = cap.canonical.length := by
      rw [← htake, List.length_take, Nat.min_eq_left hend]
    have hparse := parse_canonical_append hscope hsubject (token.drop n)
    rw [← hn, ← htake, List.take_append_drop] at hparse
    exact hparse

/-- Canonical bytes with honest lengths are canonical bytes of one capability only. -/
theorem eq_of_canonical_eq {cap cap' : Capability} (hscope : (asBytes cap.scope).length < 2 ^ 16)
    (hsubject : (asBytes cap.subject).length < 2 ^ 16) (h : cap.canonical = cap'.canonical) :
    cap = cap' := by
  obtain ⟨hs, ht, hn⟩ := prefixed_pair_inj hscope hsubject (by rw [toLe_length, toLe_length]) h
  obtain ⟨scope, subject, notAfter⟩ := cap
  obtain ⟨scope', subject', notAfter'⟩ := cap'
  obtain rfl := asBytes_injective hs
  obtain rfl := asBytes_injective ht
  obtain rfl := toLe_injective (by decide) hn
  rfl

end Capability

/-! ## Issuing and verifying -/

structure Ed25519Authority where
  sign : Bytes → ByteArr 64

def Ed25519Authority.issue (authority : Ed25519Authority) (cap : Capability) : Bytes :=
  cap.canonical ++ (authority.sign cap.canonical).toList

structure Ed25519Gate where
  verify : Bytes → ByteArr 64 → Bool

namespace Ed25519Gate

variable (gate : Ed25519Gate)

/-- The bytes after the capability, as a signature. -/
def signature (token : Bytes) (sigStart : Nat) : Except AuthzError (ByteArr 64) := do
  rejectIf (token.length < sigStart + sigLen) .malformed
  pure (ByteArr.ofBytes 64 (slice token sigStart (sigStart + sigLen)))

def authorize (token : Bytes) (now : U64) (requiredScope : String) :
    Except AuthzError Capability := do
  let (cap, sigStart) ← Capability.parse token
  let sig ← signature token sigStart
  rejectIf (¬ gate.verify (token.take sigStart) sig = true) .badSignature
  rejectIf (cap.scope ≠ requiredScope) .wrongScope
  rejectIf (cap.notAfter.toNat < now.toNat) .expired
  pure cap

def toGate : Gate := ⟨gate.authorize⟩

variable {gate}

theorem signature_eq_ok {token : Bytes} {sigStart : Nat} {sig : ByteArr 64} :
    signature token sigStart = .ok sig ↔ sigStart + sigLen ≤ token.length ∧
      sig = ByteArr.ofBytes 64 (slice token sigStart (sigStart + sigLen)) := by
  unfold signature
  rw [rejectIf_bind_eq_ok, Nat.not_lt]
  simp only [pure, Except.pure, Except.ok.injEq]
  exact and_congr_right fun _ => eq_comm

theorem authorize_eq_ok {token : Bytes} {now : U64} {requiredScope : String} {cap : Capability} :
    gate.authorize token now requiredScope = .ok cap ↔
      ∃ sigStart sig, Capability.parse token = .ok (cap, sigStart) ∧
        signature token sigStart = .ok sig ∧ gate.verify (token.take sigStart) sig = true ∧
        cap.scope = requiredScope ∧ now.toNat ≤ cap.notAfter.toNat := by
  unfold authorize
  rw [bind_eq_ok]
  constructor
  · rintro ⟨⟨cap', sigStart⟩, hparse, hrest⟩
    obtain ⟨sig, hsig, hrest⟩ := bind_eq_ok.mp hrest
    obtain ⟨hverify, hrest⟩ := rejectIf_bind_eq_ok.mp hrest
    obtain ⟨hscope, hrest⟩ := rejectIf_bind_eq_ok.mp hrest
    obtain ⟨hexpired, heq⟩ := rejectIf_bind_eq_ok.mp hrest
    cases heq
    exact ⟨sigStart, sig, hparse, hsig, not_not.mp hverify, not_not.mp hscope,
      Nat.not_lt.mp hexpired⟩
  · rintro ⟨sigStart, sig, hparse, hsig, hverify, hscope, hnow⟩
    refine ⟨_, hparse, bind_eq_ok.mpr ⟨sig, hsig, ?_⟩⟩
    refine rejectIf_bind_eq_ok.mpr ⟨not_not.mpr hverify, ?_⟩
    exact rejectIf_bind_eq_ok.mpr ⟨not_not.mpr hscope,
      rejectIf_bind_eq_ok.mpr ⟨Nat.not_lt.mpr hnow, rfl⟩⟩

/-- An issued token is accepted for its scope until it expires, unless a length wraps. -/
theorem authorize_issue {authority : Ed25519Authority} {cap : Capability} {now : U64}
    (hverify : gate.verify cap.canonical (authority.sign cap.canonical) = true)
    (hscope : (asBytes cap.scope).length < 2 ^ 16)
    (hsubject : (asBytes cap.subject).length < 2 ^ 16) (hnow : now.toNat ≤ cap.notAfter.toNat) :
    gate.authorize (authority.issue cap) now cap.scope = .ok cap := by
  refine authorize_eq_ok.mpr ⟨cap.canonical.length, authority.sign cap.canonical,
    Capability.parse_canonical_append hscope hsubject _, signature_eq_ok.mpr ⟨?_, ?_⟩, ?_, rfl,
    hnow⟩
  · rw [Ed25519Authority.issue, List.length_append, List.Vector.toList_length]
    exact Nat.le_refl _
  · have hslice : slice (authority.issue cap) cap.canonical.length
        (cap.canonical.length + sigLen) = (authority.sign cap.canonical).toList :=
      slice_append_last _ _ rfl (by rw [List.Vector.toList_length]; rfl)
    rw [hslice, ByteArr.ofBytes_toList]
  · rw [Ed25519Authority.issue, List.take_left]
    exact hverify

/-- The gate on a token of the matching authority: its own capability, if the scope is the required
one and it has not expired. -/
theorem authorize_issue_eq_ok {authority : Ed25519Authority} {cap c : Capability} {now : U64}
    {requiredScope : String}
    (hverify : gate.verify cap.canonical (authority.sign cap.canonical) = true)
    (hscope : (asBytes cap.scope).length < 2 ^ 16)
    (hsubject : (asBytes cap.subject).length < 2 ^ 16) :
    gate.authorize (authority.issue cap) now requiredScope = .ok c ↔
      c = cap ∧ cap.scope = requiredScope ∧ now.toNat ≤ cap.notAfter.toNat := by
  constructor
  · intro h
    obtain ⟨sigStart, sig, hparse, -, -, hrequired, hnow⟩ := authorize_eq_ok.mp h
    have hissued := Capability.parse_canonical_append hscope hsubject
      (authority.sign cap.canonical).toList
    cases hissued.symm.trans hparse
    exact ⟨rfl, hrequired, hnow⟩
  · rintro ⟨rfl, rfl, hnow⟩
    exact authorize_issue hverify hscope hsubject hnow

end Ed25519Gate

/-- **Tokens cannot be forged.** When every byte string that verifies is one the authority signed
for an issued capability, whatever the lengths of its strings, a capability that the gate returns
was issued as it is, has the required scope and has not expired. -/
theorem authorized_was_issued (gate : Ed25519Gate) (issued : List Capability)
    (hideal : ∀ message signature, gate.verify message signature = true →
      message ∈ issued.map Capability.canonical)
    (token : Bytes) (now : U64) (requiredScope : String) (cap : Capability)
    (h : gate.authorize token now requiredScope = .ok cap) :
    cap ∈ issued ∧ cap.scope = requiredScope ∧ now.toNat ≤ cap.notAfter.toNat := by
  obtain ⟨sigStart, sig, hparse, -, hverify, hscope, hnow⟩ := Ed25519Gate.authorize_eq_ok.mp h
  obtain ⟨hscopeShort, hsubjectShort, -, htake⟩ := Capability.parse_eq_ok.mp hparse
  have hsigned := hideal _ _ hverify
  rw [htake] at hsigned
  obtain ⟨cap', hissued, hcanonical⟩ := List.mem_map.mp hsigned
  obtain rfl := Capability.eq_of_canonical_eq hscopeShort hsubjectShort hcanonical.symm
  exact ⟨hissued, hscope, hnow⟩

/-! ### One issued token -/

def sampleCapability : Capability := ⟨"sponsor", "player-1", 2000000000⟩

/-- Signs everything alike; `sampleEd25519Gate` knows what was signed. -/
def sampleAuthority : Ed25519Authority := ⟨fun _ => ⟨List.replicate 64 7, rfl⟩⟩

def sampleEd25519Gate : Ed25519Gate :=
  ⟨fun message _ => decide (message ∈ [sampleCapability].map Capability.canonical)⟩

theorem sampleToken_authorized :
    sampleEd25519Gate.authorize (sampleAuthority.issue sampleCapability) 1700000000 "sponsor" =
      .ok sampleCapability := by
  have hsigned : sampleCapability.canonical ∈ [sampleCapability].map Capability.canonical :=
    List.mem_singleton.mpr rfl
  exact Ed25519Gate.authorize_issue (decide_eq_true hsigned) (by decide +kernel)
    (by decide +kernel) (by decide)

theorem authorized_was_issued_sample : sampleCapability ∈ [sampleCapability] ∧
    sampleCapability.scope = "sponsor" ∧
    (1700000000 : U64).toNat ≤ sampleCapability.notAfter.toNat :=
  authorized_was_issued sampleEd25519Gate [sampleCapability] (fun _ _ h => of_decide_eq_true h)
    (sampleAuthority.issue sampleCapability) 1700000000 "sponsor" sampleCapability
    sampleToken_authorized

/-! ## Which tokens work

The lengths are written modulo 2^16 and nothing checks them. -/

/-- **An issued token works exactly when no length wraps.** -/
theorem issued_works_iff {gate : Ed25519Gate} {authority : Ed25519Authority}
    (hmatch : ∀ message, gate.verify message (authority.sign message) = true) (cap : Capability) :
    (∀ (suffix : Bytes) (now : U64), now.toNat ≤ cap.notAfter.toNat →
      Capability.parse (cap.canonical ++ suffix) = .ok (cap, cap.canonical.length) ∧
        gate.authorize (authority.issue cap) now cap.scope = .ok cap) ↔
    (asBytes cap.scope).length < 2 ^ 16 ∧ (asBytes cap.subject).length < 2 ^ 16 := by
  constructor
  · intro hworks
    obtain ⟨hparse, -⟩ := hworks [] 0 (Nat.zero_le _)
    obtain ⟨hscope, hsubject, -, -⟩ := Capability.parse_eq_ok.mp hparse
    exact ⟨hscope, hsubject⟩
  · rintro ⟨hscope, hsubject⟩ suffix now hnow
    exact ⟨Capability.parse_canonical_append hscope hsubject suffix,
      Ed25519Gate.authorize_issue (hmatch _) hscope hsubject hnow⟩

theorem issued_works_sample :
    Capability.parse (sampleCapability.canonical ++ [1, 2, 3]) =
        .ok (sampleCapability, sampleCapability.canonical.length) ∧
      (⟨fun _ _ => true⟩ : Ed25519Gate).authorize (sampleAuthority.issue sampleCapability)
        1700000000 "sponsor" = .ok sampleCapability :=
  (@issued_works_iff ⟨fun _ _ => true⟩ sampleAuthority (fun _ => rfl) sampleCapability).mpr
    ⟨by decide +kernel, by decide +kernel⟩ [1, 2, 3] 1700000000 (by decide)

/-- The scope is 65536 letters, which the length field writes as none. -/
def longScope : Capability := ⟨String.ofList (List.replicate (2 ^ 16) 'a'), "player-1", 0⟩

/-- The token is not parsed as what it was issued for. -/
theorem longScope_not_parsed :
    Capability.parse (longScope.canonical ++ []) ≠ .ok (longScope, longScope.canonical.length) := by
  intro hparse
  obtain ⟨hscope, -, -, -⟩ := Capability.parse_eq_ok.mp hparse
  have hlength : (asBytes longScope.scope).length = 2 ^ 16 * 1 := by
    show (asBytes (String.ofList (List.replicate (2 ^ 16) 'a'))).length = _
    have hwidth : ∀ c ∈ List.replicate (2 ^ 16) 'a', (String.utf8EncodeChar c).length = 1 := by
      intro c hc
      rw [(List.mem_replicate.mp hc).2]
      rfl
    have hall := @length_flatMap_width Char String.utf8EncodeChar 1 _ hwidth
    rw [List.length_replicate] at hall
    rw [asBytes_ofList]
    exact hall
  omega

end CkbController.Paymaster
