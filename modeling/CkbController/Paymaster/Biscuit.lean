import CkbController.Lib.Datalog
import CkbController.Paymaster.Token

/-!
# Biscuit sponsor tokens

The production gate. The authority signs a block of three facts and one check; the gate supplies
the time and a policy, and reads the capability back out of the verified facts. Signing, the text
form and revocation identifiers are those of `biscuit-auth` (`BiscuitAuth`); what its datalog says
about the check, the policy and the queries is evaluated here, over the facts of the authority
block and of the authorizer, as every block sees them.

Times pass through `SystemTime`, whose seconds are signed: adding to the epoch panics from 2^63
on, so `issue` and `authorize` may panic (`none`).
-/

namespace CkbController.Paymaster

open ByteCodec Checks Datalog

/-! ## Times -/

/-- Whole seconds from the epoch. -/
structure SystemTime where
  secs : Int
  fits : -2 ^ 63 ≤ secs ∧ secs < 2 ^ 63

def unixEpoch : SystemTime := ⟨0, by decide⟩

/-- `time + Duration::from_secs(secs)`. -/
def SystemTime.add (time : SystemTime) (secs : U64) : Option SystemTime :=
  if h : time.secs + secs.toNat < 2 ^ 63 then
    some ⟨time.secs + secs.toNat, by have := time.fits; omega⟩
  else none

def toSystemTime (unixSecs : U64) : Option SystemTime := unixEpoch.add unixSecs

/-- `duration_since(UNIX_EPOCH)`, in seconds; an error before the epoch. -/
def SystemTime.durationSinceEpoch (time : SystemTime) : Option U64 :=
  if 0 ≤ time.secs then some (BitVec.ofNat 64 time.secs.toNat) else none

/-- The clock panics from `2 ^ 63` seconds on. -/
theorem toSystemTime_eq_none {secs : U64} : toSystemTime secs = none ↔ 2 ^ 63 ≤ secs.toNat := by
  unfold toSystemTime SystemTime.add unixEpoch
  by_cases h : (0 : Int) + secs.toNat < 2 ^ 63
  · rw [dif_pos h]
    constructor
    · intro hnone
      cases hnone
    · intro hle
      omega
  · rw [dif_neg h]
    exact ⟨fun _ => by omega, fun _ => rfl⟩

/-- **Round trip** of a time. -/
theorem durationSinceEpoch_toSystemTime {secs : U64} {time : SystemTime}
    (h : toSystemTime secs = some time) : time.durationSinceEpoch = some secs := by
  unfold toSystemTime SystemTime.add unixEpoch at h
  split at h
  · cases h
    show (if (0 : Int) ≤ 0 + secs.toNat then
      some (BitVec.ofNat 64 ((0 : Int) + secs.toNat).toNat) else none) = some secs
    rw [if_pos (by omega), Int.zero_add, Int.toNat_natCast, BitVec.ofNat_toNat, BitVec.setWidth_eq]
  · cases h

/-! ## The token format -/

inductive Value where
  | str (s : String)
  | date (secs : U64)
deriving DecidableEq

/-- `Term::from(time)`, which unwraps. -/
def Value.ofSystemTime (time : SystemTime) : Option Value := time.durationSinceEpoch.map .date

/-- The time of a token is its own seconds. -/
theorem ofSystemTime_toSystemTime {secs : U64} {time : SystemTime}
    (h : toSystemTime secs = some time) : Value.ofSystemTime time = some (.date secs) := by
  unfold Value.ofSystemTime
  rw [durationSinceEpoch_toSystemTime h]
  rfl

/-- `a <= b`. Values of different types do not compare. -/
def Value.le : Value → Value → Bool
  | .date a, .date b => a.toNat ≤ b.toNat
  | _, _ => false

structure Block where
  facts : List (Fact Value)
  checks : List (Query Value)
deriving DecidableEq

/-- What `biscuit-auth` does apart from evaluating: sign a block, write the token as text, read
one back under a root key, and name its blocks for revocation. -/
structure BiscuitAuth where
  KeyPair : Type
  PublicKey : Type
  Biscuit : Type
  build : Block → KeyPair → Option Biscuit
  toBase64 : Biscuit → Option String
  fromBase64 : String → PublicKey → Option Biscuit
  authority : Biscuit → Block
  attenuations : Biscuit → List Block
  revocationIdentifiers : Biscuit → List Bytes

def scopeFact : String := "sponsor"
def subjectFact : String := "subject"
def expiresFact : String := "expires"

/-- `check if expires($e), time($t), $t <= $e`. -/
def expiryCheck : Query Value where
  body := [⟨"expires", [.var "e"]⟩, ⟨"time", [.var "t"]⟩]
  guards := [("t", "e")]

/-- `allow if sponsor({scope})`. -/
def sponsorPolicy (scope : String) : Query Value where
  body := [⟨"sponsor", [.const (.str scope)]⟩]
  guards := []

def sponsorBlock (scope subject : String) (expires : Value) : Block where
  facts := [⟨scopeFact, [.str scope]⟩, ⟨subjectFact, [.str subject]⟩, ⟨expiresFact, [expires]⟩]
  checks := [expiryCheck]

variable {lib : BiscuitAuth}

/-! ## Issuing -/

structure BiscuitAuthority (lib : BiscuitAuth) where
  root : lib.KeyPair

def BiscuitAuthority.issue (authority : BiscuitAuthority lib) (cap : Capability) :
    Option (Except AuthzError String) := do
  let time ← toSystemTime cap.notAfter
  let expires ← Value.ofSystemTime time
  pure do
    let token ← okOr (lib.build (sponsorBlock cap.scope cap.subject expires) authority.root)
      .malformed
    okOr (lib.toBase64 token) .malformed

/-! ## Authorizing -/

structure Authorizer where
  authority : Block
  attenuations : List Block
  facts : List (Fact Value)
  policy : Query Value

namespace Authorizer

/-- What policies, queries and the checks of the authority block see. -/
def visible (a : Authorizer) : List (Fact Value) := a.authority.facts ++ a.facts

/-- Every check holds and the policy allows. A later block sees its own facts as well. -/
def authorize (a : Authorizer) : Bool :=
  a.authority.checks.all (fun check => check.holds Value.le a.visible) &&
    a.attenuations.all (fun block =>
      block.checks.all fun check => check.holds Value.le (a.visible ++ block.facts)) &&
    a.policy.holds Value.le a.visible

/-- `data($s) <- name($s)`, with exactly one answer. -/
def queryExactlyOne (a : Authorizer) (name : String) : Option Value :=
  match Query.answers a.visible { body := [⟨name, [.var "s"]⟩], guards := [] } "s" with
  | [value] => some value
  | _ => none

/-- The verified facts, read back for audit. -/
def readCapability (a : Authorizer) : Option (Except AuthzError Capability) :=
  match a.queryExactlyOne scopeFact with
  | some (.str scope) =>
    match a.queryExactlyOne subjectFact with
    | some (.str subject) =>
      match a.queryExactlyOne expiresFact with
      | some (.date secs) => do
        let expires ← toSystemTime secs
        pure do
          let notAfter ← okOr expires.durationSinceEpoch .malformed
          pure { scope, subject, notAfter }
      | _ => some (.error .malformed)
    | _ => some (.error .malformed)
  | _ => some (.error .malformed)

end Authorizer

structure BiscuitGate (lib : BiscuitAuth) where
  rootPubkey : lib.PublicKey
  revoked : List Bytes

namespace BiscuitGate

def authorize (gate : BiscuitGate lib) (token : Bytes) (now : U64) (requiredScope : String) :
    Option (Except AuthzError Capability) :=
  match fromUtf8 token with
  | none => some (.error .malformed)
  | some tokenStr =>
    match lib.fromBase64 tokenStr gate.rootPubkey with
    | none => some (.error .badSignature)
    | some biscuit =>
      if (lib.revocationIdentifiers biscuit).any fun id => gate.revoked.contains id then
        some (.error .denied)
      else do
        let time ← toSystemTime now
        let time ← Value.ofSystemTime time
        let authorizer : Authorizer :=
          { authority := lib.authority biscuit
            attenuations := lib.attenuations biscuit
            facts := [⟨"time", [time]⟩]
            policy := sponsorPolicy requiredScope }
        if authorizer.authorize then authorizer.readCapability
        else some (.error .denied)

end BiscuitGate

/-! ## What the facts say

Each predicate holds of one thing, so an atom has one fact to match. -/

section Facts

variable {scope subject requiredScope : String} {expires now : U64}

/-- The authorizer of a token that was issued and not attenuated. -/
def issuedAuthorizer (scope subject : String) (expires now : U64) (requiredScope : String) :
    Authorizer where
  authority := sponsorBlock scope subject (.date expires)
  attenuations := []
  facts := [⟨"time", [.date now]⟩]
  policy := sponsorPolicy requiredScope

theorem visible_issued : (issuedAuthorizer scope subject expires now requiredScope).visible =
    [⟨"sponsor", [.str scope]⟩, ⟨"subject", [.str subject]⟩, ⟨"expires", [.date expires]⟩,
      ⟨"time", [.date now]⟩] := rfl

/-- The check that the issuer put into the token compares the times, the last second included. -/
theorem expiryCheck_holds :
    expiryCheck.holds Value.le (issuedAuthorizer scope subject expires now requiredScope).visible =
      decide (now.toNat ≤ expires.toNat) := by
  have hsolutions : solutions (issuedAuthorizer scope subject expires now requiredScope).visible
      expiryCheck.body [] = [[("t", .date now), ("e", .date expires)]] := by
    rw [visible_issued]
    unfold expiryCheck
    rw [solutions_of_unique (f := ⟨"expires", [.date expires]⟩) (by simp)]
    show solutions _ [⟨"time", [.var "t"]⟩] [("e", Value.date expires)] ++ [] = _
    rw [solutions_of_unique (f := ⟨"time", [.date now]⟩) (by simp)]
    rfl
  unfold Query.holds
  rw [hsolutions]
  simp [expiryCheck, guardHolds, List.lookup_cons, Value.le]

/-- The policy of the gate compares the scopes. -/
theorem sponsorPolicy_holds :
    (sponsorPolicy requiredScope).holds Value.le
        (issuedAuthorizer scope subject expires now requiredScope).visible =
      decide (scope = requiredScope) := by
  unfold Query.holds sponsorPolicy
  rw [visible_issued, solutions_of_unique (f := ⟨"sponsor", [.str scope]⟩) (by simp)]
  show (((if Value.str requiredScope = Value.str scope then some [] else none).toList.flatMap
    (solutions _ [])).any fun _ => true) = _
  by_cases h : scope = requiredScope
  · subst h
    rw [if_pos rfl, decide_eq_true rfl]
    rfl
  · have hne : Value.str requiredScope ≠ Value.str scope := by
      intro heq
      cases heq
      exact h rfl
    rw [if_neg hne, decide_eq_false h]
    rfl

/-- **An issued token is authorized** for its own scope until it expires. -/
theorem authorize_issued :
    (issuedAuthorizer scope subject expires now requiredScope).authorize = true ↔
      scope = requiredScope ∧ now.toNat ≤ expires.toNat := by
  have hchecks : (issuedAuthorizer scope subject expires now requiredScope).authorize =
      (expiryCheck.holds Value.le
          (issuedAuthorizer scope subject expires now requiredScope).visible && true && true &&
        (sponsorPolicy requiredScope).holds Value.le
          (issuedAuthorizer scope subject expires now requiredScope).visible) := rfl
  rw [hchecks, expiryCheck_holds, sponsorPolicy_holds]
  simp only [Bool.and_true, Bool.and_eq_true, decide_eq_true_eq]
  exact and_comm

/-- A fact that the token states once is found. -/
theorem queryExactlyOne_issued {name : String} {value : Value}
    (h : ((issuedAuthorizer scope subject expires now requiredScope).visible.filter fun f =>
      f.name = name) = [⟨name, [value]⟩]) :
    (issuedAuthorizer scope subject expires now requiredScope).queryExactlyOne name =
      some value := by
  unfold Authorizer.queryExactlyOne
  rw [answers_of_unique h]

/-- The facts give back the capability, the date once more through `SystemTime`. -/
theorem readCapability_issued (h : expires.toNat < 2 ^ 63) :
    (issuedAuthorizer scope subject expires now requiredScope).readCapability =
      some (.ok { scope, subject, notAfter := expires }) := by
  have hscope : (issuedAuthorizer scope subject expires now requiredScope).queryExactlyOne
      scopeFact = some (.str scope) :=
    queryExactlyOne_issued (by rw [visible_issued]; simp [scopeFact])
  have hsubject : (issuedAuthorizer scope subject expires now requiredScope).queryExactlyOne
      subjectFact = some (.str subject) :=
    queryExactlyOne_issued (by rw [visible_issued]; simp [subjectFact])
  have hexpires : (issuedAuthorizer scope subject expires now requiredScope).queryExactlyOne
      expiresFact = some (.date expires) :=
    queryExactlyOne_issued (by rw [visible_issued]; simp [expiresFact])
  unfold Authorizer.readCapability
  rw [hscope, hsubject, hexpires]
  show (toSystemTime expires >>= fun time => some (okOr time.durationSinceEpoch
    AuthzError.malformed >>= fun notAfter => .ok (Capability.mk scope subject notAfter))) = _
  -- an expiry below 2^63 is a time the source can hold
  cases htime : toSystemTime expires with
  | none =>
    have := toSystemTime_eq_none.mp htime
    omega
  | some time =>
    show some (okOr time.durationSinceEpoch AuthzError.malformed >>= fun notAfter =>
      .ok (Capability.mk scope subject notAfter)) = _
    rw [durationSinceEpoch_toSystemTime htime]
    rfl

end Facts

/-! ## Issued tokens -/

/-- What signing and reading do to one block: it is signed, written, and read back unchanged under
the matching root key, without attenuations. -/
def BiscuitAuth.Reads (lib : BiscuitAuth) (root : lib.KeyPair) (rootPubkey : lib.PublicKey)
    (block : Block) : Prop :=
  ∃ biscuit token, lib.build block root = some biscuit ∧ lib.toBase64 biscuit = some token ∧
    lib.fromBase64 token rootPubkey = some biscuit ∧ lib.authority biscuit = block ∧
    lib.attenuations biscuit = []

/-- No block of the token is on the revocation list. -/
def BiscuitGate.Unrevoked (gate : BiscuitGate lib) (token : String) : Prop :=
  ∀ biscuit, lib.fromBase64 token gate.rootPubkey = some biscuit →
    ∀ id ∈ lib.revocationIdentifiers biscuit, id ∉ gate.revoked

/-- A time that the clock cannot hold is not issued. -/
theorem issue_panics (authority : BiscuitAuthority lib) {cap : Capability}
    (h : 2 ^ 63 ≤ cap.notAfter.toNat) : authority.issue cap = none := by
  unfold BiscuitAuthority.issue
  rw [toSystemTime_eq_none.mpr h]
  rfl

/-- Issuing panics from 2^63 on, and otherwise gives a token that reads back. -/
theorem issue_eq {authority : BiscuitAuthority lib} {gate : BiscuitGate lib} {cap : Capability}
    (hreads : lib.Reads authority.root gate.rootPubkey
      (sponsorBlock cap.scope cap.subject (.date cap.notAfter))) :
    (2 ^ 63 ≤ cap.notAfter.toNat ∧ authority.issue cap = none) ∨
    (cap.notAfter.toNat < 2 ^ 63 ∧ ∃ token biscuit, authority.issue cap = some (.ok token) ∧
      lib.fromBase64 token gate.rootPubkey = some biscuit ∧
      lib.authority biscuit = sponsorBlock cap.scope cap.subject (.date cap.notAfter) ∧
      lib.attenuations biscuit = []) := by
  obtain ⟨biscuit, token, hbuild, htext, hread, hblock, hplain⟩ := hreads
  cases htime : toSystemTime cap.notAfter with
  | none =>
    -- the expiry overflows `SystemTime`, and the addition panics
    have hlarge := toSystemTime_eq_none.mp htime
    exact Or.inl ⟨hlarge, issue_panics authority hlarge⟩
  | some time =>
    have hsmall : cap.notAfter.toNat < 2 ^ 63 := by
      refine Nat.lt_of_not_le fun hle => ?_
      cases htime.symm.trans (toSystemTime_eq_none.mpr hle)
    have hvalue := ofSystemTime_toSystemTime htime
    unfold BiscuitAuthority.issue
    rw [htime]
    -- each fallible step of `issue` meets what the library promises of it
    refine Or.inr ⟨hsmall, token, biscuit, ?_, hread, hblock, hplain⟩
    show (Value.ofSystemTime time >>= fun expires => _) = _
    rw [hvalue]
    show some (okOr (lib.build _ authority.root) AuthzError.malformed >>= fun token => _) = _
    rw [hbuild]
    show some (okOr (lib.toBase64 biscuit) AuthzError.malformed) = _
    rw [htext]
    rfl

/-- **The gate on an issued token**: a panic from 2^63 on, and otherwise the capability, if its
scope is the required one and it has not expired. -/
theorem authorize_token {gate : BiscuitGate lib} {token : String} {biscuit : lib.Biscuit}
    {cap : Capability} {now : U64} {requiredScope : String}
    (hread : lib.fromBase64 token gate.rootPubkey = some biscuit)
    (hblock : lib.authority biscuit = sponsorBlock cap.scope cap.subject (.date cap.notAfter))
    (hplain : lib.attenuations biscuit = []) (hunrevoked : gate.Unrevoked token)
    (hsmall : cap.notAfter.toNat < 2 ^ 63) :
    gate.authorize (asBytes token) now requiredScope =
      if 2 ^ 63 ≤ now.toNat then none
      else if cap.scope = requiredScope ∧ now.toNat ≤ cap.notAfter.toNat then some (.ok cap)
      else some (.error .denied) := by
  have hlisted : ((lib.revocationIdentifiers biscuit).any fun id => gate.revoked.contains id) =
      false := by
    rw [List.any_eq_false]
    intro id hid
    have := hunrevoked biscuit hread id hid
    simpa using this
  -- the text parses, and no id of the token is revoked
  unfold BiscuitGate.authorize
  rw [fromUtf8_eq_some.mpr rfl]
  simp only [hread, hlisted, Bool.false_eq_true, if_false]
  cases htime : toSystemTime now with
  | none =>
    rw [if_pos (toSystemTime_eq_none.mp htime)]
    rfl
  | some time =>
    have hnow : ¬ 2 ^ 63 ≤ now.toNat := by
      intro hle
      cases htime.symm.trans (toSystemTime_eq_none.mpr hle)
    -- the datalog of one authority block and no attenuations
    have hvalue := ofSystemTime_toSystemTime htime
    rw [if_neg hnow]
    show (Value.ofSystemTime time >>= fun time => _) = _
    rw [hvalue, hblock, hplain]
    show (if (issuedAuthorizer cap.scope cap.subject cap.notAfter now requiredScope).authorize =
      true then (issuedAuthorizer cap.scope cap.subject cap.notAfter now
        requiredScope).readCapability else some (.error .denied)) = _
    rw [readCapability_issued hsmall]
    exact if_congr authorize_issued rfl rfl

/-! ## Two gates -/

/-- A gate that answers with the capability or a denial agrees with any gate that grants it under
the same condition. -/
theorem grants_agree {cap : Capability} {grant : Prop} [Decidable grant]
    {other : Except AuthzError Capability} (hother : ∀ c, other = .ok c ↔ c = cap ∧ grant) :
    ∃ result : Except AuthzError Capability,
      (if grant then some (.ok cap) else some (.error .denied)) = some result ∧
        ∀ c, (result = .ok c ↔ other = .ok c) ∧ (result = .ok c → c = cap) := by
  by_cases hgrant : grant
  · refine ⟨.ok cap, if_pos hgrant, ?_⟩
    intro c
    rw [hother, Except.ok.injEq]
    exact ⟨⟨fun h => ⟨h.symm, hgrant⟩, fun h => h.1.symm⟩, fun h => h.symm⟩
  · refine ⟨.error .denied, if_neg hgrant, ?_⟩
    intro c
    rw [hother]
    constructor
    · constructor
      · intro h
        cases h
      · intro h
        exact absurd h.2 hgrant
    · intro h
      cases h

/-- **Where the gates are interchangeable**: exactly below 2^63, for the expiry and for the time. -/
theorem gates_agree_iff {lib : BiscuitAuth} {authority : BiscuitAuthority lib}
    {gate : BiscuitGate lib} {edAuthority : Ed25519Authority} {edGate : Ed25519Gate}
    {cap : Capability} {now : U64} {requiredScope : String}
    (hscope : (asBytes cap.scope).length < 65536) (hsubject : (asBytes cap.subject).length < 65536)
    (hreads : lib.Reads authority.root gate.rootPubkey
      (sponsorBlock cap.scope cap.subject (.date cap.notAfter)))
    (hunrevoked : ∀ token, authority.issue cap = some (.ok token) → gate.Unrevoked token)
    (hmatch : ∀ message, edGate.verify message (edAuthority.sign message) = true) :
    (∃ token result, authority.issue cap = some (.ok token) ∧
      gate.authorize (asBytes token) now requiredScope = some result ∧
      ∀ c, (result = .ok c ↔
          edGate.authorize (edAuthority.issue cap) now requiredScope = .ok c) ∧
        (result = .ok c → c = cap)) ↔
    cap.notAfter.toNat < 2 ^ 63 ∧ now.toNat < 2 ^ 63 := by
  have hed : ∀ c, edGate.authorize (edAuthority.issue cap) now requiredScope = .ok c ↔
      c = cap ∧ cap.scope = requiredScope ∧ now.toNat ≤ cap.notAfter.toNat :=
    fun _ => Ed25519Gate.authorize_issue_eq_ok (hmatch _) hscope hsubject
  rcases issue_eq hreads with ⟨hlarge, hissue⟩ | ⟨hsmall, token, biscuit, hissue, hread, hblock,
    hplain⟩
  · constructor
    · -- an expiry from 2^63 on: there is no token to compare
      rintro ⟨token, result, hok, -⟩
      cases hissue.symm.trans hok
    · rintro ⟨hsmall, -⟩
      omega
  · have hauthorize := @authorize_token lib gate token biscuit cap now requiredScope hread hblock
      hplain (hunrevoked token hissue) hsmall
    constructor
    · -- a gate that answers did not panic on the clock
      rintro ⟨token', result, hok, hresult, -⟩
      refine ⟨hsmall, Nat.lt_of_not_le fun hlarge => ?_⟩
      cases hissue.symm.trans hok
      rw [if_pos hlarge] at hauthorize
      cases hauthorize.symm.trans hresult
    · rintro ⟨-, hnow⟩
      rw [if_neg (Nat.not_le.mpr hnow)] at hauthorize
      obtain ⟨result, hresult, hagree⟩ := grants_agree hed
      exact ⟨token, result, hissue, hauthorize.trans hresult, hagree⟩

/-! ### One token -/

/-- The block of `sampleCapability`, and what writing and reading do to it. -/
def sampleBlock : Block :=
  sponsorBlock sampleCapability.scope sampleCapability.subject (.date sampleCapability.notAfter)

def sampleText : String := "EoYBChxzcG9uc29y"

def sampleBiscuits : BiscuitAuth where
  KeyPair := Unit
  PublicKey := Unit
  Biscuit := Block
  build := fun block _ => some block
  toBase64 := fun _ => some sampleText
  fromBase64 := fun text _ => if text = sampleText then some sampleBlock else none
  authority := fun block => block
  attenuations := fun _ => []
  revocationIdentifiers := fun _ => [[1, 2, 3]]

theorem sampleBiscuits_fromBase64 : sampleBiscuits.fromBase64 sampleText () = some sampleBlock := by
  show (if sampleText = sampleText then some sampleBlock else none) = _
  rw [if_pos rfl]

theorem gates_agree_sample :
    ∃ token result, (⟨()⟩ : BiscuitAuthority sampleBiscuits).issue sampleCapability =
        some (.ok token) ∧
      (⟨(), []⟩ : BiscuitGate sampleBiscuits).authorize (asBytes token) 1700000000 "sponsor" =
        some result ∧
      ∀ c, (result = .ok c ↔ (⟨fun _ _ => true⟩ : Ed25519Gate).authorize
          (sampleAuthority.issue sampleCapability) 1700000000 "sponsor" = .ok c) ∧
        (result = .ok c → c = sampleCapability) :=
  (@gates_agree_iff sampleBiscuits ⟨()⟩ ⟨(), []⟩ sampleAuthority ⟨fun _ _ => true⟩
    sampleCapability 1700000000 "sponsor" (by decide +kernel) (by decide +kernel)
    ⟨sampleBlock, sampleText, rfl, rfl, sampleBiscuits_fromBase64, rfl, rfl⟩
    (fun _ _ _ _ _ _ => List.not_mem_nil) (fun _ => rfl)).mpr ⟨by decide, by decide⟩

/-- A token that should never expire cannot be issued, and no token can be checked that late. -/
theorem biscuit_panics :
    (⟨()⟩ : BiscuitAuthority sampleBiscuits).issue
        { sampleCapability with notAfter := BitVec.allOnes 64 } = none ∧
      (⟨(), []⟩ : BiscuitGate sampleBiscuits).authorize (asBytes sampleText)
        (BitVec.allOnes 64) "sponsor" = none := by
  constructor
  · exact issue_panics _ (by decide)
  · have h := @authorize_token sampleBiscuits ⟨(), []⟩ sampleText sampleBlock sampleCapability
      (BitVec.allOnes 64) "sponsor" sampleBiscuits_fromBase64 rfl rfl
      (fun _ _ _ _ => List.not_mem_nil) (by decide)
    rw [if_pos (by decide)] at h
    exact h

end CkbController.Paymaster
