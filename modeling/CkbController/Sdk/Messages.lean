import CkbController.Ckb.Encoding
import CkbController.GameRules.Rules
import CkbController.Sdk.Agreement

/-!
# The messages that keys sign

One session key signs transactions and game intents, one owner key signs transactions and session
authorizations. The three messages are digests of three kinds of byte strings: a molecule table,
headed by its own length, and two layouts of fixed widths behind a domain. The domains read as a
length that neither layout has, so no string is of two kinds.

* `preimage_injective` — a signed string has one kind, and determines what is signed;
* `digest_separates` — equal messages say the same, or exhibit a collision of the hash.
-/

namespace CkbController.Sdk

open ByteCodec Molecule SessionLock GameRules

/-- What is signed of a transaction. -/
def signedRaw (tx : Transaction) : RawTransaction := { tx.raw with cellDeps := [] }

/-- A message of one of the three kinds. Molecule writes what fits a 32-bit size. -/
inductive Message (P : Platform) where
  | transaction (tx : Transaction) (fits : (P.rawSlice (signedRaw tx)).length < 2 ^ 32)
  | sessionAuth (scriptHash : Byte32) (revocationEpoch : U64) (params : ByteArr 96)
  | intent (gameId : Byte32) (hash : Byte20) (points nonce : U64)

namespace Message

variable {P : Platform}

def preimage : Message P → Bytes
  | .transaction tx _ => P.rawSlice (signedRaw tx)
  | .sessionAuth scriptHash revocationEpoch params =>
    sessionAuthPreimage scriptHash revocationEpoch params.toList
  | .intent gameId hash points nonce =>
    intentDomain ++ gameId.toList ++ hash.toList ++ toLe points ++ toLe nonce

/-- What is signed. -/
def digest : Message P → Byte32
  | .transaction tx _ => Sdk.txMessage P tx
  | .sessionAuth scriptHash revocationEpoch params =>
    SessionLock.sessionAuthMessage P scriptHash revocationEpoch params.toList
  | .intent gameId hash points nonce => intentMessage P gameId hash points nonce

/-- Every digest is the hash of a preimage. -/
theorem digest_eq (m : Message P) : m.digest = P.blake2b m.preimage := by
  cases m with
  | transaction tx fits => rfl
  | sessionAuth scriptHash revocationEpoch params => rfl
  | intent gameId hash points nonce => rfl

/-- The same kind with the same fields; transactions up to their cell deps. -/
inductive Same : Message P → Message P → Prop where
  | transaction {tx tx' : Transaction} {fits : (P.rawSlice (signedRaw tx)).length < 2 ^ 32}
      {fits' : (P.rawSlice (signedRaw tx')).length < 2 ^ 32} (raw : signedRaw tx = signedRaw tx') :
      Same (.transaction tx fits) (.transaction tx' fits')
  | sessionAuth (scriptHash : Byte32) (revocationEpoch : U64) (params : ByteArr 96) :
      Same (.sessionAuth scriptHash revocationEpoch params)
        (.sessionAuth scriptHash revocationEpoch params)
  | intent (gameId : Byte32) (hash : Byte20) (points nonce : U64) :
      Same (.intent gameId hash points nonce) (.intent gameId hash points nonce)

/-! ## Layouts -/

/-- Both domains start with `ckb-`, which reads as this number. -/
theorem readNumber_domain (rest : Bytes) :
    readNumber (99 :: 107 :: 98 :: 45 :: rest) = 761424739 := by
  simp [readNumber, leNat]

section Layout

variable {scriptHash gameId : Byte32} {epoch points nonce : U64} {params : ByteArr 96}
  {hash : Byte20} {m : Message P}

/-- Neither layout is as long as its first four bytes say. -/
theorem readNumber_sessionAuth_ne (h : m = .sessionAuth scriptHash epoch params) :
    readNumber m.preimage ≠ m.preimage.length := by
  have hlength : m.preimage.length = 166 := by
    rw [h]
    simp [preimage, sessionAuthPreimage, SessionLock.sessionAuthDomain]
  have hread : readNumber m.preimage = 761424739 := by
    rw [h]
    exact readNumber_domain _
  rw [hlength, hread]
  decide

/-- No intent starts with its own length, as a molecule table does. -/
theorem readNumber_intent_ne (h : m = .intent gameId hash points nonce) :
    readNumber m.preimage ≠ m.preimage.length := by
  have hlength : m.preimage.length = 97 := by
    rw [h]
    simp [preimage, intentDomain]
  have hread : readNumber m.preimage = 761424739 := by
    rw [h]
    exact readNumber_domain _
  rw [hlength, hread]
  decide

end Layout

/-- An authorization is determined by its preimage. -/
theorem sessionAuth_injective {scriptHash scriptHash' : Byte32} {epoch epoch' : U64}
    {params params' : ByteArr 96}
    (h : preimage (P := P) (.sessionAuth scriptHash epoch params) =
      preimage (P := P) (.sessionAuth scriptHash' epoch' params')) :
    scriptHash = scriptHash' ∧ epoch = epoch' ∧ params = params' := by
  obtain ⟨h, hparams⟩ := List.append_inj' h
    (by rw [List.Vector.toList_length, List.Vector.toList_length])
  obtain ⟨h, hepoch⟩ := List.append_inj' h (by rw [toLe_length, toLe_length])
  exact ⟨List.Vector.toList_injective (List.append_cancel_left h),
    toLe_injective (by decide) hepoch, List.Vector.toList_injective hparams⟩

/-- An intent is determined by its preimage. -/
theorem intent_injective {gameId gameId' : Byte32} {hash hash' : Byte20}
    {points points' nonce nonce' : U64}
    (h : preimage (P := P) (.intent gameId hash points nonce) =
      preimage (P := P) (.intent gameId' hash' points' nonce')) :
    gameId = gameId' ∧ hash = hash' ∧ points = points' ∧ nonce = nonce' := by
  obtain ⟨h, hnonce⟩ := List.append_inj' h (by rw [toLe_length, toLe_length])
  obtain ⟨h, hpoints⟩ := List.append_inj' h (by rw [toLe_length, toLe_length])
  obtain ⟨h, hhash⟩ := List.append_inj' h
    (by rw [List.Vector.toList_length, List.Vector.toList_length])
  exact ⟨List.Vector.toList_injective (List.append_cancel_left h),
    List.Vector.toList_injective hhash, toLe_injective (by decide) hpoints,
    toLe_injective (by decide) hnonce⟩

/-- The two layouts have different lengths. -/
theorem sessionAuth_ne_intent {scriptHash gameId : Byte32} {epoch points nonce : U64}
    {params : ByteArr 96} {hash : Byte20} :
    preimage (P := P) (.sessionAuth scriptHash epoch params) ≠
      preimage (P := P) (.intent gameId hash points nonce) := by
  intro h
  have hlength := congrArg List.length h
  simp [preimage, sessionAuthPreimage, SessionLock.sessionAuthDomain, intentDomain] at hlength

/-- **One string, one message.** -/
theorem preimage_injective (hP : P.WritesTables) {m m' : Message P}
    (h : m.preimage = m'.preimage) : Same m m' := by
  -- a transaction is headed by its length, and the other two are not
  have hheaded : ∀ {tx : Transaction} {m : Message P},
      (P.rawSlice (signedRaw tx)).length < 2 ^ 32 → P.rawSlice (signedRaw tx) = m.preimage →
        readNumber m.preimage = m.preimage.length := by
    intro tx m fits h
    rw [← h]
    exact hP.headed _ fits
  cases m with
  | transaction tx fits =>
    cases m' with
    | transaction tx' fits' => exact .transaction (hP.injective _ _ fits h)
    | sessionAuth => exact absurd (hheaded fits h) (readNumber_sessionAuth_ne rfl)
    | intent => exact absurd (hheaded fits h) (readNumber_intent_ne rfl)
  | sessionAuth scriptHash epoch params =>
    cases m' with
    | transaction tx' fits' => exact absurd (hheaded fits' h.symm) (readNumber_sessionAuth_ne rfl)
    | sessionAuth scriptHash' epoch' params' =>
      obtain ⟨rfl, rfl, rfl⟩ := sessionAuth_injective h
      exact .sessionAuth scriptHash epoch params
    | intent => exact absurd h sessionAuth_ne_intent
  | intent gameId hash points nonce =>
    cases m' with
    | transaction tx' fits' => exact absurd (hheaded fits' h.symm) (readNumber_intent_ne rfl)
    | sessionAuth => exact absurd h.symm sessionAuth_ne_intent
    | intent gameId' hash' points' nonce' =>
      obtain ⟨rfl, rfl, rfl, rfl⟩ := intent_injective h
      exact .intent gameId hash points nonce

end Message

/-- **Signing domains are separate.** Two messages, each of a transaction, a session authorization
or an intent, are equal only if they are of one kind and say the same (transactions up to their
cell deps), or if the strings they are digests of are a collision of the hash. The lock and the
SDK compute the same transaction message and the same authorization message. -/
theorem digest_separates (P : Platform) (hP : P.WritesTables) (m m' : Message P) :
    (m.digest = m'.digest → Message.Same m m' ∨
      m.preimage ≠ m'.preimage ∧ P.blake2b m.preimage = P.blake2b m'.preimage) ∧
    (∀ vm : Vm, Sdk.txMessage P vm.rtx.tx = SessionLock.txMessage P vm) ∧
    ∀ (scriptHash : Byte32) (revocationEpoch : U64) (params : ByteArr 96),
      Sdk.sessionAuthMessage P scriptHash revocationEpoch params.toList =
        SessionLock.sessionAuthMessage P scriptHash revocationEpoch params.toList := by
  refine ⟨?_, fun vm => txMessage_eq vm,
    fun scriptHash epoch params => sessionAuthMessage_eq scriptHash epoch params.toList⟩
  intro hdigest
  by_cases h : m.preimage = m'.preimage
  · exact Or.inl (Message.preimage_injective hP h)
  · rw [m.digest_eq, m'.digest_eq] at hdigest
    exact Or.inr ⟨h, hdigest⟩

/-! ### Two transactions with one message -/

def sampleSpend (cellDeps : List CellDep) : Transaction where
  raw :=
    { version := 0, cellDeps, headerDeps := [], inputs := [⟨0, ⟨sampleHash 1, 0⟩⟩]
      outputs := [⟨1000, sampleShop, none⟩], outputsData := [[]] }
  witnesses := []

theorem fits_sampleSpend (cellDeps : List CellDep) :
    (Platform.sample.rawSlice (signedRaw (sampleSpend cellDeps))).length < 2 ^ 32 := by
  show (Platform.sample.rawSlice (sampleSpend []).raw).length < 2 ^ 32
  decide +kernel

/-- The sample transaction, with some cell deps. -/
def sampleMessage (cellDeps : List CellDep) : Message .sample :=
  .transaction (sampleSpend cellDeps) (fits_sampleSpend cellDeps)

theorem digest_separates_deps :
    Message.Same (sampleMessage []) (sampleMessage [⟨⟨sampleHash 2, 0⟩, 0⟩]) ∨
      (sampleMessage []).preimage ≠ (sampleMessage [⟨⟨sampleHash 2, 0⟩, 0⟩]).preimage ∧
        Platform.sample.blake2b (sampleMessage []).preimage =
          Platform.sample.blake2b (sampleMessage [⟨⟨sampleHash 2, 0⟩, 0⟩]).preimage :=
  (digest_separates .sample (Platform.writesTables_molecule _ _) (sampleMessage [])
    (sampleMessage [⟨⟨sampleHash 2, 0⟩, 0⟩])).1 rfl

end CkbController.Sdk
