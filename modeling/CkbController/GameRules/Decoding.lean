import CkbController.Lib.Usize
import CkbController.Ckb.Encoding
import CkbController.GameRules.Codec

/-!
# The decoders, for a given word size

`decode` and `decode_batch` once more, now with everything in them that could panic: the size
computed from a count, the ranges, the conversions to arrays, the allocation. The rules are
compiled for two targets, the 64-bit script and the 32-bit browser build, so the width of `usize`
is a parameter. Without a panic they compute what `GameState.decode` and `decodeBatch` compute
(`decodeAt_eq`, `decodeBatchAt_eq`).
-/

namespace CkbController.GameRules

open ByteCodec Checks

/-! ## The decoders -/

/-- `size_of::<PlayerEntry>()`: 20 + 8 + 8 bytes, padded to the alignment of its words. -/
def playerEntrySize : Nat := 40

/-- `size_of::<Intent>()`: 20 + 8 + 8 + 65 bytes, padded to the alignment of its words. -/
def intentSize : Nat := 104

def readEntryAt (e : Bytes) : Option PlayerEntry := do
  let hash ← (Usize.range e 0 20).bind fun b => Usize.array 20 b
  let score ← (Usize.range e 20 28).bind fun b => Usize.word 64 b
  let nonce ← (Usize.range e 28 36).bind fun b => Usize.word 64 b
  pure { hash, score, nonce }

/-- `GameState::decode`. The count is multiplied before it is compared with the length. -/
def GameState.decodeAt (w : Nat) (data : Bytes) : Option (Except GameError GameState) :=
  if data = [] then some (.ok .empty)
  else if data.length < stateHeaderLen then some (.error .stateMalformed)
  else do
    let seq ← (Usize.range data 0 8).bind fun b => Usize.word 64 b
    let claimed ← (Usize.range data 8 12).bind fun b => Usize.word 32 b
    let count := claimed.toNat
    let entries ← Usize.fit w (count * entryLen)
    let size ← Usize.fit w (stateHeaderLen + entries)
    if data.length ≠ size then some (.error .stateMalformed)
    else do
      Usize.withCapacity w playerEntrySize count
      let players ← (List.range count).mapM fun i => do
        let skipped ← Usize.fit w (i * entryLen)
        let off ← Usize.fit w (stateHeaderLen + skipped)
        let stop ← Usize.fit w (off + entryLen)
        let e ← Usize.range data off stop
        readEntryAt e
      pure (.ok { seq, players })

/-- `Intent::decode`. -/
def Intent.decodeAt (b : Bytes) : Option (Except GameError Intent) :=
  if b.length ≠ intentLen then some (.error .batchMalformed)
  else do
    let hash ← (Usize.range b 0 20).bind fun b => Usize.array 20 b
    let points ← (Usize.range b 20 28).bind fun b => Usize.word 64 b
    let nonce ← (Usize.range b 28 36).bind fun b => Usize.word 64 b
    let sig ← (Usize.range b 36 101).bind fun b => Usize.array signatureLen b
    pure (.ok { hash, points, nonce, sig })

/-- The loop of `decode_batch`, which the first bad intent would leave. -/
def decodeIntentsAt (w : Nat) (batch : Bytes) : List Nat → Option (Except GameError (List Intent))
  | [] => some (.ok [])
  | i :: rounds => do
    let skipped ← Usize.fit w (i * intentLen)
    let off ← Usize.fit w (2 + skipped)
    let stop ← Usize.fit w (off + intentLen)
    let c ← Usize.range batch off stop
    match ← Intent.decodeAt c with
    | .error e => some (.error e)
    | .ok intent =>
      match ← decodeIntentsAt w batch rounds with
      | .error e => some (.error e)
      | .ok intents => some (.ok (intent :: intents))

/-- `decode_batch`. -/
def decodeBatchAt (w : Nat) (batch : Bytes) : Option (Except GameError (List Intent)) :=
  if batch.length < 2 then some (.error .batchMalformed)
  else do
    let claimed ← (Usize.range batch 0 2).bind fun b => Usize.word 16 b
    let n := claimed.toNat
    let intents ← Usize.fit w (n * intentLen)
    let size ← Usize.fit w (2 + intents)
    if batch.length ≠ size then some (.error .batchMalformed)
    else do
      Usize.withCapacity w intentSize n
      decodeIntentsAt w batch (List.range n)

/-! ## Boards -/

/-- Reading an entry never overflows. -/
theorem readEntryAt_eq {e : Bytes} (h : e.length = entryLen) :
    readEntryAt e = some (readEntry e) := by
  simp only [entryLen] at h
  have hhash : ((Usize.range e 0 20).bind fun b => Usize.array 20 b) =
      some (ByteArr.ofBytes 20 (slice e 0 20)) := Usize.range_array (by omega) rfl
  have hscore : ((Usize.range e 20 28).bind fun b => Usize.word 64 b) =
      some (ofLe 64 (slice e 20 28)) := Usize.range_word (by omega) rfl
  have hnonce : ((Usize.range e 28 36).bind fun b => Usize.word 64 b) =
      some (ofLe 64 (slice e 28 36)) := Usize.range_word (by omega) rfl
  unfold readEntryAt
  rw [hhash, hscore, hnonce]
  rfl

/-- The count in the header. -/
def claimedCount (data : Bytes) : Nat := (ofLe 32 (slice data 8 12)).toNat

/-- The size in the header fits a word, and so does the allocation for the entries. -/
def SizeFits (w : Nat) (data : Bytes) : Prop :=
  stateHeaderLen + claimedCount data * entryLen < 2 ^ w ∧
    (data.length = stateHeaderLen + claimedCount data * entryLen →
      playerEntrySize * claimedCount data < 2 ^ (w - 1))

instance (w : Nat) (data : Bytes) : Decidable (SizeFits w data) :=
  inferInstanceAs (Decidable (_ ∧ _))

/-- The rounds of the loop stay inside the data. -/
theorem readEntries_eq {w : Nat} {data : Bytes} {count : Nat}
    (hsize : data.length = stateHeaderLen + count * entryLen) (hfits : data.length < 2 ^ w) :
    ((List.range count).mapM fun i => do
      let skipped ← Usize.fit w (i * entryLen)
      let off ← Usize.fit w (stateHeaderLen + skipped)
      let stop ← Usize.fit w (off + entryLen)
      let e ← Usize.range data off stop
      readEntryAt e) =
    some ((List.range count).map fun i => readEntry (slice data (stateHeaderLen + i * entryLen)
      (stateHeaderLen + i * entryLen + entryLen))) := by
  simp only [stateHeaderLen, entryLen] at hsize ⊢
  refine Usize.mapM_eq_some ?_
  intro i hi
  have hlt : i + 1 ≤ count := List.mem_range.mp hi
  -- every offset is below the length, which fits the word
  have hend : 12 + i * 36 + 36 ≤ data.length := by
    have := Nat.mul_le_mul_right 36 hlt
    omega
  rw [Usize.fit_of_lt (show i * 36 < 2 ^ w by omega)]
  show (Usize.fit w (12 + i * 36) >>= fun off => _) = _
  rw [Usize.fit_of_lt (show 12 + i * 36 < 2 ^ w by omega)]
  show (Usize.fit w (12 + i * 36 + 36) >>= fun stop => _) = _
  rw [Usize.fit_of_lt (show 12 + i * 36 + 36 < 2 ^ w by omega)]
  show (Usize.range data (12 + i * 36) (12 + i * 36 + 36) >>= fun e => _) = _
  rw [Usize.range_of_le (by omega) hend]
  refine readEntryAt_eq ?_
  rw [slice_length]
  simp only [entryLen]
  omega

/-- **What the decoder does on a target**: it panics when the size the header claims, or the
allocation for a board of that size, does not fit; otherwise it is `GameState.decode`. -/
theorem decodeAt_eq (w : Nat) (data : Bytes) :
    GameState.decodeAt w data =
      if stateHeaderLen ≤ data.length ∧ ¬ SizeFits w data then none
      else some (GameState.decode data) := by
  unfold GameState.decodeAt GameState.decode
  by_cases hnil : data = []
  · rw [if_pos hnil, if_pos hnil, if_neg]
    rintro ⟨hlen, -⟩
    rw [hnil] at hlen
    cases hlen
  rw [if_neg hnil, if_neg hnil]
  by_cases hshort : data.length < stateHeaderLen
  · rw [if_pos hshort, if_neg (by omega), rejectIf, if_pos hshort]
    rfl
  rw [if_neg hshort, rejectIf_neg hshort, ok_bind]
  have hlong : 12 ≤ data.length := by
    simp only [stateHeaderLen] at hshort
    omega
  have hseq : ((Usize.range data 0 8).bind fun b => Usize.word 64 b) =
      some (ofLe 64 (slice data 0 8)) := Usize.range_word (by omega) rfl
  have hcount : ((Usize.range data 8 12).bind fun b => Usize.word 32 b) =
      some (ofLe 32 (slice data 8 12)) := Usize.range_word (by omega) rfl
  rw [hseq, hcount]
  show (Usize.fit w (claimedCount data * entryLen) >>= fun entries =>
    Usize.fit w (stateHeaderLen + entries) >>= fun size => _) = if _ then none else
      some (rejectIf (data.length ≠ stateHeaderLen + claimedCount data * entryLen) _ >>= fun _ => _)
  -- the two products and sums are one question: does the claimed size fit a word?
  rw [Usize.fit_add_bind]
  by_cases hfits : stateHeaderLen + claimedCount data * entryLen < 2 ^ w
  · rw [Usize.fit_of_lt hfits]
    show (if data.length ≠ stateHeaderLen + claimedCount data * entryLen then _ else _) = _
    by_cases hsize : data.length = stateHeaderLen + claimedCount data * entryLen
    · rw [if_neg (not_not.mpr hsize), rejectIf_neg (not_not.mpr hsize), ok_bind]
      show (Usize.withCapacity w playerEntrySize (claimedCount data) >>= fun _ => _) = _
      -- a board of the right length is allocated before it is read
      by_cases hcap : playerEntrySize * claimedCount data < 2 ^ (w - 1)
      · have hall : SizeFits w data := ⟨hfits, fun _ => hcap⟩
        rw [if_neg (fun hpanic => hpanic.2 hall), Usize.withCapacity, if_pos hcap]
        show ((List.range (claimedCount data)).mapM (m := Option) _ >>= fun players => _) = _
        rw [readEntries_eq hsize (hsize ▸ hfits)]
        rfl
      · have hpanic : ¬ SizeFits w data := fun hall => hcap (hall.2 hsize)
        rw [if_pos ⟨by omega, hpanic⟩, Usize.withCapacity, if_neg hcap]
        rfl
    · -- the lengths differ, and nothing is allocated
      have hall : SizeFits w data := ⟨hfits, fun h => absurd h hsize⟩
      rw [if_pos hsize, if_neg fun hpanic => hpanic.2 hall, rejectIf, if_pos hsize]
      rfl
  · have hpanic : ¬ SizeFits w data := fun hall => hfits hall.1
    rw [if_pos ⟨by omega, hpanic⟩, Usize.fit_of_le (by omega)]
    rfl

/-- Four bytes of count are too few to overflow 64 bits. -/
theorem sizeFits_64 (data : Bytes) : SizeFits 64 data := by
  have hcount : claimedCount data < 2 ^ 32 := (ofLe 32 (slice data 8 12)).isLt
  simp only [SizeFits, stateHeaderLen, entryLen, playerEntrySize]
  omega

theorem decodeAt_64 (data : Bytes) : GameState.decodeAt 64 data = some (GameState.decode data) := by
  rw [decodeAt_eq, if_neg fun hpanic => hpanic.2 (sizeFits_64 data)]

/-! ## Batches -/

/-- Reading an intent never overflows. -/
theorem Intent.decodeAt_eq (b : Bytes) : Intent.decodeAt b = some (Intent.decode b) := by
  unfold Intent.decodeAt Intent.decode
  by_cases hlen : b.length ≠ intentLen
  · rw [if_pos hlen, rejectIf, if_pos hlen]
    rfl
  · rw [if_neg hlen, rejectIf_neg hlen, ok_bind]
    simp only [intentLen, not_not] at hlen
    have hhash : ((Usize.range b 0 20).bind fun b => Usize.array 20 b) =
        some (ByteArr.ofBytes 20 (slice b 0 20)) := Usize.range_array (by omega) rfl
    have hpoints : ((Usize.range b 20 28).bind fun b => Usize.word 64 b) =
        some (ofLe 64 (slice b 20 28)) := Usize.range_word (by omega) rfl
    have hnonce : ((Usize.range b 28 36).bind fun b => Usize.word 64 b) =
        some (ofLe 64 (slice b 28 36)) := Usize.range_word (by omega) rfl
    have hsig : ((Usize.range b 36 101).bind fun b => Usize.array signatureLen b) =
        some (ByteArr.ofBytes 65 (slice b 36 101)) := Usize.range_array (by omega) rfl
    rw [hhash, hpoints, hnonce, hsig]
    rfl

/-- Induction on the rounds. -/
theorem decodeIntentsAt_eq {w : Nat} {batch : Bytes} (hfits : batch.length < 2 ^ w)
    {rounds : List Nat} (hin : ∀ i ∈ rounds, 2 + (i + 1) * intentLen ≤ batch.length) :
    decodeIntentsAt w batch rounds = some (rounds.mapM fun i =>
      Intent.decode (slice batch (2 + i * intentLen) (2 + i * intentLen + intentLen))) := by
  induction rounds with
  | nil => rfl
  | cons i rounds ih =>
    have hi := hin i List.mem_cons_self
    rw [Nat.succ_mul] at hi
    show (Usize.fit w (i * intentLen) >>= fun skipped =>
      Usize.fit w (2 + skipped) >>= fun off => _) = _
    rw [Usize.fit_add_bind, Usize.fit_of_lt (show 2 + i * intentLen < 2 ^ w by omega)]
    show (Usize.fit w (2 + i * intentLen + intentLen) >>= fun stop => _) = _
    rw [Usize.fit_of_lt (show 2 + i * intentLen + intentLen < 2 ^ w by omega)]
    show (Usize.range batch (2 + i * intentLen) (2 + i * intentLen + intentLen) >>= fun c => _) = _
    rw [Usize.range_of_le (by omega) (by omega)]
    show (Intent.decodeAt _ >>= fun result => _) = _
    rw [Intent.decodeAt_eq, List.mapM_cons,
      ih fun j hj => hin j (List.mem_cons_of_mem i hj)]
    -- the first error ends both readers
    cases Intent.decode (slice batch (2 + i * intentLen) (2 + i * intentLen + intentLen)) with
    | error e => rfl
    | ok intent =>
      cases rounds.mapM fun i =>
        Intent.decode (slice batch (2 + i * intentLen) (2 + i * intentLen + intentLen)) <;> rfl

/-- Two bytes of count are too few to overflow either target. -/
theorem decodeBatchAt_eq {w : Nat} (hw : 32 ≤ w) (batch : Bytes) :
    decodeBatchAt w batch = some (decodeBatch batch) := by
  -- a count of two bytes is too small to overflow a word of 32 bits
  have hword : 2 ^ 31 ≤ 2 ^ (w - 1) := Nat.pow_le_pow_right (by decide) (by omega)
  have hhalf : 2 ^ (w - 1) ≤ 2 ^ w := Nat.pow_le_pow_right (by decide) (by omega)
  have hn : (ofLe 16 (slice batch 0 2)).toNat < 2 ^ 16 := (ofLe 16 (slice batch 0 2)).isLt
  unfold decodeBatchAt decodeBatch
  by_cases hshort : batch.length < 2
  · rw [if_pos hshort, rejectIf, if_pos hshort]
    rfl
  rw [if_neg hshort, rejectIf_neg hshort, ok_bind]
  have hcount : ((Usize.range batch 0 2).bind fun b => Usize.word 16 b) =
      some (ofLe 16 (slice batch 0 2)) := Usize.range_word (by omega) rfl
  rw [hcount]
  show (Usize.fit w ((ofLe 16 (slice batch 0 2)).toNat * intentLen) >>= fun intents =>
    Usize.fit w (2 + intents) >>= fun size => _) = some (rejectIf (batch.length ≠
      2 + (ofLe 16 (slice batch 0 2)).toNat * intentLen) _ >>= fun _ => _)
  generalize (ofLe 16 (slice batch 0 2)).toNat = n at hn ⊢
  have hfits : 2 + n * intentLen < 2 ^ w := by
    simp only [intentLen]
    omega
  rw [Usize.fit_add_bind, Usize.fit_of_lt hfits]
  show (if batch.length ≠ 2 + n * intentLen then _ else _) = _
  by_cases hsize : batch.length = 2 + n * intentLen
  · rw [if_neg (not_not.mpr hsize), rejectIf_neg (not_not.mpr hsize), ok_bind]
    show (Usize.withCapacity w intentSize n >>= fun _ => _) = _
    have hcap : intentSize * n < 2 ^ (w - 1) := by
      simp only [intentSize]
      omega
    rw [Usize.withCapacity, if_pos hcap]
    refine decodeIntentsAt_eq (hsize ▸ hfits) ?_
    intro i hi
    have hle : (i + 1) * intentLen ≤ n * intentLen :=
      Nat.mul_le_mul_right intentLen (List.mem_range.mp hi)
    omega
  · rw [if_pos hsize, rejectIf, if_pos hsize]
    rfl

/-! ## The codecs are exact -/

/-- The bytes say the board: they are its encoding, or both are empty. -/
def Written (data : Bytes) (s : GameState) : Prop :=
  (data = [] ∧ s = .empty) ∨ (s.players.length < 2 ^ 32 ∧ data = s.encode)

/-- **What is read as a board**: its encoding, or nothing for the empty one. -/
theorem decode_eq_ok_iff {data : Bytes} {s : GameState} :
    GameState.decode data = .ok s ↔ Written data s := by
  constructor
  · intro h
    by_cases hnil : data = []
    · subst hnil
      cases h
      exact Or.inl ⟨rfl, rfl⟩
    · obtain ⟨hcount, hbytes⟩ := GameState.encode_of_decode hnil h
      exact Or.inr ⟨hcount, hbytes.symm⟩
  · rintro (⟨rfl, rfl⟩ | ⟨hcount, rfl⟩)
    · rfl
    · exact GameState.decode_encode hcount

/-- **The board codec is exact** on 64 bits. -/
theorem decode_exact (data : Bytes) (s : GameState) :
    (GameState.decodeAt 64 data = some (.ok s) ↔ Written data s) ∧
    ((∀ t, ¬ Written data t) → GameState.decodeAt 64 data = some (.error .stateMalformed)) ∧
    (s.players.length < 2 ^ 32 → GameState.decodeAt 64 s.encode = some (.ok s)) ∧
    ∀ data', data ≠ [] → data' ≠ [] → GameState.decodeAt 64 data = some (.ok s) →
      GameState.decodeAt 64 data' = some (.ok s) → data = data' := by
  have hok : ∀ b t, GameState.decodeAt 64 b = some (.ok t) ↔ Written b t := by
    intro b t
    rw [decodeAt_64, Option.some.injEq, decode_eq_ok_iff]
  refine ⟨hok data s, ?_, fun hcount => (hok _ _).mpr (Or.inr ⟨hcount, rfl⟩), ?_⟩
  · intro hnone
    rw [decodeAt_64]
    cases h : GameState.decode data with
    | ok t => exact absurd (decode_eq_ok_iff.mp h) (hnone t)
    | error e => rw [GameState.decode_error h]
  · intro data' hne hne' h h'
    have hdata := ((hok _ _).mp h).resolve_left fun hnil => hne hnil.1
    have hdata' := ((hok _ _).mp h').resolve_left fun hnil => hne' hnil.1
    exact hdata.2.trans hdata'.2.symm

/-- A board of one player comes back. -/
theorem decode_exact_sample :
    GameState.decodeAt 64 (⟨1, [⟨sampleKey 1, 10, 1⟩]⟩ : GameState).encode =
      some (.ok ⟨1, [⟨sampleKey 1, 10, 1⟩]⟩) :=
  (decode_exact [] _).2.2.1 (by decide)

/-- **The batch codec is exact** on both targets. -/
theorem decodeBatch_exact {w : Nat} (hw : 32 ≤ w) (batch : Bytes) (intents : List Intent) :
    (decodeBatchAt w batch = some (.ok intents) ↔
      intents.length ≤ 65535 ∧ batch = encodeBatch intents) ∧
    ((∀ l : List Intent, ¬ (l.length ≤ 65535 ∧ batch = encodeBatch l)) →
      decodeBatchAt w batch = some (.error .batchMalformed)) ∧
    ∀ c i, Intent.decodeAt c = some (.ok i) ↔ c = i.encode := by
  have hiff : ∀ l, decodeBatch batch = .ok l ↔ l.length ≤ 65535 ∧ batch = encodeBatch l := by
    intro l
    constructor
    · intro h
      exact ⟨Nat.le_of_lt_succ (length_decodeBatch_lt h), (encodeBatch_of_decodeBatch h).symm⟩
    · rintro ⟨hlen, rfl⟩
      exact decodeBatch_encodeBatch (Nat.lt_succ_of_le hlen)
  simp only [decodeBatchAt_eq hw, Intent.decodeAt_eq, Option.some.injEq]
  refine ⟨hiff intents, ?_, fun _ _ => Intent.decode_eq_ok⟩
  intro hnone
  cases h : decodeBatch batch with
  | ok l => exact absurd ((hiff l).mp h) (hnone l)
  | error e => rw [decodeBatch_error h]

/-- A batch of one intent comes back. -/
theorem decodeBatch_exact_sample :
    decodeBatchAt 32 (encodeBatch [⟨sampleKey 1, 10, 1, sampleSig⟩]) =
      some (.ok [⟨sampleKey 1, 10, 1, sampleSig⟩]) :=
  (decodeBatch_exact (by decide) _ _).1.mpr ⟨by decide, rfl⟩

/-! ## The browser build -/

/-- **Where 32 bits do as 64 do**: unless the header claims a board whose size in bytes overflows
the word, or one too large to allocate. -/
theorem decodes_alike_iff (data : Bytes) :
    (GameState.decodeAt 32 data ≠ none ∧
      GameState.decodeAt 32 data = GameState.decodeAt 64 data ∧
      decodeBatchAt 32 data ≠ none ∧ decodeBatchAt 32 data = decodeBatchAt 64 data) ↔
    (data.length < stateHeaderLen ∨ SizeFits 32 data) := by
  have hbatch : ∀ w, 32 ≤ w → decodeBatchAt w data = some (decodeBatch data) :=
    fun w hw => decodeBatchAt_eq hw data
  rw [hbatch 32 (by decide), hbatch 64 (by decide), decodeAt_64, decodeAt_eq]
  by_cases hpanic : stateHeaderLen ≤ data.length ∧ ¬ SizeFits 32 data
  · -- the size overflows: the 32-bit build panics
    rw [if_pos hpanic]
    constructor
    · rintro ⟨hreturns, -⟩
      exact absurd rfl hreturns
    · rintro (hshort | hfits)
      · exact absurd hpanic.1 (by omega)
      · exact absurd hfits hpanic.2
  · -- nothing overflows, and both builds compute the same
    rw [if_neg hpanic]
    constructor
    · intro _
      by_cases hfits : SizeFits 32 data
      · exact Or.inr hfits
      · exact Or.inl (Nat.lt_of_not_le fun hlong => hpanic ⟨hlong, hfits⟩)
    · intro _
      exact ⟨Option.some_ne_none _, rfl, Option.some_ne_none _, rfl⟩

/-- A header alone, with the highest count. -/
def hugeCount : Bytes := [0, 0, 0, 0, 0, 0, 0, 0, 255, 255, 255, 255]

/-- Twelve bytes that the script refuses and the browser aborts on. -/
theorem decodeAt_hugeCount :
    GameState.decodeAt 32 hugeCount = none ∧
      GameState.decodeAt 64 hugeCount = some (.error .stateMalformed) := ⟨rfl, rfl⟩

end CkbController.GameRules
