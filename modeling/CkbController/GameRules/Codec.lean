import CkbController.GameRules.Board
import Mathlib.Data.List.Induction

/-!
# Boards and batches as bytes

The count fields are narrower than what they count: two bytes for a batch, four for a board. So
the round trips are exact: a batch reads back as long as two bytes can count it
(`decodeBatch_encodeBatch`), a board as long as four can (`decode_encode`), and what is longer is
refused, never misread.
-/

namespace CkbController.GameRules

open ByteCodec Checks

/-! ## One entry, one intent -/

@[simp] theorem PlayerEntry.length_encode (p : PlayerEntry) : p.encode.length = entryLen := by
  simp [PlayerEntry.encode]

/-- An intent takes 101 bytes. -/
@[simp] theorem Intent.length_encode (i : Intent) : i.encode.length = intentLen := by
  have hsig : i.sig.toList.length = 65 := i.sig.toList_length
  unfold Intent.encode
  rw [List.length_append, List.length_append, List.length_append, hsig, toLe_length, toLe_length,
    List.Vector.toList_length]
  rfl

/-- **Round trip** of an entry. -/
theorem readEntry_encode (p : PlayerEntry) : readEntry p.encode = p := by
  have hhash : p.hash.toList.length = 20 := p.hash.toList_length
  have hscore : (toLe p.score).length = 8 := toLe_length p.score
  have hnonce : (toLe p.nonce).length = 8 := toLe_length p.nonce
  have h0 : slice p.encode 0 20 = p.hash.toList := by
    unfold PlayerEntry.encode
    rw [List.append_assoc]
    exact slice_append_middle [] _ _ rfl (by simp)
  have h1 : slice p.encode 20 28 = toLe p.score := by
    unfold PlayerEntry.encode
    rw [List.append_assoc]
    exact slice_append_middle _ _ _ hhash (by omega)
  have h2 : slice p.encode 28 36 = toLe p.nonce := by
    have hpre : (p.hash.toList ++ toLe p.score).length = 28 := by
      rw [List.length_append, hhash, hscore]
    exact slice_append_last _ (toLe p.nonce) hpre (by omega)
  unfold readEntry
  rw [h0, h1, h2, ByteArr.ofBytes_toList, ofLe_toLe (by decide), ofLe_toLe (by decide)]

/-- **Round trip** of an intent. -/
theorem Intent.decode_encode (i : Intent) : Intent.decode i.encode = .ok i := by
  have hhash : i.hash.toList.length = 20 := i.hash.toList_length
  have hpoints : (toLe i.points).length = 8 := toLe_length i.points
  have hnonce : (toLe i.nonce).length = 8 := toLe_length i.nonce
  have hsig : i.sig.toList.length = 65 := i.sig.toList_length
  -- the four fields lie at fixed offsets
  have h0 : slice i.encode 0 20 = i.hash.toList := by
    unfold Intent.encode
    rw [List.append_assoc, List.append_assoc]
    exact slice_append_middle [] _ _ rfl (by simp)
  have h1 : slice i.encode 20 28 = toLe i.points := by
    unfold Intent.encode
    rw [List.append_assoc, List.append_assoc]
    exact slice_append_middle _ _ _ hhash (by omega)
  have h2 : slice i.encode 28 36 = toLe i.nonce := by
    have hpre : (i.hash.toList ++ toLe i.points).length = 28 := by
      rw [List.length_append, hhash, hpoints]
    unfold Intent.encode
    rw [List.append_assoc]
    exact slice_append_middle _ _ _ hpre (by omega)
  have h3 : slice i.encode 36 101 = i.sig.toList := by
    have hpre : (i.hash.toList ++ toLe i.points ++ toLe i.nonce).length = 36 := by
      rw [List.length_append, List.length_append, hhash, hpoints, hnonce]
    exact slice_append_last _ i.sig.toList hpre (by omega)
  -- the signature is an array of its own width again
  have hread : ByteArr.ofBytes 65 i.sig.toList = i.sig := @ByteArr.ofBytes_toList 65 i.sig
  unfold Intent.decode
  rw [rejectIf_neg (not_not.mpr i.length_encode), ok_bind, h0, h1, h2, h3, ByteArr.ofBytes_toList,
    ofLe_toLe (by decide), ofLe_toLe (by decide)]
  exact congrArg (fun sig => Except.ok (⟨i.hash, i.points, i.nonce, sig⟩ : Intent)) hread

/-! ## Boards -/

/-- A board is a header and its entries. -/
theorem GameState.length_encode (s : GameState) :
    s.encode.length = stateHeaderLen + s.players.length * entryLen := by
  have hentries : (s.players.flatMap PlayerEntry.encode).length = s.players.length * entryLen :=
    length_flatMap_width fun p _ => p.length_encode
  simp [GameState.encode, hentries, ← Nat.add_assoc]

/-- The player count that the encoder writes. -/
theorem GameState.count_encode (s : GameState) :
    (ofLe 32 (slice s.encode 8 12)).toNat = s.players.length % 2 ^ 32 := by
  have hcount : slice s.encode 8 12 = toLe (BitVec.ofNat 32 s.players.length) := by
    unfold GameState.encode
    rw [List.append_assoc]
    exact slice_append_middle _ _ _ (toLe_length s.seq) (by rw [toLe_length])
  rw [hcount, ofLe_toLe (by decide), BitVec.toNat_ofNat]

/-- No board is written as nothing, although nothing is read as one. -/
theorem GameState.encode_ne_nil (s : GameState) : s.encode ≠ [] := by
  apply List.ne_nil_of_length_pos
  rw [s.length_encode, stateHeaderLen]
  omega

/-- **A board reads back**, as long as its players can be counted in four bytes. -/
theorem GameState.decode_encode {s : GameState} (h : s.players.length < 2 ^ 32) :
    GameState.decode s.encode = .ok s := by
  have hlen := s.length_encode
  have hcount := s.count_encode
  -- the count did not wrap
  rw [Nat.mod_eq_of_lt h] at hcount
  have hseq : slice s.encode 0 8 = toLe s.seq := by
    unfold GameState.encode
    rw [List.append_assoc]
    exact slice_append_middle [] (toLe s.seq) _ rfl (by rw [toLe_length])
  -- the entries lie one behind the other, after the header
  have hplayers : ((List.range s.players.length).map fun i =>
      readEntry (slice s.encode (stateHeaderLen + i * entryLen)
        (stateHeaderLen + i * entryLen + entryLen))) = s.players := by
    refine List.ext_getElem (by simp) ?_
    intro i hi hi'
    have hheader : (toLe s.seq ++ toLe (BitVec.ofNat 32 s.players.length)).length =
        stateHeaderLen := by simp
    have hblock : slice s.encode (stateHeaderLen + i * entryLen)
        (stateHeaderLen + i * entryLen + entryLen) = (s.players[i]).encode := by
      rw [← hheader]
      exact slice_flatMap (fun p _ => p.length_encode) _ hi'
    rw [List.getElem_map, List.getElem_range, hblock, readEntry_encode]
  unfold GameState.decode
  rw [if_neg s.encode_ne_nil, rejectIf_neg (by rw [hlen]; omega), ok_bind]
  show (rejectIf (s.encode.length ≠
    stateHeaderLen + (ofLe 32 (slice s.encode 8 12)).toNat * entryLen) _ >>= fun _ => _) = _
  rw [hcount, rejectIf_neg (not_not.mpr hlen), ok_bind, hplayers, hseq, ofLe_toLe (by decide)]
  rfl

/-- A board that reads back at all has a count that fits. -/
theorem GameState.lt_of_decode_encode {s s' : GameState}
    (h : GameState.decode s.encode = .ok s') : s.players.length < 2 ^ 32 := by
  unfold GameState.decode at h
  rw [if_neg s.encode_ne_nil] at h
  obtain ⟨-, h⟩ := rejectIf_bind_eq_ok.mp h
  obtain ⟨hsize, -⟩ := rejectIf_bind_eq_ok.mp h
  rw [not_not, s.length_encode, s.count_encode] at hsize
  have := Nat.mod_lt s.players.length (show 0 < 2 ^ 32 by decide)
  simp only [stateHeaderLen, entryLen] at hsize
  omega

/-! ## Batches -/

/-- A loop that gives each item of a list gives the list. -/
theorem mapM_range_eq_ok {ε α : Type} {f : Nat → Except ε α} {l : List α}
    (h : ∀ i (hi : i < l.length), f i = .ok l[i]) : (List.range l.length).mapM f = .ok l := by
  induction l using List.reverseRecOn with
  | nil => rfl
  | append_singleton l a ih =>
    have hinit : ∀ i (hi : i < l.length), f i = .ok l[i] := by
      intro i hi
      rw [h i (by rw [List.length_append]; omega), List.getElem_append_left hi]
    have hlast : f l.length = .ok a := by
      rw [h l.length (by simp), List.getElem_concat_length rfl]
    rw [List.length_append, List.length_singleton, List.range_succ, List.mapM_append, ih hinit,
      ok_bind, List.mapM_cons, hlast, ok_bind]
    rfl

/-- A batch is a count and its intents. -/
theorem length_encodeBatch (intents : List Intent) :
    (encodeBatch intents).length = 2 + intents.length * intentLen := by
  have hintents : (intents.flatMap Intent.encode).length = intents.length * intentLen :=
    length_flatMap_width fun i _ => i.length_encode
  simp [encodeBatch, hintents]

/-- The intent count that the encoder writes. -/
theorem count_encodeBatch (intents : List Intent) :
    (ofLe 16 (slice (encodeBatch intents) 0 2)).toNat = intents.length % 2 ^ 16 := by
  have hcount : slice (encodeBatch intents) 0 2 = toLe (BitVec.ofNat 16 intents.length) :=
    slice_append_middle [] (toLe (BitVec.ofNat 16 intents.length)) _ rfl (by rw [toLe_length])
  rw [hcount, ofLe_toLe (by decide), BitVec.toNat_ofNat]

/-- **A batch reads back**, in its order, as long as two bytes can count it. -/
theorem decodeBatch_encodeBatch {intents : List Intent} (h : intents.length < 2 ^ 16) :
    decodeBatch (encodeBatch intents) = .ok intents := by
  have hlen := length_encodeBatch intents
  have hcount := count_encodeBatch intents
  rw [Nat.mod_eq_of_lt h] at hcount
  unfold decodeBatch
  rw [rejectIf_neg (by rw [hlen]; omega), ok_bind]
  show (rejectIf ((encodeBatch intents).length ≠
    2 + (ofLe 16 (slice (encodeBatch intents) 0 2)).toNat * intentLen) _ >>= fun _ => _) = _
  rw [hcount, rejectIf_neg (not_not.mpr hlen), ok_bind]
  refine mapM_range_eq_ok fun i hi => ?_
  have hheader : (toLe (BitVec.ofNat 16 intents.length)).length = 2 := toLe_length _
  have hblock : slice (encodeBatch intents) (2 + i * intentLen)
      (2 + i * intentLen + intentLen) = (intents[i]).encode := by
    rw [← hheader]
    exact slice_flatMap (fun j _ => j.length_encode) _ hi
  rw [hblock, Intent.decode_encode]

/-- **A longer batch is refused.** -/
theorem lt_of_decodeBatch_encodeBatch {intents intents' : List Intent}
    (h : decodeBatch (encodeBatch intents) = .ok intents') : intents.length < 2 ^ 16 := by
  obtain ⟨-, h⟩ := rejectIf_bind_eq_ok.mp h
  obtain ⟨hsize, -⟩ := rejectIf_bind_eq_ok.mp h
  rw [not_not, length_encodeBatch, count_encodeBatch] at hsize
  have := Nat.mod_lt intents.length (show 0 < 2 ^ 16 by decide)
  simp only [intentLen] at hsize
  omega

/-! ## What is read is what was written

The other direction: bytes that read back are the encoding of what they read as. Both length checks
are needed for it, since nothing may be left over. -/

/-- Any 36 bytes are an entry. -/
theorem encode_readEntry {e : Bytes} (h : e.length = entryLen) : (readEntry e).encode = e := by
  simp only [entryLen] at h
  have hhash : (ByteArr.ofBytes 20 (slice e 0 20)).toList = slice e 0 20 :=
    ByteArr.toList_ofBytes_slice (by omega) rfl
  have hscore : toLe (ofLe 64 (slice e 20 28)) = slice e 20 28 :=
    toLe_ofLe_slice (by decide) (by omega) rfl
  have hnonce : toLe (ofLe 64 (slice e 28 36)) = slice e 28 36 :=
    toLe_ofLe_slice (by decide) (by omega) rfl
  show (ByteArr.ofBytes 20 (slice e 0 20)).toList ++ toLe (ofLe 64 (slice e 20 28)) ++
    toLe (ofLe 64 (slice e 28 36)) = e
  rw [hhash, hscore, hnonce, slice_append_slice (by decide) (by decide),
    slice_append_slice (by decide) (by decide), ← h, slice_zero_length]

/-- **A board is the only way to write what it reads as.** -/
theorem GameState.encode_of_decode {data : Bytes} {s : GameState} (hne : data ≠ [])
    (h : GameState.decode data = .ok s) : s.players.length < 2 ^ 32 ∧ s.encode = data := by
  unfold GameState.decode at h
  rw [if_neg hne] at h
  obtain ⟨hlong, h⟩ := rejectIf_bind_eq_ok.mp h
  obtain ⟨hsize, h⟩ := rejectIf_bind_eq_ok.mp h
  cases h
  rw [not_not] at hsize
  -- the count is a field of four bytes
  have hcount : (ofLe 32 (slice data 8 12)).toNat < 2 ^ 32 := (ofLe 32 (slice data 8 12)).isLt
  -- the entries are the bytes after the header, cut into blocks of one entry
  have hentries : ((List.range (ofLe 32 (slice data 8 12)).toNat).map fun i =>
      readEntry (slice data (stateHeaderLen + i * entryLen)
        (stateHeaderLen + i * entryLen + entryLen))).flatMap PlayerEntry.encode =
      slice data 12 data.length := by
    rw [List.flatMap_map]
    have hblocks : ∀ i ∈ List.range (ofLe 32 (slice data 8 12)).toNat,
        (readEntry (slice data (stateHeaderLen + i * entryLen)
          (stateHeaderLen + i * entryLen + entryLen))).encode =
        slice data (stateHeaderLen + i * entryLen) (stateHeaderLen + i * entryLen + entryLen) := by
      intro i hi
      have hend := Nat.mul_le_mul_right entryLen (List.mem_range.mp hi)
      simp only [stateHeaderLen, entryLen] at hsize hend ⊢
      refine encode_readEntry ?_
      rw [slice_length]
      simp only [entryLen]
      omega
    rw [List.flatMap_congr hblocks, flatMap_slice, ← hsize]
    rfl
  have hseq : toLe (ofLe 64 (slice data 0 8)) = slice data 0 8 := by
    simp only [stateHeaderLen] at hlong
    exact toLe_ofLe_slice (by decide) (by omega) rfl
  have hclaimed : toLe (ofLe 32 (slice data 8 12)) = slice data 8 12 := by
    simp only [stateHeaderLen] at hlong
    exact toLe_ofLe_slice (by decide) (by omega) rfl
  constructor
  · rw [List.length_map, List.length_range]
    exact hcount
  · unfold GameState.encode
    rw [hentries, List.length_map, List.length_range, BitVec.ofNat_toNat, BitVec.setWidth_eq, hseq,
      hclaimed, slice_append_slice (by decide) (by decide), slice_append_slice (by decide) ?_,
      slice_zero_length]
    simp only [stateHeaderLen] at hlong
    omega

/-- Bytes that are no board have one error. -/
theorem GameState.decode_error {data : Bytes} {e : GameError}
    (h : GameState.decode data = .error e) : e = .stateMalformed := by
  unfold GameState.decode at h
  by_cases hnil : data = []
  · rw [if_pos hnil] at h
    cases h
  rw [if_neg hnil] at h
  rcases rejectIf_bind_eq_error.mp h with ⟨-, rfl⟩ | ⟨-, h⟩
  · rfl
  rcases rejectIf_bind_eq_error.mp h with ⟨-, rfl⟩ | ⟨-, h⟩
  · rfl
  · cases h

/-- An intent is written in one way only. -/
theorem Intent.encode_of_decode {c : Bytes} {i : Intent} (h : Intent.decode c = .ok i) :
    i.encode = c := by
  obtain ⟨hlen, h⟩ := rejectIf_bind_eq_ok.mp h
  simp only [intentLen, not_not] at hlen
  cases h
  have hhash : (ByteArr.ofBytes 20 (slice c 0 20)).toList = slice c 0 20 :=
    ByteArr.toList_ofBytes_slice (by omega) rfl
  have hpoints : toLe (ofLe 64 (slice c 20 28)) = slice c 20 28 :=
    toLe_ofLe_slice (by decide) (by omega) rfl
  have hnonce : toLe (ofLe 64 (slice c 28 36)) = slice c 28 36 :=
    toLe_ofLe_slice (by decide) (by omega) rfl
  have hsig : (ByteArr.ofBytes 65 (slice c 36 101)).toList = slice c 36 101 :=
    ByteArr.toList_ofBytes_slice (by omega) rfl
  show (ByteArr.ofBytes 20 (slice c 0 20)).toList ++ toLe (ofLe 64 (slice c 20 28)) ++
    toLe (ofLe 64 (slice c 28 36)) ++ (ByteArr.ofBytes 65 (slice c 36 101)).toList = c
  rw [hhash, hpoints, hnonce, hsig, slice_append_slice (by decide) (by decide),
    slice_append_slice (by decide) (by decide), slice_append_slice (by decide) (by decide), ← hlen,
    slice_zero_length]

/-- An intent has one encoding, and reads back from it alone. -/
theorem Intent.decode_eq_ok {c : Bytes} {i : Intent} : Intent.decode c = .ok i ↔ c = i.encode := by
  constructor
  · intro h
    exact (Intent.encode_of_decode h).symm
  · rintro rfl
    exact i.decode_encode

/-- Bytes that are no intent have one error: they are of another length. -/
theorem Intent.decode_error {c : Bytes} {e : GameError} (h : Intent.decode c = .error e) :
    e = .batchMalformed ∧ c.length ≠ intentLen := by
  rcases rejectIf_bind_eq_error.mp h with ⟨hlen, rfl⟩ | ⟨-, h⟩
  · exact ⟨rfl, hlen⟩
  · cases h

/-- The intents of a loop, put together, are the pieces it read. Induction on the rounds. -/
theorem flatMap_encode_of_mapM {f : Nat → Bytes} : ∀ {rounds : List Nat} {intents : List Intent},
    (rounds.mapM fun i => Intent.decode (f i)) = .ok intents →
      intents.flatMap Intent.encode = rounds.flatMap f
  | [], intents, h => by
    cases h
    rfl
  | i :: rounds, intents, h => by
    rw [List.mapM_cons] at h
    obtain ⟨intent, hintent, h⟩ := bind_eq_ok.mp h
    obtain ⟨rest, hrest, h⟩ := bind_eq_ok.mp h
    cases h
    rw [List.flatMap_cons, List.flatMap_cons, flatMap_encode_of_mapM hrest,
      Intent.encode_of_decode hintent]

/-- **A batch is the only way to write the intents it reads as.** -/
theorem encodeBatch_of_decodeBatch {batch : Bytes} {intents : List Intent}
    (h : decodeBatch batch = .ok intents) : encodeBatch intents = batch := by
  obtain ⟨hlong, h⟩ := rejectIf_bind_eq_ok.mp h
  obtain ⟨hsize, h⟩ := rejectIf_bind_eq_ok.mp h
  rw [not_not] at hsize
  have hlength : intents.length = (ofLe 16 (slice batch 0 2)).toNat := by
    rw [length_of_mapM_eq_ok h, List.length_range]
  have hclaimed : toLe (ofLe 16 (slice batch 0 2)) = slice batch 0 2 :=
    toLe_ofLe_slice (by decide) (by omega) rfl
  unfold encodeBatch
  rw [flatMap_encode_of_mapM h, flatMap_slice, ← hsize, hlength, BitVec.ofNat_toNat,
    BitVec.setWidth_eq, hclaimed, slice_append_slice (by decide) (by omega), slice_zero_length]

/-- Bytes that are no batch have one error. -/
theorem decodeBatch_error {batch : Bytes} {e : GameError} (h : decodeBatch batch = .error e) :
    e = .batchMalformed := by
  rcases rejectIf_bind_eq_error.mp h with ⟨-, rfl⟩ | ⟨-, h⟩
  · rfl
  rcases rejectIf_bind_eq_error.mp h with ⟨-, rfl⟩ | ⟨-, h⟩
  · rfl
  -- the loop fails only where an intent does
  generalize List.range (ofLe 16 (slice batch 0 2)).toNat = rounds at h
  induction rounds with
  | nil => cases h
  | cons i rounds ih =>
    rw [List.mapM_cons] at h
    rcases bind_eq_error.mp h with h | ⟨intent, -, h⟩
    · exact (Intent.decode_error h).1
    · rcases bind_eq_error.mp h with h | ⟨rest, -, h⟩
      · exact ih h
      · cases h

end CkbController.GameRules
