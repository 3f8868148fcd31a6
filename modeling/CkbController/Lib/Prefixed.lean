import CkbController.Lib.ByteCodec

/-!
# Strings in a byte format

UTF-8 strings, and fields that are preceded by their length in 16 bits. The length is written
modulo 2^16, so a field of 65536 bytes or more has a misleading prefix; `prefixed_pair_inj` says
that two fields read off with honest lengths determine the two fields written all the same, as
nothing longer fits into the same total.
-/

namespace ByteCodec

/-! ## UTF-8 -/

/-- `s.as_bytes()`. -/
def asBytes (s : String) : Bytes := s.toByteArray.data.toList

/-- `String::from_utf8(b)`. -/
def fromUtf8 (b : Bytes) : Option String := String.fromUTF8? ⟨b.toArray⟩

/-- A text is read from its own bytes only. -/
theorem fromUtf8_eq_some {b : Bytes} {s : String} : fromUtf8 b = some s ↔ asBytes s = b := by
  unfold fromUtf8 String.fromUTF8? asBytes
  constructor
  · intro h
    split at h
    · cases h
      rfl
    · cases h
  · rintro rfl
    have hbytes : (⟨s.toByteArray.data.toList.toArray⟩ : ByteArray) = s.toByteArray := rfl
    rw [hbytes, dif_pos s.isValidUTF8]
    rfl

/-- The bytes of a text are those of its characters. -/
theorem asBytes_ofList (cs : List Char) :
    asBytes (String.ofList cs) = cs.flatMap String.utf8EncodeChar := by
  show (cs.flatMap String.utf8EncodeChar).toByteArray.data.toList = _
  rw [List.data_toByteArray]

/-- Two texts are told apart by their bytes. -/
theorem asBytes_injective : Function.Injective asBytes := by
  intro s t h
  have hs := fromUtf8_eq_some.mpr (rfl : asBytes s = asBytes s)
  have ht := fromUtf8_eq_some.mpr h.symm
  rw [hs] at ht
  exact Option.some.inj ht

/-! ## Fields behind their length -/

/-- `b` behind `b.len() as u16`. -/
def prefixed (b : Bytes) : Bytes := toLe (BitVec.ofNat 16 b.length) ++ b

/-- A length takes two bytes. -/
@[simp] theorem prefixed_length (b : Bytes) : (prefixed b).length = b.length + 2 := by
  unfold prefixed
  rw [List.length_append, toLe_length, Nat.add_comm]

/-- Reading a length that did not wrap. -/
theorem ofLe_lengthField {b : Bytes} (h : b.length < 2 ^ 16) :
    (ofLe 16 (toLe (BitVec.ofNat 16 b.length))).toNat = b.length := by
  rw [ofLe_toLe (by decide), BitVec.toNat_ofNat, Nat.mod_eq_of_lt h]

/-- A field stands in a string where its length stands and its bytes follow. -/
theorem slice_eq_prefixed_iff {buf b : Bytes} {i : Nat} (hshort : b.length < 2 ^ 16)
    (hend : i + 2 + b.length ≤ buf.length) :
    slice buf i (i + 2 + b.length) = prefixed b ↔
      (ofLe 16 (slice buf i (i + 2))).toNat = b.length ∧
        slice buf (i + 2) (i + 2 + b.length) = b := by
  -- the slice is the length field and what it counts
  have hsplit : slice buf i (i + 2) ++ slice buf (i + 2) (i + 2 + b.length) =
      slice buf i (i + 2 + b.length) := slice_append_slice (by omega) (by omega)
  have hwidth : (slice buf i (i + 2)).length = 2 := by
    rw [slice_length]
    omega
  constructor
  · intro h
    rw [h] at hsplit
    obtain ⟨hhead, hbytes⟩ := List.append_inj hsplit (by rw [hwidth, toLe_length])
    rw [hhead]
    exact ⟨ofLe_lengthField hshort, hbytes⟩
  · rintro ⟨hvalue, hbytes⟩
    have hhead : slice buf i (i + 2) = toLe (BitVec.ofNat 16 b.length) := by
      rw [← hvalue, BitVec.ofNat_toNat, BitVec.setWidth_eq]
      exact (toLe_ofLe (by decide) hwidth).symm
    rw [← hsplit, hhead, hbytes]
    rfl

/-- A field of honest length starts a string that a field of any length starts: it is no longer. -/
theorem prefixed_append_inj_length {a a' r r' : Bytes} (ha : a.length < 2 ^ 16)
    (h : prefixed a ++ r = prefixed a' ++ r') :
    a'.length % 2 ^ 16 = a.length ∧ a ++ r = a' ++ r' := by
  unfold prefixed at h
  rw [List.append_assoc, List.append_assoc] at h
  obtain ⟨hhead, hrest⟩ := List.append_inj h (by rw [toLe_length, toLe_length])
  have hlength := congrArg BitVec.toNat (toLe_injective (by decide) hhead)
  rw [BitVec.toNat_ofNat, BitVec.toNat_ofNat, Nat.mod_eq_of_lt ha] at hlength
  exact ⟨hlength.symm, hrest⟩

/-- **Two fields and a tail.** With honest lengths on one side, the other side has the same
fields: a wrapped length would make its first field longer than everything there is. -/
theorem prefixed_pair_inj {a b t a' b' t' : Bytes} (ha : a.length < 2 ^ 16)
    (hb : b.length < 2 ^ 16) (ht : t.length = t'.length)
    (h : prefixed a ++ (prefixed b ++ t) = prefixed a' ++ (prefixed b' ++ t')) :
    a = a' ∧ b = b' ∧ t = t' := by
  have htotal := congrArg List.length h
  obtain ⟨hmod, hrest⟩ := prefixed_append_inj_length ha h
  simp only [List.length_append, prefixed_length] at htotal
  have hfirst : a.length = a'.length := by omega
  obtain ⟨rfl, htail⟩ := List.append_inj hrest hfirst
  obtain ⟨-, hrest'⟩ := prefixed_append_inj_length hb htail
  obtain ⟨rfl, rfl⟩ := List.append_inj hrest' (by omega)
  exact ⟨rfl, rfl, rfl⟩

end ByteCodec
