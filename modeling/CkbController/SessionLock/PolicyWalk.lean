import CkbController.SessionLock.Spec

/-!
# The policy walk reads frames

`checkOutputPolicies` moves a cursor through the proof region while it moves through the
outputs. This module shows that the cursor never comes apart from the outputs: the walk
succeeds from cursor `n` exactly when what is left of the region from `n` on starts with one
allowing frame for each policed output that is left (`checkOutputPolicies_eq_ok`).
-/

namespace CkbController.SessionLock

open ByteCodec Checks

variable {P : Platform}

/-! ## One frame -/

/-- The first two bytes of a frame, where the cursor stands. -/
theorem drop_eq_two_cons {b : Bytes} {n : Nat} (h : n + 2 ≤ b.length) :
    b.drop n = b.getD n 0 :: b.getD (n + 1) 0 :: b.drop (n + 2) := by
  have h0 : n < b.length := by omega
  have h1 : n + 1 < b.length := by omega
  rw [List.drop_eq_getElem_cons h0, List.drop_eq_getElem_cons h1]
  simp only [List.getD_eq_getElem?_getD, List.getElem?_eq_getElem h0,
    List.getElem?_eq_getElem h1, Option.getD_some]

/-- A frame is read exactly when the region, from the cursor on, is the kind, a count byte and
that many 32-byte siblings; the cursor lands right after them. -/
theorem readFrame_eq_ok {region proof : Bytes} {cursor cursor' : Nat} {kind : UInt8} :
    readFrame region cursor = .ok (kind, proof, cursor') ↔
      ∃ n : UInt8, region.drop cursor = kind :: n :: (proof ++ region.drop cursor') ∧
        proof.length = n.toNat * 32 ∧ cursor' = cursor + 2 + n.toNat * 32 := by
  simp only [readFrame, rejectIf_bind_eq_ok, Nat.not_lt, pure, Except.pure, Except.ok.injEq,
    Prod.mk.injEq]
  constructor
  · rintro ⟨hhead, hbody, rfl, rfl, rfl⟩
    refine ⟨region.getD (cursor + 1) 0, ?_, ?_, rfl⟩
    · have hcut : slice region (cursor + 2)
            (cursor + 2 + (region.getD (cursor + 1) 0).toNat * 32) ++
          slice region (cursor + 2 + (region.getD (cursor + 1) 0).toNat * 32) region.length =
            slice region (cursor + 2) region.length :=
        slice_append_slice (by omega) hbody
      rw [slice_eq_drop (Nat.le_refl _), slice_eq_drop (Nat.le_refl _)] at hcut
      rw [drop_eq_two_cons hhead, hcut]
    · rw [slice_length]
      omega
  · rintro ⟨n, hdrop, hlen, rfl⟩
    -- the region is long enough because the cut it starts with is
    have hcount := congrArg List.length hdrop
    simp only [List.length_drop, List.length_cons, List.length_append, hlen] at hcount
    have hhead : cursor + 2 ≤ region.length := by omega
    rw [drop_eq_two_cons hhead] at hdrop
    simp only [List.cons.injEq] at hdrop
    obtain ⟨hkind, hn, htail⟩ := hdrop
    have htaillen := congrArg List.length htail
    simp only [List.length_drop, List.length_append, hlen] at htaillen
    refine ⟨hhead, by rw [hn]; omega, hkind, ?_, by rw [hn]⟩
    rw [hn]
    unfold slice
    rw [htail, show cursor + 2 + n.toNat * 32 - (cursor + 2) = proof.length from by omega,
      List.take_left]

/-! ## One proof -/

/-- On a list of siblings the byte-level verifier is the fold of `hashPair`. -/
theorem merkleVerify_flat (root leaf : Byte32) (siblings : List Byte32) :
    merkleVerify P root leaf (flat siblings) = true ↔
      siblings.foldl (hashPair P) leaf = root := by
  have hdiv : siblings.length * 32 / 32 = siblings.length := Nat.mul_div_cancel _ (by decide)
  unfold merkleVerify
  rw [flat_length, Nat.mul_mod_left, hdiv, chunks_flat]
  simp

/-- A frame is about the type script or the lock of its output. -/
theorem policyScript_eq_ok {kind : UInt8} {c : Cell} {s : Script} :
    policyScript kind c = .ok s ↔
      (kind = policyKindType ∧ c.output.type = some s) ∨
        (kind = policyKindLock ∧ c.output.lock = s) := by
  have hne : policyKindLock ≠ policyKindType := by decide
  unfold policyScript
  by_cases ht : kind = policyKindType
  · subst ht
    simp [hne.symm]
  · rw [if_neg ht]
    by_cases hl : kind = policyKindLock
    · subst hl
      simp [hne]
    · simp [ht, hl]

/-! ## The walk -/

/-- The count of a frame is the number of its siblings. -/
theorem PolicyFrame.toNat_count (f : PolicyFrame) :
    (UInt8.ofNat f.siblings.length).toNat = f.siblings.length := by
  rw [UInt8.toNat_ofNat']
  exact Nat.mod_eq_of_lt f.short

theorem encodeFrames_cons (f : PolicyFrame) (fs : List PolicyFrame) :
    encodeFrames (f :: fs) = f.encode ++ encodeFrames fs := rfl

/-- The walk skips an output under the lock's own code. -/
theorem policedOutputs_cons_own {script : Script} {c : Cell} {cells : List Cell}
    (h : c.output.lock.sameCode script = true) :
    policedOutputs script (c :: cells) = policedOutputs script cells := by
  simp [policedOutputs, h]

/-- The walk asks for a frame for every other output. -/
theorem policedOutputs_cons_other {script : Script} {c : Cell} {cells : List Cell}
    (h : ¬ c.output.lock.sameCode script = true) :
    policedOutputs script (c :: cells) = c :: policedOutputs script cells := by
  simp [policedOutputs, h]

/-- **The walk succeeds exactly on framed regions.** Induction on the outputs left; the cursor
enters only through what is left of the region. -/
theorem checkOutputPolicies_eq_ok {script : Script} {root : Byte32} {region : Bytes} :
    ∀ (cells : List Cell) (cursor : Nat),
      checkOutputPolicies P script root region cells cursor = .ok () ↔
        PolicyAllows P script root (region.drop cursor) cells := by
  intro cells
  induction cells with
  | nil =>
    intro cursor
    refine iff_of_true rfl ⟨[], region.drop cursor, rfl, ?_⟩
    exact List.Forall₂.nil
  | cons c cells ih =>
    intro cursor
    by_cases hown : c.output.lock.sameCode script = true
    · rw [checkOutputPolicies, if_pos hown, ih]
      unfold PolicyAllows
      rw [policedOutputs_cons_own hown]
    · rw [checkOutputPolicies, if_neg hown, PolicyAllows, policedOutputs_cons_other hown]
      constructor
      · intro h
        obtain ⟨⟨kind, proof, cursor'⟩, hread, h⟩ := bind_eq_ok.mp h
        obtain ⟨s, hs, h⟩ := bind_eq_ok.mp h
        obtain ⟨hverify, hrest⟩ := rejectIf_bind_eq_ok.mp h
        obtain ⟨n, hdrop, hlen, -⟩ := readFrame_eq_ok.mp hread
        obtain ⟨frames, trailing, hregion, hall⟩ := (ih cursor').mp hrest
        -- the siblings are the 32-byte chunks of the proof bytes
        have hflat : flat (chunks 32 n.toNat proof) = proof := flat_chunks hlen
        have hcount : (chunks 32 n.toNat proof).length = n.toNat := chunks_length ..
        let frame : PolicyFrame := ⟨kind, chunks 32 n.toNat proof, by rw [hcount]; exact n.toNat_lt⟩
        have hencode : frame.encode = kind :: n :: proof := by
          simp only [PolicyFrame.encode, frame, hflat, hcount, UInt8.ofNat_toNat]
        refine ⟨frame :: frames, trailing, ?_, List.Forall₂.cons ⟨s, ?_, ?_⟩ hall⟩
        · rw [hdrop, hregion, encodeFrames_cons, hencode]
          simp
        · exact policyScript_eq_ok.mp hs
        · apply (merkleVerify_flat root _ _).mp
          rw [hflat]
          exact Bool.not_eq_false _ ▸ hverify
      · rintro ⟨frames, trailing, hregion, hall⟩
        obtain ⟨frame, frames', ⟨s, hkind, hfold⟩, htail, rfl⟩ := List.forall₂_cons_left_iff.mp hall
        -- the cursor after this frame, and what the region holds from there
        let cursor' := cursor + 2 + frame.siblings.length * 32
        have hrest : region.drop cursor' = encodeFrames frames' ++ trailing := by
          have hskip : (region.drop cursor).drop (2 + frame.siblings.length * 32) =
              encodeFrames frames' ++ trailing := by
            rw [hregion, encodeFrames_cons, List.append_assoc]
            apply List.drop_left'
            simp only [PolicyFrame.encode, List.length_cons, flat_length]
            omega
          rw [← hskip, List.drop_drop]
          exact congrArg (region.drop ·) (by omega)
        have hread : readFrame region cursor = .ok (frame.kind, flat frame.siblings, cursor') := by
          refine readFrame_eq_ok.mpr ⟨UInt8.ofNat frame.siblings.length, ?_, ?_, ?_⟩
          · rw [hregion, hrest, encodeFrames_cons]
            simp [PolicyFrame.encode]
          · rw [frame.toNat_count, flat_length]
          · rw [frame.toNat_count]
        have hverify := (merkleVerify_flat root _ frame.siblings).mpr hfold
        refine bind_eq_ok.mpr ⟨_, hread, bind_eq_ok.mpr ⟨s, policyScript_eq_ok.mpr hkind, ?_⟩⟩
        refine rejectIf_bind_eq_ok.mpr ⟨by rw [hverify]; decide, ?_⟩
        exact (ih cursor').mpr ⟨frames', trailing, hrest, htail⟩

end CkbController.SessionLock
