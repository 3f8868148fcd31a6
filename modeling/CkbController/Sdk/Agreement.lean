import CkbController.Sdk.Builder
import CkbController.SessionLock.Spec

/-!
# The SDK and the lock agree on every layout

The SDK restates the lock's byte layouts on its own. Each result here says that what the SDK
writes is what the lock reads: the params block, the args, the account data, the two messages,
the nodes of the policy tree and the framed proofs.
-/

namespace CkbController.Sdk

open ByteCodec SessionLock

variable {P : Platform}

/-! ## Params and args -/

@[simp] theorem length_sessionParams (k : Byte20) (e : U64) (r : Byte32) (c : U128) (g : Byte20) :
    (sessionParams k e r c g).length = 96 := by
  simp [sessionParams]

/-- The lock reads the params where the SDK wrote them, whatever follows. -/
theorem parseSessionParams_append (k : Byte20) (e : U64) (r : Byte32) (c : U128) (g : Byte20)
    (rest : Bytes) :
    parseSessionParams (sessionParams k e r c g ++ rest) = ⟨k, e, r, c, g⟩ := by
  have hk : k.toList.length = 20 := k.toList_length
  have he : (toLe e).length = 8 := toLe_length e
  have hr : r.toList.length = 32 := r.toList_length
  have hc : (toLe c).length = 16 := toLe_length c
  have hg : g.toList.length = 20 := g.toList_length
  -- field by field: skip what stands before it, cut what stands after it
  have hfield : ∀ (pre field post : Bytes) (i j : Nat), pre.length = i → field.length = j - i →
      i ≤ j → slice (pre ++ (field ++ post)) i j = field := by
    intro pre field post i j hpre hlen hij
    rw [slice_append_right (by omega), hpre, Nat.sub_self, slice_append_left (by omega), ← hlen,
      slice_zero_length]
  unfold parseSessionParams sessionParams
  simp only [List.append_assoc]
  congr 1
  · rw [show ∀ x : Bytes, slice (k.toList ++ x) 0 20 = k.toList from fun x =>
      hfield [] k.toList x 0 20 rfl (by omega) (by omega), ByteArr.ofBytes_toList]
  · rw [hfield k.toList (toLe e) _ 20 28 hk (by omega) (by omega), ofLe_toLe (by decide)]
  · rw [← List.append_assoc, hfield _ r.toList _ 28 60 (by simp) (by omega) (by omega),
      ByteArr.ofBytes_toList]
  · rw [← List.append_assoc, ← List.append_assoc,
      hfield _ (toLe c) _ 60 76 (by simp) (by omega) (by omega), ofLe_toLe (by decide)]
  · rw [← List.append_assoc, ← List.append_assoc, ← List.append_assoc,
      hfield _ g.toList _ 76 96 (by simp) (by omega) (by omega), ByteArr.ofBytes_toList]

/-- **Round trip** of session params between SDK and lock. -/
@[simp] theorem parseSessionParams_sessionParams (k : Byte20) (e : U64) (r : Byte32) (c : U128)
    (g : Byte20) : parseSessionParams (sessionParams k e r c g) = ⟨k, e, r, c, g⟩ := by
  rw [← parseSessionParams_append k e r c g [], List.append_nil]

@[simp] theorem length_ownerOnlyArgs (owner : Byte20) : (ownerOnlyArgs owner).length = 20 :=
  owner.toList_length

/-- Registered args are an owner and params: 116 bytes, the length the lock looks for. -/
theorem length_registeredArgs {params : Bytes} (owner : Byte20) (h : params.length = 96) :
    (registeredArgs owner params).length = 116 := by
  simp [registeredArgs, h]

/-- The lock finds the registered params where the SDK put them. -/
theorem drop_registeredArgs (owner : Byte20) (params : Bytes) :
    (registeredArgs owner params).drop 20 = params :=
  List.drop_left' owner.toList_length

theorem take_registeredArgs (owner : Byte20) (params : Bytes) :
    (registeredArgs owner params).take 20 = owner.toList :=
  List.take_left' owner.toList_length

/-! ## Account data -/

/-- The lock reads back the epoch the SDK wrote; epoch 0 is the empty string. -/
theorem epochOfData_epochData (epoch : U64) : epochOfData (epochData epoch) = epoch := by
  unfold epochData
  split
  · next h =>
    rw [h]
    rfl
  · have hlen : revocationEpochLen ≤ (toLe epoch).length := by
      rw [toLe_length]
      decide
    have hread : slice (toLe epoch) 0 8 = toLe epoch := by
      rw [show (8 : Nat) = (toLe epoch).length from by rw [toLe_length], slice_zero_length]
    rw [epochOfData, if_pos hlen]
    simp only [revocationEpochLen]
    rw [hread, ofLe_toLe (by decide)]

/-! ## Messages and nodes -/

theorem txMessage_eq (vm : Vm) : txMessage P vm.rtx.tx = SessionLock.txMessage P vm := rfl

theorem sessionAuthMessage_eq (scriptHash : Byte32) (epoch : U64) (params : Bytes) :
    sessionAuthMessage P scriptHash epoch params =
      SessionLock.sessionAuthMessage P scriptHash epoch params := rfl

theorem pair_eq_hashPair : pair P = hashPair P := rfl

/-! ## Proofs -/

/-- The SDK's proof region is the concatenation of the lock's frames. -/
theorem proofRegion_frames (frames : List PolicyFrame) :
    proofRegion (frames.map fun f => (f.kind, f.siblings)) = encodeFrames frames := by
  rw [proofRegion, List.flatMap_map]
  rfl

end CkbController.Sdk
