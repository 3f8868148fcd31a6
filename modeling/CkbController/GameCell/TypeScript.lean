import CkbController.Ckb.Vm
import CkbController.GameRules.Rules

/-!
# The game cell type script

The type script `controller-game-cell`, function by function. The cell is created empty and then
advances one transaction at a time: the batch of intents in the witness is checked for
signatures, applied to the input state, and compared with the output state. The rules themselves
are those of `GameRules/Rules.lean`; this is the on-chain framing.
-/

namespace CkbController.GameCell

open ByteCodec Checks GameRules

def authIdCkbSecp256k1 : UInt8 := 0

/-! ## Errors -/

inductive Error where
  | indexOutOfBound
  | itemMissing
  | lengthNotEnough
  | encoding
  | badTxShape
  | argsLenError
  | genesisNotEmpty
  | stateMalformed
  | batchMissing
  | batchMalformed
  | nonceNotFresh
  | pointsTooHigh
  | overflow
  | stateMismatch
  | authError
deriving DecidableEq, Repr

def Error.ofSys : SysError → Error
  | .indexOutOfBound => .indexOutOfBound
  | .itemMissing => .itemMissing
  | .lengthNotEnough => .lengthNotEnough
  | .encoding => .encoding

def Error.ofGame : GameError → Error
  | .stateMalformed => .stateMalformed
  | .batchMalformed => .batchMalformed
  | .nonceNotFresh => .nonceNotFresh
  | .pointsTooHigh => .pointsTooHigh
  | .overflow => .overflow

def sys {α : Type} (x : Except SysError α) : Except Error α := x.mapError Error.ofSys

def game {α : Type} (x : Except GameError α) : Except Error α := x.mapError Error.ofGame

@[simp] theorem sys_eq_ok {α : Type} {x : Except SysError α} {a : α} :
    sys x = .ok a ↔ x = .ok a := mapError_eq_ok

@[simp] theorem game_eq_ok {α : Type} {x : Except GameError α} {a : α} :
    game x = .ok a ↔ x = .ok a := mapError_eq_ok

variable (P : Platform) (vm : Vm)

/-! ## Intents -/

def verifySignature (algorithmId : UInt8) (signature : Bytes) (message : Byte32)
    (pubkeyHash : Bytes) : Except Error Unit :=
  rejectIf (P.ckbAuth algorithmId signature message pubkeyHash = false) .authError

def verifyIntentSig (gameId : Byte32) (intent : Intent) : Except Error Unit :=
  verifySignature P authIdCkbSecp256k1 intent.sig.toList
    (intentMessage P gameId intent.hash intent.points intent.nonce) intent.hash.toList

/-- The absolute index of the first input with this type script (`load_cell_type_hash` against
`load_script_hash`). -/
def findGroupInputIndex : Option Nat := vm.rtx.inputCells.findIdx? (Vm.carries P vm.script)

/-- The batch in the `input_type` field of the game cell's witness. -/
def loadBatch : Except Error (List Intent) := do
  let gi ← okOr (findGroupInputIndex P vm) .badTxShape
  let witness ← sys (vm.loadWitnessArgs P gi)
  let batch ← okOr witness.inputType .batchMissing
  game (decodeBatch batch)

/-! ## The two steps of a game -/

def verifyGenesis : Except Error Unit := do
  let data ← sys (vm.loadGroupOutputData 0)
  let state ← game (GameState.decode data)
  rejectIf (state.seq ≠ 0 ∨ state.players ≠ []) .genesisNotEmpty

def verifyTransition (gameId : Byte32) : Except Error Unit := do
  let inData ← sys (vm.loadGroupInputData 0)
  let outData ← sys (vm.loadGroupOutputData 0)
  let state ← game (GameState.decode inData)
  let expectedOut ← game (GameState.decode outData)
  let intents ← loadBatch P vm
  intents.forM (verifyIntentSig P gameId)
  let state' ← game (state.applyBatch intents)
  rejectIf (state'.equalsUnordered expectedOut = false) .stateMismatch

/-- `program_entry` exits with 0 exactly when this returns `Ok`. The group is counted by loading
the data of its cells until the index is out of bounds. -/
def verify : Except Error Unit := do
  rejectIf (vm.script.args.length ≠ gameIdLen) .argsLenError
  let gameId := ByteArr.ofBytes 32 vm.script.args
  match vm.groupInputCells.length, vm.groupOutputCells.length with
  | 0, 1 => verifyGenesis vm
  | 1, 1 => verifyTransition P vm gameId
  | _, _ => .error .badTxShape

/-! ## What acceptance means -/

variable {P} {vm}

def gameIdOf (ty : Script) : Byte32 := ByteArr.ofBytes 32 ty.args

/-- The intent carries a signature of its player over this game and this move. -/
def SignedFor (P : Platform) (gameId : Byte32) (intent : Intent) : Prop :=
  P.ckbAuth authIdCkbSecp256k1 intent.sig.toList
    (intentMessage P gameId intent.hash intent.points intent.nonce) intent.hash.toList = true

/-- An intent passes when it is signed for the game. -/
theorem verifyIntentSig_eq_ok {gameId : Byte32} {intent : Intent} {u : Unit} :
    verifyIntentSig P gameId intent = .ok u ↔ SignedFor P gameId intent := by
  rw [verifyIntentSig, verifySignature, rejectIf_eq_ok, Bool.not_eq_false]
  rfl

/-- A loop of checks passes when each of them does. -/
theorem forM_eq_ok {ε α : Type} {f : α → Except ε Unit} {l : List α} {u : Unit} :
    l.forM f = .ok u ↔ ∀ a ∈ l, f a = .ok () := by
  induction l with
  | nil =>
    refine iff_of_true rfl ?_
    exact fun a ha => absurd ha List.not_mem_nil
  | cons a l ih =>
    show (f a >>= fun _ => l.forM f) = .ok u ↔ _
    rw [bind_eq_ok, List.forall_mem_cons]
    simp only [ih]
    exact ⟨fun ⟨_, ha, hl⟩ => ⟨ha, hl⟩, fun ⟨ha, hl⟩ => ⟨(), ha, hl⟩⟩

structure IsGenesis (vm : Vm) (c : Cell) : Prop where
  inputs : vm.groupInputCells = []
  outputs : vm.groupOutputCells = [c]
  empty : ∃ s, GameState.decode c.data = .ok s ∧ s.seq = 0 ∧ s.players = []

/-- A transition advances one cell by a batch of signed intents. -/
structure IsTransition (P : Platform) (vm : Vm) (c c' : Cell) (batch : List Intent) : Prop where
  inputs : vm.groupInputCells = [c]
  outputs : vm.groupOutputCells = [c']
  loaded : loadBatch P vm = .ok batch
  signed : ∀ i ∈ batch, SignedFor P (gameIdOf vm.script) i
  applied : ∃ s s' out, GameState.decode c.data = .ok s ∧ GameState.decode c'.data = .ok out ∧
    s.applyBatch batch = .ok s' ∧ s'.equalsUnordered out = true

/-- What passes for a genesis is one: an empty board. -/
theorem verifyGenesis_ok {c : Cell} (hin : vm.groupInputCells = [])
    (hout : vm.groupOutputCells = [c]) (hok : verifyGenesis vm = .ok ()) : IsGenesis vm c := by
  obtain ⟨data, hdata, hok⟩ := bind_eq_ok.mp hok
  obtain ⟨s, hs, hok⟩ := bind_eq_ok.mp hok
  have hempty := rejectIf_eq_ok.mp hok
  push Not at hempty
  have hload : data = c.data := by
    rw [sys_eq_ok, Vm.loadGroupOutputData, hout] at hdata
    exact (Except.ok.inj hdata).symm
  rw [hload] at hs
  exact ⟨hin, hout, s, game_eq_ok.mp hs, hempty⟩

/-- What passes for a transition is one: signed moves, and the board they make. -/
theorem verifyTransition_ok {c c' : Cell} (hin : vm.groupInputCells = [c])
    (hout : vm.groupOutputCells = [c'])
    (hok : verifyTransition P vm (gameIdOf vm.script) = .ok ()) :
    ∃ batch, IsTransition P vm c c' batch := by
  -- one fact for each `?` of the source, in its order
  obtain ⟨inData, hinData, hok⟩ := bind_eq_ok.mp hok
  obtain ⟨outData, houtData, hok⟩ := bind_eq_ok.mp hok
  obtain ⟨s, hs, hok⟩ := bind_eq_ok.mp hok
  obtain ⟨out, hs', hok⟩ := bind_eq_ok.mp hok
  obtain ⟨batch, hbatch, hok⟩ := bind_eq_ok.mp hok
  obtain ⟨⟨⟩, hsigs, hok⟩ := bind_eq_ok.mp hok
  obtain ⟨s', happly, hok⟩ := bind_eq_ok.mp hok
  have heq := rejectIf_eq_ok.mp hok
  rw [Bool.not_eq_false] at heq
  -- the loaded data is that of the one input and the one output of the group
  have hloadIn : inData = c.data := by
    rw [sys_eq_ok, Vm.loadGroupInputData, hin] at hinData
    exact (Except.ok.inj hinData).symm
  have hloadOut : outData = c'.data := by
    rw [sys_eq_ok, Vm.loadGroupOutputData, hout] at houtData
    exact (Except.ok.inj houtData).symm
  rw [hloadIn] at hs
  rw [hloadOut] at hs'
  have hsigned : ∀ i ∈ batch, SignedFor P (gameIdOf vm.script) i :=
    fun i hi => verifyIntentSig_eq_ok.mp (forM_eq_ok.mp hsigs i hi)
  exact ⟨batch, hin, hout, hbatch, hsigned, s, s', out, game_eq_ok.mp hs, game_eq_ok.mp hs',
    game_eq_ok.mp happly, heq⟩

/-- **What the type script accepts**: a genesis, or a transition of one cell. -/
theorem verify_ok (hok : verify P vm = .ok ()) :
    (∃ c, IsGenesis vm c) ∨ ∃ c c' batch, IsTransition P vm c c' batch := by
  obtain ⟨-, hok⟩ := rejectIf_bind_eq_ok.mp hok
  split at hok
  · next hin hout =>
    obtain ⟨c, hc⟩ := List.length_eq_one_iff.mp hout
    exact Or.inl ⟨c, verifyGenesis_ok (List.length_eq_zero_iff.mp hin) hc hok⟩
  · next hin hout =>
    obtain ⟨c, hc⟩ := List.length_eq_one_iff.mp hin
    obtain ⟨c', hc'⟩ := List.length_eq_one_iff.mp hout
    obtain ⟨batch, hbatch⟩ := verifyTransition_ok hc hc' hok
    exact Or.inr ⟨c, c', batch, hbatch⟩
  · cases hok

/-- **And what it does not refuse**: every transition is accepted. -/
theorem verify_of_isTransition {c c' : Cell} {batch : List Intent}
    (hargs : vm.script.args.length = gameIdLen) (h : IsTransition P vm c c' batch) :
    verify P vm = .ok () := by
  obtain ⟨s, s', out, hs, hout, happly, heq⟩ := h.applied
  have hin : vm.loadGroupInputData 0 = .ok c.data := by
    rw [Vm.loadGroupInputData, h.inputs]
    rfl
  have hdata : vm.loadGroupOutputData 0 = .ok c'.data := by
    rw [Vm.loadGroupOutputData, h.outputs]
    rfl
  have hsigs : batch.forM (verifyIntentSig P (gameIdOf vm.script)) = .ok () :=
    forM_eq_ok.mpr fun i hi => verifyIntentSig_eq_ok.mpr (h.signed i hi)
  unfold verify
  rw [rejectIf_neg (not_not.mpr hargs), ok_bind, h.inputs, h.outputs]
  show verifyTransition P vm (gameIdOf vm.script) = .ok ()
  unfold verifyTransition
  rw [sys_eq_ok.mpr hin, ok_bind, sys_eq_ok.mpr hdata, ok_bind, game_eq_ok.mpr hs, ok_bind,
    game_eq_ok.mpr hout, ok_bind, h.loaded, ok_bind, hsigs, ok_bind, game_eq_ok.mpr happly, ok_bind]
  exact rejectIf_neg (by rw [heq]; exact Bool.noConfusion)

end CkbController.GameCell
