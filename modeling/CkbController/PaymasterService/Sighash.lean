import CkbController.Ckb.Encoding

/-!
# The operator's lock signature

`sign_sighash_all` fills the lock of witness 0 with a signature over the transaction hash, the
witness with 65 zeros for a lock, and the witnesses beyond the inputs. The system lock reads the
signed transaction: it zeroes the lock where it stands in the bytes of the witness and hashes the
same things. `sign_sighash_all_message` is that both hash the same bytes.
-/

namespace CkbController.PaymasterService

open ByteCodec Molecule

/-! ## The signer -/

/-- secp256k1, and what molecule says of a slice that is no `WitnessArgs`. -/
structure Signer (SecretKey : Type _) where
  signEcdsaRecoverable : SecretKey → (message : Byte32) → ByteArr 64 × UInt8
  verificationError : Bytes → String

section Sign

variable {SecretKey : Type _} (S : Signer SecretKey) (P : Platform)

/-- The compact signature and the recovery id. -/
def Signer.sig65 (sk : SecretKey) (message : Byte32) : ByteArr 65 :=
  let (compact, recId) := S.signEcdsaRecoverable sk message
  ⟨compact.toList ++ [recId], by rw [List.length_append, List.Vector.toList_length]; rfl⟩

/-- What the hasher reads of a witness. -/
def hashWitness (witness : Bytes) : Bytes := leBytes 8 witness.length ++ witness

def placeholder : Bytes := List.replicate 65 0

def zeroedLockWitness (args : WitnessArgs) : Bytes :=
  P.witnessArgsSlice { args with lock := some placeholder }

/-- The message that is signed, for a transaction whose witness 0 is `args`. -/
def sighashMessage (tx : Transaction) (args : WitnessArgs) : Byte32 :=
  P.blake2b ((P.txHash tx.raw).toList ++ hashWitness (zeroedLockWitness P args) ++
    (tx.witnesses.drop tx.raw.inputs.length).flatMap hashWitness)

def signSighashAll (tx : Transaction) (sk : SecretKey) : Except String Transaction :=
  match tx.witnesses with
  | [] => .error "tx has no witness 0"
  | witness0 :: witnesses =>
    match P.witnessArgsFromSlice witness0 with
    | none => .error s!"witness 0 is not WitnessArgs: {S.verificationError witness0}"
    | some args =>
      let sig65 := S.sig65 sk (sighashMessage P tx args)
      -- the other two fields stay
      let signed := P.witnessArgsSlice { args with lock := some sig65.toList }
      .ok { tx with witnesses := signed :: witnesses }

end Sign

/-! ## The system lock

Its own code hashes bytes of the witness, of which it overwrites 65. It is stated here for a lock
group of one input, at index 0. -/

/-- The content of the first field, after the size of a table, its offsets and the length. -/
def lockStart (witness : Bytes) : Nat := readNumber (witness.drop 4) + 4

/-- The witness with its 65-byte lock overwritten by zeros. -/
def zeroLock (witness : Bytes) : Option Bytes := do
  let args ← WitnessArgs.decode witness
  let lock ← args.lock
  if lock.length = 65 then
    some (witness.take (lockStart witness) ++ List.replicate 65 0 ++
      witness.drop (lockStart witness + 65))
  else none

/-- The message that the system lock verifies the signature of witness 0 against. -/
def systemLockMessage (P : Platform) (tx : Transaction) : Option Byte32 := do
  let witness0 ← tx.witnesses.head?
  let zeroed ← zeroLock witness0
  some (P.blake2b ((P.txHash tx.raw).toList ++ hashWitness zeroed ++
    (tx.witnesses.drop tx.raw.inputs.length).flatMap hashWitness))

/-! ## The lock in the bytes of a witness -/

section Bytes

variable {args : WitnessArgs} {lock : Bytes}

/-- What stands before a lock of 65 bytes. -/
def lockHead (args : WitnessArgs) : Bytes :=
  let inputType := bytesOpt args.inputType
  let outputType := bytesOpt args.outputType
  number (16 + (69 + (inputType.length + outputType.length))) ++ number 16 ++ number (16 + 69) ++
    number (16 + 69 + inputType.length) ++ number 65

theorem length_lockHead : (lockHead args).length = 20 := by
  simp [lockHead]

/-- The bytes of a witness depend on its lock in one place. -/
theorem encode_lock (h : lock.length = 65) :
    WitnessArgs.encode { args with lock := some lock } =
      lockHead args ++ lock ++ (bytesOpt args.inputType ++ bytesOpt args.outputType) := by
  have hlength : (bytesOpt (some lock)).length = 69 := by
    show (bytes lock).length = 69
    rw [length_bytes, h]
  have hbytes : bytesOpt (some lock) = number 65 ++ lock := by
    rw [bytesOpt, bytes, h]
  simp only [WitnessArgs.encode, table, lockHead, offsets, List.length_cons, List.length_nil,
    List.flatten_cons, List.flatten_nil, List.length_append, List.flatMap_cons, List.flatMap_nil,
    List.append_nil, List.append_assoc, hlength]
  rw [hbytes]
  simp only [List.append_assoc]

theorem lockStart_encode (h : lock.length = 65) :
    lockStart (WitnessArgs.encode { args with lock := some lock }) = 20 := by
  rw [encode_lock h, lockStart, lockHead]
  simp only [List.append_assoc]
  rw [List.drop_left' (number_length _), readNumber_number (by decide)]

/-- The lock is overwritten where it stands. -/
theorem zeroLock_encode (h : lock.length = 65)
    (hread : WitnessArgs.decode (WitnessArgs.encode { args with lock := some lock }) =
      some { args with lock := some lock }) :
    zeroLock (WitnessArgs.encode { args with lock := some lock }) =
      some (WitnessArgs.encode { args with lock := some placeholder }) := by
  unfold zeroLock
  rw [hread]
  simp only [Option.bind_eq_bind, Option.bind_some]
  rw [if_pos h, lockStart_encode h, encode_lock h,
    encode_lock (show placeholder.length = 65 from rfl)]
  have htake : (lockHead args ++ lock ++ (bytesOpt args.inputType ++ bytesOpt args.outputType)).take
      20 = lockHead args := by
    rw [List.append_assoc, List.take_left' length_lockHead]
  have hdrop : (lockHead args ++ lock ++ (bytesOpt args.inputType ++ bytesOpt args.outputType)).drop
      (20 + 65) = bytesOpt args.inputType ++ bytesOpt args.outputType :=
    List.drop_left' (by rw [List.length_append, length_lockHead, h])
  rw [htake, hdrop]
  rfl

end Bytes

/-! ## Signing -/

section Message

variable {SecretKey : Type _} {S : Signer SecretKey} {P : Platform} {tx : Transaction}
  {witness0 : Bytes} {witnesses : List Bytes} {args : WitnessArgs}

theorem signSighashAll_eq (sk : SecretKey) (hwitnesses : tx.witnesses = witness0 :: witnesses)
    (hargs : P.witnessArgsFromSlice witness0 = some args) :
    signSighashAll S P tx sk = .ok { tx with
      witnesses := P.witnessArgsSlice
          { args with lock := some (S.sig65 sk (sighashMessage P tx args)).toList } ::
        witnesses } := by
  unfold signSighashAll
  rw [hwitnesses]
  simp only [hargs]

theorem systemLockMessage_eq {zeroed : Bytes} (hwitnesses : tx.witnesses = witness0 :: witnesses)
    (hzeroed : zeroLock witness0 = some zeroed) :
    systemLockMessage P tx = some (P.blake2b ((P.txHash tx.raw).toList ++ hashWitness zeroed ++
      (tx.witnesses.drop tx.raw.inputs.length).flatMap hashWitness)) := by
  unfold systemLockMessage
  rw [hwitnesses]
  simp only [List.head?_cons, Option.bind_eq_bind, Option.bind_some, hzeroed]

/-- The message does not depend on the lock, nor on the bytes of witness 0 of the one input. -/
theorem sighashMessage_congr {tx' : Transaction} {args' : WitnessArgs} {witness0' : Bytes}
    (hinput : tx.raw.inputs.length = 1) (hwitnesses : tx.witnesses = witness0 :: witnesses)
    (hwitnesses' : tx'.witnesses = witness0' :: witnesses) (hraw : tx'.raw = tx.raw)
    (hinputType : args'.inputType = args.inputType)
    (houtputType : args'.outputType = args.outputType) :
    sighashMessage P tx' args' = sighashMessage P tx args := by
  unfold sighashMessage zeroedLockWitness
  -- witness 0 is hashed from its fields, and dropped from the witnesses
  rw [hraw, hinput, hwitnesses, hwitnesses', hinputType, houtputType]
  rfl

end Message

/-- **The lock verifies what was signed.** For a transaction of one input whose witness 0 is a
`WitnessArgs`, whatever its lock and the other witnesses are: signing replaces the lock of
witness 0 and nothing else, and the message is the one that the system lock computes from the
signed transaction. Signing again signs the same message, so it changes nothing. -/
theorem sign_sighash_all_message {SecretKey : Type} (S : Signer SecretKey)
    (blake2b : Bytes → Byte32) (ckbAuth : UInt8 → Bytes → Byte32 → Bytes → Bool)
    (tx : Transaction) (sk : SecretKey) (witness0 : Bytes) (witnesses : List Bytes)
    (args : WitnessArgs) (hinput : tx.raw.inputs.length = 1)
    (hwitnesses : tx.witnesses = witness0 :: witnesses)
    (hargs : WitnessArgs.decode witness0 = some args)
    (hroundTrip : ∀ lock : Bytes, lock.length = 65 →
      WitnessArgs.decode (WitnessArgs.encode { args with lock := some lock }) =
        some { args with lock := some lock }) :
    let P := Platform.molecule blake2b ckbAuth
    let message := sighashMessage P tx args
    let args' : WitnessArgs := { args with lock := some (S.sig65 sk message).toList }
    ∃ signed witness0', signSighashAll S P tx sk = .ok signed ∧ signed.raw = tx.raw ∧
      signed.witnesses = witness0' :: witnesses ∧ WitnessArgs.decode witness0' = some args' ∧
      systemLockMessage P signed = some message ∧ sighashMessage P signed args' = message ∧
      signSighashAll S P signed sk = .ok signed := by
  intro P message args'
  have hsig : (S.sig65 sk message).toList.length = 65 := List.Vector.toList_length _
  have hargs' : WitnessArgs.decode (WitnessArgs.encode args') = some args' := hroundTrip _ hsig
  let signed : Transaction := { tx with witnesses := WitnessArgs.encode args' :: witnesses }
  have hsame : sighashMessage P signed args' = message :=
    sighashMessage_congr hinput hwitnesses rfl rfl rfl rfl
  have hsign : signSighashAll S P tx sk = .ok signed := signSighashAll_eq sk hwitnesses hargs
  refine ⟨signed, WitnessArgs.encode args', hsign, rfl, rfl, hargs', ?_, hsame, ?_⟩
  · -- the lock overwrites the signature with the signer's placeholder
    have hlock := @systemLockMessage_eq P signed _ _ _ rfl (zeroLock_encode hsig hargs')
    exact hlock.trans (congrArg some hsame)
  · -- the same message gets the same signature, in the place of the same signature
    have hagain := @signSighashAll_eq _ S P signed _ _ _ sk rfl hargs'
    rw [hsame] at hagain
    exact hagain

/-! ### A transition with a witness beyond its input -/

section Sample

def sampleSigner : Signer Unit where
  signEcdsaRecoverable _ message := (⟨message.toList ++ message.toList, by simp⟩, 1)
  verificationError _ := "WitnessArgs: header is broken"

def unsignedArgs : WitnessArgs := ⟨none, some [7, 7, 7], none⟩

def unsignedTx : Transaction where
  raw :=
    { version := 0
      cellDeps := []
      headerDeps := []
      inputs := [⟨0, ⟨sampleHash 1, 0⟩⟩]
      outputs := []
      outputsData := [] }
  witnesses := [unsignedArgs.encode, [1, 2, 3]]

theorem sign_sighash_all_message_two_witnesses :
    let message := sighashMessage .sample unsignedTx unsignedArgs
    let args : WitnessArgs :=
      { unsignedArgs with lock := some (sampleSigner.sig65 () message).toList }
    ∃ signed witness0, signSighashAll sampleSigner .sample unsignedTx () = .ok signed ∧
      signed.raw = unsignedTx.raw ∧ signed.witnesses = [witness0, [1, 2, 3]] ∧
      WitnessArgs.decode witness0 = some args ∧
      systemLockMessage .sample signed = some message ∧
      sighashMessage .sample signed args = message ∧
      signSighashAll sampleSigner .sample signed () = .ok signed := by
  refine sign_sighash_all_message sampleSigner sampleDigest
    (fun _ signature _ _ => signature.length == 65) unsignedTx () unsignedArgs.encode [[1, 2, 3]]
    unsignedArgs rfl rfl (WitnessArgs.decode_encode (by decide +kernel)) ?_
  intro lock hlock
  refine WitnessArgs.decode_encode ?_
  rw [encode_lock hlock, List.length_append, List.length_append, length_lockHead, hlock]
  decide

end Sample

end CkbController.PaymasterService
