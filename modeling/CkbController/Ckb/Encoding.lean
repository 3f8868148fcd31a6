import CkbController.Lib.Molecule
import CkbController.Ckb.Transaction

/-!
# The molecule encodings of CKB structures

`ckb-types` serializes scripts, transactions and witnesses in molecule. Given a hash and a
signature check, `Platform.molecule` is the platform with these encodings, and
`WitnessArgs.decode_encode` is the one property of them the builders rely on: a
`WitnessArgs` that is not larger than a 32-bit size reads back as it was written. The bindings
read scripts from text; for these it is `Script.decode_encode`.
-/

namespace CkbController

open ByteCodec Molecule

/-! ## Encodings -/

/-- A table of `code_hash`, `hash_type` and `args`. -/
def Script.encode (s : Script) : Bytes := table [s.codeHash.toList, [s.hashType], bytes s.args]

/-- A struct: the fields one after the other, without a header. -/
def OutPoint.encode (o : OutPoint) : Bytes := o.txHash.toList ++ toLe o.index

def CellInput.encode (i : CellInput) : Bytes := toLe i.since ++ i.previousOutput.encode

def CellDep.encode (d : CellDep) : Bytes := d.outPoint.encode ++ [d.depType]

/-- An output without a type script has an empty third field. -/
def CellOutput.encode (o : CellOutput) : Bytes :=
  table [toLe o.capacity, o.lock.encode, (o.type.map Script.encode).getD []]

def RawTransaction.encode (raw : RawTransaction) : Bytes :=
  table [toLe raw.version, fixvec (raw.cellDeps.map CellDep.encode),
    fixvec (raw.headerDeps.map List.Vector.toList), fixvec (raw.inputs.map CellInput.encode),
    table (raw.outputs.map CellOutput.encode),
    table (raw.outputsData.map bytes)]

def Transaction.encode (tx : Transaction) : Bytes :=
  table [tx.raw.encode, table (tx.witnesses.map bytes)]

def WitnessArgs.encode (wa : WitnessArgs) : Bytes :=
  table [bytesOpt wa.lock, bytesOpt wa.inputType, bytesOpt wa.outputType]

/-- `WitnessArgs::from_slice`: a table of exactly three `BytesOpt` fields. -/
def WitnessArgs.decode (b : Bytes) : Option WitnessArgs :=
  match readTable 3 b with
  | some [lock, inputType, outputType] => do
    let lock ← readBytesOpt lock
    let inputType ← readBytesOpt inputType
    let outputType ← readBytesOpt outputType
    pure { lock, inputType, outputType }
  | _ => none

/-- `Script::from_slice`: a table of exactly three fields, each read as strictly. -/
def Script.decode (b : Bytes) : Option Script :=
  match readTable 3 b with
  | some [codeHash, hashType, args] => do
    let codeHash ← readArr 32 codeHash
    let hashType ← readByte hashType
    let args ← readBytes args
    pure { codeHash, hashType, args }
  | _ => none

def Platform.molecule (blake2b : Bytes → Byte32)
    (ckbAuth : UInt8 → Bytes → Byte32 → Bytes → Bool) : Platform where
  blake2b
  ckbAuth
  scriptSlice := Script.encode
  rawSlice := RawTransaction.encode
  txSlice := Transaction.encode
  witnessArgsSlice := WitnessArgs.encode
  witnessArgsFromSlice := WitnessArgs.decode

/-- How the molecule platform writes a witness. -/
theorem Platform.molecule_witnessArgsSlice (blake2b : Bytes → Byte32)
    (ckbAuth : UInt8 → Bytes → Byte32 → Bytes → Bool) :
    (Platform.molecule blake2b ckbAuth).witnessArgsSlice = WitnessArgs.encode := rfl

/-- How the molecule platform reads a witness. -/
theorem Platform.molecule_witnessArgsFromSlice (blake2b : Bytes → Byte32)
    (ckbAuth : UInt8 → Bytes → Byte32 → Bytes → Bool) :
    (Platform.molecule blake2b ckbAuth).witnessArgsFromSlice = WitnessArgs.decode := rfl

/-! ### A platform that computes

Concrete runs are evaluated with a polynomial hash in place of blake2b and a check that takes
any 65 bytes for a signature. -/

def sampleDigest (b : Bytes) : Byte32 :=
  ⟨leBytes 32 (b.foldl (fun h x => (h * 257 + x.toNat + 1) % 2 ^ 256) 0), leBytes_length 32 _⟩

def Platform.sample : Platform :=
  .molecule sampleDigest fun _ signature _ _ => signature.length == 65

def sampleKey (n : UInt8) : Byte20 := ⟨List.replicate 20 n, rfl⟩

def sampleHash (n : UInt8) : Byte32 := ⟨List.replicate 32 n, rfl⟩

def sampleSig : ByteArr 65 := ⟨List.replicate 65 4, rfl⟩

def sampleShop : Script := ⟨sampleHash 9, 1, [1, 2, 3]⟩

/-! ## Reading a witness back -/

/-- A witness is a table of three fields: 16 bytes of header. -/
theorem WitnessArgs.length_encode (wa : WitnessArgs) :
    wa.encode.length = 16 + (bytesOpt wa.lock).length + (bytesOpt wa.inputType).length +
      (bytesOpt wa.outputType).length := by
  rw [WitnessArgs.encode, length_table]
  simp only [List.length_cons, List.length_nil, List.flatten_cons, List.flatten_nil,
    List.length_append]
  omega

/-- **Round trip.** -/
theorem WitnessArgs.decode_encode {wa : WitnessArgs} (h : wa.encode.length < 2 ^ 32) :
    WitnessArgs.decode wa.encode = some wa := by
  have hlen := wa.length_encode
  have hread : readTable 3 wa.encode =
      some [bytesOpt wa.lock, bytesOpt wa.inputType, bytesOpt wa.outputType] :=
    readTable_table (by simp) h
  -- each field is a part of the whole, so its size fits as well
  have hlock : readBytesOpt (bytesOpt wa.lock) = some wa.lock :=
    readBytesOpt_bytesOpt (by omega)
  have hin : readBytesOpt (bytesOpt wa.inputType) = some wa.inputType :=
    readBytesOpt_bytesOpt (by omega)
  have hout : readBytesOpt (bytesOpt wa.outputType) = some wa.outputType :=
    readBytesOpt_bytesOpt (by omega)
  unfold WitnessArgs.decode
  rw [hread]
  simp only [hlock, hin, hout]
  rfl

/-- A slice that is too long for its size field does not read back at all. -/
theorem WitnessArgs.decode_encode_eq_some {wa wa' : WitnessArgs}
    (h : WitnessArgs.decode wa.encode = some wa') : wa' = wa := by
  rcases Nat.lt_or_ge wa.encode.length (2 ^ 32) with hlt | hge
  · rw [WitnessArgs.decode_encode hlt] at h
    exact (Option.some.inj h).symm
  · -- a larger table is refused: its size field has wrapped
    have hread : readTable 3 wa.encode = none := by
      unfold readTable
      rw [if_neg]
      rintro ⟨-, hsize, -⟩
      have := readNumber_lt wa.encode
      omega
    unfold WitnessArgs.decode at h
    rw [hread] at h
    cases h

/-- The documented behaviour of molecule on `WitnessArgs`: what a 32-bit size can hold reads back,
and nothing reads back as something else. -/
structure Platform.ReadsWitnesses (P : Platform) : Prop where
  reads : ∀ wa : WitnessArgs, wa.encode.length < 2 ^ 32 →
    P.witnessArgsFromSlice (P.witnessArgsSlice wa) = some wa
  faithful : ∀ wa wa' : WitnessArgs,
    P.witnessArgsFromSlice (P.witnessArgsSlice wa) = some wa' → wa' = wa

/-- The molecule platform reads its witnesses back. -/
theorem Platform.readsWitnesses_molecule (blake2b : Bytes → Byte32)
    (ckbAuth : UInt8 → Bytes → Byte32 → Bytes → Bool) :
    (Platform.molecule blake2b ckbAuth).ReadsWitnesses where
  reads := by
    intro wa h
    rw [Platform.molecule_witnessArgsSlice, Platform.molecule_witnessArgsFromSlice]
    exact WitnessArgs.decode_encode h
  faithful := by
    intro wa wa' h
    rw [Platform.molecule_witnessArgsSlice, Platform.molecule_witnessArgsFromSlice] at h
    exact WitnessArgs.decode_encode_eq_some h

/-! ## Reading a script back -/

/-- A script takes 53 bytes besides its args. -/
theorem Script.length_encode (s : Script) : s.encode.length = 53 + s.args.length := by
  rw [Script.encode, length_table]
  simp only [List.length_cons, List.length_nil, List.flatten_cons, List.flatten_nil,
    List.length_append, List.Vector.toList_length, length_bytes]
  omega

/-- **Round trip.** -/
theorem Script.decode_encode {s : Script} (h : s.encode.length < 2 ^ 32) :
    Script.decode s.encode = some s := by
  have hread : readTable 3 s.encode = some [s.codeHash.toList, [s.hashType], bytes s.args] :=
    readTable_table (by simp) h
  have hargs : readBytes (bytes s.args) = some s.args :=
    readBytes_bytes (length_field_lt h _ (by simp))
  unfold Script.decode
  rw [hread]
  simp only [readArr_toList, hargs]
  rfl

/-- The documented behaviour of molecule on scripts. -/
def Platform.WritesScripts (P : Platform) : Prop := ∀ s, P.scriptSlice s = s.encode

/-- The molecule platform writes scripts as tables. -/
theorem Platform.writesScripts_molecule (blake2b : Bytes → Byte32)
    (ckbAuth : UInt8 → Bytes → Byte32 → Bytes → Bool) :
    (Platform.molecule blake2b ckbAuth).WritesScripts :=
  fun _ => rfl

/-! ## Injectivity

A structure whose encoding fits a 32-bit size is determined by it. -/

/-- A script that fits is determined by its slice, as anything that goes by its hash assumes. -/
theorem Script.encode_injective {s s' : Script} (hsize : s.encode.length < 2 ^ 32)
    (h : s.encode = s'.encode) : s = s' := by
  obtain ⟨codeHash, hashType, args⟩ := s
  obtain ⟨codeHash', hashType', args'⟩ := s'
  have hfields := table_injective hsize h
  simp only [List.cons.injEq, and_true] at hfields
  obtain ⟨hcode, rfl, hargs⟩ := hfields
  obtain rfl := List.Vector.toList_injective hcode
  obtain rfl := bytes_injective hargs
  rfl

/-- An out point is of one width, so no size limits it. -/
theorem OutPoint.encode_injective : Function.Injective OutPoint.encode := by
  rintro ⟨txHash, index⟩ ⟨txHash', index'⟩ h
  obtain ⟨hhash, hindex⟩ := List.append_inj h
    (by rw [List.Vector.toList_length, List.Vector.toList_length])
  obtain rfl := List.Vector.toList_injective hhash
  obtain rfl := toLe_injective (by decide) hindex
  rfl

/-- An input is of one width too. -/
theorem CellInput.encode_injective : Function.Injective CellInput.encode := by
  rintro ⟨since, previousOutput⟩ ⟨since', previousOutput'⟩ h
  obtain ⟨hsince, hprevious⟩ := List.append_inj h (by rw [toLe_length, toLe_length])
  obtain rfl := toLe_injective (by decide) hsince
  obtain rfl := OutPoint.encode_injective hprevious
  rfl

/-- A hash and an index. -/
theorem OutPoint.length_encode (o : OutPoint) : o.encode.length = 36 := by
  rw [OutPoint.encode, List.length_append, List.Vector.toList_length, toLe_length]

/-- An out point after `since`. -/
theorem CellInput.length_encode (i : CellInput) : i.encode.length = 44 := by
  rw [CellInput.encode, List.length_append, toLe_length, OutPoint.length_encode]

/-- An out point before `dep_type`. -/
theorem CellDep.length_encode (d : CellDep) : d.encode.length = 37 := by
  rw [CellDep.encode, List.length_append, OutPoint.length_encode]
  rfl

/-- A cell dep is of one width too. -/
theorem CellDep.encode_injective : Function.Injective CellDep.encode := by
  rintro ⟨outPoint, depType⟩ ⟨outPoint', depType'⟩ h
  obtain ⟨hout, htype⟩ := List.append_inj h
    (by rw [OutPoint.length_encode, OutPoint.length_encode])
  obtain rfl := OutPoint.encode_injective hout
  obtain rfl := List.singleton_inj.mp htype
  rfl

/-- An optional script: no encoding is empty. -/
theorem Script.encode_option_injective {t t' : Option Script}
    (hsize : ((t.map Script.encode).getD []).length < 2 ^ 32)
    (h : (t.map Script.encode).getD [] = (t'.map Script.encode).getD []) : t = t' := by
  -- a script is never encoded as nothing, which stands for its absence
  cases t with
  | none =>
    cases t' with
    | none => rfl
    | some s' =>
      have hlength := s'.length_encode
      rw [show s'.encode = [] from h.symm, List.length_nil] at hlength
      omega
  | some s =>
    cases t' with
    | none =>
      have hlength := s.length_encode
      rw [show s.encode = [] from h, List.length_nil] at hlength
      omega
    | some s' => rw [Script.encode_injective hsize h]

/-- An output that fits is determined by its slice, its optional type script included. -/
theorem CellOutput.encode_injective {o o' : CellOutput} (hsize : o.encode.length < 2 ^ 32)
    (h : o.encode = o'.encode) : o = o' := by
  obtain ⟨capacity, lock, type⟩ := o
  obtain ⟨capacity', lock', type'⟩ := o'
  have hfields := table_injective hsize h
  simp only [List.cons.injEq, and_true] at hfields
  obtain ⟨hcapacity, hlock, htype⟩ := hfields
  have hle := length_field_lt hsize
  obtain rfl := toLe_injective (by decide) hcapacity
  obtain rfl := Script.encode_injective (hle _ (by simp)) hlock
  obtain rfl := Script.encode_option_injective (hle _ (by simp)) htype
  rfl

/-- **A transaction is determined by its raw slice**, if that fits: what a signature covers is this
transaction and no other one. -/
theorem RawTransaction.encode_injective {raw raw' : RawTransaction}
    (hsize : raw.encode.length < 2 ^ 32) (h : raw.encode = raw'.encode) : raw = raw' := by
  obtain ⟨version, cellDeps, headerDeps, inputs, outputs, outputsData⟩ := raw
  obtain ⟨version', cellDeps', headerDeps', inputs', outputs', outputsData'⟩ := raw'
  have hfields := table_injective hsize h
  -- the bounds of the fields, for the vectors in them
  have hle := length_field_lt hsize
  simp only [List.cons.injEq, and_true] at hfields
  obtain ⟨hversion, hdeps, hheaders, hinputs, houtputs, hdata⟩ := hfields
  -- field by field, from the version on
  obtain rfl := toLe_injective (by decide) hversion
  obtain rfl := fixvec_map_injective CellDep.encode_injective (by decide) CellDep.length_encode
    (hle _ (by simp)) hdeps
  obtain rfl := fixvec_map_injective List.Vector.toList_injective (by decide)
    List.Vector.toList_length (hle _ (by simp)) hheaders
  obtain rfl := fixvec_map_injective CellInput.encode_injective (by decide)
    CellInput.length_encode (hle _ (by simp)) hinputs
  obtain rfl := table_map_injective (fun _ _ => CellOutput.encode_injective) (hle _ (by simp))
    houtputs
  obtain rfl := table_map_injective (fun _ _ _ => bytes_injective) (hle _ (by simp)) hdata
  rfl

/-! ## Sizes -/

/-- An output takes 24 bytes besides its scripts. -/
theorem CellOutput.length_encode (o : CellOutput) :
    o.encode.length =
      24 + o.lock.encode.length + ((o.type.map Script.encode).getD []).length := by
  rw [CellOutput.encode, length_table]
  simp only [List.length_cons, List.length_nil, List.flatten_cons, List.flatten_nil,
    List.length_append, toLe_length]
  omega

/-- The size of a transaction by the numbers of its items; only the outputs and their data are of
any size. -/
theorem RawTransaction.length_encode (raw : RawTransaction) :
    raw.encode.length =
      44 + 37 * raw.cellDeps.length + 32 * raw.headerDeps.length + 44 * raw.inputs.length +
        (table (raw.outputs.map CellOutput.encode)).length +
        (table (raw.outputsData.map bytes)).length := by
  have hdeps := length_fixvec_map CellDep.length_encode raw.cellDeps
  have hheaders := length_fixvec_map (f := List.Vector.toList) List.Vector.toList_length
    raw.headerDeps
  have hinputs := length_fixvec_map CellInput.length_encode raw.inputs
  rw [RawTransaction.encode, length_table]
  simp only [List.length_cons, List.length_nil, List.flatten_cons, List.flatten_nil,
    List.length_append, toLe_length]
  omega

/-- A transaction and its witnesses. -/
theorem Transaction.length_encode (tx : Transaction) :
    tx.encode.length = 12 + tx.raw.encode.length + (table (tx.witnesses.map bytes)).length := by
  rw [Transaction.encode, length_table]
  simp only [List.length_cons, List.length_nil, List.flatten_cons, List.flatten_nil,
    List.length_append]
  omega

/-- The documented behaviour of molecule on raw transactions: one that fits a 32-bit size starts
with its own length, and no other is written the same. -/
structure Platform.WritesTables (P : Platform) : Prop where
  headed : ∀ raw, (P.rawSlice raw).length < 2 ^ 32 →
    readNumber (P.rawSlice raw) = (P.rawSlice raw).length
  injective : ∀ raw raw', (P.rawSlice raw).length < 2 ^ 32 →
    P.rawSlice raw = P.rawSlice raw' → raw = raw'

/-- The molecule platform writes transactions as tables. -/
theorem Platform.writesTables_molecule (blake2b : Bytes → Byte32)
    (ckbAuth : UInt8 → Bytes → Byte32 → Bytes → Bool) :
    (Platform.molecule blake2b ckbAuth).WritesTables where
  headed := fun _ hsize => readNumber_table hsize
  injective := fun _ _ hsize h => RawTransaction.encode_injective hsize h

/-- The documented behaviour of molecule on whole transactions: how many bytes one takes. -/
def Platform.SizesTransactions (P : Platform) : Prop :=
  ∀ tx, (P.txSlice tx).length = tx.encode.length

/-- The molecule platform makes transactions of these sizes. -/
theorem Platform.sizesTransactions_molecule (blake2b : Bytes → Byte32)
    (ckbAuth : UInt8 → Bytes → Byte32 → Bytes → Bool) :
    (Platform.molecule blake2b ckbAuth).SizesTransactions :=
  fun _ => rfl

end CkbController
