import CkbController.Lib.ByteCodec

/-!
# Molecule tables, vectors and options

The molecule wire format, as far as tables of variable-width fields need it. A table (and a
dynamic vector, which has the same layout) is its total size, the offset of each field, and then
the fields; sizes and offsets are 4-byte little-endian. The strict reader `readTable n` accepts
exactly `n` fields, the way generated molecule readers verify a slice.

`readTable_table` and `readBytes_bytes` are the round trips, for encodings whose total size
fits in 4 bytes.
-/

namespace Molecule

open ByteCodec

/-! ## Numbers -/

def number (n : Nat) : Bytes := leBytes 4 n

def readNumber (b : Bytes) : Nat := leNat (b.take 4)

/-- The first `n` numbers of a string (`chunks_exact(4).map(unpack_number)`). -/
def readNumbers : Nat → Bytes → List Nat
  | 0, _ => []
  | n + 1, b => readNumber b :: readNumbers n (b.drop 4)

@[simp] theorem number_length (n : Nat) : (number n).length = 4 := leBytes_length 4 n

/-- **Round trip** of a number in four bytes. -/
theorem readNumber_number {n : Nat} (h : n < 2 ^ 32) (rest : Bytes) :
    readNumber (number n ++ rest) = n := by
  rw [readNumber, List.take_left' (number_length n), number, leNat_leBytes]
  exact Nat.mod_eq_of_lt h

/-- What is read fits into four bytes. -/
theorem readNumber_lt (b : Bytes) : readNumber b < 2 ^ 32 := by
  have hlt := leNat_lt (b.take 4)
  have hle : 256 ^ (b.take 4).length ≤ 256 ^ 4 :=
    Nat.pow_le_pow_right (by decide) (by rw [List.length_take]; omega)
  unfold readNumber
  omega

/-- As many numbers as were written are read back. -/
theorem readNumbers_flatMap {ns : List Nat} (h : ∀ n ∈ ns, n < 2 ^ 32) (rest : Bytes) :
    readNumbers ns.length (ns.flatMap number ++ rest) = ns := by
  induction ns with
  | nil => rfl
  | cons n ns ih =>
    have hhead : n < 2 ^ 32 := h n List.mem_cons_self
    have htail : ∀ m ∈ ns, m < 2 ^ 32 := fun m hm => h m (List.mem_cons_of_mem n hm)
    rw [List.flatMap_cons, List.append_assoc, List.length_cons, readNumbers,
      readNumber_number hhead, List.drop_left' (number_length n), ih htail]

theorem length_flatMap_number (ns : List Nat) : (ns.flatMap number).length = 4 * ns.length := by
  induction ns with
  | nil => rfl
  | cons n ns ih =>
    rw [List.flatMap_cons, List.length_append, number_length, ih, List.length_cons]
    omega

/-! ## Tables -/

/-- Where each field starts, when the first one starts at `start`. -/
def offsets (start : Nat) : List Bytes → List Nat
  | [] => []
  | f :: fields => start :: offsets (start + f.length) fields

/-- `total_size ‖ offsets ‖ fields`: a table, or a dynamic vector of items. -/
def table (fields : List Bytes) : Bytes :=
  let header := 4 * (fields.length + 1)
  number (header + fields.flatten.length) ++ (offsets header fields).flatMap number ++
    fields.flatten

def cut (b : Bytes) : List Nat → List Bytes
  | i :: j :: offs => slice b i j :: cut b (j :: offs)
  | _ => []

/-- The strict reader of a table with `n` fields. -/
def readTable (n : Nat) (b : Bytes) : Option (List Bytes) :=
  let offs := readNumbers n (b.drop 4) ++ [b.length]
  if 4 * (n + 1) ≤ b.length ∧ readNumber b = b.length ∧
      readNumber (b.drop 4) = 4 * (n + 1) ∧ offs.Pairwise (· ≤ ·) then
    some (cut b offs)
  else none

/-- There is one offset for each field. -/
@[simp] theorem length_offsets (start : Nat) (fields : List Bytes) :
    (offsets start fields).length = fields.length := by
  induction fields generalizing start with
  | nil => rfl
  | cons f fields ih => rw [offsets, List.length_cons, ih, List.length_cons]

/-- A table is its size and offsets, of four bytes each, and its fields. -/
theorem length_table (fields : List Bytes) :
    (table fields).length = 4 * (fields.length + 1) + fields.flatten.length := by
  simp only [table, List.length_append, number_length, length_flatMap_number, length_offsets]
  omega

/-- Every field starts within the fields. -/
theorem mem_offsets {start : Nat} {fields : List Bytes} {o : Nat} (h : o ∈ offsets start fields) :
    start ≤ o ∧ o ≤ start + fields.flatten.length := by
  induction fields generalizing start with
  | nil => cases h
  | cons f fields ih =>
    rw [List.flatten_cons, List.length_append]
    rcases List.mem_cons.mp h with rfl | h
    · omega
    · have := ih h
      omega

/-- Fields start in order, and the table ends after them. -/
theorem pairwise_offsets (start : Nat) (fields : List Bytes) :
    (offsets start fields ++ [start + fields.flatten.length]).Pairwise (· ≤ ·) := by
  -- the offsets of the rest start where the first field ends
  induction fields generalizing start with
  | nil => exact List.pairwise_singleton _ _
  | cons f fields ih =>
    have hend : start + (f :: fields).flatten.length =
        start + f.length + fields.flatten.length := by
      rw [List.flatten_cons, List.length_append]
      omega
    rw [hend, offsets, List.cons_append, List.pairwise_cons]
    refine ⟨fun o ho => ?_, ih (start + f.length)⟩
    rcases List.mem_append.mp ho with ho | ho
    · have := mem_offsets ho
      omega
    · have := List.mem_singleton.mp ho
      omega

/-- Cutting at the offsets of fields that follow a prefix gives the fields back. -/
theorem cut_offsets (pre : Bytes) (fields : List Bytes) :
    cut (pre ++ fields.flatten)
      (offsets pre.length fields ++ [pre.length + fields.flatten.length]) = fields := by
  induction fields generalizing pre with
  | nil => rfl
  | cons f fields ih =>
    -- the first field moves into the prefix
    have hmove : pre ++ (f :: fields).flatten = (pre ++ f) ++ fields.flatten := by
      rw [List.flatten_cons, List.append_assoc]
    have hend : pre.length + (f :: fields).flatten.length =
        (pre ++ f).length + fields.flatten.length := by
      rw [List.flatten_cons, List.length_append, List.length_append]
      omega
    have hfield : slice ((pre ++ f) ++ fields.flatten) pre.length (pre ++ f).length = f := by
      rw [slice_append_left (Nat.le_refl _), slice_append_right (Nat.le_refl _), Nat.sub_self,
        List.length_append, Nat.add_sub_cancel_left, slice_zero_length]
    have hrest := ih (pre ++ f)
    rw [hmove, hend, offsets, ← List.length_append]
    -- the second offset is where the first field ends, whatever follows
    cases fields with
    | nil =>
      rw [List.cons_append, offsets, List.nil_append, cut, List.flatten_nil, List.length_nil,
        Nat.add_zero, ← List.flatten_nil, hfield]
      rfl
    | cons g gs =>
      rw [offsets, List.cons_append, List.cons_append, cut, hfield]
      rw [offsets, List.cons_append] at hrest
      rw [hrest]

/-- A table starts with its own size. -/
theorem readNumber_table {fields : List Bytes} (hsize : (table fields).length < 2 ^ 32) :
    readNumber (table fields) = (table fields).length := by
  have hlen := length_table fields
  rw [hlen, table, List.append_assoc]
  exact readNumber_number (by omega) _

/-- The first offset tells how many fields there are. -/
theorem readNumber_drop_table {fields : List Bytes} (hne : fields ≠ [])
    (hsize : (table fields).length < 2 ^ 32) :
    readNumber ((table fields).drop 4) = 4 * (fields.length + 1) := by
  have hlen := length_table fields
  obtain ⟨f, fs, rfl⟩ := List.exists_cons_of_ne_nil hne
  rw [table, List.append_assoc, List.drop_left' (number_length _), offsets, List.flatMap_cons,
    List.append_assoc]
  exact readNumber_number (by omega) _

/-- **Round trip.** The strict reader accepts a table and returns its fields. -/
theorem readTable_table {fields : List Bytes} (hne : fields ≠ [])
    (hsize : (table fields).length < 2 ^ 32) :
    readTable fields.length (table fields) = some fields := by
  have hlen := length_table fields
  let header := 4 * (fields.length + 1)
  let pre := number (header + fields.flatten.length) ++ (offsets header fields).flatMap number
  have hpre : pre.length = header := by
    simp only [pre, List.length_append, number_length, length_flatMap_number, length_offsets]
    omega
  -- a table is a header of known length and the fields
  have htable : table fields = pre ++ fields.flatten := rfl
  have hdrop : (table fields).drop 4 =
      (offsets header fields).flatMap number ++ fields.flatten := by
    rw [htable, List.append_assoc, List.drop_left' (number_length _)]
  have hsmall : ∀ o ∈ offsets header fields, o < 2 ^ 32 := by
    intro o ho
    have := (mem_offsets ho).2
    omega
  have hnumbers : readNumbers fields.length ((table fields).drop 4) = offsets header fields := by
    rw [hdrop]
    have hread := readNumbers_flatMap hsmall fields.flatten
    rwa [length_offsets] at hread
  -- so the offsets the reader cuts at are those of the writer
  have hoffs : readNumbers fields.length ((table fields).drop 4) ++ [(table fields).length] =
      offsets pre.length fields ++ [pre.length + fields.flatten.length] := by
    rw [hnumbers, hlen, hpre]
  unfold readTable
  rw [if_pos]
  · rw [hoffs, htable, cut_offsets]
  · refine ⟨by omega, readNumber_table hsize, readNumber_drop_table hne hsize, ?_⟩
    rw [hoffs]
    exact pairwise_offsets _ _

/-! ## Options and vectors -/

def bytes (b : Bytes) : Bytes := number b.length ++ b

def bytesOpt : Option Bytes → Bytes
  | none => []
  | some b => bytes b

def readBytes (b : Bytes) : Option Bytes :=
  if 4 ≤ b.length ∧ b.length = 4 + readNumber b then some (b.drop 4) else none

/-- An absent string is no bytes at all. -/
def readBytesOpt (b : Bytes) : Option (Option Bytes) :=
  if b = [] then some none else (readBytes b).map some

def readArr (n : Nat) (b : Bytes) : Option (ByteArr n) :=
  if h : b.length = n then some ⟨b, h⟩ else none

def readByte : Bytes → Option UInt8
  | [x] => some x
  | _ => none

/-- A vector of fixed-width items: the item count, then the items. -/
def fixvec (items : List Bytes) : Bytes := number items.length ++ items.flatten

@[simp] theorem length_bytes (b : Bytes) : (bytes b).length = 4 + b.length := by
  rw [bytes, List.length_append, number_length]

/-- Items of one width. -/
theorem length_fixvec_map {α : Type _} {f : α → Bytes} {w : Nat} (hw : ∀ a, (f a).length = w)
    (l : List α) : (fixvec (l.map f)).length = 4 + w * l.length := by
  have hflat : (l.map f).flatten.length = l.length * w := by
    rw [← List.flatMap_def]
    exact length_flatMap_width fun a _ => hw a
  rw [fixvec, List.length_append, number_length, hflat, Nat.mul_comm]

/-- One more item takes its own bytes and an offset. -/
theorem length_table_concat (items : List Bytes) (b : Bytes) :
    (table (items ++ [b])).length = (table items).length + 4 + b.length := by
  rw [length_table, length_table, List.flatten_append, List.flatten_singleton, List.length_append,
    List.length_append, List.length_singleton]
  omega

/-- **Round trip** of an array. -/
theorem readArr_toList {n : Nat} (a : ByteArr n) : readArr n a.toList = some a := by
  unfold readArr
  rw [dif_pos a.toList_length]
  rfl

/-- **Round trip** of a string. -/
theorem readBytes_bytes {b : Bytes} (h : (bytes b).length < 2 ^ 32) :
    readBytes (bytes b) = some b := by
  have hlen := length_bytes b
  have hnum : readNumber (bytes b) = b.length := readNumber_number (by omega) b
  unfold readBytes
  rw [if_pos ⟨by omega, by rw [hlen, hnum]⟩, bytes, List.drop_left' (number_length _)]

/-- **Round trip** of an optional string: one that is there takes at least four bytes. -/
theorem readBytesOpt_bytesOpt {o : Option Bytes} (h : (bytesOpt o).length < 2 ^ 32) :
    readBytesOpt (bytesOpt o) = some o := by
  cases o with
  | none => rfl
  | some b =>
    have hlen : (bytesOpt (some b)).length = 4 + b.length := length_bytes b
    have hne : bytesOpt (some b) ≠ [] := by
      apply List.ne_nil_of_length_pos
      omega
    have hread : readBytes (bytesOpt (some b)) = some b := readBytes_bytes h
    rw [readBytesOpt, if_neg hne, hread]
    rfl

/-! ## Injectivity

What fits a 32-bit size is written in one way only. -/

/-- No field is longer than its table. -/
theorem length_le_of_mem_table {fields : List Bytes} {f : Bytes} (h : f ∈ fields) :
    f.length ≤ (table fields).length := by
  have hle := (List.sublist_flatten_of_mem h).length_le
  rw [length_table]
  omega

/-- A field of a table whose size fits. -/
theorem length_field_lt {fields : List Bytes} (hsize : (table fields).length < 2 ^ 32) :
    ∀ f ∈ fields, f.length < 2 ^ 32 :=
  fun _ hf => Nat.lt_of_le_of_lt (length_le_of_mem_table hf) hsize

/-- A table that fits is written for one list of fields. -/
theorem table_injective {fields fields' : List Bytes} (hsize : (table fields).length < 2 ^ 32)
    (h : table fields = table fields') : fields = fields' := by
  have hlen := length_table fields
  have hlen' := length_table fields'
  have hsize' : (table fields').length < 2 ^ 32 := h ▸ hsize
  by_cases hne : fields = []
  · -- only the empty table is four bytes long
    subst hne
    rw [← h, hlen, List.flatten_nil, List.length_nil, List.length_nil] at hlen'
    exact (List.eq_nil_of_length_eq_zero (by omega)).symm
  · have hne' : fields' ≠ [] := by
      rintro rfl
      rw [List.length_nil, List.flatten_nil, List.length_nil, ← h] at hlen'
      exact hne (List.eq_nil_of_length_eq_zero (by omega))
    -- both write the same first offset, so they have the same number of fields
    have hfirst := readNumber_drop_table hne hsize
    rw [h, readNumber_drop_table hne' hsize'] at hfirst
    have hcount : fields.length = fields'.length := by omega
    have hread := readTable_table hne hsize
    rw [h, hcount, readTable_table hne' hsize'] at hread
    exact (Option.some.inj hread).symm

/-- A string is what follows its length. -/
theorem bytes_injective {b b' : Bytes} (h : bytes b = bytes b') : b = b' :=
  (List.append_inj h (by rw [number_length, number_length])).2

/-- Blocks of one width, equally many. -/
theorem flatten_injective {items items' : List Bytes} {w : Nat} (hw : ∀ b ∈ items, b.length = w)
    (hw' : ∀ b ∈ items', b.length = w) (hlength : items.length = items'.length)
    (h : items.flatten = items'.flatten) : items = items' := by
  induction items generalizing items' with
  | nil => exact (List.eq_nil_of_length_eq_zero hlength.symm).symm
  | cons b items ih =>
    obtain ⟨b', items', rfl⟩ := List.exists_cons_of_length_eq_add_one hlength.symm
    rw [List.flatten_cons, List.flatten_cons] at h
    have hb : b.length = b'.length :=
      (hw b List.mem_cons_self).trans (hw' b' List.mem_cons_self).symm
    obtain ⟨rfl, hrest⟩ := List.append_inj h hb
    rw [ih (fun c hc => hw c (List.mem_cons_of_mem _ hc))
      (fun c hc => hw' c (List.mem_cons_of_mem _ hc)) (Nat.succ.inj hlength) hrest]

/-- Two numbers that fit are told apart. -/
theorem number_injective {m n : Nat} (hm : m < 2 ^ 32) (hn : n < 2 ^ 32) (h : number m = number n) :
    m = n := by
  have hread := congrArg readNumber h
  rw [← List.append_nil (number m), ← List.append_nil (number n), readNumber_number hm,
    readNumber_number hn] at hread
  exact hread

/-- A vector of items of one width that fits is written for one list of items. -/
theorem fixvec_injective {items items' : List Bytes} {w : Nat} (hpos : 0 < w)
    (hw : ∀ b ∈ items, b.length = w) (hw' : ∀ b ∈ items', b.length = w)
    (hsize : (fixvec items).length < 2 ^ 32) (h : fixvec items = fixvec items') :
    items = items' := by
  -- an item takes at least one byte, so the count fits when the size does
  have hlength : ∀ {l : List Bytes}, (∀ b ∈ l, b.length = w) →
      l.length ≤ (fixvec l).length := by
    intro l hl
    have hflat := length_flatMap_width (f := id) hl
    rw [List.flatMap_id] at hflat
    rw [fixvec, List.length_append, hflat]
    exact le_trans (Nat.le_mul_of_pos_right _ hpos) (Nat.le_add_left _ _)
  have hle := hlength hw
  have hle' := hlength hw'
  rw [← h] at hle'
  obtain ⟨hcount, hrest⟩ := List.append_inj h (by rw [number_length, number_length])
  exact flatten_injective hw hw' (number_injective (by omega) (by omega) hcount) hrest

/-- The same for items that are told apart by how they are written. -/
theorem fixvec_map_injective {α : Type _} {f : α → Bytes} {w : Nat} {l l' : List α}
    (hf : Function.Injective f) (hpos : 0 < w) (hw : ∀ a, (f a).length = w)
    (hsize : (fixvec (l.map f)).length < 2 ^ 32) (h : fixvec (l.map f) = fixvec (l'.map f)) :
    l = l' := by
  have hitems : ∀ {k : List α}, ∀ b ∈ k.map f, b.length = w := by
    intro k b hb
    obtain ⟨a, -, rfl⟩ := List.mem_map.mp hb
    exact hw a
  exact List.map_injective_iff.mpr hf (fixvec_injective hpos hitems hitems hsize h)

/-- A vector of items, each of which is determined by its encoding when that is small enough. -/
theorem table_map_injective {α : Type _} {f : α → Bytes} {l l' : List α}
    (hf : ∀ a b, (f a).length < 2 ^ 32 → f a = f b → a = b)
    (hsize : (table (l.map f)).length < 2 ^ 32) (h : table (l.map f) = table (l'.map f)) :
    l = l' := by
  -- the items are shorter than the table they are in
  have hsmall : ∀ a ∈ l, (f a).length < 2 ^ 32 := fun a ha =>
    length_field_lt hsize _ (List.mem_map_of_mem ha)
  have hitems := table_injective hsize h
  clear hsize h
  induction l generalizing l' with
  | nil => exact (List.map_eq_nil_iff.mp hitems.symm).symm
  | cons a l ih =>
    cases l' with
    | nil => cases hitems
    | cons b l' =>
      obtain ⟨hhead, htail⟩ := List.cons.inj hitems
      rw [hf a b (hsmall a List.mem_cons_self) hhead,
        ih (fun c hc => hsmall c (List.mem_cons_of_mem _ hc)) htail]

end Molecule
