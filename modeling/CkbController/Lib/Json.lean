import CkbController.Lib.ByteCodec

/-!
# JSON values

The values a server reads out of a request body and writes into a response, with the three
accessors it uses. Reading a text is left to the parser in use; an object has each key once.
-/

open ByteCodec

inductive Json where
  | null
  | bool (b : Bool)
  | number (n : U64)
  /-- A number that is not an unsigned 64-bit integer, as written. -/
  | otherNumber (text : String)
  | string (s : String)
  | array (items : List Json)
  | object (fields : List (String × Json))

namespace Json

def get (key : String) : Json → Option Json
  | object fields => fields.lookup key
  | _ => none

/-- The first field of a name is the one that is found. -/
@[simp] theorem get_cons_self (key : String) (v : Json) (fields : List (String × Json)) :
    get key (object ((key, v) :: fields)) = some v :=
  List.lookup_cons_self

/-- A field of another name is passed over. -/
@[simp] theorem get_cons_of_ne {key key' : String} (h : key ≠ key') (v : Json)
    (fields : List (String × Json)) :
    get key (object ((key', v) :: fields)) = get key (object fields) := by
  show List.lookup key ((key', v) :: fields) = _
  rw [List.lookup_cons, beq_eq_false_iff_ne.mpr h]
  rfl

@[simp] theorem get_nil (key : String) : get key (object []) = none := rfl

def asStr : Json → Option String
  | string s => some s
  | _ => none

def asU64 : Json → Option U64
  | number n => some n
  | _ => none

def asArray : Json → Option (List Json)
  | array items => some items
  | _ => none

/-- `null` for an absent value. -/
def ofStr? (s : Option String) : Json := (s.map string).getD null

end Json
