import PropertyMetadata.Fault

/-! Taking values apart: the members of a value, its fields, and its whole number. Each refuses a
value of the wrong kind. -/

namespace PropertyMetadata.Json

open Number

/-- The members of a value: the items of an array, the keys of an object, the characters of a
string. -/
def members : Json → Except Fault (List Json)
  | array items => .ok items
  | object fields => .ok (fields.map fun f => string f.1)
  | string s => .ok (s.toList.map fun c => string (String.singleton c))
  | v => .error (.mismatch (.notIterable v))

/-- The field that an object must have. -/
def required (x : Json) (key : String) : Except Fault Json :=
  match x with
  | object fields =>
    match lookup fields key with
    | some v => .ok v
    | none => .error (.missingKey (string key))
  | v => .error (.mismatch (.notIndexable v))

/-- The field that an object may have. -/
def optional (x : Json) (key : String) : Except Fault (Option Json) :=
  match x with
  | object fields => .ok (lookup fields key)
  | v => .error (.absent (.fields v))

/-- The whole number of a number, or of an integer written as text. -/
def whole : Json → Except Fault Int
  | bool b => .ok (if b then 1 else 0)
  | int i => .ok i
  | double d =>
    match d.truncate? with
    | some i => .ok i
    | none => .error (if d = .nan then .badValue .noWholePart else .tooLarge)
  | string s =>
    match integer? s with
    | some i => .ok i
    | none => .error (.badValue (.notAnInteger s))
  | v => .error (.mismatch (.notInteger v))

/-- A value that can be looked up in a set. -/
def hashable (x : Json) : Except Fault Unit :=
  if x.isScalar then .ok () else .error (.mismatch (.unhashable x))

end PropertyMetadata.Json
