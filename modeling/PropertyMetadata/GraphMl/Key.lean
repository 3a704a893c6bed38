import PropertyMetadata.Json.Shape
import PropertyMetadata.Text.Lower

/-! The vocabulary of GraphML: the names of its elements, and the keys that say of each attribute of
nodes and edges what it is called and how its text is read. -/

namespace PropertyMetadata.GraphMl

open Markup Text Number

/-- The namespace of the format. -/
def space : String := "http://graphml.graphdrawing.org/xmlns"

/-- A name of the format. -/
def named (base : String) : Name := ⟨space, base⟩

/-- How the text of an attribute is read. -/
inductive ValueType where
  | string | integer | double | boolean
  deriving DecidableEq, Repr

namespace ValueType

def names : List (String × ValueType) := [
  ("integer", integer), ("int", integer), ("long", integer), ("float", double),
  ("double", double), ("boolean", boolean), ("string", string), ("yfiles", string)]

/-- The name of a type that keys are written with. -/
def name : ValueType → String
  | string => "string"
  | integer => "long"
  | double => "double"
  | boolean => "boolean"

/-- The names of the truth values, in lower case. -/
def truths : List (String × Bool) := [("true", true), ("false", false), ("1", true), ("0", false)]

def read (t : ValueType) (s : String) : Except Fault Json :=
  match t with
  | string => .ok (.string s)
  | integer =>
    match integer? s with
    | some i => .ok (.int i)
    | none => .error (.badValue (.notAnInteger s))
  | double =>
    match double? s with
    | some d => .ok (.double d)
    | none => .error (.badValue (.notADouble s))
  | boolean =>
    match Json.lookup truths (lower s) with
    | some b => .ok (.bool b)
    | none => .error (.missingKey (.string (lower s)))

/-- The value of a default without text; only strings have one. -/
def readAbsent : ValueType → Except Fault Unit
  | string => .ok ()
  | integer => .error (.mismatch .emptyInteger)
  | double => .error (.mismatch .emptyDouble)
  | boolean => .error (.absent .truthText)

theorem lookup_names_name (t : ValueType) : Json.lookup names t.name = some t := by
  cases t <;> decide

end ValueType

/-- A key: what refers to it, the name of the attribute, and how its text is read. -/
structure Key where
  id : Option String
  name : String
  type : ValueType

namespace Key

/-- The name of the type in a key element, and the name of the attribute. A drawing key has a kind
instead of a name. -/
def described (e : Element) : Option String × String :=
  match e.attribute? "yfiles.type" with
  | some kind => (some kind, "yfiles")
  | none => (e.attribute? "attr.name", (e.attribute? "attr.type").getD "string")

/-- A default has to be a value of its type, though it is given to no node and no edge. -/
def checkDefault (t : ValueType) (e : Element) : Except Fault Unit :=
  match e.childrenNamed (named "default") with
  | [] => .ok ()
  | d :: _ =>
    match d.text with
    | some s => do
      let _ ← t.read s
      return ()
    | none => t.readAbsent

def ofElement (e : Element) : Except Fault Key := do
  let id := e.attribute? "id"
  let (name?, typeName) := described e
  match name? with
  | none => .error (.markupGraph (.namelessKey id))
  | some name =>
    match Json.lookup ValueType.names typeName with
    | none => .error (.missingKey (.string typeName))
    | some type =>
      checkDefault type e
      return ⟨id, name, type⟩

/-- The key that a reference means: of several, the last one. -/
def find? (keys : List Key) (id : Option String) : Option Key :=
  keys.reverse.find? fun k => k.id == id

end Key

end PropertyMetadata.GraphMl
