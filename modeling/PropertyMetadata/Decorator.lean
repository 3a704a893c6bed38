import PropertyMetadata.Json.Shape

/-! Decorators of properties, with the assignments of the object that a decorator is given, and the
search for a decorator by its name. -/

namespace PropertyMetadata

/-- An assignment in the object of a decorator. A synthetic one is not written in any source. -/
structure Assignment where
  name : String
  value : String := ""
  synthetic : Bool := false
  deriving DecidableEq, Repr

namespace Assignment

/-- An assignment that no source holds. -/
def synthesized (name value : String) : Assignment := ⟨name, value, true⟩

def json (a : Assignment) : Json :=
  .object [("name", .string a.name), ("value", .string a.value), ("synthetic", .bool a.synthetic)]

/-- Whether assignments have one to a key. Those that no source holds do not count. -/
def hasKey (key : Option String) (as : List Assignment) : Bool :=
  as.any fun a => !a.synthetic && some a.name == key

end Assignment

/-- A decorator. One that is no plain name or call has no name. -/
structure Decorator where
  name : Option String
  text : String := ""
  arguments : List String := []
  properties : List Assignment := []
  deriving DecidableEq, Repr

/-- Names to look for; decorators without name can be looked for too. -/
abbrev Names := List (Option String)

/-- The names that a value gives: those of its members that can name a decorator. A value that
counts as false gives none, and a member has to be one that a set can hold. -/
def Names.ofJson (x : Json) : Except Fault Names := do
  if !x.truthy then return []
  else
    let members ← x.members
    members.forM Json.hashable
    return members.filterMap fun
      | .string s => some (some s)
      | .null => some none
      | _ => none

namespace Decorator

def isNamed (names : Names) (d : Decorator) : Bool := names.contains d.name

def find? (names : Names) (ds : List Decorator) : Option Decorator := ds.find? (isNamed names)

def place? (names : Names) (ds : List Decorator) : Option Nat := ds.findIdx? (isNamed names)

def json (d : Decorator) : Json :=
  .object [
    ("name", match d.name with | some s => .string s | none => .null), ("text", .string d.text),
    ("arguments", .array (d.arguments.map .string)),
    ("properties", .array (d.properties.map Assignment.json))]

end Decorator

end PropertyMetadata
