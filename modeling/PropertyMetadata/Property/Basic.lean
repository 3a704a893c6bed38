import PropertyMetadata.Decorator

/-! Properties of classes as they are found in sources, with their decorators, and their records. -/

namespace PropertyMetadata

/-- A property: its name, the class it belongs to, and what its declaration says. Lines count from
one. -/
structure Property where
  name : String
  className : Option String
  isOptional : Bool
  annotation : Option String
  decorators : List Decorator
  startLine : Nat
  stopLine : Nat
  file : String
  deriving DecidableEq, Repr

namespace Property

def textOrNull : Option String → Json
  | some s => .string s
  | none => .null

def json (p : Property) : Json :=
  .object [
    ("kind", .string "property"), ("name", .string p.name), ("class", textOrNull p.className),
    ("optional", .bool p.isOptional), ("type_annotation", textOrNull p.annotation),
    ("decorators", .array (p.decorators.map Decorator.json)), ("start_line", .int p.startLine),
    ("end_line", .int p.stopLine), ("file_path", .string p.file)]

/-- Whether a property is kept by a search for decorators; a search without names keeps all. -/
def isKept (names : Option Names) (p : Property) : Bool :=
  match names with
  | some ns => (Decorator.find? ns p.decorators).isSome
  | none => true

end Property

end PropertyMetadata
