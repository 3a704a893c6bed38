import PropertyMetadata.Resolve

/-! Answer tables: checkers that only look answers up. What a table does not say is no, absent or
empty, and a type without text cannot be rendered. -/

namespace PropertyMetadata

/-- What a table says of a type. Lists may be absent altogether. -/
structure TypeEntry where
  shapes : List Shape := []
  text : Json := .null
  typeArguments : Option (List Json) := some []
  members : Option (List Json) := some []
  symbol : Json := .null
  aliasSymbol : Json := .null

structure SymbolEntry where
  flags : Flags := .none
  parent : Json := .null
  declaredType : Json := .null

/-- Answers on types and symbols by their names. -/
structure Table where
  types : List (String × TypeEntry)
  symbols : List (String × SymbolEntry)

namespace Table

/-- What a table says of a type; of one that it does not know it says nothing. -/
def type (t : Table) : Json → TypeEntry
  | .string s => (Json.lookup t.types s).getD {}
  | _ => {}

/-- What a table says of a symbol; of one that it does not know it says nothing. -/
def symbol (t : Table) : Json → SymbolEntry
  | .string s => (Json.lookup t.symbols s).getD {}
  | _ => {}

/-- A handle, or nothing for null. -/
def handle? : Json → Option Json
  | .null => none
  | x => some x

/-- The checker that looks its answers up in a table. -/
def checker (t : Table) : Checker Json where
  is s x := .ok ((t.type x).shapes.contains s)
  typeArguments x := .ok ((t.type x).typeArguments.getD [])
  members x := .ok ((t.type x).members.getD [])
  text x :=
    match (t.type x).text with
    | .null => .error (.unrenderable ("no text for " ++ x.text))
    | text => .ok text
  symbol x := .ok (handle? (t.type x).symbol)
  aliasSymbol x := .ok (handle? (t.type x).aliasSymbol)
  flags x := .ok (t.symbol x).flags
  parent x := .ok (handle? (t.symbol x).parent)
  declaredType x := .ok (handle? (t.symbol x).declaredType)
  absent := .null
  same := Json.alike

def resolve (t : Table) (depth : Option Int) (x : Json) : Except Fault Resolution :=
  t.checker.resolve t.types.length depth x

end Table

end PropertyMetadata
