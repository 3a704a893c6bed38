import PropertyMetadata.Graph.Basic

/-! Schemas: type graphs as JSON, a list of node records and a list of edge records. Reading a
schema refuses kinds and relations that there are not, and edges between nodes that there are
not. -/

namespace PropertyMetadata.TypeGraph

def typeKinds : List String := [
  "array", "boolean", "number", "string", "class", "interface", "enum", "enum_literal", "union",
  "intersection", "undefined", "any", "unknown", "object", "literal", "reference"]

def relations : List String :=
  ["type_argument", "member", "symbol", "alias_symbol", "parent", "declared_type"]

def isOneOf (x : Json) (names : List String) : Bool := names.any fun s => x.alike (.string s)

def commaJoined : Nat → List Json → Except Fault String
  | _, [] => .ok ""
  | _, [.string s] => .ok s
  | n, .string s :: xs => do return s ++ "," ++ (← commaJoined (n + 1) xs)
  | n, x :: _ => .error (.mismatch (.notJoinable n x))

/-- The attributes of a node record: its fields but for the name and the nulls, and the category of
types unless another is given. -/
def recordAttributes (fields : List (String × Json)) : List (String × Json) :=
  let kept := fields.filter fun f => f.1 != "id" && match f.2 with | .null => false | _ => true
  match Json.lookup kept "category" with
  | some _ => kept
  | none => kept ++ [("category", .string "type")]

/-- The attributes of a node as the graph keeps them: the kind of a type is checked, and a list of
flags of a symbol becomes one text. -/
def nodeAttributes (id : Json) (fields : List (String × Json)) :
    Except Fault (List (String × Json)) := do
  let attributes := recordAttributes fields
  let category := (Json.lookup attributes "category").getD .null
  if category.alike (.string "type") then
    let kind := (Json.lookup attributes "kind").getD .null
    kind.hashable
    if isOneOf kind typeKinds then return attributes
    else .error (.graph (.unknownKind kind id))
  else if category.alike (.string "symbol") then
    match Json.lookup attributes "flags" with
    | some (.array names) => return Json.insert attributes "flags" (.string (← commaJoined 0 names))
    | _ => return attributes
  else return attributes

def addNodeRecord (g : TypeGraph) (record : Json) : Except Fault TypeGraph := do
  let id ← record.required "id"
  let fields := match record with
    | .object fields => fields
    | _ => []
  g.addNode id (← nodeAttributes id fields)

/-- The relation of an edge record; what counts as false is no relation at all. -/
def recordRelation (record : Json) : Json :=
  match record.field? "relation" with
  | some r => if r.truthy then r else .string ""
  | none => .string ""

/-- A graph with the edge of a record. An edge without index has index 0. -/
def addEdgeRecord (g : TypeGraph) (record : Json) : Except Fault TypeGraph := do
  let source ← record.required "from"
  let target ← record.required "to"
  if !(g.has source && g.has target) then .error (.graph (.danglingEdge source target))
  else
    let relation := recordRelation record
    if !isOneOf relation relations then .error (.graph (.unknownRelation relation source target))
    else
      let index := (record.field? "index").getD (.int 0)
      return g.addEdge source target none (some relation) (some index)

/-- The records of a list in a schema; a list that is missing is empty. -/
def records (schema : Json) (key : String) : Except Fault (List Json) := do
  match ← schema.optional key with
  | some x => x.members
  | none => return []

/-- The graph of a schema: all nodes, then all edges. -/
def ofSchema (schema : Json) : Except Fault TypeGraph := do
  let g ← (← records schema "nodes").foldlM addNodeRecord (empty true)
  (← records schema "edges").foldlM addEdgeRecord g

end PropertyMetadata.TypeGraph
