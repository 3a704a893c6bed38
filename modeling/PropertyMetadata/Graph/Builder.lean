import PropertyMetadata.Graph.Schema

/-! Building a schema step by step. A node that is given no name gets one of its own: a letter for
types or symbols and the next number of a counter that both share. -/

namespace PropertyMetadata

/-- A schema under construction: its records, and the number for the next name. -/
structure Builder where
  nodes : List Json := []
  edges : List Json := []
  next : Nat := 1

/-- What a type node is made of. Lists are given as values that have members. -/
structure TypeParts where
  kind : Json
  text : Json := .null
  typeArguments : Json := .array []
  members : Json := .array []
  symbol : Json := .null
  aliasSymbol : Json := .null
  id : Json := .null

structure SymbolParts where
  name : Json
  flags : Json := .array []
  parent : Json := .null
  declaredType : Json := .null
  id : Json := .null

namespace Builder

/-- The name for a new node: the given one, or a new one. -/
def nameFor (b : Builder) (given : Json) (letter : String) : Json × Builder :=
  if given.truthy then (given, b)
  else (.string (letter ++ toString b.next), { b with next := b.next + 1 })

/-- The record of an edge, with its index if it has one. -/
def edgeRecord (source target : Json) (relation : String) (index : Option Nat) : Json :=
  .object ([("from", source), ("to", target), ("relation", .string relation)] ++
    match index with
    | some i => [("index", .int i)]
    | none => [])

/-- The records of the edges to several targets in order. -/
def orderedRecords (source : Json) (relation : String) : Nat → List Json → List Json
  | _, [] => []
  | i, t :: ts => edgeRecord source t relation (some i) :: orderedRecords source relation (i + 1) ts

/-- The record of the edge to a target, unless it is null. -/
def singleRecord (source : Json) (relation : String) : Json → List Json
  | .null => []
  | t => [edgeRecord source t relation none]

def addEdges (b : Builder) (records : List Json) : Builder := { b with edges := b.edges ++ records }

def addNode (b : Builder) (record : Json) : Builder := { b with nodes := b.nodes ++ [record] }

/-- Adds a type. The node is there even when one of the lists is none. -/
def addType (b : Builder) (p : TypeParts) : Except Fault Json × Builder :=
  let (id, b) := b.nameFor p.id "t"
  let b := b.addNode (.object
    [("id", id), ("category", .string "type"), ("kind", p.kind), ("text", p.text)])
  match p.typeArguments.members with
  | .error e => (.error e, b)
  | .ok args =>
    let b := b.addEdges (orderedRecords id "type_argument" 0 args)
    match p.members.members with
    | .error e => (.error e, b)
    | .ok members =>
      (.ok id, b.addEdges (orderedRecords id "member" 0 members ++
        singleRecord id "symbol" p.symbol ++ singleRecord id "alias_symbol" p.aliasSymbol))

def addSymbol (b : Builder) (p : SymbolParts) : Except Fault Json × Builder :=
  let (id, b) := b.nameFor p.id "s"
  match p.flags.members with
  | .error e => (.error e, b)
  | .ok flags =>
    let b := b.addNode (.object
      [("id", id), ("category", .string "symbol"), ("name", p.name), ("flags", .array flags)])
    (.ok id, b.addEdges
      (singleRecord id "parent" p.parent ++ singleRecord id "declared_type" p.declaredType))

def declareType (b : Builder) (symbol type : Json) : Builder :=
  b.addEdges [edgeRecord symbol type "declared_type" none]

def schema (b : Builder) : Json := .object [("nodes", .array b.nodes), ("edges", .array b.edges)]

def build (b : Builder) : Except Fault TypeGraph := TypeGraph.ofSchema b.schema

end Builder

end PropertyMetadata
