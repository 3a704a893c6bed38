import PropertyMetadata.GraphMl.Reader
import PropertyMetadata.Markup.Printer

/-! Type graphs as GraphML documents, one of the ways to write them: a key for every name, type and
place of attributes, the nodes in their order, and the edges by their sources. Only scalar values
can be written. -/

namespace PropertyMetadata.GraphMl

open Markup

/-- An element of the format. -/
def element (base : String) (attributes : List (String × String)) (text : Option String)
    (children : List Element) : Element :=
  .mk (named base) (attributes.map fun a => (⟨"", a.1⟩, a.2)) text children

def typeOf : Json → Except Fault ValueType
  | .string _ => .ok .string
  | .int _ => .ok .integer
  | .double _ => .ok .double
  | .bool _ => .ok .boolean
  | v => .error (.markupGraph (.unwritable v))

/-- What a key that is written stands for: attributes of one name and one type on nodes or on
edges. -/
structure KeyUse where
  scope : String
  name : String
  type : ValueType
  deriving DecidableEq

/-- The name of the key at a place. -/
def keyId (n : Nat) : String := "d" ++ toString n

/-- Data elements for attributes, with the keys used so far and those they add. -/
def dataElements (scope : String) :
    List KeyUse → List (String × Json) → Except Fault (List Element × List KeyUse)
  | uses, [] => .ok ([], uses)
  | uses, (name, value) :: rest => do
    let use : KeyUse := ⟨scope, name, ← typeOf value⟩
    let uses := if uses.contains use then uses else uses ++ [use]
    let (es, uses') ← dataElements scope uses rest
    let text := if value.text.isEmpty then none else some value.text
    return (element "data" [("key", keyId (uses.idxOf use))] text [] :: es, uses')

def nodeElements : List KeyUse → List Node → Except Fault (List Element × List KeyUse)
  | uses, [] => .ok ([], uses)
  | uses, n :: ns => do
    let (data, uses) ← dataElements "node" uses n.attributes
    let (es, uses) ← nodeElements uses ns
    return (element "node" [("id", n.id.text)] none data :: es, uses)

def edgeAttributes (e : Edge) : List (String × Json) :=
  (e.relation.map (("relation", ·))).toList ++ (e.index.map (("index", ·))).toList

def edgeElements : List KeyUse → List Edge → Except Fault (List Element × List KeyUse)
  | uses, [] => .ok ([], uses)
  | uses, e :: es => do
    let (data, uses) ← dataElements "edge" uses (edgeAttributes e)
    let (rest, uses) ← edgeElements uses es
    return (element "edge"
      [("source", e.source.text), ("target", e.target.text), ("id", e.key.text)] none data :: rest,
      uses)

/-- The elements of keys from a number on. -/
def keyElements : Nat → List KeyUse → List Element
  | _, [] => []
  | n, u :: us =>
    element "key"
      [("id", keyId n), ("for", u.scope), ("attr.name", u.name), ("attr.type", u.type.name)]
      none [] :: keyElements (n + 1) us

def ofGraph (g : TypeGraph) : Except Fault Element := do
  let (nodes, uses) ← nodeElements [] g.nodes
  let (edges, uses) ← edgeElements uses g.listed
  let kind := if g.directed then "directed" else "undirected"
  return element "graphml" [] none
    (keyElements 0 uses ++ [element "graph" [("edgedefault", kind)] none (nodes ++ edges)])

def file (g : TypeGraph) : Except Fault (List UInt8) := do
  return Text.Utf8.encode (Markup.print (← ofGraph g))

def saved (g : TypeGraph) : Except Fault TypeGraph := do
  ofText (Markup.print (← ofGraph g))

end PropertyMetadata.GraphMl
