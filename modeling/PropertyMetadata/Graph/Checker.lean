import PropertyMetadata.Graph.Basic
import PropertyMetadata.Resolve

/-! The checker that answers from a type graph. A type is known by the kind of its node, and what
belongs to it lies at the ends of its edges, in the order of their indices. -/

namespace PropertyMetadata.TypeGraph

/-- The attributes of a node that has to be there. -/
def attributes (g : TypeGraph) (id : Json) : Except Fault (List (String × Json)) :=
  match g.node? id with
  | some n => .ok n.attributes
  | none => .error (.graph (.unknownNode id))

/-- The kind of a node; a node may have none. -/
def kind (g : TypeGraph) (id : Json) : Except Fault Json := do
  return (Json.lookup (← g.attributes id) "kind").getD (.string "")

def related (g : TypeGraph) (id : Json) (relation : String) : List Edge :=
  (g.leaving id).filter fun e => e.relation.any fun r => r.alike (.string relation)

/-- The place of an edge among its like: a missing index counts as 0. -/
def Edge.position (e : Edge) : Except Fault Int := (e.index.getD (.int 0)).whole

/-- The ends of the edges of a relation, in the order of their positions; edges of one position
keep their order. -/
def targets (g : TypeGraph) (id : Json) (relation : String) : Except Fault (List Json) := do
  let _ ← g.attributes id
  if !g.directed then .error (.absent .direction)
  else
    let placed ← (g.related id relation).mapM fun e => do return (← Edge.position e, e.target)
    return (placed.mergeSort fun a b => decide (a.1 ≤ b.1)).map (·.2)

def target? (g : TypeGraph) (id : Json) (relation : String) : Except Fault (Option Json) := do
  return (← g.targets id relation).head?

def kindIn (g : TypeGraph) (kinds : List String) (id : Json) : Except Fault Bool := do
  let k ← g.kind id
  return kinds.any fun s => k.alike (.string s)

/-- Whether a node has a shape. An enum is a union of its members if it has any. -/
def hasShape (g : TypeGraph) (s : Shape) (id : Json) : Except Fault Bool :=
  match s with
  | .array => g.kindIn ["array"] id
  | .boolean => g.kindIn ["boolean"] id
  | .number => g.kindIn ["number"] id
  | .string => g.kindIn ["string"] id
  | .classType => g.kindIn ["class"] id
  | .interface => g.kindIn ["interface"] id
  | .enum => g.kindIn ["enum", "enum_literal"] id
  | .undefined => g.kindIn ["undefined"] id
  | .unionOrIntersection => do
    if ← g.kindIn ["union", "intersection"] id then return true
    else if ← g.kindIn ["enum"] id then return !(← g.targets id "member").isEmpty
    else return false

def text (g : TypeGraph) (id : Json) : Except Fault Json := do
  match (Json.lookup (← g.attributes id) "text").getD .null with
  | .null | .string "" =>
    .error (.unrenderable ("Type " ++ id.text ++ " has no textual representation"))
  | t => return t

def flags (g : TypeGraph) (id : Json) : Except Fault Flags := do
  Flags.ofRecord ((Json.lookup (← g.attributes id) "flags").getD (.string ""))

/-- The type that a symbol declares; a symbol has to declare one. -/
def declaredType (g : TypeGraph) (id : Json) : Except Fault Json := do
  match ← g.target? id "declared_type" with
  | some t => return t
  | none => .error (.graph (.undeclared id))

/-- The checker that answers from a graph. -/
def checker (g : TypeGraph) : Checker Json where
  is := g.hasShape
  typeArguments id := g.targets id "type_argument"
  members id := g.targets id "member"
  text := g.text
  symbol id := g.target? id "symbol"
  aliasSymbol id := g.target? id "alias_symbol"
  flags := g.flags
  parent id := g.target? id "parent"
  declaredType id := (g.declaredType id).map some
  absent := .null
  same := Json.alike

def resolve (g : TypeGraph) (depth : Option Int) (id : Json) : Except Fault Resolution :=
  g.checker.resolve g.nodes.length depth id

end PropertyMetadata.TypeGraph
