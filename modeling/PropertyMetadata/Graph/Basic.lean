import PropertyMetadata.Json.Shape

/-! Type graphs: nodes for types and symbols, and edges with a relation and an index. Several edges
may join the same two nodes and are told apart by their keys.

What holds nodes and edges is assumed to be a container of adjacency, and behaves as follows. Nodes
keep the order in which they came. A node has its neighbours in the order in which an edge linked it
to each of them first, and with each neighbour the edges to it in the order in which they were
added; so the edges that leave a node come back by neighbour, not as they were added. A new edge
without a key gets the number of the edges between its two nodes as key, or the first number from
there on that is no key yet. A node or key that is alike to one that is there is taken for it. -/

namespace PropertyMetadata

/-- A node: what names it, and its attributes. -/
structure Node where
  id : Json
  attributes : List (String × Json)

/-- An edge. Its relation and its index may be missing. -/
structure Edge where
  source : Json
  target : Json
  key : Json
  relation : Option Json
  index : Option Json

/-- A graph of types and symbols. In an undirected graph the two ends of an edge are alike. -/
structure TypeGraph where
  directed : Bool
  nodes : List Node
  edges : List Edge

namespace TypeGraph

def empty (directed : Bool) : TypeGraph := ⟨directed, [], []⟩

def node? (g : TypeGraph) (id : Json) : Option Node :=
  if id.isScalar then g.nodes.find? fun n => n.id.alike id else none

def has (g : TypeGraph) (id : Json) : Bool := (g.node? id).isSome

/-- Attributes with others set on top. -/
def updated (base new : List (String × Json)) : List (String × Json) :=
  new.foldl (fun fields f => Json.insert fields f.1 f.2) base

/-- A graph with a node set: a node that is there keeps its place and its name, and its attributes
are updated. -/
def setNode (g : TypeGraph) (id : Json) (attributes : List (String × Json)) : TypeGraph :=
  if g.has id then
    { g with nodes := g.nodes.map fun n =>
        if n.id.alike id then ⟨n.id, updated n.attributes attributes⟩ else n }
  else { g with nodes := g.nodes ++ [⟨id, updated [] attributes⟩] }

/-- Names of attributes that no node can take. -/
def reserved : List String := ["self", "node_for_adding"]

/-- A graph with a node set under a proper name and with proper attributes. -/
def addNode (g : TypeGraph) (id : Json) (attributes : List (String × Json)) :
    Except Fault TypeGraph := do
  match attributes.find? fun f => reserved.contains f.1 with
  | some (name, _) => .error (.mismatch (.reservedName name))
  | none =>
    id.hashable
    match id with
    | .null => .error (.badValue .nullNode)
    | _ => return g.setNode id attributes

/-- Whether an edge joins two nodes, in this direction where direction counts. -/
def joins (g : TypeGraph) (a b : Json) (e : Edge) : Bool :=
  (e.source.alike a && e.target.alike b) ||
    (!g.directed && e.source.alike b && e.target.alike a)

/-- The first number from `n` on that is not among the keys. -/
def freeKey (keys : List Json) : Nat → Nat → Nat
  | 0, n => n
  | fuel + 1, n => if keys.any (Json.alike (.int n)) then freeKey keys fuel (n + 1) else n

/-- A graph with an edge between nodes that it has. Without a key the edge is a new one, and its key
starts from the number of edges that join the nodes; with the key of an edge between the same nodes
it updates that edge. -/
def addEdge (g : TypeGraph) (source target : Json) (key : Option Json)
    (relation index : Option Json) : TypeGraph :=
  let keys := (g.edges.filter (g.joins source target)).map Edge.key
  let key := key.getD (.int (freeKey keys keys.length keys.length))
  if keys.any key.alike then
    { g with edges := g.edges.map fun e =>
        if g.joins source target e && e.key.alike key then
          { e with relation := relation <|> e.relation, index := index <|> e.index }
        else e }
  else { g with edges := g.edges ++ [⟨source, target, key, relation, index⟩] }

/-- The targets of edges, each once, in the order in which they are met first. -/
def distinctTargets : List Json → List Edge → List Json
  | _, [] => []
  | seen, e :: es =>
    if seen.any e.target.alike then distinctTargets seen es
    else e.target :: distinctTargets (e.target :: seen) es

/-- Edges from one source as adjacency holds them: by target, in the order in which each target is
met first, and to one target in the order in which they were added; the first name of a target
stands for all. -/
def bunched (es : List Edge) : List Edge :=
  (distinctTargets [] es).flatMap fun t =>
    (es.filter fun e => e.target.alike t).map fun e => { e with target := t }

def leaving (g : TypeGraph) (id : Json) : List Edge :=
  bunched (g.edges.filter fun e => e.source.alike id)

/-- The edges at a node of an undirected graph, each as leaving the node. -/
def touching (g : TypeGraph) (id : Json) : List Edge :=
  bunched (g.edges.filterMap fun e =>
    if e.source.alike id then some e
    else if e.target.alike id then some { e with source := e.target, target := e.source }
    else none)

/-- The edges of an undirected graph node by node, without those to the nodes before. -/
def touchingAfter (g : TypeGraph) : List Json → List Node → List Edge
  | _, [] => []
  | seen, n :: ns =>
    let own := (g.touching n.id).filter fun e => !seen.any e.target.alike
    own.map (fun e => { e with source := n.id }) ++ touchingAfter g (n.id :: seen) ns

/-- All edges, by source in the order of the nodes, then by target. -/
def listed (g : TypeGraph) : List Edge :=
  if g.directed then
    g.nodes.flatMap fun n => (g.leaving n.id).map fun e => { e with source := n.id }
  else g.touchingAfter [] g.nodes

end TypeGraph

end PropertyMetadata
