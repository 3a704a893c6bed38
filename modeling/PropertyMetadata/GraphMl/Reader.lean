import PropertyMetadata.Graph.Basic
import PropertyMetadata.GraphMl.Key
import PropertyMetadata.Markup.Reader

/-! Type graphs from GraphML documents, as a program reads them that has no other reader. Nothing is
checked but the format: kinds and relations may be any, and a node that only an edge names is there
without attributes. -/

namespace PropertyMetadata.GraphMl

open Markup

/-! ### Data -/

def drawingSpace : String := "http://www.yworks.com/xml/graphml"

def child? (e : Element) (n : Name) : Option Element := (e.childrenNamed n).head?

/-- The first element below two names of drawings, one in the other. -/
def drawn? (e : Element) (outer inner : String) : Option Element :=
  ((e.childrenNamed ⟨drawingSpace, outer⟩).flatMap
    fun c => c.childrenNamed ⟨drawingSpace, inner⟩).head?

def textValue : Option String → Json
  | some s => .string s
  | none => .null

/-- The shapes of drawn nodes, and those of drawn edges. -/
def nodeShapes : List String := ["GenericNode", "ShapeNode", "SVGNode", "ImageNode"]

def edgeShapes : List String :=
  ["PolyLineEdge", "SplineEdge", "QuadCurveEdge", "BezierEdge", "ArcEdge"]

def drawnShape (e : Element) (shape : String) : List (String × Json) :=
  (match drawn? e shape "Geometry" with
    | some g => [("x", textValue (g.attribute? "x")), ("y", textValue (g.attribute? "y"))]
    | none => []) ++
  match drawn? e shape "Shape" with
  | some s => [("shape_type", textValue (s.attribute? "type"))]
  | none => []

def drawnLabel (e : Element) (shapes : List String) (label : String) : List (String × Json) :=
  match shapes.findSome? fun s => drawn? e s label with
  | some l => [("label", textValue l.text)]
  | none => []

def drawing (e : Element) : List (String × Json) :=
  (match child? e ⟨drawingSpace, "GenericNode"⟩ with
    | some g => [("shape_type", textValue (g.attribute? "configuration"))]
    | none => []) ++
  nodeShapes.flatMap (drawnShape e) ++ drawnLabel e nodeShapes "NodeLabel" ++
  drawnLabel e edgeShapes "EdgeLabel"

/-- The attributes of one data element: the value of its text under the name of its key, an empty
string if there is no text, or what it draws. -/
def datum (keys : List Key) (e : Element) : Except Fault (List (String × Json)) :=
  match Key.find? keys (e.attribute? "key") with
  | none => .error (.markupGraph (.unknownKey (e.attribute? "key")))
  | some k =>
    if e.children.isEmpty then
      match e.text with
      | some s => do return [(k.name, ← k.type.read s)]
      | none => .ok [(k.name, .string "")]
    else .ok (drawing e)

/-- The attributes that the data elements of an element give; a later one replaces an earlier
one. -/
def data (keys : List Key) (e : Element) : Except Fault (List (String × Json)) := do
  let parts ← (e.childrenNamed (named "data")).mapM (datum keys)
  return TypeGraph.updated [] parts.flatten

/-! ### Nodes and edges -/

/-- The name of a node as an attribute gives it. -/
def nodeId (e : Element) (key : String) : Json := .string ((e.attribute? key).getD "None")

/-- The key of an edge: its name, a number where it is one, or else its key among the data. -/
def edgeKey (e : Element) (attributes : List (String × Json)) : Option Json :=
  match e.attribute? "id" with
  | none | some "" =>
    match Json.lookup attributes "key" with
    | some .null | none => none
    | some k => some k
  | some id =>
    match Number.integer? id with
    | some i => some (.int i)
    | none => some (.string id)

/-- A graph with a node in any case. -/
def withEnd (g : TypeGraph) (id : Json) : TypeGraph := if g.has id then g else g.setNode id []

/-- A graph with the edge of an element, which must not say otherwise than the graph whether it is
directed. -/
def addEdge (keys : List Key) (g : TypeGraph) (e : Element) : Except Fault TypeGraph := do
  let said := e.attribute? "directed"
  if g.directed ∧ said = some "false" then .error (.markupGraph .undirectedEdge)
  else if ¬ g.directed ∧ said = some "true" then .error (.markupGraph .directedEdge)
  else
    let source := nodeId e "source"
    let target := nodeId e "target"
    let attributes ← data keys e
    let g := withEnd (withEnd g source) target
    return g.addEdge source target (edgeKey e attributes)
      (Json.lookup attributes "relation") (Json.lookup attributes "index")

/-- Whether a node holds a graph of its own. -/
def isFolder (e : Element) : Bool := e.attribute? "yfiles.foldertype" == some "group"

mutual

/-- A graph with the nodes and edges of a graph element. -/
def addGraph (keys : List Key) (g : TypeGraph) : Element → Except Fault TypeGraph
  | .mk name attributes text children => do
    let e := Element.mk name attributes text children
    if (child? e (named "hyperedge")).isSome then .error (.markupGraph .hyperedge)
    else
      let g ← addNodes keys g children
      let g ← (e.childrenNamed (named "edge")).foldlM (addEdge keys) g
      let _ ← data keys e
      return g

def addNodes (keys : List Key) (g : TypeGraph) : List Element → Except Fault TypeGraph
  | [] => .ok g
  | e :: es => do
    if e.name = named "node" then
      let attributes ← data keys e
      let g ← g.addNode (nodeId e "id") attributes
      let g ← if isFolder e then addFolder keys g e else .ok g
      addNodes keys g es
    else addNodes keys g es

def addFolder (keys : List Key) (g : TypeGraph) : Element → Except Fault TypeGraph
  | .mk _ _ _ children => addFirstGraph keys g children

/-- A graph with what the first graph among elements holds; there has to be one. -/
def addFirstGraph (keys : List Key) (g : TypeGraph) : List Element → Except Fault TypeGraph
  | [] => .error (.absent .innerGraph)
  | e :: es => if e.name = named "graph" then addGraph keys g e else addFirstGraph keys g es

end

/-! ### Documents -/

def graph (keys : List Key) (e : Element) : Except Fault TypeGraph :=
  addGraph keys (.empty (e.attribute? "edgedefault" == some "directed")) e

def graphs (root : Element) : Except Fault (List TypeGraph) := do
  let keys ← (root.childrenNamed (named "key")).mapM Key.ofElement
  (root.childrenNamed (named "graph")).mapM (graph keys)

def root (text : String) : Except Fault Element :=
  match Markup.parse text with
  | .ok e => .ok e
  | .error m => .error (.malformedMarkup m)

/-- A tag without namespace, and the one that is meant. -/
def bareTag : List Char := "<graphml>".toList

def fullTag : List Char := "<graphml xmlns=\"http://graphml.graphdrawing.org/xmlns\">".toList

/-- A document whose bare tags are given their namespace. -/
def completed : List Char → List Char
  | [] => []
  | c :: cs =>
    if bareTag.isPrefixOf (c :: cs) then fullTag ++ completed (cs.drop (bareTag.length - 1))
    else c :: completed cs
termination_by cs => cs.length
decreasing_by
  · simp only [List.length_cons, List.length_drop]; omega
  · simp

/-- The first graph of a document, which has to have one. Where there is none, a namespace may have
been forgotten. -/
def ofText (text : String) : Except Fault TypeGraph := do
  match ← graphs (← root text) with
  | g :: _ => return g
  | [] =>
    match ← graphs (← root (String.ofList (completed text.toList))) with
    | g :: _ => return g
    | [] => .error (.markupGraph .noGraph)

end PropertyMetadata.GraphMl
