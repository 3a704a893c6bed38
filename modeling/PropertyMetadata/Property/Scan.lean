import PropertyMetadata.Property.Declaration

/-! The search for properties in a syntax tree. The walk goes down to every class and through its
body; a class inside another one is met after the field that it stands in. In a body, decorators
wait for the next field, across separators and comments, and anything else ends their waiting. -/

namespace PropertyMetadata

/-- What the walk meets in the bodies of classes: a decorator, which has to be readable whatever
follows, and a field, with the name of its class and the decorators that waited for it. -/
inductive Finding where
  | decorator (t : Tree)
  | field (owner : Option Tree) (t : Tree) (waiting : List Tree)

namespace Tree

/-- Whether a node is a class. The word that begins a class is of such a kind too, but not named. -/
def isClass (l : Label) : Bool :=
  ["class_declaration", "class", "abstract_class_declaration"].contains l.kind && l.named

def isField (t : Tree) : Bool := t.kind == "public_field_definition"

/-- Whether a node may stand between a decorator and its field. -/
def isBetween (t : Tree) : Bool := [";", ",", "comment"].contains t.kind

/-- The decorators that wait behind a member of a body. -/
def waitingAfter (waiting : List Tree) (m : Tree) : List Tree :=
  if m.isDecorator then waiting ++ [m] else if m.isBetween then waiting else []

/-- What a member of a body is by itself. -/
def ownFinding (owner : Option Tree) (waiting : List Tree) (m : Tree) : List Finding :=
  if m.isDecorator then [.decorator m] else if m.isField then [.field owner m waiting] else []

mutual

/-- What the walk meets in a tree. -/
def findings : Tree → List Finding
  | node l children =>
    if isClass l then
      bodyFindings (children.find? fun c => c.label.field == some "name") children
    else findingsIn children

/-- What the walk meets in trees side by side. -/
def findingsIn : List Tree → List Finding
  | [] => []
  | t :: ts => findings t ++ findingsIn ts

/-- What the walk meets below a node, whatever the node is. -/
def findingsBelow : Tree → List Finding
  | node _ children => findingsIn children

/-- What the walk meets in the body among the children of a class; there is nothing else that it
looks at. -/
def bodyFindings (owner : Option Tree) : List Tree → List Finding
  | [] => []
  | t :: ts =>
    if t.label.field == some "body" then membersFindings owner t else bodyFindings owner ts

/-- What the walk meets in a body. -/
def membersFindings (owner : Option Tree) : Tree → List Finding
  | node _ members => memberFindings owner [] members

/-- What the walk meets in members of a body, behind decorators that wait. -/
def memberFindings (owner : Option Tree) (waiting : List Tree) : List Tree → List Finding
  | [] => []
  | m :: ms =>
    ownFinding owner waiting m ++ findingsBelow m ++
      memberFindings owner (waitingAfter waiting m) ms

end

end Tree

/-- The properties that a finding declares, none or one. -/
def Finding.properties (source : List UInt8) (file : String) :
    Finding → Except Fault (List Property)
  | decorator t => do
    let _ ← t.decorator source
    return []
  | field owner t waiting => do return (← t.property? source file owner waiting).toList

namespace Property

/-- All properties that a tree declares, in the order in which the walk meets them. -/
def all (source : List UInt8) (file : String) (t : Tree) : Except Fault (List Property) := do
  return (← t.findings.mapM (Finding.properties source file)).flatten

/-- The properties of a tree that a search keeps. -/
def scan (names : Option Names) (source : List UInt8) (file : String) (t : Tree) :
    Except Fault (List Property) := do
  return (← all source file t).filter (isKept names)

end Property

end PropertyMetadata
