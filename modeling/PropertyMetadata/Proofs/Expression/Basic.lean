import PropertyMetadata.Descriptor
import PropertyMetadata.Flags
import PropertyMetadata.Proofs.Building.Acceptance
import PropertyMetadata.Resolve

/-! Type expressions, the parts that they are built of, and their meanings. An expression names its
nodes, so that expressions that share a node share its parts. In a proper expression the kind and
the text of every node fit what the node stands for. -/

namespace PropertyMetadata

/-- A node of an expression, its symbol and that of its alias if it has them, and the symbols that
enclose these. -/
structure Vertex where
  id : String
  kind : String
  text : Option String := none
  symbol : Option SymbolPart := none
  aliasSymbol : Option SymbolPart := none
  scope : List SymbolPart := []

/-- An enum, the symbol that declares it, and its literals. -/
structure EnumType where
  label : Vertex
  parent : SymbolPart
  literals : List Vertex

/-- Types that no other types belong to. -/
inductive Leaf where
  | boolean | number | string | classType | interface | date | top

/-- A type expression. Arrays and wrappers of a type may have more type arguments. An optional type
is the union of the type and an undefined node, an optional enum the union of literals and an
undefined node. -/
inductive TypeExpr where
  | leaf (v : Vertex) (k : Leaf)
  | array (v : Vertex) (element : TypeExpr) (more : List TypeExpr)
  | wrapper (v : Vertex) (payload : TypeExpr) (more : List TypeExpr)
  | enum (d : EnumType)
  | literal (d : EnumType) (v : Vertex)
  | optional (v u : Vertex) (front : Bool) (payload : TypeExpr)
  | optionalEnum (v : Vertex) (d : EnumType) (before : List Vertex) (u : Vertex)
    (behind : List Vertex)
  | union (v : Vertex) (members : List TypeExpr)
  | optionalUnion (v : Vertex) (before : List TypeExpr) (u : Vertex) (behind : List TypeExpr)

/-! ### Parts -/

def Vertex.symbols (v : Vertex) : List SymbolPart :=
  v.symbol.toList ++ v.aliasSymbol.toList ++ v.scope

def Vertex.type (v : Vertex) (arguments members : List String) : TypePart where
  id := v.id
  kind := v.kind
  text := v.text
  typeArguments := arguments
  members := members
  symbol := v.symbol.map SymbolPart.id
  aliasSymbol := v.aliasSymbol.map SymbolPart.id

def Vertex.parts (v : Vertex) (arguments members : List String) : List Part :=
  .type (v.type arguments members) :: v.symbols.map .symbol

def EnumType.declaration (d : EnumType) : List Part :=
  if d.parent.declared = none then [.declare d.parent.id d.label.id] else []

def EnumType.parts (d : EnumType) : List Part :=
  d.label.parts [] (d.literals.map Vertex.id) ++ .symbol d.parent :: d.declaration ++
    d.literals.flatMap fun v => v.parts [] []

namespace TypeExpr

def label : TypeExpr → Vertex
  | leaf v _ | array v _ _ | wrapper v _ _ | literal _ v | optional v _ _ _
  | optionalEnum v _ _ _ _ | union v _ | optionalUnion v _ _ _ => v
  | enum d => d.label

/-- The name that an expression is known by. -/
def id (e : TypeExpr) : String := e.label.id

mutual

def parts : TypeExpr → List Part
  | leaf v _ => v.parts [] []
  | array v e more => v.parts (e.id :: more.map id) [] ++ e.parts ++ allParts more
  | wrapper v e more => v.parts (e.id :: more.map id) [] ++ e.parts ++ allParts more
  | enum d => d.parts
  | literal d _ => d.parts
  | optional v u front e =>
    v.parts [] (if front then [u.id, e.id] else [e.id, u.id]) ++ u.parts [] [] ++ e.parts
  | optionalEnum v d before u behind =>
    v.parts [] (before.map Vertex.id ++ u.id :: behind.map Vertex.id) ++ u.parts [] [] ++ d.parts
  | union v members => v.parts [] (members.map id) ++ allParts members
  | optionalUnion v before u behind =>
    v.parts [] (before.map id ++ u.id :: behind.map id) ++ u.parts [] [] ++ allParts before ++
      allParts behind

def allParts : List TypeExpr → List Part
  | [] => []
  | e :: es => e.parts ++ allParts es

end

theorem allParts_eq (es : List TypeExpr) : allParts es = es.flatMap parts := by
  induction es with
  | nil => rfl
  | cons e es ih => rw [allParts, ih, List.flatMap_cons]

end TypeExpr

/-! ### Meanings -/

def Leaf.meaning (v : Vertex) : Leaf → Resolution
  | boolean => .descriptor .boolean
  | number => .descriptor .number
  | string => .descriptor .string
  | classType => .descriptor (.ofString (v.text.getD ""))
  | date => .descriptor .date
  | interface | top => .descriptor .object

/-- What an expression comes to: wrappers and optional types are what they hold, arrays stand in
brackets, other unions are objects, and enums have no descriptor. -/
def TypeExpr.meaning : TypeExpr → Resolution
  | leaf v k => k.meaning v
  | array _ e _ => e.meaning.bracketed
  | wrapper _ e _ => e.meaning
  | optional _ _ _ e => e.meaning
  | enum _ | literal _ _ | optionalEnum _ _ _ _ _ => .unresolved "enum"
  | union _ _ | optionalUnion _ _ _ _ => .descriptor .object

/-! ### Proper expressions -/

/-- A kind of types that are told by their texts. -/
def IsTold (kind : String) : Prop :=
  kind ∈ TypeGraph.typeKinds ∧ kind ∉ ["array", "boolean", "number", "string", "undefined"]

namespace Vertex

/-- A symbol has its parent, if any, in the scope of a node, and declares no type but the node. -/
structure Belongs (v : Vertex) (q : SymbolPart) : Prop where
  parent : ∀ s ∈ q.parent, ∃ p ∈ v.scope, p.id = s
  declared : ∀ s ∈ q.declared, s = v.id

/-- A node has symbols of its own, and it is not by its symbol that it is a literal of an enum. -/
structure Own (v : Vertex) : Prop where
  belongs : ∀ q ∈ v.symbols, v.Belongs q
  flags : ∀ q ∈ v.symbol, q.parent = none ∨
    ∃ f, Flags.ofRecord (.string (",".intercalate q.flags)) = .ok f ∧ f ≠ .enumMember

/-- A node has a text, and it marks no wrapper. -/
def Shows (v : Vertex) (s : String) : Prop := v.text = some s ∧ s ≠ "" ∧ isWrapper s = false

/-- A node has the text of a type that is not built in. -/
def Named (v : Vertex) : Prop := ∃ s, v.Shows s ∧ s ≠ "Date" ∧ s ∉ topTypes

def Undefined (v : Vertex) : Prop := v.kind = "undefined" ∧ v.Own

structure Union (v : Vertex) : Prop where
  kind : v.kind = "union" ∨ v.kind = "intersection"
  own : v.Own
  text : ∃ s, v.Shows s ∧ s ≠ "Date"

end Vertex

/-- The node of a type that no other types belong to. -/
def Leaf.Fits (v : Vertex) : Leaf → Prop
  | boolean => v.kind = "boolean"
  | number => v.kind = "number"
  | string => v.kind = "string"
  | classType => v.kind = "class" ∧ ∃ s, v.Shows s
  | interface => v.kind = "interface" ∧ ∃ s, v.Shows s ∧ s ≠ "Date"
  | date => IsTold v.kind ∧ v.text = some "Date"
  | top => IsTold v.kind ∧ v.kind ≠ "class" ∧ ∃ s ∈ topTypes, v.text = some s

namespace EnumType

/-- The node of a literal: its symbol is exactly an enum member, and the parent of the symbol is
the symbol of the enum. -/
structure Literal (d : EnumType) (v : Vertex) : Prop where
  known : v.kind ∈ TypeGraph.typeKinds
  kind : v.kind ≠ "undefined"
  scope : v.aliasSymbol = none ∧ v.scope = []
  symbol : ∃ q, v.symbol = some q ∧ q.parent = some d.parent.id ∧
    Flags.ofRecord (.string (",".intercalate q.flags)) = .ok .enumMember ∧
    ∀ s ∈ q.declared, s = v.id

/-- The symbol of an enum declares it and nothing else, and its literals are members of it. -/
structure Proper (d : EnumType) : Prop where
  kind : d.label.kind = "enum"
  own : d.label.Own
  text : d.label.Named
  parent : d.label.Belongs d.parent
  literals : ∀ v ∈ d.literals, d.Literal v

end EnumType

namespace TypeExpr

/-- The enum that an expression is a literal of. -/
def enumId? : TypeExpr → Option String
  | literal d _ => some d.label.id
  | _ => none

/-- An expression whose nodes have kinds and texts that fit. If the union of an undefined type and
two or more other types is to be no optional enum, the others must not be literals of one enum; it
does if one of them has no symbol. -/
inductive Proper : TypeExpr → Prop
  | leaf {v : Vertex} {k : Leaf} : k.Fits v → v.Own → Proper (.leaf v k)
  | array {v : Vertex} {e : TypeExpr} {more : List TypeExpr} : v.kind = "array" → v.Own →
    Proper e → (∀ m ∈ more, Proper m) → Proper (.array v e more)
  | wrapper {v : Vertex} {e : TypeExpr} {more : List TypeExpr} {s : String} : IsTold v.kind →
    v.Own → v.text = some s → isWrapper s = true → Proper e → (∀ m ∈ more, Proper m) →
    Proper (.wrapper v e more)
  | enum {d : EnumType} : d.Proper → Proper (.enum d)
  | literal {d : EnumType} {v : Vertex} : d.Proper → v ∈ d.literals → v.kind = "enum_literal" →
    v.Named → Proper (.literal d v)
  | optional {v u : Vertex} {front : Bool} {e : TypeExpr} : v.Union → u.Undefined → Proper e →
    Proper (.optional v u front e)
  | optionalEnum {v u : Vertex} {d : EnumType} {before behind : List Vertex} : v.Union →
    u.Undefined → d.Proper → before ++ behind ⊆ d.literals → 2 ≤ (before ++ behind).length →
    Proper (.optionalEnum v d before u behind)
  | union {v : Vertex} {members : List TypeExpr} : v.Union → (∀ m ∈ members, Proper m) →
    Proper (.union v members)
  | optionalUnion {v u : Vertex} {before behind : List TypeExpr} : v.Union → u.Undefined →
    (∀ m ∈ before, Proper m) → (∀ m ∈ behind, Proper m) → 2 ≤ (before ++ behind).length →
    (¬ ∃ d, ∀ m ∈ before ++ behind, m.enumId? = some d) → Proper (.optionalUnion v before u behind)

end TypeExpr

end PropertyMetadata
