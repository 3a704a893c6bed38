/-! Markup documents: elements with attributes, text and nested elements, as XML writes them. Names
are a namespace and a local name. A malformed document is refused with the place of its fault. -/

namespace PropertyMetadata.Markup

/-- A name: its namespace, empty for none, and its local part. -/
structure Name where
  space : String
  base : String
  deriving DecidableEq, Repr

/-- An element: its attributes in order, the text before its first child, and its children. The
text is absent when there is not a single character of it. -/
inductive Element where
  | mk (name : Name) (attributes : List (Name × String)) (text : Option String)
    (children : List Element)
  deriving Repr

namespace Element

def name : Element → Name
  | mk n _ _ _ => n

def attributes : Element → List (Name × String)
  | mk _ as _ _ => as

def text : Element → Option String
  | mk _ _ t _ => t

def children : Element → List Element
  | mk _ _ _ cs => cs

def attribute? (e : Element) (key : String) : Option String :=
  (e.attributes.find? fun a => a.1 == ⟨"", key⟩).map (·.2)

def childrenNamed (e : Element) (n : Name) : List Element := e.children.filter fun c => c.name == n

end Element

inductive Problem where
  | noElement | syntaxFault | invalidToken | unclosedToken | mismatchedTag | duplicateAttribute
  | junkAfterRoot | undefinedEntity | unboundSpace | misplacedDeclaration | badReference
  | unclosedSection | badDeclaration
  deriving DecidableEq, Repr

def Problem.text : Problem → String
  | noElement => "no element found"
  | syntaxFault => "syntax error"
  | invalidToken => "not well-formed (invalid token)"
  | unclosedToken => "unclosed token"
  | mismatchedTag => "mismatched tag"
  | duplicateAttribute => "duplicate attribute"
  | junkAfterRoot => "junk after document element"
  | undefinedEntity => "undefined entity"
  | unboundSpace => "unbound prefix"
  | misplacedDeclaration => "XML or text declaration not at start of entity"
  | badReference => "reference to invalid character number"
  | unclosedSection => "unclosed CDATA section"
  | badDeclaration => "XML declaration not well-formed"

/-- A fault and its place: the line from one on, the column from zero on. -/
structure Malformed where
  problem : Problem
  line : Nat
  column : Nat
  deriving DecidableEq, Repr

def Malformed.message (m : Malformed) : String :=
  s!"{m.problem.text}: line {m.line}, column {m.column}"

end PropertyMetadata.Markup
