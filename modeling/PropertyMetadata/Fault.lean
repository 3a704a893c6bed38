import PropertyMetadata.Json.Parser
import PropertyMetadata.Json.Text
import PropertyMetadata.Markup.Basic
import PropertyMetadata.Text.Utf8

/-! The causes for which an operation has no answer, and the message of each. -/

namespace PropertyMetadata

open Text

/-- The name that messages give to the kind of a value. -/
def Json.kindName : Json → String
  | .null => "NoneType"
  | .bool _ => "bool"
  | .int _ => "int"
  | .double _ => "float"
  | .string _ => "str"
  | .array _ => "list"
  | .object _ => "dict"

inductive Mismatch where
  | notIterable (value : Json)
  | notSearchable (value : Json)
  | notIndexable (value : Json)
  | unhashable (value : Json)
  | notInteger (value : Json)
  | notJoinable (position : Nat) (value : Json)
  | notMatchable (value : Json)
  | notPrintable (value : Json)
  | emptyInteger
  | emptyDouble
  | reservedName (name : String)

def Mismatch.message : Mismatch → String
  | notIterable v => s!"'{v.kindName}' object is not iterable"
  | notSearchable v => s!"argument of type '{v.kindName}' is not iterable"
  | notIndexable (.string _) => "string indices must be integers, not 'str'"
  | notIndexable (.array _) => "list indices must be integers or slices, not str"
  | notIndexable v => s!"'{v.kindName}' object is not subscriptable"
  | unhashable v => s!"unhashable type: '{v.kindName}'"
  | notInteger v =>
    s!"int() argument must be a string, a bytes-like object or a real number, not '{v.kindName}'"
  | notJoinable n v => s!"sequence item {n}: expected str instance, {v.kindName} found"
  | notMatchable v => s!"expected string or bytes-like object, got '{v.kindName}'"
  | notPrintable v => s!"__str__ returned non-string (type {v.kindName})"
  | emptyInteger =>
    "int() argument must be a string, a bytes-like object or a real number, not 'NoneType'"
  | emptyDouble => "float() argument must be a string or a real number, not 'NoneType'"
  | reservedName a => s!"MultiDiGraph.add_node() got multiple values for argument '{a}'"

/-- Something that is needed and is not there: the fields of a value that is no object, the letters
of a name that is no text, the key of a pair, the text of a truth value, the graph inside a node
that says to hold one, and the direction of the edges. -/
inductive Absence where
  | fields (value : Json)
  | letters (value : Json)
  | pairKey
  | truthText
  | innerGraph
  | direction

/-- What is said of a value of a kind without a part. -/
def Absence.lacking (kindName part : String) : String :=
  s!"'{kindName}' object has no attribute '{part}'"

def Absence.message : Absence → String
  | fields v => lacking v.kindName "get"
  | letters v => lacking v.kindName "upper"
  | pairKey => lacking "NoneType" "start_byte"
  | truthText => lacking "NoneType" "lower"
  | innerGraph => lacking "NoneType" "get"
  | direction => lacking "MultiGraph" "out_edges"

/-- A value that is of the right kind but not acceptable. -/
inductive BadValue where
  | notAnInteger (text : String)
  | notADouble (text : String)
  | noWholePart
  | nullNode
  | emptyPath
  | badDepth (text : String)
  | unknownEncoding (name : String)
  | storedValue

def BadValue.message : BadValue → String
  | notAnInteger s => "invalid literal for int() with base 10: " ++ quoted s
  | notADouble s => "could not convert string to float: " ++ quoted s
  | noWholePart => "cannot convert float NaN to integer"
  | nullNode => "None cannot be a node"
  | emptyPath => "no path specified"
  | badDepth s => "$TYPEREF_MAX_DEPTH must be an integer, got " ++ quoted s
  | unknownEncoding s => "unknown encoding: " ++ s
  | storedValue => "nothing reads stored values"

inductive GraphFault where
  | unknownNode (id : Json)
  | unknownKind (kind node : Json)
  | unknownRelation (relation source target : Json)
  | danglingEdge (source target : Json)
  | undeclared (symbol : Json)
  | unsupportedFormat (path : String)

def GraphFault.message : GraphFault → String
  | unknownNode id => s!"Unknown node: {id.text}"
  | unknownKind k n => s!"Unknown type kind {k.shown} for node {n.text}"
  | unknownRelation r a b => s!"Unknown relation {r.shown} on edge {a.text} -> {b.text}"
  | danglingEdge a b => s!"Edge {a.text} -> {b.text} references an unknown node"
  | undeclared s => s!"Symbol {s.text} has no declared type"
  | unsupportedFormat p => s!"Unsupported graph format: {p}"

inductive MarkupGraphFault where
  | noGraph
  | namelessKey (id : Option String)
  | unknownKey (id : Option String)
  | hyperedge
  | undirectedEdge
  | directedEdge
  | unwritable (value : Json)

def MarkupGraphFault.message : MarkupGraphFault → String
  | noGraph => "file not successfully read as graphml"
  | namelessKey id => "Unknown key for id " ++ id.getD "None" ++ "."
  | unknownKey id => "Bad GraphML data: no key " ++ id.getD "None"
  | hyperedge => "GraphML reader doesn't support hyperedges"
  | undirectedEdge => "directed=false edge found in directed graph."
  | directedEdge => "directed=true edge found in undirected graph."
  | unwritable v => s!"GraphML writer does not support <class '{v.kindName}'> as data values."

inductive FileFault where
  | missing (path : String)
  | isDirectory (path : String)
  | notDirectory (path : String)
  | present (path : String)

def FileFault.message : FileFault → String
  | missing p => "[Errno 2] No such file or directory: " ++ quoted p
  | isDirectory p => "[Errno 21] Is a directory: " ++ quoted p
  | notDirectory p => "[Errno 20] Not a directory: " ++ quoted p
  | present p => "[Errno 17] File exists: " ++ quoted p

/-- Why an operation has no answer. -/
inductive Fault where
  | graph (cause : GraphFault)
  | unrenderable (message : String)
  | missingKey (key : Json)
  | mismatch (cause : Mismatch)
  | absent (cause : Absence)
  | badValue (cause : BadValue)
  | tooLarge
  | endless
  | malformedJson (cause : Json.Malformed)
  | malformedMarkup (cause : Markup.Malformed)
  | markupGraph (cause : MarkupGraphFault)
  | badPattern (pattern : String)
  | badRange (low high : Char) (position : Nat)
  | file (cause : FileFault)
  | undecodable (cause : Text.Utf8.Malformed)

def Fault.message : Fault → String
  | graph c => c.message
  | unrenderable m => m
  | missingKey k => k.shown
  | mismatch c => c.message
  | absent c => c.message
  | badValue c => c.message
  | tooLarge => "cannot convert float infinity to integer"
  | endless => "maximum recursion depth exceeded"
  | malformedJson c => c.message
  | malformedMarkup c => c.message
  | markupGraph c => c.message
  | badPattern p => s!"Invalid git pattern: {quoted p}"
  | badRange a b n => s!"bad character range {a}-{b} at position {n}"
  | file c => c.message
  | undecodable c => c.message

theorem bind_eq_ok_iff {α β : Type} {m : Except Fault α} {f : α → Except Fault β} {b : β} :
    m >>= f = .ok b ↔ ∃ a, m = .ok a ∧ f a = .ok b := by
  cases m <;> simp [bind, Except.bind]

end PropertyMetadata
