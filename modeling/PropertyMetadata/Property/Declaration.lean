import PropertyMetadata.Path
import PropertyMetadata.Property.Basic
import PropertyMetadata.Tree

/-! Decorators and fields as syntax trees declare them. -/

namespace PropertyMetadata

open Text

/-- The marks around a key. -/
def isQuote (c : Char) : Bool := c == '\'' || c == '"' || c == '`'

def unquoted (s : String) : String := String.ofList (trimBoth isQuote s.toList)

/-- An annotation without the colons before it and the blanks around it. -/
def withoutColon (s : String) : String :=
  String.ofList (trimBoth isBlank (s.toList.dropWhile (· == ':')))

namespace Tree

/-- The assignment that a member of an object makes, if it is one. A pair needs a key; without a
value it assigns the empty text. -/
def assignment? (source : List UInt8) (t : Tree) : Except Fault (Option Assignment) :=
  if t.kind = "pair" then
    match t.part? "key" with
    | none => .error (.absent .pairKey)
    | some key =>
      let value := ((t.part? "value").map (text source)).getD ""
      .ok (some { name := unquoted (key.text source), value })
  else if t.kind = "shorthand_property_identifier" then
    .ok (some { name := t.text source, value := t.text source })
  else .ok none

def assignments (source : List UInt8) (t : Tree) : Except Fault (List Assignment) := do
  return (← t.namedChildren.mapM (assignment? source)).filterMap id

/-- What a decorator consists of, behind its mark. -/
def decorated? (t : Tree) : Option Tree := t.namedChildren.head?

/-- The part of a node of a kind, where other nodes stand for themselves. -/
def through (kind field : String) (t : Tree) : Option Tree :=
  if t.kind = kind then t.part? field else some t

/-- The name of a decorator: that of the function it calls, and of its last member. -/
def decoratorName? (source : List UInt8) (t : Tree) : Option String := do
  let called ← (← t.decorated?).through "call_expression" "function"
  let named ← called.through "member_expression" "property"
  if named.kind = "identifier" ∨ named.kind = "property_identifier" then some (named.text source)
  else none

/-- The arguments of the call that a decorator is; without a call there are none. -/
def decoratorArguments (t : Tree) : List Tree :=
  match t.decorated? with
  | some call =>
    if call.kind = "call_expression" then
      match call.part? "arguments" with
      | some as => as.namedChildren.filter fun a => a.kind != "comment"
      | none => []
    else []
  | none => []

/-- The decorator of a node. Its properties are those of its first argument, if that is an
object. -/
def decorator (source : List UInt8) (t : Tree) : Except Fault Decorator := do
  let arguments := t.decoratorArguments
  let properties ← match arguments with
    | first :: _ => if first.kind = "object" then first.assignments source else .ok []
    | [] => .ok []
  return {
    name := t.decoratorName? source
    text := t.text source
    arguments := arguments.map (text source)
    properties }

def isDecorator (t : Tree) : Bool := t.kind == "decorator"

/-- The property that a field declares in a class, with the decorators before it and then those
inside it; a field without name declares none. -/
def property? (source : List UInt8) (file : String) (owner : Option Tree) (before : List Tree)
    (t : Tree) : Except Fault (Option Property) :=
  match t.part? "name" with
  | none => .ok none
  | some name => do
    let decorators ← (before ++ t.children.filter isDecorator).mapM (decorator source)
    return some {
      name := name.text source
      className := owner.map (text source)
      isOptional := t.children.any fun c => c.kind == "?"
      annotation := (t.part? "type").map fun a => withoutColon (a.text source)
      decorators
      startLine := t.label.startRow + 1
      stopLine := t.label.stopRow + 1
      file := Path.slashed file }

end Tree

end PropertyMetadata
