import PropertyMetadata.Markup.Tag

/-! Reading documents: a prologue, one element with all that is in it, and an epilogue. The elements
whose end has not come yet are a stack; each knows its text and the children that are complete.
`parse` gives the one element of a document, or the first fault and its place. -/

namespace PropertyMetadata.Markup

structure Spot where
  problem : Problem
  rest : List Char

def located {α : Type} (token : List Char) : Except Halt α → Except Spot α
  | .ok x => .ok x
  | .error (.before rest) => .error ⟨.invalidToken, rest⟩
  | .error .atEnd => .error ⟨.unclosedToken, token⟩

/-! ### What the parts mean -/

/-- The characters that have names. -/
def namedChars : List (List Char × Char) := [
  ("lt".toList, '<'), ("gt".toList, '>'), ("amp".toList, '&'), ("quot".toList, '"'),
  ("apos".toList, '\'')]

/-- The character that a part of a value stands for. -/
def Piece.char : Piece → Except Spot Char
  | plain c => .ok c
  | numbered n rest =>
    if n.isValidChar ∧ isLegal (Char.ofNat n) then .ok (Char.ofNat n)
    else .error ⟨.badReference, rest⟩
  | named n rest =>
    match namedChars.find? fun p => p.1 == n with
    | some p => .ok p.2
    | none => .error ⟨.undefinedEntity, rest⟩

/-- The text of a value, where every written gap is a space. -/
def valueChars : List Piece → Except Spot (List Char)
  | [] => .ok []
  | .plain '\r' :: .plain '\n' :: ps => do return ' ' :: (← valueChars ps)
  | .plain c :: ps => do return (if isGap c then ' ' else c) :: (← valueChars ps)
  | p :: ps => do
    let c ← p.char
    return c :: (← valueChars ps)

/-- What prefixes stand for; without prefix, the one for elements. -/
abbrev Scope := List (Option (List Char) × String)

/-- The attribute that binds a prefix. -/
def bindingName : List Char := "xmlns".toList

/-- The prefix that an attribute binds, if it binds one. -/
def WrittenName.bound? (n : WrittenName) : Option (Option (List Char)) :=
  match n.before with
  | none => if n.base = bindingName then some none else none
  | some p => if p = bindingName then some (some n.base) else none

/-- The scope of a document: the prefix that every document has. -/
def Scope.outermost : Scope := [(some "xml".toList, "http://www.w3.org/XML/1998/namespace")]

def Scope.find? (s : Scope) (p : Option (List Char)) : Option String :=
  (List.find? (fun b => b.1 == p) s).map (·.2)

/-- The attributes of a tag with their values, each name once. -/
def attributeValues :
    List WrittenName → List WrittenAttribute → Except Spot (List (WrittenName × String))
  | _, [] => .ok []
  | seen, a :: as =>
    if a.name ∈ seen then .error ⟨.duplicateAttribute, a.rest⟩
    else do
      let v ← valueChars a.value
      return (a.name, String.ofList v) :: (← attributeValues (a.name :: seen) as)

/-- A scope with the prefixes that attributes bind. -/
def Scope.extended (s : Scope) (values : List (WrittenName × String)) : Scope :=
  (values.filterMap fun a => a.1.bound?.map fun p => (p, a.2)).reverse ++ s

/-- The name of an attribute: without prefix it is in no namespace. -/
def attributeName (s : Scope) (token : List Char) (n : WrittenName) : Except Spot Name :=
  match n.before with
  | none => .ok ⟨"", String.ofList n.base⟩
  | some p =>
    match s.find? (some p) with
    | some space => .ok ⟨space, String.ofList n.base⟩
    | none => .error ⟨.unboundSpace, token⟩

def elementName (s : Scope) (token : List Char) (n : WrittenName) : Except Spot Name :=
  match s.find? n.before, n.before with
  | some space, _ => .ok ⟨space, String.ofList n.base⟩
  | none, none => .ok ⟨"", String.ofList n.base⟩
  | none, some _ => .error ⟨.unboundSpace, token⟩

def namedAttributes (s : Scope) (token : List Char) :
    List Name → List (WrittenName × String) → Except Spot (List (Name × String))
  | _, [] => .ok []
  | seen, a :: as =>
    if a.1.bound?.isSome then namedAttributes s token seen as
    else do
      let n ← attributeName s token a.1
      if n ∈ seen then .error ⟨.duplicateAttribute, token⟩
      else return (n, a.2) :: (← namedAttributes s token (n :: seen) as)

/-! ### Elements -/

/-- An element whose end has not come yet. What comes later stands first in its text and its
children. -/
structure Open where
  written : WrittenName
  name : Name
  attributes : List (Name × String)
  scope : Scope
  text : List Char := []
  children : List Element := []

namespace Open

def ofTag (s : Scope) (token : List Char) (t : StartTag) : Except Spot Open := do
  let values ← attributeValues [] t.attributes
  let scope := s.extended values
  let attributes ← namedAttributes scope token [] values
  return { written := t.name, name := ← elementName scope token t.name, attributes, scope }

/-- Text counts before the first child. -/
def addChar (o : Open) (c : Char) : Open :=
  if o.children.isEmpty then { o with text := c :: o.text } else o

def addChars (o : Open) (cs : List Char) : Open := cs.foldl addChar o

def addChild (o : Open) (e : Element) : Open := { o with children := e :: o.children }

def close (o : Open) : Element :=
  .mk o.name o.attributes (if o.text.isEmpty then none else some (String.ofList o.text.reverse))
    o.children.reverse

end Open

/-- The characters of a section that holds no markup, and what follows it. Line ends are one
character each. -/
def plainSection : List Char → Except Spot (List Char × List Char)
  | [] => .error ⟨.unclosedSection, []⟩
  | ']' :: ']' :: '>' :: cs => .ok ([], cs)
  | '\r' :: '\n' :: cs => do
    let (text, rest) ← plainSection cs
    return ('\n' :: text, rest)
  | c :: cs =>
    if isLegal c then do
      let (text, rest) ← plainSection cs
      return ((if c = '\r' then '\n' else c) :: text, rest)
    else .error ⟨.invalidToken, c :: cs⟩

/-- What a step inside an element leads to: more of the stack, or a complete element. -/
inductive Progress where
  | inside (top : Open) (outer : List Open)
  | complete (e : Element)

/-- The stack after an element is complete. -/
def completed (outer : List Open) (e : Element) : Progress :=
  match outer with
  | [] => .complete e
  | o :: os => .inside (o.addChild e) os

/-- One token of the content of an element: a tag, a reference, one character, or what does not
count. -/
def contentStep (top : Open) (outer : List Open) (cs : List Char) :
    Except Spot (Progress × List Char) :=
  match cs with
  | [] => .error ⟨.noElement, []⟩
  | '<' :: '/' :: rest => do
    let (n, after) ← located cs (endTag rest)
    if n = top.written then return (completed outer top.close, after)
    else .error ⟨.mismatchedTag, rest⟩
  | '<' :: '!' :: '-' :: rest => do
    let rest ← located cs (expect ['-'] rest)
    let ((), rest) ← located cs (comment rest)
    return (.inside top outer, rest)
  | '<' :: '!' :: '[' :: rest => do
    let rest ← located cs (expect "CDATA[".toList rest)
    let (text, rest) ← plainSection rest
    return (.inside (top.addChars text) outer, rest)
  | '<' :: '!' :: rest => located cs (halt rest)
  | '<' :: '?' :: rest => do
    let (target, rest) ← located cs (instruction rest)
    if isDeclared target then .error ⟨.misplacedDeclaration, cs⟩
    else return (.inside top outer, rest)
  | '<' :: rest => do
    let (tag, rest) ← located cs (startTag rest)
    let o ← Open.ofTag top.scope cs tag
    if tag.isEmpty then return (completed (top :: outer) o.close, rest)
    else return (.inside o (top :: outer), rest)
  | '&' :: rest => do
    let (p, rest) ← located cs (reference cs rest)
    return (.inside (top.addChar (← p.char)) outer, rest)
  | ']' :: ']' :: '>' :: rest => .error ⟨.invalidToken, '>' :: rest⟩
  | '\r' :: '\n' :: rest => .ok (.inside (top.addChar '\n') outer, rest)
  | c :: rest =>
    if isLegal c then .ok (.inside (top.addChar (if c = '\r' then '\n' else c)) outer, rest)
    else .error ⟨.invalidToken, cs⟩

/-- The content of an element up to its end. Every step takes at least one character. -/
def content : Nat → Open → List Open → List Char → Except Spot (Element × List Char)
  | 0, _, _, cs => .error ⟨.noElement, cs⟩
  | fuel + 1, top, outer, cs => do
    match ← contentStep top outer cs with
    | (.complete e, rest) => return (e, rest)
    | (.inside top outer, rest) => content fuel top outer rest

/-! ### What stands around the element -/

def quotedRest (quote : Char) : List Char → Except Halt (Unit × List Char)
  | [] => .error .atEnd
  | c :: cs => if c = quote then .ok ((), cs) else quotedRest quote cs

/-- The rest of a declaration of the kind of document; what it declares is passed over. -/
def kindRest : Nat → Bool → List Char → Except Halt (Unit × List Char)
  | 0, _, cs => halt cs
  | _, _, [] => .error .atEnd
  | fuel + 1, inside, '<' :: '!' :: '-' :: '-' :: cs => do
    let ((), rest) ← comment cs
    kindRest fuel inside rest
  | fuel + 1, inside, c :: cs =>
    if c = '"' ∨ c = '\'' then do
      let ((), rest) ← quotedRest c cs
      kindRest fuel inside rest
    else if c = '[' then kindRest fuel true cs
    else if c = ']' then kindRest fuel false cs
    else if c = '>' ∧ !inside then .ok ((), cs)
    else if isLegal c then kindRest fuel inside cs
    else .error (.before (c :: cs))

/-- The problem of a text in a prologue that is no markup: a word or a mark that is not expected, or
a character that cannot stand there. -/
def stray (cs : List Char) : Spot :=
  let isWord (c : Char) := isNameChar c || c == ':'
  let ends (c : Char) := isGap c || ">),|[%*+?".toList.contains c
  match cs with
  | [] => ⟨.noElement, []⟩
  | c :: _ =>
    if isWord c then
      match cs.dropWhile isWord with
      | [] => ⟨.syntaxFault, cs⟩
      | d :: rest => if ends d then ⟨.syntaxFault, cs⟩ else ⟨.invalidToken, d :: rest⟩
    else if "\"',[]()|>#%".toList.contains c then ⟨.syntaxFault, cs⟩
    else ⟨.invalidToken, cs⟩

/-- What begins the element of a document: the text before its name, past all that may stand
before it. -/
def prologue : Nat → Bool → List Char → Except Spot (List Char)
  | 0, _, cs => .error ⟨.noElement, cs⟩
  | fuel + 1, kindKnown, cs =>
    match cs with
    | [] => .error ⟨.noElement, []⟩
    | '<' :: '!' :: '-' :: rest => do
      let rest ← located cs (expect ['-'] rest)
      let ((), rest) ← located cs (comment rest)
      prologue fuel kindKnown rest
    | '<' :: '!' :: rest =>
      if "DOCTYPE".toList.isPrefixOf rest && !kindKnown then do
        let ((), rest) ← located cs (kindRest (rest.length + 1) false (rest.drop 7))
        prologue fuel true rest
      else match rest with
        | c :: _ =>
          if c.isAlpha || c == '[' then .error ⟨.syntaxFault, cs⟩ else .error ⟨.invalidToken, rest⟩
        | [] => .error ⟨.unclosedToken, cs⟩
    | '<' :: '?' :: rest => do
      let (target, rest) ← located cs (instruction rest)
      if isDeclared target then .error ⟨.misplacedDeclaration, cs⟩ else prologue fuel kindKnown rest
    | '<' :: c :: rest =>
      if isNameStart c then .ok cs else .error ⟨.invalidToken, c :: rest⟩
    | ['<'] => .error ⟨.unclosedToken, cs⟩
    | c :: rest => if isGap c then prologue fuel kindKnown rest else .error (stray cs)

/-- What may stand behind the element of a document: gaps, comments and instructions. -/
def epilogue : Nat → List Char → Except Spot Unit
  | 0, _ => .ok ()
  | fuel + 1, cs =>
    match cs with
    | [] => .ok ()
    | '<' :: '!' :: '-' :: rest => do
      let rest ← located cs (expect ['-'] rest)
      let ((), rest) ← located cs (comment rest)
      epilogue fuel rest
    | '<' :: '?' :: rest => do
      let (target, rest) ← located cs (instruction rest)
      if isDeclared target then .error ⟨.junkAfterRoot, cs⟩ else epilogue fuel rest
    | '<' :: c :: rest =>
      if isNameStart c || c == '!' || c == '/' then .error ⟨.junkAfterRoot, cs⟩
      else .error ⟨.invalidToken, c :: rest⟩
    | ['<'] => .error ⟨.unclosedToken, cs⟩
    | c :: rest =>
      if isGap c then epilogue fuel rest
      else match stray cs with
        | ⟨.syntaxFault, _⟩ => .error ⟨.junkAfterRoot, cs⟩
        | s => .error s

/-- The attributes of the declaration at the start of a document, in their order. -/
def declarationNames : List (List String) :=
  [["version"], ["version", "encoding"], ["version", "standalone"],
    ["version", "encoding", "standalone"]]

/-- The text behind the declaration at the start of a document, if there is one. -/
def declaration (cs : List Char) : Except Spot (List Char) :=
  let opening := "<?xml".toList
  if opening.isPrefixOf cs && (cs.drop opening.length).head?.any isGap then do
    let (_, rest) ← located cs (instruction (cs.drop 2))
    let inner := (cs.drop opening.length).take (cs.length - opening.length - rest.length - 2)
    match startTagRest false (inner.length + 2) (inner ++ ['>']) with
    | .ok ((as, _), _) =>
      if declarationNames.contains (as.map fun a => String.ofList a.name.base) then return rest
      else .error ⟨.badDeclaration, cs⟩
    | .error _ => .error ⟨.badDeclaration, cs⟩
  else .ok cs

def document (cs : List Char) : Except Spot Element := do
  let start ← prologue (cs.length + 1) false (← declaration cs)
  let (tag, rest) ← located start (startTag (start.drop 1))
  let o ← Open.ofTag .outermost start tag
  let (e, rest) ← if tag.isEmpty then .ok (o.close, rest) else content (rest.length + 1) o [] rest
  epilogue (rest.length + 1) rest
  return e

/-- The line, from one on, and the column, from zero on, behind a text. -/
def placeBehind : Nat → Nat → List Char → Nat × Nat
  | line, column, [] => (line, column)
  | line, _, '\r' :: '\n' :: cs => placeBehind (line + 1) 0 cs
  | line, column, c :: cs =>
    if c = '\n' ∨ c = '\r' then placeBehind (line + 1) 0 cs else placeBehind line (column + 1) cs

def parse (s : String) : Except Malformed Element :=
  let cs := match s.toList with
    | '\ufeff' :: cs => cs
    | cs => cs
  match document cs with
  | .ok e => .ok e
  | .error spot =>
    let (line, column) := placeBehind 1 0 (cs.take (cs.length - spot.rest.length))
    .error ⟨spot.problem, line, column⟩

end PropertyMetadata.Markup
