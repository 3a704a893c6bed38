import PropertyMetadata.Markup.Basic
import PropertyMetadata.Markup.Character
import PropertyMetadata.Text.Digit

/-! The parts of documents as they are written: names, references, attributes, tags, comments and
instructions. A part that breaks its rules halts at a character or at the end of the document;
what a part means is asked only when it is whole. -/

namespace PropertyMetadata.Markup

/-- Why a part is not whole: a character that cannot stand where it does, given by the text from it
on, or the end of the document. -/
inductive Halt where
  | before (rest : List Char)
  | atEnd

/-- A name as it is written, with a prefix or without. -/
structure WrittenName where
  before : Option (List Char)
  base : List Char
  deriving DecidableEq, Repr

/-- One part of a value: a character, or a reference by number or by name. References know the text
from them on. -/
inductive Piece where
  | plain (c : Char)
  | numbered (code : Nat) (rest : List Char)
  | named (name : List Char) (rest : List Char)

/-- An attribute as it is written, with the text from it on. -/
structure WrittenAttribute where
  name : WrittenName
  value : List Piece
  rest : List Char

/-- A start tag; an empty one is the end tag of its element too. -/
structure StartTag where
  name : WrittenName
  attributes : List WrittenAttribute
  isEmpty : Bool

def halt {α : Type} : List Char → Except Halt α
  | [] => .error .atEnd
  | cs => .error (.before cs)

def simpleName : List Char → Except Halt (List Char × List Char)
  | [] => .error .atEnd
  | c :: cs =>
    if isNameStart c then .ok (c :: cs.takeWhile isNameChar, cs.dropWhile isNameChar)
    else .error (.before (c :: cs))

def writtenName (cs : List Char) : Except Halt (WrittenName × List Char) := do
  let (n, rest) ← simpleName cs
  match rest with
  | ':' :: rest =>
    let (m, rest) ← simpleName rest
    return (⟨some n, m⟩, rest)
  | rest => return (⟨none, n⟩, rest)

def decimalValue? (c : Char) : Option Nat := if c.isDigit then some (c.toNat - 48) else none

def codeDigits (base : Nat) (value? : Char → Option Nat) :
    Nat → List Char → Except Halt (Nat × List Char)
  | _, [] => .error .atEnd
  | n, ';' :: cs => .ok (n, cs)
  | n, c :: cs =>
    match value? c with
    | some v => codeDigits base value? (n * base + v) cs
    | none => .error (.before (c :: cs))

/-- A code of at least one digit. -/
def code (base : Nat) (value? : Char → Option Nat) (cs : List Char) :
    Except Halt (Nat × List Char) :=
  match cs with
  | ';' :: _ => .error (.before cs)
  | _ => codeDigits base value? 0 cs

/-- A reference behind its ampersand; `whole` is the text from the ampersand on. -/
def reference (whole : List Char) : List Char → Except Halt (Piece × List Char)
  | '#' :: 'x' :: cs => do
    let (n, rest) ← code 16 Text.hexValue? cs
    return (.numbered n whole, rest)
  | '#' :: cs => do
    let (n, rest) ← code 10 decimalValue? cs
    return (.numbered n whole, rest)
  | cs => do
    let (n, rest) ← simpleName cs
    match rest with
    | ';' :: rest => return (.named n whole, rest)
    | rest => halt rest

def attributeValue (quote : Char) : Nat → List Char → Except Halt (List Piece × List Char)
  | 0, cs => halt cs
  | _, [] => .error .atEnd
  | fuel + 1, c :: cs =>
    if c = quote then .ok ([], cs)
    else if c = '&' then do
      let (p, rest) ← reference (c :: cs) cs
      let (ps, rest) ← attributeValue quote fuel rest
      return (p :: ps, rest)
    else if c = '<' ∨ !isLegal c then .error (.before (c :: cs))
    else do
      let (ps, rest) ← attributeValue quote fuel cs
      return (.plain c :: ps, rest)

def skipGaps (cs : List Char) : List Char := cs.dropWhile isGap

/-- An attribute: a name, the equality sign, and a value in quotes of either kind. -/
def writtenAttribute (cs : List Char) : Except Halt (WrittenAttribute × List Char) := do
  let (name, rest) ← writtenName cs
  match skipGaps rest with
  | '=' :: rest =>
    match skipGaps rest with
    | q :: rest =>
      if q = '"' ∨ q = '\'' then
        let (value, rest) ← attributeValue q (rest.length + 1) rest
        return (⟨name, value, cs⟩, rest)
      else .error (.before (q :: rest))
    | [] => .error .atEnd
  | rest => halt rest

/-- The rest of a start tag. An attribute has a gap before it. -/
def startTagRest (spaced : Bool) :
    Nat → List Char → Except Halt ((List WrittenAttribute × Bool) × List Char)
  | 0, cs => halt cs
  | _, [] => .error .atEnd
  | _, '>' :: cs => .ok (([], false), cs)
  | _, '/' :: '>' :: cs => .ok (([], true), cs)
  | _, '/' :: cs => halt cs
  | fuel + 1, c :: cs =>
    if isGap c then startTagRest true fuel cs
    else if spaced then do
      let (a, rest) ← writtenAttribute (c :: cs)
      let ((as, isEmpty), rest) ← startTagRest false fuel rest
      return ((a :: as, isEmpty), rest)
    else .error (.before (c :: cs))

/-- A start tag behind its opening bracket. -/
def startTag (cs : List Char) : Except Halt (StartTag × List Char) := do
  let (name, rest) ← writtenName cs
  let ((attributes, isEmpty), rest) ← startTagRest false (rest.length + 1) rest
  return (⟨name, attributes, isEmpty⟩, rest)

/-- An end tag behind its opening bracket and slash. -/
def endTag (cs : List Char) : Except Halt (WrittenName × List Char) := do
  let (name, rest) ← writtenName cs
  match skipGaps rest with
  | '>' :: rest => return (name, rest)
  | rest => halt rest

/-- A comment behind its opening. Two hyphens end it, and only before a closing bracket. -/
def comment : List Char → Except Halt (Unit × List Char)
  | [] => .error .atEnd
  | '-' :: '-' :: '>' :: cs => .ok ((), cs)
  | '-' :: '-' :: cs => halt cs
  | c :: cs => if isLegal c then comment cs else .error (.before (c :: cs))

/-- The rest of an instruction, up to its closing. -/
def instructionRest : List Char → Except Halt (Unit × List Char)
  | [] => .error .atEnd
  | '?' :: '>' :: cs => .ok ((), cs)
  | c :: cs => if isLegal c then instructionRest cs else .error (.before (c :: cs))

def isDeclared (target : List Char) : Bool := target.map Char.toLower == ['x', 'm', 'l']

/-- An instruction behind its opening: its target is what tells it from others. -/
def instruction (cs : List Char) : Except Halt (List Char × List Char) := do
  let (target, rest) ← simpleName cs
  if isDeclared target && target != ['x', 'm', 'l'] then halt rest
  else
    match rest with
    | '?' :: '>' :: rest => return (target, rest)
    | '?' :: rest => halt rest
    | c :: rest =>
      if isGap c then
        let ((), rest) ← instructionRest rest
        return (target, rest)
      else .error (.before (c :: rest))
    | [] => .error .atEnd

def expect : List Char → List Char → Except Halt (List Char)
  | [], cs => .ok cs
  | _ :: _, [] => .error .atEnd
  | w :: ws, c :: cs => if c = w then expect ws cs else .error (.before (c :: cs))

end PropertyMetadata.Markup
