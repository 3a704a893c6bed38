import PropertyMetadata.Json.Basic
import PropertyMetadata.Number.Shortest
import PropertyMetadata.Text.Quoted

/-! Printing JSON, on one line or indented by two blanks a level. Characters are written as they
are, except the quote, the backslash and the controls below the space. -/

namespace PropertyMetadata.Json

def printedChar (c : Char) : List Char :=
  if c = '"' ∨ c = '\\' then ['\\', c]
  else if c = '\n' then ['\\', 'n']
  else if c = '\r' then ['\\', 'r']
  else if c = '\t' then ['\\', 't']
  else if c = '\x0c' then ['\\', 'f']
  else if c = '\x08' then ['\\', 'b']
  else if c.toNat < 0x20 then '\\' :: 'u' :: Text.hexDigits 4 c.toNat
  else [c]

def printedString (s : String) : String :=
  String.ofList ('"' :: s.toList.flatMap printedChar ++ ['"'])

/-- A double; the values that are no numbers have names. -/
def printedDouble : Number.Double → String
  | .nan => "NaN"
  | .infinite negative => if negative then "-Infinity" else "Infinity"
  | d => d.text

/-- How the parts of a value are set apart: after an opening bracket, between two parts, before
the closing bracket, each at a level of nesting. -/
structure Layout where
  opening : Nat → String
  between : Nat → String
  closing : Nat → String

/-- All on one line. -/
def Layout.line : Layout := ⟨fun _ => "", fun _ => ", ", fun _ => ""⟩

/-- A line break and two blanks for each level. -/
def indentation (level : Nat) : String := String.ofList ('\n' :: List.replicate (2 * level) ' ')

/-- One part a line, indented by two blanks a level. -/
def Layout.indented : Layout :=
  ⟨indentation, fun level => "," ++ indentation level, fun level => indentation (level - 1)⟩

mutual

/-- A value whose parts stand at a level of nesting. -/
def printAt (layout : Layout) (level : Nat) : Json → String
  | null => "null"
  | bool b => if b then "true" else "false"
  | int i => toString i
  | double d => printedDouble d
  | string s => printedString s
  | array [] => "[]"
  | array (x :: xs) =>
    "[" ++ layout.opening level ++ printItems layout level (x :: xs) ++ layout.closing level ++ "]"
  | object [] => "\x7b\x7d"
  | object (f :: fs) =>
    "\x7b" ++ layout.opening level ++ printFields layout level (f :: fs) ++ layout.closing level ++
      "\x7d"

def printItems (layout : Layout) (level : Nat) : List Json → String
  | [] => ""
  | [x] => printAt layout (level + 1) x
  | x :: y :: xs =>
    printAt layout (level + 1) x ++ layout.between level ++ printItems layout level (y :: xs)

def printFields (layout : Layout) (level : Nat) : List (String × Json) → String
  | [] => ""
  | [(k, x)] => printedString k ++ ": " ++ printAt layout (level + 1) x
  | (k, x) :: f :: fs =>
    printedString k ++ ": " ++ printAt layout (level + 1) x ++ layout.between level ++
      printFields layout level (f :: fs)

end

def print (x : Json) : String := printAt .line 1 x

def printIndented (x : Json) : String := printAt .indented 1 x

end PropertyMetadata.Json
