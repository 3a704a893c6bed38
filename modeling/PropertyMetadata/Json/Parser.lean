import PropertyMetadata.Json.Basic
import PropertyMetadata.Number.Reading

/-! Reading JSON. Of a key that occurs twice in an object the last value counts, at the place of the
first. Numbers without fraction and exponent are integers of any size; `NaN`, `Infinity` and
`-Infinity` are doubles. Neither the digits of a number nor the depth of a value are limited. A text
that is no JSON is refused with the place of the first fault.

Strings are texts of characters, so surrogates that stand alone have no place in them: each is read
as the replacement character. Strings that differ in such surrogates alone are one string here, also
as the names of nodes. -/

namespace PropertyMetadata.Json

open Number Text

/-- What is wrong at a place of a text. -/
inductive Problem where
  | byteOrderMark | value | key | colon | comma | extra | unterminated | control | escape | unicode
  deriving DecidableEq, Repr

def Problem.text : Problem → String
  | byteOrderMark => "Unexpected UTF-8 BOM (decode using utf-8-sig)"
  | value => "Expecting value"
  | key => "Expecting property name enclosed in double quotes"
  | colon => "Expecting ':' delimiter"
  | comma => "Expecting ',' delimiter"
  | extra => "Extra data"
  | unterminated => "Unterminated string starting at"
  | control => "Invalid control character at"
  | escape => "Invalid \\escape"
  | unicode => "Invalid \\uXXXX escape"

/-- A fault and the text from its place on. -/
structure Refusal where
  problem : Problem
  rest : List Char

def isSpace (c : Char) : Bool := c == ' ' || c == '\t' || c == '\n' || c == '\r'

def skip (cs : List Char) : List Char := cs.dropWhile isSpace

def codeUnit? (a b c d : Char) : Option Nat := do
  return (((← hexValue? a) * 16 + (← hexValue? b)) * 16 + (← hexValue? c)) * 16 + (← hexValue? d)

def escaped? : Char → Option Char
  | '"' => some '"'
  | '\\' => some '\\'
  | '/' => some '/'
  | 'b' => some '\x08'
  | 'f' => some '\x0c'
  | 'n' => some '\n'
  | 'r' => some '\r'
  | 't' => some '\t'
  | _ => none

/-- The code points of a string up to its closing quote, surrogates apart. `opening` is the text
from the opening quote on. -/
def units (opening : List Char) : List Char → Except Refusal (List Nat × List Char)
  | [] => .error ⟨.unterminated, opening⟩
  | c :: cs =>
    if c = '"' then .ok ([], cs)
    else if c = '\\' then
      match cs with
      | [] => .error ⟨.unterminated, opening⟩
      | 'u' :: w :: x :: y :: z :: cs =>
        match codeUnit? w x y z, cs with
        | some n, _ :: _ => do
          let (us, rest) ← units opening cs
          return (n :: us, rest)
        | _, _ => .error ⟨.unicode, 'u' :: w :: x :: y :: z :: cs⟩
      | e :: cs =>
        if e = 'u' then .error ⟨.unicode, e :: cs⟩
        else match escaped? e with
          | none => .error ⟨.escape, c :: e :: cs⟩
          | some e => do
            let (us, rest) ← units opening cs
            return (e.toNat :: us, rest)
    else if c.toNat < 0x20 then .error ⟨.control, c :: cs⟩
    else do
      let (us, rest) ← units opening cs
      return (c.toNat :: us, rest)

/-- Code points as characters: a high and a low surrogate make one character, and any surrogate that
stands alone becomes the replacement character. -/
def characters : List Nat → List Char
  | [] => []
  | [n] => [if 0xd800 ≤ n ∧ n < 0xe000 then '\ufffd' else Char.ofNat n]
  | n :: m :: ns =>
    if 0xd800 ≤ n ∧ n < 0xdc00 ∧ 0xdc00 ≤ m ∧ m < 0xe000 then
      Char.ofNat (0x10000 + (n - 0xd800) * 0x400 + (m - 0xdc00)) :: characters ns
    else (if 0xd800 ≤ n ∧ n < 0xe000 then '\ufffd' else Char.ofNat n) :: characters (m :: ns)

def readString (cs : List Char) : Except Refusal (String × List Char) := do
  let (us, rest) ← units cs cs.tail
  return (String.ofList (characters us), rest)

/-- The digits of a number before its fraction: a zero alone, or digits that begin with no zero. -/
def wholeDigits? : List Char → Option (List Nat × List Char)
  | '0' :: cs => some ([0], cs)
  | c :: cs => if c.isDigit then some (leadingDigits (c :: cs)) else none
  | [] => none

/-- A fraction: a point and at least one digit, or nothing. -/
def fractionDigits : List Char → List Nat × List Char
  | '.' :: c :: cs => if c.isDigit then leadingDigits (c :: cs) else ([], '.' :: c :: cs)
  | cs => ([], cs)

/-- An exponent with at least one digit, or nothing. -/
def exponentPart : List Char → Option Int × List Char
  | c :: cs =>
    if c = 'e' ∨ c = 'E' then
      let (negative, digits) := signed cs
      let (ds, rest) := leadingDigits digits
      if ds.isEmpty then (none, c :: cs)
      else (some (if negative then -(ofDigits ds : Int) else ofDigits ds), rest)
    else (none, c :: cs)
  | [] => (none, [])

/-- A number: an integer, or with a fraction or an exponent a double. -/
def readNumber (cs : List Char) : Except Refusal (Json × List Char) :=
  let (negative, digits) := match cs with
    | '-' :: ds => (true, ds)
    | ds => (false, ds)
  match wholeDigits? digits with
  | none => .error ⟨.value, cs⟩
  | some (whole, rest) =>
    let (fraction, rest) := fractionDigits rest
    let (power, rest) := exponentPart rest
    if fraction.isEmpty ∧ power.isNone then
      let n : Int := ofDigits whole
      .ok (.int (if negative then -n else n), rest)
    else
      .ok (.double (.ofDecimal negative (ofDigits (whole ++ fraction))
        (power.getD 0 - fraction.length)), rest)

def words : List (List Char × Json) := [
  ("null".toList, .null), ("true".toList, .bool true), ("false".toList, .bool false),
  ("NaN".toList, .double .nan), ("Infinity".toList, .double (.infinite false)),
  ("-Infinity".toList, .double (.infinite true))]

def readScalar (cs : List Char) : Except Refusal (Json × List Char) :=
  match words.find? fun w => w.1.isPrefixOf cs with
  | some (w, x) => .ok (x, cs.drop w.length)
  | none => readNumber cs

mutual

/-- A value, which begins at the first character. -/
def readValue : Nat → List Char → Except Refusal (Json × List Char)
  | 0, cs => .error ⟨.value, cs⟩
  | fuel + 1, cs =>
    match cs with
    | '"' :: _ => do
      let (s, rest) ← readString cs
      return (.string s, rest)
    | '[' :: rest =>
      match skip rest with
      | ']' :: rest => .ok (.array [], rest)
      | rest => do
        let (xs, rest) ← readItems fuel rest
        return (.array xs, rest)
    | '\x7b' :: rest =>
      match skip rest with
      | '\x7d' :: rest => .ok (.object [], rest)
      | rest => do
        let (fs, rest) ← readFields fuel [] rest
        return (.object fs, rest)
    | cs => readScalar cs

/-- The items of an array up to its closing bracket. -/
def readItems : Nat → List Char → Except Refusal (List Json × List Char)
  | 0, cs => .error ⟨.value, cs⟩
  | fuel + 1, cs => do
    let (x, rest) ← readValue fuel cs
    match skip rest with
    | ']' :: rest => return ([x], rest)
    | ',' :: rest => do
      let (xs, rest) ← readItems fuel (skip rest)
      return (x :: xs, rest)
    | rest => .error ⟨.comma, rest⟩

/-- The fields of an object up to its closing brace, added to the ones before. -/
def readFields :
    Nat → List (String × Json) → List Char → Except Refusal (List (String × Json) × List Char)
  | 0, _, cs => .error ⟨.value, cs⟩
  | fuel + 1, before, cs =>
    match cs with
    | '"' :: _ => do
      let (key, rest) ← readString cs
      match skip rest with
      | ':' :: rest => do
        let (x, rest) ← readValue fuel (skip rest)
        let fields := insert before key x
        match skip rest with
        | '\x7d' :: rest => return (fields, rest)
        | ',' :: rest => readFields fuel fields (skip rest)
        | rest => .error ⟨.comma, rest⟩
      | rest => .error ⟨.colon, rest⟩
    | cs => .error ⟨.key, cs⟩

end

/-- A fault at a place, counted in characters from the start. -/
structure Malformed where
  problem : Problem
  line : Nat
  column : Nat
  offset : Nat
  deriving DecidableEq, Repr

/-- The place of a fault in the text that it was found in. -/
def Malformed.locate (cs : List Char) (r : Refusal) : Malformed :=
  let offset := cs.length - r.rest.length
  let before := cs.take offset
  ⟨r.problem, before.count '\n' + 1, (before.reverse.takeWhile (· ≠ '\n')).length + 1, offset⟩

def Malformed.message (m : Malformed) : String :=
  s!"{m.problem.text}: line {m.line} column {m.column} (char {m.offset})"

def parse (s : String) : Except Malformed Json :=
  let cs := s.toList
  let result : Except Refusal Json :=
    match cs with
    | '\ufeff' :: _ => .error ⟨.byteOrderMark, cs⟩
    | cs => do
      let (x, rest) ← readValue (2 * cs.length + 2) (skip cs)
      match skip rest with
      | [] => return x
      | rest => .error ⟨.extra, rest⟩
  result.mapError (Malformed.locate cs)

end PropertyMetadata.Json
