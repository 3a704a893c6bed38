import PropertyMetadata.Ignore.Glob
import PropertyMetadata.Text.Lines

/-! Patterns for paths to ignore, one a line. A pattern with a slash before its end starts at the
root, another one anywhere; a slash at the end asks for something below; two stars stand for any
segments. A pattern behind an exclamation mark takes back what earlier ones ignore, so the last
pattern that matches a path decides. A program goes by these patterns that has no other rules. -/

namespace PropertyMetadata.Ignore

open Text

/-- One part of what a pattern asks of a path. -/
inductive Item where
  /-- A part of a segment. -/
  | part (g : Glob)
  /-- The slash between two segments, or before what lies below. -/
  | slash
  /-- A whole segment. -/
  | segment
  /-- Any segments above, each with its slash, or none. -/
  | above
  /-- Any segments between, each behind its slash, or none. -/
  | between
  /-- The end of the path or of a segment. -/
  | stop
  deriving DecidableEq, Repr

namespace Item

/-- What may be left of a text after a slash in it that is not its first character. -/
def restsBehindSlash : List Char → List (List Char)
  | [] => []
  | c :: cs => (if c = '/' then [cs] else []) ++ if c = '\n' then [] else restsBehindSlash cs

/-- What may be left of a text after some of its characters. -/
def restsBehindSome : List Char → List (List Char)
  | [] => []
  | c :: cs => if c = '\n' then [] else cs :: restsBehindSome cs

def rests (i : Item) (cs : List Char) : List (List Char) :=
  match i, cs with
  | part g, cs => g.rests cs
  | slash, '/' :: cs => [cs]
  | slash, _ => []
  | segment, c :: cs => if c = '/' then [] else Glob.restsOfRun cs
  | segment, [] => []
  | above, c :: cs => (c :: cs) :: if c = '\n' then [] else restsBehindSlash cs
  | above, [] => [[]]
  | between, '/' :: cs => ('/' :: cs) :: restsBehindSome cs
  | between, cs => [cs]
  | stop, [] => [[]]
  | stop, '/' :: cs => [cs]
  | stop, _ => []

def accepts (items : List Item) (cs : List Char) : Bool :=
  !(items.foldl (fun rests i => (rests.flatMap i.rests).eraseDups) [cs]).isEmpty

end Item

/-- What a pattern asks of a path: nothing, to lie below a directory, or to begin with items. -/
inductive Shape where
  | everything
  | nested
  | items (is : List Item)
  deriving DecidableEq, Repr

def Shape.fits (s : Shape) (path : List Char) : Bool :=
  match s with
  | everything => true
  | nested => path.contains '/'
  | items is => Item.accepts is path

/-- A pattern: what it asks, and whether it ignores or takes back. -/
structure Pattern where
  ignores : Bool
  shape : Shape
  deriving DecidableEq, Repr

namespace Pattern

/-- The segment that stands for any segments. -/
def anywhere : String := "**"

/-- The segments of a pattern as they count from the root: one segment alone may stand anywhere, and
an empty one at the end asks for anything below. -/
def rooted (segments : List String) : List String :=
  let segments := match segments with
    | "" :: rest => rest
    | [s] | [s, ""] => if s = anywhere then segments else anywhere :: segments
    | _ => segments
  if segments.getLast? = some "" then segments.dropLast ++ [anywhere] else segments

/-- Segments where those for any segments do not follow each other. -/
def collapsed : List String → List String
  | s :: t :: rest =>
    if s = anywhere ∧ t = anywhere then collapsed (t :: rest) else s :: collapsed (t :: rest)
  | rest => rest

/-- The items of segments behind others. A place counts the characters that the items before are
spelled with. -/
def itemsBehind (place : Nat) (needsSlash : Bool) : List String → Except Fault (Option (List Item))
  | [] => .ok (some [])
  | s :: rest =>
    if s = anywhere then
      if rest.isEmpty then .ok (some [.slash])
      else do return (← itemsBehind (place + 8) true rest).map (.between :: ·)
    else do
      let between := if needsSlash then [Item.slash] else []
      let place := place + between.length
      let ending := if rest.isEmpty then [Item.stop] else []
      if s = "*" then
        return (← itemsBehind (place + 5) true rest).map fun is =>
          between ++ .segment :: ending ++ is
      else
        match ← Glob.ofSegment place s with
        | none => return none
        | some gs =>
          let place := place + Glob.widths gs
          return (← itemsBehind place true rest).map fun is =>
            between ++ gs.map .part ++ ending ++ is

def itemsOf : List String → Except Fault (Option (List Item))
  | s :: rest =>
    if s = anywhere then do return (← itemsBehind 9 false rest).map (.above :: ·)
    else itemsBehind 1 false (s :: rest)
  | [] => .ok none

/-- The shape of a pattern without its mark, if it is one. -/
def shapeOf (text : String) : Except Fault (Option Shape) :=
  let segments := split '/' text
  let segments := collapsed (rooted segments)
  if segments = [anywhere] then .ok (some (if text.endsWith "/" then .nested else .everything))
  else if segments = [anywhere, "*"] then .ok (some .everything)
  else if segments = [anywhere, "*", anywhere] then .ok (some .nested)
  else do return (← itemsOf segments).map .items

/-- A line without the blanks at its end, unless the last one is to be taken as it is. -/
def trimmed (line : String) : String :=
  if line.endsWith "\\ " then line else String.ofList (trimEnd isBlank line.toList)

/-- The pattern of a line. Blank lines, comments and a lone slash are none. -/
def ofLine (line : String) : Except Fault (Option Pattern) :=
  let text := trimmed line
  if text = "" ∨ text = "/" ∨ text.startsWith "#" then .ok none
  else
    let ignores := !text.startsWith "!"
    let text := if ignores then text else String.ofList (text.toList.drop 1)
    do
      match ← shapeOf text with
      | some shape => return some ⟨ignores, shape⟩
      | none => .error (.badPattern line)

def ofLines (lines : List String) : Except Fault (List Pattern) := do
  return (← lines.mapM ofLine).filterMap id

/-- Whether patterns ignore a path: the last one that fits decides. -/
def ignored (ps : List Pattern) (path : List Char) : Bool :=
  match ps.reverse.find? fun p => p.shape.fits path with
  | some p => p.ignores
  | none => false

end Pattern

end PropertyMetadata.Ignore
