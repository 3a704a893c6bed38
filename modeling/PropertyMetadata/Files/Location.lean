import PropertyMetadata.Text.Pieces

/-! Locations: paths without empty segments and segments that stand still. Locations are ordered
segment by segment, and a segment by its characters. -/

namespace PropertyMetadata

open Text

/-- Where a location starts: in the working directory, or at the root, which two slashes name like
one. -/
inductive Start where
  | home
  | root
  | slashes
  deriving DecidableEq, Repr

namespace Start

def text : Start → String
  | home => ""
  | root => "/"
  | slashes => "//"

/-- Where a path starts. Two slashes are kept, but three or more are as good as one. -/
def ofPath : List Char → Start
  | '/' :: '/' :: '/' :: _ => root
  | '/' :: '/' :: _ => slashes
  | '/' :: _ => root
  | _ => home

end Start

/-- A location: segments from where it starts on. -/
structure Location where
  start : Start
  segments : List String
  deriving DecidableEq, Repr

namespace Location

def ofString (path : String) : Location where
  start := .ofPath path.toList
  segments := (split '/' path).filter fun s => s != "" && s != "."

/-- Segments with slashes between them. -/
def spelled (segments : List String) : String :=
  String.ofList (joined '/' (segments.map String.toList))

/-- The path of a location; the working directory itself is a dot. -/
def path (l : Location) : String :=
  if l.start = .home ∧ l.segments.isEmpty then "." else l.start.text ++ spelled l.segments

/-- The location that segments lead to from a location. -/
def below (l : Location) (segments : List String) : Location :=
  { l with segments := l.segments ++ segments }

/-- Whether segments come before others, or are the same. -/
def precedes : List String → List String → Bool
  | [], _ => true
  | _ :: _, [] => false
  | a :: as, b :: bs => a < b || (a == b && precedes as bs)

end Location

end PropertyMetadata
