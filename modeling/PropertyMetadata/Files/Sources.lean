import PropertyMetadata.Files.Location
import PropertyMetadata.Ignore.Rules

/-! The sources below a root: what its name marks as source text, without declarations, without
what belongs to packages, and without what the root asks to ignore. -/

namespace PropertyMetadata

open Text

namespace Entry

mutual

/-- The paths of all that lies below an entry. -/
def paths : Entry → List (List String)
  | file _ => []
  | directory es => pathsIn es

def pathsIn : List (String × Entry) → List (List String)
  | [] => []
  | (name, e) :: es => [name] :: e.paths.map (name :: ·) ++ pathsIn es

end

end Entry

namespace Sources

def packages : String := "node_modules"

/-- The file in which a root says what is to be ignored. -/
def ignoreFile : String := ".gitignore"

/-- What stands behind the last dot of a name, unless the dot is its first or last character. -/
def extension? (name : String) : Option String :=
  let cs := name.toList
  let behind := (cs.reverse.takeWhile (· ≠ '.')).reverse
  if behind.isEmpty ∨ cs.length ≤ behind.length + 1 then none else some (String.ofList behind)

/-- Whether a name is one of a source text: that of a script, and not of declarations. -/
def isSourceName (name : String) : Bool :=
  (extension? name == some "ts" || extension? name == some "tsx") && !name.endsWith ".d.ts"

/-- Whether a path below a root is the one of a source. Packages are told by any segment, also of
the root. -/
def isSource (root : Location) (ignored : String → Bool) (segments : List String) : Bool :=
  !(root.below segments).segments.contains packages &&
    (segments.getLast?.any isSourceName) && !ignored (Location.spelled segments)

/-- The paths that a root asks to ignore. -/
def ignored (d : Disk) (rules : Ignore.Rules) (root : Location) :
    Except Fault (String → Bool) := do
  let path := (root.below [ignoreFile]).path
  if d.has path then rules.ofText (← d.readText rules.decode path) else rules.ofLines []

/-- The sources below a root in the order of their locations. A root that is a file is its own and
only source. -/
def collect (d : Disk) (path : String) (rules : Ignore.Rules := .usual) :
    Except Fault (List Location) :=
  let root := Location.ofString path
  if d.isFile root.path then .ok [root]
  else do
    let ignored ← ignored d rules root
    match d.look root.path with
    | .ok e =>
      let found := e.paths.mergeSort Location.precedes
      return (found.filter (isSource root ignored)).map root.below
    | .error _ => return []

end Sources

end PropertyMetadata
