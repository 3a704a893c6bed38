import PropertyMetadata.Fault
import PropertyMetadata.Path

/-! Files and directories in memory. A path is followed step by step from the root or from the
working directory; every step but the last has to lead into a directory. -/

namespace PropertyMetadata

open Text

/-- What stands under a name: a file with its bytes, or a directory with its entries. -/
inductive Entry where
  | file (bytes : List UInt8)
  | directory (entries : List (String × Entry))
  deriving Repr, Inhabited

/-- All files, and the place of the working directory among them. -/
structure Disk where
  root : Entry
  home : List String

namespace Entry

/-- The entries of a directory; a file has none. -/
def entries : Entry → List (String × Entry)
  | directory es => es
  | file _ => []

def isDirectory : Entry → Bool
  | directory _ => true
  | file _ => false

def child? (e : Entry) (name : String) : Option Entry := Json.lookup e.entries name

/-- The entry at a place below. -/
def at? : Entry → List String → Option Entry
  | e, [] => some e
  | e, s :: ss => (e.child? s).bind fun c => c.at? ss

/-- An entry with what stands at a place below set, where the place lies in directories. -/
def set : Entry → List String → Entry → Entry
  | _, [], new => new
  | file bytes, _ :: _, _ => file bytes
  | directory es, s :: ss, new =>
    directory (Json.insert es s (((Json.lookup es s).getD (directory [])).set ss new))

end Entry

namespace Disk

/-- The steps of a path as it is written. -/
def steps (path : String) : List String := split '/' path

/-- The place that a path starts from. -/
def origin (d : Disk) (path : String) : List String := Path.origin d.home (steps path)

/-- Where steps lead from a place, each taken in a directory. -/
def follow (d : Disk) (path : String) : List String → List String → Except FileFault (List String)
  | place, [] => .ok place
  | place, s :: ss =>
    match d.root.at? place with
    | none => .error (.missing path)
    | some (.file _) => .error (.notDirectory path)
    | some (.directory es) =>
      if s = "" ∨ s = "." then follow d path place ss
      else if s = ".." then follow d path place.dropLast ss
      else
        match Json.lookup es s with
        | some _ => follow d path (place ++ [s]) ss
        | none => .error (.missing path)

def look (d : Disk) (path : String) : Except FileFault Entry :=
  if path.isEmpty then .error (.missing path)
  else do
    let place ← d.follow path (d.origin path) (steps path)
    match d.root.at? place with
    | some e => return e
    | none => .error (.missing path)

def isFile (d : Disk) (path : String) : Bool :=
  match d.look path with
  | .ok e => !e.isDirectory
  | .error _ => false

def has (d : Disk) (path : String) : Bool := (d.look path).isOk

def read (d : Disk) (path : String) : Except FileFault (List UInt8) := do
  match ← d.look path with
  | .file bytes => return bytes
  | .directory _ => .error (.isDirectory path)

/-- A disk with a file at a path, in a directory that is there. A path that ends with a slash, or
whose last step is no name, is one of a directory. -/
def write (d : Disk) (path : String) (bytes : List UInt8) : Except FileFault Disk :=
  let steps := steps path
  let named := (steps.reverse.dropWhile (·.isEmpty)).reverse
  match named.getLast? with
  | none => .error (if path.isEmpty then .missing path else .isDirectory path)
  | some name => do
    let place ← d.follow path (d.origin path) named.dropLast
    match d.root.at? place with
    | some (.directory es) =>
      if named.length < steps.length ∨ name = "." ∨ name = ".." then .error (.isDirectory path)
      else
        match Json.lookup es name with
        | some (.directory _) => .error (.isDirectory path)
        | _ => return { d with root := d.root.set (place ++ [name]) (.file bytes) }
    | some (.file _) => .error (.notDirectory path)
    | none => .error (.missing path)

/-- The path of a place from the root. -/
def absolute (place : List String) : String :=
  String.ofList ('/' :: joined '/' (place.map String.toList))

/-- A disk on which every step from a place on is a directory. -/
def withDirectories (d : Disk) : List String → List String → Except FileFault Disk
  | _, [] => .ok d
  | place, s :: ss =>
    let next := place ++ [s]
    match d.root.at? place with
    | some (.directory es) =>
      match Json.lookup es s with
      | some (.directory _) => withDirectories d next ss
      | some (.file _) =>
        match ss with
        | [] => .error (.present (absolute next))
        | t :: _ => .error (.notDirectory (absolute (next ++ [t])))
      | none => withDirectories { d with root := d.root.set next (.directory []) } next ss
    | _ => .error (.notDirectory (absolute next))

/-- A disk with all directories that a path lies in. -/
def withParents (d : Disk) (path : String) : Except FileFault Disk :=
  d.withDirectories [] (Path.walk (d.origin path) (steps path)).dropLast

end Disk

end PropertyMetadata
