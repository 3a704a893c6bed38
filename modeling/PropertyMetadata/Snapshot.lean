import PropertyMetadata.Json.Shape
import PropertyMetadata.Property.Extractor

/-! Snapshots: files and the syntax trees of their texts as JSON, as a parser hands them over. A
snapshot has a field `files`, from paths to contents, and a field `trees`, from paths to trees. -/

namespace PropertyMetadata.Snapshot

/-- The text of a field of a snapshot; anything else counts as empty. -/
def textOf : Json → String
  | .string s => s
  | _ => ""

/-- The number of a field of a snapshot; anything else counts as zero. -/
def numberOf : Json → Int
  | .int i => i
  | .bool true => 1
  | _ => 0

/-- The label of a node from its fields: kind, whether it is named, first byte, end, first row, last
row, and the part that it plays. -/
def label : List Json → Label
  | [kind, named, start, stop, startRow, stopRow, field] => {
      kind := textOf kind
      named := named.truthy
      start := numberOf start
      stop := numberOf stop
      startRow := (numberOf startRow).toNat
      stopRow := (numberOf stopRow).toNat
      field := match field with
        | .string s => some s
        | _ => none }
  | _ => default

mutual

def tree : Json → Tree
  | .array [a, b, c, d, e, f, g, .array children] =>
    .node (label [a, b, c, d, e, f, g]) (trees children)
  | _ => .node default []

def trees : List Json → List Tree
  | [] => []
  | x :: xs => tree x :: trees xs

end

def bytesOfDigits : List Char → List UInt8
  | a :: b :: cs =>
    UInt8.ofNat ((Text.hexValue? a).getD 0 * 16 + (Text.hexValue? b).getD 0) :: bytesOfDigits cs
  | _ => []

def content : Json → List UInt8
  | .string s => Text.Utf8.encode s
  | x => bytesOfDigits (textOf ((x.field? "hex").getD .null)).toList

def fieldsOf (x : Json) (key : String) : List (String × Json) :=
  match x.field? key with
  | some (.object fields) => fields
  | _ => []

/-- A disk with a content at a path. A path with a slash at its end is one of a directory. -/
def withContent (d : Disk) (f : String × Json) : Disk :=
  match d.withParents f.1 with
  | .error _ => d
  | .ok d =>
    let place := Path.walk (d.origin f.1) (Disk.steps f.1)
    if f.1.endsWith "/" then
      if (d.root.at? place).isSome then d else { d with root := d.root.set place (.directory []) }
    else { d with root := d.root.set place (.file (content f.2)) }

/-- The disk of a snapshot, whose paths start at a home directory. -/
def disk (home : List String) (x : Json) : Disk :=
  (fieldsOf x "files").foldl withContent ⟨(Entry.directory []).set home (.directory []), home⟩

/-- What parses the texts of a snapshot: each text that its trees know has its tree. -/
def parser (d : Disk) (x : Json) : Parser :=
  let known := (fieldsOf x "trees").filterMap fun f =>
    match Encodings.marked.read d f.1 with
    | .ok s => some (s, tree f.2)
    | .error _ => none
  fun s => ((known.find? fun k => k.1 == s).map (·.2)).getD (.node default [])

end PropertyMetadata.Snapshot
