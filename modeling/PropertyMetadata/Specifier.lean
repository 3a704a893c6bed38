import PropertyMetadata.Descriptor
import PropertyMetadata.Path
import PropertyMetadata.Text.Word

/-! Import specifiers in the text of a type. A compiler writes a type of another module as
`import("path").Name`; what is emitted into a file names the module as that file would require it:
relative to the file, or by the name of its package. Paths that are not absolute start at a home
directory. -/

namespace PropertyMetadata.Specifier

open Text PropertyMetadata.Path

/-- The directory that holds packages. -/
def packageRoot : String := "node_modules"

/-- The package directory of declarations for other packages. -/
def typesRoot : String := "@types"

/-- The segment that a module path need not spell out. -/
def indexSegment : String := "index"

def beginsWithDot : List String → Bool
  | s :: _ => s.toList.head? == some '.'
  | [] => false

/-- The relative path from the directory of a file to a module, beginning with a dot. -/
def relative (home : List String) (path file : String) : List String :=
  let steps := between (directory home file) (place home path)
  let steps := if steps.isEmpty then ["."] else steps
  if beginsWithDot steps then steps else "." :: steps

/-- The package and the path in it, if a path leads into a directory of packages. -/
def inPackage (segments : List String) : List String :=
  let inside := (segments.dropWhile (· ≠ packageRoot)).drop 1
  if inside.head? = some typesRoot then inside.drop 1 else inside

/-- A module path without the last segment that need not be spelled out. -/
def withoutIndex (segments : List String) : List String :=
  if 1 < segments.length ∧ segments.getLast? = some indexSegment then segments.dropLast
  else segments

/-- Segments with slashes between them. -/
def spell (segments : List String) : String :=
  String.ofList (joined '/' (segments.map String.toList))

/-- The specifier of a module in a file; none when nothing of the path remains to name it. -/
def require? (home : List String) (path file : String) : Option String :=
  let segments := relative home path file
  if packageRoot ∈ segments then
    match inPackage segments with
    | [] => none
    | inside => some (spell (withoutIndex inside))
  else some (spell (withoutIndex segments))

/-- The specifier of a module, which needs a path. -/
def ofPath (home : List String) (path file : String) : Except Fault (Option String) :=
  if path.isEmpty then .error (.badValue .emptyPath) else .ok (require? home path file)

theorem ofPath_eq {path : String} (given : path ≠ "") (home : List String) (file : String) :
    ofPath home path file = .ok (require? home path file) := by
  rw [ofPath, if_neg (by simpa using given)]

/-- What announces an import. -/
def marker : List Char := "import(".toList

/-- The path of an import at the beginning of a text, and the text behind the import. -/
def import? (cs : List Char) : Option (List Char × List Char) :=
  let opening := marker ++ ['"']
  if opening.isPrefixOf cs then
    let body := cs.drop opening.length
    let path := body.takeWhile (· ≠ '"')
    match path, body.dropWhile (· ≠ '"') with
    | _ :: _, '"' :: ')' :: rest => some (path, rest)
    | _, _ => none
  else none

theorem length_of_import? {cs path rest : List Char} (h : import? cs = some (path, rest)) :
    rest.length < cs.length := by
  simp only [import?] at h
  split at h
  · split at h
    · rename_i hd
      simp only [Option.some.injEq, Prod.mk.injEq] at h
      obtain ⟨_, rfl⟩ := h
      have h₁ := (List.dropWhile_sublist (l := cs.drop (marker ++ ['"']).length)
        (· ≠ '"')).length_le
      rw [hd] at h₁
      simp only [List.length_cons, List.length_drop] at h₁
      omega
    · cases h
  · cases h

/-- A part of a text: one character, or an import of a path. -/
inductive Part where
  | plain (c : Char)
  | imported (path : List Char)
  deriving DecidableEq, Repr

/-- The parts of a text behind a character. An import does not begin behind a word character. -/
def parts (before : Option Char) : List Char → List Part
  | [] => []
  | c :: cs =>
    if before.any isWord then .plain c :: parts (some c) cs
    else
      match h : import? (c :: cs) with
      | some (path, rest) =>
        have := length_of_import? h
        .imported path :: parts (some ')') rest
      | none => .plain c :: parts (some c) cs
termination_by cs => cs.length
decreasing_by
  · simp
  · exact this
  · simp

def importedPaths (ps : List Part) : List String :=
  ps.filterMap fun
    | .imported path => some (String.ofList path)
    | .plain _ => none

/-- Parts as text, each import as a requirement of the specifier of its path. -/
def Part.rewritten (home : List String) (file : String) : Part → List Char
  | .plain c => [c]
  | .imported path =>
    let specifier := (require? home (String.ofList path) file).getD ""
    "require(\"".toList ++ specifier.toList ++ "\")".toList

/-- The text of a type with its imports as the file would require them. A text with the marker but
no proper import, or with an import that has no specifier, is unresolved. -/
def rewrite (home : List String) (text file : String) : Resolution :=
  if !occurs marker text.toList then .descriptor (.ofString text)
  else
    let ps := parts none text.toList
    let paths := importedPaths ps
    if paths.isEmpty then .unresolved "unrecognised import specifier"
    else if paths.any fun p => (require? home p file).isNone then
      .unresolved "import specifier without module path"
    else .descriptor (.ofString (String.ofList (ps.flatMap (Part.rewritten home file))))

/-- Rewriting of any text of a descriptor: a collection is left alone unless it holds the marker. -/
def rewriteValue (home : List String) (text : Json) (file : String) : Except Fault Resolution :=
  let announced : Json := .string (String.ofList marker)
  match text with
  | .string s => .ok (rewrite home s file)
  | .array items =>
    if items.any announced.alike then .error (.mismatch (.notMatchable text))
    else .ok (.descriptor ⟨text⟩)
  | .object fields =>
    if (Json.lookup fields (String.ofList marker)).isSome then
      .error (.mismatch (.notMatchable text))
    else .ok (.descriptor ⟨text⟩)
  | v => .error (.mismatch (.notSearchable v))

/-- A resolution with its imports as a file would require them. -/
def rewriteResolution (home : List String) (r : Resolution) (file : String) :
    Except Fault Resolution :=
  match r with
  | .descriptor d => rewriteValue home d.text file
  | .unresolved reason => .ok (.unresolved reason)

end PropertyMetadata.Specifier
