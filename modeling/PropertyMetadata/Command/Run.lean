import PropertyMetadata.Command.Usage
import PropertyMetadata.Files.Sources
import PropertyMetadata.Graph.Checker
import PropertyMetadata.Graph.Formats
import PropertyMetadata.Graph.Schema
import PropertyMetadata.Property.Extractor
import PropertyMetadata.Specifier

/-! Runs of the program. A run takes the words of a command line, the disk and the bound on the
depth that the environment gives; it comes to lines of output, a status, complaints, and the disk as
it is then. What it cannot know by itself, such as the encoding of a source, it takes from tools. -/

namespace PropertyMetadata.Command

open Text

/-- A line of output: text, or a fault that did not end the run. -/
inductive Line where
  | text (s : String)
  | failure (cause : Fault)

/-- What a run comes to: the disk is the one after it, where a file may have been stored. -/
structure Outcome where
  status : Nat := 0
  output : List Line := []
  complaints : List String := []
  disk : Disk
  stored : Option String := none

/-- The surroundings of a run: the disk, what parses sources, and the bound on the depth that is set
from outside. -/
structure Surroundings where
  disk : Disk
  parse : Parser
  depth : Option String

/-- What a run takes from elsewhere: knowledge of encodings, the rules on what to ignore, and
readers of graphs in other formats. -/
structure Tools where
  encodings : Encodings := .marked
  rules : Ignore.Rules := .usual
  formats : GraphFormats := .usual

/-! ### Resolution -/

/-- The graph in a file; the end of its name tells the format. -/
def loadGraph (formats : GraphFormats) (d : Disk) (path : String) : Except Fault TypeGraph :=
  if path.endsWith ".json" then do
    match Json.parse (← d.readText Encodings.strict path) with
    | .ok schema => TypeGraph.ofSchema schema
    | .error e => .error (.malformedJson e)
  else if path.endsWith ".graphml" then
    match d.read path with
    | .ok bytes => formats.document bytes
    | .error e => .error (.file e)
  else if path.endsWith GraphFormats.storedEnding then
    match d.read path with
    | .ok bytes => formats.stored bytes
    | .error e => .error (.file e)
  else .error (.graph (.unsupportedFormat path))

/-- The bound on the depth: the given one, or else the one that is set from outside. -/
def depthBound (s : Surroundings) (given : Option Int) : Except Fault (Option Int) :=
  match given, s.depth with
  | some n, _ => .ok (some n)
  | none, none | none, some "" => .ok none
  | none, some text =>
    match Number.integer? text with
    | some n => .ok (some n)
    | none => .error (.badValue (.badDepth text))

/-- The resolution of a type of a graph, rewritten for a file if the name of one is given. -/
def resolutionIn (g : TypeGraph) (home : List String) (id : Json) (file : Option String)
    (depth : Option Int) : Except Fault Resolution := do
  let r ← g.resolve depth id
  match nonempty? file with
  | some f => Specifier.rewriteResolution home r f
  | none => return r

def resolution (formats : GraphFormats) (d : Disk) (graph : String) (id : Json)
    (file : Option String) (depth : Option Int) : Except Fault Resolution := do
  resolutionIn (← loadGraph formats d graph) d.home id file depth

def resolve (t : Tools) (s : Surroundings) (graph id : String) (file : Option String)
    (depth : Option Int) : Except Fault String := do
  let depth ← depthBound s depth
  (← resolution t.formats s.disk graph (.string id) file depth).print

/-! ### Scans -/

/-- An extractor after sources one by one, and what is said of those that fail. -/
def extract (parse : Parser) (d : Disk) : Extractor → List Location → Extractor × List Line
  | x, [] => (x, [])
  | x, l :: ls =>
    let (r, x) := x.process parse d l.path
    let said := match r with
      | .ok _ => []
      | .error e => [.failure e, .text s!"Unable to process - {l.path}. Skipping it."]
    let (x, rest) := extract parse d x ls
    (x, said ++ rest)

/-- A disk with the records of an extractor in a file, in directories made for it. -/
def store (d : Disk) (x : Extractor) (path : String) : Except Fault Disk :=
  match d.withParents path with
  | .ok d => x.write d path
  | .error e => .error (.file e)

/-- A search for properties in the sources below a root, where a source that fails is passed over:
what is said of those, and the records of the properties, with the disk after it. With a path, the
records are stored there. -/
def search (t : Tools) (s : Surroundings) (root : String) (names : Option Names)
    (output : Option String) : List Line × Except Fault (List Json × Disk) :=
  match Sources.collect s.disk root t.rules with
  | .error e => ([], .error e)
  | .ok sources =>
    let (x, said) := extract s.parse s.disk { names, encodings := t.encodings } sources
    match nonempty? output with
    | none => (said, .ok (x.records, s.disk))
    | some path =>
      match store s.disk x path with
      | .ok d => (said, .ok (x.records, d))
      | .error e => (said, .error e)

def shown (record : Json) (key : String) : String := ((record.field? key).getD .null).text

/-- The name of a decorator in a record; one without name is a question mark. -/
def calledAs (decorator : Json) : String :=
  match decorator.field? "name" with
  | some name => if name.truthy then name.text else "?"
  | none => "?"

def summary (record : Json) : String :=
  let names := match record.field? "decorators" with
    | some (.array decorators) => ", ".intercalate (decorators.map calledAs)
    | _ => ""
  shown record "file_path" ++ ":" ++ shown record "start_line" ++ " " ++ shown record "class" ++
    "." ++ shown record "name" ++ " [" ++ names ++ "]"

def failed (d : Disk) (said : List Line) (e : Fault) : Outcome :=
  { status := 1, output := said, complaints := ["Error: " ++ e.message], disk := d }

/-- A scan of the sources below a root: the lines on what a search finds, or where it is stored. -/
def scan (t : Tools) (s : Surroundings) (root : String) (decorators : List String)
    (output : Option String) : Outcome :=
  match search t s root (some (decorators.map some)) output with
  | (said, .error e) => failed s.disk said e
  | (said, .ok (records, d)) =>
    match nonempty? output with
    | none => { output := said ++ records.map fun r => .text (summary r), disk := d }
    | some path =>
      let line := s!"Wrote {records.length} properties to {path}"
      { output := said ++ [.text line], disk := d, stored := some path }

/-! ### Runs -/

def printed (d : Disk) : Except Fault String → Outcome
  | .ok text => { output := [.text text], disk := d }
  | .error e => failed d [] e

def answer (t : Tools) (s : Surroundings) : Request → Outcome
  | .help => { output := [.text mainGrammar.help], disk := s.disk }
  | .resolve graph id file depth => printed s.disk (resolve t s graph id file depth)
  | .normalize text file => printed s.disk (Specifier.rewrite s.disk.home text file).print
  | .scan root decorators output => scan t s root decorators output

def run (s : Surroundings) (words : List String) (t : Tools := {}) : Outcome :=
  match Request.ofWords words with
  | .ok request => answer t s request
  | .error (.help g) => { output := [.text g.help], disk := s.disk }
  | .error (.misuse g cause) =>
    let complaint := s!"{g.program}: error: {cause.message}"
    { status := 2, complaints := [g.usage, complaint], disk := s.disk }

/-- Whether the run of a command line looks at files. -/
def readsFiles (words : List String) : Bool :=
  match Request.ofWords words with
  | .ok (.resolve ..) | .ok (.scan ..) => true
  | _ => false

end PropertyMetadata.Command
