import PropertyMetadata.Files.Encoding
import PropertyMetadata.Json.Printer
import PropertyMetadata.Property.Scan

/-! Extractors: they keep the properties with decorators of given names, and remember those of the
files that they were given. -/

namespace PropertyMetadata

/-- What gives the syntax tree of a source text. -/
abbrev Parser := String → Tree

/-- An extractor: the names to keep, the encodings by which it reads files, and the properties found
so far. -/
structure Extractor where
  names : Option Names
  encodings : Encodings := .marked
  found : List Property := []

namespace Extractor

/-- The properties of a source text that are kept. They are not remembered. -/
def scan (x : Extractor) (parse : Parser) (file source : String) : Except Fault (List Property) :=
  Property.scan x.names (Text.Utf8.encode source) file (parse source)

def ofFile (x : Extractor) (parse : Parser) (d : Disk) (path : String) :
    Except Fault (List Property) := do
  x.scan parse path (← x.encodings.read d path)

def remember (x : Extractor) (ps : List Property) : Extractor := { x with found := x.found ++ ps }

/-- The properties of a file that are kept, and the extractor after it; a file that fails leaves no
trace. -/
def process (x : Extractor) (parse : Parser) (d : Disk) (path : String) :
    Except Fault (List Property) × Extractor :=
  match x.ofFile parse d path with
  | .ok ps => (.ok ps, x.remember ps)
  | .error e => (.error e, x)

def records (x : Extractor) : List Json := x.found.map Property.json

def record (x : Extractor) : Json := .array x.records

def text (x : Extractor) : String := x.record.printIndented

def write (x : Extractor) (d : Disk) (path : String) : Except Fault Disk :=
  match d.write path (Text.Utf8.encode x.text) with
  | .ok d => .ok d
  | .error e => .error (.file e)

end Extractor

end PropertyMetadata
