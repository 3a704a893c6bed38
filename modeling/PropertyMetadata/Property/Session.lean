import PropertyMetadata.Property.Extractor

/-! Sessions: what is asked of one extractor over files, one thing after the other. -/

namespace PropertyMetadata

/-- An extractor and the files that it is used on. -/
structure Session where
  extractor : Extractor
  disk : Disk

namespace Session

/-- What can be asked: the properties of a file, which are to be remembered; those of a source text;
whether a property is kept; the text of a file; the records of what is remembered, or to write them
to a file. -/
inductive Use where
  | process (path : String)
  | scan (file source : String)
  | keep (p : Property)
  | read (path : String)
  | records
  | write (path : String)

inductive Reply where
  | processed (r : Except Fault (List Property))
  | scanned (r : Except Fault (List Property))
  | kept (b : Bool)
  | text (r : Except Fault String)
  | recorded (x : Json)
  | written (r : Except Fault Unit)

/-- The answer to one question, and the session after it. -/
def perform (parse : Parser) (s : Session) : Use → Reply × Session
  | .process path =>
    let (r, x) := s.extractor.process parse s.disk path
    (.processed r, { s with extractor := x })
  | .scan file source => (.scanned (s.extractor.scan parse file source), s)
  | .keep p => (.kept (p.isKept s.extractor.names), s)
  | .read path => (.text (s.extractor.encodings.read s.disk path), s)
  | .records => (.recorded s.extractor.record, s)
  | .write path =>
    match s.extractor.write s.disk path with
    | .ok d => (.written (.ok ()), { s with disk := d })
    | .error e => (.written (.error e), s)

/-- The answers to questions one after the other, and the session after them. -/
def run (parse : Parser) : Session → List Use → List Reply × Session
  | s, [] => ([], s)
  | s, u :: us =>
    let (r, next) := s.perform parse u
    let (rs, last) := run parse next us
    (r :: rs, last)

end Session

end PropertyMetadata
