import PropertyMetadata.Files.Encoding
import PropertyMetadata.GraphMl.Reader

/-! Graphs in formats of other programs. How such a file is read is taken from elsewhere; a program
reads documents as GraphML, and has nothing that reads stored values. -/

namespace PropertyMetadata

open Text

/-- How graphs are read that other programs wrote: as documents, or as values that they stored. -/
structure GraphFormats where
  document : List UInt8 → Except Fault TypeGraph
  stored : List UInt8 → Except Fault TypeGraph

namespace GraphFormats

/-- The ending of the names of files with stored values. -/
def storedEnding : String := ".gpickle"

/-- The text of markup: its first broken part is a character that markup does not admit. -/
def markupText : List UInt8 → String
  | 0xff :: 0xfe :: bs => Source.decode16 true bs
  | 0xfe :: 0xff :: bs => Source.decode16 false bs
  | bs =>
    match Utf8.firstBroken 0 [] .between bs with
    | none => Utf8.decode bs
    | some m => (Utf8.decode (bs.take m.position)).push '\ufffe'

def usual : GraphFormats where
  document bytes := GraphMl.ofText (markupText bytes)
  stored _ := .error (.badValue .storedValue)

end GraphFormats

end PropertyMetadata
