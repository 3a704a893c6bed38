import PropertyMetadata.Files.Disk
import PropertyMetadata.Text.Source

/-! Encodings of files. In which encoding the bytes of a source are, and what text they are in it,
is not told here: both are taken from elsewhere, and reading may fail. Where a program needs
something to go by, it goes by the mark at the beginning. -/

namespace PropertyMetadata

open Text

/-- What is known of encodings elsewhere: in which encoding bytes seem to be, if in any, and the
text of bytes in an encoding, with what is broken replaced. A name need not be one of an
encoding. -/
structure Encodings where
  guess : List UInt8 → Option String
  decode : String → List UInt8 → Except Fault String

namespace Encodings

/-- The encoding of bytes that seem to be in none. -/
def usual : String := "utf-8"

/-- The text of bytes in the encoding that they seem to be in. -/
def text (e : Encodings) (bytes : List UInt8) : Except Fault String :=
  match e.guess bytes with
  | none | some "" => e.decode usual bytes
  | some name => e.decode name bytes

def read (e : Encodings) (d : Disk) (path : String) : Except Fault String :=
  match d.read path with
  | .ok bytes => e.text bytes
  | .error f => .error (.file f)

/-- What a mark at the beginning tells. The mark is no part of the text. -/
def marked : Encodings where
  guess
    | 0xef :: 0xbb :: 0xbf :: _ => some "UTF-8-SIG"
    | 0xff :: 0xfe :: _ | 0xfe :: 0xff :: _ => some "UTF-16"
    | _ => none
  decode
    | "utf-8", bs => .ok (Utf8.decode bs)
    | "UTF-8-SIG", 0xef :: 0xbb :: 0xbf :: bs | "UTF-8-SIG", bs => .ok (Utf8.decode bs)
    | "UTF-16", 0xfe :: 0xff :: bs => .ok (Source.decode16 false bs)
    | "UTF-16", 0xff :: 0xfe :: bs | "UTF-16", bs => .ok (Source.decode16 true bs)
    | name, _ => .error (.badValue (.unknownEncoding name))

/-- The text of bytes that have to be UTF-8 throughout. -/
def strict (bytes : List UInt8) : Except Fault String :=
  match Utf8.decode? bytes with
  | .ok s => .ok s
  | .error m => .error (.undecodable m)

end Encodings

/-- The text of the file at a path, read by a decoder, with one line feed for each line end. -/
def Disk.readText (d : Disk) (decode : List UInt8 → Except Fault String) (path : String) :
    Except Fault String :=
  match d.read path with
  | .error f => .error (.file f)
  | .ok bytes => do return String.ofList (Source.unifiedLines (← decode bytes).toList)

end PropertyMetadata
