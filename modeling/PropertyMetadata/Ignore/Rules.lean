import PropertyMetadata.Ignore.Pattern
import PropertyMetadata.Files.Encoding

/-! Rules on what to ignore. Which paths the lines of a file ask to ignore is taken from elsewhere;
it is only relied on that no lines ask for nothing. A program goes by patterns in UTF-8. -/

namespace PropertyMetadata.Ignore

/-- How a file with what is to be ignored is read: its text in the encoding of the surroundings, and
of its lines, which paths they ask to ignore. -/
structure Rules where
  decode : List UInt8 → Except Fault String
  ofLines : List String → Except Fault (String → Bool)
  ofLines_nil : ofLines [] = .ok fun _ => false

namespace Rules

def ofText (r : Rules) (text : String) : Except Fault (String → Bool) := r.ofLines (Text.lines text)

/-- Patterns, of which the last one that fits decides. -/
def usual : Rules where
  decode := Encodings.strict
  ofLines lines := do
    let patterns ← Pattern.ofLines lines
    return fun path => Pattern.ignored patterns path.toList
  ofLines_nil := rfl

end Rules

end PropertyMetadata.Ignore
