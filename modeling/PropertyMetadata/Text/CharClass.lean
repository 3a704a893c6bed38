/-! Sets of characters, each given by the code points at which membership changes.
`blank` is the set that trimming removes. -/

namespace PropertyMetadata.Text

/-- A set of characters: the ascending code points at which membership changes, where the
characters below the first one are outside. -/
structure CharClass where
  changes : List Nat

namespace CharClass

/-- A character is inside when an odd number of changes lies at or below it. -/
def contains (k : CharClass) (c : Char) : Bool :=
  k.changes.countP (fun p => decide (p ≤ c.toNat)) % 2 == 1

end CharClass

/-- The white space that trimming removes: tab to carriage return, the four separators before the
space, the space, next line, and the space, line and paragraph separators of all scripts. -/
def blanks : CharClass where
  changes := [
    9, 14, 28, 33, 133, 134, 160, 161, 5760, 5761, 8192, 8203, 8232, 8234, 8239, 8240, 8287, 8288,
    12288, 12289]

def isBlank (c : Char) : Bool := blanks.contains c

end PropertyMetadata.Text
