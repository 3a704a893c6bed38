import PropertyMetadata.Text.CharClass

/-! The characters of markup: those that may stand in a document at all, the blanks between the
parts of a tag, and those that names are made of. A colon is no part of a name: it stands between
a prefix and a name. -/

namespace PropertyMetadata.Markup

open Text

/-- The characters of documents: tab, the two line ends, and from the space on all but the two
that are no characters. -/
def legal : CharClass := ⟨[9, 11, 13, 14, 32, 0xfffe, 0x10000]⟩

def isLegal (c : Char) : Bool := legal.contains c

/-- Blanks between the parts of a tag. -/
def isGap (c : Char) : Bool := c == ' ' || c == '\t' || c == '\n' || c == '\r'

def nameStarts : CharClass where
  changes := [
    65, 91, 95, 96, 97, 123, 0xc0, 0xd7, 0xd8, 0xf7, 0xf8, 0x300, 0x370, 0x37e, 0x37f, 0x2000,
    0x200c, 0x200e, 0x2070, 0x2190, 0x2c00, 0x2ff0, 0x3001, 0xd800, 0xf900, 0xfdd0, 0xfdf0, 0xfffe]

def isNameStart (c : Char) : Bool := nameStarts.contains c

/-- What stands in a name but cannot begin it. -/
def nameExtras : CharClass where
  changes := [45, 47, 48, 58, 0xb7, 0xb8, 0x300, 0x370, 0x203f, 0x2041]

def isNameChar (c : Char) : Bool := isNameStart c || nameExtras.contains c

end PropertyMetadata.Markup
