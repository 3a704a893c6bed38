import PropertyMetadata.Fault

/-! Descriptors of types in generated metadata, and what a resolution comes to: a descriptor, or
the reason why there is none. -/

namespace PropertyMetadata

/-- A descriptor, such as `String`, `[Number]` or `User`. Its text is what the source of the types
gave, a string in every proper source. -/
structure Descriptor where
  text : Json

namespace Descriptor

def ofString (s : String) : Descriptor := ⟨.string s⟩

def boolean : Descriptor := ofString "Boolean"
def number : Descriptor := ofString "Number"
def string : Descriptor := ofString "String"
def date : Descriptor := ofString "Date"
def object : Descriptor := ofString "Object"

/-- The descriptor of an array of what a descriptor describes. -/
def bracketed (d : Descriptor) : Descriptor := ofString ("[" ++ d.text.text ++ "]")

def inBrackets (s : String) : Bool := s.toList.head? == some '[' && s.toList.getLast? == some ']'

/-- Whether a descriptor is one of an array; only a string can tell. -/
def isArray? (d : Descriptor) : Option Bool :=
  match d.text with
  | .string s => some (inBrackets s)
  | _ => none

end Descriptor

inductive Resolution where
  | descriptor (d : Descriptor)
  | unresolved (reason : String)

namespace Resolution

/-- The resolution of an array from the one of its elements. -/
def bracketed : Resolution → Resolution
  | descriptor d => descriptor d.bracketed
  | unresolved reason => unresolved reason

def isResolved : Resolution → Bool
  | descriptor _ => true
  | unresolved _ => false

/-- Equality of resolutions, where reasons do not matter. -/
def alike : Resolution → Resolution → Bool
  | descriptor d, descriptor e => d.text.alike e.text
  | unresolved _, unresolved _ => true
  | _, _ => false

/-- The text of a resolution. A descriptor whose text is no string cannot be printed. -/
def print : Resolution → Except Fault String
  | descriptor ⟨.string s⟩ => .ok s
  | descriptor ⟨v⟩ => .error (.mismatch (.notPrintable v))
  | unresolved _ => .ok "<unresolved>"

end Resolution

end PropertyMetadata
