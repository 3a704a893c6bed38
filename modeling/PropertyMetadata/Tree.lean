import PropertyMetadata.Text.Utf8

/-! Syntax trees of source text. A node knows its kind, the bytes of the source that it covers, its
rows, and the part that it plays in the node above it. -/

namespace PropertyMetadata

/-- What a node of a syntax tree is. Tokens that are spelled out in the grammar are not named. The
field is the part that the node plays in the node above it. -/
structure Label where
  kind : String
  named : Bool
  start : Int
  stop : Int
  startRow : Nat
  stopRow : Nat
  field : Option String
  deriving DecidableEq, Repr, Inhabited

inductive Tree where
  | node (label : Label) (children : List Tree)
  deriving Repr, Inhabited

namespace Tree

def label : Tree → Label
  | node l _ => l

def children : Tree → List Tree
  | node _ ts => ts

def kind (t : Tree) : String := t.label.kind

/-- The children that are not tokens of the grammar. -/
def namedChildren (t : Tree) : List Tree := t.children.filter fun c => c.label.named

/-- The first child that plays a part. -/
def part? (t : Tree) (field : String) : Option Tree :=
  t.children.find? fun c => c.label.field == some field

/-- The place of an offset in so many bytes; a negative offset counts from their end. -/
def place (size : Nat) (offset : Int) : Nat :=
  if offset < 0 then (size + offset).toNat else min offset.toNat size

/-- The text of a node in the bytes of its source. -/
def text (source : List UInt8) (t : Tree) : String :=
  let size := source.length
  Text.Utf8.decode ((source.take (place size t.label.stop)).drop (place size t.label.start))

end Tree

end PropertyMetadata
