/-! Text as lines. A line ends at a line feed, a carriage return or both, at the other vertical
breaks, at the separators of information, and at those of lines and paragraphs. -/

namespace PropertyMetadata.Text

def isLineEnd (c : Char) : Bool :=
  [0x0a, 0x0b, 0x0c, 0x0d, 0x1c, 0x1d, 0x1e, 0x85, 0x2028, 0x2029].contains c.toNat

/-- The lines of a text behind the beginning of its first line, which is given in reverse. A line
end at the end of the text begins no further line. -/
def linesBehind : List Char → List Char → List (List Char)
  | line, [] => if line.isEmpty then [] else [line.reverse]
  | line, '\r' :: '\n' :: cs => line.reverse :: linesBehind [] cs
  | line, c :: cs =>
    if isLineEnd c then line.reverse :: linesBehind [] cs else linesBehind (c :: line) cs

/-- The lines of a text without their ends. -/
def lines (s : String) : List String := (linesBehind [] s.toList).map String.ofList

example : lines "a\r\n\nb\n" = ["a", "", "b"] := by decide +kernel

end PropertyMetadata.Text
