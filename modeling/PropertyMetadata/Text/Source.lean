import PropertyMetadata.Text.Utf8

/-! Text of files in UTF-16, in either order of bytes, and text with one kind of line end. -/

namespace PropertyMetadata.Text.Source

open Utf8

def units (littleEndian : Bool) : List UInt8 → List Nat × Bool
  | [] => ([], false)
  | [_] => ([], true)
  | a :: b :: bs =>
    let (us, odd) := units littleEndian bs
    let unit := if littleEndian then b.toNat * 256 + a.toNat else a.toNat * 256 + b.toNat
    (unit :: us, odd)

def isHigh (u : Nat) : Bool := 0xd800 ≤ u && u < 0xdc00

def isLow (u : Nat) : Bool := 0xdc00 ≤ u && u < 0xe000

/-- The text of units. A high unit and a low one behind it are one character; each that stands alone
is broken, and one at the end is broken together with a byte left over. -/
def decodeUnits (odd : Bool) : List Nat → List Char
  | [] => if odd then [replacement] else []
  | [u] =>
    if isHigh u then [replacement]
    else (if isLow u then replacement else Char.ofNat u) :: if odd then [replacement] else []
  | u :: v :: us =>
    if isHigh u && isLow v then
      Char.ofNat (0x10000 + (u - 0xd800) * 0x400 + (v - 0xdc00)) :: decodeUnits odd us
    else
      (if isHigh u || isLow u then replacement else Char.ofNat u) :: decodeUnits odd (v :: us)

def decode16 (littleEndian : Bool) (bs : List UInt8) : String :=
  let (us, odd) := units littleEndian bs
  String.ofList (decodeUnits odd us)

/-- Text with one line feed for each line end, of whatever form. -/
def unifiedLines : List Char → List Char
  | [] => []
  | '\r' :: '\n' :: cs => '\n' :: unifiedLines cs
  | c :: cs => (if c = '\r' then '\n' else c) :: unifiedLines cs

example : decode16 true [0x3d, 0xd8, 0x00, 0xde, 0x61, 0x00] = "😀a" := by decide +kernel

end PropertyMetadata.Text.Source
