import PropertyMetadata.Number.Double
import PropertyMetadata.Text.Digit
import PropertyMetadata.Text.Pieces

/-! Numbers written as text: blanks around, a sign, digits of any script with single underscores
between them, and for doubles a fraction, an exponent, or the names of the infinite values. -/

namespace PropertyMetadata.Number

open Text

/-- The blanks allowed around a number: all but the four separators before the space. -/
def isPadding (c : Char) : Bool := isBlank c && !(0x1c ≤ c.toNat && c.toNat ≤ 0x1f)

def signed : List Char → Bool × List Char
  | '-' :: cs => (true, cs)
  | '+' :: cs => (false, cs)
  | cs => (false, cs)

/-- The digits of a number, where an underscore stands only between two digits. -/
def digits? : List Char → Option (List Nat)
  | [] => some []
  | [c] => (digitValue? c).map ([·])
  | c :: '_' :: d :: cs => do
    let v ← digitValue? c
    let _ ← digitValue? d
    return v :: (← digits? (d :: cs))
  | c :: cs => do return (← digitValue? c) :: (← digits? cs)

/-- The most digits that an integer may be written with. -/
def digitLimit : Nat := 4300

def ofDigits (ds : List Nat) : Nat := ds.foldl (fun n d => 10 * n + d) 0

def integer? (s : String) : Option Int := do
  let (negative, cs) := signed (trimBoth isPadding s.toList)
  let ds ← digits? cs
  if ds.isEmpty ∨ ds.length > digitLimit then none
  else
    let n : Int := ofDigits ds
    return if negative then -n else n

def plainChar (c : Char) : Char :=
  if c.toNat < 127 then c
  else if isBlank c then ' '
  else match digitValue? c with
    | some v => Nat.digitChar v
    | none => '?'

/-- Whether every underscore stands between two digits. -/
def underscoresInside : Option Char → List Char → Bool
  | _, [] => true
  | before, '_' :: cs =>
    (before.any Char.isDigit) && (cs.head?.any Char.isDigit) && underscoresInside (some '_') cs
  | _, c :: cs => underscoresInside (some c) cs

def leadingDigits (cs : List Char) : List Nat × List Char :=
  ((cs.takeWhile Char.isDigit).map (fun c => c.toNat - 48), cs.dropWhile Char.isDigit)

def exponent? : List Char → Option Int
  | [] => some 0
  | c :: cs =>
    if c = 'e' ∨ c = 'E' then
      let (negative, cs) := signed cs
      let (ds, rest) := leadingDigits cs
      if ds.isEmpty ∨ !rest.isEmpty then none
      else some (if negative then -(ofDigits ds : Int) else ofDigits ds)
    else none

def double? (s : String) : Option Double := do
  let cs := trimBoth isPadding (s.toList.map plainChar)
  if !underscoresInside none cs then none
  else
    let (negative, cs) := signed (cs.filter (· ≠ '_'))
    let name := String.ofList (cs.map Char.toLower)
    if name = "inf" ∨ name = "infinity" then return .infinite negative
    else if name = "nan" then return .nan
    else
      let (whole, rest) := leadingDigits cs
      let (fraction, rest) := match rest with
        | '.' :: rest => leadingDigits rest
        | _ => ([], rest)
      if whole.isEmpty ∧ fraction.isEmpty then none
      else
        let e ← exponent? rest
        return .ofDecimal negative (ofDigits (whole ++ fraction)) (e - fraction.length)

end PropertyMetadata.Number
