import PropertyMetadata.Number.Double

/-! The shortest decimal text of a double: the fewest digits that read back, and of those the
nearest to the value. -/

namespace PropertyMetadata.Number.Double

/-- The power of ten just above a positive fraction: the least `p` with `num / den < 10 ^ p`. -/
def decimalSize (num den : Nat) : Int :=
  if den ≤ num then (Nat.toDigits 10 (num / den)).length
  else 1 - ((Nat.toDigits 10 ((den - 1) / num)).length : Int)

/-- Half the distance to the neighbours of `m * 2 ^ e`, as the interval of values that read back,
in quarters of `2 ^ e`: lower end, upper end, and whether the ends belong to it. -/
def interval (m : Nat) (e : Int) : Nat × Nat × Bool :=
  (if m = twoTo 52 ∧ e > -1074 then 4 * m - 1 else 4 * m - 2, 4 * m + 2, m % 2 == 0)

/-- The digits on the decimal grid `10 ^ g` that read back as `m * 2 ^ e`: of the two grid points
around the value the one inside the interval, and the nearer one if both are. -/
def onGrid? (m : Nat) (e g : Int) : Option Nat :=
  let (lo, hi, closed) := interval m e
  let e := e - 2
  let a := twoTo e.toNat * tenTo (-g).toNat
  let b := twoTo (-e).toNat * tenTo g.toNat
  let inside (d : Nat) : Bool :=
    if closed then decide (lo * a ≤ d * b ∧ d * b ≤ hi * a)
    else decide (lo * a < d * b ∧ d * b < hi * a)
  let below := 4 * m * a / b
  match inside below, inside (below + 1) with
  | true, true => some (roundDiv (4 * m * a) b)
  | true, false => some below
  | false, true => some (below + 1)
  | false, false => none

/-- The fewest digits `d` and the power `g` with `d * 10 ^ g` reading back as `m * 2 ^ e`. -/
def shortest (m : Nat) (e : Int) : Nat × Int :=
  let p := decimalSize (m * twoTo e.toNat) (twoTo (-e).toNat)
  let tries := (List.range 17).filterMap fun (n : Nat) =>
    let g : Int := p - (n + 1)
    (onGrid? m e g).map (·, g)
  tries.headD (0, 0)

/-- Digits and a power of ten as text: positional from `0.0001` to below `10 ^ 16`, always with a
fraction; otherwise one digit before the point and an exponent of two digits or more. -/
def spelled (digits : Nat) (g : Int) : String :=
  let ds := Nat.toDigits 10 digits
  let n : Int := ds.length
  let p := n + g
  let zeros (k : Int) := List.replicate k.toNat '0'
  if -4 < p ∧ p ≤ 16 then
    if p ≤ 0 then String.ofList ('0' :: '.' :: zeros (-p) ++ ds)
    else if n ≤ p then String.ofList (ds ++ zeros (p - n) ++ ['.', '0'])
    else String.ofList (ds.take p.toNat ++ '.' :: ds.drop p.toNat)
  else
    let x := p - 1
    let size := Nat.toDigits 10 x.natAbs
    let size := List.replicate (2 - size.length) '0' ++ size
    let head := match ds with
      | d :: r :: rs => d :: '.' :: r :: rs
      | _ => ds
    String.ofList (head ++ 'e' :: (if x < 0 then '-' else '+') :: size)

/-- Digits without the zeros at their end. -/
def withoutZeros : Nat → Nat → Int → Nat × Int
  | 0, d, g => (d, g)
  | fuel + 1, d, g => if d % 10 = 0 ∧ d ≠ 0 then withoutZeros fuel (d / 10) (g + 1) else (d, g)

def text : Double → String
  | .nan => "nan"
  | .infinite negative => if negative then "-inf" else "inf"
  | .finite negative m e =>
    let body :=
      if m = 0 then "0.0"
      else
        let (d, g) := shortest m e
        let (d, g) := withoutZeros 20 d g
        spelled d g
    if negative then "-" ++ body else body

end PropertyMetadata.Number.Double
