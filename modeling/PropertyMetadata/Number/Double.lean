/-! Binary floating point numbers with 53 bits of precision, as exact values. A finite number is a
mantissa times a power of two, so that reading, comparing and printing are integer arithmetic. -/

namespace PropertyMetadata.Number

def twoTo (n : Nat) : Nat := Nat.pow 2 n

def tenTo (n : Nat) : Nat := Nat.pow 10 n

/-- A double: `mantissa * 2 ^ exponent` with a sign, an infinity, or no number. The mantissa is
below `2 ^ 53`, and below `2 ^ 52` only at the least exponent, -1074. -/
inductive Double where
  | finite (negative : Bool) (mantissa : Nat) (exponent : Int)
  | infinite (negative : Bool)
  | nan
  deriving DecidableEq, Repr, Inhabited

namespace Double

/-- The quotient rounded to a whole number, a tie going to the even neighbour. -/
def roundDiv (num den : Nat) : Nat :=
  let q := num / den
  let r := num % den
  if 2 * r < den ∨ (2 * r = den ∧ q % 2 = 0) then q else q + 1

/-- The quotient `num / den / 2 ^ e` as a fraction. -/
def scaled (num den : Nat) (e : Int) : Nat × Nat :=
  (num * twoTo (-e).toNat, den * twoTo e.toNat)

/-- The double nearest to a fraction, a tie going to the even mantissa. -/
def ofRatio (negative : Bool) (num den : Nat) : Double :=
  if num = 0 then finite negative 0 (-1074)
  else
    let k : Int := (num.log2 : Int) - den.log2
    let (n₀, d₀) := scaled num den k
    let top := if d₀ ≤ n₀ then k else k - 1
    let e := max (top - 52) (-1074)
    let (n, d) := scaled num den e
    let m := roundDiv n d
    let (m, e) := if m = twoTo 53 then (twoTo 52, e + 1) else (m, e)
    if e > 971 then infinite negative else finite negative m e

/-- The double nearest to `digits * 10 ^ e`. Beyond the powers of ten that doubles reach, the
answer is infinite or zero whatever the digits are. -/
def ofDecimal (negative : Bool) (digits : Nat) (e : Int) : Double :=
  let size : Int := (Nat.toDigits 10 digits).length
  if digits = 0 ∨ e + size < -400 then finite negative 0 (-1074)
  else if e + size > 400 then infinite negative
  else ofRatio negative (digits * tenTo e.toNat) (tenTo (-e).toNat)

/-- The whole part, the fraction dropped. -/
def truncate? : Double → Option Int
  | finite negative m e =>
    let n : Int := (m * twoTo e.toNat / twoTo (-e).toNat : Nat)
    some (if negative then -n else n)
  | _ => none

def signed (negative : Bool) (mantissa : Nat) : Int := if negative then -mantissa else mantissa

/-- Equality of values: both zeros are equal, and no number equals nothing. -/
def same : Double → Double → Bool
  | finite s m e, finite s' m' e' =>
    signed s m * twoTo e.toNat * twoTo (-e').toNat ==
      signed s' m' * twoTo e'.toNat * twoTo (-e).toNat
  | infinite s, infinite s' => s == s'
  | _, _ => false

/-- Whether a double has exactly the value of an integer. -/
def sameInt (d : Double) (i : Int) : Bool :=
  match d with
  | finite s m e => signed s m * twoTo e.toNat == i * twoTo (-e).toNat
  | _ => false

def isZero : Double → Bool
  | finite _ m _ => m == 0
  | _ => false

end Double

end PropertyMetadata.Number
