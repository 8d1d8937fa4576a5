import RakeOutline.Number.Decimal

namespace RakeOutline

/-- A finite double is a mantissa of at most 53 bits times a power of two. -/
inductive Double
  | finite (negative : Bool) (mantissa : Nat) (exponent : Int)
  | infinite (negative : Bool)
  | notANumber
  deriving DecidableEq, Repr, Inhabited

def Double.minExponent : Int := -1074

def scaleDown (exponent : Int) (numerator denominator : Nat) : Nat × Nat :=
  (numerator * Nat.pow 2 (-exponent).toNat, denominator * Nat.pow 2 exponent.toNat)

/-- The quotient rounded to nearest, a half to the even neighbour. -/
def roundHalfEven (numerator denominator : Nat) : Nat :=
  let quotient := numerator / denominator
  let twice := 2 * (numerator % denominator)
  if twice < denominator ∨ (twice = denominator ∧ quotient % 2 = 0) then quotient else quotient + 1

def Double.ofFraction (negative : Bool) (numerator denominator : Nat) : Double :=
  if numerator = 0 then .finite negative 0 0
  else
    let first := max ((numerator.log2 : Int) - denominator.log2 - 52) Double.minExponent
    let (n, d) := scaleDown first numerator denominator
    let exponent := if n / d < Nat.pow 2 52 ∧ Double.minExponent < first then first - 1 else first
    let (n, d) := scaleDown exponent numerator denominator
    let mantissa := roundHalfEven n d
    let (mantissa, exponent) :=
      if mantissa = Nat.pow 2 53 then (Nat.pow 2 52, exponent + 1) else (mantissa, exponent)
    if 971 < exponent then .infinite negative else .finite negative mantissa exponent

/-- The double nearest to a decimal. Beyond the range of doubles its size decides. -/
def Double.ofDecimal (negative : Bool) (decimal : Decimal) : Double :=
  let digits := decimal.digits.dropWhile (· == '0')
  let size := digits.length + decimal.exponent
  if digits.isEmpty ∨ size < -400 then .finite negative 0 0
  else if 320 < size then .infinite negative
  else .ofFraction negative (digitsToNat digits * Nat.pow 10 decimal.exponent.toNat)
    (Nat.pow 10 (-decimal.exponent).toNat)

def Double.isZero : Double → Bool
  | .finite _ 0 _ => true
  | _ => false

/-- The whole number nearest to the double, a half away from zero, held between zero and the given
limit. -/
def Double.roundTo (limit : Nat) : Double → Nat
  | .finite false mantissa exponent =>
    let (n, d) := scaleDown (-exponent) mantissa 1
    min limit ((2 * n + d) / (2 * d))
  | .infinite false => limit
  | _ => 0

/-- A multiple of the power of ten that lies where every number is nearer to the double than to
another. Of two the nearer one is taken, and the upper one if both are equally near. -/
def decimalOnGrid? (mantissa : Nat) (exponent power : Int) : Option Nat :=
  let unit := Nat.pow 2 exponent.toNat
  let value := 4 * mantissa * unit
  let above := value + 2 * unit
  let below := if mantissa = Nat.pow 2 52 ∧ Double.minExponent < exponent then value - unit
    else value - 2 * unit
  let finer := Nat.pow 10 (-power).toNat
  let step := Nat.pow 10 power.toNat * (4 * Nat.pow 2 (-exponent).toNat)
  let inside (count : Nat) :=
    if mantissa % 2 = 0 then below * finer ≤ count * step ∧ count * step ≤ above * finer
    else below * finer < count * step ∧ count * step < above * finer
  let count := value * finer / step
  let lower := count ≠ 0 ∧ inside count
  let upper := inside (count + 1)
  if lower ∧ (¬ upper ∨ 2 * (value * finer) < (2 * count + 1) * step) then some count
  else if upper then some (count + 1)
  else none

/-- The fewest digits that stand for the double, with their power of ten. -/
def shortestDecimal (mantissa : Nat) (exponent : Int) : Nat × Int :=
  let top := ((mantissa.log2 : Int) + exponent) * 30103 / 100000 + 2
  ((List.range 24).findSome? fun i : Nat =>
    (decimalOnGrid? mantissa exponent (top - i)).map fun count => (count, top - i)).getD (0, 0)

def positional (count : Nat) (power : Int) : List Char :=
  let digits := Nat.toDigits 10 count
  let places := (-power).toNat
  if 0 ≤ power then digits ++ List.replicate power.toNat '0'
  else if places < digits.length then
    digits.take (digits.length - places) ++ '.' :: digits.drop (digits.length - places)
  else '0' :: '.' :: List.replicate (places - digits.length) '0' ++ digits

/-- The shortest text that reads back as the double, without an exponent. -/
def Double.toText : Double → String
  | .notANumber => "NaN"
  | .infinite negative => if negative then "-inf" else "inf"
  | .finite negative mantissa exponent =>
    let digits := if mantissa = 0 then ['0']
      else
        let (count, power) := shortestDecimal mantissa exponent
        positional count power
    String.ofList (if negative then '-' :: digits else digits)

def Double.toPointedText (x : Double) : String :=
  match x with
  | .finite .. => if x.toText.toList.contains '.' then x.toText else x.toText ++ ".0"
  | _ => x.toText

end RakeOutline
