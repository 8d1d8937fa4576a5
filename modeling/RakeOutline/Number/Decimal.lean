namespace RakeOutline

def dropSign (text : List Char) : List Char :=
  match text with
  | '+' :: rest => rest
  | '-' :: rest => rest
  | rest => rest

/-- The value of a digit in some base up to sixteen, upper or lower case. -/
def digitValue (c : Char) : Nat :=
  if c.isDigit then c.toNat - '0'.toNat
  else if 'a' ≤ c ∧ c ≤ 'f' then c.toNat - 'a'.toNat + 10
  else if 'A' ≤ c ∧ c ≤ 'F' then c.toNat - 'A'.toNat + 10
  else 16

/-- The number that digits write in a base. None if there is no digit, or one that the base does
not have. -/
def natOfDigits? (base : Nat) (digits : List Char) : Option Nat :=
  if digits.isEmpty ∨ digits.any (base ≤ digitValue ·) then none
  else some (digits.foldl (fun n c => n * base + digitValue c) 0)

def digitsToNat (digits : List Char) : Nat :=
  digits.foldl (fun n c => n * 10 + digitValue c) 0

/-- A whole number in base two, eight or sixteen that fits in 128 bits. -/
def isRadixNumeral (text : List Char) : Bool :=
  let limit := if text.head? = some '-' then Nat.pow 2 127 else Nat.pow 2 128 - 1
  let fits (base : Nat) (digits : List Char) := (natOfDigits? base digits).any (· ≤ limit)
  match dropSign text with
  | '0' :: 'x' :: digits => fits 16 digits
  | '0' :: 'o' :: digits => fits 8 digits
  | '0' :: 'b' :: digits => fits 2 digits
  | _ => false

/-- A decimal number, its digits apart from the power of ten that they are multiplied with. -/
structure Decimal where
  digits : List Char
  exponent : Int
  deriving Repr

def readExponent? (text : List Char) : Option Int :=
  match text with
  | [] => some 0
  | mark :: rest =>
    if mark = 'e' ∨ mark = 'E' then
      (natOfDigits? 10 (dropSign rest)).map fun n =>
        if rest.head? = some '-' then -(n : Int) else n
    else none

def readDecimal? (text : List Char) : Option Decimal :=
  let whole := text.takeWhile Char.isDigit
  let rest := text.dropWhile Char.isDigit
  let (fraction, rest) := match rest with
    | '.' :: after => (after.takeWhile Char.isDigit, after.dropWhile Char.isDigit)
    | _ => ([], rest)
  if whole.isEmpty ∧ fraction.isEmpty then none
  else (readExponent? rest).map fun exponent =>
    ⟨whole ++ fraction, exponent - fraction.length⟩

/-- The least number that is not below the largest finite double by rounding to nearest. -/
def doubleLimit : Nat :=
  Nat.pow 2 1024 - Nat.pow 2 970

/-- Whether the nearest double is finite. Far from the limit the number of digits decides. -/
def Decimal.isFiniteDouble (decimal : Decimal) : Bool :=
  let digits := decimal.digits.dropWhile (· == '0')
  let size := digits.length + decimal.exponent
  if digits.isEmpty ∨ size < 300 then true
  else if 320 < size then false
  else
    let n := digitsToNat digits
    if 0 ≤ decimal.exponent then n * Nat.pow 10 decimal.exponent.toNat < doubleLimit
    else n < doubleLimit * Nat.pow 10 (-decimal.exponent).toNat

def isPaddedDigits (text : List Char) : Bool :=
  text.head? = some '0' && 1 < text.length && text.all Char.isDigit

/-- Whether a text writes a number: whole in one of four bases, decimal, infinite or no number. -/
def isNumeral (text : String) : Bool :=
  let chars := text.toList
  let unsigned := dropSign chars
  isRadixNumeral chars || isPaddedDigits unsigned ||
    [".inf", ".Inf", ".INF"].contains (String.ofList unsigned) ||
    [".nan", ".NaN", ".NAN"].contains text ||
    (readDecimal? unsigned).any Decimal.isFiniteDouble

end RakeOutline
