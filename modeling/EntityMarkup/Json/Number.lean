/-!
# Numbers in JSON

A `Number` keeps the digits of a number as they were written. A number is approximated by a whole
significand below 2^64 and a power of ten (`Number.approximation`), and is out of range where the
double nearest to the significand, times the double nearest to the power, lies beyond the largest
double. So whether a number close to the bound is in range depends on how it is written.

The double itself is left out: no value that is read here is one, and only whether there is one
decides if a text is JSON.
-/

namespace EntityMarkup.Json

/-- A number as it is written. -/
structure Number where
  negative : Bool
  /-- The digits before the point. -/
  whole : List Char
  /-- The digits after the point, if there is one. -/
  fraction : Option (List Char)
  /-- The exponent, if there is one. -/
  exponent : Option Int
  deriving DecidableEq, Repr

/-- The value of a decimal digit. -/
def digitValue (c : Char) : Nat :=
  c.toNat - '0'.toNat

/-- The number that decimal digits write. -/
def digitsValue (digits : List Char) : Nat :=
  digits.foldl (fun n c => 10 * n + digitValue c) 0

/-! ## Doubles -/

/-- The double that is nearest to a natural number, the even one of two: its first 53 bits, rounded
to nearest. -/
def roundToDouble (n : Nat) : Nat :=
  let unit := Nat.pow 2 (n.log2 - 52)
  let (kept, rest) := (n / unit, n % unit)
  if unit < 2 * rest || (unit == 2 * rest && kept % 2 == 1) then (kept + 1) * unit
  else kept * unit

/-- The first magnitude that is rounded beyond the largest double. -/
def doubleBound : Nat := Nat.pow 2 1024 - Nat.pow 2 970

/-- The largest power of ten that is a double's magnitude. -/
def maxDecimalExponent : Nat := 308

/-! ## Approximations -/

/-- `significand * 10 ^ exponent`. -/
structure Decimal where
  significand : Nat
  exponent : Int
  deriving DecidableEq, Repr

/-- Whether a decimal lies beyond the doubles when its significand and its power of ten are rounded
to doubles before they are multiplied. Negative powers of ten only make a number smaller. -/
def Decimal.isOutOfRange (d : Decimal) : Bool :=
  d.significand != 0 && 0 ≤ d.exponent
    && (maxDecimalExponent < d.exponent.toNat
      || doubleBound ≤ roundToDouble d.significand * roundToDouble (Nat.pow 10 d.exponent.toNat))

namespace Number

/-- Appends digits to a significand as far as it stays below 2^64, and answers with the digits that
are left. -/
def appendDigits : Nat → List Char → Nat × List Char
  | n, [] => (n, [])
  | n, c :: rest =>
    if 10 * n + digitValue c < UInt64.size then appendDigits (10 * n + digitValue c) rest
    else (n, c :: rest)

/-- The decimal that stands for a number. Digits of the whole part that do not fit into the
significand count by their place alone; the fraction ends where its digits no longer fit. -/
def approximation (n : Number) : Decimal :=
  let fraction := n.fraction.getD []
  let (whole, dropped) := appendDigits 0 n.whole
  let (significand, ignored) := appendDigits whole fraction
  let exponent : Int := dropped.length - (fraction.length - ignored.length : Nat)
  ⟨significand, exponent + n.exponent.getD 0⟩

/-- Whether a number lies beyond the doubles. -/
def isOutOfRange (n : Number) : Bool :=
  n.approximation.isOutOfRange

/-- The natural number below 2^64 that is written without sign, point and exponent. -/
def toNat? (n : Number) : Option Nat :=
  let value := digitsValue n.whole
  if n.negative || n.fraction.isSome || n.exponent.isSome || UInt64.size ≤ value then none
  else some value

end Number

end EntityMarkup.Json
