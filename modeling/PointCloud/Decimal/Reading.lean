import PointCloud.Double
import PointCloud.Text.Caseless
import PointCloud.Text.Numeral
import PointCloud.Text.Separated

/-!
# Reading a double from text

A number is an optional sign and then one of the words `inf`, `infinity` and
`nan` in any case, or decimal digits with at most one point among them and at
least one digit, followed by an optional exponent.  The value is the double
nearest to the decimal, a tie going to the even mantissa, with overflow to
infinity and underflow to zero.
-/

namespace PointCloud.Decimal

/-- The number `digits · 10 ^ exponent`. -/
structure Scientific where
  digits : Nat
  exponent : Int
  deriving Repr, DecidableEq

/-- The double nearest to a decimal.  Far outside the range of doubles no power of ten is
computed. -/
def Scientific.toDouble (d : Scientific) : Double :=
  let magnitude : Int := (Nat.toDigits 10 d.digits).length + d.exponent
  if d.digits = 0 ∨ magnitude < -400 then .zero
  else if 400 < magnitude then .infinity
  else ⟨(Float.ofScientific d.digits (d.exponent < 0) d.exponent.natAbs).toBits⟩

/-- Splits an optional sign off; the flag says whether it is a minus. -/
def readSign : List Char → Bool × List Char
  | '-' :: cs => (true, cs)
  | '+' :: cs => (false, cs)
  | cs => (false, cs)

/-- A whole number of digits only, at least one of them. -/
def readDigits? (cs : List Char) : Option Nat :=
  if cs ≠ [] ∧ cs.all Char.isDigit then some (Text.digitsValue cs) else none

/-- The exponent that stands behind the letter e: digits behind an optional sign. -/
def readExponent? (cs : List Char) : Option Int :=
  let (negative, digits) := readSign cs
  (readDigits? digits).map fun n => if negative then -(n : Int) else n

/-- Digits with at most one point among them. -/
def readMantissa? (cs : List Char) : Option Scientific :=
  let (whole, fraction?) := Text.cut '.' cs
  let fraction := fraction?.getD []
  (readDigits? (whole ++ fraction)).map fun n => ⟨n, -(fraction.length : Int)⟩

/-- A decimal with its exponent, without a sign in front. -/
def readScientific? (cs : List Char) : Option Scientific := do
  let isMark (c : Char) : Bool := c == 'e' || c == 'E'
  let mantissa ← readMantissa? (cs.takeWhile (!isMark ·))
  match cs.dropWhile (!isMark ·) with
  | [] => some mantissa
  | _ :: exponentText =>
    let exponent ← readExponent? exponentText
    some { mantissa with exponent := mantissa.exponent + exponent }

/-- The magnitude that a text without a sign stands for. -/
def readMagnitude? (cs : List Char) : Option Double :=
  let word := Text.lower cs
  if word = "inf".toList ∨ word = "infinity".toList then some .infinity
  else if word = "nan".toList then some .nan
  else (readScientific? cs).map Scientific.toDouble

/-- The double that a text stands for, if it is a number. -/
def read? (s : String) : Option Double :=
  let (negative, cs) := readSign s.toList
  (readMagnitude? cs).map fun x => if negative then -x else x

end PointCloud.Decimal
