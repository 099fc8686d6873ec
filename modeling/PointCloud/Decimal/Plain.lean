import PointCloud.Decimal.Shortest

/-!
# Plain decimal text

The text of a double in messages and box texts is plain: digits with a point
where there is a fraction, and never an exponent.  `plain` takes the shortest
digits that read back as the same double; `fixed` rounds the exact value to a
given number of places, a half going to the even digit.  Both keep the sign of
a zero.
-/

namespace PointCloud.Decimal

/-- The text of a whole number. -/
def digitsText (n : Nat) : List Char := Nat.toDigits 10 n

/-- The digits of a number with a point before the last `places` of them, zeros being put in front
where there are too few. -/
def withPoint (digits : List Char) (places : Nat) : List Char :=
  if places = 0 then digits
  else
    let padded := List.replicate (places + 1 - digits.length) '0' ++ digits
    padded.take (padded.length - places) ++ '.' :: padded.drop (padded.length - places)

/-- The text of `n · 10 ^ exponent`.  Zeros at the end of `n` that would stand behind the point are
left out. -/
def positional (n : Nat) (exponent : Int) : List Char :=
  if 0 ≤ exponent then digitsText n ++ List.replicate exponent.toNat '0'
  else
    let digits := digitsText n
    let places := (-exponent).toNat
    let surplus := min places (digits.reverse.takeWhile (· == '0')).length
    withPoint (digits.take (digits.length - surplus)) (places - surplus)

/-- The text of a double that is no number. -/
def specialText (x : Double) : String :=
  if x.isNaN then "NaN" else if x.isNegative then "-inf" else "inf"

/-- The text of a magnitude behind the sign of its number. -/
def signedText (d : Dyadic) (magnitude : List Char) : String :=
  String.ofList (if d.negative then '-' :: magnitude else magnitude)

/-- The shortest plain text of a double. -/
def plain (x : Double) : String :=
  match Dyadic.ofDouble? x with
  | none => specialText x
  | some d =>
    if d.mantissa = 0 then signedText d ['0']
    else
      let (digits, exponent) := shortest d.mantissa d.exponent
      signedText d (positional digits exponent)

/-- The quotient rounded to the nearest whole number, a half going to the even one. -/
def roundHalfEven (numerator denominator : Nat) : Nat :=
  let below := numerator / denominator
  let twice := 2 * (numerator % denominator)
  if twice < denominator ∨ (twice = denominator ∧ below % 2 = 0) then below else below + 1

/-- The text of a double with a fixed number of decimal places. -/
def fixed (places : Nat) (x : Double) : String :=
  match Dyadic.ofDouble? x with
  | none => specialText x
  | some d =>
    let numerator := d.mantissa <<< d.exponent.toNat * powerOfTen places
    let denominator := 1 <<< (-d.exponent).toNat
    signedText d (withPoint (digitsText (roundHalfEven numerator denominator)) places)

end PointCloud.Decimal
