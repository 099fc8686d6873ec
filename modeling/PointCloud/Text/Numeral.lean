/-!
# Whole numbers in decimal

An unsigned setting is written with the ASCII digits, optionally behind one plus
sign, and has to lie below the limit of its field.  There are no blanks, no
minus sign (not even for zero), no separators between the digits and no other
base.  Leading zeros are allowed.
-/

namespace PointCloud.Text

/-- The value of an ASCII digit. -/
def digit? (c : Char) : Option Nat :=
  if c.isDigit then some (c.toNat - '0'.toNat) else none

/-- The number that decimal digits stand for; other characters count as their distance from 0. -/
def digitsValue (cs : List Char) : Nat :=
  cs.foldl (fun n c => 10 * n + (c.toNat - '0'.toNat)) 0

/-- The text less one plus sign in front. -/
def dropPlus : List Char → List Char
  | '+' :: cs => cs
  | cs => cs

/-- The number that a text of digits, optionally behind a plus sign, stands for. -/
def natural? (s : String) : Option Nat :=
  let digits := dropPlus s.toList
  if digits ≠ [] ∧ digits.all Char.isDigit then some (digitsValue digits) else none

/-- The number written in a text, if it is below the limit. -/
def naturalBelow? (limit : Nat) (s : String) : Option Nat :=
  (natural? s).filter (· < limit)

/-- A number of eight bits. -/
def uint8? (s : String) : Option UInt8 := (naturalBelow? UInt8.size s).map UInt8.ofNat

/-- A number of sixteen bits. -/
def uint16? (s : String) : Option UInt16 := (naturalBelow? UInt16.size s).map UInt16.ofNat

end PointCloud.Text
