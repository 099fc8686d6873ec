import PointCloud.Bytes.Fixed
import PointCloud.Text.Caseless

/-!
# Project identifiers

A project is identified by 128 bits, written as 32 hexadecimal digits in groups
of 8, 4, 4, 4 and 12.  In a file the first three groups are little-endian
numbers and the other two are octets in reading order; hence the four fields of
`Guid`.

`Guid.parse?` reads 32 plain digits, or the hyphenated form on its own, in
braces, or behind `urn:uuid:`.  The letters may be of either case throughout.
-/

namespace PointCloud

/-- A 128-bit identifier: three numbers, and eight octets in reading order taken as one number. -/
structure Guid where
  first : UInt32
  second : UInt16
  third : UInt16
  last : UInt64
  deriving Repr, DecidableEq

namespace Guid

/-- The identifier of which every bit is zero. -/
def zero : Guid := ⟨0, 0, 0, 0⟩

/-- The sixteen octets in a file. -/
def bytes (g : Guid) : FixedOctets 16 where
  toList := Octets.ofUInt32 g.first ++ Octets.ofUInt16 g.second ++ Octets.ofUInt16 g.third ++
    (Octets.ofUInt64 g.last).reverse
  length_toList := by simp

/-- The last `count` hexadecimal digits of a number. -/
def hexDigits (count n : Nat) : List Char :=
  let digits := Nat.toDigits 16 n
  List.replicate (count - digits.length) '0' ++ digits

/-- The hyphenated form with small letters. -/
def text (g : Guid) : String :=
  let tail := hexDigits 16 g.last.toNat
  String.ofList <| hexDigits 8 g.first.toNat ++ '-' :: hexDigits 4 g.second.toNat ++
    '-' :: hexDigits 4 g.third.toNat ++ '-' :: tail.take 4 ++ '-' :: tail.drop 4

/-- The value of a hexadecimal digit of either case. -/
def hexDigit? (c : Char) : Option Nat :=
  if c.isDigit then some (c.toNat - '0'.toNat)
  else if 'a' ≤ c ∧ c ≤ 'f' then some (c.toNat - 'a'.toNat + 10)
  else if 'A' ≤ c ∧ c ≤ 'F' then some (c.toNat - 'A'.toNat + 10)
  else none

/-- The identifier of 32 hexadecimal digits. -/
def ofDigits? (cs : List Char) : Option Guid := do
  let digits ← cs.mapM hexDigit?
  if digits.length = 32 then
    let n := digits.foldl (fun n d => 16 * n + d) 0
    some ⟨UInt32.ofNat (n >>> 96), UInt16.ofNat (n >>> 80), UInt16.ofNat (n >>> 64),
      UInt64.ofNat n⟩
  else none

/-- The digits of the hyphenated form, if the hyphens are in their places. -/
def hyphenated? (cs : List Char) : Option (List Char) :=
  let hyphens := [8, 13, 18, 23]
  if cs.length = 36 ∧ hyphens.all (fun i => cs[i]? == some '-') then
    some (cs.take 8 ++ (cs.drop 9).take 4 ++ (cs.drop 14).take 4 ++ (cs.drop 19).take 4 ++
      cs.drop 24)
  else none

/-- The text inside braces. -/
def inBraces? : List Char → Option (List Char)
  | '\x7b' :: cs => if cs.getLast? = some '\x7d' then some cs.dropLast else none
  | _ => none

/-- The text behind `urn:uuid:`. -/
def behindUrn? (cs : List Char) : Option (List Char) :=
  let mark := "urn:uuid:".toList
  if Text.lower (cs.take mark.length) = mark then some (cs.drop mark.length) else none

/-- Reads an identifier. -/
def parse? (s : String) : Option Guid :=
  let cs := s.toList
  if cs.length = 32 then ofDigits? cs
  else
    let inner := ((inBraces? cs).orElse fun _ => behindUrn? cs).getD cs
    (hyphenated? inner).bind ofDigits?

end Guid

end PointCloud
