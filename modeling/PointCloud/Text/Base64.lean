import PointCloud.Bytes.LittleEndian

/-!
# Base64

Record data reaches a writer as base64 text: the standard alphabet, four symbols
for three octets, padding with `=` required, and the bits of the last symbol
that carry no data required to be zero.  So every sequence of octets has exactly
one text.

A text that is refused is refused for its first fault, with one exception: when
one symbol is left over and it is no symbol of the alphabet, that comes first,
since a stray line end behind the text is the usual cause.  Offsets are counted
in octets.
-/

namespace PointCloud.Base64

/-- Why a text is not base64. -/
inductive Fault where
  /-- an octet that may not stand where it stands -/
  | symbol (offset : Nat) (octet : UInt8)
  /-- too few symbols in the last group -/
  | length (symbols : Nat)
  /-- a last symbol with bits that carry no data -/
  | lastSymbol (offset : Nat) (octet : UInt8)
  /-- padding that is missing -/
  | padding
  deriving Repr, DecidableEq

/-- The words for a fault. -/
def Fault.message : Fault → String
  | .symbol offset octet => s!"Invalid symbol {octet.toNat}, offset {offset}."
  | .length symbols => s!"Invalid input length: {symbols}"
  | .lastSymbol offset octet => s!"Invalid last symbol {octet.toNat}, offset {offset}."
  | .padding => "Invalid padding"

/-- The octet of the padding sign. -/
def pad : UInt8 := 61

/-- The six bits that an octet of the alphabet stands for. -/
def value? (octet : UInt8) : Option Nat :=
  let n := octet.toNat
  if 65 ≤ n ∧ n ≤ 90 then some (n - 65)
  else if 97 ≤ n ∧ n ≤ 122 then some (n - 97 + 26)
  else if 48 ≤ n ∧ n ≤ 57 then some (n - 48 + 52)
  else if n = 43 then some 62
  else if n = 47 then some 63
  else none

/-- The first octet outside the alphabet, with its place. -/
def firstStray? (octets : Octets) : Option (Nat × UInt8) :=
  (octets.findIdx? fun b => (value? b).isNone).map fun i => (i, octets.getD i 0)

/-- The octets of groups of four symbols.  A last group of two or three symbols gives one or two
octets. -/
def unpack : List Nat → Octets
  | a :: b :: c :: d :: rest =>
    UInt8.ofNat (4 * a + b / 16) :: UInt8.ofNat (16 * b + c / 4) :: UInt8.ofNat (64 * c + d) ::
      unpack rest
  | [a, b, c] => [UInt8.ofNat (4 * a + b / 16), UInt8.ofNat (16 * b + c / 4)]
  | [a, b] => [UInt8.ofNat (4 * a + b / 16)]
  | _ => []

/-- The bits of the last of two or three symbols that carry no data. -/
def spareBits : List Nat → Nat
  | [_, b] => b % 16
  | [_, _, c] => c % 4
  | _ => 0

/-- The six-bit values of symbols. -/
def values (octets : Octets) : List Nat := octets.filterMap value?

/-- Decodes the last group, of one to four octets, which stands at `offset`. -/
def decodeLast (offset : Nat) (group : Octets) : Except Fault Octets :=
  let symbols := group.takeWhile (· != pad)
  let padding := group.dropWhile (· != pad)
  match firstStray? symbols with
  | some (i, octet) => .error (.symbol (offset + i) octet)
  | none =>
    if padding ≠ [] ∧ (symbols.length < 2 ∨ padding.any (· != pad)) then
      .error (.symbol (offset + symbols.length) pad)
    else if symbols.length < 2 then .error (.length (offset + symbols.length))
    else if group.length ≠ 4 then .error .padding
    else if spareBits (values symbols) ≠ 0 then
      .error (.lastSymbol (offset + symbols.length - 1) (symbols.getLastD 0))
    else .ok (unpack (values symbols))

/-- The number of octets in front of the last group. -/
def leading (length : Nat) : Nat := (length - 1) / 4 * 4

/-- Decodes base64 text given as octets. -/
def decode (text : Octets) : Except Fault Octets :=
  let front := text.take (leading text.length)
  let group := text.drop (leading text.length)
  match text.getLast? with
  | none => .ok []
  | some final =>
    if text.length % 4 = 1 ∧ final ≠ pad ∧ value? final = none then
      .error (.symbol (text.length - 1) final)
    else match firstStray? front with
      | some (i, octet) => .error (.symbol i octet)
      | none => do
        let rest ← decodeLast front.length group
        return unpack (values front) ++ rest

end PointCloud.Base64
