import PointCloud.Bytes.LittleEndian
import PointCloud.Double.Rounding
import PointCloud.Double.Single
import PointCloud.Text.Blank
import PointCloud.Text.Caseless

/-!
# Scalar types of dimensions

The values of a dimension have one of ten scalar types: whole numbers of 8, 16,
32 and 64 bits with and without a sign, and doubles of 32 and 64 bits.  A value
passes through a table as a double; `encode?` gives its octets, little-endian,
and `decode` the double back.  A whole type takes the values whose truncation
lies in its range, and nothing else; the two floating types take everything.
-/

namespace PointCloud

/-- A scalar type. -/
inductive Scalar where
  | unsigned8
  | signed8
  | unsigned16
  | signed16
  | unsigned32
  | signed32
  | unsigned64
  | signed64
  | float
  | double
  deriving Repr, DecidableEq

namespace Scalar

/-- The scalar types in the order of their codes. -/
def all : List Scalar :=
  [.unsigned8, .signed8, .unsigned16, .signed16, .unsigned32, .signed32, .unsigned64, .signed64,
    .float, .double]

/-- The octets of a value. -/
def width : Scalar → Nat
  | .unsigned8 | .signed8 => 1
  | .unsigned16 | .signed16 => 2
  | .unsigned32 | .signed32 | .float => 4
  | .unsigned64 | .signed64 | .double => 8

/-- The name of a scalar type where it is shown. -/
def name : Scalar → String
  | .unsigned8 => "Unsigned8"
  | .signed8 => "Signed8"
  | .unsigned16 => "Unsigned16"
  | .signed16 => "Signed16"
  | .unsigned32 => "Unsigned32"
  | .signed32 => "Signed32"
  | .unsigned64 => "Unsigned64"
  | .signed64 => "Signed64"
  | .float => "Float"
  | .double => "Double"

/-- The code of a scalar type in an extra bytes record. -/
def code : Scalar → UInt8
  | .unsigned8 => 1
  | .signed8 => 2
  | .unsigned16 => 3
  | .signed16 => 4
  | .unsigned32 => 5
  | .signed32 => 6
  | .unsigned64 => 7
  | .signed64 => 8
  | .float => 9
  | .double => 10

/-- The names under which a scalar type may be asked for, in small letters. -/
def spellings : Scalar → List String
  | .unsigned8 => ["uint8", "uchar"]
  | .signed8 => ["int8", "char"]
  | .unsigned16 => ["uint16", "ushort"]
  | .signed16 => ["int16", "short"]
  | .unsigned32 => ["uint32", "ulong"]
  | .signed32 => ["int32", "long"]
  | .unsigned64 => ["uint64", "ulonglong"]
  | .signed64 => ["int64", "longlong"]
  | .float => ["float", "float32"]
  | .double => ["double", "float64"]

/-- The text less one `_t` at its end. -/
def dropTypeMark (cs : List Char) : List Char :=
  if ['_', 't'].isSuffixOf cs then cs.take (cs.length - 2) else cs

/-- The scalar type that is asked for by a name: blanks around it, the case of its letters and a
`_t` at its end do not count. -/
def ofName? (s : String) : Option Scalar :=
  let name := String.ofList (dropTypeMark (Text.lower (Text.trim s.toList)))
  all.find? fun t => t.spellings.contains name

/-- The whole numbers of a type, from the least to one above the greatest; none for the floating
types. -/
def range? : Scalar → Option (Int × Int)
  | .unsigned8 => some (0, 0x100)
  | .signed8 => some (-0x80, 0x80)
  | .unsigned16 => some (0, 0x10000)
  | .signed16 => some (-0x8000, 0x8000)
  | .unsigned32 => some (0, 0x100000000)
  | .signed32 => some (-0x80000000, 0x80000000)
  | .unsigned64 => some (0, 0x10000000000000000)
  | .signed64 => some (-0x8000000000000000, 0x8000000000000000)
  | .float => none
  | .double => none

/-- The truncation of a value, if it lies from `low` up to but not including `high`. -/
def wholeIn? (low high : Int) (value : Double) : Option Int :=
  (Double.truncate? value).filter fun n => low ≤ n ∧ n < high

/-- The octets of a value, if the type has it. -/
def encode? (t : Scalar) (value : Double) : Option Octets :=
  match t.range? with
  | some (low, high) =>
    (wholeIn? low high value).map fun n =>
      LittleEndian.split t.width (n % (LittleEndian.limit t.width : Int)).toNat
  | none =>
    match t with
    | .float => some (Octets.ofUInt32 value.toSingle)
    | _ => some (Octets.ofDouble value)

/-- The number in two's complement that a natural of `width` octets stands for. -/
def twosComplement (width n : Nat) : Int :=
  let limit := LittleEndian.limit width
  if 2 * n < limit then n else (n : Int) - limit

/-- The value of octets; those behind the width of the type are not looked at. -/
def decode (t : Scalar) (bytes : Octets) : Double :=
  let n := LittleEndian.join (bytes.take t.width)
  match t with
  | .unsigned8 | .unsigned16 | .unsigned32 | .unsigned64 => Double.ofWhole n
  | .signed8 | .signed16 | .signed32 | .signed64 => Double.ofWhole (twosComplement t.width n)
  | .float => .ofSingle (UInt32.ofNat n)
  | .double => ⟨UInt64.ofNat n⟩

/-- What a type gives for a value is exactly as wide as the type. -/
theorem length_of_encode? {t : Scalar} {value : Double} {bytes : Octets}
    (h : t.encode? value = some bytes) : bytes.length = t.width := by
  unfold encode? at h
  split at h
  · obtain ⟨n, _, rfl⟩ := Option.map_eq_some_iff.mp h
    simp
  · next hrange =>
    cases t <;> simp [range?] at hrange <;> simp at h <;> subst h <;> simp [width]

/-- Octets behind the width of a type do not count. -/
theorem decode_append {t : Scalar} {bytes more : Octets} (h : bytes.length = t.width) :
    t.decode (bytes ++ more) = t.decode bytes := by
  simp [decode, ← h]

/-- Every type takes octets. -/
theorem width_pos (t : Scalar) : 0 < t.width := by cases t <;> decide

end Scalar

end PointCloud
