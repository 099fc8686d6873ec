/-!
# Doubles

A double is its 64 bits: a sign, eleven bits of exponent and 52 of fraction.  A
value that is only passed on keeps every bit, so there are many NaNs, and a file
tells them apart although no comparison does.

Order is read off the bits.  Without the sign they are a natural number that
grows with the magnitude, `magnitude`: infinity has the pattern
`infiniteMagnitude`, and whatever lies above it is a NaN.  `rank` gives the
magnitude its sign, which makes one of the two zeros.  So the comparisons here
are comparisons of whole numbers, and a NaN is on no side of any of them.

`least` and `greatest` choose between two doubles in a way that a NaN never
wins.  A fold over any list of coordinates is then the extreme of those that are
numbers.
-/

namespace PointCloud

/-- A double in its binary64 pattern. -/
structure Double where
  bits : UInt64
  deriving Repr, DecidableEq

namespace Double

/-- The bit of the sign alone. -/
def signBit : UInt64 := 0x8000000000000000

/-- The pattern of infinity. -/
def infiniteMagnitude : Nat := 0x7FF0000000000000

/-- Zero, with a plus sign. -/
def zero : Double := ⟨0⟩

/-- Infinity, with a plus sign. -/
def infinity : Double := ⟨0x7FF0000000000000⟩

/-- The NaN that is meant where only the word is given. -/
def nan : Double := ⟨0x7FF8000000000000⟩

/-- The largest finite double. -/
def highest : Double := ⟨0x7FEFFFFFFFFFFFFF⟩

/-- The least finite double. -/
def lowest : Double := ⟨0xFFEFFFFFFFFFFFFF⟩

/-- Whether the sign is a minus. -/
def isNegative (x : Double) : Bool := signBit ≤ x.bits

/-- The pattern without the sign. -/
def magnitude (x : Double) : Nat := (x.bits % signBit).toNat

/-- Whether the double is no number. -/
def isNaN (x : Double) : Bool := infiniteMagnitude < x.magnitude

/-- Whether the double is a number other than the infinities. -/
def isFinite (x : Double) : Bool := x.magnitude < infiniteMagnitude

/-- The place of a number in the order of all numbers; both zeros have the same. -/
def rank (x : Double) : Int := if x.isNegative then -(x.magnitude : Int) else x.magnitude

/-- The double with the other sign. -/
def negate (x : Double) : Double := ⟨x.bits ^^^ signBit⟩

instance : Neg Double := ⟨negate⟩

instance : LT Double := ⟨fun x y => x.isNaN = false ∧ y.isNaN = false ∧ x.rank < y.rank⟩

instance : LE Double := ⟨fun x y => x.isNaN = false ∧ y.isNaN = false ∧ x.rank ≤ y.rank⟩

/-- Equality of numbers: the two zeros are equal, and a NaN is not equal to itself. -/
instance : BEq Double := ⟨fun x y => !x.isNaN && !y.isNaN && x.rank == y.rank⟩

/-- One double is below another just if both are numbers and it has the smaller rank. -/
theorem lt_def {x y : Double} :
    x < y ↔ x.isNaN = false ∧ y.isNaN = false ∧ x.rank < y.rank := Iff.rfl

/-- One double is not above another just if both are numbers and it has no larger rank. -/
theorem le_def {x y : Double} :
    x ≤ y ↔ x.isNaN = false ∧ y.isNaN = false ∧ x.rank ≤ y.rank := Iff.rfl

/-- Where the zeros and the NaNs are kept apart, equality of bits is meant, `x = y`. -/
theorem beq_def {x y : Double} :
    (x == y) = (!x.isNaN && !y.isNaN && x.rank == y.rank) := rfl

instance (x y : Double) : Decidable (x < y) := decidable_of_iff' _ lt_def

instance (x y : Double) : Decidable (x ≤ y) := decidable_of_iff' _ le_def

/-- The smaller of two doubles; a NaN loses, and of two equal ones the second is taken. -/
def least (a b : Double) : Double :=
  if b.isNaN then a else if a < b then a else b

/-- The larger of two doubles; a NaN loses, and of two equal ones the second is taken. -/
def greatest (a b : Double) : Double :=
  if b.isNaN then a else if b < a then a else b

/-- The order goes through: a NaN in the middle would have failed both comparisons. -/
theorem le_trans {x y z : Double} (hxy : x ≤ y) (hyz : y ≤ z) : x ≤ z :=
  ⟨hxy.1, hyz.2.1, Int.le_trans hxy.2.2 hyz.2.2⟩

/-- Of two numbers, one is below the other unless that one is at most as large. -/
theorem not_lt {x y : Double} (hx : x.isNaN = false) (hy : y.isNaN = false) : ¬ x < y ↔ y ≤ x := by
  simp [lt_def, le_def, hx, hy]

end Double

end PointCloud
