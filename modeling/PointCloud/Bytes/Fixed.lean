import PointCloud.Bytes.LittleEndian

/-!
# Octets of a fixed number

Signatures, identifiers and names stand in fields whose width never changes, so
the width is part of their type.  `FixedOctets.ofList` fills such a field: what
is too long is cut off, what is too short is followed by zeros.
-/

namespace PointCloud

/-- Octets of a fixed number. -/
structure FixedOctets (width : Nat) where
  toList : Octets
  length_toList : toList.length = width
  deriving Repr, DecidableEq

namespace FixedOctets

variable {width : Nat}

attribute [simp] length_toList

/-- Fills a field from the left. -/
def ofList (width : Nat) (bytes : Octets) : FixedOctets width where
  toList := bytes.take width ++ List.replicate (width - bytes.length) 0
  length_toList := by simp; omega

/-- A field of zeros. -/
def zero (width : Nat) : FixedOctets width := ofList width []

/-- What is short enough is followed by zeros. -/
theorem toList_ofList {bytes : Octets} (h : bytes.length ≤ width) :
    (ofList width bytes).toList = bytes ++ List.replicate (width - bytes.length) 0 := by
  simp [ofList, List.take_of_length_le h]

end FixedOctets

end PointCloud
