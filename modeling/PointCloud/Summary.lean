import PointCloud.Box

/-!
# Summary of written points

The header of a file counts its points, counts them again by return number, and
bounds their coordinates.  A `Summary` is that, kept up point by point.  Only the
return numbers from 1 to the limit of the record format are counted; other
points count in the total alone.
-/

namespace PointCloud

/-- Counts and bounds of points.  `byReturn` has a count for each of the return numbers 1 to 15.
The counts have no limit here; where they are kept in 64 bits, they agree with these below 2 ^ 64
points. -/
structure Summary where
  box : Box
  byReturn : Vector Nat 15
  count : Nat
  maxReturns : Nat
  deriving Repr

/-- What the summary takes note of in a point. -/
structure CountedPoint where
  position : Triple Double
  returnNumber : UInt8
  deriving Repr, DecidableEq

namespace Summary

/-- The summary of no point, for a format with the given limit. -/
def empty (maxReturns : UInt8) : Summary :=
  ⟨Box.nowhere, Vector.replicate 15 0, 0, min maxReturns.toNat 15⟩

/-- The slot in which a return number is counted, if it is. -/
def slot? (s : Summary) (returnNumber : UInt8) : Option Nat :=
  if 1 ≤ returnNumber.toNat ∧ returnNumber.toNat ≤ s.maxReturns then
    some (returnNumber.toNat - 1)
  else none

/-- Takes note of a point. -/
def add (s : Summary) (p : CountedPoint) : Summary :=
  { s with
    box := s.box.growPoint p.position
    count := s.count + 1
    byReturn := Vector.ofFn fun slot =>
      s.byReturn.get slot + if s.slot? p.returnNumber = some slot.val then 1 else 0 }

/-- Takes note of points in order. -/
def addAll (s : Summary) (ps : List CountedPoint) : Summary := ps.foldl add s

/-- Points may be noted in several goes. -/
theorem addAll_append (s : Summary) (ps qs : List CountedPoint) :
    s.addAll (ps ++ qs) = (s.addAll ps).addAll qs := by
  simp [addAll]

/-- Every point that is added is counted once. -/
@[simp] theorem count_addAll (s : Summary) (ps : List CountedPoint) :
    (s.addAll ps).count = s.count + ps.length := by
  induction ps generalizing s with
  | nil => rfl
  | cons p ps ih =>
    rw [addAll, List.foldl_cons, ← addAll, ih]
    simp [add]
    omega

end Summary

end PointCloud
