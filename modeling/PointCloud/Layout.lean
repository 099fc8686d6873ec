import PointCloud.Scalar

/-!
# Dimensions and layouts

A table of points has dimensions: `X`, `Intensity` and the like, each with a
name, a scalar type and a description.  Its layout is their list, and a
dimension is known by its index in it.

A name is looked up as it is first, and without regard to ASCII case if that
finds nothing.  A name that is found is not registered again, so the names of a
layout that grows by `register` stay apart even up to case, and an index once
given stays good.
-/

namespace PointCloud

/-- One dimension of a table. -/
structure Dimension where
  name : String
  scalar : Scalar
  description : String
  deriving Repr, DecidableEq

/-- The dimensions of a table in order. -/
structure Layout where
  dimensions : List Dimension
  deriving Repr, DecidableEq

namespace Layout

/-- No dimension at all. -/
def empty : Layout := ⟨[]⟩

/-- The index of the dimension with a name. -/
def find? (l : Layout) (name : String) : Option Nat :=
  (l.dimensions.findIdx? fun d => d.name == name).or
    (l.dimensions.findIdx? fun d => Text.sameIgnoringCase d.name name)

/-- Adds a dimension unless its name is known; gives the layout and the index of the name. -/
def register (l : Layout) (d : Dimension) : Layout × Nat :=
  match l.find? d.name with
  | some id => (l, id)
  | none => (⟨l.dimensions ++ [d]⟩, l.dimensions.length)

/-- Adds dimensions one after the other. -/
def registerAll (l : Layout) (ds : List Dimension) : Layout :=
  ds.foldl (fun l d => (l.register d).1) l

/-- The three coordinates, as doubles. -/
def xyz : Layout :=
  empty.registerAll [⟨"X", .double, ""⟩, ⟨"Y", .double, ""⟩, ⟨"Z", .double, ""⟩]

/-- The dimension at an index. -/
def get? (l : Layout) (id : Nat) : Option Dimension := l.dimensions[id]?

/-- The octets of a point in the table. -/
def pointSize (l : Layout) : Nat := (l.dimensions.map (·.scalar.width)).foldr (· + ·) 0

/-- A name that is found is registered at the index that finding it gives. -/
theorem register_of_find? {l : Layout} {d : Dimension} {id : Nat} (h : l.find? d.name = some id) :
    l.register d = (l, id) := by
  simp [register, h]

/-- A name that is not found is registered behind the others. -/
theorem register_of_not_found {l : Layout} {d : Dimension} (h : l.find? d.name = none) :
    l.register d = (⟨l.dimensions ++ [d]⟩, l.dimensions.length) := by
  simp [register, h]

end Layout

end PointCloud
