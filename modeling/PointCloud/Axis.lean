/-!
# Axes

Coordinates, scales and offsets come in threes, one for each axis.  A `Triple`
is read at an axis with `get` and built from a function of the axis with
`ofAxes`; `ext_get` says that it is nothing but its three readings.
-/

namespace PointCloud

/-- An axis of space. -/
inductive Axis where
  | x
  | y
  | z
  deriving Repr, DecidableEq

namespace Axis

/-- The axes in order. -/
def all : List Axis := [.x, .y, .z]

/-- The letter of an axis. -/
def letter : Axis → String
  | .x => "x"
  | .y => "y"
  | .z => "z"

end Axis

/-- One value for each axis. -/
structure Triple (α : Type) where
  x : α
  y : α
  z : α
  deriving Repr, DecidableEq, BEq

namespace Triple

variable {α β : Type}

/-- The value at an axis. -/
def get (t : Triple α) : Axis → α
  | .x => t.x
  | .y => t.y
  | .z => t.z

/-- The triple with a new value at one axis. -/
def set (t : Triple α) (axis : Axis) (value : α) : Triple α :=
  match axis with
  | .x => { t with x := value }
  | .y => { t with y := value }
  | .z => { t with z := value }

/-- The triple of a function's values. -/
def ofAxes (f : Axis → α) : Triple α := ⟨f .x, f .y, f .z⟩

/-- The same value on every axis. -/
def same (value : α) : Triple α := ⟨value, value, value⟩

/-- The triple of the values of a function on each axis. -/
def map (f : α → β) (t : Triple α) : Triple β := ⟨f t.x, f t.y, f t.z⟩

/-- Joins two triples axis by axis. -/
def zipWith {γ : Type} (f : α → β → γ) (s : Triple α) (t : Triple β) : Triple γ :=
  ⟨f s.x t.x, f s.y t.y, f s.z t.z⟩

@[simp] theorem get_ofAxes (f : Axis → α) (a : Axis) : (ofAxes f).get a = f a := by
  cases a <;> rfl

@[simp] theorem get_same (value : α) (a : Axis) : (same value).get a = value := by
  cases a <;> rfl

@[simp] theorem get_map (f : α → β) (t : Triple α) (a : Axis) : (t.map f).get a = f (t.get a) := by
  cases a <;> rfl

@[simp] theorem get_zipWith {γ : Type} (f : α → β → γ) (s : Triple α) (t : Triple β) (a : Axis) :
    (zipWith f s t).get a = f (s.get a) (t.get a) := by
  cases a <;> rfl

/-- Triples with the same value at every axis are equal. -/
theorem ext_get {s t : Triple α} (h : ∀ a, s.get a = t.get a) : s = t := by
  have hx := h .x
  have hy := h .y
  have hz := h .z
  cases s; cases t
  simp_all [get]

/-- A component that is set has the new value, and the others keep theirs. -/
theorem get_set (t : Triple α) (a b : Axis) (value : α) :
    (t.set a value).get b = if a = b then value else t.get b := by
  cases a <;> cases b <;> rfl

end Triple

end PointCloud
