import Mathlib.Order.Bounds.Image
import PointCloud.Header

/-!
# The bounds of finite points

A box begins as `Box.nowhere`, whose sides are ordinary doubles and the wrong way
round, and is extended point by point by plain comparisons.  An infinity or a NaN
would slip past these.  Of finite points nothing slips past: the first one takes
both sides on every axis, and from then on the sides are the extremes of the
points so far.

`Box.Spans` says that the sides of a box are extremes of points.  They are
coordinates of some of the points, to the bit; that no other point lies outside
is a comparison of numbers, in which both zeros are one.  A box that spans points
has a z interval and is not empty, so the mark for a box without points is never
taken for one with points.
-/

namespace PointCloud

namespace Double

theorem le_refl {x : Double} (h : x.isNaN = false) : x ≤ x := ⟨h, h, Int.le_refl _⟩

theorem le_of_lt {x y : Double} (h : x < y) : x ≤ y := ⟨h.1, h.2.1, Int.le_of_lt h.2.2⟩

theorem not_lt_of_le {x y : Double} (h : x ≤ y) : ¬ y < x := fun hlt => by
  have := h.2.2
  have := hlt.2.2
  omega

theorem isNaN_of_isFinite {x : Double} (h : x.isFinite = true) : x.isNaN = false := by
  simp only [isNaN, isFinite, decide_eq_true_eq, decide_eq_false_iff_not] at h ⊢
  omega

/-- No double is told apart from one with the same sign and magnitude. -/
theorem eq_of_magnitude {x y : Double} (hsign : x.isNegative = y.isNegative)
    (hmagnitude : x.magnitude = y.magnitude) : x = y := by
  rcases x with ⟨a⟩
  rcases y with ⟨b⟩
  have ha := a.toNat_lt
  have hb := b.toNat_lt
  simp only [isNegative, magnitude, signBit, UInt64.le_iff_toNat_le, UInt64.toNat_mod,
    UInt64.reduceToNat, decide_eq_decide] at hsign hmagnitude
  rw [mk.injEq, ← UInt64.toNat_inj]
  omega

/-- A finite double that is not below the largest one is that one. -/
theorem eq_highest {x : Double} (h : x.isFinite = true) (hnot : ¬ x < highest) : x = highest := by
  have hrank := ((not_lt (isNaN_of_isFinite h) (by decide)).mp hnot).2.2
  have hhighest : highest.rank = 0x7FEFFFFFFFFFFFFF := by decide
  have hmagnitude : highest.magnitude = 0x7FEFFFFFFFFFFFFF := by decide
  have hnegative : highest.isNegative = false := by decide
  have hfinite : x.magnitude < 0x7FF0000000000000 := of_decide_eq_true h
  rw [hhighest, rank] at hrank
  cases hsign : x.isNegative with
  | true =>
    rw [hsign, if_pos rfl] at hrank
    omega
  | false =>
    rw [hsign, if_neg (by decide)] at hrank
    exact eq_of_magnitude (hsign.trans hnegative.symm) (by omega)

/-- A finite double that is not above the least one is that one. -/
theorem eq_lowest {x : Double} (h : x.isFinite = true) (hnot : ¬ lowest < x) : x = lowest := by
  have hrank := ((not_lt (by decide) (isNaN_of_isFinite h)).mp hnot).2.2
  have hlowest : lowest.rank = -0x7FEFFFFFFFFFFFFF := by decide
  have hmagnitude : lowest.magnitude = 0x7FEFFFFFFFFFFFFF := by decide
  have hnegative : lowest.isNegative = true := by decide
  have hfinite : x.magnitude < 0x7FF0000000000000 := of_decide_eq_true h
  rw [hlowest, rank] at hrank
  cases hsign : x.isNegative with
  | true =>
    rw [hsign, if_pos rfl] at hrank
    exact eq_of_magnitude (hsign.trans hnegative.symm) (by omega)
  | false =>
    rw [hsign, if_neg (by decide)] at hrank
    omega

/-- The least of some doubles, or a new one below it, is the least with the new one among them. -/
theorem isLeast_insert {xs : Set Double} {old new : Double} (h : IsLeast xs old)
    (hnew : new.isNaN = false) : IsLeast (insert new xs) (if new < old then new else old) := by
  obtain ⟨hmem, hle⟩ := h
  have hold : old.isNaN = false := (hle hmem).1
  by_cases hlt : new < old
  · rw [if_pos hlt]
    refine ⟨Set.mem_insert new xs, ?_⟩
    rintro x (rfl | hx)
    · exact le_refl hnew
    · exact le_trans (le_of_lt hlt) (hle hx)
  · rw [if_neg hlt]
    refine ⟨Set.mem_insert_of_mem new hmem, ?_⟩
    rintro x (rfl | hx)
    · exact (not_lt hnew hold).mp hlt
    · exact hle hx

/-- The greatest of some doubles, or a new one above it, is the greatest with the new one among
them. -/
theorem isGreatest_insert {xs : Set Double} {old new : Double} (h : IsGreatest xs old)
    (hnew : new.isNaN = false) : IsGreatest (insert new xs) (if old < new then new else old) := by
  obtain ⟨hmem, hle⟩ := h
  have hold : old.isNaN = false := (hle hmem).1
  by_cases hlt : old < new
  · rw [if_pos hlt]
    refine ⟨Set.mem_insert new xs, ?_⟩
    rintro x (rfl | hx)
    · exact le_refl hnew
    · exact le_trans (hle hx) (le_of_lt hlt)
  · rw [if_neg hlt]
    refine ⟨Set.mem_insert_of_mem new hmem, ?_⟩
    rintro x (rfl | hx)
    · exact (not_lt hold hnew).mp hlt
    · exact hle hx

end Double

/-- Whether a position is finite on every axis. -/
def Triple.IsFinite (t : Triple Double) : Prop := ∀ axis, (t.get axis).isFinite = true

namespace Box

/-- The coordinates of positions on an axis. -/
def along (positions : List (Triple Double)) (axis : Axis) : Set Double :=
  (·.get axis) '' {t | t ∈ positions}

/-- The sides of the box are the extreme coordinates of positions. -/
structure Spans (b : Box) (positions : List (Triple Double)) : Prop where
  least : ∀ axis, IsLeast (along positions axis) (b.min.get axis)
  greatest : ∀ axis, IsGreatest (along positions axis) (b.max.get axis)

variable {b : Box} {positions : List (Triple Double)}

/-- The coordinates along an axis grow by one with each position. -/
theorem along_concat (positions : List (Triple Double)) (t : Triple Double) (axis : Axis) :
    along (positions ++ [t]) axis = insert (t.get axis) (along positions axis) := by
  have hset : {u | u ∈ positions ++ [t]} = insert t {u | u ∈ positions} := by
    ext u
    simp [or_comm]
  rw [along, hset, Set.image_insert_eq]
  rfl

/-- The first point takes both sides of the box. -/
theorem growPoint_nowhere {t : Triple Double} (h : t.IsFinite) :
    nowhere.growPoint t = .point t := by
  have hmin : (nowhere.growPoint t).min = t := by
    refine Triple.ext_get fun axis => ?_
    simp only [growPoint, nowhere, Triple.get_zipWith, Triple.get_same]
    split
    · rfl
    · next hnot => exact (Double.eq_highest (h axis) hnot).symm
  have hmax : (nowhere.growPoint t).max = t := by
    refine Triple.ext_get fun axis => ?_
    simp only [growPoint, nowhere, Triple.get_zipWith, Triple.get_same]
    split
    · rfl
    · next hnot => exact (Double.eq_lowest (h axis) hnot).symm
  rw [point, ← congrArg₂ Box.mk hmin hmax]

/-- A point spans itself. -/
theorem spans_point {t : Triple Double} (h : t.IsFinite) : (point t).Spans [t] := by
  have halong : ∀ axis, along [t] axis = {t.get axis} := by
    intro axis
    simp [along]
  have hle : ∀ axis, t.get axis ≤ t.get axis := fun axis =>
    Double.le_refl (Double.isNaN_of_isFinite (h axis))
  constructor
  · intro axis
    rw [halong]
    refine ⟨rfl, ?_⟩
    rintro x rfl
    exact hle axis
  · intro axis
    rw [halong]
    refine ⟨rfl, ?_⟩
    rintro x rfl
    exact hle axis

/-- A box that is extended to another point spans that one too. -/
theorem Spans.growPoint (h : b.Spans positions) {t : Triple Double} (ht : t.IsFinite) :
    (b.growPoint t).Spans (positions ++ [t]) := by
  have hnumber : ∀ axis, (t.get axis).isNaN = false := fun axis =>
    Double.isNaN_of_isFinite (ht axis)
  constructor
  · intro axis
    rw [along_concat, Box.growPoint, Triple.get_zipWith]
    exact Double.isLeast_insert (h.least axis) (hnumber axis)
  · intro axis
    rw [along_concat, Box.growPoint, Triple.get_zipWith]
    exact Double.isGreatest_insert (h.greatest axis) (hnumber axis)

/-- A box that grows by points spans them too. -/
theorem Spans.foldl_growPoint (h : b.Spans positions) {more : List (Triple Double)}
    (hmore : ∀ t ∈ more, t.IsFinite) :
    (more.foldl Box.growPoint b).Spans (positions ++ more) := by
  induction more generalizing b positions with
  | nil => simpa using h
  | cons t more ih =>
    obtain ⟨ht, hrest⟩ := List.forall_mem_cons.mp hmore
    have hnext := ih (h.growPoint ht) hrest
    rwa [List.append_assoc] at hnext

/-- **The box of finite points** is spanned by them, however many there are. -/
theorem spans_foldl (hsome : positions ≠ []) (h : ∀ t ∈ positions, t.IsFinite) :
    (positions.foldl Box.growPoint nowhere).Spans positions := by
  cases positions with
  | nil => exact absurd rfl hsome
  | cons t rest =>
    obtain ⟨ht, hrest⟩ := List.forall_mem_cons.mp h
    have hfirst : nowhere.growPoint t = .point t := growPoint_nowhere ht
    rw [List.foldl_cons, hfirst]
    exact (spans_point ht).foldl_growPoint hrest

/-- The least coordinate is not above the greatest. -/
theorem Spans.min_le_max (h : b.Spans positions) (axis : Axis) :
    b.min.get axis ≤ b.max.get axis :=
  (h.least axis).2 (h.greatest axis).1

/-- The mark for a box without a z interval is not one of points. -/
theorem Spans.hasZ (h : b.Spans positions) : b.hasZ = true := by
  have hle : b.min.z ≤ b.max.z := h.min_le_max .z
  cases hflat : b.hasZ with
  | true => rfl
  | false =>
    simp only [Box.hasZ, Double.beq_def, Bool.not_eq_false', Bool.and_eq_true, beq_iff_eq] at hflat
    obtain ⟨⟨-, hmin⟩, ⟨-, hmax⟩⟩ := hflat
    have hranks : Double.lowest.rank < Double.highest.rank := by decide
    have hrank := hle.2.2
    omega

/-- A box that spans points is not empty. -/
theorem Spans.isEmpty (h : b.Spans positions) : b.isEmpty = false := by
  have hx : ¬ b.max.x < b.min.x := Double.not_lt_of_le (h.min_le_max .x)
  have hy : ¬ b.max.y < b.min.y := Double.not_lt_of_le (h.min_le_max .y)
  have hz : ¬ b.max.z < b.min.z := Double.not_lt_of_le (h.min_le_max .z)
  simp [Box.isEmpty, hx, hy, hz]

end Box

namespace Summary

/-- The box of a summary grows by each point that is added. -/
theorem box_addAll (s : Summary) (ps : List CountedPoint) :
    (s.addAll ps).box = (ps.map (·.position)).foldl Box.growPoint s.box := by
  induction ps generalizing s with
  | nil => rfl
  | cons p ps ih => exact ih (s.add p)

/-- A box tells whether there are points, and which of their coordinates are the extremes. -/
structure Bounds (s : Summary) (positions : List (Triple Double)) : Prop where
  none : positions = [] → s.box = Box.nowhere
  some : positions ≠ [] → s.box.Spans positions ∧ s.box.hasZ = true ∧ s.box.isEmpty = false

/-- A summary of finite points bounds them. -/
theorem bounds_addAll (maxReturns : UInt8) {ps : List CountedPoint}
    (h : ∀ p ∈ ps, p.position.IsFinite) :
    ((Summary.empty maxReturns).addAll ps).Bounds (ps.map (·.position)) := by
  have hbox := (Summary.empty maxReturns).box_addAll ps
  have hfinite : ∀ t ∈ ps.map (·.position), t.IsFinite := by
    intro t ht
    obtain ⟨p, hp, rfl⟩ := List.mem_map.mp ht
    exact h p hp
  constructor
  · intro hnone
    rw [hbox, hnone]
    rfl
  · intro hsome
    have hspans := Box.spans_foldl hsome hfinite
    rw [hbox]
    exact ⟨hspans, hspans.hasZ, hspans.isEmpty⟩

end Summary

/-- A header gives the bounds of points, and zero bounds if there are none. -/
theorem Header.bounds_of_bounds {s : Summary} {positions : List (Triple Double)}
    (h : s.Bounds positions) :
    (positions = [] → Header.bounds s = ⟨.same .zero, .same .zero⟩) ∧
      (positions ≠ [] → (Header.bounds s).Spans positions) := by
  constructor
  · intro hnone
    rw [bounds, h.none hnone]
    rfl
  · intro hsome
    obtain ⟨hspans, -, hempty⟩ := h.some hsome
    simpa [bounds, hempty] using hspans

end PointCloud
