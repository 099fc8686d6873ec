import PointCloud.Proofs.Coordinates.Extremes

/-!
# Growing as a join

Among doubles that are numbers, the smaller and the larger one are the minimum and
the maximum of their ranks.  So growing is a join of boxes: it is commutative,
associative and idempotent, and a box contains the result exactly if it contains
both operands.  All of this is up to the sign of a zero, which ranks do not have.

The mark of a flat box needs no case of its own.  Its z interval is the one that
every finite interval contains and that changes none that it is joined with, so a
flat box is one that is `nowhere` on the z axis.
-/

namespace PointCloud

namespace Double

variable {x y : Double}

/-- Two doubles are equal as numbers if both are numbers and have the same rank. -/
theorem beq_iff : (x == y) = true ↔ x.isNaN = false ∧ y.isNaN = false ∧ x.rank = y.rank := by
  simp [beq_def, and_assoc]

/-- The smaller of two doubles is one of them. -/
theorem least_cases (x y : Double) : least x y = x ∨ least x y = y := by
  unfold least
  by_cases hy : y.isNaN = true
  · exact .inl (if_pos hy)
  · by_cases hlt : x < y <;> simp [hy, hlt]

theorem greatest_cases (x y : Double) : greatest x y = x ∨ greatest x y = y := by
  unfold greatest
  by_cases hy : y.isNaN = true
  · exact .inl (if_pos hy)
  · by_cases hlt : y < x <;> simp [hy, hlt]

/-- The smaller of two numbers is a number. -/
theorem isNaN_least (hx : x.isNaN = false) (hy : y.isNaN = false) :
    (least x y).isNaN = false := by
  obtain h | h := least_cases x y
  · rw [h, hx]
  · rw [h, hy]

theorem isNaN_greatest (hx : x.isNaN = false) (hy : y.isNaN = false) :
    (greatest x y).isNaN = false := by
  obtain h | h := greatest_cases x y
  · rw [h, hx]
  · rw [h, hy]

/-- Between numbers, the smaller double has the smaller rank. -/
theorem rank_least (hx : x.isNaN = false) (hy : y.isNaN = false) :
    (least x y).rank = min x.rank y.rank := by
  rw [least, if_neg (by simp [hy])]
  by_cases hlt : x < y
  · have hrank := hlt.2.2
    rw [if_pos hlt]
    omega
  · have hrank := ((not_lt hx hy).mp hlt).2.2
    rw [if_neg hlt]
    omega

theorem rank_greatest (hx : x.isNaN = false) (hy : y.isNaN = false) :
    (greatest x y).rank = max x.rank y.rank := by
  rw [greatest, if_neg (by simp [hy])]
  by_cases hlt : y < x
  · have hrank := hlt.2.2
    rw [if_pos hlt]
    omega
  · have hrank := ((not_lt hy hx).mp hlt).2.2
    rw [if_neg hlt]
    omega

/-- Taking a new double only where it is below the old one gives the smaller of both, but for the
sign of a zero. -/
theorem beq_least (hx : x.isNaN = false) : ((if y < x then y else x) == least x y) = true := by
  cases hy : y.isNaN with
  | true =>
    have hnot : ¬ y < x := fun hlt => by simp [hlt.1] at hy
    rw [if_neg hnot, least, if_pos hy]
    exact beq_iff.mpr ⟨hx, hx, rfl⟩
  | false =>
    have hrank := rank_least hx hy
    by_cases hlt : y < x
    · have hbelow := hlt.2.2
      rw [if_pos hlt]
      exact beq_iff.mpr ⟨hy, isNaN_least hx hy, by omega⟩
    · have hbelow := ((not_lt hy hx).mp hlt).2.2
      rw [if_neg hlt]
      exact beq_iff.mpr ⟨hx, isNaN_least hx hy, by omega⟩

/-- Taking a new double only where it is above the old one gives the larger of both. -/
theorem beq_greatest (hx : x.isNaN = false) :
    ((if x < y then y else x) == greatest x y) = true := by
  cases hy : y.isNaN with
  | true =>
    have hnot : ¬ x < y := fun hlt => by simp [hlt.2.1] at hy
    rw [if_neg hnot, greatest, if_pos hy]
    exact beq_iff.mpr ⟨hx, hx, rfl⟩
  | false =>
    have hrank := rank_greatest hx hy
    by_cases hlt : x < y
    · have habove := hlt.2.2
      rw [if_pos hlt]
      exact beq_iff.mpr ⟨hy, isNaN_greatest hx hy, by omega⟩
    · have habove := ((not_lt hx hy).mp hlt).2.2
      rw [if_neg hlt]
      exact beq_iff.mpr ⟨hx, isNaN_greatest hx hy, by omega⟩

/-- A finite double ranks between the least and the largest one. -/
theorem rank_of_isFinite (h : x.isFinite = true) :
    lowest.rank ≤ x.rank ∧ x.rank ≤ highest.rank := by
  have hlowest : lowest.rank = -0x7FEFFFFFFFFFFFFF := by decide
  have hhighest : highest.rank = 0x7FEFFFFFFFFFFFFF := by decide
  have hmagnitude : x.magnitude < 0x7FF0000000000000 := of_decide_eq_true h
  rw [hlowest, hhighest, rank]
  split <;> omega

end Double

namespace Box

/-- Whether no side of the box is a NaN. -/
def IsNumber (b : Box) : Prop :=
  ∀ axis, (b.min.get axis).isNaN = false ∧ (b.max.get axis).isNaN = false

/-- Whether all sides of the box are finite. -/
def IsFinite (b : Box) : Prop := b.min.IsFinite ∧ b.max.IsFinite

variable {a b c : Box}

theorem IsFinite.isNumber (h : b.IsFinite) : b.IsNumber := fun axis =>
  ⟨Double.isNaN_of_isFinite (h.1 axis), Double.isNaN_of_isFinite (h.2 axis)⟩

/-- The mark of an empty box is made of finite doubles. -/
theorem isFinite_nowhere : nowhere.IsFinite := by
  constructor <;> intro axis <;> cases axis <;> decide

/-- Boxes with equal sides are equal. -/
theorem beq_of_axes (h : ∀ axis, (a.min.get axis == b.min.get axis) = true ∧
    (a.max.get axis == b.max.get axis) = true) : (a == b) = true := by
  obtain ⟨hxmin, hxmax⟩ := h .x
  obtain ⟨hymin, hymax⟩ := h .y
  obtain ⟨hzmin, hzmax⟩ := h .z
  have hmin : (a.min == b.min) = true :=
    Bool.and_eq_true_iff.mpr ⟨hxmin, Bool.and_eq_true_iff.mpr ⟨hymin, hzmin⟩⟩
  have hmax : (a.max == b.max) = true :=
    Bool.and_eq_true_iff.mpr ⟨hxmax, Bool.and_eq_true_iff.mpr ⟨hymax, hzmax⟩⟩
  exact Bool.and_eq_true_iff.mpr ⟨hmin, hmax⟩

/-- Boxes of numbers are equal if their sides have the same ranks. -/
theorem beq_of_rank (ha : a.IsNumber) (hb : b.IsNumber)
    (h : ∀ axis, (a.min.get axis).rank = (b.min.get axis).rank ∧
      (a.max.get axis).rank = (b.max.get axis).rank) : (a == b) = true := by
  apply beq_of_axes
  intro axis
  exact ⟨Double.beq_iff.mpr ⟨(ha axis).1, (hb axis).1, (h axis).1⟩,
    Double.beq_iff.mpr ⟨(ha axis).2, (hb axis).2, (h axis).2⟩⟩

/-! ### Growing on ranks -/

/-- Growing makes no NaN where there was none. -/
theorem IsNumber.grow (ha : a.IsNumber) (hb : b.IsNumber) : (a.grow b).IsNumber := by
  intro axis
  obtain ⟨hamin, hamax⟩ := ha axis
  obtain ⟨hbmin, hbmax⟩ := hb axis
  rw [Box.grow, Triple.get_zipWith, Triple.get_zipWith]
  exact ⟨Double.isNaN_least hamin hbmin, Double.isNaN_greatest hamax hbmax⟩

/-- The least coordinate of two boxes together is the smaller of the two least ones. -/
theorem rank_min_grow (ha : a.IsNumber) (hb : b.IsNumber) (axis : Axis) :
    ((a.grow b).min.get axis).rank = Min.min (a.min.get axis).rank (b.min.get axis).rank := by
  rw [Box.grow, Triple.get_zipWith]
  exact Double.rank_least (ha axis).1 (hb axis).1

/-- The greatest coordinate of two boxes together is the larger of the two greatest ones. -/
theorem rank_max_grow (ha : a.IsNumber) (hb : b.IsNumber) (axis : Axis) :
    ((a.grow b).max.get axis).rank = Max.max (a.max.get axis).rank (b.max.get axis).rank := by
  rw [Box.grow, Triple.get_zipWith]
  exact Double.rank_greatest (ha axis).2 (hb axis).2

/-- It does not matter which box grows by which. -/
theorem grow_comm (ha : a.IsNumber) (hb : b.IsNumber) : (a.grow b == b.grow a) = true := by
  apply beq_of_rank (ha.grow hb) (hb.grow ha)
  intro axis
  rw [rank_min_grow ha hb, rank_min_grow hb ha, rank_max_grow ha hb, rank_max_grow hb ha]
  exact ⟨min_comm _ _, max_comm _ _⟩

/-- It does not matter in what order several boxes are joined. -/
theorem grow_assoc (ha : a.IsNumber) (hb : b.IsNumber) (hc : c.IsNumber) :
    ((a.grow b).grow c == a.grow (b.grow c)) = true := by
  apply beq_of_rank ((ha.grow hb).grow hc) (ha.grow (hb.grow hc))
  intro axis
  rw [rank_min_grow (ha.grow hb) hc, rank_min_grow ha hb, rank_min_grow ha (hb.grow hc),
    rank_min_grow hb hc, rank_max_grow (ha.grow hb) hc, rank_max_grow ha hb,
    rank_max_grow ha (hb.grow hc), rank_max_grow hb hc]
  exact ⟨min_assoc _ _ _, max_assoc _ _ _⟩

/-- A box does not grow by itself. -/
theorem grow_self (ha : a.IsNumber) : (a.grow a == a) = true := by
  apply beq_of_rank (ha.grow ha) ha
  intro axis
  rw [rank_min_grow ha ha, rank_max_grow ha ha]
  exact ⟨min_self _, max_self _⟩

/-- The box of no point changes no finite box. -/
theorem grow_nowhere (ha : a.IsFinite) : (a.grow nowhere == a) = true := by
  have hnowhere := isFinite_nowhere.isNumber
  apply beq_of_rank (ha.isNumber.grow hnowhere) ha.isNumber
  intro axis
  rw [rank_min_grow ha.isNumber hnowhere, rank_max_grow ha.isNumber hnowhere]
  simp only [nowhere, Triple.get_same]
  exact ⟨min_eq_left (Double.rank_of_isFinite (ha.1 axis)).2,
    max_eq_left (Double.rank_of_isFinite (ha.2 axis)).1⟩

/-- An empty box that grows by another becomes that one. -/
theorem nowhere_grow (ha : a.IsFinite) : (nowhere.grow a == a) = true := by
  have hnowhere := isFinite_nowhere.isNumber
  apply beq_of_rank (hnowhere.grow ha.isNumber) ha.isNumber
  intro axis
  rw [rank_min_grow hnowhere ha.isNumber, rank_max_grow hnowhere ha.isNumber]
  simp only [nowhere, Triple.get_same]
  exact ⟨min_eq_right (Double.rank_of_isFinite (ha.1 axis)).2,
    max_eq_right (Double.rank_of_isFinite (ha.2 axis)).1⟩

/-- Extending a box to a point is growing it by the box of the point, which may have no numbers for
coordinates. -/
theorem growPoint_eq_grow (ha : a.IsNumber) (p : Triple Double) :
    (a.growPoint p == a.grow (point p)) = true := by
  apply beq_of_axes
  intro axis
  simp only [growPoint, grow, point, Triple.get_zipWith]
  exact ⟨Double.beq_least (ha axis).1, Double.beq_greatest (ha axis).2⟩

/-! ### The z interval -/

/-- A box of numbers is flat if its z interval has the ranks of the mark. -/
theorem hasZ_eq_false_iff (hb : b.IsNumber) :
    b.hasZ = false ↔ b.min.z.rank = Double.highest.rank ∧ b.max.z.rank = Double.lowest.rank := by
  have hmin : b.min.z.isNaN = false := (hb .z).1
  have hmax : b.max.z.isNaN = false := (hb .z).2
  have hhighest : Double.highest.isNaN = false := by decide
  have hlowest : Double.lowest.isNaN = false := by decide
  simp [hasZ, Double.beq_def, hmin, hmax, hhighest, hlowest]

/-- A join is flat exactly if both operands are. -/
theorem flat_grow_iff (ha : a.IsFinite) (hb : b.IsFinite) :
    (a.grow b).hasZ = false ↔ a.hasZ = false ∧ b.hasZ = false := by
  have hna := ha.isNumber
  have hnb := hb.isNumber
  have hmin : (a.grow b).min.z.rank = Min.min a.min.z.rank b.min.z.rank :=
    rank_min_grow hna hnb .z
  have hmax : (a.grow b).max.z.rank = Max.max a.max.z.rank b.max.z.rank :=
    rank_max_grow hna hnb .z
  have hamin : a.min.z.rank ≤ Double.highest.rank := (Double.rank_of_isFinite (ha.1 .z)).2
  have hamax : Double.lowest.rank ≤ a.max.z.rank := (Double.rank_of_isFinite (ha.2 .z)).1
  have hbmin : b.min.z.rank ≤ Double.highest.rank := (Double.rank_of_isFinite (hb.1 .z)).2
  have hbmax : Double.lowest.rank ≤ b.max.z.rank := (Double.rank_of_isFinite (hb.2 .z)).1
  rw [hasZ_eq_false_iff (hna.grow hnb), hasZ_eq_false_iff hna, hasZ_eq_false_iff hnb]
  omega

/-! ### Containment -/

/-- Whether the interval of the first box on an axis covers that of the second. -/
def Covers (c b : Box) (axis : Axis) : Prop :=
  (c.min.get axis).rank ≤ (b.min.get axis).rank ∧ (b.max.get axis).rank ≤ (c.max.get axis).rank

/-- A box covers two together just if it covers each of them. -/
theorem covers_grow_iff (ha : a.IsNumber) (hb : b.IsNumber) (axis : Axis) :
    Covers c (a.grow b) axis ↔ Covers c a axis ∧ Covers c b axis := by
  simp only [Covers, rank_min_grow ha hb, rank_max_grow ha hb]
  omega

/-- A flat box is covered on the z axis by every finite one. -/
theorem covers_of_flat (hc : c.IsFinite) (hb : b.IsNumber) (h : b.hasZ = false) :
    Covers c b .z := by
  obtain ⟨hmin, hmax⟩ := (hasZ_eq_false_iff hb).mp h
  have hlow : c.min.z.rank ≤ Double.highest.rank := (Double.rank_of_isFinite (hc.1 .z)).2
  have hhigh : Double.lowest.rank ≤ c.max.z.rank := (Double.rank_of_isFinite (hc.2 .z)).1
  exact ⟨hlow.trans_eq hmin.symm, hmax.trans_le hhigh⟩

/-- What lies in a finite box has to be covered on the axes that the finite box has. -/
theorem contains_iff (hc : c.IsFinite) (hb : b.IsNumber) :
    c.contains b = true ↔
      Covers c b .x ∧ Covers c b .y ∧ (c.hasZ = true → Covers c b .z) := by
  have hnc := hc.isNumber
  have hagree : ∀ axis, (c.min.get axis ≤ b.min.get axis ∧ b.max.get axis ≤ c.max.get axis) ↔
      Covers c b axis := by
    intro axis
    simp [Covers, Double.le_def, hnc axis, hb axis]
  have hflat : b.hasZ = false → Covers c b .z := covers_of_flat hc hb
  simp only [contains, onAxes, Bool.and_eq_true, Bool.or_eq_true, Bool.not_eq_true',
    decide_eq_true_eq, hagree]
  cases hzc : c.hasZ <;> cases hzb : b.hasZ <;> simp_all [and_assoc]

/-- A finite box contains a join exactly if it contains both operands. -/
theorem contains_grow_iff (ha : a.IsNumber) (hb : b.IsNumber) (hc : c.IsFinite) :
    c.contains (a.grow b) = true ↔ c.contains a = true ∧ c.contains b = true := by
  rw [contains_iff hc (ha.grow hb), contains_iff hc ha, contains_iff hc hb,
    covers_grow_iff ha hb, covers_grow_iff ha hb, covers_grow_iff ha hb]
  tauto

/-- The laws of growing as a join, where boxes are equal if their sides are equal as numbers. -/
structure Joins (a b c : Box) : Prop where
  comm : (a.grow b == b.grow a) = true
  assoc : ((a.grow b).grow c == a.grow (b.grow c)) = true
  idempotent : (a.grow a == a) = true
  identity : (a.grow nowhere == a) = true ∧ (nowhere.grow a == a) = true
  least : c.contains (a.grow b) = true ↔ c.contains a = true ∧ c.contains b = true
  flat : (a.grow b).hasZ = false ↔ a.hasZ = false ∧ b.hasZ = false
  point : ∀ p : Triple Double, (a.growPoint p == a.grow (.point p)) = true

/-- **Growing is a join** of boxes with finite sides, flat, empty and inverted ones among them, and
extending a box to a point is the join with the box of the point. -/
theorem joins_of_isFinite {a b c : Box} (ha : a.IsFinite) (hb : b.IsFinite) (hc : c.IsFinite) :
    Joins a b c where
  comm := grow_comm ha.isNumber hb.isNumber
  assoc := grow_assoc ha.isNumber hb.isNumber hc.isNumber
  idempotent := grow_self ha.isNumber
  identity := ⟨grow_nowhere ha, nowhere_grow ha⟩
  least := contains_grow_iff ha.isNumber hb.isNumber hc
  flat := flat_grow_iff ha hb
  point := growPoint_eq_grow ha.isNumber

/-- A flat box, from -0 to 2 on both axes. -/
def meadow : Box :=
  flat ⟨0x8000000000000000⟩ ⟨0x8000000000000000⟩ ⟨0x4000000000000000⟩ ⟨0x4000000000000000⟩

/-- A box from 0 to 1 that is inverted on the z axis. -/
def hollow : Box :=
  ⟨⟨.zero, .zero, ⟨0x3FF0000000000000⟩⟩, ⟨⟨0x3FF0000000000000⟩, ⟨0x3FF0000000000000⟩, .zero⟩⟩

/-- A flat box, an inverted one and the box of all finite coordinates.  The zeros on the left have
both signs. -/
theorem joins_meadow : meadow.IsFinite ∧ hollow.IsFinite ∧ everything.IsFinite ∧
    Joins meadow hollow everything := by
  have hmeadow : meadow.IsFinite := by
    constructor <;> intro axis <;> cases axis <;> decide
  have hhollow : hollow.IsFinite := by
    constructor <;> intro axis <;> cases axis <;> decide
  have heverything : everything.IsFinite := by
    constructor <;> intro axis <;> cases axis <;> decide
  exact ⟨hmeadow, hhollow, heverything, joins_of_isFinite hmeadow hhollow heverything⟩

end Box

end PointCloud
