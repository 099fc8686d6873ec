import PointCloud.Proofs.Boxes.Growing

/-!
# Clipping tells whether boxes met

A box that is clipped by another one keeps, on each axis that both have, the
coordinates that lie in both intervals: a larger least one and a smaller greatest
one.  If the intervals do not meet, what is left is inverted, and the box is empty.
So a caller learns from `isEmpty` afterwards whether the boxes overlapped before.

On the z axis the result may be the mark of a flat box.  Of ordered intervals only
the two ends of the finite coordinates, one on top of the largest double and one
on the least, are cut down to it; this is `ArePoles`.  A box at one end that is
clipped by a box at the other comes out flat, and if the two meet on the plane it
is not empty although they did not overlap.  No other boxes are misjudged.
-/

namespace PointCloud.Box

/-- What two boxes have in common on every axis, their z intervals taken as they are. -/
def cut (a b : Box) : Box :=
  ⟨Triple.zipWith Double.greatest a.min b.min, Triple.zipWith Double.least a.max b.max⟩

/-- Whether the intervals of two boxes on an axis have a coordinate in common. -/
def Meets (a b : Box) (axis : Axis) : Prop :=
  a.min.get axis ≤ b.max.get axis ∧ b.min.get axis ≤ a.max.get axis

/-- Whether the interval of a box on an axis is not inverted. -/
def IsOrdered (b : Box) (axis : Axis) : Prop :=
  (b.min.get axis).rank ≤ (b.max.get axis).rank

/-- Whether the z interval of a box is a single coordinate. -/
def StandsAt (b : Box) (z : Double) : Prop := b.min.z = z ∧ b.max.z = z

/-- Whether one z interval is the largest double alone and the other one the least. -/
def ArePoles (a b : Box) : Prop :=
  a.StandsAt Double.highest ∧ b.StandsAt Double.lowest ∨
    a.StandsAt Double.lowest ∧ b.StandsAt Double.highest

variable {a b c : Box}

/-! ### The common part -/

/-- A cut takes its bounds from the two boxes, so it is as finite as they are. -/
theorem IsFinite.cut (ha : a.IsFinite) (hb : b.IsFinite) : (a.cut b).IsFinite := by
  constructor
  · intro axis
    rw [Box.cut, Triple.get_zipWith]
    obtain h | h := Double.greatest_cases (a.min.get axis) (b.min.get axis)
    · rw [h]
      exact ha.1 axis
    · rw [h]
      exact hb.1 axis
  · intro axis
    rw [Box.cut, Triple.get_zipWith]
    obtain h | h := Double.least_cases (a.max.get axis) (b.max.get axis)
    · rw [h]
      exact ha.2 axis
    · rw [h]
      exact hb.2 axis

/-- The least coordinate of a cut is the larger of the two least ones. -/
theorem rank_min_cut (ha : a.IsNumber) (hb : b.IsNumber) (axis : Axis) :
    ((a.cut b).min.get axis).rank = Max.max (a.min.get axis).rank (b.min.get axis).rank := by
  rw [Box.cut, Triple.get_zipWith]
  exact Double.rank_greatest (ha axis).1 (hb axis).1

/-- The greatest coordinate of a cut is the smaller of the two greatest ones. -/
theorem rank_max_cut (ha : a.IsNumber) (hb : b.IsNumber) (axis : Axis) :
    ((a.cut b).max.get axis).rank = Min.min (a.max.get axis).rank (b.max.get axis).rank := by
  rw [Box.cut, Triple.get_zipWith]
  exact Double.rank_least (ha axis).2 (hb axis).2

/-- Two intervals meet if each begins before the other one ends. -/
theorem meets_iff (ha : a.IsNumber) (hb : b.IsNumber) (axis : Axis) :
    Meets a b axis ↔ (a.min.get axis).rank ≤ (b.max.get axis).rank ∧
      (b.min.get axis).rank ≤ (a.max.get axis).rank := by
  simp [Meets, Double.le_def, ha axis, hb axis]

/-- What two intervals have in common is inverted exactly if they do not meet. -/
theorem isOrdered_cut_iff (ha : a.IsNumber) (hb : b.IsNumber) {axis : Axis}
    (hao : a.IsOrdered axis) (hbo : b.IsOrdered axis) :
    (a.cut b).IsOrdered axis ↔ Meets a b axis := by
  rw [meets_iff ha hb]
  simp only [IsOrdered, rank_min_cut ha hb, rank_max_cut ha hb] at hao hbo ⊢
  omega

/-- A cut covers what both boxes cover. -/
theorem covers_cut_iff (ha : a.IsNumber) (hb : b.IsNumber) (axis : Axis) :
    Covers (a.cut b) c axis ↔ Covers a c axis ∧ Covers b c axis := by
  simp only [Covers, rank_min_cut ha hb, rank_max_cut ha hb]
  omega

/-! ### Clipping on each axis -/

/-- Between two boxes with z intervals, clipping cuts on every axis. -/
theorem clip_of_hasZ (ha : a.hasZ = true) (hb : b.hasZ = true) : a.clip b = a.cut b := by
  simp [clip, cut, ha, hb]

/-- The z interval only changes if both boxes have one. -/
theorem z_clip (h : (a.hasZ && b.hasZ) = false) :
    (a.clip b).min.z = a.min.z ∧ (a.clip b).max.z = a.max.z := by
  simp [clip, h]

/-- Unless both boxes have z intervals, clipping leaves that of the first as it is. -/
theorem hasZ_clip (h : (a.hasZ && b.hasZ) = false) : (a.clip b).hasZ = a.hasZ := by
  obtain ⟨hmin, hmax⟩ := z_clip h
  rw [hasZ, hmin, hmax, hasZ]

/-- On the plane a clipped box is the common part. -/
theorem clip_of_ne_z (a b : Box) {axis : Axis} (h : axis ≠ .z) :
    (a.clip b).min.get axis = (a.cut b).min.get axis ∧
      (a.clip b).max.get axis = (a.cut b).max.get axis := by
  cases axis with
  | x => by_cases hz : (a.hasZ && b.hasZ) = true <;> simp [clip, cut, Triple.get, hz]
  | y => by_cases hz : (a.hasZ && b.hasZ) = true <;> simp [clip, cut, Triple.get, hz]
  | z => exact absurd rfl h

/-- Clipping makes no bounds that neither box had. -/
theorem IsFinite.clip (ha : a.IsFinite) (hb : b.IsFinite) : (a.clip b).IsFinite := by
  cases h : a.hasZ && b.hasZ with
  | true =>
    obtain ⟨haz, hbz⟩ := Bool.and_eq_true_iff.mp h
    rw [clip_of_hasZ haz hbz]
    exact ha.cut hb
  | false =>
    have hside : ∀ axis, ((a.clip b).min.get axis).isFinite = true ∧
        ((a.clip b).max.get axis).isFinite = true := by
      intro axis
      by_cases hz : axis = .z
      · obtain ⟨hmin, hmax⟩ := z_clip h
        subst hz
        simp only [Triple.get, hmin, hmax]
        exact ⟨ha.1 .z, ha.2 .z⟩
      · obtain ⟨hmin, hmax⟩ := clip_of_ne_z a b hz
        rw [hmin, hmax]
        exact ⟨(ha.cut hb).1 axis, (ha.cut hb).2 axis⟩
    exact ⟨fun axis => (hside axis).1, fun axis => (hside axis).2⟩

/-- On the plane, intervals in order are clipped to one in order just if they meet. -/
theorem isOrdered_clip_iff (ha : a.IsNumber) (hb : b.IsNumber) {axis : Axis} (hz : axis ≠ .z)
    (hao : a.IsOrdered axis) (hbo : b.IsOrdered axis) :
    (a.clip b).IsOrdered axis ↔ Meets a b axis := by
  obtain ⟨hmin, hmax⟩ := clip_of_ne_z a b hz
  rw [← isOrdered_cut_iff ha hb hao hbo, IsOrdered, IsOrdered, hmin, hmax]

/-- On the plane, what is clipped covers what both boxes cover. -/
theorem covers_clip_iff (ha : a.IsNumber) (hb : b.IsNumber) {axis : Axis} (hz : axis ≠ .z) :
    Covers (a.clip b) c axis ↔ Covers a c axis ∧ Covers b c axis := by
  obtain ⟨hmin, hmax⟩ := clip_of_ne_z a b hz
  rw [← covers_cut_iff ha hb, Covers, Covers, hmin, hmax]

/-! ### Empty and overlapping boxes on ranks -/

/-- A box is not empty just if its intervals are in order, the one on the z axis if there is one. -/
theorem isEmpty_eq_false_iff (hb : b.IsNumber) :
    b.isEmpty = false ↔ b.IsOrdered .x ∧ b.IsOrdered .y ∧ (b.hasZ = true → b.IsOrdered .z) := by
  have hx : ¬ b.max.x < b.min.x ↔ b.min.x ≤ b.max.x := Double.not_lt (hb .x).2 (hb .x).1
  have hy : ¬ b.max.y < b.min.y ↔ b.min.y ≤ b.max.y := Double.not_lt (hb .y).2 (hb .y).1
  have hz : ¬ b.max.z < b.min.z ↔ b.min.z ≤ b.max.z := Double.not_lt (hb .z).2 (hb .z).1
  have hordered : ∀ axis, b.min.get axis ≤ b.max.get axis ↔ b.IsOrdered axis := by
    intro axis
    simp [IsOrdered, Double.le_def, hb axis]
  have hox := hordered .x
  have hoy := hordered .y
  have hoz := hordered .z
  simp only [Triple.get] at hox hoy hoz
  cases hflat : b.hasZ <;> simp [isEmpty, hflat, hx, hy, hz, hox, hoy, hoz, and_assoc]

/-- Boxes overlap if they meet on each axis; the z axis counts if both have one. -/
theorem overlaps_iff :
    a.overlaps b = true ↔
      Meets a b .x ∧ Meets a b .y ∧ (a.hasZ = true → b.hasZ = true → Meets a b .z) := by
  cases haz : a.hasZ <;> cases hbz : b.hasZ <;>
    simp [overlaps, onAxes, Meets, haz, hbz, and_assoc]

/-! ### The mark of a flat box -/

/-- An ordered interval that reaches up to the largest double from below stands there. -/
theorem standsAt_highest_iff (hb : b.IsFinite) (ho : b.IsOrdered .z) :
    b.StandsAt Double.highest ↔ Double.highest.rank ≤ b.min.z.rank := by
  constructor
  · intro h
    rw [h.1]
  · intro hmin
    have hmax : Double.highest.rank ≤ b.max.z.rank := hmin.trans ho
    exact ⟨Double.eq_highest (hb.1 .z) fun hlt => absurd hlt.2.2 (not_lt.mpr hmin),
      Double.eq_highest (hb.2 .z) fun hlt => absurd hlt.2.2 (not_lt.mpr hmax)⟩

/-- A z interval in order stands at the lowest double if it does not reach above it. -/
theorem standsAt_lowest_iff (hb : b.IsFinite) (ho : b.IsOrdered .z) :
    b.StandsAt Double.lowest ↔ b.max.z.rank ≤ Double.lowest.rank := by
  constructor
  · intro h
    rw [h.2]
  · intro hmax
    have hmin : b.min.z.rank ≤ Double.lowest.rank := le_trans ho hmax
    exact ⟨Double.eq_lowest (hb.1 .z) fun hlt => absurd hlt.2.2 (not_lt.mpr hmin),
      Double.eq_lowest (hb.2 .z) fun hlt => absurd hlt.2.2 (not_lt.mpr hmax)⟩

/-- Ordered z intervals are cut down to the mark of a flat box only from the two poles. -/
theorem hasZ_cut_eq_false_iff (ha : a.IsFinite) (hb : b.IsFinite) (hao : a.IsOrdered .z)
    (hbo : b.IsOrdered .z) : (a.cut b).hasZ = false ↔ ArePoles a b := by
  have hna := ha.isNumber
  have hnb := hb.isNumber
  have hmin : (a.cut b).min.z.rank = Max.max a.min.z.rank b.min.z.rank := rank_min_cut hna hnb .z
  have hmax : (a.cut b).max.z.rank = Min.min a.max.z.rank b.max.z.rank := rank_max_cut hna hnb .z
  have hamin : a.min.z.rank ≤ Double.highest.rank := (Double.rank_of_isFinite (ha.1 .z)).2
  have hbmin : b.min.z.rank ≤ Double.highest.rank := (Double.rank_of_isFinite (hb.1 .z)).2
  have hamax : Double.lowest.rank ≤ a.max.z.rank := (Double.rank_of_isFinite (ha.2 .z)).1
  have hbmax : Double.lowest.rank ≤ b.max.z.rank := (Double.rank_of_isFinite (hb.2 .z)).1
  have haz : a.min.z.rank ≤ a.max.z.rank := hao
  have hbz : b.min.z.rank ≤ b.max.z.rank := hbo
  have hends : Double.lowest.rank < Double.highest.rank := by decide
  rw [hasZ_eq_false_iff (ha.cut hb).isNumber, hmin, hmax, ArePoles, standsAt_highest_iff ha hao,
    standsAt_lowest_iff ha hao, standsAt_highest_iff hb hbo, standsAt_lowest_iff hb hbo]
  omega

/-- A single coordinate is not the mark of a flat box. -/
theorem StandsAt.hasZ {z : Double} (h : b.StandsAt z) : b.hasZ = true := by
  have hends : Double.lowest.rank ≠ Double.highest.rank := by decide
  rw [Box.hasZ, h.1, h.2, Bool.not_eq_true', Bool.eq_false_iff, ne_eq, Bool.and_eq_true,
    Double.beq_iff, Double.beq_iff]
  rintro ⟨⟨-, -, hhighest⟩, ⟨-, -, hlowest⟩⟩
  exact hends (hlowest.symm.trans hhighest)

/-- The boxes of the exception both have z intervals. -/
theorem ArePoles.hasZ (h : ArePoles a b) : a.hasZ = true ∧ b.hasZ = true := by
  obtain ⟨ha, hb⟩ | ⟨ha, hb⟩ := h
  · exact ⟨ha.hasZ, hb.hasZ⟩
  · exact ⟨ha.hasZ, hb.hasZ⟩

/-- The z intervals of boxes at the two poles do not meet. -/
theorem ArePoles.not_meets (h : ArePoles a b) : ¬ Meets a b .z := by
  obtain ⟨⟨hamin, -⟩, ⟨-, hbmax⟩⟩ | ⟨⟨-, hamax⟩, ⟨hbmin, -⟩⟩ := h
  · intro hmeets
    have hle : a.min.z ≤ b.max.z := hmeets.1
    rw [hamin, hbmax] at hle
    revert hle
    decide
  · intro hmeets
    have hle : b.min.z ≤ a.max.z := hmeets.2
    rw [hamax, hbmin] at hle
    revert hle
    decide

/-! ### Clipping -/

/-- The clipped box is empty if the boxes do not meet on the plane or, where both have a z interval
and the common part has one too, above each other. -/
theorem isEmpty_clip_eq_false_iff (ha : a.IsFinite) (hb : b.IsFinite) (hane : a.isEmpty = false)
    (hbne : b.isEmpty = false) :
    (a.clip b).isEmpty = false ↔ Meets a b .x ∧ Meets a b .y ∧
      (a.hasZ = true → b.hasZ = true → ¬ ArePoles a b → Meets a b .z) := by
  have hna := ha.isNumber
  have hnb := hb.isNumber
  obtain ⟨hax, hay, haz⟩ := (isEmpty_eq_false_iff hna).mp hane
  obtain ⟨hbx, hby, hbz⟩ := (isEmpty_eq_false_iff hnb).mp hbne
  rw [isEmpty_eq_false_iff (ha.clip hb).isNumber, isOrdered_clip_iff hna hnb (by decide) hax hbx,
    isOrdered_clip_iff hna hnb (by decide) hay hby]
  cases hboth : a.hasZ && b.hasZ with
  | true =>
    obtain ⟨hasolid, hbsolid⟩ := Bool.and_eq_true_iff.mp hboth
    have hmark := hasZ_cut_eq_false_iff ha hb (haz hasolid) (hbz hbsolid)
    have hordered := isOrdered_cut_iff hna hnb (haz hasolid) (hbz hbsolid)
    simp only [clip_of_hasZ hasolid hbsolid, hordered, ← hmark, Bool.not_eq_false, hasolid, hbsolid,
      true_implies]
  | false =>
    -- The z interval is still that of the first box, which is ordered if there is one.
    obtain ⟨hmin, hmax⟩ := z_clip hboth
    have hkept : (a.clip b).hasZ = true → (a.clip b).IsOrdered .z := by
      intro h
      rw [hasZ_clip hboth] at h
      have hle := haz h
      simpa [IsOrdered, Triple.get, hmin, hmax] using hle
    have hflat : a.hasZ = true → b.hasZ = true → False := by
      intro hasolid hbsolid
      rw [hasolid, hbsolid] at hboth
      cases hboth
    refine and_congr_right fun _ => and_congr_right fun _ => ?_
    exact ⟨fun _ hasolid hbsolid => (hflat hasolid hbsolid).elim, fun _ => hkept⟩

/-- Where boxes are at the two poles, overlapping is decided on the z axis; being empty is not. -/
theorem isEmpty_clip_iff (ha : a.IsFinite) (hb : b.IsFinite) (hane : a.isEmpty = false)
    (hbne : b.isEmpty = false) :
    (a.clip b).isEmpty = !a.overlaps b ↔ ¬ (Meets a b .x ∧ Meets a b .y ∧ ArePoles a b) := by
  have hempty := isEmpty_clip_eq_false_iff ha hb hane hbne
  by_cases hpoles : ArePoles a b
  · have hapart : a.overlaps b = false := by
      rw [← Bool.not_eq_true, overlaps_iff]
      rintro ⟨-, -, hz⟩
      exact hpoles.not_meets (hz hpoles.hasZ.1 hpoles.hasZ.2)
    have hplane : (a.clip b).isEmpty = false ↔ Meets a b .x ∧ Meets a b .y := by
      rw [hempty]
      exact ⟨fun h => ⟨h.1, h.2.1⟩, fun h => ⟨h.1, h.2, fun _ _ hnot => (hnot hpoles).elim⟩⟩
    rw [hapart, Bool.not_false, ← Bool.not_eq_false, hplane]
    exact not_congr (and_congr_right fun _ => (and_iff_left hpoles).symm)
  · have hagree : (a.clip b).isEmpty = false ↔ a.overlaps b = true := by
      rw [hempty, overlaps_iff]
      simp only [hpoles, not_false_eq_true, true_implies]
    refine iff_of_true ?_ fun h => hpoles h.2.2
    cases hover : a.overlaps b with
    | true => exact hagree.mpr hover
    | false => exact eq_true_of_ne_false fun h => by simp [hagree.mp h] at hover

/-- What lies in a clipped box lies in both boxes, if both are flat or neither is and they are not
at the two poles. -/
theorem contains_clip_iff (ha : a.IsFinite) (hb : b.IsFinite) (hc : c.IsNumber)
    (hane : a.isEmpty = false) (hbne : b.isEmpty = false) (hsame : a.hasZ = b.hasZ)
    (hpoles : ¬ ArePoles a b) :
    (a.clip b).contains c = true ↔ a.contains c = true ∧ b.contains c = true := by
  have hna := ha.isNumber
  have hnb := hb.isNumber
  rw [contains_iff (ha.clip hb) hc, contains_iff ha hc, contains_iff hb hc,
    covers_clip_iff hna hnb (by decide), covers_clip_iff hna hnb (by decide)]
  cases haz : a.hasZ with
  | true =>
    have hbz : b.hasZ = true := hsame.symm.trans haz
    have hao := ((isEmpty_eq_false_iff hna).mp hane).2.2 haz
    have hbo := ((isEmpty_eq_false_iff hnb).mp hbne).2.2 hbz
    have hsolid : (a.cut b).hasZ = true := by
      rwa [← Bool.not_eq_false, hasZ_cut_eq_false_iff ha hb hao hbo]
    rw [clip_of_hasZ haz hbz, covers_cut_iff hna hnb]
    simp only [hsolid, hbz, true_implies]
    tauto
  | false =>
    have hbz : b.hasZ = false := hsame.symm.trans haz
    have hflat : (a.clip b).hasZ = false := (hasZ_clip (by rw [haz, Bool.false_and])).trans haz
    simp only [hflat, hbz, Bool.false_eq_true, false_implies, and_true]
    tauto

/-- Between finite boxes of one kind, it does not matter which is clipped by which. -/
theorem clip_comm (ha : a.IsFinite) (hb : b.IsFinite) (hsame : a.hasZ = b.hasZ) :
    (a.clip b == b.clip a) = true := by
  have hna := ha.isNumber
  have hnb := hb.isNumber
  have hcut : ∀ axis, ((a.cut b).min.get axis).rank = ((b.cut a).min.get axis).rank ∧
      ((a.cut b).max.get axis).rank = ((b.cut a).max.get axis).rank := by
    intro axis
    rw [rank_min_cut hna hnb, rank_min_cut hnb hna, rank_max_cut hna hnb, rank_max_cut hnb hna]
    exact ⟨max_comm _ _, min_comm _ _⟩
  apply beq_of_rank (ha.clip hb).isNumber (hb.clip ha).isNumber
  intro axis
  cases haz : a.hasZ with
  | true =>
    have hbz : b.hasZ = true := hsame.symm.trans haz
    rw [clip_of_hasZ haz hbz, clip_of_hasZ hbz haz]
    exact hcut axis
  | false =>
    have hbz : b.hasZ = false := hsame.symm.trans haz
    by_cases hz : axis = .z
    · obtain ⟨hmin, hmax⟩ := z_clip (a := a) (b := b) (by rw [haz, Bool.false_and])
      obtain ⟨hmin', hmax'⟩ := z_clip (a := b) (b := a) (by rw [hbz, Bool.false_and])
      obtain ⟨halow, hahigh⟩ := (hasZ_eq_false_iff hna).mp haz
      obtain ⟨hblow, hbhigh⟩ := (hasZ_eq_false_iff hnb).mp hbz
      subst hz
      simp only [Triple.get, hmin, hmax, hmin', hmax']
      exact ⟨halow.trans hblow.symm, hahigh.trans hbhigh.symm⟩
    · obtain ⟨hmin, hmax⟩ := clip_of_ne_z a b hz
      obtain ⟨hmin', hmax'⟩ := clip_of_ne_z b a hz
      rw [hmin, hmax, hmin', hmax']
      exact hcut axis

/-- Boxes at the two poles are clipped to a flat box. -/
theorem ArePoles.mark_clip (h : ArePoles a b) :
    (a.clip b).min.z = Double.highest ∧ (a.clip b).max.z = Double.lowest := by
  have hup : Double.greatest Double.highest Double.lowest = Double.highest := by decide
  have hup' : Double.greatest Double.lowest Double.highest = Double.highest := by decide
  have hdown : Double.least Double.highest Double.lowest = Double.lowest := by decide
  have hdown' : Double.least Double.lowest Double.highest = Double.lowest := by decide
  rw [clip_of_hasZ h.hasZ.1 h.hasZ.2]
  obtain ⟨⟨hamin, hamax⟩, hbmin, hbmax⟩ | ⟨⟨hamin, hamax⟩, hbmin, hbmax⟩ := h
  · simp only [cut, Triple.zipWith, hamin, hamax, hbmin, hbmax]
    exact ⟨hup, hdown⟩
  · simp only [cut, Triple.zipWith, hamin, hamax, hbmin, hbmax]
    exact ⟨hup', hdown'⟩

/-- What a box that was clipped tells about the two boxes. -/
structure ClipTells (a b : Box) : Prop where
  /-- Empty means apart, with one exception. -/
  isEmpty : (a.clip b).isEmpty = !a.overlaps b ↔ ¬ (Meets a b .x ∧ Meets a b .y ∧ ArePoles a b)
  /-- At the poles the result is marked as flat. -/
  mark : ArePoles a b → (a.clip b).min.z = Double.highest ∧ (a.clip b).max.z = Double.lowest
  /-- Two flat boxes, or two that are not, may be clipped either way. -/
  comm : a.hasZ = b.hasZ → (a.clip b == b.clip a) = true
  /-- Such boxes leave what lies in both of them. -/
  contains : a.hasZ = b.hasZ → ¬ ArePoles a b → ∀ c : Box, c.IsFinite →
    ((a.clip b).contains c = true ↔ a.contains c = true ∧ b.contains c = true)
  /-- A box keeps its z interval if the other one is flat, and its mark if the other one is not. -/
  mixed : a.hasZ ≠ b.hasZ → (a.clip b).min.z = a.min.z ∧ (a.clip b).max.z = a.max.z

/-- **Clipping tells whether boxes met.**  Of finite boxes that are not empty, flat ones among them,
the clipped one is empty exactly if the two did not overlap, but for boxes that meet on the plane
and are at the two poles: these did not overlap and are not empty.  Boxes are equal here if their
sides are equal as numbers. -/
theorem clipTells_of_isFinite {a b : Box} (ha : a.IsFinite) (hb : b.IsFinite)
    (hane : a.isEmpty = false) (hbne : b.isEmpty = false) : ClipTells a b where
  isEmpty := isEmpty_clip_iff ha hb hane hbne
  mark := ArePoles.mark_clip
  comm := clip_comm ha hb
  contains := fun hsame hpoles _ hc =>
    contains_clip_iff ha hb hc.isNumber hane hbne hsame hpoles
  mixed := by
    intro hne
    apply z_clip
    cases haz : a.hasZ <;> cases hbz : b.hasZ <;> simp_all

/-- A box from 0 to 1 at the largest z coordinate there is. -/
def summit : Box :=
  ⟨⟨.zero, .zero, .highest⟩, ⟨⟨0x3FF0000000000000⟩, ⟨0x3FF0000000000000⟩, .highest⟩⟩

/-- A box that touches the summit in a corner of the plane, at the least z coordinate there is. -/
def abyss : Box :=
  ⟨⟨⟨0xC000000000000000⟩, ⟨0xC000000000000000⟩, .lowest⟩,
    ⟨⟨0x8000000000000000⟩, ⟨0x8000000000000000⟩, .lowest⟩⟩

/-- Two boxes at the poles are apart, and clipping does not tell. -/
theorem clipTells_summit : summit.IsFinite ∧ abyss.IsFinite ∧ summit.isEmpty = false ∧
    abyss.isEmpty = false ∧ ClipTells summit abyss ∧ summit.overlaps abyss = false ∧
    (summit.clip abyss).isEmpty = false := by
  have hsummit : summit.IsFinite := by
    constructor <;> intro axis <;> cases axis <;> decide
  have habyss : abyss.IsFinite := by
    constructor <;> intro axis <;> cases axis <;> decide
  have hsome : summit.isEmpty = false ∧ abyss.isEmpty = false := by decide
  exact ⟨hsummit, habyss, hsome.1, hsome.2,
    clipTells_of_isFinite hsummit habyss hsome.1 hsome.2, by decide, by decide⟩

end PointCloud.Box
