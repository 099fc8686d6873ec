import PointCloud.Proofs.Boxes.Grammar
import PointCloud.Proofs.Boxes.Growing
import PointCloud.Proofs.Decimal.ReadBack

/-!
# Boxes read back from their texts

The text of a box is in the grammar of box texts, with one interval for each axis
that the box has, `exists_text`.  Numbers are read back bit for bit, so the box
that the text denotes has the sides it was written with, and the reader finds that
box.  All boxes of numbers come back, whether they are empty, inverted, infinite or
have sides equal to one half of the mark of flat boxes: only the whole mark is left
out, and a box without a z interval gets it back.
-/

namespace PointCloud

open Text (Blanks Padded blanks_nil)

/-- Only the two zeros share a rank. -/
theorem Double.eq_of_rank {x y : Double} (h : x.rank = y.rank) (hzero : y.rank ≠ 0) : x = y := by
  unfold rank at h hzero
  cases hx : x.isNegative <;> cases hy : y.isNegative <;>
    simp only [hx, hy, if_true, Bool.false_eq_true, if_false] at h hzero
  · exact eq_of_magnitude (hx.trans hy.symm) (by omega)
  · omega
  · omega
  · exact eq_of_magnitude (hx.trans hy.symm) (by omega)

namespace Box

/-- The intervals that the text of a box has.  The pair of z coordinates that says that there is no
z interval is left out. -/
def intervals (b : Box) : List (Double × Double) :=
  let plane := [(b.min.x, b.max.x), (b.min.y, b.max.y)]
  if b.min.z = Double.highest ∧ b.max.z = Double.lowest then plane
  else plane ++ [(b.min.z, b.max.z)]

variable {b : Box}

/-- Of boxes without NaNs, those without a z interval have the mark of one. -/
theorem hasZ_eq_false_iff_mark (hb : b.IsNumber) :
    b.hasZ = false ↔ b.min.z = Double.highest ∧ b.max.z = Double.lowest := by
  rw [hasZ_eq_false_iff hb]
  constructor
  · intro h
    exact ⟨Double.eq_of_rank h.1 (by decide), Double.eq_of_rank h.2 (by decide)⟩
  · intro h
    exact ⟨congrArg _ h.1, congrArg _ h.2⟩

theorem blanks_space : Blanks [' '] := by
  intro c hc
  rw [List.mem_singleton.mp hc]
  decide

/-- A number that is written out is the text of a number, with no blanks around it. -/
theorem padded_plain {x : Double} (h : x.isNaN = false) :
    Padded (IsNumberText x) (Decimal.plain x).toList := by
  refine ⟨[], (Decimal.plain x).toList, [], blanks_nil, ?_, blanks_nil, (List.append_nil _).symm⟩
  rw [IsNumberText, String.ofList_toList]
  exact Decimal.read?_plain h

/-- An interval that is written out is the text of one. -/
theorem padded_intervalText {low high : Double} (hlow : low.isNaN = false)
    (hhigh : high.isNaN = false) :
    Padded (IsIntervalText (low, high)) (intervalText low high).toList := by
  have hinterval : IsIntervalText (low, high) (intervalText low high).toList := by
    refine ⟨(Decimal.plain low).toList, ' ' :: (Decimal.plain high).toList, padded_plain hlow,
      (padded_plain hhigh).prepend blanks_space, ?_⟩
    simp [intervalText, toString]
  exact ⟨[], _, [], blanks_nil, hinterval, blanks_nil, (List.append_nil _).symm⟩

/-- The text of a box is the texts of its intervals between brackets. -/
theorem exists_text (hb : b.IsNumber) :
    ∃ inside, b.text.toList = '(' :: (inside ++ [')']) ∧ AreIntervalTexts b.intervals inside := by
  have hx := padded_intervalText (hb .x).1 (hb .x).2
  have hy := (padded_intervalText (hb .y).1 (hb .y).2).prepend blanks_space
  have hz := (padded_intervalText (hb .z).1 (hb .z).2).prepend blanks_space
  unfold text intervals
  cases hflat : b.hasZ with
  | false =>
    rw [if_pos ((hasZ_eq_false_iff_mark hb).mp hflat)]
    refine ⟨_, ?_, .more hx (.last hy)⟩
    simp [toString, Triple.get]
  | true =>
    have hmark : ¬ (b.min.z = Double.highest ∧ b.max.z = Double.lowest) := by
      intro h
      rw [(hasZ_eq_false_iff_mark hb).mpr h] at hflat
      cases hflat
    rw [if_neg hmark]
    refine ⟨_, ?_, .more hx (.more hy (.last hz))⟩
    simp [toString, Triple.get]

example : (flat .zero (-.zero) .infinity .zero).text = "([0, inf], [-0, 0])" := by decide

/-- The texts of the intervals of a box make up a text of the box. -/
theorem isBoxText_intervals {inside : List Char} (h : AreIntervalTexts b.intervals inside) :
    IsBoxText b ('(' :: (inside ++ [')'])) := by
  unfold intervals at h
  simp only at h
  split at h
  · next hmark =>
    have hflat : b = flat b.min.x b.min.y b.max.x b.max.y := by
      obtain ⟨⟨_, _, low⟩, ⟨_, _, high⟩⟩ := b
      obtain ⟨rfl, rfl⟩ := hmark
      rfl
    rw [hflat]
    exact .flat h
  · exact .full h

/-- **A box is read back from its text**, with every bit of its six sides.  The text has the z
interval unless it is the mark of flat boxes. -/
theorem parse_text (hb : b.IsNumber) :
    parse b.text = .ok b ∧
      ∃ inside, b.text.toList = '(' :: (inside ++ [')']) ∧ AreIntervalTexts b.intervals inside := by
  obtain ⟨inside, htext, hinside⟩ := exists_text hb
  refine ⟨?_, inside, htext, hinside⟩
  have htrim : Text.trim b.text.toList = b.text.toList := by
    rw [htext]
    apply Text.trim_eq_self
    · intro c hc
      rw [List.head?_cons, Option.some.injEq] at hc
      subst hc
      decide
    · intro c hc
      rw [← List.cons_append, List.getLast?_concat, Option.some.injEq] at hc
      subst hc
      decide
  rw [parse_eq_ok_iff, Denotes, htrim, htext]
  exact .inr (isBoxText_intervals hinside)

/-- A box that is infinite and inverted on the x axis, and has half of the mark of flat boxes for
its z coordinates. -/
def horizon : Box :=
  ⟨⟨.infinity, ⟨0x8000000000000000⟩, .highest⟩, ⟨-.infinity, ⟨0x3FB999999999999A⟩, .highest⟩⟩

/-- A box that reaches from one infinity to the other comes back from its text. -/
theorem parse_text_horizon : horizon.IsNumber ∧ parse horizon.text = .ok horizon ∧
    ∃ inside, horizon.text.toList = '(' :: (inside ++ [')']) ∧
      AreIntervalTexts horizon.intervals inside := by
  have hnumber : horizon.IsNumber := by
    intro axis
    cases axis <;> decide
  exact ⟨hnumber, parse_text hnumber⟩

end Box

end PointCloud
