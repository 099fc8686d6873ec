import PointCloud.Proofs.Points.Places

/-!
# Coordinates that can be stored

A coordinate is stored as the whole number nearest to `(x - offset) / scale`.
Infinities and NaNs have no such number, and in a difference or in the numerator
of a quotient they never turn into anything else.  So a coordinate that has been
stored is a finite double, and so is the offset that it was stored with; nothing
has to be assumed of either, nor of the scale.

The arithmetic is read off the cases of its operations on unpacked numbers: what
comes of an infinity is an infinity or no number.
-/

namespace PointCloud

open Float.Model

namespace Double

/-- Whether an unpacked result is an infinity or no number. -/
def IsBeyond : UnpackedFloat → Prop
  | .infinity _ | .notANumber => True
  | .zero _ | .finite .. => False

/-- There are two infinities, one for each sign. -/
theorem eq_infinity_of_magnitude {x : Double} (h : x.magnitude = infiniteMagnitude) :
    x = infinity ∨ x = -infinity := by
  have hnegative : -infinity = (⟨0xFFF0000000000000⟩ : Double) := by decide
  rcases x with ⟨bits⟩
  have hlt := bits.toNat_lt
  rw [hnegative]
  simp only [magnitude, infiniteMagnitude, signBit, UInt64.toNat_mod, UInt64.reduceToNat] at h
  simp only [infinity, mk.injEq]
  rw [← UInt64.toNat_inj, ← UInt64.toNat_inj]
  simp only [UInt64.reduceToNat]
  omega

/-- The exact arithmetic takes the bits of an infinity for an infinity. -/
theorem unpack_of_magnitude {x : Double} (h : x.magnitude = infiniteMagnitude) :
    ∃ sign, (Float.ofBits x.bits).toModel.unpack = .infinity sign := by
  obtain rfl | rfl := eq_infinity_of_magnitude h
  · exact ⟨.positive, rfl⟩
  · exact ⟨.negative, rfl⟩

/-- A number that does not unpack to an infinity is finite. -/
theorem isFinite_of_unpack {x : Double} (hnumber : x.isNaN = false)
    (h : ∀ sign, (Float.ofBits x.bits).toModel.unpack ≠ .infinity sign) : x.isFinite = true := by
  have hmagnitude : x.magnitude ≠ infiniteMagnitude := by
    intro hinfinite
    obtain ⟨sign, hsign⟩ := unpack_of_magnitude hinfinite
    exact h sign hsign
  simp only [isNaN, isFinite, decide_eq_true_eq, decide_eq_false_iff_not] at hnumber ⊢
  omega

/-- What is beyond the finite numbers is not packed into one. -/
theorem isFinite_pack {u : UnpackedFloat} (h : IsBeyond u)
    (hnumber : (Float.ofModel (.pack u)).isNaN = false) :
    isFinite ⟨(Float.ofModel (.pack u)).toBits⟩ = false := by
  cases u with
  | infinity sign => cases sign <;> rfl
  | notANumber => cases hnumber
  | zero sign => cases h
  | finite sign mantissa exponent pos => cases h

/-- A NaN that is made quiet does not become finite. -/
theorem isFinite_quiet {x : Double} (h : x.isNaN = true) : x.quiet.isFinite = false := by
  have hsign : ∀ bits : UInt64, (bits % signBit).toNat = bits.toNat % 2 ^ 63 := fun _ => rfl
  have hle : x.magnitude ≤ x.quiet.magnitude := by
    rw [magnitude, magnitude, hsign, hsign, quiet, UInt64.toNat_or, Nat.or_mod_two_pow]
    exact Nat.left_le_or
  simp only [isNaN, isFinite, decide_eq_true_eq, decide_eq_false_iff_not] at h ⊢
  omega

/-- An operation with a finite result was given numbers, and its unpacked result is finite. -/
theorem not_isBeyond_of_lift {operation : Float → Float → Float}
    {unpacked : UnpackedFloat → UnpackedFloat → UnpackedFloat}
    (hoperation : ∀ a b, operation a b =
      .ofModel (.pack (unpacked a.toModel.unpack b.toModel.unpack)))
    {x y : Double} (h : (lift operation x y).isFinite = true) :
    x.isNaN = false ∧ y.isNaN = false ∧ ¬ IsBeyond
      (unpacked (Float.ofBits x.bits).toModel.unpack (Float.ofBits y.bits).toModel.unpack) := by
  unfold lift at h
  cases hx : x.isNaN with
  | true => simp [hx, isFinite_quiet hx] at h
  | false =>
    cases hy : y.isNaN with
    | true => simp [hx, hy, isFinite_quiet hy] at h
    | false =>
      refine ⟨rfl, rfl, fun hbeyond => ?_⟩
      simp only [hx, hy, Bool.false_eq_true, if_false, hoperation] at h
      split at h
      · cases h
      · next hnumber =>
        rw [isFinite_pack hbeyond (by simpa using hnumber)] at h
        cases h

/-- A finite difference is one of finite doubles. -/
theorem isFinite_of_sub {x y : Double} (h : (x - y).isFinite = true) :
    x.isFinite = true ∧ y.isFinite = true := by
  have hsub : ∀ a b : Float, a - b =
      .ofModel (.pack (.sub Format.binary64 a.toModel.unpack b.toModel.unpack)) := fun _ _ => rfl
  obtain ⟨hx, hy, hresult⟩ := not_isBeyond_of_lift hsub h
  constructor
  · refine isFinite_of_unpack hx fun sign hsign => hresult ?_
    rw [hsign]
    cases (Float.ofBits y.bits).toModel.unpack with
    | infinity other => cases sign <;> cases other <;> trivial
    | _ => trivial
  · refine isFinite_of_unpack hy fun sign hsign => hresult ?_
    rw [hsign]
    cases (Float.ofBits x.bits).toModel.unpack with
    | infinity other => cases sign <;> cases other <;> trivial
    | _ => trivial

/-- A finite quotient has a finite numerator. -/
theorem isFinite_of_div {x y : Double} (h : (x / y).isFinite = true) : x.isFinite = true := by
  have hdiv : ∀ a b : Float, a / b =
      .ofModel (.pack (.div Format.binary64 a.toModel.unpack b.toModel.unpack)) := fun _ _ => rfl
  obtain ⟨hx, -, hresult⟩ := not_isBeyond_of_lift hdiv h
  refine isFinite_of_unpack hx fun sign hsign => hresult ?_
  rw [hsign]
  cases (Float.ofBits y.bits).toModel.unpack <;> trivial

/-- Only finite doubles have a nearest whole number. -/
theorem isFinite_of_nearest? {x : Double} {n : Int} (h : x.nearest? = some n) :
    x.isFinite = true := by
  obtain ⟨d, hd, -⟩ := Option.map_eq_some_iff.mp h
  cases hfinite : x.isFinite with
  | true => rfl
  | false => simp [Dyadic.ofDouble?, hfinite] at hd

end Double

/-- A position with a stored form is finite, and so is the offset. -/
theorem Scaling.isFinite_of_stored? {s : Scaling} {position : Double} {n : Int32}
    (h : s.stored? position = some n) : position.isFinite = true ∧ s.offset.isFinite = true := by
  obtain ⟨m, hm, -⟩ := Option.map_eq_some_iff.mp h
  obtain ⟨hnearest, -⟩ := Option.filter_eq_some_iff.mp hm
  exact Double.isFinite_of_sub (Double.isFinite_of_div (Double.isFinite_of_nearest? hnearest))

/-- A point with a record has finite coordinates, and its record was made with finite offsets. -/
theorem PointEncoder.isFinite_of_outcome {e : PointEncoder} {q : Quantizer} {p : Point}
    {r : EncodedPoint} (h : (e.encodePoint q p).outcome = .ok (some r)) (axis : Axis) :
    ((e.fields.position p.alone 0).get axis).isFinite = true ∧
      (q.scalings.get axis).offset.isFinite = true := by
  obtain ⟨stored, -, hstored⟩ := coordinates_of_outcome h
  exact Scaling.isFinite_of_stored? (hstored axis)

end PointCloud
