import PointCloud.Proofs.Coordinates.Extremes
import PointCloud.Proofs.Coordinates.Finite
import PointCloud.Proofs.Decimal.Digits
import PointCloud.Proofs.Doubles.Decimals

/-!
# Numbers read back from their texts

The plain text of a double is its shortest decimal.  That decimal rounds to the
double, the text stands for no other number than the decimal, and reading a text
rounds its number once, so the text of every number is read as the same double,
`read?_plain`: with the sign of a zero, and the infinities by their names.

Only NaNs are not read back.  They all have the same text.
-/

namespace PointCloud.Decimal

open Double (IsCanonical RoundsTo)

variable {M : Nat} {E : Int}

/-- Ten is more than three doublings. -/
theorem two_zpow_le {k : Int} (hk : 0 ≤ k) : (2 : ℚ) ^ (3 * k) ≤ 10 ^ k := by
  rw [zpow_mul]
  exact zpow_le_zpow_left₀ hk (by norm_num) (by norm_num)

/-- A decimal near a double lies far inside of the range in which decimals are computed. -/
theorem magnitude_bounds_of_roundsTo {d : Scientific} (hd : d.digits ≠ 0) (hc : IsCanonical M E)
    (h : RoundsTo d.value M E) :
    -400 < ((Nat.toDigits 10 d.digits).length : Int) + d.exponent ∧
      ((Nat.toDigits 10 d.digits).length : Int) + d.exponent ≤ 400 := by
  have hleast := hc.least
  have hgreatest := hc.greatest
  have hunit : (0 : ℚ) < 10 ^ d.exponent := zpow_pos (by norm_num) _
  have hexponent : ∀ {a b : Int}, (10 : ℚ) ^ a < 10 ^ b → a < b :=
    (zpow_lt_zpow_iff_right₀ (by norm_num)).mp
  obtain ⟨hlength, hlength'⟩ := length_toDigits_zpow hd
  have hlow : (10 : ℚ) ^ (-400 : Int) ≤ d.value := by
    calc (10 : ℚ) ^ (-400 : Int) = (10 ^ (400 : Int))⁻¹ := zpow_neg _ _
      _ ≤ (2 ^ (3 * 400 : Int))⁻¹ := by
          gcongr
          exact two_zpow_le (by decide)
      _ = 2 ^ (-(3 * 400) : Int) := (zpow_neg _ _).symm
      _ ≤ 2 ^ (E - 1) := zpow_le_zpow_right₀ (by norm_num) (by omega)
      _ ≤ d.value := h.zpow_le hc
  have hhigh : d.value < (10 : ℚ) ^ (400 : Int) := by
    calc d.value < 2 ^ (53 + E) := h.lt_zpow hc
      _ ≤ 2 ^ (3 * 400 : Int) := zpow_le_zpow_right₀ (by norm_num) (by omega)
      _ ≤ 10 ^ (400 : Int) := two_zpow_le (by decide)
  constructor
  · apply hexponent
    rw [zpow_add₀ (by norm_num)]
    exact hlow.trans_lt (mul_lt_mul_of_pos_right hlength' hunit)
  · have hlt : ((Nat.toDigits 10 d.digits).length : Int) - 1 + d.exponent < 400 := by
      apply hexponent
      rw [zpow_add₀ (by norm_num)]
      exact (mul_le_mul_of_nonneg_right hlength hunit.le).trans_lt hhigh
    omega

/-- A decimal is read as the double that it rounds to. -/
theorem toNat_bits_toDouble {d : Scientific} (hc : IsCanonical M E) (h : RoundsTo d.value M E) :
    d.toDouble.bits.toNat = (E + 1074).toNat * 2 ^ 52 + M := by
  have hd : d.digits ≠ 0 := by
    intro hzero
    have hpos := h.pos hc
    rw [Scientific.value, hzero, Nat.cast_zero, zero_mul] at hpos
    exact absurd hpos (lt_irrefl 0)
  obtain ⟨hlow, hhigh⟩ := magnitude_bounds_of_roundsTo hd hc h
  have hlength : (Nat.toDigits 10 d.digits).length ≤ d.digits.log2 + 1 := by
    rw [Nat.length_toDigits_le_iff (by decide) (Nat.succ_pos _)]
    exact Nat.lt_log2_self.trans_le (Nat.pow_le_pow_left (by decide) _)
  have hpos : 0 < (Nat.toDigits 10 d.digits).length := Nat.length_toDigits_pos
  have hmodel := Double.toModel_ofScientific hd (by omega) (by omega) hc h
  have htoBits : ∀ x : Float, x.toBits = x.toModel.toBits := fun _ => rfl
  simp only [Scientific.toDouble]
  rw [if_neg (by omega), if_neg (by omega), htoBits, hmodel]
  exact Double.toNat_pack hc

/-- A double is known from its magnitude and its sign. -/
theorem eq_of_bits {x y : Double} (hy : y.bits.toNat < 2 ^ 63) (h : x.magnitude = y.bits.toNat) :
    (if x.isNegative then -y else y) = x := by
  obtain ⟨hsign, hmagnitude⟩ := Double.magnitude_of_lt hy
  cases hx : x.isNegative with
  | false => exact Double.eq_of_magnitude (hsign.trans hx.symm) (hmagnitude.trans h.symm)
  | true =>
    apply Double.eq_of_magnitude
    · rw [if_pos rfl, Double.isNegative_neg, hsign, hx]
      rfl
    · rw [if_pos rfl, Double.magnitude_neg, hmagnitude, h]

/-- The words for the infinities are read back. -/
theorem read?_plain_infinite {x : Double} (h : x.magnitude = Double.infiniteMagnitude) :
    read? (plain x) = some x := by
  obtain rfl | rfl := Double.eq_infinity_of_magnitude h
  · decide
  · decide

/-- The text of a zero has one digit. -/
theorem isPlainText_zero : IsPlainText ⟨0, 0⟩ ['0'] := by
  have hdigits : IsDigits ['0'] := ⟨List.cons_ne_nil _ _, List.forall_mem_singleton.mpr (by decide)⟩
  exact .whole hdigits

/-- **A double is read back from its own text**, bit for bit. -/
theorem read?_plain {x : Double} (h : x.isNaN = false) : read? (plain x) = some x := by
  cases hdyadic : Dyadic.ofDouble? x with
  | none =>
    have hinfinite : ¬ x.magnitude < Double.infiniteMagnitude :=
      of_decide_eq_false (Double.isFinite_of_ofDouble? hdyadic)
    have hnumber : ¬ Double.infiniteMagnitude < x.magnitude := of_decide_eq_false h
    exact read?_plain_infinite (by omega)
  | some d =>
    obtain ⟨hsign, hmagnitude, hcases⟩ := Double.ofDouble?_eq_some hdyadic
    simp only [plain, hdyadic, signedText, hsign]
    obtain ⟨hmantissa, hexponent⟩ | hc := hcases
    · rw [hmantissa, hexponent] at hmagnitude
      rw [if_pos hmantissa, isPlainText_zero.read?]
      exact congrArg some (eq_of_bits (by decide) hmagnitude)
    · obtain ⟨decimal, htext, hvalue⟩ := exists_positional (shortest_ne_zero hc)
        (shortest d.mantissa d.exponent).2
      have hround : RoundsTo decimal.value d.mantissa d.exponent := by
        rw [hvalue]
        exact roundsTo_shortest hc
      have hbits := toNat_bits_toDouble hc hround
      have hpattern : decimal.toDouble.bits.toNat < 2 ^ 63 := by
        rw [hbits]
        exact hc.pattern_lt
      rw [if_neg (Nat.ne_of_gt hc.pos), htext.read?]
      exact congrArg some (eq_of_bits hpattern (hmagnitude.trans hbits.symm))

end PointCloud.Decimal
