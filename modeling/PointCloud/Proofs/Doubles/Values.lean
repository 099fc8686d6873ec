import PointCloud.Double.Rounding
import PointCloud.Proofs.Doubles.Decimals

/-!
# The values of doubles

A double that is neither an infinity nor a NaN stands for a fraction, `value?`.
Dropping the digits behind the point on the pattern of a double is dropping them
from its value, `truncate?_eq`.

What is left has no more binary digits in front than the double has, `IsShort`, so
it is a double again: `value?_ofWhole` says that the double of such a whole number
has the number for its value.  This holds of all truncations and of all whole
numbers of 32 bits, but not of all whole numbers of 64 bits.
-/

namespace PointCloud

/-- The number that mantissa, exponent and sign stand for. -/
def Dyadic.value (d : Dyadic) : ℚ :=
  if d.negative then -(d.mantissa * 2 ^ d.exponent) else d.mantissa * 2 ^ d.exponent

/-- A number less its fraction. -/
def truncation (q : ℚ) : ℤ := if 0 ≤ q then ⌊q⌋ else ⌈q⌉

theorem truncation_intCast (n : ℤ) : truncation n = n := by
  rw [truncation, Int.floor_intCast, Int.ceil_intCast, ite_self]

namespace Double

open Float.Model (Format)

/-- The number that a double stands for, if it is finite. -/
def value? (x : Double) : Option ℚ := (Dyadic.ofDouble? x).map Dyadic.value

/-- A whole number that a double has digits enough for. -/
def IsShort (n : Nat) : Prop := ∃ m k : Nat, m < 2 ^ 53 ∧ n = m * 2 ^ k

variable {x : Double} {n M : Nat} {E : Int}

/-! ### Truncation -/

/-- The floor of a magnitude is what is left when the fraction is shifted out. -/
theorem floor_value (d : Dyadic) : ⌊(d.mantissa * 2 ^ d.exponent : ℚ)⌋ = (d.floor : ℤ) := by
  unfold Dyadic.floor
  split
  · next h =>
    obtain ⟨k, hk⟩ := Int.eq_ofNat_of_zero_le h
    have hvalue : (d.mantissa * 2 ^ d.exponent : ℚ) = ((d.mantissa * 2 ^ k : Nat) : ℤ) := by
      rw [hk, zpow_natCast]
      push_cast
      rfl
    rw [hvalue, Int.floor_intCast, Nat.shiftLeft_eq, hk, Int.toNat_natCast]
  · next h =>
    obtain ⟨k, hk⟩ : ∃ k : Nat, d.exponent = -(k : Int) := ⟨(-d.exponent).toNat, by omega⟩
    have hvalue : (d.mantissa * 2 ^ d.exponent : ℚ) = (d.mantissa : ℤ) / ((2 ^ k : Nat) : ℚ) := by
      rw [hk, zpow_neg, zpow_natCast, div_eq_mul_inv]
      push_cast
      rfl
    rw [hvalue, Rat.floor_intCast_div_natCast, Nat.shiftRight_eq_div_pow, hk, neg_neg,
      Int.toNat_natCast]
    exact (Int.natCast_div _ _).symm

/-- Towards zero, only the floor of the magnitude counts. -/
theorem truncation_value (d : Dyadic) : truncation d.value = d.signed d.floor := by
  have hnonneg : (0 : ℚ) ≤ d.mantissa * 2 ^ d.exponent := by positivity
  have hfloor := floor_value d
  cases hsign : d.negative with
  | false =>
    rw [truncation, Dyadic.value, Dyadic.signed]
    simp [hsign, hnonneg, hfloor]
  | true =>
    rw [truncation, Dyadic.value, Dyadic.signed]
    simp only [hsign, if_true]
    by_cases hzero : (d.mantissa * 2 ^ d.exponent : ℚ) = 0
    · rw [hzero, Int.floor_zero] at hfloor
      rw [hzero, ← hfloor]
      simp
    · rw [if_neg (by simpa using lt_of_le_of_ne hnonneg (Ne.symm hzero)), Int.ceil_neg, hfloor]

/-- Truncation drops the fraction of the value. -/
theorem truncate?_eq (x : Double) : x.truncate? = x.value?.map truncation := by
  rw [truncate?, value?, Option.map_map]
  congr 1
  funext d
  exact (truncation_value d).symm

/-! ### Whole numbers that are doubles -/

/-- A truncation has no more digits in front than the number had. -/
theorem isShort_truncation {q : ℚ} (h : x.value? = some q) : IsShort (truncation q).natAbs := by
  obtain ⟨d, hd, rfl⟩ := Option.map_eq_some_iff.mp h
  have hlt : d.mantissa < 2 ^ 53 := by
    obtain ⟨-, -, ⟨hzero, -⟩ | hc⟩ := ofDouble?_eq_some hd
    · rw [hzero]
      decide
    · exact hc.lt
  have habs : (truncation d.value).natAbs = d.floor := by
    rw [truncation_value, Dyadic.signed]
    split <;> simp
  rw [habs, Dyadic.floor]
  split
  · exact ⟨d.mantissa, d.exponent.toNat, hlt, Nat.shiftLeft_eq ..⟩
  · refine ⟨d.mantissa >>> (-d.exponent).toNat, 0, ?_, (Nat.mul_one _).symm⟩
    rw [Nat.shiftRight_eq_div_pow]
    exact (Nat.div_le_self _ _).trans_lt hlt

theorem isShort_of_lt (h : n < 2 ^ 53) : IsShort n := ⟨n, 0, h, (Nat.mul_one n).symm⟩

/-- A short number has only zeros behind the digits that a double has room for. -/
theorem IsShort.dvd (h : IsShort n) (hn : n ≠ 0) : 2 ^ n.log2 ∣ n <<< 52 := by
  obtain ⟨m, k, hm, rfl⟩ := h
  have hne : m ≠ 0 := by
    rintro rfl
    exact hn (Nat.zero_mul _)
  have hlog : (m * 2 ^ k).log2 = m.log2 + k := by
    rw [← Nat.shiftLeft_eq, log2_shiftLeft hne]
  have hle := (Nat.log2_lt hne).mpr hm
  rw [hlog, Nat.shiftLeft_eq, Nat.mul_assoc, ← Nat.pow_add]
  exact Dvd.dvd.mul_left (Nat.pow_dvd_pow 2 (by omega)) m

/-- Mantissa and exponent are read off the pattern that they make up. -/
theorem ofDouble?_of_magnitude (hc : IsCanonical M E)
    (h : x.magnitude = (E + 1074).toNat * 2 ^ 52 + M) :
    Dyadic.ofDouble? x = some ⟨x.isNegative, M, E⟩ := by
  obtain ⟨hpos, hlt, hleast, hgreatest, hfull⟩ := hc
  have hfinite : x.isFinite = true := by
    rw [isFinite, decide_eq_true_eq, infiniteMagnitude]
    omega
  have hlead : Dyadic.leadingBit = 2 ^ 52 := rfl
  simp only [Dyadic.ofDouble?, hfinite, Bool.not_true, Bool.false_eq_true, if_false, hlead]
  split
  · next hzero =>
    have hexponent : E = -1074 := by omega
    have hfraction : x.magnitude % 2 ^ 52 = M := by omega
    rw [hfraction, hexponent]
  · next hzero =>
    have hbiased : ((x.magnitude / 2 ^ 52 : Nat) : Int) - 1075 = E := by omega
    have hfraction : 2 ^ 52 + x.magnitude % 2 ^ 52 = M := by omega
    rw [hfraction, hbiased]

/-- The double of a short natural has it for its value. -/
theorem value?_toFloat (hlt : n < 2 ^ 64) (hshort : IsShort n) :
    value? ⟨(UInt64.ofNat n).toFloat.toBits⟩ = some (n : ℚ) := by
  by_cases hn : n = 0
  · subst hn
    have hbits : (UInt64.ofNat 0).toFloat.toBits = 0 := by decide
    rw [hbits]
    simp [value?, Dyadic.value, Dyadic.ofDouble?, isFinite, magnitude, infiniteMagnitude]
  · have hdvd := hshort.dvd hn
    have hc : IsCanonical (wholeMantissa n) (wholeExponent n) :=
      isCanonical_whole hn (((Nat.log2_lt hn).mpr hlt).trans (by decide))
    have hbits : (UInt64.ofNat n).toFloat.toBits.toNat =
        (wholeExponent n + 1074).toNat * 2 ^ 52 + wholeMantissa n :=
      (congrArg (fun m => m.toBits.toNat) (toModel_toFloat hn hlt hdvd hc)).trans (toNat_pack hc)
    obtain ⟨hsign, hmagnitude⟩ :=
      magnitude_of_lt (x := ⟨(UInt64.ofNat n).toFloat.toBits⟩) (hbits ▸ hc.pattern_lt)
    rw [value?, ofDouble?_of_magnitude hc (hmagnitude.trans hbits), hsign]
    exact congrArg some (whole_value hdvd)

/-- The opposite of a double has the same digits and the other sign. -/
theorem ofDouble?_neg (x : Double) :
    Dyadic.ofDouble? (-x) =
      (Dyadic.ofDouble? x).map fun d => { d with negative := !d.negative } := by
  have hfinite : (-x).isFinite = x.isFinite := by rw [isFinite, isFinite, magnitude_neg]
  simp only [Dyadic.ofDouble?, hfinite, magnitude_neg, isNegative_neg]
  split
  · rfl
  · split <;> rfl

/-- Its value is the opposite one. -/
theorem value?_neg {q : ℚ} (h : x.value? = some q) : (-x).value? = some (-q) := by
  obtain ⟨d, hd, rfl⟩ := Option.map_eq_some_iff.mp h
  rw [value?, ofDouble?_neg, hd, Option.map_some, Option.map_some, Dyadic.value, Dyadic.value]
  cases d.negative <;> simp

/-- The double of a short whole number has it for its value. -/
theorem value?_ofWhole {n : Int} (hlt : n.natAbs < 2 ^ 64) (hshort : IsShort n.natAbs) :
    (ofWhole n).value? = some (n : ℚ) := by
  cases n with
  | ofNat n => exact value?_toFloat hlt hshort
  | negSucc n =>
    have hvalue := value?_neg (value?_toFloat hlt hshort)
    rwa [Int.natAbs_negSucc, ← Int.cast_natCast, ← Int.cast_neg] at hvalue

end Double

end PointCloud
