import PointCloud.Proofs.Doubles.Patterns

/-!
# Decimals become the nearest doubles

A decimal is the product or the quotient of a whole number and a power of ten.
Products and quotients are computed with enough binary digits that they are
rounded once, `mul_of_roundsTo` and `div_of_roundsTo`.  A decimal with few digits
and a small exponent takes a short way through two doubles.  Both of them are exact,
`whole_value` and `powersOfTen_facts`, so this way also rounds once, and a decimal
becomes the double that its value rounds to: `toModel_ofScientific`.
-/

namespace PointCloud.Double

open Float.Model Float.Model.UnpackedFloat

variable {M : Nat} {E : Int}

/-! ### Products, quotients and roundings -/

/-- A product becomes the double that it is rounded to. -/
theorem mul_of_roundsTo {m n : Nat} {e f : Int} {hm : 0 < m} {hn : 0 < n} {s s' : Sign}
    (hwide : 52 ≤ (m * n).log2 ∨ e + f ≤ -1074) (hc : IsCanonical M E)
    (h : RoundsTo (m * 2 ^ e * (n * 2 ^ f)) M E) :
    UnpackedFloat.mul Format.binary64 (.finite s m e hm) (.finite s' n f hn) =
      .finite (s * s') M E hc.pos := by
  have hvalue : (m * 2 ^ e * (n * 2 ^ f) : ℚ) / 2 ^ (e + f) = ((m * n : Nat) : ℚ) := by
    rw [zpow_add₀ (by norm_num)]
    push_cast
    field_simp
  refine roundWithAccuracy_of_roundsTo ?_ hwide hc h
  rw [hvalue]
  exact represents_exact _

/-- The exponent to which a quotient is computed. -/
theorem targetExponent_div (m n : Nat) (e f : Int) :
    Format.binary64.targetExponent (totalExponent m e - totalExponent n f) =
      max ((m.log2 : Int) + e - n.log2 - f - 53) (-1074) := by
  simp only [Format.targetExponent, totalExponent, Format.mantissaBits, Format.minExponent]
  norm_num
  omega

/-- A quotient is computed with 53 binary digits at least. -/
theorem log_divCore {m n : Nat} {e f : Int} (hm : 0 < m) (hn : 0 < n) :
    52 ≤ (divCore Format.binary64 m e n f).1.log2 ∨
      (divCore Format.binary64 m e n f).2.1 ≤ -1074 := by
  simp only [divCore, targetExponent_div]
  set t := min (e - f) (max ((m.log2 : Int) + e - n.log2 - f - 53) (-1074)) with ht
  by_cases hleast : t ≤ -1074
  · exact .inr hleast
  · left
    set shift := (e - f - t).toNat with hshift
    have hbits : n.log2 + 53 ≤ m.log2 + shift := by omega
    have hquotient : 2 ^ 52 ≤ (m <<< shift) / n := by
      rw [Nat.le_div_iff_mul_le hn, Nat.shiftLeft_eq]
      calc 2 ^ 52 * n ≤ 2 ^ 52 * 2 ^ (n.log2 + 1) :=
            Nat.mul_le_mul_left _ (Nat.le_of_lt Nat.lt_log2_self)
        _ = 2 ^ (n.log2 + 53) := by rw [← Nat.pow_add]; congr 1; omega
        _ ≤ 2 ^ (m.log2 + shift) := Nat.pow_le_pow_right (by decide) hbits
        _ = 2 ^ m.log2 * 2 ^ shift := Nat.pow_add ..
        _ ≤ m * 2 ^ shift := Nat.mul_le_mul_right _ (Nat.log2_self_le (Nat.ne_of_gt hm))
    have hne : (m <<< shift) / n ≠ 0 := by omega
    exact (Nat.le_log2 hne).mpr hquotient

/-- The quotient of two mantissas is cut off at a bit, and the rest is kept as accuracy. -/
theorem represents_divCore {m n : Nat} {e f : Int} (hn : 0 < n) :
    Represents (.ofMantissaAndAccuracy (divCore Format.binary64 m e n f).1
        (divCore Format.binary64 m e n f).2.2)
      (m * 2 ^ e / (n * 2 ^ f) / 2 ^ (divCore Format.binary64 m e n f).2.1) := by
  set t := min (e - f)
    (Format.binary64.targetExponent (totalExponent m e - totalExponent n f)) with ht
  have hvalue : (m * 2 ^ e / (n * 2 ^ f) / 2 ^ t : ℚ) =
      ((m <<< (e - f - t).toNat : Nat) : ℚ) / n := by
    have hshift : (((e - f - t).toNat : Nat) : Int) = e - f - t := Int.toNat_of_nonneg (by omega)
    have hpow : ((2 ^ (e - f - t).toNat : Nat) : ℚ) = 2 ^ e / 2 ^ f / 2 ^ t := by
      rw [← zpow_sub₀ (by norm_num), ← zpow_sub₀ (by norm_num)]
      push_cast
      rw [← zpow_natCast, hshift]
    rw [Nat.shiftLeft_eq, Nat.cast_mul, hpow]
    field_simp
  have hfraction := represents_fraction (m <<< (e - f - t).toNat) hn
  rw [← hvalue] at hfraction
  exact hfraction

/-- A quotient becomes the double that it is rounded to. -/
theorem div_of_roundsTo {m n : Nat} {e f : Int} {hm : 0 < m} {hn : 0 < n} {s s' : Sign}
    (hc : IsCanonical M E) (h : RoundsTo (m * 2 ^ e / (n * 2 ^ f)) M E) :
    UnpackedFloat.div Format.binary64 (.finite s m e hm) (.finite s' n f hn) =
      .finite (s / s') M E hc.pos :=
  roundWithAccuracy_of_roundsTo (represents_divCore hn) (log_divCore hm hn) hc h

/-- A number that is shifted has so many more digits. -/
theorem log2_shiftLeft {n : Nat} (hn : n ≠ 0) (count : Nat) :
    (n <<< count).log2 = n.log2 + count := by
  induction count with
  | zero => rw [Nat.shiftLeft_zero, Nat.add_zero]
  | succ count ih =>
    have hne : n <<< count ≠ 0 := by
      rw [Nat.shiftLeft_eq]
      exact Nat.mul_ne_zero hn (Nat.two_pow_pos count).ne'
    rw [Nat.shiftLeft_succ, Nat.log2_two_mul hne, ih, Nat.add_assoc]

/-- A number with too few digits is first given more of them. -/
theorem round_of_roundsTo {s : Sign} {n : Nat} {e : Int} (hn : n ≠ 0) (hc : IsCanonical M E)
    (h : RoundsTo (n * 2 ^ e) M E) :
    UnpackedFloat.round Format.binary64 s n e = .finite s M E hc.pos := by
  set count := (e - max ((n.log2 : Int) + e - 52) (-1074)).toNat with hcount
  have hround : UnpackedFloat.round Format.binary64 s n e =
      roundWithAccuracy Format.binary64 s (n <<< count) (e - count) .exact := by
    rw [UnpackedFloat.round, targetExponent_eq]
    rfl
  have hvalue : (n * 2 ^ e : ℚ) / 2 ^ (e - count) = ((n <<< count : Nat) : ℚ) := by
    rw [Nat.shiftLeft_eq, zpow_sub₀ (by norm_num), zpow_natCast]
    push_cast
    field_simp
  rw [hround]
  refine roundWithAccuracy_of_roundsTo ?_ ?_ hc h
  · rw [hvalue]
    exact represents_exact _
  · rw [log2_shiftLeft hn]
    omega

/-! ### Whole numbers -/

/-- The mantissa of a whole number as a double. -/
def wholeMantissa (n : Nat) : Nat := n <<< 52 >>> n.log2

/-- The exponent of a whole number as a double. -/
def wholeExponent (n : Nat) : Int := (n.log2 : Int) - 52

section

variable {n : Nat} (hn : n ≠ 0)

include hn

/-- The mantissa of a whole number has a bit in front of its fraction. -/
theorem le_wholeMantissa : 2 ^ 52 ≤ wholeMantissa n := by
  rw [wholeMantissa, Nat.shiftRight_eq_div_pow, Nat.shiftLeft_eq,
    Nat.le_div_iff_mul_le (Nat.two_pow_pos _), Nat.mul_comm]
  exact Nat.mul_le_mul_right _ (Nat.log2_self_le hn)

/-- A whole number that is not too large has the mantissa and the exponent of a double. -/
theorem isCanonical_whole (hlog : n.log2 < 1024) :
    IsCanonical (wholeMantissa n) (wholeExponent n) := by
  have hle := le_wholeMantissa hn
  have hlt : wholeMantissa n < 2 ^ 53 := by
    rw [wholeMantissa, Nat.shiftRight_eq_div_pow, Nat.shiftLeft_eq,
      Nat.div_lt_iff_lt_mul (Nat.two_pow_pos _)]
    calc n * 2 ^ 52 < 2 ^ (n.log2 + 1) * 2 ^ 52 :=
          Nat.mul_lt_mul_of_pos_right Nat.lt_log2_self (by decide)
      _ = 2 ^ 53 * 2 ^ n.log2 := by rw [← Nat.pow_add, ← Nat.pow_add]; congr 1; omega
  refine ⟨by omega, hlt, ?_, ?_, .inl hle⟩ <;> simp only [wholeExponent] <;> omega

omit hn in
/-- A whole number is a double if it is a multiple of the unit of its 53 leading binary digits. -/
theorem whole_value (h : 2 ^ n.log2 ∣ n <<< 52) :
    (wholeMantissa n : ℚ) * 2 ^ wholeExponent n = n := by
  have hvalue : wholeMantissa n * 2 ^ n.log2 = n * 2 ^ 52 := by
    rw [wholeMantissa, Nat.shiftRight_eq_div_pow, Nat.div_mul_cancel h, Nat.shiftLeft_eq]
  have hcast : (wholeMantissa n : ℚ) * 2 ^ n.log2 = n * 2 ^ 52 := by exact_mod_cast hvalue
  rw [wholeExponent, zpow_sub₀ (by norm_num), zpow_natCast, ← mul_div_assoc, hcast]
  exact mul_div_cancel_right₀ (n : ℚ) (by norm_num)

/-- A number with few digits keeps all of them when its mantissa is cut out. -/
theorem dvd_of_lt (hlt : n < 2 ^ 53) : 2 ^ n.log2 ∣ n <<< 52 := by
  have hlog := (Nat.log2_lt hn).mpr hlt
  rw [Nat.shiftLeft_eq]
  exact Dvd.dvd.mul_left (Nat.pow_dvd_pow 2 (by omega)) n

/-- A number with few digits is not too large. -/
theorem isCanonical_of_lt (hlt : n < 2 ^ 53) :
    IsCanonical (wholeMantissa n) (wholeExponent n) := by
  have hlog := (Nat.log2_lt hn).mpr hlt
  exact isCanonical_whole hn (by omega)

/-- A whole number that is a double becomes it without being rounded. -/
theorem toModel_toFloat (hlt : n < 2 ^ 64) (hdvd : 2 ^ n.log2 ∣ n <<< 52)
    (hc : IsCanonical (wholeMantissa n) (wholeExponent n)) :
    n.toUInt64.toFloat.toModel =
      .pack (.finite .positive (wholeMantissa n) (wholeExponent n) hc.pos) := by
  have hsmall : n.toUInt64.toNat = n := by
    rw [UInt64.toNat_ofNat', Nat.mod_eq_of_lt hlt]
  have hcompare : compare (n : Int) 0 = .gt := Int.compare_eq_gt.mpr (by omega)
  have hself : RoundsTo (n * 2 ^ (0 : Int)) (wholeMantissa n) (wholeExponent n) := by
    rw [zpow_zero, mul_one, ← whole_value hdvd]
    exact RoundsTo.self _ _
  have hround : UnpackedFloat.round Format.binary64 .positive n 0 = .finite .positive _ _ hc.pos :=
    round_of_roundsTo hn hc hself
  have hnormalize : n.toUInt64.toFloat.toModel =
      .pack (UnpackedFloat.normalize Format.binary64 (n.toUInt64.toNat : Int) 0 .positive) := rfl
  rw [hnormalize, hsmall, UnpackedFloat.normalize, hcompare]
  exact congrArg Float.Model.pack hround

/-- A whole number of at most 53 binary digits becomes a double without being rounded. -/
theorem unpack_toFloat (hlt : n < 2 ^ 53) :
    n.toUInt64.toFloat.toModel.unpack =
      .finite .positive (wholeMantissa n) (wholeExponent n) (isCanonical_of_lt hn hlt).pos := by
  have hc := isCanonical_of_lt hn hlt
  rw [toModel_toFloat hn (by omega) (dvd_of_lt hn hlt) hc, unpack_pack hc]

end

/-! ### Powers of ten -/

/-- The table has the right powers of ten, and these are doubles. -/
theorem powersOfTen_facts : ∀ k : Fin Float.exactlyRepresentablePowersOfTen.size,
    (10 ^ k.1).log2 < 1024 ∧ 2 ^ (10 ^ k.1).log2 ∣ 10 ^ k.1 <<< 52 ∧
      Float.exactlyRepresentablePowersOfTen[k].toModel.toBits.toNat =
        (wholeExponent (10 ^ k.1) + 1074).toNat * 2 ^ 52 + wholeMantissa (10 ^ k.1) := by
  decide

section

variable {k : Nat} (hk : k < Float.exactlyRepresentablePowersOfTen.size)

include hk

/-- The powers of ten in the table have the mantissas and exponents of doubles. -/
theorem isCanonical_powerOfTen : IsCanonical (wholeMantissa (10 ^ k)) (wholeExponent (10 ^ k)) :=
  isCanonical_whole (Nat.pow_pos (by decide)).ne' (powersOfTen_facts ⟨k, hk⟩).1

/-- These mantissas and exponents are those of the powers, exactly. -/
theorem powerOfTen_value :
    (wholeMantissa (10 ^ k) : ℚ) * 2 ^ wholeExponent (10 ^ k) = 10 ^ k := by
  rw [whole_value (powersOfTen_facts ⟨k, hk⟩).2.1]
  push_cast
  rfl

/-- The table has at each place the double of the power. -/
theorem unpack_powerOfTen :
    Float.exactlyRepresentablePowersOfTen[k].toModel.unpack =
      .finite .positive (wholeMantissa (10 ^ k)) (wholeExponent (10 ^ k))
        (isCanonical_powerOfTen hk).pos := by
  have hc := isCanonical_powerOfTen hk
  have hpack : Float.exactlyRepresentablePowersOfTen[k].toModel =
      .pack (.finite .positive _ _ hc.pos) :=
    eq_pack_of_toBits hc (powersOfTen_facts ⟨k, hk⟩).2.2
  rw [hpack, unpack_pack hc]

variable {m : Nat}

/-- A short number times a power of ten is rounded once. -/
theorem toModel_mul_powerOfTen (hm : m ≠ 0) (hlt : m < 2 ^ 53) (hc : IsCanonical M E)
    (h : RoundsTo (m * 10 ^ k) M E) :
    (m.toUInt64.toFloat * Float.exactlyRepresentablePowersOfTen[k]).toModel =
      .pack (.finite .positive M E hc.pos) := by
  have hmul : (m.toUInt64.toFloat * Float.exactlyRepresentablePowersOfTen[k]).toModel =
      .pack (UnpackedFloat.mul Format.binary64 m.toUInt64.toFloat.toModel.unpack
        Float.exactlyRepresentablePowersOfTen[k].toModel.unpack) := rfl
  rw [hmul, unpack_toFloat hm hlt, unpack_powerOfTen hk]
  refine congrArg Float.Model.pack (mul_of_roundsTo (.inl ?_) hc ?_)
  · have hpos := (isCanonical_powerOfTen hk).pos
    have hwide := (le_wholeMantissa hm).trans (Nat.le_mul_of_pos_right _ hpos)
    exact (Nat.le_log2 (by omega)).mpr hwide
  · rwa [whole_value (dvd_of_lt hm hlt), powerOfTen_value hk]

/-- A short number that is divided by a power of ten is rounded once. -/
theorem toModel_div_powerOfTen (hm : m ≠ 0) (hlt : m < 2 ^ 53) (hc : IsCanonical M E)
    (h : RoundsTo (m / 10 ^ k) M E) :
    (m.toUInt64.toFloat / Float.exactlyRepresentablePowersOfTen[k]).toModel =
      .pack (.finite .positive M E hc.pos) := by
  have hdiv : (m.toUInt64.toFloat / Float.exactlyRepresentablePowersOfTen[k]).toModel =
      .pack (UnpackedFloat.div Format.binary64 m.toUInt64.toFloat.toModel.unpack
        Float.exactlyRepresentablePowersOfTen[k].toModel.unpack) := rfl
  rw [hdiv, unpack_toFloat hm hlt, unpack_powerOfTen hk]
  refine congrArg Float.Model.pack (div_of_roundsTo hc ?_)
  rwa [whole_value (dvd_of_lt hm hlt), powerOfTen_value hk]

end

/-! ### Decimals -/

/-- The decimals that the arithmetic does not take for zero or infinity from their exponents alone
are rounded once. -/
theorem ofScientific_of_roundsTo {m : Nat} {k : Int} (hm : m ≠ 0) (hhigh : k ≤ 2048)
    (hlow : -(2048 + m.log2) ≤ k) (hc : IsCanonical M E) (h : RoundsTo (m * 10 ^ k) M E) :
    UnpackedFloat.ofScientific Format.binary64 m k = .finite .positive M E hc.pos := by
  have hbits : Format.binary64.mantissaBits = 53 := rfl
  have hexponent : ((2 : Int) ^ Format.binary64.exponentBits) = 2048 := by norm_num
  simp only [UnpackedFloat.ofScientific, hexponent, hbits]
  rw [dif_neg hm, if_neg (by omega), if_neg (by omega)]
  split
  · next hk =>
    obtain ⟨n, rfl⟩ := Int.eq_ofNat_of_zero_le hk
    have hten : 0 < 10 ^ (n : Int).toNat := Nat.pow_pos (by decide)
    have hwide : 2 ^ 52 ≤ m <<< 53 * 10 ^ (n : Int).toNat := by
      have hle := Nat.le_mul_of_pos_right (m <<< 53) hten
      rw [Nat.shiftLeft_eq] at hle ⊢
      omega
    have hvalue : ((m <<< 53 : Nat) * 2 ^ (-(53 : Nat) : Int) *
        ((10 ^ (n : Int).toNat : Nat) * 2 ^ (0 : Int)) : ℚ) = m * 10 ^ (n : Int) := by
      rw [Nat.shiftLeft_eq, Int.toNat_natCast, zpow_zero, zpow_neg, zpow_natCast, zpow_natCast]
      push_cast
      field_simp
      norm_num
    exact mul_of_roundsTo (.inl ((Nat.le_log2 (by omega)).mpr hwide)) hc (by rwa [hvalue])
  · next hk =>
    obtain ⟨n, hn⟩ : ∃ n : Nat, -k = n := ⟨(-k).toNat, by omega⟩
    have hvalue : (m * 2 ^ (0 : Int) / ((10 ^ (-k).toNat : Nat) * 2 ^ (0 : Int)) : ℚ) =
        m * 10 ^ k := by
      obtain rfl : k = -(n : Int) := by omega
      rw [neg_neg, Int.toNat_natCast, zpow_zero, zpow_neg, zpow_natCast]
      push_cast
      field_simp
    exact div_of_roundsTo hc (by rwa [hvalue])

/-- **A decimal becomes the double that its value rounds to**, whether it is computed from two
doubles or from its digits. -/
theorem toModel_ofScientific {m : Nat} {k : Int} (hm : m ≠ 0) (hhigh : k ≤ 2048)
    (hlow : -(2048 + m.log2) ≤ k) (hc : IsCanonical M E) (h : RoundsTo (m * 10 ^ k) M E) :
    (Float.ofScientific m (k < 0) k.natAbs).toModel = .pack (.finite .positive M E hc.pos) := by
  unfold Float.ofScientific
  split
  · next hsmall =>
    have hcount : k.natAbs < 23 := by omega
    by_cases hk : k < 0
    · have hvalue : (m * 10 ^ k : ℚ) = m / 10 ^ k.natAbs := by
        obtain ⟨n, rfl⟩ : ∃ n : Nat, k = -(n : Int) := ⟨k.natAbs, by omega⟩
        rw [Int.natAbs_neg, Int.natAbs_natCast, zpow_neg, zpow_natCast, div_eq_mul_inv]
      simp only [hk, decide_true, if_true]
      exact toModel_div_powerOfTen hcount hm hsmall.1 hc (hvalue ▸ h)
    · have hvalue : (m * 10 ^ k : ℚ) = m * 10 ^ k.natAbs := by
        obtain ⟨n, rfl⟩ := Int.eq_ofNat_of_zero_le (Int.not_lt.mp hk)
        rw [Int.natAbs_natCast, zpow_natCast]
      simp only [hk, decide_false]
      exact toModel_mul_powerOfTen hcount hm hsmall.1 hc (hvalue ▸ h)
  · have hexponent :
        (if decide (k < 0) = true then Int.negOfNat k.natAbs else Int.ofNat k.natAbs) = k := by
      by_cases hk : k < 0
      · rw [decide_eq_true hk, if_pos rfl, Int.negOfNat_eq, Int.ofNat_eq_natCast]
        omega
      · rw [decide_eq_false hk, if_neg (by decide)]
        exact Int.natAbs_of_nonneg (by omega)
    simp only [hexponent]
    exact congrArg Float.Model.pack (ofScientific_of_roundsTo hm hhigh hlow hc h)

end PointCloud.Double
