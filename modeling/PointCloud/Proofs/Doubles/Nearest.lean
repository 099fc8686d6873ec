import Mathlib
import PointCloud.Decimal.Dyadic

/-!
# Rounding to the nearest double

The arithmetic of doubles first gets the leading binary digits of an exact result,
with two bits for what is behind them, then shifts these digits to the exponent of
the result and rounds.  `Represents` says which number the digits and the two bits
stand for; a shift does not lose it.

A positive finite double is a mantissa of 53 bits times a power of two,
`IsCanonical`, and the numbers that round to it are those of an interval around
it, `RoundsTo`.  `roundWithAccuracy_of_roundsTo` says that the rounding gives the
double of the interval in which the number is.  Three places of the interval have
to be told apart: a number with as many digits as the double has, a number below
the normal doubles, and a number just below a power of two, which has one binary
digit more behind the point and is rounded up to the power.
-/

namespace PointCloud.Double

open Float.Model Float.Model.UnpackedFloat

/-! ### Digits and what is behind them -/

/-- The number of a whole part and two bits for the fraction: whether it is a half or more, and
whether there is something besides that. -/
def Represents (m : ExtendedMantissa) (r : ℚ) : Prop :=
  match m.roundBit, m.stickyBit with
  | false, false => r = m.mantissa
  | false, true => m.mantissa < r ∧ r < m.mantissa + 1 / 2
  | true, false => r = m.mantissa + 1 / 2
  | true, true => m.mantissa + 1 / 2 < r ∧ r < m.mantissa + 1

section

variable {m : ExtendedMantissa} {r : ℚ}

/-- A whole number is represented by itself. -/
theorem represents_exact (n : Nat) : Represents (.ofMantissaAndAccuracy n .exact) n := rfl

/-- A quotient is given by its whole part and by how the remainder compares with the half. -/
theorem represents_fraction (n : Nat) {d : Nat} (hd : 0 < d) :
    Represents (.ofMantissaAndAccuracy (n / d) (accuracyOfFraction (n % d) d)) (n / d : ℚ) := by
  have hd' : (0 : ℚ) < d := by exact_mod_cast hd
  have hlt : ((n % d : Nat) : ℚ) < d := by exact_mod_cast Nat.mod_lt n hd
  have hsplit : (n / d : ℚ) = (n / d : Nat) + (n % d : Nat) / d := by
    have hn : (n : ℚ) = d * (n / d : Nat) + (n % d : Nat) := by
      exact_mod_cast (Nat.div_add_mod n d).symm
    rw [hn]
    field_simp
  rw [hsplit]
  generalize n / d = q
  generalize n % d = rest at *
  unfold accuracyOfFraction
  by_cases hrest : rest = 0
  · simp [hrest, Represents, ExtendedMantissa.ofMantissaAndAccuracy]
  · have hpos : (0 : ℚ) < rest / d := div_pos (by exact_mod_cast Nat.pos_of_ne_zero hrest) hd'
    rw [if_neg hrest]
    cases hcompare : compare (2 * rest) d with
    | lt =>
      have hhalf : (2 * rest : ℚ) < d := by exact_mod_cast Nat.compare_eq_lt.mp hcompare
      have hbelow : (rest / d : ℚ) < 1 / 2 := by
        rw [div_lt_div_iff₀ hd' (by norm_num)]
        linarith
      simp only [Represents, ExtendedMantissa.ofMantissaAndAccuracy]
      constructor <;> linarith
    | eq =>
      have hhalf : (2 * rest : ℚ) = d := by exact_mod_cast Nat.compare_eq_eq.mp hcompare
      simp only [Represents, ExtendedMantissa.ofMantissaAndAccuracy]
      rw [← hhalf]
      field_simp
    | gt =>
      have hhalf : (d : ℚ) < 2 * rest := by exact_mod_cast Nat.compare_eq_gt.mp hcompare
      have habove : (1 / 2 : ℚ) < rest / d := by
        rw [div_lt_div_iff₀ (by norm_num) hd']
        linarith
      have hone : (rest / d : ℚ) < 1 := by rwa [div_lt_one hd']
      simp only [Represents, ExtendedMantissa.ofMantissaAndAccuracy]
      constructor <;> linarith

/-- The last digit goes into the two bits. -/
theorem Represents.shiftRightOne (h : Represents m r) : Represents m.shiftRightOne (r / 2) := by
  obtain ⟨n, roundBit, stickyBit⟩ := m
  obtain ⟨half, heven | hodd⟩ : ∃ half, n = 2 * half ∨ n = 2 * half + 1 := ⟨n / 2, by omega⟩
  · have hhalf : n / 2 = half := by omega
    have hbit : (n % 2 != 0) = false := by simp [heven]
    have hn : (n : ℚ) = 2 * half := by exact_mod_cast heven
    simp only [ExtendedMantissa.shiftRightOne, hhalf, hbit]
    cases roundBit <;> cases stickyBit <;>
      simp only [Represents, hn, Bool.or_false, Bool.or_true] at h ⊢
    · linarith
    · constructor <;> linarith
    · constructor <;> linarith
    · constructor <;> linarith
  · have hhalf : n / 2 = half := by omega
    have hbit : (n % 2 != 0) = true := by simp [hodd]
    have hn : (n : ℚ) = 2 * half + 1 := by exact_mod_cast hodd
    simp only [ExtendedMantissa.shiftRightOne, hhalf, hbit]
    cases roundBit <;> cases stickyBit <;>
      simp only [Represents, hn, Bool.or_false, Bool.or_true] at h ⊢
    · linarith
    · constructor <;> linarith
    · constructor <;> linarith
    · constructor <;> linarith

/-- Digits that are shifted out go on being represented by the two bits. -/
theorem Represents.shiftRight (h : Represents m r) (count : Nat) :
    Represents (m >>> count) (r / 2 ^ count) := by
  change Represents (Nat.repeat ExtendedMantissa.shiftRightOne count m) (r / 2 ^ count)
  induction count with
  | zero => simpa [Nat.repeat] using h
  | succ count ih =>
    rw [pow_succ, ← div_div]
    exact ih.shiftRightOne

/-- The digits at one exponent, shifted to another one. -/
theorem Represents.shiftTo {v : ℚ} {e t : Int} (h : Represents m (v / 2 ^ e)) (ht : e ≤ t) :
    Represents (m >>> (t - e).toNat) (v / 2 ^ t) := by
  have hshift := h.shiftRight (t - e).toNat
  have hexponent : e + ((t - e).toNat : Int) = t := by omega
  rwa [div_div, ← zpow_natCast, ← zpow_add₀ (by norm_num), hexponent] at hshift

/-- A number is represented by its whole part. -/
theorem Represents.mantissa_le (h : Represents m r) : m.mantissa ≤ r ∧ r < m.mantissa + 1 := by
  obtain ⟨n, roundBit, stickyBit⟩ := m
  cases roundBit <;> cases stickyBit <;> simp only [Represents] at h ⊢ <;> constructor <;> linarith

/-- The digits are rounded to the nearest whole number, and to the even one of two. -/
theorem Represents.roundedMantissa_eq (h : Represents m r) {n : Nat} (hlow : n - 1 / 2 ≤ r)
    (hhigh : r ≤ n + 1 / 2) (htie : n % 2 = 0 ∨ (n - 1 / 2 < r ∧ r < n + 1 / 2)) :
    m.roundedMantissa = n := by
  obtain ⟨k, roundBit, stickyBit⟩ := m
  have hle : k ≤ n := by
    have hlt : (k : ℚ) < n + 1 := by linarith [h.mantissa_le.1]
    exact Nat.lt_add_one_iff.mp (by exact_mod_cast hlt)
  have hge : n ≤ k + 1 := by
    have hlt : (n : ℚ) < k + 1 + 1 := by linarith [h.mantissa_le.2]
    exact Nat.lt_add_one_iff.mp (by exact_mod_cast hlt)
  cases roundBit <;> cases stickyBit <;> simp only [Represents] at h <;>
    simp only [ExtendedMantissa.roundedMantissa, ExtendedMantissa.accuracy,
      Accuracy.roundToNearestEven]
  · have hlt : (n : ℚ) < k + 1 := by linarith
    have hlt' : n < k + 1 := by exact_mod_cast hlt
    omega
  · have hlt : (n : ℚ) < k + 1 := by linarith
    have hlt' : n < k + 1 := by exact_mod_cast hlt
    omega
  · -- Exactly between two whole numbers: the even one is taken.
    obtain heven | ⟨hbelow, habove⟩ := htie
    · omega
    · have hlt : (n : ℚ) < k + 1 := by linarith
      have hgt : (k : ℚ) < n := by linarith
      have hlt' : n < k + 1 := by exact_mod_cast hlt
      have hgt' : k < n := by exact_mod_cast hgt
      omega
  · have hgt : (k : ℚ) < n := by linarith
    have hgt' : k < n := by exact_mod_cast hgt
    omega

end

/-! ### The numbers that round to a double -/

/-- The mantissa and the exponent of a positive finite double.  The mantissa has 53 bits, fewer only
where the exponent is the least one. -/
structure IsCanonical (mantissa : Nat) (exponent : Int) : Prop where
  pos : 0 < mantissa
  lt : mantissa < 2 ^ 53
  least : -1074 ≤ exponent
  greatest : exponent ≤ 971
  full : 2 ^ 52 ≤ mantissa ∨ exponent = -1074

/-- The numbers that round to a double: those that are nearer to it than to its neighbours, and the
two in the middle if the mantissa is even.  Below a power of two the neighbour is only half as far
away as above it. -/
def RoundsTo (v : ℚ) (mantissa : Nat) (exponent : Int) : Prop :=
  let low : ℚ := mantissa - if mantissa = Dyadic.leadingBit then 1 / 4 else 1 / 2
  let high : ℚ := mantissa + 1 / 2
  let r := v / 2 ^ exponent
  if mantissa % 2 = 0 then low ≤ r ∧ r ≤ high else low < r ∧ r < high

section

variable {v : ℚ} {M : Nat} {E : Int}

/-- Nothing is rounded up by more than half a step. -/
theorem RoundsTo.low_le (h : RoundsTo v M E) : (M : ℚ) - 1 / 2 ≤ v / 2 ^ E := by
  simp only [RoundsTo] at h
  split at h <;> split at h <;> linarith [h.1]

/-- Nothing is rounded up to a power of two by more than a quarter of a step. -/
theorem RoundsTo.low_le_of_leadingBit (h : RoundsTo v Dyadic.leadingBit E) :
    (Dyadic.leadingBit : ℚ) - 1 / 4 ≤ v / 2 ^ E := by
  have heven : Dyadic.leadingBit % 2 = 0 := by decide
  simp only [RoundsTo, if_pos heven, if_true] at h
  exact h.1

/-- Nothing is rounded down by more than half a step. -/
theorem RoundsTo.le_high (h : RoundsTo v M E) : v / 2 ^ E ≤ (M : ℚ) + 1 / 2 := by
  simp only [RoundsTo] at h
  split at h <;> linarith [h.2]

/-- Of two doubles that are equally near, the one with the even mantissa is taken. -/
theorem RoundsTo.tie (h : RoundsTo v M E) :
    M % 2 = 0 ∨ ((M : ℚ) - 1 / 2 < v / 2 ^ E ∧ v / 2 ^ E < (M : ℚ) + 1 / 2) := by
  simp only [RoundsTo] at h
  by_cases heven : M % 2 = 0
  · exact .inl heven
  · rw [if_neg heven] at h
    refine .inr ⟨?_, h.2⟩
    split at h <;> linarith [h.1]

/-- Inside of the interval the parity of the mantissa does not matter. -/
theorem RoundsTo.of_between
    (hlow : (M - if M = Dyadic.leadingBit then 1 / 4 else 1 / 2 : ℚ) * 2 ^ E < v)
    (hhigh : v < (M + 1 / 2) * 2 ^ E) : RoundsTo v M E := by
  have hunit : (0 : ℚ) < 2 ^ E := zpow_pos (by norm_num) E
  rw [← lt_div_iff₀ hunit] at hlow
  rw [← div_lt_iff₀ hunit] at hhigh
  simp only [RoundsTo]
  split
  · exact ⟨hlow.le, hhigh.le⟩
  · exact ⟨hlow, hhigh⟩

/-- A double rounds to itself. -/
theorem RoundsTo.self (M : Nat) (E : Int) : RoundsTo (M * 2 ^ E) M E := by
  have hunit : (0 : ℚ) < 2 ^ E := zpow_pos (by norm_num) E
  apply RoundsTo.of_between
  · split <;> nlinarith
  · nlinarith

/-- What is rounded to a double is at least half of its unit. -/
theorem RoundsTo.zpow_le (hc : IsCanonical M E) (h : RoundsTo v M E) : 2 ^ (E - 1) ≤ v := by
  have hunit : (0 : ℚ) < 2 ^ E := zpow_pos (by norm_num) E
  have hM : (1 : ℚ) ≤ M := by exact_mod_cast hc.pos
  rw [zpow_sub_one₀ (by norm_num), mul_comm, ← le_div_iff₀ hunit]
  linarith [h.low_le]

/-- What is rounded to a positive double is positive. -/
theorem RoundsTo.pos (hc : IsCanonical M E) (h : RoundsTo v M E) : 0 < v :=
  (zpow_pos (by norm_num) _).trans_le (h.zpow_le hc)

/-- What is rounded to a double is below the end of its exponent. -/
theorem RoundsTo.lt_zpow (hc : IsCanonical M E) (h : RoundsTo v M E) : v < 2 ^ (53 + E) := by
  have hunit : (0 : ℚ) < 2 ^ E := zpow_pos (by norm_num) E
  have hM : (M : ℚ) + 1 ≤ 2 ^ 53 := by exact_mod_cast hc.lt
  have hsplit : (2 : ℚ) ^ (53 + E) = 2 ^ 53 * 2 ^ E := by
    rw [← zpow_natCast, ← zpow_add₀ (by norm_num)]
    rfl
  rw [hsplit, ← div_lt_iff₀ hunit]
  linarith [h.le_high]

end

/-! ### The exponent of the result -/

section

variable {s : Sign} {n M : Nat} {e t E L : Int} {accuracy : Accuracy} {v : ℚ}

/-- The exponent leaves room for 53 digits, but it is never less than the least one. -/
theorem targetExponent_eq (n : Nat) (e : Int) :
    Format.binary64.targetExponent (totalExponent n e) = max ((n.log2 : Int) + e - 52) (-1074) := by
  simp only [Format.targetExponent, totalExponent, Format.mantissaBits, Format.minExponent]
  norm_num
  omega

/-- Digits that fit stay as they are. -/
theorem shiftToTargetExponent_of_lt (hn : n < 2 ^ 53) (he : -1074 ≤ e) :
    shiftToTargetExponent Format.binary64 n e .exact = (⟨n, false, false⟩, e) := by
  have hlog : n.log2 ≤ 52 := by
    by_cases hzero : n = 0
    · simp [hzero]
    · have := (Nat.log2_lt hzero).mpr hn
      omega
  have hshift : (max ((n.log2 : Int) + e - 52) (-1074) - e).toNat = 0 := by omega
  rw [shiftToTargetExponent, targetExponent_eq, shiftToExponent, hshift]
  simp [HShiftRight.hShiftRight, Nat.repeat, ExtendedMantissa.ofMantissaAndAccuracy]

/-- Digits that have been rounded up to one more digit are shifted once more. -/
theorem shiftToTargetExponent_carry (he : -1074 ≤ e) :
    shiftToTargetExponent Format.binary64 (2 ^ 53) e .exact = (⟨2 ^ 52, false, false⟩, e + 1) := by
  have hshift : (max (((2 ^ 53 : Nat).log2 : Int) + e - 52) (-1074) - e).toNat = 1 := by
    rw [Nat.log2_two_pow]
    omega
  rw [shiftToTargetExponent, targetExponent_eq, shiftToExponent, hshift]
  simp [HShiftRight.hShiftRight, Nat.repeat, ExtendedMantissa.ofMantissaAndAccuracy,
    ExtendedMantissa.shiftRightOne]

/-- Digits below the exponent are shifted out. -/
theorem shiftToTargetExponent_eq
    (ht : Format.binary64.targetExponent (totalExponent n e) = t) (he : e ≤ t) :
    -1074 ≤ t ∧ shiftToTargetExponent Format.binary64 n e accuracy =
      (ExtendedMantissa.ofMantissaAndAccuracy n accuracy >>> (t - e).toNat, t) := by
  constructor
  · rw [← ht, targetExponent_eq]
    exact le_max_right _ _
  · have hexponent : e + ((t - e).toNat : Int) = t := by omega
    rw [shiftToTargetExponent, ht, shiftToExponent, hexponent]

/-- A mantissa that is rounded and still has 53 digits is that of the double. -/
theorem roundWithAccuracy_eq (ht : Format.binary64.targetExponent (totalExponent n e) = t)
    (he : e ≤ t) (hpos : 0 < M) (hM : M < 2 ^ 53)
    (hround : (ExtendedMantissa.ofMantissaAndAccuracy n accuracy >>>
      (t - e).toNat).roundedMantissa = M) :
    roundWithAccuracy Format.binary64 s n e accuracy = .finite s M t hpos := by
  obtain ⟨hleast, hfirst⟩ := shiftToTargetExponent_eq ht he
  have hsecond := shiftToTargetExponent_of_lt hM hleast
  rw [roundWithAccuracy, hfirst]
  simp only [hround, hsecond, dif_neg (Nat.ne_of_gt hpos)]

/-- A mantissa that is rounded up to 54 digits is halved for the next exponent. -/
theorem roundWithAccuracy_carry (ht : Format.binary64.targetExponent (totalExponent n e) = t)
    (he : e ≤ t)
    (hround : (ExtendedMantissa.ofMantissaAndAccuracy n accuracy >>>
      (t - e).toNat).roundedMantissa = 2 ^ 53) :
    roundWithAccuracy Format.binary64 s n e accuracy =
      .finite s (2 ^ 52) (t + 1) (by decide) := by
  obtain ⟨hleast, hfirst⟩ := shiftToTargetExponent_eq ht he
  have hsecond := shiftToTargetExponent_carry hleast
  rw [roundWithAccuracy, hfirst]
  simp only [hround, hsecond]
  rfl

/-- The accuracy is not in the mantissa. -/
theorem mantissa_ofMantissaAndAccuracy (n : Nat) (accuracy : Accuracy) :
    (ExtendedMantissa.ofMantissaAndAccuracy n accuracy).mantissa = n := by
  cases accuracy with
  | exact => rfl
  | inexact order => cases order <;> rfl

/-- What is represented without any digits is less than the unit. -/
theorem Represents.lt_of_zero (h : Represents (.ofMantissaAndAccuracy 0 accuracy) (v / 2 ^ e)) :
    v < 2 ^ e := by
  have hunit : (0 : ℚ) < 2 ^ e := zpow_pos (by norm_num) e
  have hlt := h.mantissa_le.2
  rwa [mantissa_ofMantissaAndAccuracy, Nat.cast_zero, zero_add, div_lt_one hunit] at hlt

/-- The number of binary digits says how large the number is. -/
theorem Represents.log_bounds
    (h : Represents (.ofMantissaAndAccuracy n accuracy) (v / 2 ^ e)) (hn : n ≠ 0) :
    (2 : ℚ) ^ ((n.log2 : Int) + e) ≤ v ∧ v < (2 : ℚ) ^ ((n.log2 : Int) + 1 + e) := by
  have hunit : (0 : ℚ) < 2 ^ e := zpow_pos (by norm_num) e
  obtain ⟨hle, hlt⟩ := h.mantissa_le
  rw [mantissa_ofMantissaAndAccuracy] at hle hlt
  have hlow : (2 : ℚ) ^ n.log2 ≤ n := by exact_mod_cast Nat.log2_self_le hn
  have hhigh : (n : ℚ) + 1 ≤ 2 ^ (n.log2 + 1) := by exact_mod_cast Nat.lt_log2_self
  constructor
  · rw [zpow_add₀ (by norm_num), zpow_natCast, ← le_div_iff₀ hunit]
    exact hlow.trans hle
  · have hcast : ((n.log2 : Int) + 1) = ((n.log2 + 1 : Nat) : Int) := by push_cast; rfl
    rw [hcast, zpow_add₀ (by norm_num), zpow_natCast, ← div_lt_iff₀ hunit]
    exact hlt.trans_le hhigh

/-- A number between two powers of two, given with enough digits, has its leading digit where the
lower one has. -/
theorem Represents.log_eq (h : Represents (.ofMantissaAndAccuracy n accuracy) (v / 2 ^ e))
    (hwide : 52 ≤ n.log2 ∨ e ≤ -1074) (hL : -1074 ≤ L) (hlow : (2 : ℚ) ^ L ≤ v)
    (hhigh : v < (2 : ℚ) ^ (L + 1)) : (n.log2 : Int) + e = L := by
  have hn : n ≠ 0 := by
    intro hzero
    subst hzero
    have he : e ≤ -1074 := hwide.resolve_left (by decide)
    have hlt := (zpow_lt_zpow_iff_right₀ one_lt_two).mp (hlow.trans_lt h.lt_of_zero)
    omega
  obtain ⟨hlogLow, hlogHigh⟩ := h.log_bounds hn
  have hbelow := (zpow_lt_zpow_iff_right₀ one_lt_two).mp (hlogLow.trans_lt hhigh)
  have habove := (zpow_lt_zpow_iff_right₀ one_lt_two).mp (hlow.trans_lt hlogHigh)
  omega

/-! ### Rounding -/

/-- A number with as many binary digits before the point of the exponent as the double has. -/
theorem roundWithAccuracy_of_le (hrep : Represents (.ofMantissaAndAccuracy n accuracy) (v / 2 ^ e))
    (hwide : 52 ≤ n.log2 ∨ e ≤ -1074) (hc : IsCanonical M E) (h : RoundsTo v M E)
    (hv : (2 : ℚ) ^ (52 + E) ≤ v) :
    roundWithAccuracy Format.binary64 s n e accuracy = .finite s M E hc.pos := by
  have hleast := hc.least
  have hhigh : v < 2 ^ (52 + E + 1) := by
    have hexponent : 52 + E + 1 = 53 + E := by omega
    rw [hexponent]
    exact h.lt_zpow hc
  have hlog := hrep.log_eq hwide (by omega) hv hhigh
  have ht : Format.binary64.targetExponent (totalExponent n e) = E := by
    rw [targetExponent_eq]
    omega
  have he : e ≤ E := by omega
  exact roundWithAccuracy_eq ht he hc.pos hc.lt
    ((hrep.shiftTo he).roundedMantissa_eq h.low_le h.le_high h.tie)

/-- A number below the normal doubles. -/
theorem roundWithAccuracy_of_least
    (hrep : Represents (.ofMantissaAndAccuracy n accuracy) (v / 2 ^ e))
    (hwide : 52 ≤ n.log2 ∨ e ≤ -1074) (hc : IsCanonical M (-1074)) (h : RoundsTo v M (-1074))
    (hv : v < 2 ^ (52 + -1074 : Int)) :
    roundWithAccuracy Format.binary64 s n e accuracy = .finite s M (-1074) hc.pos := by
  have hlog : (n.log2 : Int) + e < 52 + -1074 := by
    by_cases hn : n = 0
    · have he : e ≤ -1074 := hwide.resolve_left (by simp [hn])
      simp only [hn, Nat.log2_zero]
      omega
    · exact (zpow_lt_zpow_iff_right₀ one_lt_two).mp ((hrep.log_bounds hn).1.trans_lt hv)
  have ht : Format.binary64.targetExponent (totalExponent n e) = -1074 := by
    rw [targetExponent_eq]
    omega
  have he : e ≤ -1074 := by omega
  exact roundWithAccuracy_eq ht he hc.pos hc.lt
    ((hrep.shiftTo he).roundedMantissa_eq h.low_le h.le_high h.tie)

/-- A number below a power of two that is rounded up to it.  It is rounded among the doubles below
the power, where it has one digit more, and the rounding carries. -/
theorem roundWithAccuracy_of_lt (hrep : Represents (.ofMantissaAndAccuracy n accuracy) (v / 2 ^ e))
    (hwide : 52 ≤ n.log2 ∨ e ≤ -1074) (hE : -1074 < E) (h : RoundsTo v Dyadic.leadingBit E)
    (hv : v < 2 ^ (52 + E)) :
    roundWithAccuracy Format.binary64 s n e accuracy = .finite s (2 ^ 52) E (by decide) := by
  have hunit : (0 : ℚ) < 2 ^ E := zpow_pos (by norm_num) E
  have hlead : (Dyadic.leadingBit : ℚ) = 2 ^ 52 := by norm_num [Dyadic.leadingBit]
  have hlow := h.low_le_of_leadingBit
  have hhigh : v / 2 ^ E < 2 ^ 52 := by
    rw [div_lt_iff₀ hunit, ← zpow_natCast, ← zpow_add₀ (by norm_num)]
    exact hv
  rw [hlead] at hlow
  have hscaled : v / 2 ^ (E - 1) = 2 * (v / 2 ^ E) := by
    have hhalf : (2 : ℚ) ^ (E - 1) = 2 ^ E / 2 := by
      rw [zpow_sub_one₀ (by norm_num)]
      rfl
    rw [hhalf]
    field_simp
  have hbelow : (2 : ℚ) ^ (51 + E) ≤ v := by
    have hsplit : (2 : ℚ) ^ (51 + E) = 2 ^ 51 * 2 ^ E := by
      rw [← zpow_natCast, ← zpow_add₀ (by norm_num)]
      rfl
    rw [hsplit, ← le_div_iff₀ hunit]
    linarith
  have hlog := hrep.log_eq hwide (by omega) hbelow (by rwa [show 51 + E + 1 = 52 + E by omega])
  have ht : Format.binary64.targetExponent (totalExponent n e) = E - 1 := by
    rw [targetExponent_eq]
    omega
  have he : e ≤ E - 1 := by omega
  have hround : (ExtendedMantissa.ofMantissaAndAccuracy n accuracy >>>
      (E - 1 - e).toNat).roundedMantissa = 2 ^ 53 := by
    apply (hrep.shiftTo he).roundedMantissa_eq _ _ (.inl (by decide))
    · rw [hscaled]
      push_cast
      linarith
    · rw [hscaled]
      push_cast
      linarith
  rw [roundWithAccuracy_carry ht he hround]
  simp

/-- **Rounding goes to the nearest double.**  The number has to be given with 53 binary digits at
least, or with all that are not below the least exponent. -/
theorem roundWithAccuracy_of_roundsTo
    (hrep : Represents (.ofMantissaAndAccuracy n accuracy) (v / 2 ^ e))
    (hwide : 52 ≤ n.log2 ∨ e ≤ -1074) (hc : IsCanonical M E) (h : RoundsTo v M E) :
    roundWithAccuracy Format.binary64 s n e accuracy = .finite s M E hc.pos := by
  by_cases hv : (2 : ℚ) ^ (52 + E) ≤ v
  · exact roundWithAccuracy_of_le hrep hwide hc h hv
  · rw [not_le] at hv
    by_cases hE : E = -1074
    · subst hE
      exact roundWithAccuracy_of_least hrep hwide hc h hv
    · -- Only below a power of two are there numbers with one digit more.
      have hM : M = Dyadic.leadingBit := by
        have hunit : (0 : ℚ) < 2 ^ E := zpow_pos (by norm_num) E
        have hfull : Dyadic.leadingBit ≤ M := hc.full.resolve_right hE
        have hlt : (M : ℚ) < Dyadic.leadingBit + 1 := by
          have hlead : (2 : ℚ) ^ (52 : Int) = Dyadic.leadingBit := by norm_num [Dyadic.leadingBit]
          rw [zpow_add₀ (by norm_num), ← div_lt_iff₀ hunit, hlead] at hv
          linarith [h.low_le]
        have hlt' : M < Dyadic.leadingBit + 1 := by exact_mod_cast hlt
        omega
      subst hM
      have hleast := hc.least
      exact roundWithAccuracy_of_lt hrep hwide (by omega) h hv

end

end PointCloud.Double
