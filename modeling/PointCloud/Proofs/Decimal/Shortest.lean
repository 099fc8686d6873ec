import PointCloud.Decimal.Shortest
import PointCloud.Proofs.Doubles.Nearest

/-!
# The shortest decimal rounds to its double

The search for the shortest decimal compares whole numbers.  Read as fractions,
these are the numbers that round to the double, `contains_iff`, so whatever is
found does, `onGrid?_cases`.

Something is always found.  The decimals with seventeen digits are so close to each
other that one of the two next to the value is nearer to it than half of the way
to the next double, `roundsTo_below`: the value has at least sixteen zeros behind
its first digit in units of their step, which is more than the 53 binary digits of
a mantissa can count.
-/

namespace PointCloud.Decimal

open Double (IsCanonical RoundsTo)

variable {M : Nat} {E : Int} {i : RoundingInterval}

/-! ### The interval as fractions -/

/-- The numerators are in quarters of the unit of the mantissa. -/
theorem ofDyadic_unit (E : Int) (a : Nat) :
    ((a <<< (E - 2).toNat : Nat) : ℚ) / ((1 <<< (2 - E).toNat : Nat) : ℚ) = a / 4 * 2 ^ E := by
  have hquarter : (2 : ℚ) ^ E = 4 * 2 ^ (E - 2) := by
    rw [zpow_sub₀ (by norm_num)]
    norm_num
    ring
  have hunit : (2 : ℚ) ^ (E - 2) = 2 ^ (E - 2).toNat / 2 ^ (2 - E).toNat := by
    rw [← zpow_natCast, ← zpow_natCast, ← zpow_sub₀ (by norm_num)]
    congr 1
    omega
  rw [Nat.shiftLeft_eq, Nat.shiftLeft_eq, hquarter, hunit]
  push_cast
  field_simp

/-- The fractions of a rounding interval have a denominator. -/
theorem ofDyadic_denominator (M : Nat) (E : Int) :
    (RoundingInterval.ofDyadic M E).denominator ≠ 0 := by
  have hpos : 0 < 1 <<< (2 - E).toNat := by
    rw [Nat.one_shiftLeft]
    exact Nat.two_pow_pos _
  exact hpos.ne'

/-- The number in the middle of its rounding interval. -/
theorem ofDyadic_value (M : Nat) (E : Int) :
    ((RoundingInterval.ofDyadic M E).value / (RoundingInterval.ofDyadic M E).denominator : ℚ) =
      M * 2 ^ E := by
  refine (ofDyadic_unit E (4 * M)).trans ?_
  push_cast
  ring

/-- Below, the interval goes half a step down, and a quarter where the steps get smaller. -/
theorem ofDyadic_low (hM : 0 < M) :
    ((RoundingInterval.ofDyadic M E).low / (RoundingInterval.ofDyadic M E).denominator : ℚ) =
      (M - if M = Dyadic.leadingBit then 1 / 4 else 1 / 2) * 2 ^ E := by
  refine (ofDyadic_unit E (4 * M - if M = Dyadic.leadingBit then 1 else 2)).trans ?_
  rw [Nat.cast_sub (by split <;> omega)]
  push_cast
  split <;> ring

/-- Above, the interval goes half a step up. -/
theorem ofDyadic_high (M : Nat) (E : Int) :
    ((RoundingInterval.ofDyadic M E).high / (RoundingInterval.ofDyadic M E).denominator : ℚ) =
      (M + 1 / 2) * 2 ^ E := by
  refine (ofDyadic_unit E (4 * M + 2)).trans ?_
  push_cast
  ring

/-- The fractions in the interval are the numbers that round to the double. -/
theorem contains_iff (hM : 0 < M) {numerator scale : Nat} (hscale : 0 < scale) :
    (RoundingInterval.ofDyadic M E).contains numerator scale = true ↔
      RoundsTo (numerator / scale) M E := by
  set i := RoundingInterval.ofDyadic M E with hi
  have hunit : (0 : ℚ) < 2 ^ E := zpow_pos (by norm_num) E
  have hscale' : (0 : ℚ) < scale := by exact_mod_cast hscale
  have hden : (0 : ℚ) < i.denominator := by
    exact_mod_cast Nat.pos_of_ne_zero (ofDyadic_denominator M E)
  have hbelow : ∀ a b : Nat, a * scale ≤ b * i.denominator ↔
      (a : ℚ) / i.denominator ≤ b / scale := by
    intro a b
    rw [div_le_div_iff₀ hden hscale']
    exact_mod_cast Iff.rfl
  have habove : ∀ a b : Nat, a * i.denominator ≤ b * scale ↔
      (a : ℚ) / scale ≤ b / i.denominator := by
    intro a b
    rw [div_le_div_iff₀ hscale' hden]
    exact_mod_cast Iff.rfl
  have hclosed : i.closed = decide (M % 2 = 0) := rfl
  simp only [RoundingInterval.contains, RoundsTo, hclosed, decide_eq_true_eq]
  rw [le_div_iff₀ hunit, div_le_iff₀ hunit, lt_div_iff₀ hunit, div_lt_iff₀ hunit,
    ← ofDyadic_low hM, ← ofDyadic_high]
  split
  · rw [Bool.and_eq_true, decide_eq_true_eq, decide_eq_true_eq, hbelow, habove]
  · rw [Bool.and_eq_true, decide_eq_true_eq, decide_eq_true_eq, ← not_le, habove, not_le,
      ← Nat.not_le, hbelow, not_le]

/-! ### Powers of ten -/

theorem powerOfTen_pos (count : Nat) : 0 < powerOfTen count := Nat.pow_pos (by decide)

theorem cast_powerOfTen (count : Nat) : (powerOfTen count : ℚ) = 10 ^ count := by
  rw [powerOfTen, Nat.pow_eq, Nat.cast_pow, Nat.cast_ofNat]

/-- A power of ten with any exponent is a fraction, one side of which is a one. -/
theorem ten_zpow (k : Int) : (10 : ℚ) ^ k = powerOfTen k.toNat / powerOfTen (-k).toNat := by
  rw [cast_powerOfTen, cast_powerOfTen, ← zpow_natCast, ← zpow_natCast, ← zpow_sub₀ (by norm_num)]
  congr 1
  omega

/-- A number has as many digits as the least power of ten above it has zeros. -/
theorem length_toDigits {n : Nat} (hn : n ≠ 0) :
    10 ^ ((Nat.toDigits 10 n).length - 1) ≤ n ∧ n < 10 ^ (Nat.toDigits 10 n).length := by
  have hpos : 0 < (Nat.toDigits 10 n).length := Nat.length_toDigits_pos
  refine ⟨?_, (Nat.length_toDigits_le_iff (by decide) hpos).mp (Nat.le_refl _)⟩
  by_cases hone : (Nat.toDigits 10 n).length = 1
  · rw [hone]
    exact Nat.one_le_iff_ne_zero.mpr hn
  · by_contra hlt
    have hle := (Nat.length_toDigits_le_iff (by decide) (by omega)).mpr (Nat.not_le.mp hlt)
    omega

/-- A number lies between the powers of ten that the count of its digits says. -/
theorem length_toDigits_zpow {n : Nat} (hn : n ≠ 0) :
    (10 : ℚ) ^ (((Nat.toDigits 10 n).length : Int) - 1) ≤ n ∧
      (n : ℚ) < 10 ^ ((Nat.toDigits 10 n).length : Int) := by
  obtain ⟨hlow, hhigh⟩ := length_toDigits hn
  have hpos : 0 < (Nat.toDigits 10 n).length := Nat.length_toDigits_pos
  have hexponent : ((Nat.toDigits 10 n).length : Int) - 1 =
      (((Nat.toDigits 10 n).length - 1 : Nat) : Int) := by
    omega
  rw [hexponent, zpow_natCast, zpow_natCast]
  exact ⟨by exact_mod_cast hlow, by exact_mod_cast hhigh⟩

/-- The value lies between two powers of ten.  The lengths of the numerator and the denominator tell
them up to one, and a comparison decides. -/
theorem magnitude_bounds (hvalue : i.value ≠ 0) (hden : i.denominator ≠ 0) :
    (10 : ℚ) ^ (i.magnitude - 1) ≤ i.value / i.denominator ∧
      (i.value / i.denominator : ℚ) < 10 ^ i.magnitude := by
  obtain ⟨hvlow, hvhigh⟩ := length_toDigits_zpow hvalue
  obtain ⟨hdlow, hdhigh⟩ := length_toDigits_zpow hden
  have hden' : (0 : ℚ) < i.denominator := by exact_mod_cast Nat.pos_of_ne_zero hden
  set guess : Int := ((Nat.toDigits 10 i.value).length : Int) -
    (Nat.toDigits 10 i.denominator).length with hguess
  have hiff : i.value * powerOfTen (-guess).toNat < i.denominator * powerOfTen guess.toNat ↔
      (i.value / i.denominator : ℚ) < 10 ^ guess := by
    have hpos : (0 : ℚ) < powerOfTen (-guess).toNat := by exact_mod_cast powerOfTen_pos _
    rw [ten_zpow, div_lt_div_iff₀ hden' hpos, mul_comm (powerOfTen guess.toNat : ℚ)]
    exact_mod_cast Iff.rfl
  have hlow : (10 : ℚ) ^ (guess - 1) ≤ i.value / i.denominator := by
    rw [le_div_iff₀ hden']
    calc (10 : ℚ) ^ (guess - 1) * i.denominator
        ≤ 10 ^ (guess - 1) * 10 ^ ((Nat.toDigits 10 i.denominator).length : Int) := by gcongr
      _ = 10 ^ (((Nat.toDigits 10 i.value).length : Int) - 1) := by
          rw [← zpow_add₀ (by norm_num)]
          congr 1
          omega
      _ ≤ i.value := hvlow
  have hhigh : (i.value / i.denominator : ℚ) < 10 ^ (guess + 1) := by
    rw [div_lt_iff₀ hden']
    calc (i.value : ℚ) < 10 ^ ((Nat.toDigits 10 i.value).length : Int) := hvhigh
      _ = 10 ^ (guess + 1) * 10 ^ (((Nat.toDigits 10 i.denominator).length : Int) - 1) := by
          rw [← zpow_add₀ (by norm_num)]
          congr 1
          omega
      _ ≤ 10 ^ (guess + 1) * i.denominator := by gcongr
  unfold RoundingInterval.magnitude
  simp only [← hguess]
  split
  · next h => exact ⟨hlow, hiff.mp h⟩
  · next h =>
    rw [Int.add_sub_cancel]
    exact ⟨not_lt.mp fun hlt => h (hiff.mpr hlt), hhigh⟩

/-! ### The decimals with so many digits -/

/-- The multiple of a power of ten that is next to the value from below. -/
def RoundingInterval.below (i : RoundingInterval) (unit : Int) : Nat :=
  i.value * powerOfTen (-unit).toNat / (i.denominator * powerOfTen unit.toNat)

/-- A fraction lies between the whole units below it and one unit more. -/
theorem below_bounds (hden : i.denominator ≠ 0) (unit : Int) :
    i.below unit * (10 : ℚ) ^ unit ≤ i.value / i.denominator ∧
      (i.value / i.denominator : ℚ) < (i.below unit + 1) * 10 ^ unit := by
  have hden' : (0 : ℚ) < i.denominator := by exact_mod_cast Nat.pos_of_ne_zero hden
  have hscale : (0 : ℚ) < powerOfTen (-unit).toNat := by exact_mod_cast powerOfTen_pos _
  have hstep : 0 < i.denominator * powerOfTen unit.toNat :=
    Nat.mul_pos (Nat.pos_of_ne_zero hden) (powerOfTen_pos _)
  have hlow : i.below unit * (i.denominator * powerOfTen unit.toNat) ≤
      i.value * powerOfTen (-unit).toNat := Nat.div_mul_le_self _ _
  have hhigh : i.value * powerOfTen (-unit).toNat <
      (i.below unit + 1) * (i.denominator * powerOfTen unit.toNat) :=
    (Nat.div_lt_iff_lt_mul hstep).mp (Nat.lt_succ_self _)
  have hlow' : (i.below unit * (i.denominator * powerOfTen unit.toNat) : ℚ) ≤
      i.value * powerOfTen (-unit).toNat := by exact_mod_cast hlow
  have hhigh' : (i.value * powerOfTen (-unit).toNat : ℚ) <
      (i.below unit + 1) * (i.denominator * powerOfTen unit.toNat) := by exact_mod_cast hhigh
  rw [ten_zpow, ← mul_div_assoc, ← mul_div_assoc, div_le_div_iff₀ hscale hden',
    div_lt_div_iff₀ hden' hscale]
  constructor <;> linarith

/-- A number of units is in the interval just if it is rounded to the double. -/
theorem contains_step_iff (hM : 0 < M) (n : Nat) (unit : Int) :
    (RoundingInterval.ofDyadic M E).contains (n * powerOfTen unit.toNat)
      (powerOfTen (-unit).toNat) = true ↔ RoundsTo (n * 10 ^ unit) M E := by
  rw [contains_iff hM (powerOfTen_pos _), ten_zpow, Nat.cast_mul, mul_div_assoc]

section

variable (magnitude : Int) (count : Nat)

/-- Among the decimals with so many digits one is found that rounds to the double, unless neither of
the two next to the value does. -/
theorem onGrid?_cases (hM : 0 < M) :
    (∃ n : Nat,
      (RoundingInterval.ofDyadic M E).onGrid? magnitude count = some (n, magnitude - count) ∧
        RoundsTo (n * 10 ^ (magnitude - count)) M E) ∨
    ((RoundingInterval.ofDyadic M E).onGrid? magnitude count = none ∧
      ¬ RoundsTo ((RoundingInterval.ofDyadic M E).below (magnitude - count) *
        10 ^ (magnitude - count)) M E ∧
      ¬ RoundsTo (((RoundingInterval.ofDyadic M E).below (magnitude - count) + 1 : Nat) *
        10 ^ (magnitude - count)) M E) := by
  have hcontains := contains_step_iff (E := E) hM
  unfold RoundingInterval.onGrid?
  simp only
  split
  · next hbelow habove =>
    left
    split
    · exact ⟨_, rfl, (hcontains _ _).mp hbelow⟩
    · exact ⟨_, rfl, (hcontains _ _).mp habove⟩
  · next hbelow _ => exact .inl ⟨_, rfl, (hcontains _ _).mp hbelow⟩
  · next _ habove => exact .inl ⟨_, rfl, (hcontains _ _).mp habove⟩
  · next hbelow habove =>
    refine .inr ⟨rfl, fun h => ?_, fun h => ?_⟩
    · exact absurd ((hcontains _ _).mpr h) (by rw [RoundingInterval.below, hbelow]; decide)
    · exact absurd ((hcontains _ _).mpr h) (by rw [RoundingInterval.below, habove]; decide)

end

/-- Of two neighbours on a grid that is fine enough, one rounds to the double between them. -/
theorem roundsTo_below (hc : IsCanonical M E) {g : ℚ} {n : Nat} (hstep : 10 ^ 16 * g ≤ M * 2 ^ E)
    (hlow : n * g ≤ M * 2 ^ E) (hhigh : M * 2 ^ E < (n + 1) * g) :
    RoundsTo (n * g) M E ∨ RoundsTo ((n + 1 : Nat) * g) M E := by
  have hunit : (0 : ℚ) < 2 ^ E := zpow_pos (by norm_num) E
  push_cast
  by_cases hlead : M = Dyadic.leadingBit
  · -- The interval is wide enough above the value alone.
    have hM : (M : ℚ) = 2 ^ 52 := by
      rw [hlead]
      norm_num [Dyadic.leadingBit]
    rw [hM] at hstep hlow hhigh
    right
    apply RoundsTo.of_between
    · rw [if_pos hlead, hM]
      linarith
    · rw [hM]
      linarith
  · -- The step is smaller than the interval is wide.
    have hM : (M : ℚ) * 2 ^ E < 2 ^ 53 * 2 ^ E := by
      have hlt : (M : ℚ) < 2 ^ 53 := by exact_mod_cast hc.lt
      gcongr
    by_cases hnear : (M - 1 / 2 : ℚ) * 2 ^ E < n * g
    · left
      apply RoundsTo.of_between
      · rwa [if_neg hlead]
      · linarith
    · right
      apply RoundsTo.of_between
      · rw [if_neg hlead]
        linarith
      · linarith

/-- Seventeen digits suffice. -/
theorem exists_onGrid (hc : IsCanonical M E) :
    ∃ d, (RoundingInterval.ofDyadic M E).onGrid? (RoundingInterval.ofDyadic M E).magnitude 17 =
      some d := by
  set i := RoundingInterval.ofDyadic M E with hi
  have hvalue : i.value ≠ 0 := by
    have hpos : 0 < (4 * M) <<< (E - 2).toNat := by
      rw [Nat.shiftLeft_eq]
      exact Nat.mul_pos (Nat.mul_pos (by decide) hc.pos) (Nat.two_pow_pos _)
    exact hpos.ne'
  obtain ⟨hmagnitude, -⟩ := magnitude_bounds hvalue (ofDyadic_denominator M E)
  obtain ⟨hlow, hhigh⟩ := below_bounds (ofDyadic_denominator M E) (i.magnitude - (17 : Nat))
  rw [ofDyadic_value] at hmagnitude hlow hhigh
  have hstep : (10 : ℚ) ^ 16 * 10 ^ (i.magnitude - (17 : Nat)) ≤ M * 2 ^ E := by
    have hexponent : ((16 : Nat) : Int) + (i.magnitude - (17 : Nat)) = i.magnitude - 1 := by omega
    rwa [← zpow_natCast, ← zpow_add₀ (by norm_num), hexponent]
  obtain ⟨n, hn, -⟩ | ⟨-, hbelow, habove⟩ := onGrid?_cases (E := E) i.magnitude 17 hc.pos
  · exact ⟨_, hn⟩
  · exfalso
    obtain h | h := roundsTo_below hc hstep hlow hhigh
    · exact hbelow h
    · exact habove h

/-- **The shortest decimal of a double rounds to it.** -/
theorem roundsTo_shortest (hc : IsCanonical M E) :
    RoundsTo ((shortest M E).1 * 10 ^ (shortest M E).2) M E := by
  set i := RoundingInterval.ofDyadic M E with hi
  have hshortest : shortest M E =
      ((List.range' 1 17).findSome? (i.onGrid? i.magnitude)).getD (M, 0) := rfl
  cases hfound : (List.range' 1 17).findSome? (i.onGrid? i.magnitude) with
  | none =>
    obtain ⟨d, hd⟩ := exists_onGrid hc
    have hnone := List.findSome?_eq_none_iff.mp hfound 17 (by decide)
    rw [hd] at hnone
    cases hnone
  | some d =>
    rw [hshortest, hfound, Option.getD_some]
    obtain ⟨count, -, hd⟩ := List.exists_of_findSome?_eq_some hfound
    obtain ⟨n, hn, hround⟩ | ⟨hnone, -⟩ := onGrid?_cases (E := E) i.magnitude count hc.pos
    · rw [← hi, hd] at hn
      cases hn
      exact hround
    · rw [← hi, hd] at hnone
      cases hnone

/-- The shortest digits of a number that is not zero are not zero either. -/
theorem shortest_ne_zero (hc : IsCanonical M E) : (shortest M E).1 ≠ 0 := by
  intro hzero
  have hpos := (roundsTo_shortest hc).pos hc
  rw [hzero, Nat.cast_zero, zero_mul] at hpos
  exact absurd hpos (lt_irrefl 0)

end PointCloud.Decimal
