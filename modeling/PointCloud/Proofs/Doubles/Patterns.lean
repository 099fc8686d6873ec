import PointCloud.Proofs.Doubles.Nearest

/-!
# The patterns of doubles

A mantissa and an exponent in canonical form are packed into a pattern of bits,
and unpacking gives them back, `unpack_pack`.  Without the sign the pattern is the
exponent, counted from the least one, in front of the mantissa, whose leading bit
is added to the exponent: `toNat_pack`.  The same holds of the reading of a double
as a whole number times a power of two, `ofDouble?_eq_some`, so a double is known
from it.
-/

namespace PointCloud.Double

open Float.Model Float.Model.UnpackedFloat

/-! ### The sign -/

theorem magnitude_neg (x : Double) : (-x).magnitude = x.magnitude := by
  have hneg : (-x).bits.toNat = x.bits.toNat ^^^ 2 ^ 63 := rfl
  have hmod : (x.bits.toNat ^^^ 2 ^ 63) % 2 ^ 63 = x.bits.toNat % 2 ^ 63 ^^^ 2 ^ 63 % 2 ^ 63 :=
    Nat.xor_mod_two_pow
  simp only [magnitude, signBit, UInt64.toNat_mod, UInt64.reduceToNat, hneg]
  simpa using hmod

theorem isNegative_neg (x : Double) : (-x).isNegative = !x.isNegative := by
  have hneg : (-x).bits.toNat = x.bits.toNat ^^^ 2 ^ 63 := rfl
  have hdiv : (x.bits.toNat ^^^ 2 ^ 63) / 2 ^ 63 = x.bits.toNat / 2 ^ 63 ^^^ 2 ^ 63 / 2 ^ 63 :=
    Nat.xor_div_two_pow
  have hlt := x.bits.toNat_lt
  have hzero : 0 ^^^ 2 ^ 63 / 2 ^ 63 = 1 := by decide
  have hone : 1 ^^^ 2 ^ 63 / 2 ^ 63 = 0 := by decide
  simp only [isNegative, signBit, UInt64.le_iff_toNat_le, UInt64.reduceToNat, hneg]
  obtain hsign | hsign : x.bits.toNat / 2 ^ 63 = 0 ∨ x.bits.toNat / 2 ^ 63 = 1 := by omega
  · rw [hsign, hzero] at hdiv
    rw [decide_eq_true (by omega), decide_eq_false (by omega)]
    rfl
  · rw [hsign, hone] at hdiv
    rw [decide_eq_false (by omega), decide_eq_true (by omega)]
    rfl

/-- A pattern below the bit of the sign is a magnitude. -/
theorem magnitude_of_lt {x : Double} (h : x.bits.toNat < 2 ^ 63) :
    x.isNegative = false ∧ x.magnitude = x.bits.toNat := by
  simp only [isNegative, magnitude, signBit, UInt64.le_iff_toNat_le, UInt64.toNat_mod,
    UInt64.reduceToNat, decide_eq_false_iff_not]
  omega

/-! ### Mantissa and exponent -/

/-- A double that has no mantissa and exponent is not finite. -/
theorem isFinite_of_ofDouble? {x : Double} (h : Dyadic.ofDouble? x = none) :
    x.isFinite = false := by
  rw [← Bool.not_eq_true]
  intro hfinite
  simp only [Dyadic.ofDouble?, hfinite, Bool.not_true, Bool.false_eq_true, if_false] at h
  split at h
  · cases h
  · cases h

/-- The mantissa and the exponent of a finite double make up its pattern. -/
theorem ofDouble?_eq_some {x : Double} {d : Dyadic} (h : Dyadic.ofDouble? x = some d) :
    d.negative = x.isNegative ∧ x.magnitude = (d.exponent + 1074).toNat * 2 ^ 52 + d.mantissa ∧
      ((d.mantissa = 0 ∧ d.exponent = -1074) ∨ IsCanonical d.mantissa d.exponent) := by
  cases hfinite : x.isFinite with
  | false => simp [Dyadic.ofDouble?, hfinite] at h
  | true =>
    have hlt : x.magnitude < 0x7FF0000000000000 := of_decide_eq_true hfinite
    simp only [Dyadic.ofDouble?, hfinite, Bool.not_true, Bool.false_eq_true, if_false] at h
    split at h
    · next hleast =>
      cases h
      simp only [Dyadic.leadingBit] at hleast ⊢
      refine ⟨trivial, by omega, ?_⟩
      by_cases hzero : x.magnitude = 0
      · exact .inl ⟨by omega, trivial⟩
      · exact .inr ⟨by omega, by omega, by omega, by omega, by omega⟩
    · next hleast =>
      cases h
      simp only [Dyadic.leadingBit] at hleast ⊢
      exact ⟨trivial, by omega, .inr ⟨by omega, by omega, by omega, by omega, by omega⟩⟩

section

variable {M : Nat} {E : Int}

/-- The pattern of a positive double leaves the sign bit free. -/
theorem IsCanonical.pattern_lt (hc : IsCanonical M E) : (E + 1074).toNat * 2 ^ 52 + M < 2 ^ 63 := by
  have hlt := hc.lt
  have hgreatest := hc.greatest
  omega

/-- A mantissa of 53 digits is one with its leading bit. -/
theorem IsCanonical.log_add_one_iff (hc : IsCanonical M E) : M.log2 + 1 = 53 ↔ 2 ^ 52 ≤ M := by
  have hne := Nat.ne_of_gt hc.pos
  have hlt := (Nat.log2_lt hne).mpr hc.lt
  have hle : 52 ≤ M.log2 ↔ 2 ^ 52 ≤ M := Nat.le_log2 hne
  omega

/-- The leading bit of a full mantissa is not stored; that it is there is seen from the exponent,
which is then not zero. -/
theorem pack_finite (hc : IsCanonical M E) (s : Sign) :
    UnpackedFloat.pack Format.binary64 (.finite s M E hc.pos) =
      packComponents Format.binary64 s
        (BitVec.ofNat 11 (if 2 ^ 52 ≤ M then (E + 1075).toNat else 0)) (BitVec.ofNat 52 M) := by
  have hlog := hc.log_add_one_iff
  have hleast := hc.least
  have hgreatest := hc.greatest
  have hbiased : (E + (Format.binary64.exponentBias : Int) +
      (Format.binary64.mantissaBitsWithoutImplicit : Int)).toNat = (E + 1075).toNat := by
    congr 1
    simp only [Format.exponentBias]
    norm_num
    omega
  have hbits : Format.binary64.mantissaBits = 53 := rfl
  have hfinite : ¬ 2 ^ 11 ≤ (E + 1075).toNat + 1 := by omega
  simp only [UnpackedFloat.pack, hbiased, hbits, hlog]
  rw [if_neg hfinite]
  split <;> rfl

/-- The pattern of a positive double is its exponent in front of its fraction. -/
theorem toNat_packComponents (e : BitVec 11) (m : BitVec 52) :
    (packComponents Format.binary64 .positive e m).toNat = e.toNat * 2 ^ 52 + m.toNat := by
  have happend : packComponents Format.binary64 .positive e m = (0#1 ++ e) ++ m := rfl
  rw [happend, BitVec.toNat_append, BitVec.toNat_append, ← Nat.shiftLeft_add_eq_or_of_lt m.isLt,
    ← Nat.shiftLeft_add_eq_or_of_lt e.isLt]
  simp [Nat.shiftLeft_eq]

/-- The pattern of a positive finite double. -/
theorem toNat_pack (hc : IsCanonical M E) :
    (UnpackedFloat.pack Format.binary64 (.finite .positive M E hc.pos)).toNat =
      (E + 1074).toNat * 2 ^ 52 + M := by
  rw [pack_finite hc, toNat_packComponents, BitVec.toNat_ofNat, BitVec.toNat_ofNat]
  obtain ⟨hpos, hlt, hleast, hgreatest, hfull⟩ := hc
  split <;> omega

/-- A double is known by its pattern. -/
theorem eq_pack_of_toBits (hc : IsCanonical M E) {m : Float.Model}
    (h : m.toBits.toNat = (E + 1074).toNat * 2 ^ 52 + M) :
    m = .pack (.finite .positive M E hc.pos) := by
  obtain ⟨bits, valid⟩ := m
  have hbits : bits = (Float.Model.pack (.finite .positive M E hc.pos)).toBits := by
    rw [← UInt64.toNat_inj, h]
    exact (toNat_pack hc).symm
  subst hbits
  rfl

/-- A finite double is unpacked as it was packed. -/
theorem unpack_pack (hc : IsCanonical M E) (s : Sign) :
    (Float.Model.pack (.finite s M E hc.pos)).unpack = .finite s M E hc.pos := by
  have hunpack : (Float.Model.pack (.finite s M E hc.pos)).unpack =
      UnpackedFloat.unpack Format.binary64
        (UnpackedFloat.pack Format.binary64 (.finite s M E hc.pos)) := rfl
  rw [hunpack, pack_finite hc]
  obtain ⟨hpos, hlt, hleast, hgreatest, hfull⟩ := hc
  have hmantissa : (BitVec.ofNat 52 M).toNat = M % 2 ^ 52 := BitVec.toNat_ofNat ..
  unfold UnpackedFloat.unpack
  simp only [unpackMantissa_packComponents, unpackExponent_packComponents,
    unpackSign_packComponents, Sign.ofBitVec_toBitVec]
  by_cases hnormal : 2 ^ 52 ≤ M
  · have hexponent : (BitVec.ofNat 11 (E + 1075).toNat).toNat = (E + 1075).toNat := by
      rw [BitVec.toNat_ofNat, Nat.mod_eq_of_lt (by omega)]
    have hones : BitVec.ofNat 11 (E + 1075).toNat ≠ -1#11 := by
      intro h
      have htoNat : (-1#11).toNat = 2047 := by decide
      rw [← BitVec.toNat_inj, hexponent, htoNat] at h
      omega
    have hzero : BitVec.ofNat 11 (E + 1075).toNat ≠ 0#11 := by
      intro h
      rw [← BitVec.toNat_inj, hexponent] at h
      simp at h
      omega
    have hlead : (1#1 ++ BitVec.ofNat 52 M).toNat = 2 ^ 52 + M % 2 ^ 52 := by
      rw [BitVec.toNat_append, ← Nat.shiftLeft_add_eq_or_of_lt (BitVec.ofNat 52 M).isLt, hmantissa]
      rfl
    rw [if_pos hnormal, if_neg hones, if_neg hzero, finite.injEq, hlead, hexponent]
    refine ⟨rfl, by omega, ?_⟩
    simp only [Format.exponentBias]
    norm_num
    omega
  · have hzero : BitVec.ofNat 52 M ≠ 0#52 := by
      intro h
      rw [← BitVec.toNat_inj, hmantissa] at h
      simp at h
      omega
    rw [if_neg hnormal, if_neg (by decide), if_pos rfl, dif_neg hzero, finite.injEq, hmantissa]
    refine ⟨rfl, by omega, ?_⟩
    rw [hfull.resolve_left hnormal]
    rfl

end

end PointCloud.Double
