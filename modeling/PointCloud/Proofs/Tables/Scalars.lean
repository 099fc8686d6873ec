import PointCloud.Proofs.Doubles.Values
import PointCloud.Scalar

/-!
# Values go through a scalar type

A scalar type takes a double to octets and octets back to a double.  A whole type
does it in two steps: its octets are the writing of one of its whole numbers,
`number`, and each of these has one writing, `octets`.  The step between whole
numbers and doubles is where digits may be lost.

On the way to the octets nothing is lost but the fraction: what a truncation leaves
has digits enough for a double again, also among the numbers of 64 bits.  On the
way from octets that were not made from a double, only the types of up to 32 bits
and the double itself come back to the same octets; a number of 64 bits may be
rounded, and the largest ones are then out of range.
-/

namespace PointCloud.Scalar

/-- Whether the values of a type are whole numbers. -/
def IsWhole (t : Scalar) : Prop := t ≠ .float ∧ t ≠ .double

/-- The binary digits of a value. -/
def bits (t : Scalar) : Nat := 8 * t.width

/-- Whether a type has numbers below zero. -/
def isSigned : Scalar → Bool
  | .signed8 | .signed16 | .signed32 | .signed64 => true
  | _ => false

/-- The least whole number of a type. -/
def least (t : Scalar) : Int := if t.isSigned then -2 ^ (t.bits - 1) else 0

/-- Whether a whole number is a value of a type: there are as many as there are patterns of bits. -/
def Has (t : Scalar) (n : Int) : Prop := t.IsWhole ∧ t.least ≤ n ∧ n < t.least + 2 ^ t.bits

/-- The writing of a whole number in the width of a type. -/
def octets (t : Scalar) (n : Int) : Octets :=
  LittleEndian.split t.width (n % (LittleEndian.limit t.width : Int)).toNat

/-- The whole number that the octets of a whole type stand for. -/
def number (t : Scalar) (bytes : Octets) : Int :=
  if t.isSigned then twosComplement t.width (LittleEndian.join bytes) else LittleEndian.join bytes

variable {t : Scalar} {v : Double} {bytes : Octets} {n : Int}

/-! ### Whole numbers and their octets -/

/-- A number and its remainder stand for the same in two's complement. -/
theorem twosComplement_emod {width : Nat} (hlow : -(LittleEndian.limit width : Int) ≤ 2 * n)
    (hhigh : 2 * n < LittleEndian.limit width) :
    twosComplement width (n % (LittleEndian.limit width : Int)).toNat = n := by
  rw [twosComplement]
  obtain hsign | hsign := lt_or_ge n 0
  · have hrest : n % (LittleEndian.limit width : Int) = n + LittleEndian.limit width := by
      rw [← Int.add_emod_right]
      exact Int.emod_eq_of_lt (by omega) (by omega)
    rw [hrest, if_neg (by omega)]
    omega
  · rw [Int.emod_eq_of_lt hsign (by omega), if_pos (by omega)]
    omega

/-- A pattern stands for a number in two's complement that it is the remainder of. -/
theorem twosComplement_bounds {width k : Nat} (hlt : k < LittleEndian.limit width) :
    -(LittleEndian.limit width : Int) ≤ 2 * twosComplement width k ∧
      2 * twosComplement width k < LittleEndian.limit width ∧
      twosComplement width k % (LittleEndian.limit width : Int) = k := by
  simp only [twosComplement]
  split
  · exact ⟨by omega, by omega, Int.emod_eq_of_lt (by omega) (by omega)⟩
  · refine ⟨by omega, by omega, ?_⟩
    rw [Int.sub_emod_right]
    exact Int.emod_eq_of_lt (by omega) (by omega)

/-- A type has eight bits for each octet. -/
theorem limit_width (t : Scalar) : (LittleEndian.limit t.width : Int) = 2 ^ t.bits := by
  cases t <;> rfl

/-- A signed type has its least number half its range below zero. -/
theorem two_mul_least (h : t.isSigned = true) :
    2 * t.least = -(LittleEndian.limit t.width : Int) := by
  cases t <;> first | rfl | cases h

theorem least_of_unsigned (h : t.isSigned = false) : t.least = 0 := by
  rw [least, h, if_neg Bool.false_ne_true]

/-- A whole type has a range of as many numbers as it has patterns. -/
theorem range?_of_isWhole (h : t.IsWhole) : t.range? = some (t.least, t.least + 2 ^ t.bits) := by
  cases t with
  | float => exact absurd rfl h.1
  | double => exact absurd rfl h.2
  | _ => rfl

/-- The octets of a number of the type stand for this number. -/
theorem number_octets (h : t.Has n) : t.number (t.octets n) = n := by
  obtain ⟨-, hlow, hhigh⟩ := h
  rw [← limit_width] at hhigh
  have hpos := LittleEndian.limit_pos t.width
  have hrest := Int.emod_lt_of_pos n (Int.natCast_pos.mpr hpos)
  have hjoin : LittleEndian.join (t.octets n) =
      (n % (LittleEndian.limit t.width : Int)).toNat :=
    LittleEndian.join_split_of_lt (by omega)
  rw [number, hjoin]
  cases hsigned : t.isSigned with
  | true =>
    have hleast := two_mul_least hsigned
    exact twosComplement_emod (by omega) (by omega)
  | false =>
    have hleast := least_of_unsigned hsigned
    have hnonneg : 0 ≤ n := by omega
    simp only [Bool.false_eq_true, if_false]
    rw [Int.emod_eq_of_lt hnonneg (by omega)]
    omega

/-- Octets in the width of a whole type are those of the number that they stand for. -/
theorem octets_number (hwhole : t.IsWhole) (hwidth : bytes.length = t.width) :
    t.Has (t.number bytes) ∧ t.octets (t.number bytes) = bytes := by
  have hlt := LittleEndian.join_lt bytes
  rw [hwidth] at hlt
  have hnumber : t.least ≤ t.number bytes ∧
      t.number bytes < t.least + LittleEndian.limit t.width ∧
      t.number bytes % (LittleEndian.limit t.width : Int) = LittleEndian.join bytes := by
    rw [number]
    cases hsigned : t.isSigned with
    | true =>
      have hleast := two_mul_least hsigned
      obtain ⟨hlow, hhigh, hrest⟩ := twosComplement_bounds hlt
      simp only [if_true]
      exact ⟨by omega, by omega, hrest⟩
    | false =>
      have hleast := least_of_unsigned hsigned
      simp only [Bool.false_eq_true, if_false]
      exact ⟨by omega, by omega, Int.emod_eq_of_lt (by omega) (by omega)⟩
  obtain ⟨hlow, hhigh, hrest⟩ := hnumber
  rw [limit_width] at hhigh
  refine ⟨⟨hwhole, hlow, hhigh⟩, ?_⟩
  rw [octets, hrest, Int.toNat_natCast, ← hwidth]
  exact LittleEndian.split_join bytes

/-! ### Whole types -/

/-- A double is encoded by its whole part, if that is in the range. -/
theorem encode?_of_isWhole (h : t.IsWhole) (v : Double) :
    t.encode? v = (v.truncate?.filter fun n => t.least ≤ n ∧ n < t.least + 2 ^ t.bits).map
      t.octets := by
  simp only [encode?, range?_of_isWhole h]
  rfl

/-- Octets are decoded as the number that they are. -/
theorem decode_of_isWhole (h : t.IsWhole) (hwidth : bytes.length = t.width) :
    t.decode bytes = Double.ofWhole (t.number bytes) := by
  have htake : bytes.take t.width = bytes := List.take_of_length_le (Nat.le_of_eq hwidth)
  cases t with
  | float => exact absurd rfl h.1
  | double => exact absurd rfl h.2
  | _ => simp [decode, number, htake, isSigned]

/-- A whole type has octets for the values whose truncation it has. -/
theorem encode?_eq_some_iff (h : t.IsWhole) :
    t.encode? v = some bytes ↔
      ∃ q, v.value? = some q ∧ t.Has (truncation q) ∧ t.octets (truncation q) = bytes := by
  rw [encode?_of_isWhole h, Double.truncate?_eq]
  cases v.value? with
  | none => simp
  | some q => simp [Option.filter, Has, h]

/-- A number of a type is not as large as the range. -/
theorem natAbs_lt (h : t.Has n) : n.natAbs < 2 ^ t.bits := by
  obtain ⟨-, hlow, hhigh⟩ := h
  rw [← limit_width] at hhigh
  have hlimit : LittleEndian.limit t.width = 2 ^ t.bits := by exact_mod_cast limit_width t
  rw [← hlimit]
  cases hsigned : t.isSigned with
  | true =>
    have hleast := two_mul_least hsigned
    omega
  | false =>
    have hleast := least_of_unsigned hsigned
    omega

/-- **Nothing but the fraction is lost**, in 64 bits either. -/
theorem value?_decode_octets {q : ℚ} (hvalue : v.value? = some q) (h : t.Has (truncation q)) :
    (t.decode (t.octets (truncation q))).value? = some (truncation q : ℚ) := by
  have hbits : 2 ^ t.bits ≤ 2 ^ 64 := by cases t <;> decide
  have hwidth : (t.octets (truncation q)).length = t.width := LittleEndian.length_split ..
  rw [decode_of_isWhole h.1 hwidth, number_octets h]
  exact Double.value?_ofWhole ((natAbs_lt h).trans_le hbits) (Double.isShort_truncation hvalue)

/-- Octets of at most 32 bits stand for a number that no double has to round. -/
theorem encode?_decode (hwhole : t.IsWhole) (hsmall : t.width ≤ 4)
    (hwidth : bytes.length = t.width) : t.encode? (t.decode bytes) = some bytes := by
  obtain ⟨hhas, hoctets⟩ := octets_number hwhole hwidth
  have hlt : (t.number bytes).natAbs < 2 ^ 53 :=
    (natAbs_lt hhas).trans_le (Nat.pow_le_pow_right (by decide) (by rw [bits]; omega))
  have hvalue := Double.value?_ofWhole (by omega) (Double.isShort_of_lt hlt)
  rw [decode_of_isWhole hwhole hwidth]
  refine (encode?_eq_some_iff hwhole).mpr ⟨_, hvalue, ?_⟩
  rw [truncation_intCast]
  exact ⟨hhas, hoctets⟩

/-! ### Doubles -/

theorem encode?_double (v : Double) : Scalar.double.encode? v = some (Octets.ofDouble v) := rfl

/-- A double comes back from its octets. -/
theorem decode_ofDouble (v : Double) : Scalar.double.decode (Octets.ofDouble v) = v := by
  have htake : (Octets.ofDouble v).take Scalar.double.width = Octets.ofDouble v :=
    List.take_of_length_le (Nat.le_of_eq (Octets.length_ofDouble v))
  have hjoin : LittleEndian.join (Octets.ofDouble v) = v.bits.toNat :=
    LittleEndian.join_split_of_lt v.bits.toNat_lt
  simp only [decode, htake, hjoin, UInt64.ofNat_toNat]

/-- Eight octets come back from the double that they are. -/
theorem ofDouble_decode (hwidth : bytes.length = Scalar.double.width) :
    Octets.ofDouble (Scalar.double.decode bytes) = bytes := by
  have htake : bytes.take Scalar.double.width = bytes :=
    List.take_of_length_le (Nat.le_of_eq hwidth)
  have hlt := LittleEndian.join_lt bytes
  rw [hwidth] at hlt
  have hbits : (UInt64.ofNat (LittleEndian.join bytes)).toNat = LittleEndian.join bytes := by
    rw [UInt64.toNat_ofNat']
    exact Nat.mod_eq_of_lt hlt
  simp only [decode, htake, Octets.ofDouble, Octets.ofUInt64, hbits]
  have hsplit := LittleEndian.split_join bytes
  rwa [hwidth] at hsplit

/-! ### The octets of a value -/

/-- What is known of a value and its octets. -/
structure Codec (t : Scalar) : Prop where
  /-- A value that has octets has as many of them as the type is wide. -/
  width : ∀ v bytes, t.encode? v = some bytes → bytes.length = t.width
  /-- A whole type has octets for the numbers whose truncation is in its range, and for no other
  values. -/
  whole : t.IsWhole → ∀ v,
    (∃ bytes, t.encode? v = some bytes) ↔ ∃ q, v.value? = some q ∧ t.Has (truncation q)
  /-- These octets stand for the truncation, without any rounding. -/
  truncated : t.IsWhole → ∀ v bytes q, t.encode? v = some bytes → v.value? = some q →
    (t.decode bytes).value? = some (truncation q : ℚ)
  /-- The other types have octets for every value. -/
  floating : ¬ t.IsWhole → ∀ v, ∃ bytes, t.encode? v = some bytes
  /-- A double comes back from its octets in every bit. -/
  double : t = .double → ∀ v bytes, t.encode? v = some bytes → t.decode bytes = v
  /-- Whole numbers of at most 32 bits and doubles have no octets but those they came from. -/
  back : t.IsWhole ∧ t.width ≤ 4 ∨ t = .double → ∀ bytes, bytes.length = t.width →
    t.encode? (t.decode bytes) = some bytes
  /-- Only the octets in front are looked at. -/
  front : ∀ bytes more, bytes.length = t.width → t.decode (bytes ++ more) = t.decode bytes

/-- **A scalar type and its octets.**  Values are taken exactly if they fit, lose their fraction
and nothing else, and come back from octets to the same octets where the octets are not too wide
for a double. -/
theorem codec (t : Scalar) : t.Codec where
  width := fun _ _ => length_of_encode?
  whole := by
    intro hwhole v
    constructor
    · rintro ⟨bytes, h⟩
      obtain ⟨q, hvalue, hhas, -⟩ := (encode?_eq_some_iff hwhole).mp h
      exact ⟨q, hvalue, hhas⟩
    · rintro ⟨q, hvalue, hhas⟩
      exact ⟨_, (encode?_eq_some_iff hwhole).mpr ⟨q, hvalue, hhas, rfl⟩⟩
  truncated := by
    intro hwhole v bytes q h hvalue
    obtain ⟨q', hvalue', hhas, rfl⟩ := (encode?_eq_some_iff hwhole).mp h
    obtain rfl : q' = q := Option.some.inj (hvalue'.symm.trans hvalue)
    exact value?_decode_octets hvalue hhas
  floating := by
    intro hfloating v
    cases t with
    | float => exact ⟨_, rfl⟩
    | double => exact ⟨_, rfl⟩
    | _ => exact absurd ⟨by decide, by decide⟩ hfloating
  double := by
    rintro rfl v bytes h
    obtain rfl := Option.some.inj ((encode?_double v).symm.trans h)
    exact decode_ofDouble v
  back := by
    rintro (⟨hwhole, hsmall⟩ | rfl) bytes hwidth
    · exact encode?_decode hwhole hsmall hwidth
    · exact congrArg some (ofDouble_decode hwidth)
  front := fun _ _ => decode_append

/-- The widest octets of 64 bits are rounded to a number that is out of range. -/
example : Scalar.unsigned64.encode? (Scalar.unsigned64.decode (List.replicate 8 0xFF)) = none := by
  decide

end PointCloud.Scalar
