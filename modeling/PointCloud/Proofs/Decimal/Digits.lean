import PointCloud.Decimal.Plain
import PointCloud.Proofs.Decimal.Characters
import PointCloud.Proofs.Decimal.Shortest

/-!
# The digits of plain texts

A plain text is digits, or digits around a point, `IsPlainText`, and stands for the
decimal of these digits.  It is read as this decimal, `IsPlainText.read?`: it has no
mark of an exponent and is none of the words.

The text that is made of a whole number and an exponent is plain and has their
value, `exists_positional`.  The zeros put in front of it count nothing, and those
left out at its end are places less behind the point.
-/

namespace PointCloud.Decimal

open Text (digitsValue)

/-- The number that a decimal stands for. -/
def Scientific.value (d : Scientific) : ℚ := d.digits * 10 ^ d.exponent

/-- Nothing but digits, and at least one of them. -/
def IsDigits (cs : List Char) : Prop := cs ≠ [] ∧ ∀ c ∈ cs, c.isDigit = true

/-- The texts of a decimal without an exponent: digits, or digits around a point with at least one
in front of it. -/
inductive IsPlainText : Scientific → List Char → Prop
  | whole {cs : List Char} (h : IsDigits cs) : IsPlainText ⟨digitsValue cs, 0⟩ cs
  | point {whole fraction : List Char} (hwhole : IsDigits whole)
    (hfraction : ∀ c ∈ fraction, c.isDigit = true) :
    IsPlainText ⟨digitsValue (whole ++ fraction), -(fraction.length : Int)⟩
      (whole ++ '.' :: fraction)

/-- Digits are read as what they say. -/
theorem readDigits?_of_isDigits {cs : List Char} (h : IsDigits cs) :
    readDigits? cs = some (digitsValue cs) := by
  rw [readDigits?, if_pos ⟨h.1, List.all_eq_true.mpr h.2⟩]

/-- There is nothing but digits among digits. -/
theorem not_mem_of_digits {cs : List Char} (h : ∀ c ∈ cs, c.isDigit = true) {d : Char}
    (hd : d.isDigit = false) : d ∉ cs := by
  intro hmem
  rw [h d hmem] at hd
  cases hd

/-! ### Reading a plain text -/

/-- A number without an exponent is read as its digits, point and all. -/
theorem IsPlainText.readMantissa? {d : Scientific} {cs : List Char} (h : IsPlainText d cs) :
    Decimal.readMantissa? cs = some d := by
  cases h with
  | whole h =>
    rw [Decimal.readMantissa?, Text.cut_of_not_mem (not_mem_of_digits h.2 (by decide))]
    simp [readDigits?_of_isDigits h]
  | @point whole fraction hwhole hfraction =>
    have hall : IsDigits (whole ++ fraction) :=
      ⟨List.append_ne_nil_of_left_ne_nil hwhole.1 _,
        List.forall_mem_append.mpr ⟨hwhole.2, hfraction⟩⟩
    rw [Decimal.readMantissa?, Text.cut_append (not_mem_of_digits hwhole.2 (by decide))]
    simp [readDigits?_of_isDigits hall]

/-- There is no mark of an exponent in it. -/
theorem IsPlainText.not_mark {d : Scientific} {cs : List Char} (h : IsPlainText d cs) :
    ∀ c ∈ cs, (!(c == 'e' || c == 'E')) = true := by
  have hdigit : ∀ c : Char, c.isDigit = true → (!(c == 'e' || c == 'E')) = true := by
    intro c hc
    by_contra hmark
    have hletter : c = 'e' ∨ c = 'E' := by simpa [or_iff_not_imp_left] using hmark
    obtain rfl | rfl := hletter
    · exact absurd hc (by decide)
    · exact absurd hc (by decide)
  cases h with
  | whole h => exact fun c hc => hdigit c (h.2 c hc)
  | point hwhole hfraction =>
    refine List.forall_mem_append.mpr ⟨fun c hc => hdigit c (hwhole.2 c hc), ?_⟩
    exact List.forall_mem_cons.mpr ⟨by decide, fun c hc => hdigit c (hfraction c hc)⟩

/-- No exponent is read where there is none. -/
theorem IsPlainText.readScientific? {d : Scientific} {cs : List Char} (h : IsPlainText d cs) :
    Decimal.readScientific? cs = some d := by
  have htake : cs.takeWhile (fun c => !(c == 'e' || c == 'E')) = cs :=
    List.takeWhile_eq_self_iff.mpr h.not_mark
  have hdrop : cs.dropWhile (fun c => !(c == 'e' || c == 'E')) = [] :=
    List.dropWhile_eq_nil_iff.mpr h.not_mark
  simp only [Decimal.readScientific?, htake, hdrop, h.readMantissa?]
  rfl

/-- A number without an exponent begins with a digit. -/
theorem IsPlainText.exists_digit {d : Scientific} {cs : List Char} (h : IsPlainText d cs) :
    ∃ c rest, c.isDigit = true ∧ cs = c :: rest := by
  cases h with
  | whole h =>
    obtain ⟨c, rest, rfl⟩ := List.exists_cons_of_ne_nil h.1
    exact ⟨c, rest, h.2 c List.mem_cons_self, rfl⟩
  | point hwhole _ =>
    obtain ⟨c, rest, rfl⟩ := List.exists_cons_of_ne_nil hwhole.1
    exact ⟨c, _, hwhole.2 c List.mem_cons_self, rfl⟩

theorem isAlpha_of_isDigit {c : Char} (h : c.isDigit = true) : c.isAlpha = false := by
  have hdigit : 48 ≤ c.toNat ∧ c.toNat ≤ 57 := by
    simpa [Char.isDigit, UInt32.le_iff_toNat_le] using h
  rw [← Bool.not_eq_true]
  intro halpha
  have hletter : (65 ≤ c.toNat ∧ c.toNat ≤ 90) ∨ (97 ≤ c.toNat ∧ c.toNat ≤ 122) := by
    simpa [Char.isAlpha, Char.isUpper, Char.isLower, UInt32.le_iff_toNat_le] using halpha
  omega

/-- A text with a digit in front is not one of the words. -/
theorem lower_ne_of_digit {c : Char} (h : c.isDigit = true) {rest word : List Char}
    (hword : word.all Char.isAlpha = true) : Text.lower (c :: rest) ≠ word := by
  intro heq
  have halpha := isAlpha_of_lower heq hword c List.mem_cons_self
  rw [isAlpha_of_isDigit h] at halpha
  cases halpha

/-- A number without an exponent is not taken for a word. -/
theorem IsPlainText.readMagnitude? {d : Scientific} {cs : List Char} (h : IsPlainText d cs) :
    Decimal.readMagnitude? cs = some d.toDouble := by
  obtain ⟨c, rest, hc, rfl⟩ := h.exists_digit
  have hinfinity : ¬ (Text.lower (c :: rest) = "inf".toList ∨
      Text.lower (c :: rest) = "infinity".toList) :=
    not_or.mpr ⟨lower_ne_of_digit hc (by decide), lower_ne_of_digit hc (by decide)⟩
  have hnan : Text.lower (c :: rest) ≠ "nan".toList := lower_ne_of_digit hc (by decide)
  simp only [Decimal.readMagnitude?]
  rw [if_neg hinfinity, if_neg hnan, h.readScientific?, Option.map_some]

/-- In front of a digit there is no sign. -/
theorem readSign_of_digit {c : Char} (h : c.isDigit = true) (rest : List Char) :
    readSign (c :: rest) = (false, c :: rest) := by
  unfold readSign
  split
  · next heq =>
    cases heq
    exact absurd h (by decide)
  · next heq =>
    cases heq
    exact absurd h (by decide)
  · rfl

/-- A plain text with or without a minus sign is read as the double nearest to it. -/
theorem IsPlainText.read? {d : Scientific} {cs : List Char} (h : IsPlainText d cs)
    (negative : Bool) :
    Decimal.read? (String.ofList (if negative then '-' :: cs else cs)) =
      some (if negative then -d.toDouble else d.toDouble) := by
  obtain ⟨c, rest, hc, rfl⟩ := h.exists_digit
  rw [Decimal.read?, String.toList_ofList]
  cases negative with
  | false =>
    simp only [if_neg Bool.false_ne_true, readSign_of_digit hc, h.readMagnitude?, Option.map_some]
  | true =>
    simp only [if_true, readSign, h.readMagnitude?, Option.map_some]

/-! ### The text of digits and an exponent -/

/-- Digits count ten times as much for each digit behind them. -/
theorem digitsValue_append (cs ds : List Char) :
    digitsValue (cs ++ ds) = digitsValue cs * 10 ^ ds.length + digitsValue ds := by
  have happend : digitsValue (cs ++ ds) = Nat.ofDigitChars 10 ds (digitsValue cs) :=
    Nat.ofDigitChars_append 0
  rw [happend, Nat.ofDigitChars_eq_ofDigitChars_zero, Nat.mul_comm]
  rfl

theorem digitsValue_replicate (count : Nat) : digitsValue (List.replicate count '0') = 0 :=
  Nat.ofDigitChars_replicate_zero

/-- A number comes back from its digits. -/
theorem digitsValue_digitsText (n : Nat) : digitsValue (digitsText n) = n :=
  Nat.ofDigitChars_ten_toDigits

/-- The digits of a number are digits, and at least one. -/
theorem isDigits_digitsText (n : Nat) : IsDigits (digitsText n) :=
  ⟨Nat.toDigits_ne_nil, fun _ hc => Nat.isDigit_of_mem_toDigits (by decide) (by decide) hc⟩

theorem isDigit_of_mem_zeros {count : Nat} : ∀ c ∈ List.replicate count '0', c.isDigit = true := by
  intro c hc
  rw [List.eq_of_mem_replicate hc]
  decide

/-- The point splits the digits, with zeros put in front of them if it stands before the first. -/
theorem exists_withPoint {digits : List Char} (h : IsDigits digits) (places : Nat) :
    ∃ d, IsPlainText d (withPoint digits places) ∧ d.digits = digitsValue digits ∧
      d.exponent = -(places : Int) := by
  unfold withPoint
  split
  · next hplaces =>
    exact ⟨_, .whole h, rfl, by rw [hplaces]; rfl⟩
  · next hplaces =>
    set padded := List.replicate (places + 1 - digits.length) '0' ++ digits with hpadded
    have hlength : places + 1 ≤ padded.length := by
      rw [hpadded, List.length_append, List.length_replicate]
      omega
    have hdigit : ∀ c ∈ padded, c.isDigit = true :=
      List.forall_mem_append.mpr ⟨isDigit_of_mem_zeros, h.2⟩
    have hvalue : digitsValue padded = digitsValue digits := by
      rw [hpadded, digitsValue_append, digitsValue_replicate, Nat.zero_mul, Nat.zero_add]
    have hwhole : IsDigits (padded.take (padded.length - places)) := by
      refine ⟨?_, fun c hc => hdigit c (List.mem_of_mem_take hc)⟩
      rw [← List.length_pos_iff_ne_nil, List.length_take]
      omega
    refine ⟨_, .point hwhole fun c hc => hdigit c (List.mem_of_mem_drop hc), ?_, ?_⟩
    · simp only [List.take_append_drop, hvalue]
    · simp only [List.length_drop]
      omega

/-- A number of zeros at the end of a text, no more than there are. -/
theorem take_append_zeros {digits : List Char} {count : Nat}
    (h : count ≤ (digits.reverse.takeWhile (· == '0')).length) :
    digits.take (digits.length - count) ++ List.replicate count '0' = digits := by
  set zeros := digits.reverse.takeWhile (· == '0') with hzeros
  have hall : zeros = List.replicate zeros.length '0' :=
    List.eq_replicate_iff.mpr ⟨rfl, fun c hc => by simpa using List.mem_takeWhile_imp hc⟩
  have hprefix : List.replicate count '0' <+: digits.reverse := by
    have hcount : List.replicate count '0' <+: zeros := by
      refine ⟨List.replicate (zeros.length - count) '0', ?_⟩
      rw [List.replicate_append_replicate, Nat.add_sub_cancel' h]
      exact hall.symm
    exact hcount.trans (List.takeWhile_prefix _)
  have hsuffix : List.replicate count '0' <:+ digits := by
    rw [← List.reverse_prefix, List.reverse_replicate]
    exact hprefix
  obtain ⟨front, rfl⟩ := hsuffix
  simp

/-- Zeros at the end that are left out are made up for by the exponent. -/
theorem exists_positional {n : Nat} (hn : n ≠ 0) (k : Int) :
    ∃ d, IsPlainText d (positional n k) ∧ d.value = n * 10 ^ k := by
  unfold positional
  split
  · next hk =>
    obtain ⟨count, rfl⟩ := Int.eq_ofNat_of_zero_le hk
    have hdigits : IsDigits (digitsText n ++ List.replicate (count : Int).toNat '0') :=
      ⟨List.append_ne_nil_of_left_ne_nil (isDigits_digitsText n).1 _,
        List.forall_mem_append.mpr ⟨(isDigits_digitsText n).2, isDigit_of_mem_zeros⟩⟩
    refine ⟨_, .whole hdigits, ?_⟩
    rw [Scientific.value, digitsValue_append, digitsValue_digitsText, digitsValue_replicate,
      List.length_replicate, Int.toNat_natCast, zpow_zero, zpow_natCast, mul_one]
    push_cast
    ring
  · next hk =>
    set digits := digitsText n with hdigits
    set places := (-k).toNat with hplaces
    set surplus := min places (digits.reverse.takeWhile (· == '0')).length with hsurplus
    have hsplit : digits.take (digits.length - surplus) ++ List.replicate surplus '0' = digits :=
      take_append_zeros (Nat.min_le_right _ _)
    have hvalue : digitsValue (digits.take (digits.length - surplus)) * 10 ^ surplus = n := by
      have happend := congrArg digitsValue hsplit
      rw [digitsValue_append, digitsValue_replicate, List.length_replicate, Nat.add_zero, hdigits,
        digitsValue_digitsText] at happend
      exact happend
    have hfront : IsDigits (digits.take (digits.length - surplus)) := by
      refine ⟨?_, fun c hc => (isDigits_digitsText n).2 c (List.mem_of_mem_take hc)⟩
      intro hnil
      rw [hnil] at hvalue
      exact hn (hvalue.symm.trans (Nat.zero_mul _))
    obtain ⟨d, htext, hd, hexponent⟩ := exists_withPoint hfront (places - surplus)
    refine ⟨d, htext, ?_⟩
    have hle : surplus ≤ places := Nat.min_le_left _ _
    have hk' : k = -(surplus : Int) + -((places - surplus : Nat) : Int) := by omega
    have hcancel : (10 : ℚ) ^ surplus * 10 ^ (-(surplus : Int)) = 1 := by
      rw [zpow_neg, zpow_natCast]
      exact mul_inv_cancel₀ (by positivity)
    rw [Scientific.value, hd, hexponent, ← hvalue, hk', zpow_add₀ (by norm_num), Nat.cast_mul,
      Nat.cast_pow, Nat.cast_ofNat, mul_assoc, ← mul_assoc (10 ^ surplus : ℚ), hcancel, one_mul]

end PointCloud.Decimal
