import Mathlib
import PointCloud.Decimal.Reading
import PointCloud.Text.Blank

/-!
# The characters of a number

A text that is read as a number is made of ASCII letters and digits, signs and
points.  So it has no blanks in it, and none of the characters that stand between
numbers.
-/

namespace PointCloud.Decimal

/-- The characters that a number may have. -/
def IsCharacter (c : Char) : Prop := c.isAlphanum = true ∨ c = '+' ∨ c = '-' ∨ c = '.'

instance (c : Char) : Decidable (IsCharacter c) :=
  inferInstanceAs (Decidable (c.isAlphanum = true ∨ c = '+' ∨ c = '-' ∨ c = '.'))

theorem IsCharacter.of_isDigit {c : Char} (h : c.isDigit = true) : IsCharacter c := by
  left
  rw [Char.isAlphanum, h, Bool.or_true]

/-- Letters are characters of numbers, for there are words among these. -/
theorem IsCharacter.of_isAlpha {c : Char} (h : c.isAlpha = true) : IsCharacter c := by
  left
  rw [Char.isAlphanum, h, Bool.true_or]

/-- No character of a number is a blank. -/
theorem IsCharacter.isBlank_eq_false {c : Char} (h : IsCharacter c) : Text.isBlank c = false := by
  obtain h | rfl | rfl | rfl := h
  · -- The ranges of letters and digits hold no blank.
    have hrange : ((65 ≤ c.toNat ∧ c.toNat ≤ 90) ∨ (97 ≤ c.toNat ∧ c.toNat ≤ 122)) ∨
        (48 ≤ c.toNat ∧ c.toNat ≤ 57) := by
      simpa [Char.isAlphanum, Char.isAlpha, Char.isUpper, Char.isLower, Char.isDigit,
        UInt32.le_iff_toNat_le] using h
    simp only [Text.isBlank, Bool.or_eq_false_iff, Bool.and_eq_false_iff, decide_eq_false_iff_not,
      beq_eq_false_iff_ne]
    omega
  · decide
  · decide
  · decide

/-- Making letters small makes no letters. -/
theorem isAlpha_of_toLower {c : Char} (h : c.toLower.isAlpha = true) : c.isAlpha = true := by
  by_cases hupper : c.isUpper = true
  · rw [Char.isAlpha, hupper, Bool.true_or]
  · have hsame : c.toLower = c := by
      rw [Char.toLower, dif_neg (by simpa [Char.isUpper] using hupper)]
    rwa [hsame] at h

/-- What is read as digits is made of characters of numbers. -/
theorem characters_of_readDigits? {cs : List Char} {n : Nat} (h : readDigits? cs = some n) :
    ∀ c ∈ cs, IsCharacter c := by
  unfold readDigits? at h
  split at h
  · next hdigits =>
    intro c hc
    exact .of_isDigit (List.all_eq_true.mp hdigits.2 c hc)
  · cases h

/-- What stands behind a sign decides whether all characters are those of a number. -/
theorem characters_of_readSign {cs : List Char} (h : ∀ c ∈ (readSign cs).2, IsCharacter c) :
    ∀ c ∈ cs, IsCharacter c := by
  unfold readSign at h
  split at h
  · exact List.forall_mem_cons.mpr ⟨.inr (.inr (.inl rfl)), h⟩
  · exact List.forall_mem_cons.mpr ⟨.inr (.inl rfl), h⟩
  · exact h

/-- An exponent is made of characters of numbers, with its sign. -/
theorem characters_of_readExponent? {cs : List Char} {e : Int} (h : readExponent? cs = some e) :
    ∀ c ∈ cs, IsCharacter c := by
  simp only [readExponent?, Option.map_eq_some_iff, Option.bind_eq_bind,
    Option.bind_eq_some_iff] at h
  obtain ⟨_, ⟨n, hn, -⟩, -⟩ := h
  exact characters_of_readSign (characters_of_readDigits? hn)

/-- Digits with a point among them are characters of numbers. -/
theorem characters_of_readMantissa? {cs : List Char} {d : Scientific}
    (h : readMantissa? cs = some d) : ∀ c ∈ cs, IsCharacter c := by
  rcases hcut : Text.cut '.' cs with ⟨whole, fraction?⟩
  simp only [readMantissa?, hcut, Option.map_eq_some_iff] at h
  obtain ⟨n, hn, -⟩ := h
  have hparts := characters_of_readDigits? hn
  cases fraction? with
  | none =>
    rw [← (Text.cut_none hcut).1]
    intro c hc
    exact hparts c (List.mem_append_left _ hc)
  | some fraction =>
    rw [(Text.cut_some hcut).1]
    intro c hc
    obtain hc | hc := List.mem_append.mp hc
    · exact hparts c (List.mem_append_left _ hc)
    · obtain rfl | hc := List.mem_cons.mp hc
      · exact .inr (.inr (.inr rfl))
      · exact hparts c (List.mem_append_right _ hc)

/-- A mantissa with an exponent behind it is made of characters of numbers. -/
theorem characters_of_readScientific? {cs : List Char} {d : Scientific}
    (h : readScientific? cs = some d) : ∀ c ∈ cs, IsCharacter c := by
  simp only [readScientific?, Option.bind_eq_bind, Option.bind_eq_some_iff] at h
  obtain ⟨mantissa, hmantissa, h⟩ := h
  have hfront := characters_of_readMantissa? hmantissa
  -- Behind the mantissa there is nothing, or the letter that marks an exponent and the exponent.
  rw [← List.takeWhile_append_dropWhile (p := fun c => !(c == 'e' || c == 'E')) (l := cs)]
  intro c hc
  obtain hc | hc := List.mem_append.mp hc
  · exact hfront c hc
  · split at h
    · next hnone =>
      rw [hnone] at hc
      exact absurd hc List.not_mem_nil
    · next mark exponentText hmark =>
      simp only [Option.bind_eq_some_iff] at h
      obtain ⟨exponent, hexponent, -⟩ := h
      have hletter : mark = 'e' ∨ mark = 'E' := by
        have hhead := List.head?_dropWhile_not (fun c => !(c == 'e' || c == 'E')) cs
        rw [hmark] at hhead
        simpa [or_iff_not_imp_left] using hhead
      rw [hmark] at hc
      obtain rfl | hc := List.mem_cons.mp hc
      · obtain rfl | rfl := hletter
        · exact .of_isAlpha (by decide)
        · exact .of_isAlpha (by decide)
      · exact characters_of_readExponent? hexponent c hc

/-- A word of letters is made of letters in any case. -/
theorem isAlpha_of_lower {cs word : List Char} (h : Text.lower cs = word)
    (hword : word.all Char.isAlpha = true) : ∀ c ∈ cs, c.isAlpha = true := by
  intro c hc
  have hmem : c.toLower ∈ word := by
    rw [← h]
    exact List.mem_map_of_mem hc
  exact isAlpha_of_toLower (List.all_eq_true.mp hword _ hmem)

/-- What stands behind a sign is made of characters of numbers, be it a word or digits. -/
theorem characters_of_readMagnitude? {cs : List Char} {x : Double}
    (h : readMagnitude? cs = some x) : ∀ c ∈ cs, IsCharacter c := by
  simp only [readMagnitude?] at h
  split at h
  · next hword =>
    obtain hword | hword := hword
    · exact fun c hc => .of_isAlpha (isAlpha_of_lower hword (by decide) c hc)
    · exact fun c hc => .of_isAlpha (isAlpha_of_lower hword (by decide) c hc)
  · split at h
    · next hword => exact fun c hc => .of_isAlpha (isAlpha_of_lower hword (by decide) c hc)
    · obtain ⟨d, hd, -⟩ := Option.map_eq_some_iff.mp h
      exact characters_of_readScientific? hd

/-- A text that is read as a number has the characters of a number. -/
theorem characters_of_read? {s : String} {x : Double} (h : read? s = some x) :
    ∀ c ∈ s.toList, IsCharacter c := by
  obtain ⟨magnitude, hmagnitude, -⟩ := Option.map_eq_some_iff.mp h
  exact characters_of_readSign (characters_of_readMagnitude? hmagnitude)

end PointCloud.Decimal
