import PointCloud.Box.Text
import PointCloud.Proofs.Decimal.Characters
import PointCloud.Proofs.Text.Padding

/-!
# The grammar of box texts

The form of a box text is given by relations between values and texts, one for
each kind of part: a number, an interval, several intervals, a box.  They say
nothing about how a text is read.  A text denotes at most one box, since the
reader is a function and it accepts exactly the texts of the grammar,
`parse_eq_iff`.

The reader cuts at the first bracket and at the first comma, before it knows what
stands in front of them.  That this loses no text is owed to the characters of
numbers, which have neither.
-/

namespace PointCloud.Box

open Text (Blanks Padded blanks_nil exists_trimStart trimStart trimStart_append_blanks
  trimStart_cons trimStart_eq_nil_iff)

/-- A text is read as a number. -/
def IsNumberText (x : Double) (cs : List Char) : Prop :=
  Decimal.read? (String.ofList cs) = some x

/-- Two numbers between square brackets, with a comma between them and blanks around each. -/
def IsIntervalText (interval : Double × Double) (cs : List Char) : Prop :=
  ∃ low high, Padded (IsNumberText interval.1) low ∧ Padded (IsNumberText interval.2) high ∧
    cs = '[' :: (low ++ ',' :: (high ++ [']']))

/-- One or more intervals with a comma between each two of them and blanks around each. -/
inductive AreIntervalTexts : List (Double × Double) → List Char → Prop
  | last {interval : Double × Double} {cs : List Char} (h : Padded (IsIntervalText interval) cs) :
    AreIntervalTexts [interval] cs
  | more {interval : Double × Double} {cs : List Char} {intervals : List (Double × Double)}
    {ds : List Char} (h : Padded (IsIntervalText interval) cs)
    (rest : AreIntervalTexts intervals ds) :
    AreIntervalTexts (interval :: intervals) (cs ++ ',' :: ds)

/-- Two or three intervals between round brackets. -/
inductive IsBoxText : Box → List Char → Prop
  | flat {x y : Double × Double} {cs : List Char} (h : AreIntervalTexts [x, y] cs) :
    IsBoxText (.flat x.1 y.1 x.2 y.2) ('(' :: (cs ++ [')']))
  | full {x y z : Double × Double} {cs : List Char} (h : AreIntervalTexts [x, y, z] cs) :
    IsBoxText ⟨⟨x.1, y.1, z.1⟩, ⟨x.2, y.2, z.2⟩⟩ ('(' :: (cs ++ [')']))

/-- What a text denotes: the box of no point if it is blank, and otherwise the box whose text it is
when it has been trimmed. -/
def Denotes (s : String) (b : Box) : Prop :=
  (Text.isBlankText s = true ∧ b = nowhere) ∨ IsBoxText b (Text.trim s.toList)

/-! ### Numbers -/

/-- A number is written in the characters of numbers. -/
theorem IsNumberText.characters {x : Double} {cs : List Char} (h : IsNumberText x cs) :
    ∀ c ∈ cs, Decimal.IsCharacter c := by
  have hcharacters := Decimal.characters_of_read? h
  rwa [String.toList_ofList] at hcharacters

/-- The reader of numbers takes texts of numbers, with blanks around them. -/
theorem readNumber?_eq_some_iff {x : Double} {cs : List Char} :
    readNumber? cs = some x ↔ Padded (IsNumberText x) cs :=
  (Text.padded_iff_trim fun _ h c hc =>
    (IsNumberText.characters h c hc).isBlank_eq_false).symm

/-- A character that is neither a blank nor one of a number is not found around a number. -/
theorem not_mem_of_padded {x : Double} {cs : List Char} (h : Padded (IsNumberText x) cs) {d : Char}
    (hblank : Text.isBlank d = false) (hcharacter : ¬ Decimal.IsCharacter d) : d ∉ cs :=
  h.not_mem hblank fun _ hcore hd => hcharacter (hcore.characters d hd)

/-! ### One interval -/

/-- An interval is read exactly where there is the text of one, whatever stands behind it. -/
theorem readInterval?_eq_some_iff {interval : Double × Double} {cs behind : List Char} :
    readInterval? cs = some (interval, behind) ↔
      ∃ core, IsIntervalText interval core ∧ cs = core ++ behind := by
  constructor
  · intro h
    obtain ⟨low, high, hlow, hhigh, rfl⟩ := exists_of_readInterval? h
    refine ⟨'[' :: (low ++ ',' :: (high ++ [']'])), ⟨low, high, readNumber?_eq_some_iff.mp hlow,
      readNumber?_eq_some_iff.mp hhigh, rfl⟩, ?_⟩
    simp
  · rintro ⟨_, ⟨low, high, hlow, hhigh, rfl⟩, rfl⟩
    have hcomma : ',' ∉ low := not_mem_of_padded hlow (by decide) (by decide)
    have hlowClose : ']' ∉ low := not_mem_of_padded hlow (by decide) (by decide)
    have hhighClose : ']' ∉ high := not_mem_of_padded hhigh (by decide) (by decide)
    have hclose : ']' ∉ low ++ ',' :: high := by
      simp [hlowClose, hhighClose]
    have hsplit : '[' :: (low ++ ',' :: (high ++ [']'])) ++ behind =
        '[' :: ((low ++ ',' :: high) ++ ']' :: behind) := by
      simp
    rw [hsplit, readInterval?, Text.cut_append hclose]
    simp [Text.cut_append hcomma, readNumber?_eq_some_iff.mpr hlow,
      readNumber?_eq_some_iff.mpr hhigh]

/-! ### Several intervals -/

/-- The text of an interval begins with a bracket. -/
theorem IsIntervalText.trimStart {interval : Double × Double} {cs : List Char}
    (h : IsIntervalText interval cs) (ds : List Char) : Text.trimStart (cs ++ ds) = cs ++ ds := by
  obtain ⟨low, high, -, -, rfl⟩ := h
  exact trimStart_cons (by decide) _

/-- An interval that ends in a bracket may have blanks behind it. -/
theorem IsIntervalText.padded {interval : Double × Double} {cs back : List Char}
    (h : IsIntervalText interval cs) (hback : Blanks back) :
    Padded (IsIntervalText interval) (cs ++ back) :=
  ⟨[], cs, back, blanks_nil, h, hback, rfl⟩

/-- There is a bracket among the characters of intervals, so they are not all blanks. -/
theorem AreIntervalTexts.not_blanks {intervals : List (Double × Double)} {cs : List Char}
    (h : AreIntervalTexts intervals cs) : ¬ Blanks cs := by
  intro hblanks
  have hbracket : '[' ∈ cs := by
    cases h with
    | last h =>
      obtain ⟨_, _, _, -, ⟨_, _, -, -, rfl⟩, -, rfl⟩ := h
      simp
    | more h =>
      obtain ⟨_, _, _, -, ⟨_, _, -, -, rfl⟩, -, rfl⟩ := h
      simp
  exact absurd (hblanks _ hbracket) (by decide)

/-- Blanks in front of intervals belong to them. -/
theorem AreIntervalTexts.prepend {intervals : List (Double × Double)} {cs front : List Char}
    (h : AreIntervalTexts intervals cs) (hfront : Blanks front) :
    AreIntervalTexts intervals (front ++ cs) := by
  cases h with
  | last h => exact .last (h.prepend hfront)
  | more h rest =>
    rw [← List.append_assoc]
    exact .more (h.prepend hfront) rest

/-- Blanks behind intervals belong to them. -/
theorem AreIntervalTexts.append {intervals : List (Double × Double)} {cs back : List Char}
    (h : AreIntervalTexts intervals cs) (hback : Blanks back) :
    AreIntervalTexts intervals (cs ++ back) := by
  induction h with
  | last h => exact .last (h.append hback)
  | more h rest ih =>
    rw [List.append_assoc, List.cons_append]
    exact .more h ih

/-- What is read as intervals is nothing, or the text of these intervals. -/
theorem areIntervalTexts_of_read {cs : List Char} {intervals : List (Double × Double)}
    (h : readIntervals? cs = some intervals) :
    (cs = [] ∧ intervals = []) ∨ AreIntervalTexts intervals cs := by
  fun_induction readIntervals? cs generalizing intervals with
  | case1 => exact .inl ⟨rfl, (Option.some.inj h).symm⟩
  | case2 => cases h
  | case3 cs hne interval behind hread hend =>
    obtain ⟨core, hcore, rfl⟩ := readInterval?_eq_some_iff.mp hread
    cases h
    exact .inr (.last (hcore.padded (trimStart_eq_nil_iff.mp hend)))
  | case4 => cases h
  | case5 cs hne interval behind hread more hcomma _ hmore ih =>
    obtain ⟨core, hcore, rfl⟩ := readInterval?_eq_some_iff.mp hread
    obtain ⟨rest, hrest, rfl⟩ := Option.map_eq_some_iff.mp h
    obtain ⟨back, hback, hbehind⟩ := exists_trimStart behind
    obtain ⟨front, hfront, hmore'⟩ := exists_trimStart more
    obtain hnone | hrest := ih hrest
    · exact absurd hnone.1 hmore
    · right
      rw [hbehind, hcomma, ← List.append_assoc, hmore']
      exact .more (hcore.padded hback) (hrest.prepend hfront)
  | case6 => cases h

/-- There is no interval in an empty text. -/
theorem ne_nil_of_read {cs behind : List Char} {interval : Double × Double}
    (h : readInterval? cs = some (interval, behind)) : cs ≠ [] :=
  List.ne_nil_of_length_pos (Nat.zero_lt_of_lt (length_of_readInterval? h))

/-- An interval with nothing but blanks behind it is the last. -/
theorem readIntervals?_last {cs behind : List Char} {interval : Double × Double}
    (hread : readInterval? cs = some (interval, behind)) (hend : trimStart behind = []) :
    readIntervals? cs = some [interval] := by
  rw [readIntervals?, if_neg (ne_nil_of_read hread)]
  grind

/-- An interval with a comma behind it is followed by another. -/
theorem readIntervals?_more {cs behind more : List Char} {interval : Double × Double}
    (hread : readInterval? cs = some (interval, behind)) (hcomma : trimStart behind = ',' :: more)
    (hmore : trimStart more ≠ []) :
    readIntervals? cs = (readIntervals? (trimStart more)).map (interval :: ·) := by
  rw [readIntervals?, if_neg (ne_nil_of_read hread)]
  grind

/-- The intervals of a text are read from it. -/
theorem AreIntervalTexts.read {intervals : List (Double × Double)} {cs : List Char}
    (h : AreIntervalTexts intervals cs) : readIntervals? (trimStart cs) = some intervals := by
  induction h with
  | last h =>
    obtain ⟨front, core, back, hfront, hcore, hback, rfl⟩ := h
    rw [trimStart_append_blanks hfront, hcore.trimStart]
    exact readIntervals?_last (readInterval?_eq_some_iff.mpr ⟨core, hcore, rfl⟩)
      (trimStart_eq_nil_iff.mpr hback)
  | @more interval _ intervals ds h rest ih =>
    obtain ⟨front, core, back, hfront, hcore, hback, rfl⟩ := h
    have hread : readInterval? (core ++ (back ++ ',' :: ds)) = some (interval, back ++ ',' :: ds) :=
      readInterval?_eq_some_iff.mpr ⟨core, hcore, rfl⟩
    have hcomma : trimStart (back ++ ',' :: ds) = ',' :: ds := by
      rw [trimStart_append_blanks hback, trimStart_cons (by decide)]
    have hmore : trimStart ds ≠ [] := fun hnil => rest.not_blanks (trimStart_eq_nil_iff.mp hnil)
    rw [List.append_assoc, List.append_assoc, trimStart_append_blanks hfront, hcore.trimStart,
      readIntervals?_more hread hcomma hmore, ih, Option.map_some]

/-- Blanks behind the last interval need not be there. -/
theorem AreIntervalTexts.trimEnd {intervals : List (Double × Double)} {cs : List Char}
    (h : AreIntervalTexts intervals cs) : AreIntervalTexts intervals (Text.trimEnd cs) := by
  induction h with
  | last h =>
    obtain ⟨front, _, back, hfront, ⟨low, high, hlow, hhigh, rfl⟩, hback, rfl⟩ := h
    -- The last character that is no blank is the bracket.
    have hsplit : front ++ ('[' :: (low ++ ',' :: (high ++ [']'])) ++ back) =
        (front ++ '[' :: (low ++ ',' :: high)) ++ ']' :: back := by
      simp
    have hend : Text.trimEnd ([] ++ back) = Text.trimEnd [] := Text.trimEnd_append_blanks hback
    rw [hsplit, Text.trimEnd_append_cons (by decide), ← List.nil_append back, hend]
    refine .last ⟨front, _, [], hfront, ⟨low, high, hlow, hhigh, rfl⟩, blanks_nil, ?_⟩
    simp [Text.trimEnd]
  | more h rest ih =>
    rw [Text.trimEnd_append_cons (by decide)]
    exact .more h ih

/-- After trimming, the intervals of a text are read from it, and no others. -/
theorem readIntervals?_trim_eq_some_iff {cs : List Char} {intervals : List (Double × Double)}
    (hne : intervals ≠ []) :
    readIntervals? (Text.trim cs) = some intervals ↔ AreIntervalTexts intervals cs := by
  constructor
  · intro h
    obtain ⟨front, back, hfront, hback, hcs⟩ := Text.exists_trim cs
    obtain hnone | htexts := areIntervalTexts_of_read h
    · exact absurd hnone.2 hne
    · rw [hcs]
      exact (htexts.append hback).prepend hfront
  · intro h
    rw [← Text.trimStart_trimEnd]
    exact h.trimEnd.read

/-! ### Boxes -/

/-- Brackets are there just if the text begins with one and ends with the other. -/
theorem inBrackets?_eq_some_iff {cs inside : List Char} :
    inBrackets? cs = some inside ↔ cs = '(' :: (inside ++ [')']) := by
  constructor
  · intro h
    unfold inBrackets? at h
    split at h
    · next rest =>
      split at h
      · next hlast =>
        cases h
        rw [List.dropLast_append_getLast? _ hlast]
      · cases h
    · cases h
  · intro h
    rw [h, inBrackets?]
    simp

/-- A box is read from the texts of the box, and from no others. -/
theorem readBox?_eq_some_iff {cs : List Char} {b : Box} :
    readBox? cs = some b ↔ IsBoxText b cs := by
  constructor
  · intro h
    simp only [readBox?, Option.bind_eq_bind, Option.bind_eq_some_iff] at h
    obtain ⟨inside, hinside, intervals, hread, hbox⟩ := h
    rw [inBrackets?_eq_some_iff.mp hinside]
    unfold ofIntervals? at hbox
    split at hbox
    · cases hbox
      exact .flat ((readIntervals?_trim_eq_some_iff (List.cons_ne_nil _ _)).mp hread)
    · cases hbox
      exact .full ((readIntervals?_trim_eq_some_iff (List.cons_ne_nil _ _)).mp hread)
    · cases hbox
  · intro h
    cases h with
    | flat h =>
      rw [readBox?, inBrackets?_eq_some_iff.mpr rfl, Option.bind_eq_bind, Option.bind_some,
        (readIntervals?_trim_eq_some_iff (List.cons_ne_nil _ _)).mpr h]
      rfl
    | full h =>
      rw [readBox?, inBrackets?_eq_some_iff.mpr rfl, Option.bind_eq_bind, Option.bind_some,
        (readIntervals?_trim_eq_some_iff (List.cons_ne_nil _ _)).mpr h]
      rfl

/-- A blank text is one that is trimmed to nothing. -/
theorem isBlankText_iff {s : String} : Text.isBlankText s = true ↔ Text.trim s.toList = [] := by
  rw [Text.isBlankText, List.all_eq_true, Text.trim_eq_nil_iff]
  rfl

/-- The text of a box is not empty. -/
theorem IsBoxText.ne_nil {b : Box} {cs : List Char} (h : IsBoxText b cs) : cs ≠ [] := by
  cases h with
  | flat => exact List.cons_ne_nil _ _
  | full => exact List.cons_ne_nil _ _

/-- A box is read from its denotations, and from nothing else. -/
theorem parse_eq_ok_iff {s : String} {b : Box} : parse s = .ok b ↔ Denotes s b := by
  unfold parse Denotes
  by_cases hblank : Text.trim s.toList = []
  · rw [if_pos hblank, isBlankText_iff]
    constructor
    · intro h
      exact .inl ⟨hblank, (Except.ok.inj h).symm⟩
    · intro h
      obtain ⟨-, rfl⟩ | h := h
      · rfl
      · exact absurd hblank h.ne_nil
  · rw [if_neg hblank, isBlankText_iff, ← readBox?_eq_some_iff]
    cases readBox? (Text.trim s.toList) with
    | none => simp [hblank]
    | some c => simp [hblank]

/-- There is one error, and it names the text without the blanks at its ends. -/
theorem eq_invalidBox_of_parse {s : String} {e : Error} (h : parse s = .error e) :
    e = .invalidBox (Text.trimmed s) := by
  simp only [parse] at h
  split at h
  · cases h
  · split at h
    · cases h
    · exact (Except.error.inj h).symm

/-- A text is read as the box that it denotes.  A text that denotes no box is refused, and the
error names the text without the blanks at its ends. -/
theorem parse_eq_iff (s : String) :
    (∀ b, parse s = .ok b ↔ Denotes s b) ∧
      (∀ e, parse s = .error e ↔ (∀ b, ¬ Denotes s b) ∧ e = .invalidBox (Text.trimmed s)) := by
  refine ⟨fun b => parse_eq_ok_iff, fun e => ⟨fun h => ⟨?_, eq_invalidBox_of_parse h⟩, ?_⟩⟩
  · intro b hb
    rw [parse_eq_ok_iff.mpr hb] at h
    cases h
  · intro h
    obtain ⟨hnone, rfl⟩ := h
    cases hparse : parse s with
    | ok b => exact absurd (parse_eq_ok_iff.mp hparse) (hnone b)
    | error e => rw [eq_invalidBox_of_parse hparse]

end PointCloud.Box
