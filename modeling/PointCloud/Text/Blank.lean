/-!
# White space at the ends of a text

Settings reach a writer as text typed by people, so blanks around a value never
count.  A blank is any character with the Unicode property `White_Space`, which
is a larger class than the four ASCII blanks of `Char.isWhitespace`.  `trim` takes
the blanks off both ends: `trim_blanks` and `trimEnd_append_blanks` say that
blanks in front and behind change nothing, and `head_trimStart_not_blank` that
none is left in front.
-/

namespace PointCloud.Text

/-- The characters with the Unicode property `White_Space`. -/
def isBlank (c : Char) : Bool :=
  let n := c.toNat
  (9 ≤ n && n ≤ 13) || n == 0x20 || n == 0x85 || n == 0xA0 || n == 0x1680 ||
    (0x2000 ≤ n && n ≤ 0x200A) || n == 0x2028 || n == 0x2029 || n == 0x202F ||
    n == 0x205F || n == 0x3000

/-- The text without the blanks in front. -/
def trimStart (cs : List Char) : List Char := cs.dropWhile isBlank

/-- The text without the blanks behind. -/
def trimEnd (cs : List Char) : List Char := (cs.reverse.dropWhile isBlank).reverse

/-- The text without the blanks at either end. -/
def trim (cs : List Char) : List Char := trimEnd (trimStart cs)

/-- The text of a string without the blanks at either end. -/
def trimmed (s : String) : String := String.ofList (trim s.toList)

/-- A text of blanks only, the empty one included. -/
def isBlankText (s : String) : Bool := s.toList.all isBlank

/-- What is dropped as a whole may stand in front. -/
theorem dropWhile_append_of_all {p : Char → Bool} {front rest : List Char}
    (h : ∀ c ∈ front, p c = true) : (front ++ rest).dropWhile p = rest.dropWhile p := by
  induction front with
  | nil => rfl
  | cons c front ih =>
    simp [h c List.mem_cons_self, ih fun d hd => h d (List.mem_cons_of_mem _ hd)]

/-- Blanks in front do not count. -/
theorem trim_blanks {front rest : List Char} (h : ∀ c ∈ front, isBlank c = true) :
    trim (front ++ rest) = trim rest := by
  simp [trim, trimStart, dropWhile_append_of_all h]

/-- Blanks behind do not count. -/
theorem trimEnd_append_blanks {rest back : List Char} (h : ∀ c ∈ back, isBlank c = true) :
    trimEnd (rest ++ back) = trimEnd rest := by
  have h' : ∀ c ∈ back.reverse, isBlank c = true := fun c hc => h c (by simpa using hc)
  simp [trimEnd, dropWhile_append_of_all h']

/-- Nothing is taken off a text whose first and last characters are no blanks. -/
theorem trim_eq_self {cs : List Char} (front : ∀ c, cs.head? = some c → isBlank c = false)
    (back : ∀ c, cs.getLast? = some c → isBlank c = false) : trim cs = cs := by
  have hstart : trimStart cs = cs := by
    cases cs with
    | nil => rfl
    | cons c rest => simp [trimStart, front c rfl]
  have hend : trimEnd cs = cs := by
    rcases h : cs.reverse with _ | ⟨c, rest⟩
    · simp [trimEnd, h]; simpa using h.symm
    · have hc : isBlank c = false := by
        apply back
        rw [← List.head?_reverse, h]; rfl
      simp only [trimEnd, h, List.dropWhile_cons, hc]
      rw [← h]; simp
  rw [trim, hstart, hend]

/-- Trimming makes no text longer. -/
theorem length_trimStart_le (cs : List Char) : (trimStart cs).length ≤ cs.length :=
  (List.dropWhile_sublist _).length_le

/-- A trimmed text does not begin with a blank. -/
theorem head_trimStart_not_blank {cs : List Char} {c : Char}
    (h : (trimStart cs).head? = some c) : isBlank c = false := by
  have key := List.head?_dropWhile_not isBlank cs
  simp only [trimStart] at h
  simpa [h] using key

end PointCloud.Text
