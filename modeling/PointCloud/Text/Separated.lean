/-!
# Texts held apart by a separator

`cut` parts a text at its first separator, and `splitOn` at every one.  Neither
loses anything: `cut_some` says that the two parts with the separator between
them are the text, and that the first part holds no separator.
-/

namespace PointCloud.Text

/-- The text before the first separator, and the text after it if there is one. -/
def cut (separator : Char) (cs : List Char) : List Char × Option (List Char) :=
  (cs.takeWhile (· != separator), (cs.dropWhile (· != separator)).tail?)

/-- The parts of a text between its separators, one more than there are separators. -/
def splitOn (separator : Char) (cs : List Char) : List (List Char) :=
  cs.foldr
    (fun c parts =>
      if c = separator then [] :: parts
      else match parts with
        | [] => [[c]]
        | part :: rest => (c :: part) :: rest)
    [[]]

@[simp] theorem cut_nil (separator : Char) : cut separator [] = ([], none) := rfl

/-- Cutting goes character by character up to the separator. -/
theorem cut_cons (separator c : Char) (cs : List Char) :
    cut separator (c :: cs) =
      if c = separator then ([], some cs)
      else (c :: (cut separator cs).1, (cut separator cs).2) := by
  by_cases h : c = separator <;> simp [cut, h]

/-- A text is its first part, the separator and the rest; the first part has no separator. -/
theorem cut_some {separator : Char} {cs before after : List Char}
    (h : cut separator cs = (before, some after)) :
    cs = before ++ separator :: after ∧ separator ∉ before := by
  induction cs generalizing before with
  | nil => simp at h
  | cons c cs ih =>
    rw [cut_cons] at h
    split at h
    · next hc => simp_all
    · next hc =>
      simp only [Prod.mk.injEq] at h
      obtain ⟨rfl, hafter⟩ := h
      obtain ⟨hcs, hnot⟩ := ih (Prod.ext rfl hafter)
      exact ⟨by rw [List.cons_append, ← hcs], by simp [hnot, Ne.symm hc]⟩

/-- Without a separator the first part is the whole text. -/
theorem cut_none {separator : Char} {cs before : List Char}
    (h : cut separator cs = (before, none)) : before = cs ∧ separator ∉ cs := by
  induction cs generalizing before with
  | nil => simp_all
  | cons c cs ih =>
    rw [cut_cons] at h
    split at h
    · simp at h
    · next hc =>
      simp only [Prod.mk.injEq] at h
      obtain ⟨rfl, hafter⟩ := h
      obtain ⟨hcs, hnot⟩ := ih (Prod.ext rfl hafter)
      exact ⟨congrArg (c :: ·) hcs, by simp [hnot, Ne.symm hc]⟩

/-- A text is cut at its first separator. -/
theorem cut_append {separator : Char} {before after : List Char} (h : separator ∉ before) :
    cut separator (before ++ separator :: after) = (before, some after) := by
  induction before with
  | nil => simp [cut_cons]
  | cons c before ih =>
    simp only [List.mem_cons, not_or] at h
    rw [List.cons_append, cut_cons, ih h.2, if_neg (Ne.symm h.1)]

/-- A text without a separator is left whole. -/
theorem cut_of_not_mem {separator : Char} {cs : List Char} (h : separator ∉ cs) :
    cut separator cs = (cs, none) := by
  induction cs with
  | nil => rfl
  | cons c cs ih =>
    simp only [List.mem_cons, not_or] at h
    rw [cut_cons, ih h.2, if_neg (Ne.symm h.1)]

@[simp] theorem splitOn_nil (separator : Char) : splitOn separator [] = [[]] := rfl

/-- There is always a part, though it may be empty. -/
theorem splitOn_ne_nil (separator : Char) (cs : List Char) : splitOn separator cs ≠ [] := by
  cases cs with
  | nil => simp
  | cons c cs =>
    rw [splitOn, List.foldr_cons]
    split
    · simp
    · split <;> simp

end PointCloud.Text
