import Mathlib.Data.List.TakeWhile
import PointCloud.Text.Blank

/-!
# Blanks around a text

`Text.Padded p cs` says that `cs` is a text with the property `p` between blanks.
Trimming takes the blanks off again, and nothing else: a text is padded around
what trimming leaves of it.
-/

namespace PointCloud.Text

/-- Nothing but blanks. -/
def Blanks (cs : List Char) : Prop := ∀ c ∈ cs, isBlank c = true

/-- A text with a property, between blanks. -/
def Padded (p : List Char → Prop) (cs : List Char) : Prop :=
  ∃ front core back, Blanks front ∧ p core ∧ Blanks back ∧ cs = front ++ (core ++ back)

theorem blanks_nil : Blanks [] := fun _ h => absurd h List.not_mem_nil

theorem Blanks.append {cs ds : List Char} (hcs : Blanks cs) (hds : Blanks ds) :
    Blanks (cs ++ ds) := List.forall_mem_append.mpr ⟨hcs, hds⟩

/-- Nothing is left of blanks, and of nothing else. -/
theorem trimStart_eq_nil_iff {cs : List Char} : trimStart cs = [] ↔ Blanks cs :=
  List.dropWhile_eq_nil_iff

/-- Blanks in front do not count. -/
theorem trimStart_append_blanks {front rest : List Char} (h : Blanks front) :
    trimStart (front ++ rest) = trimStart rest := dropWhile_append_of_all h

theorem trimStart_cons {c : Char} (h : isBlank c = false) (cs : List Char) :
    trimStart (c :: cs) = c :: cs := by
  simp [trimStart, h]

/-- Only blanks are taken off in front. -/
theorem exists_trimStart (cs : List Char) :
    ∃ front, Blanks front ∧ cs = front ++ trimStart cs := by
  exact ⟨cs.takeWhile isBlank, fun c hc => List.mem_takeWhile_imp hc,
    List.takeWhile_append_dropWhile.symm⟩

/-- What is cut off the end is blanks. -/
theorem exists_trimEnd (cs : List Char) :
    ∃ back, Blanks back ∧ cs = trimEnd cs ++ back := by
  obtain ⟨back, hback, hsplit⟩ := exists_trimStart cs.reverse
  refine ⟨back.reverse, fun c hc => hback c (List.mem_reverse.mp hc), ?_⟩
  have hreverse := congrArg List.reverse hsplit
  rwa [List.reverse_reverse, List.reverse_append] at hreverse

/-- A text is what trimming leaves of it, between blanks. -/
theorem exists_trim (cs : List Char) :
    ∃ front back, Blanks front ∧ Blanks back ∧ cs = front ++ (trim cs ++ back) := by
  obtain ⟨front, hfront, hstart⟩ := exists_trimStart cs
  obtain ⟨back, hback, hend⟩ := exists_trimEnd (trimStart cs)
  refine ⟨front, back, hfront, hback, ?_⟩
  rw [trim, ← hend, ← hstart]

/-- Blanks behind do not count. -/
theorem trim_append_blanks {cs back : List Char} (h : Blanks back) :
    trim (cs ++ back) = trim cs := by
  rw [trim, trimStart, List.dropWhile_append]
  split
  · next hempty =>
    have hcs : trimStart cs = [] := List.isEmpty_iff.mp hempty
    have hback : trimStart back = [] := trimStart_eq_nil_iff.mpr h
    rw [trim, hcs]
    exact congrArg trimEnd hback
  · exact trimEnd_append_blanks h

/-- Nothing is left of blanks, whichever end they are cut off from. -/
theorem trim_eq_nil_iff {cs : List Char} : trim cs = [] ↔ Blanks cs := by
  constructor
  · intro h
    obtain ⟨front, back, hfront, hback, hcs⟩ := exists_trim cs
    rw [hcs, h]
    exact hfront.append hback
  · intro h
    have hcs : trim ([] ++ cs) = trim [] := trim_append_blanks h
    rwa [List.nil_append] at hcs

/-- A text without blanks is left as it is. -/
theorem trim_of_no_blank {cs : List Char} (h : ∀ c ∈ cs, isBlank c = false) : trim cs = cs :=
  trim_eq_self (fun c hc => h c (List.mem_of_mem_head? hc))
    (fun c hc => h c (List.mem_of_mem_getLast? hc))

/-- A text with no blanks at its ends. -/
def IsTrimmed (cs : List Char) : Prop := trim cs = cs

/-- A text that has been trimmed has no blanks at its ends. -/
theorem isTrimmed_trim (cs : List Char) : IsTrimmed (trim cs) := by
  obtain ⟨front, back, hfront, hback, hcs⟩ := exists_trim cs
  have hagain : trim cs = trim (front ++ (trim cs ++ back)) := congrArg trim hcs
  rw [trim_blanks hfront, trim_append_blanks hback] at hagain
  exact hagain.symm

/-- Trimming adds no characters. -/
theorem mem_of_mem_trim {c : Char} {cs : List Char} (h : c ∈ trim cs) : c ∈ cs := by
  obtain ⟨front, back, -, -, hcs⟩ := exists_trim cs
  rw [hcs]
  exact List.mem_append_right _ (List.mem_append_left _ h)

/-- A property of trimmed texts holds of what trimming leaves if the text is padded around a text
with it. -/
theorem padded_iff_of_isTrimmed {p : List Char → Prop} (hp : ∀ core, p core → IsTrimmed core)
    {cs : List Char} : Padded p cs ↔ p (trim cs) := by
  constructor
  · intro h
    obtain ⟨front, core, back, hfront, hcore, hback, rfl⟩ := h
    rwa [trim_blanks hfront, trim_append_blanks hback, hp core hcore]
  · intro h
    obtain ⟨front, back, hfront, hback, hcs⟩ := exists_trim cs
    exact ⟨front, trim cs, back, hfront, h, hback, hcs⟩

/-- A property holds of what trimming leaves if the text is padded around a text with it that has
no blanks. -/
theorem padded_iff_trim {p : List Char → Prop}
    (hp : ∀ core, p core → ∀ c ∈ core, isBlank c = false) {cs : List Char} :
    Padded p cs ↔ p (trim cs) :=
  padded_iff_of_isTrimmed fun core hcore => trim_of_no_blank (hp core hcore)

/-- A trimmed text stands between blanks if trimming leaves it. -/
theorem padded_eq_iff {core cs : List Char} (h : IsTrimmed core) :
    Padded (· = core) cs ↔ trim cs = core := by
  refine padded_iff_of_isTrimmed fun other hother => ?_
  rw [hother]
  exact h

/-- A character that is no blank and not one of the text is not found around it. -/
theorem Padded.not_mem {p : List Char → Prop} {cs : List Char} (h : Padded p cs) {d : Char}
    (hblank : isBlank d = false) (hcore : ∀ core, p core → d ∉ core) : d ∉ cs := by
  obtain ⟨front, core, back, hfront, hp, hback, rfl⟩ := h
  have hnone : ∀ ds, Blanks ds → d ∉ ds := by
    intro ds hds hd
    rw [hds d hd] at hblank
    cases hblank
  simp only [List.mem_append, not_or]
  exact ⟨hnone front hfront, hcore core hp, hnone back hback⟩

/-- Blanks in front of a padded text belong to it. -/
theorem Padded.prepend {p : List Char → Prop} {cs front : List Char} (h : Padded p cs)
    (hfront : Blanks front) : Padded p (front ++ cs) := by
  obtain ⟨before, core, back, hbefore, hcore, hback, rfl⟩ := h
  exact ⟨front ++ before, core, back, hfront.append hbefore, hcore, hback,
    (List.append_assoc ..).symm⟩

/-- Blanks behind a padded text belong to it. -/
theorem Padded.append {p : List Char → Prop} {cs back : List Char} (h : Padded p cs)
    (hback : Blanks back) : Padded p (cs ++ back) := by
  obtain ⟨front, core, behind, hfront, hcore, hbehind, rfl⟩ := h
  refine ⟨front, core, behind ++ back, hfront, hcore, hbehind.append hback, ?_⟩
  rw [List.append_assoc, List.append_assoc]

/-- Trimming at the end stops at the last character that is no blank. -/
theorem trimEnd_append_cons {c : Char} (h : isBlank c = false) (cs ds : List Char) :
    trimEnd (cs ++ c :: ds) = cs ++ c :: trimEnd ds := by
  have hdrop : (ds.reverse ++ c :: cs.reverse).dropWhile isBlank =
      ds.reverse.dropWhile isBlank ++ c :: cs.reverse := by
    rw [List.dropWhile_append]
    split
    · next hempty =>
      rw [List.isEmpty_iff.mp hempty, List.nil_append, List.dropWhile_cons_of_neg (by simp [h])]
    · rfl
  rw [trimEnd, trimEnd, List.reverse_append, List.reverse_cons, List.append_assoc,
    List.singleton_append, hdrop, List.reverse_append, List.reverse_cons, List.reverse_reverse,
    List.append_assoc, List.singleton_append]

/-- It does not matter which end is trimmed first. -/
theorem trimStart_trimEnd (cs : List Char) : trimStart (trimEnd cs) = trim cs := by
  obtain ⟨front, hfront, hcs⟩ := exists_trimStart cs
  rw [trim]
  cases hrest : trimStart cs with
  | nil =>
    rw [hrest, List.append_nil] at hcs
    have hend : trimEnd ([] ++ front) = trimEnd [] := trimEnd_append_blanks hfront
    rw [hcs, ← List.nil_append front, hend]
    rfl
  | cons c rest =>
    have hc : isBlank c = false := head_trimStart_not_blank (by rw [hrest, List.head?_cons])
    rw [hcs, hrest, trimEnd_append_cons hc, trimStart_append_blanks hfront, trimStart_cons hc]
    exact (trimEnd_append_cons hc [] rest).symm

end PointCloud.Text
