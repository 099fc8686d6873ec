import PointCloud.Proofs.Tables.Finding

/-!
# Layouts that grow

A registration finds its name, and then nothing changes, or it puts a dimension
behind the others, `register_cases`.  So a layout that began with no two names
alike stays so, `NamesApart.registerAll`, and whatever stood at an index stays
there, `get?_registerAll`.

Among names that are apart a name has at most one candidate, up to case, and it is
found whether or not its case is right, `NamesApart.find?_eq_some_iff`.  An index
that was given for a name is therefore good for as long as the layout grows.
-/

namespace PointCloud.Layout

variable {l : Layout} {d : Dimension} {name : String} {id : Nat}

/-- No two dimensions have the same name, up to case. -/
def NamesApart (l : Layout) : Prop :=
  l.dimensions.Pairwise fun d e => Text.sameIgnoringCase d.name e.name = false

/-- A name finds nothing exactly if no dimension has it, up to case. -/
theorem find?_eq_none_iff :
    l.find? name = none ↔ ∀ d ∈ l.dimensions, Text.sameIgnoringCase d.name name = false := by
  rw [Option.eq_none_iff_forall_ne_some, ← not_exists, exists_find?_iff]
  simp only [not_exists, not_and, Bool.not_eq_true]

/-- All that a registration does: the name is there, or the dimension is put behind the others. -/
theorem register_cases (l : Layout) (d : Dimension) :
    (∃ id, l.find? d.name = some id ∧ l.register d = (l, id)) ∨
      ((∀ e ∈ l.dimensions, Text.sameIgnoringCase e.name d.name = false) ∧
        l.register d = (⟨l.dimensions ++ [d]⟩, l.dimensions.length)) := by
  cases hfind : l.find? d.name with
  | some id => exact Or.inl ⟨id, rfl, register_of_find? hfind⟩
  | none => exact Or.inr ⟨find?_eq_none_iff.mp hfind, register_of_not_found hfind⟩

/-! ### Names that are apart -/

/-- Dimensions of the same name are the same dimension. -/
theorem NamesApart.index_eq (h : l.NamesApart) {i j : Nat} {d e : Dimension}
    (hd : l.get? i = some d) (he : l.get? j = some e)
    (hname : Text.sameIgnoringCase d.name e.name = true) : i = j := by
  obtain ⟨hi, rfl⟩ := List.getElem?_eq_some_iff.mp hd
  obtain ⟨hj, rfl⟩ := List.getElem?_eq_some_iff.mp he
  have hapart := List.pairwise_iff_getElem.mp h
  obtain hlt | heq | hgt := Nat.lt_trichotomy i j
  · rw [hapart i j hi hj hlt] at hname
    cases hname
  · exact heq
  · rw [Text.sameIgnoringCase_comm, hapart j i hj hi hgt] at hname
    cases hname

/-- A name has one candidate, up to case, and finds it. -/
theorem NamesApart.find?_eq_some_iff (h : l.NamesApart) :
    l.find? name = some id ↔
      ∃ d, l.get? id = some d ∧ Text.sameIgnoringCase d.name name = true := by
  constructor
  · exact find?_eq_some
  · rintro ⟨d, hget, hname⟩
    obtain ⟨found, hfound⟩ := exists_find?_iff.mpr ⟨d, List.mem_of_getElem? hget, hname⟩
    obtain ⟨e, he, hother⟩ := find?_eq_some hfound
    have hsame := Text.sameIgnoringCase_trans hother (Text.sameIgnoringCase_comm.mp hname)
    rw [hfound, h.index_eq he hget hsame]

/-- Looking a name up as it is makes no difference to looking it up without regard to case. -/
theorem NamesApart.find?_eq_findIdx? (h : l.NamesApart) (name : String) :
    l.find? name = l.dimensions.findIdx? fun d => Text.sameIgnoringCase d.name name := by
  cases hcaseless : l.dimensions.findIdx? fun d => Text.sameIgnoringCase d.name name with
  | some id => exact h.find?_eq_some_iff.mpr (findIdx?_eq_some hcaseless)
  | none => exact find?_eq_none_iff.mpr (List.findIdx?_eq_none_iff.mp hcaseless)

/-- A name is found in any case. -/
theorem NamesApart.find?_congr (h : l.NamesApart) {other : String}
    (hname : Text.sameIgnoringCase name other = true) (hfind : l.find? name = some id) :
    l.find? other = some id := by
  obtain ⟨d, hget, hsame⟩ := find?_eq_some hfind
  exact h.find?_eq_some_iff.mpr ⟨d, hget, Text.sameIgnoringCase_trans hsame hname⟩

/-! ### One registration and many -/

theorem namesApart_empty : empty.NamesApart := List.Pairwise.nil

/-- A name that is registered is kept apart from the others. -/
theorem NamesApart.register (h : l.NamesApart) (d : Dimension) : (l.register d).1.NamesApart := by
  obtain ⟨id, -, hregister⟩ | ⟨hnew, hregister⟩ := l.register_cases d
  · rwa [hregister]
  · rw [hregister]
    refine List.pairwise_append.mpr ⟨h, List.pairwise_singleton _ d, ?_⟩
    intro e he other hother
    rw [List.mem_singleton.mp hother]
    exact hnew e he

/-- **Names stay apart** as a layout grows. -/
theorem NamesApart.registerAll (h : l.NamesApart) (ds : List Dimension) :
    (l.registerAll ds).NamesApart := by
  induction ds generalizing l with
  | nil => exact h
  | cons d ds ih => exact ih (h.register d)

theorem namesApart_xyz : xyz.NamesApart := namesApart_empty.registerAll _

/-- A dimension keeps its place and its data when another is registered. -/
theorem get?_register (h : l.get? id = some d) (other : Dimension) :
    (l.register other).1.get? id = some d := by
  obtain ⟨_, -, hregister⟩ | ⟨-, hregister⟩ := l.register_cases other
  · rwa [hregister]
  · rw [hregister]
    have hid := (List.getElem?_eq_some_iff.mp h).1
    exact (List.getElem?_append_left hid).trans h

/-- What stands at an index stays there. -/
theorem get?_registerAll (h : l.get? id = some d) (ds : List Dimension) :
    (l.registerAll ds).get? id = some d := by
  induction ds generalizing l with
  | nil => exact h
  | cons other ds ih => exact ih (get?_register h other)

/-- What has been found is found again in every layout that this one grows into. -/
theorem NamesApart.find?_registerAll (h : l.NamesApart) (hfind : l.find? name = some id)
    (ds : List Dimension) : (l.registerAll ds).find? name = some id := by
  obtain ⟨d, hget, hname⟩ := find?_eq_some hfind
  exact (h.registerAll ds).find?_eq_some_iff.mpr ⟨d, get?_registerAll hget ds, hname⟩

/-- The index that is given for a name is the one that the name finds. -/
theorem NamesApart.find?_register (h : l.NamesApart) (d : Dimension) :
    (l.register d).1.find? d.name = some (l.register d).2 := by
  obtain ⟨id, hfind, hregister⟩ | ⟨-, hregister⟩ := l.register_cases d
  · rwa [hregister]
  · have hapart := h.register d
    rw [hregister] at hapart ⊢
    exact hapart.find?_eq_some_iff.mpr ⟨d, by simp [get?], Text.sameIgnoringCase_self d.name⟩

/-- A dimension is added exactly if its name is new. -/
theorem register_eq_append_iff :
    (l.register d).1 = ⟨l.dimensions ++ [d]⟩ ↔
      ∀ e ∈ l.dimensions, Text.sameIgnoringCase e.name d.name = false := by
  constructor
  · intro hadded
    obtain ⟨id, -, hregister⟩ | ⟨hnew, -⟩ := l.register_cases d
    · rw [hregister] at hadded
      have hlength := congrArg (·.dimensions.length) hadded
      simp at hlength
    · exact hnew
  · intro hnew
    rw [register_of_not_found (find?_eq_none_iff.mpr hnew)]

/-- Nothing is added exactly if the name is there. -/
theorem register_eq_self_iff :
    (l.register d).1 = l ↔ ∃ e ∈ l.dimensions, Text.sameIgnoringCase e.name d.name = true := by
  rw [← exists_find?_iff]
  obtain ⟨id, hfind, hregister⟩ | ⟨hnew, hregister⟩ := l.register_cases d
  · rw [hregister]
    exact ⟨fun _ => ⟨id, hfind⟩, fun _ => rfl⟩
  · rw [hregister, find?_eq_none_iff.mpr hnew]
    constructor
    · intro hsame
      have hlength := congrArg (·.dimensions.length) hsame
      simp at hlength
    · rintro ⟨_, hsome⟩
      cases hsome

/-- What can be said of the names and the indexes of a layout, now and as long as it grows. -/
structure KeepsNames (l : Layout) : Prop where
  /-- No two dimensions have the same name. -/
  apart : ∀ i j d e, l.get? i = some d → l.get? j = some e →
    Text.sameIgnoringCase d.name e.name = true → i = j
  /-- The index that is given for a name is found by the name in any case, now and later. -/
  given : ∀ d name, Text.sameIgnoringCase d.name name = true → ∀ more,
    ((l.register d).1.registerAll more).find? name = some (l.register d).2
  /-- What has been found is found later, in any case. -/
  found : ∀ name id, l.find? name = some id → ∀ other,
    Text.sameIgnoringCase name other = true → ∀ more,
      (l.registerAll more).find? other = some id
  /-- The dimension behind an index does not change. -/
  kept : ∀ id d, l.get? id = some d → ∀ more, (l.registerAll more).get? id = some d
  /-- A dimension is added if its name is new, and only then. -/
  added : ∀ d, (l.register d).1 = ⟨l.dimensions ++ [d]⟩ ↔
    ∀ e ∈ l.dimensions, Text.sameIgnoringCase e.name d.name = false
  /-- Nothing is added if the name is there, and only then. -/
  unchanged : ∀ d, (l.register d).1 = l ↔
    ∃ e ∈ l.dimensions, Text.sameIgnoringCase e.name d.name = true
  /-- A name finds what has the name, up to case; there is at most one such dimension. -/
  candidate : ∀ name id, l.find? name = some id ↔
    ∃ d, l.get? id = some d ∧ Text.sameIgnoringCase d.name name = true
  /-- It does not matter that a name is first looked up as it is. -/
  caseless : ∀ name,
    l.find? name = l.dimensions.findIdx? fun d => Text.sameIgnoringCase d.name name

/-- A layout whose names are apart keeps them apart, whatever is registered. -/
theorem NamesApart.keepsNames (h : l.NamesApart) : l.KeepsNames where
  apart := fun _ _ _ _ => h.index_eq
  given := fun d _ hname more => by
    have hfind := (h.register d).find?_registerAll (h.find?_register d) more
    exact ((h.register d).registerAll more).find?_congr hname hfind
  found := fun _ _ hfind _ hname more => h.find?_registerAll (h.find?_congr hname hfind) more
  kept := fun _ _ => get?_registerAll
  added := fun _ => register_eq_append_iff
  unchanged := fun _ => register_eq_self_iff
  candidate := fun _ _ => h.find?_eq_some_iff
  caseless := h.find?_eq_findIdx?

/-- **Layouts that grow keep their names**: whatever is registered, beginning with no dimension or
with the coordinates. -/
theorem keepsNames_registerAll (ds : List Dimension) :
    (empty.registerAll ds).KeepsNames ∧ (xyz.registerAll ds).KeepsNames :=
  ⟨(namesApart_empty.registerAll ds).keepsNames, (namesApart_xyz.registerAll ds).keepsNames⟩

end PointCloud.Layout
