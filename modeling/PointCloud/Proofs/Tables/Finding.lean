import PointCloud.Proofs.Results
import PointCloud.Table

/-!
# Finding dimensions by name

A name is looked up twice, as it is and then without regard to case.  Whatever is
found has the name up to case, and nothing is missed that has it:
`find?_eq_some` and `exists_find?_iff`.
-/

namespace PointCloud

namespace Layout

variable {l : Layout} {name : String} {id : Nat}

/-- What is found is a dimension with the property. -/
theorem findIdx?_eq_some {p : Dimension → Bool} (h : l.dimensions.findIdx? p = some id) :
    ∃ d, l.get? id = some d ∧ p d = true := by
  obtain ⟨hid, hp, -⟩ := List.findIdx?_eq_some_iff_getElem.mp h
  exact ⟨l.dimensions[id], List.getElem?_eq_getElem hid, hp⟩

/-- What a name finds has the name, up to case. -/
theorem find?_eq_some (h : l.find? name = some id) :
    ∃ d, l.get? id = some d ∧ Text.sameIgnoringCase d.name name = true := by
  rcases Option.or_eq_some_iff.mp h with hexact | ⟨-, hcaseless⟩
  · obtain ⟨d, hget, hname⟩ := findIdx?_eq_some hexact
    rw [beq_iff_eq] at hname
    subst hname
    exact ⟨d, hget, Text.sameIgnoringCase_self d.name⟩
  · exact findIdx?_eq_some hcaseless

/-- A name finds something exactly if a dimension has the name, up to case. -/
theorem exists_find?_iff :
    (∃ id, l.find? name = some id) ↔
      ∃ d ∈ l.dimensions, Text.sameIgnoringCase d.name name = true := by
  constructor
  · rintro ⟨id, hfind⟩
    obtain ⟨d, hget, hname⟩ := find?_eq_some hfind
    exact ⟨d, List.mem_of_getElem? hget, hname⟩
  · rintro ⟨d, hd, hname⟩
    have hcaseless : (l.dimensions.findIdx? fun d => Text.sameIgnoringCase d.name name).isSome := by
      rw [List.findIdx?_isSome, List.any_eq_true]
      exact ⟨d, hd, hname⟩
    rw [← Option.isSome_iff_exists, find?, Option.isSome_or, hcaseless, Bool.or_true]

end Layout

end PointCloud
