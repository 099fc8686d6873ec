/-!
# Comparing text without regard to ASCII case

Names of dimensions and the keywords of settings are compared with the letters
A to Z taken as their small forms.  Every other character, letters of other
scripts included, stands for itself.
-/

namespace PointCloud.Text

/-- The text with A to Z made small. -/
def lower (cs : List Char) : List Char := cs.map Char.toLower

/-- Equality up to the case of A to Z. -/
def sameIgnoringCase (a b : String) : Bool := lower a.toList == lower b.toList

/-- Two texts are the same but for their case just if they are in small letters. -/
theorem sameIgnoringCase_iff {a b : String} :
    sameIgnoringCase a b = true ↔ lower a.toList = lower b.toList := by
  simp [sameIgnoringCase]

@[simp] theorem sameIgnoringCase_self (a : String) : sameIgnoringCase a a = true := by
  simp [sameIgnoringCase_iff]

theorem sameIgnoringCase_comm {a b : String} :
    sameIgnoringCase a b = true ↔ sameIgnoringCase b a = true := by
  rw [sameIgnoringCase_iff, sameIgnoringCase_iff]
  exact ⟨Eq.symm, Eq.symm⟩

theorem sameIgnoringCase_trans {a b c : String} (hab : sameIgnoringCase a b = true)
    (hbc : sameIgnoringCase b c = true) : sameIgnoringCase a c = true := by
  rw [sameIgnoringCase_iff] at *
  exact hab.trans hbc

end PointCloud.Text
