import PointCloud.Writer.Records

/-!
# The records of the coordinate system

The coordinate system of the options goes before that of the table.  Whether it
has anything to say is decided by one function, `isBlank`, and what it says is
written by another, `records`.  The two nearly agree: a reference without a text,
whose key blocks are given but are all empty, is not blank and yet has no record.
Such a reference is `IsHollow`, and `records_eq_nil_iff` says that it is the only
one of its kind.

`IsReferenceOf` says what this makes of the choice, without saying how it is made.
-/

namespace PointCloud

namespace SpatialReference

/-- There is no text, and the key blocks are given but are all empty. -/
def IsHollow (s : SpatialReference) : Prop :=
  s.wellKnownText = "" ∧ s.geoKeys = some ⟨[], [], []⟩

/-- A key block is left out just if it is empty. -/
theorem geoRecord_eq_nil_iff {recordId : UInt16} {description : String} {data : Octets} :
    (geoRecord recordId description data).value = [] ↔ data = [] := by
  unfold geoRecord
  by_cases h : data = []
  · simp [h, Logged.noting]
  · simp [h, Logged.quiet]

/-- A text is left out just if it is empty. -/
theorem textRecords_eq_nil_iff {wkt : String} : textRecords wkt = [] ↔ wkt = "" := by
  unfold textRecords
  by_cases h : wkt = ""
  · simp [h]
  · simp [h]

/-- **When a coordinate system has no record.** -/
theorem records_eq_nil_iff {s : SpatialReference} :
    s.records.value = [] ↔ s.isBlank = true ∨ s.IsHollow := by
  rcases s with ⟨wkt, keys?⟩
  cases keys? with
  | none =>
    have hrecords : (records ⟨wkt, none⟩).value = textRecords wkt := rfl
    rw [hrecords, textRecords_eq_nil_iff]
    simp [isBlank, IsHollow]
  | some keys =>
    rcases keys with ⟨directory, doubles, ascii⟩
    simp only [records, geoRecords, Logged.value_bind, Logged.value_pure, List.append_eq_nil_iff,
      geoRecord_eq_nil_iff, textRecords_eq_nil_iff]
    simp only [isBlank, IsHollow, Option.isNone_some, Bool.and_false, Bool.false_eq_true, false_or,
      Option.some.injEq, GeoKeys.mk.injEq]
    rw [and_comm, and_assoc]

/-- A hollow reference is not blank. -/
theorem IsHollow.isBlank_eq_false {s : SpatialReference} (h : s.IsHollow) : s.isBlank = false := by
  rw [isBlank, h.2]
  exact Bool.and_false _

/-- The records of a coordinate system, if there is one. -/
def recordsOf : Option SpatialReference → List Vlr
  | some s => s.records.value
  | none => []

/-- The records are those of the coordinate system that comes first, or of the other one if the
first has none; but if the first is hollow there are none at all. -/
structure IsReferenceOf (first other : Option SpatialReference) (reference : List Vlr) : Prop where
  own : recordsOf first ≠ [] → reference = recordsOf first
  other : recordsOf first = [] → (∀ s ∈ first, ¬ s.IsHollow) → reference = recordsOf other
  hollow : ∀ s ∈ first, s.IsHollow → reference = []

end SpatialReference

open SpatialReference (recordsOf IsReferenceOf)

/-- The records of a file are those of the coordinate system that is chosen. -/
theorem value_referenceRecords (o : Options) (table : PointTable) :
    (referenceRecords o table).value = recordsOf (chosenReference o table) := by
  unfold referenceRecords
  cases chosenReference o table with
  | none => rfl
  | some s => rfl

/-- The coordinate system of a file is that of the options or of the table. -/
theorem isReferenceOf_referenceRecords (o : Options) (table : PointTable) :
    IsReferenceOf o.spatialReference table.spatialReference (referenceRecords o table).value := by
  rw [value_referenceRecords, chosenReference]
  cases o.spatialReference with
  | none => exact ⟨fun hsome => absurd rfl hsome, fun _ _ => rfl, by simp⟩
  | some s =>
    have hrecords : recordsOf (some s) = s.records.value := rfl
    cases hblank : s.isBlank with
    | true =>
      -- the table is asked, and rightly so
      have hnone : recordsOf (some s) = [] :=
        SpatialReference.records_eq_nil_iff.mpr (Or.inl hblank)
      have hother : ((some s).filter (!·.isBlank)).or table.spatialReference =
          table.spatialReference := by
        simp [Option.filter, hblank]
      rw [hother]
      refine ⟨fun hsome => absurd hnone hsome, fun _ _ => rfl, ?_⟩
      rintro t ⟨⟩ hhollow
      rw [hhollow.isBlank_eq_false] at hblank
      cases hblank
    | false =>
      have hfirst : ((some s).filter (!·.isBlank)).or table.spatialReference = some s := by
        simp [Option.filter, hblank]
      rw [hfirst]
      refine ⟨fun _ => rfl, ?_, ?_⟩
      · intro hnone hnot
        rw [hrecords, SpatialReference.records_eq_nil_iff, hblank] at hnone
        obtain hblank' | hhollow := hnone
        · cases hblank'
        · exact absurd hhollow (hnot s rfl)
      · rintro t ⟨⟩ hhollow
        exact SpatialReference.records_eq_nil_iff.mpr (Or.inr hhollow)

end PointCloud
