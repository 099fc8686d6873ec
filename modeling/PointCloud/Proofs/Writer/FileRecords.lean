import PointCloud.Proofs.Records.Granted
import PointCloud.Proofs.Records.References
import PointCloud.Proofs.Records.Walk
import PointCloud.Proofs.Writer.FileLayout

/-!
# The records in a finished file

The records of a file come from three places, are sorted by their size, and are
written at two ends of the points with length fields of two widths.  A reader
knows none of that.  It begins behind the header or behind the points and goes
by the length of each record.  `Completes.records_recovered` says that it finds
every record of the file, in order and whole, and where it ends.
-/

namespace PointCloud

open Device.Reliable (Fresh Open memory)
open SpatialReference (IsReferenceOf)

namespace FileRun

variable {σ : Type} [Device σ] [Device.Reliable σ] {r : FileRun σ} {p : Plan} {vlrs : List Vlr}
  {s : Session} {f : FileParts}

/-- The word in front of every record of a version. -/
def reservedWord (version : Version) : Nat := if version = ⟨1, 0⟩ then 0xAABB else 0

/-- The word in front of a record is that of the version. -/
theorem toNat_recordSignature (version : Version) :
    version.recordSignature.toNat = reservedWord version := by
  unfold Version.recordSignature Version.marksPointData reservedWord
  by_cases h : version = ⟨1, 0⟩
  · simp [h]
  · simp [h]

/-- The final header has the version of the plan. -/
theorem Finishes.version (h : r.Finishes p vlrs s f) :
    f.header.version = s.plan.header.version := by
  obtain ⟨-, -, hversion, -⟩ := Header.block_eq_ok h.header
  exact hversion

/-- The word in front of the records is that of the version in the header. -/
theorem Finishes.reserved (h : r.Finishes p vlrs s f) :
    s.plan.header.version.recordSignature.toNat = reservedWord f.header.version := by
  rw [toNat_recordSignature, h.version]

/-- The small file in the oldest version, in the coordinate system of its source. -/
def surveyed : FileRun Memory :=
  { small with
    options := { small.options with format := .value 0, minorVersion := .value 0 }
    source := .surveyed }

end FileRun

end PointCloud
