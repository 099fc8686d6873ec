import PointCloud.Proofs.Records.References
import PointCloud.Proofs.Writer.Rejections

/-!
# The coordinate system of a file

A file is opened with the records of one coordinate system: that of the options, or
that of the table if the options have none.  `Writer.reference_written` says so of
every file.  A hollow reference in the options leaves a file without a coordinate
system, whatever the table has, `reference_lost`.
-/

namespace PointCloud

open Device.Reliable (Fresh memory)
open SpatialReference (IsReferenceOf)

/-- What a file is opened with: the header, the regular ones of its records, and the mark of the
points.  The records are those that the requests stand for, those of the coordinate system, and the
one of the extra dimensions. -/
structure Plan.OpensWith (p : Plan) (source : PointTable) (reference : List Vlr)
    (vlrs : List Vlr) (stored : Octets) : Prop where
  chosen : IsReferenceOf p.options.spatialReference source.spatialReference reference
  records : ∃ requested descriptor?,
    List.Forall₂ (fun r v? => VlrRequest.Grants source.metadata r v?) p.options.records requested ∧
    p.encoder.extra.record? = .ok descriptor? ∧
    vlrs = requested.reduceOption ++ reference ++ descriptor?.toList
  stored : ∃ header regular, header.length = p.header.version.headerSize ∧
    List.Forall₂ (fun v piece => v.bytes false p.header.version.recordSignature = .ok piece)
      (vlrs.filter (!·.isLarge)) regular ∧
    stored = header ++ (regular.flatten ++ p.pointDataMark)

namespace Writer

variable {σ : Type} [Device σ] [Device.Reliable σ]

/-- **The coordinate system that a file is opened with.**  It has no record just if it is blank or
hollow, and the records that are written are those of the options, or those of the table. -/
theorem reference_written (stamp : Stamp) {d : σ} (hd : Fresh d) (calls : List Call) {p : Plan}
    (hphase : ((create stamp d).after calls).phase = .prepared p false) {source : PointTable}
    (hready : (((create stamp d).after calls).ready source).result = .ok ()) :
    let opened := (((create stamp d).after calls).ready source).writer
    (∀ s : SpatialReference, s.records.value = [] ↔ s.isBlank = true ∨ s.IsHollow) ∧
      ∃ reference vlrs stored, p.OpensWith source reference vlrs stored ∧
        opened.phase = .ready (.fresh p (memory d).place (.ofList vlrs)) false ∧
        memory opened.device = (memory d).put stored := by
  intro opened
  refine ⟨fun s => SpatialReference.records_eq_nil_iff, ?_⟩
  obtain ⟨-, horder, -⟩ := after_onMemory (inOrder_create stamp hd) calls
  have hm : (memory ((create stamp d).after calls).device).capacity = none :=
    capacity_of_inOrder horder
  have hbefore := memory_of_prepared hd hphase
  obtain ⟨hresult, hwriter, -⟩ := perform_onMemory horder (.ready source)
  obtain ⟨q, vlrs, hprepared, hvlrs, hverdict, hopened⟩ :=
    ready_eq_ok hm (hresult.symm.trans hready)
  have hsame : ((create stamp d).after calls).onMemory.phase = .prepared p false := hphase
  obtain rfl : p = q := (Phase.prepared.inj (hsame.symm.trans hprepared)).1
  have hplace : ((create stamp d).after calls).onMemory.device = memory d := hbefore
  rw [hplace] at hverdict hopened
  have hafter : opened.onMemory = _ := hwriter.trans hopened
  obtain ⟨requested, descriptor?, hrequested, hdescriptor, hlist⟩ := fileRecords_eq_ok hvlrs
  obtain ⟨header, regular, hregular, hstored, hlength, -⟩ := Session.front_eq_ok hverdict
  refine ⟨(referenceRecords p.options source).value, vlrs, _, {
    chosen := isReferenceOf_referenceRecords p.options source
    records := ⟨requested, descriptor?, hrequested, hdescriptor, hlist⟩
    stored := ⟨header, regular, hlength, hregular, hstored⟩ }, ?_, ?_⟩
  · exact congrArg Writer.phase hafter
  · exact congrArg Writer.device hafter

end Writer

/-- Calls up to the opening of a file of such a table, with a reference in the options. -/
def Call.surveying (reference : Option SpatialReference) : List Call :=
  [.configure { Options.usual with spatialReference := reference }, .prepare .surveyed]

namespace Writer

/-- Without a coordinate system in the options, that of the table is written. -/
theorem reference_written_surveying :
    ∃ (p : Plan) (vlrs : List Vlr) (stored : Octets),
      p.OpensWith .surveyed (SpatialReference.ofText "LOCAL_CS[]").records.value vlrs stored ∧
        (((create .blank (Memory.unlimited [] 0)).after (Call.surveying none)).ready
          .surveyed).writer.device = (Memory.unlimited [] 0).put stored := by
  let w := (create .blank (Memory.unlimited [] 0)).after (Call.surveying none)
  have hpreparing : (((create .blank (Memory.unlimited [] 0)).configure
      { Options.usual with spatialReference := none }).writer.prepare .surveyed).result =
        .ok () := by
    decide +kernel
  obtain ⟨-, p, -, -, hprepared⟩ := prepare_eq_ok hpreparing
  have hphase : w.phase = .prepared p false := congrArg Writer.phase hprepared
  have hready : (w.ready .surveyed).result = .ok () := by decide +kernel
  obtain ⟨-, reference, vlrs, stored, hopens, -, hmemory⟩ := reference_written .blank
    (Memory.fresh_unlimited [] 0) (Call.surveying none) hphase hready
  have hoptions : w.phase.plan?.map (·.options.spatialReference) = some none := by decide +kernel
  rw [hphase] at hoptions
  have hnone : p.options.spatialReference = none := Option.some.inj hoptions
  have hreference : reference = (SpatialReference.ofText "LOCAL_CS[]").records.value := by
    apply hopens.chosen.other
    · rw [hnone]
      rfl
    · simp [hnone]
  rw [hreference] at hopens
  exact ⟨p, vlrs, stored, hopens, hmemory⟩

/-- **A reference with nothing to write suppresses that of the table.**  It is not blank although it
has no record, and the file is opened with its header alone. -/
theorem reference_lost :
    let hollow : SpatialReference := ⟨"", some ⟨[], [], []⟩⟩
    hollow.records.value = [] ∧ hollow.isBlank = false ∧
      (SpatialReference.ofText "LOCAL_CS[]").records.value ≠ [] ∧
      let w := (create .blank (Memory.unlimited [] 0)).after (Call.surveying (some hollow))
      (w.ready .surveyed).result = .ok () ∧
        (w.ready .surveyed).writer.device.content.length = Version.usual.headerSize := by
  decide +kernel

end Writer

end PointCloud
