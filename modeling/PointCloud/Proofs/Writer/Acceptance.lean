import PointCloud.Proofs.Records.Feasible
import PointCloud.Proofs.Writer.Continuing
import PointCloud.Proofs.Writer.Rejections

/-!
# What a file can be made of

Opening a file and finishing it are long steps with many places to fail.  On a
device that does not fail itself there are few reasons that are left, and each
of them lies in what the writer was given.  `Plan.CanOpen` and `Plan.CanFinish`
list them, and `Writer.accepted` says that the lists are complete and that
nothing in them is spurious: a file is opened just if it can be, and then, after
any batches, finished just if it can be.

The texts of requests are in both lists, for it is the size of a record that
decides which of the two steps comes to it.  What the coordinate system and the
extra dimensions add to a file is in neither but for the names of dimensions.
-/

namespace PointCloud

open Device.Reliable (Fresh memory)
open Except (exists_map_eq_ok_iff exists_bind_eq_ok_iff)

/-- Pieces of things are all sound just if each of the things has its piece. -/
theorem DeviceTask.verdict_map_eq_ok_iff {α : Type} {f : α → Except Error Octets} {xs : List α} :
    verdict (xs.map f) = .ok () ↔ ∀ x ∈ xs, ∃ piece, f x = .ok piece := by
  induction xs with
  | nil => simp [verdict]
  | cons x xs ih =>
    cases hx : f x with
    | error e => simp [verdict, hx]
    | ok piece => simp [verdict, hx, ih]

namespace Header

/-- There is a field for the count of points unless it has to be legacy and is too large. -/
theorem exists_pointCount_iff {h : Header} {count : Nat} :
    (∃ field, h.pointCount count = .ok field) ↔
      count < UInt32.size ∨ h.version.has .largeFiles = true := by
  unfold pointCount
  by_cases hcount : count < UInt32.size
  · simp [hcount]
  · by_cases hlarge : h.version.has .largeFiles = true
    · simp [hcount, hlarge]
    · simp [hcount, hlarge]

/-- There is a field for the place of the points if it has 32 bits. -/
theorem exists_pointDataOffset_iff {offset : Nat} :
    (∃ field, pointDataOffset offset = .ok field) ↔ offset < UInt32.size := by
  unfold pointDataOffset
  by_cases h : offset < UInt32.size
  · simp [h]
  · simp [h]

/-- A header can be made if its count, its texts and the place of the points fit their fields. -/
theorem exists_bytes_iff {h : Header} {scalings : Triple Scaling} {s : Summary} {c : Contents} :
    (∃ bytes, h.bytes scalings s c = .ok bytes) ↔
      (s.count < UInt32.size ∨ h.version.has .largeFiles = true) ∧
        AsciiField.Fits 32 h.systemIdentifier ∧ AsciiField.Fits 32 h.generatingSoftware ∧
        c.pointDataOffset < UInt32.size := by
  rw [bytes, exists_map_eq_ok_iff, block, exists_bind_eq_ok_iff fun count _ =>
    exists_bind_eq_ok_iff fun system _ => exists_bind_eq_ok_iff fun software _ =>
      exists_bind_eq_ok_iff (p := True) fun place _ => by simp [pure, Except.pure],
    exists_pointCount_iff, AsciiField.exists_encode_iff, AsciiField.exists_encode_iff,
    exists_pointDataOffset_iff, and_true]

end Header

namespace Session

/-- The regular records, and likewise the extended ones, can be written if their texts fit. -/
theorem exists_recordBytes_iff {s : Session} {vlrs : List Vlr} (large : Bool) :
    (∀ v ∈ vlrs, v.isLarge = large → ∃ bytes, s.recordBytes large v = .ok bytes) ↔
      ∀ v ∈ vlrs, v.isLarge = large → v.TextsFit := by
  have hone : ∀ v : Vlr, v.isLarge = large →
      ((∃ bytes, s.recordBytes large v = .ok bytes) ↔ v.TextsFit) := by
    rintro v rfl
    exact v.exists_bytes_iff _
  constructor
  · intro h v hv hlarge
    exact (hone v hlarge).mp (h v hv hlarge)
  · intro h v hv hlarge
    exact (hone v hlarge).mpr (h v hv hlarge)

/-- What stands in front of the points can be made if the header and the regular records can. -/
theorem verdict_front_iff {s : Session} {vlrs : List Vlr} (h : s.records = .ofList vlrs) :
    DeviceTask.verdict s.front = .ok () ↔
      (∃ bytes, s.headerBytes none = .ok bytes) ∧
        ∀ v ∈ vlrs, v.isLarge = false → v.TextsFit := by
  have hfront : s.front =
      [()].map (fun _ => s.headerBytes none) ++ (s.records.regular.map (s.recordBytes false) ++
        [()].map fun _ => .ok s.plan.pointDataMark) := by
    simp [front]
  rw [hfront, DeviceTask.verdict_append, DeviceTask.verdict_append,
    DeviceTask.verdict_map_eq_ok_iff, DeviceTask.verdict_map_eq_ok_iff,
    DeviceTask.verdict_map_eq_ok_iff, ← s.exists_recordBytes_iff false]
  simp [h, VlrList.ofList]

/-- What stands behind the points can be made if the extended records can. -/
theorem verdict_back_iff {s : Session} {vlrs : List Vlr} (h : s.records = .ofList vlrs) :
    DeviceTask.verdict s.back = .ok () ↔ ∀ v ∈ vlrs, v.isLarge = true → v.TextsFit := by
  rw [back, DeviceTask.verdict_map_eq_ok_iff, ← s.exists_recordBytes_iff true]
  simp [h, VlrList.ofList]

end Session

/-- A file can be opened by the plan for this source. -/
structure Plan.CanOpen (p : Plan) (source : PointTable) : Prop where
  requests : ∀ r ∈ p.options.records, ∃ v?, r.Grants source.metadata v?
  system : AsciiField.Fits 32 p.header.systemIdentifier
  software : AsciiField.Fits 32 p.header.generatingSoftware
  names : ∀ d ∈ p.options.extraDimensions, AsciiField.Fits 32 d.name
  texts : ∀ r ∈ p.options.records, ∀ v, r.Grants source.metadata (some v) →
    v.data.length ≤ 65535 → AsciiField.Fits 16 r.userId ∧ AsciiField.Fits 32 r.description

/-- A file that has been opened by the plan can be finished. -/
def Plan.CanFinish (p : Plan) (source : PointTable) : Prop :=
  ∀ r ∈ p.options.records, ∀ v, r.Grants source.metadata (some v) →
    65535 < v.data.length → AsciiField.Fits 16 r.userId ∧ AsciiField.Fits 32 r.description

/-- A record is large if its length does not fit into 16 bits. -/
theorem Vlr.isLarge_eq_true_iff {v : Vlr} : v.isLarge = true ↔ 65535 < v.data.length :=
  decide_eq_true_iff

/-- If it fits, the record is regular. -/
theorem Vlr.isLarge_eq_false_iff {v : Vlr} : v.isLarge = false ↔ v.data.length ≤ 65535 :=
  decide_eq_false_iff_not.trans Nat.not_lt

namespace Plan

variable {p : Plan} {o : Options} {table source : PointTable}

/-- The names in the descriptors are those that were asked for. -/
theorem SettledFor.names_iff (h : p.SettledFor o table) :
    (∀ f ∈ p.encoder.extra.fields, AsciiField.Fits 32 f.name) ↔
      ∀ d ∈ p.options.extraDimensions, AsciiField.Fits 32 d.name := by
  obtain ⟨hfields, -⟩ := ExtraBytes.resolve_eq_ok_iff.mp h.extra
  have hname : ∀ (d : ExtraDimension) f, ExtraField.resolve table.layout d = .ok f →
      f.name = d.name := by
    intro d f hresolve
    obtain ⟨id, dimension, -, -, rfl⟩ := ExtraField.resolve_eq_ok_iff.mp hresolve
    rfl
  rw [h.options]
  constructor
  · intro hfit d hd
    obtain ⟨f, hf, hresolve⟩ := hfields.exists_right hd
    rw [← hname d f hresolve]
    exact hfit f hf
  · intro hfit f hf
    obtain ⟨d, hd, hresolve⟩ := hfields.exists_left hf
    rw [hname d f hresolve]
    exact hfit d hd

/-- A plan that a file can be opened by is one whose records can be found, and whose header and
regular records can be made. -/
theorem SettledFor.canOpen_iff (h : p.SettledFor o table) :
    p.CanOpen source ↔ ∃ vlrs,
      (fileRecords p.options source p.encoder.extra).value = .ok vlrs ∧
        AsciiField.Fits 32 p.header.systemIdentifier ∧
        AsciiField.Fits 32 p.header.generatingSoftware ∧
        ∀ v ∈ vlrs, v.isLarge = false → v.TextsFit := by
  constructor
  · intro hcan
    obtain ⟨vlrs, hvlrs⟩ :=
      exists_fileRecords_iff.mpr ⟨hcan.requests, h.names_iff.mpr hcan.names⟩
    refine ⟨vlrs, hvlrs, hcan.system, hcan.software, ?_⟩
    rw [textsFit_iff_of_fileRecords hvlrs false]
    intro r hr v hv hsmall
    exact hcan.texts r hr v hv (Vlr.isLarge_eq_false_iff.mp hsmall)
  · rintro ⟨vlrs, hvlrs, hsystem, hsoftware, hfit⟩
    obtain ⟨hrequests, hnames⟩ := exists_fileRecords_iff.mp ⟨vlrs, hvlrs⟩
    rw [textsFit_iff_of_fileRecords hvlrs false] at hfit
    refine ⟨hrequests, hsystem, hsoftware, h.names_iff.mp hnames, ?_⟩
    intro r hr v hv hsmall
    exact hfit r hr v hv (Vlr.isLarge_eq_false_iff.mpr hsmall)

/-- A file can be finished just if the texts of its large records fit. -/
theorem canFinish_iff {vlrs : List Vlr}
    (hvlrs : (fileRecords p.options source p.encoder.extra).value = .ok vlrs) :
    p.CanFinish source ↔ ∀ v ∈ vlrs, v.isLarge = true → v.TextsFit := by
  rw [textsFit_iff_of_fileRecords hvlrs true]
  simp only [CanFinish, Vlr.isLarge_eq_true_iff]

end Plan

namespace Writer

/-- On memory, a file is opened just if it can be. -/
theorem ready_eq_ok_iff_canOpen {m : Memory} (hm : m.capacity = none) {p : Plan} {stamp : Stamp}
    {o : Options} {table source : PointTable} (hsettled : p.SettledFor o table)
    (hplace : ∀ vlrs, (fileRecords p.options source p.encoder.extra).value = .ok vlrs →
      p.pointDataOffset (.ofList vlrs) < UInt32.size) :
    ((Writer.mk m (.prepared p false) stamp).ready source).result = .ok () ↔
      p.CanOpen source := by
  have hfront : ∀ vlrs, (fileRecords p.options source p.encoder.extra).value = .ok vlrs →
      (DeviceTask.verdict (Session.fresh p m.place (.ofList vlrs)).front = .ok () ↔
        AsciiField.Fits 32 p.header.systemIdentifier ∧
          AsciiField.Fits 32 p.header.generatingSoftware ∧
          ∀ v ∈ vlrs, v.isLarge = false → v.TextsFit) := by
    intro vlrs hvlrs
    let s := Session.fresh p m.place (.ofList vlrs)
    have hheader : (∃ bytes, s.headerBytes none = .ok bytes) ↔
        AsciiField.Fits 32 p.header.systemIdentifier ∧
          AsciiField.Fits 32 p.header.generatingSoftware := by
      have hlt := hplace vlrs hvlrs
      have hnone : p.summary.count = 0 := rfl
      have hcount : p.summary.count < UInt32.size := by
        rw [hnone]
        decide
      rw [Session.headerBytes, Header.exists_bytes_iff]
      exact ⟨fun h => ⟨h.2.1, h.2.2.1⟩, fun h => ⟨Or.inl hcount, h.1, h.2, hlt⟩⟩
    rw [Session.verdict_front_iff rfl, hheader, and_assoc]
  rw [hsettled.canOpen_iff]
  constructor
  · intro hready
    obtain ⟨q, vlrs, hphase, hvlrs, hverdict, -⟩ := ready_eq_ok hm hready
    cases hphase
    exact ⟨vlrs, hvlrs, (hfront vlrs hvlrs).mp hverdict⟩
  · rintro ⟨vlrs, hvlrs, hmade⟩
    have hopening : openDevice.perform m = (.ok m.place, m) := rfl
    have hstore := DeviceTask.perform_storeAll (Session.fresh p m.place (.ofList vlrs)).front hm
    rw [(hfront vlrs hvlrs).mpr hmade] at hstore
    simp only [ready, hopening, hvlrs, hstore]

/-- On memory, a file is finished if what stands behind the points can be made, and the header. -/
theorem finish_eq_ok_iff {s : Session} {m : Memory} (hm : m.capacity = none) :
    ((finish s).perform m).1 = .ok () ↔ DeviceTask.verdict s.back = .ok () ∧
      ∃ header, s.headerBytes (s.extendedBehind (m.place - s.start)) = .ok header := by
  rw [finish_memory s hm]
  cases DeviceTask.verdict s.back with
  | error e => simp
  | ok _ =>
    cases s.headerBytes (s.extendedBehind (m.place - s.start)) with
    | error e => simp
    | ok header => simp

end Writer

section Accepted

variable {σ : Type} [Device σ] [Device.Reliable σ]

/-- A file that is open is finished just if it can be, as long as its points can be counted. -/
theorem FileCourse.LeadsTo.done_eq_ok_iff {f : FileCourse} {w : Writer σ} {stamp : Stamp}
    {granted : List Call} {batches : List PointView} {asked : List DeviceRequest} {s : Session}
    (h : f.LeadsTo stamp granted batches asked s) (horder : w.InOrder)
    (hopen : w.phase.open? = some s) (hcount : s.summary.count < UInt32.size) :
    w.done.result = .ok () ↔ f.plan.CanFinish f.source := by
  obtain ⟨hplan, -, hrecords, -⟩ := h.fixed
  obtain ⟨hdone, -⟩ := Writer.done_onMemory_of_open horder hopen
  -- the header of the opening is proof that there is one for the end
  obtain ⟨first, -, -, hfirst, -⟩ := Session.front_eq_map h.front
  obtain ⟨-, hsystem, hsoftware, hplace⟩ := Header.exists_bytes_iff.mp ⟨first, hfirst⟩
  have hsame : s.pointDataOffset = f.fresh.pointDataOffset :=
    Session.pointDataOffset_congr hplan hrecords
  have hheader : ∀ extended, ∃ header, s.headerBytes extended = .ok header := by
    intro extended
    rw [Session.headerBytes, hplan, hsame]
    exact Header.exists_bytes_iff.mpr ⟨Or.inl hcount, hsystem, hsoftware, hplace⟩
  rw [hdone, Writer.finish_eq_ok_iff (Writer.capacity_of_inOrder horder),
    and_iff_left (hheader _), Session.verdict_back_iff hrecords, Plan.canFinish_iff h.records]

namespace Writer

/-- **A file is opened just if it can be, and finished just if it can be.**  The writer is prepared
on a fresh device that does not fail, and the place of the points fits its field.  Between the two
steps there may be any calls, as long as they have written fewer than 2³² points. -/
theorem accepted (stamp : Stamp) {d : σ} (hd : Fresh d) (calls : List Call) {p : Plan}
    (hphase : ((create stamp d).after calls).phase = .prepared p false) (source : PointTable)
    (hplace : ∀ vlrs, (fileRecords p.options source p.encoder.extra).value = .ok vlrs →
      p.pointDataOffset (.ofList vlrs) < UInt32.size) :
    let opened := ((create stamp d).after calls).ready source
    (opened.result = .ok () ↔ p.CanOpen source) ∧
      (opened.result = .ok () → ∀ more, .done ∉ more →
        (∀ s, (opened.writer.after more).summary? = some s → s.count < UInt32.size) →
          ((opened.writer.after more).done.result = .ok () ↔ p.CanFinish source)) := by
  intro opened
  let w := (create stamp d).after calls
  obtain ⟨-, horder, -⟩ := after_onMemory (inOrder_create stamp hd) calls
  have hm : (memory w.device).capacity = none := capacity_of_inOrder horder
  obtain ⟨hresult, -, horder'⟩ := perform_onMemory horder (.ready source)
  have honMemory : w.onMemory = ⟨memory w.device, .prepared p false, w.stamp⟩ := by
    rw [onMemory, hphase]
  rw [honMemory] at hresult
  have hreached := reached stamp d calls
  rw [hphase] at hreached
  obtain ⟨o, table, hconfigured, hprepared, hplan, -⟩ := hreached rfl
  have hsettled := planFor_eq_ok hplan
  constructor
  · have hresult' : opened.result = _ := hresult
    rw [hresult']
    exact ready_eq_ok_iff_canOpen hm hsettled hplace
  · intro hok more hmore hcount
    obtain ⟨f, granted, asked, s, rfl, rfl, hf, hopen⟩ := FileCourse.exists_of_ready hphase hok
    obtain ⟨handed, u, hopen', hafter⟩ := hf.after hopen hmore
    obtain ⟨-, horder'', -⟩ := after_onMemory horder' more
    have hsummary : (opened.writer.after more).summary? = some u.summary := by
      obtain hphase' | hphase' := Phase.eq_of_open? hopen'
      all_goals
        rw [summary?, hphase']
        rfl
    exact hafter.done_eq_ok_iff horder'' hopen' (hcount _ hsummary)

/-- A short record with texts that fit keeps a file neither from being opened nor from being
finished. -/
theorem accepted_origins :
    let w := (create .blank (Memory.unlimited [7] 0)).after
      (Call.requesting ⟨"origins", 1, "", "AAEC", false⟩)
    let opened := w.ready .coordinates
    opened.result = .ok () ∧
      (opened.writer.after [.write (.origins 2)]).done.result = .ok () := by
  intro w opened
  let r : VlrRequest := ⟨"origins", 1, "", "AAEC", false⟩
  have hpreparing : (((create .blank (Memory.unlimited [7] 0)).configure
      { Options.usual with records := [r] }).writer.prepare .coordinates).result = .ok () := by
    decide +kernel
  obtain ⟨-, p, -, -, hprepared⟩ := prepare_eq_ok hpreparing
  have hphase : w.phase = .prepared p false := congrArg Writer.phase hprepared
  have hfacts : w.phase.plan?.map (fun p => (p.options.records, p.options.extraDimensions,
      p.header.systemIdentifier, p.header.generatingSoftware)) =
        some ([r], [], "las-writer", "las-writer 0.1.0") := by
    decide +kernel
  have hoffset : w.phase.plan?.map (fun p =>
      ((fileRecords p.options .coordinates p.encoder.extra).value.map fun vlrs =>
        p.pointDataOffset (.ofList vlrs)).toOption) = some (some 284) := by
    decide +kernel
  rw [hphase] at hfacts hoffset
  simp only [Phase.plan?, Option.map_some, Option.some.injEq, Prod.mk.injEq] at hfacts hoffset
  obtain ⟨hrecords, hnames, hsystem, hsoftware⟩ := hfacts
  have hplace : ∀ vlrs, (fileRecords p.options .coordinates p.encoder.extra).value = .ok vlrs →
      p.pointDataOffset (.ofList vlrs) < UInt32.size := by
    intro vlrs hvlrs
    have h284 : p.pointDataOffset (.ofList vlrs) = 284 := by
      simpa [hvlrs, Except.map, Except.toOption] using hoffset
    rw [h284]
    decide
  have hcarries : VlrRequest.Carries "AAEC" [0, 1, 2] := by
    unfold VlrRequest.Carries
    decide +kernel
  have hfits : ∀ q ∈ p.options.records,
      AsciiField.Fits 16 q.userId ∧ AsciiField.Fits 32 q.description := by
    rw [hrecords]
    decide
  have hcanOpen : p.CanOpen .coordinates := by
    refine ⟨?_, ?_, ?_, by simp [hnames], fun q hq _ _ _ => hfits q hq⟩
    · simpa [hrecords] using ⟨_, VlrRequest.Grants.given [0, 1, 2] rfl hcarries⟩
    · rw [hsystem]
      decide
    · rw [hsoftware]
      decide
  have hcanFinish : p.CanFinish .coordinates := fun q hq _ _ _ => hfits q hq
  have hcount : ∀ s, (opened.writer.after [.write (.origins 2)]).summary? = some s →
      s.count < UInt32.size := by
    intro s hs
    have htwo : (opened.writer.after [.write (.origins 2)]).summary?.map (·.count) = some 2 := by
      decide +kernel
    rw [hs] at htwo
    rw [show s.count = 2 from Option.some.inj htwo]
    decide
  obtain ⟨hopens, hfinishes⟩ := accepted .blank (Memory.fresh_unlimited [7] 0)
    (Call.requesting r) hphase .coordinates hplace
  have hopened : opened.result = .ok () := hopens.mpr hcanOpen
  exact ⟨hopened, (hfinishes hopened _ (by simp) hcount).mpr hcanFinish⟩

end Writer

end Accepted

end PointCloud
