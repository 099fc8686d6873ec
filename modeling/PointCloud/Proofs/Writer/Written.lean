import PointCloud.Proofs.Points.Returns
import PointCloud.Proofs.Writer.Contents

/-!
# The points that have been written

A batch may stop anywhere: at a point that does not fit, or where the device
refuses a chunk.  `Writer.written` lists the points that have got through, over
any calls and in order: those of the chunks that the device has taken, as far as
their return numbers let them through.

`Session.Recounts` is what a session knows of these points.  The summary is the
summary of just these points, each of them has a record under the offsets that
the session has now, and what has been handed over is these records, with others
between them only where the device has refused a chunk.  A batch keeps this,
`Recounts.write`; `Writer.recounts` carries it through a run, so it can be said
of every summary, `summary?_eq`, and of every file, `exists_hasRecords`.
-/

namespace PointCloud

open DeviceRequest (storing)
open Device.Reliable (Fresh Open memory)

/-- The summary of points that are written by a plan. -/
def Plan.summaryOf (p : Plan) (points : List Point) : Summary :=
  p.summary.addAll (points.filterMap (·.counted? p.encoder.fields))

/-- An encoder makes these records of points, one of each. -/
def PointEncoder.Makes (e : PointEncoder) (q : Quantizer) (points : List Point)
    (records : List EncodedPoint) : Prop :=
  List.Forall₂ (fun p r => (e.encodePoint q p).outcome = .ok (some r)) points records

namespace PointEncoder

variable {e : PointEncoder} {q : Quantizer} {points more : List Point}
  {records others : List EncodedPoint}

theorem Makes.append (h : e.Makes q points records) (h' : e.Makes q more others) :
    e.Makes q (points ++ more) (records ++ others) := List.rel_append h h'

/-- Points are counted as their records are. -/
theorem Makes.counted (h : e.Makes q points records) :
    points.filterMap (·.counted? e.fields) = records.map (·.counted) := by
  refine List.Forall₂.filterMap_eq_map h fun p r houtcome => ?_
  obtain ⟨_, _, _, -, -, -, hcounted, -⟩ := counted_of_outcome houtcome
  exact hcounted

end PointEncoder

/-- Points with records are all counted. -/
theorem Plan.count_summaryOf {p : Plan} {q : Quantizer} {points : List Point}
    {records : List EncodedPoint} (h : p.encoder.Makes q points records) :
    (p.summaryOf points).count = points.length := by
  rw [summaryOf, Summary.count_addAll, h.counted, List.length_map, List.Forall₂.length_eq h]
  exact Nat.zero_add _

namespace Session

/-- What a session knows of the points that have been written, and of the records that have been
handed over; if the device has refused no batch, these are all records of those points. -/
structure Recounts (s : Session) (points : List Point) (handed : List EncodedPoint)
    (unrefused : Prop) : Prop where
  summary : s.summary = s.plan.summaryOf points
  settled : points ≠ [] → s.settled = true
  records : ∃ records, s.plan.encoder.Makes s.quantizer points records ∧
    records.Sublist handed ∧ (unrefused → records = handed)

variable {s u : Session} {points : List Point} {handed : List EncodedPoint} {unrefused : Prop}

/-- What is known if the device has refused no batch is known under more than that. -/
theorem Recounts.imp (h : s.Recounts points handed unrefused) {other : Prop}
    (himp : other → unrefused) : s.Recounts points handed other := by
  obtain ⟨records, hmakes, hsublist, hall⟩ := h.records
  exact ⟨h.summary, h.settled, records, hmakes, hsublist, fun hother => hall (himp hother)⟩

/-- Where points have been written, a view decides nothing any more. -/
theorem Recounts.decided (h : s.Recounts points handed unrefused) (v : PointView) :
    points = [] ∨ s.decided v = s := by
  by_cases hnone : points = []
  · exact Or.inl hnone
  · exact Or.inr (decided_of_settled (h.settled hnone) v)

/-- **A batch adds the points that get through**, and nothing else. -/
theorem Recounts.write (h : s.Recounts points handed unrefused) {v : PointView}
    {indexes : List Nat} {result : Except Error Unit} {more : List (List EncodedPoint)}
    (hcounts : (s.decided v).Counts v (chunks s.chunkSize v.size) indexes result u more) :
    u.Recounts (points ++ indexes.map v.point) (handed ++ more.flatten)
      (unrefused ∧ NoFault result) := by
  obtain ⟨cs, hu⟩ := hcounts.session
  obtain ⟨records, hmakes, hsublist, hall⟩ := h.records
  let t := s.decided v
  have hplan : u.plan = s.plan := by
    rw [hu]
    exact s.plan_decided v
  have hquantizer : u.quantizer = t.quantizer := by rw [hu]; rfl
  have hadded : s.plan.encoder.Makes t.quantizer (indexes.map v.point) (t.recordsAt v indexes) := by
    have houtcomes := forall₂_recordsAt_of_mem hcounts.outcome
    rw [s.plan_decided] at houtcomes
    exact List.forall₂_map_left_iff.mpr houtcomes
  -- points that are there already were written with the offsets that the batch is written with
  have hold : s.plan.encoder.Makes t.quantizer points records := by
    obtain rfl | hdecided := h.decided v
    · rw [List.forall₂_nil_left_iff.mp hmakes]
      exact List.Forall₂.nil
    · show s.plan.encoder.Makes (s.decided v).quantizer points records
      rwa [hdecided]
  refine ⟨?_, ?_, records ++ t.recordsAt v indexes, ?_, ?_, ?_⟩
  · have hsummary : u.summary = s.summary.addAll ((t.recordsAt v indexes).map (·.counted)) := by
      rw [hu, ← (s.decided_fixed v).2.2.2.2]
      rfl
    rw [hsummary, hplan, h.summary, Plan.summaryOf, Plan.summaryOf, List.filterMap_append,
      Summary.addAll_append, hadded.counted]
  · intro hsome
    have hsettled : u.settled = t.settled := by rw [hu]; rfl
    rw [hsettled]
    by_cases hnone : points = []
    · have hindexes : indexes ≠ [] := by
        rintro rfl
        exact hsome (by simp [hnone])
      have hmem := hcounts.sublist.subset (List.head_mem hindexes)
      rw [flatten_chunks s.chunkSize_pos, List.mem_range] at hmem
      exact s.settled_decided (Nat.ne_of_gt (Nat.zero_lt_of_lt hmem))
    · have hdecided := decided_of_settled (h.settled hnone) v
      show (s.decided v).settled = true
      rw [hdecided]
      exact h.settled hnone
  · rw [hplan, hquantizer]
    exact hold.append hadded
  · exact hsublist.append hcounts.taken
  · rintro ⟨hunrefused, hnofault⟩
    rw [hall hunrefused, hcounts.handed hnofault]

end Session

/-- Whether the call is a batch that has not failed by the device, or another call. -/
def Call.Unrefused : Call → Except Error Unit → Prop
  | .write _, result => NoFault result
  | _, _ => True

namespace Writer

variable {σ : Type} [Device σ]

/-- The points that a call writes. -/
def writtenBy (w : Writer σ) : Call → List Point
  | .write v =>
    match w.phase.open? with
    | some s => (s.takenOf v w.device).map v.point
    | none => []
  | _ => []

/-- The points that calls write, in order. -/
def written (w : Writer σ) : List Call → List Point
  | [] => []
  | c :: calls => w.writtenBy c ++ (w.perform c).writer.written calls

/-- Whether the device refuses no batch. -/
def Unrefused (w : Writer σ) : List Call → Prop
  | [] => True
  | c :: calls => c.Unrefused (w.perform c).result ∧ (w.perform c).writer.Unrefused calls

omit [Device σ] in
/-- A call is a batch that is taken up, or it is not. -/
theorem writes_or_other (w : Writer σ) (c : Call) :
    (∃ s v, w.phase.open? = some s ∧ c = .write v) ∨ ∀ v, c = .write v → w.phase.open? = none := by
  cases c with
  | write v =>
    cases hopen : w.phase.open? with
    | none => exact .inr fun _ _ => rfl
    | some s => exact .inl ⟨s, v, rfl, rfl⟩
  | _ => exact .inr nofun

theorem writtenBy_of_not_open {w : Writer σ} {c : Call}
    (h : ∀ v, c = .write v → w.phase.open? = none) : w.writtenBy c = [] := by
  cases c with
  | write v => simp [writtenBy, h v rfl]
  | _ => rfl

end Writer

namespace Phase

/-- What a phase knows of the points that have been written. -/
def Recounts (stamp : Stamp) (granted : List Call) (batches : List PointView)
    (asked : List DeviceRequest) (points : List Point) (unrefused : Prop) : Phase → Prop
  | .constructed | .configured _ | .prepared _ _ => points = []
  | .ready s lost | .writing s lost => ∃ handed, s.Recounts points handed unrefused ∧
    (lost = false → ∃ f : FileCourse, f.LeadsTo stamp granted batches asked s ∧
      f.handed.flatten = handed)
  | .done s => ∃ (f : FileCourse) (parts : FileParts),
    f.Finishes stamp granted batches asked s parts ∧ s.Recounts points parts.points unrefused

variable {stamp : Stamp} {granted : List Call} {batches : List PointView}
  {asked more : List DeviceRequest} {points : List Point} {unrefused : Prop} {phase after : Phase}
  {c : Call} {result : Except Error Unit}

theorem plan?_of_done {s : Session} (h : phase = .done s) : phase.plan? = some s.plan := by
  rw [h]
  rfl

/-- Where batches are not taken, the file cannot be finished either. -/
theorem not_takes_of_not_open (h : phase.open? = none) :
    (∀ v, phase.takes (.write v) = false) ∧ phase.takes .done = false := by
  cases phase with
  | ready s lost | writing s lost =>
    cases lost with
    | true => exact ⟨fun _ => rfl, rfl⟩
    | false => cases h
  | _ => exact ⟨fun _ => rfl, rfl⟩

/-- What is known of the points of a phase may be known under more than that. -/
theorem Recounts.imp (h : phase.Recounts stamp granted batches asked points unrefused)
    {other : Prop} (himp : other → unrefused) :
    phase.Recounts stamp granted batches asked points other := by
  cases phase with
  | ready s lost | writing s lost =>
    obtain ⟨handed, hrecounts, hcourse⟩ := h
    exact ⟨handed, hrecounts.imp himp, hcourse⟩
  | done s =>
    obtain ⟨f, parts, hfinishes, hrecounts⟩ := h
    exact ⟨f, parts, hfinishes, hrecounts.imp himp⟩
  | _ => exact h

/-- Of a session that is open it is known what has come to its file. -/
theorem Recounts.of_open {s : Session}
    (h : phase.Recounts stamp granted batches asked points unrefused)
    (hopen : phase.open? = some s) : ∃ f : FileCourse, f.LeadsTo stamp granted batches asked s ∧
      s.Recounts points f.handed.flatten unrefused := by
  obtain rfl | rfl := eq_of_open? hopen
  all_goals
    obtain ⟨handed, hrecounts, hcourse⟩ := h
    obtain ⟨f, hf, rfl⟩ := hcourse rfl
    exact ⟨f, hf, hrecounts⟩

/-- Every step but a batch leaves the points as they are. -/
theorem Recounts.step (hreached : phase.Reached stamp granted batches asked)
    (h : phase.Recounts stamp granted batches asked points unrefused)
    (hstep : phase.Step stamp c more result after)
    (hother : ∀ v, c = .write v → phase.open? = none) :
    after.Recounts stamp (granted ++ c.grantedBy result) (batches ++ c.broughtAt phase.stage)
      (asked ++ more) points unrefused := by
  cases hstep with
  | refused untaken =>
    simp only [Call.grantedBy, List.append_nil]
    cases phase with
    | ready s lost | writing s lost =>
      obtain ⟨handed, hrecounts, hcourse⟩ := h
      refine ⟨handed, hrecounts, fun hlost => ?_⟩
      subst hlost
      cases c with
      | write v => cases hother v rfl
      | _ =>
        simp only [Call.broughtAt, List.append_nil]
        exact hcourse rfl
    | done s => cases c <;> simpa [Call.broughtAt, stage, Stage.acceptsPoints] using h
    | _ => exact h
  | configured check | notConfigured check | prepared plan | notPrepared plan | notOpened once =>
    exact h
  | @opened p source start vlrs pieces records front =>
    obtain ⟨o, table, hconfigured, hprepared, hplan, rfl, rfl⟩ := hreached rfl
    obtain rfl : points = [] := h
    refine ⟨[], ⟨rfl, fun hsome => absurd rfl hsome, [], List.Forall₂.nil, List.Sublist.refl _,
      fun _ => rfl⟩, fun _ => ?_⟩
    exact ⟨_, FileCourse.leadsTo_fresh (by simp [hconfigured]) (by simp [hprepared])
      (by simp [Call.grantedBy]) hplan records front, rfl⟩
  | @wrote _ s u v result handed isOpen writes =>
    rw [hother v rfl] at isOpen
    cases isOpen
  | @finished _ s pieces length bytes isOpen back header =>
    obtain ⟨f, hf, hrecounts⟩ := h.of_open isOpen
    obtain ⟨parts, hfinishes⟩ := hf.finishes back header
    rw [← hfinishes.points] at hrecounts
    simp only [Call.broughtAt, List.append_nil]
    exact ⟨f, parts, hfinishes.grant _, hrecounts⟩
  | notFinished isOpen never =>
    obtain rfl | rfl := eq_of_open? isOpen
    all_goals
      obtain ⟨handed, hrecounts, -⟩ := h
      exact ⟨handed, hrecounts, by simp⟩

end Phase

/-- A plan comes with the step that settles it. -/
theorem Phase.Step.exists_planFor {stamp : Stamp} {phase after : Phase} {c : Call}
    {more : List DeviceRequest} {result : Except Error Unit} {p : Plan}
    (h : phase.Step stamp c more result after) (hbefore : phase.plan? = none)
    (hafter : after.plan? = some p) : ∃ o table, (Writer.planFor stamp o table).value = .ok p := by
  cases h with
  | @prepared o table q plan =>
    obtain rfl : q = p := Option.some.inj hafter
    exact ⟨o, table, plan⟩
  | refused untaken =>
    rw [hbefore] at hafter
    cases hafter
  | configured check | notConfigured check | notPrepared plan => cases hafter
  | opened records front | notOpened once => cases hbefore
  | wrote isOpen writes | finished isOpen back header | notFinished isOpen never =>
    obtain rfl | rfl := eq_of_open? isOpen <;> cases hbefore

namespace Writer

variable {σ : Type} [Device σ] {granted : List Call} {batches : List PointView}
  {asked : List DeviceRequest} {points : List Point} {unrefused : Prop}

/-- **Every call keeps the count of the points that have been written.** -/
theorem recounts_perform {w : Writer σ}
    (hreached : w.phase.Reached w.stamp granted batches asked)
    (h : w.phase.Recounts w.stamp granted batches asked points unrefused) (c : Call) :
    (w.perform c).writer.phase.Recounts w.stamp (granted ++ c.grantedBy (w.perform c).result)
      (batches ++ c.broughtAt w.stage) (asked ++ w.asked c) (points ++ w.writtenBy c)
      (unrefused ∧ c.Unrefused (w.perform c).result) := by
  obtain ⟨s, v, hopen, rfl⟩ | hother := w.writes_or_other c
  · obtain ⟨f, hf, hrecounts⟩ := h.of_open hopen
    obtain ⟨handed, hperforms, hbatch, hcounts⟩ := performs_taken hopen v
    have hwritten : w.writtenBy (.write v) = (s.takenOf v w.device).map v.point := by
      simp [writtenBy, hopen]
    have hbrought : (Call.write v).broughtAt w.stage = [v] := by
      rw [Call.broughtAt, show w.stage = w.phase.stage from rfl]
      obtain hphase | hphase := Phase.eq_of_open? hopen <;> rw [hphase] <;> rfl
    have houtcome : w.perform (.write v) = w.writeBatch s v := write_of_open hopen v
    rw [hwritten, hbrought, hperforms.asked_eq, houtcome]
    refine ⟨_, hrecounts.write hcounts, fun _ => ⟨_, (hf.write hbatch).grant _, ?_⟩⟩
    exact List.flatten_append
  · rw [writtenBy_of_not_open hother, List.append_nil]
    exact (h.step hreached (w.perform_step c) hother).imp And.left

/-- What is known of the points of a phase is known of those of every phase that calls lead to. -/
theorem recounts_after {w : Writer σ}
    (hreached : w.phase.Reached w.stamp granted batches asked)
    (h : w.phase.Recounts w.stamp granted batches asked points unrefused) (calls : List Call) :
    (w.after calls).phase.Recounts w.stamp (granted ++ w.granted calls)
      (batches ++ w.batches calls) (asked ++ w.requests calls) (points ++ w.written calls)
      (unrefused ∧ w.Unrefused calls) := by
  induction calls generalizing w granted batches asked points unrefused with
  | nil =>
    simp only [Writer.granted, Writer.batches, written, requests_nil, List.append_nil, after_nil]
    exact h.imp And.left
  | cons c calls ih =>
    have hstamp := (w.performs_asked c).stamp
    have hreached' := hreached.step (w.perform_step c)
    have hnext := recounts_perform hreached h c
    rw [← hstamp] at hreached' hnext
    have hrest := ih hreached' hnext
    rw [hstamp] at hrest
    rw [requests_cons, Writer.granted, Writer.batches, written, ← List.append_assoc,
      ← List.append_assoc, ← List.append_assoc, ← List.append_assoc]
    exact hrest.imp and_assoc.mpr

/-- What is known of the points that a writer has written by any calls. -/
theorem recounts (stamp : Stamp) (d : σ) (calls : List Call) :
    ((create stamp d).after calls).phase.Recounts stamp ((create stamp d).granted calls)
      ((create stamp d).batches calls) ((create stamp d).requests calls)
      ((create stamp d).written calls) ((create stamp d).Unrefused calls) := by
  have hreached : (create stamp d).phase.Reached (create stamp d).stamp [] [] [] := ⟨rfl, rfl⟩
  have hcreated : (create stamp d).phase.Recounts (create stamp d).stamp [] [] [] [] True := rfl
  have hafter := recounts_after hreached hcreated calls
  simp only [List.nil_append] at hafter
  exact hafter.imp fun hunrefused => ⟨trivial, hunrefused⟩

variable {stamp : Stamp} {d : σ} {calls : List Call}

/-- **The summary is that of the points that have been written**, and each of these has a record
under one and the same quantizer. -/
theorem summary?_eq {p : Plan} (h : ((create stamp d).after calls).phase.plan? = some p) :
    ((create stamp d).after calls).summary? =
        some (p.summaryOf ((create stamp d).written calls)) ∧
      ∃ q records, p.encoder.Makes q ((create stamp d).written calls) records := by
  have hrecounts := recounts stamp d calls
  have hsession : ∀ {s : Session} {handed : List EncodedPoint},
      s.Recounts ((create stamp d).written calls) handed ((create stamp d).Unrefused calls) →
      s.plan = p → s.summary = p.summaryOf ((create stamp d).written calls) ∧
        ∃ q records, p.encoder.Makes q ((create stamp d).written calls) records := by
    rintro s handed hs rfl
    obtain ⟨records, hmakes, -, -⟩ := hs.records
    exact ⟨hs.summary, s.quantizer, records, hmakes⟩
  rw [summary?]
  generalize ((create stamp d).after calls).phase = phase at h hrecounts
  cases phase with
  | constructed | configured o => cases h
  | prepared plan lost =>
    obtain rfl : plan = p := Option.some.inj h
    have hnone : (create stamp d).written calls = [] := hrecounts
    rw [hnone]
    exact ⟨rfl, plan.quantizer, [], List.Forall₂.nil⟩
  | ready s lost | writing s lost =>
    obtain ⟨handed, hs, -⟩ := hrecounts
    obtain ⟨hsummary, hmakes⟩ := hsession hs (Option.some.inj h)
    exact ⟨congrArg some hsummary, hmakes⟩
  | done s =>
    obtain ⟨f, parts, -, hs⟩ := hrecounts
    obtain ⟨hsummary, hmakes⟩ := hsession hs (Option.some.inj h)
    exact ⟨congrArg some hsummary, hmakes⟩

/-- A plan that a writer has come by was settled for options and a table. -/
theorem exists_planFor_of_plan? {w : Writer σ} {p : Plan} (hstart : w.phase.plan? = none)
    (h : (w.after calls).phase.plan? = some p) :
    ∃ o table, (planFor w.stamp o table).value = .ok p := by
  induction calls generalizing w with
  | nil =>
    rw [after_nil, hstart] at h
    cases h
  | cons c calls ih =>
    cases hplan : (w.perform c).writer.phase.plan? with
    | none =>
      have hrest := ih hplan h
      rwa [(w.performs_asked c).stamp] at hrest
    | some q =>
      -- the plan has come with this call, and later calls have left it
      have hkept := plan?_after hplan calls
      obtain rfl : q = p := Option.some.inj (hkept.symm.trans h)
      exact (w.perform_step c).exists_planFor hstart hplan

end Writer

namespace Writer

variable {σ : Type} [Device σ] [Device.Reliable σ]

/-- A batch fails by the device only if the device fails. -/
theorem noFault_write {w : Writer σ} (hw : w.InOrder) (v : PointView) :
    NoFault (w.write v).result := by
  intro fault herror
  obtain ⟨hresult, -, -⟩ := perform_onMemory hw (.write v)
  have hmemory : (w.onMemory.write v).result = .error (.device fault) := hresult ▸ herror
  cases hopen : w.phase.open? with
  | none =>
    have huntaken := (Phase.not_takes_of_not_open hopen).1 v
    have hrefused := perform_of_not_takes (w := w.onMemory) huntaken
    rw [show w.onMemory.write v = _ from hrefused] at hmemory
    cases hmemory
  | some s =>
    have hbatch := write_of_open (w := w.onMemory) hopen v
    obtain ⟨hwrite, -, -⟩ := s.write_memory v (capacity_of_inOrder hw)
    have hfailure : Session.batchResult ((s.decided v).encodings v) = .error (.device fault) := by
      rw [← hwrite, ← hmemory, hbatch]
      rfl
    unfold Session.batchResult at hfailure
    split at hfailure
    · next error hfirst =>
      obtain rfl := Except.error.inj hfailure
      obtain ⟨e, he, hfails⟩ := List.exists_of_findSome?_eq_some hfirst
      obtain ⟨i, -, rfl⟩ := List.mem_map.mp he
      have houtcome : ((s.decided v).plan.encoder.encode (s.decided v).quantizer v i).outcome =
          .error (.device fault) := Session.failure?_eq_some_iff.mp hfails
      exact PointEncoder.outcome_failsWith _ _ _ _ _ houtcome
    · cases hfailure

/-- A reliable device refuses no batch. -/
theorem unrefused_of_inOrder {w : Writer σ} (hw : w.InOrder) (calls : List Call) :
    w.Unrefused calls := by
  induction calls generalizing w with
  | nil => trivial
  | cons c calls ih =>
    obtain ⟨-, -, horder⟩ := perform_onMemory hw c
    refine ⟨?_, ih horder⟩
    cases c with
    | write v => exact noFault_write hw v
    | _ => trivial

end Writer

/-- Among the records that a writer has handed over for a finished file are these of the points
that calls have written, one of each and in order.  If the device has refused no batch, there are no
others; a batch that it has refused may have left records, whole or in part, of points that are not
counted.
What the header says of points is the summary of those that have been written. -/
structure FileCourse.HasRecords {σ : Type} [Device σ] (f : FileCourse) (stamp : Stamp) (d : σ)
    (calls : List Call) (s : Session) (parts : FileParts) (records : List EncodedPoint) : Prop
    extends f.Delivers stamp d calls s parts where
  made : s.plan.encoder.Makes s.quantizer ((Writer.create stamp d).written calls) records
  taken : records.Sublist parts.points
  all : (Writer.create stamp d).Unrefused calls → records = parts.points
  reliable : ∀ [Device.Reliable σ], Fresh d → records = parts.points
  header : ∃ c, s.plan.header.block s.quantizer.scalings
    (s.plan.summaryOf ((Writer.create stamp d).written calls)) c = .ok parts.header

namespace Writer

variable {σ : Type} [Device σ] {stamp : Stamp} {d : σ} {calls : List Call} {s : Session}

/-- **A finished file has a record of each point that has been written.** -/
theorem exists_hasRecords (h : ((create stamp d).after calls).phase = .done s) :
    ∃ (f : FileCourse) (parts : FileParts) (records : List EncodedPoint),
      f.HasRecords stamp d calls s parts records := by
  have hrecounts := recounts stamp d calls
  rw [h] at hrecounts
  obtain ⟨f, parts, hfinishes, hs⟩ := hrecounts
  obtain ⟨records, hmakes, hsublist, hall⟩ := hs.records
  obtain ⟨length, hheader⟩ := hfinishes.header
  rw [hs.summary] at hheader
  exact ⟨f, parts, records, {
    finishes := hfinishes
    memory := fun hd => memory_of_finishes hd h hfinishes
    made := hmakes
    taken := hsublist
    all := hall
    reliable := fun hd => hall (unrefused_of_inOrder (inOrder_create stamp hd) calls)
    header := ⟨_, hheader⟩ }⟩

end Writer

end PointCloud
