import PointCloud.Proofs.Writer.Cuts
import PointCloud.Proofs.Writer.Steps

/-!
# The course of a file

A file is made in the course of a few calls that succeed, with batches between
them, and with any number of other calls in between that are refused or fail.
`FileCourse` keeps what these calls have settled, and the records that batches
have handed over.  `LeadsTo` says that a session has come out of such a course:
but for what has been noted and counted it is the fresh session with its offsets
decided by the batches, and what has been asked of the device is the front of
the file and then the records.

Every record that has been handed over was made with the quantizer that the
session has now.  For a record comes of a view with points, and the first such
view settles the quantizer for good; this is what `LeadsTo.write` comes down to.

`Phase.Reached` is the invariant over the phases.  Every step keeps it,
`Reached.step`, so it holds after any calls, `Writer.reached`.
-/

namespace PointCloud

open DeviceRequest (storing)

namespace Call

/-- The call, if it has succeeded. -/
def grantedBy (c : Call) : Except Error Unit → List Call
  | .ok _ => [c]
  | .error _ => []

/-- The view that the call brings, if the stage accepts points. -/
def broughtAt (c : Call) (stage : Stage) : List PointView :=
  match c with
  | .write v => if stage.acceptsPoints then [v] else []
  | _ => []

end Call

namespace Writer

variable {σ : Type} [Device σ]

/-- The calls that have succeeded. -/
def granted (w : Writer σ) : List Call → List Call
  | [] => []
  | c :: calls => c.grantedBy (w.perform c).result ++ (w.perform c).writer.granted calls

/-- The views of all batches that were written at a stage that accepts points, whatever has come of
them. -/
def batches (w : Writer σ) : List Call → List PointView
  | [] => []
  | c :: calls => c.broughtAt w.stage ++ (w.perform c).writer.batches calls

/-- A call that has succeeded has been made, and has succeeded there. -/
theorem exists_of_mem_granted {w : Writer σ} {calls : List Call} {c : Call}
    (h : c ∈ w.granted calls) :
    ∃ before behind, calls = before ++ c :: behind ∧
      ((w.after before).perform c).result = .ok () := by
  induction calls generalizing w with
  | nil => cases h
  | cons first calls ih =>
    rcases List.mem_append.mp h with hfirst | hrest
    · cases hresult : (w.perform first).result with
      | error e =>
        rw [hresult] at hfirst
        cases hfirst
      | ok _ =>
        rw [hresult] at hfirst
        obtain rfl := List.mem_singleton.mp hfirst
        exact ⟨[], calls, rfl, hresult⟩
    · obtain ⟨before, behind, rfl, hresult⟩ := ih hrest
      exact ⟨first :: before, behind, rfl, hresult⟩

/-- A view that has been brought was to be written. -/
theorem write_mem_of_mem_batches {w : Writer σ} {calls : List Call} {v : PointView}
    (h : v ∈ w.batches calls) : .write v ∈ calls := by
  induction calls generalizing w with
  | nil => cases h
  | cons c calls ih =>
    rcases List.mem_append.mp h with hfirst | hrest
    · cases c with
      | write u =>
        simp only [Call.broughtAt] at hfirst
        split at hfirst
        · rw [List.mem_singleton.mp hfirst]
          exact List.mem_cons_self
        · cases hfirst
      | _ => cases hfirst
    · exact List.mem_cons_of_mem c (ih hrest)

end Writer

namespace Session

/-- A view with points settles the offsets. -/
theorem settled_decidedBy (s : Session) {views : List PointView}
    (h : ∃ v ∈ views, v.size ≠ 0) : (s.decidedBy views).settled = true := by
  induction views generalizing s with
  | nil => simp at h
  | cons v views ih =>
    by_cases hsize : v.size = 0
    · have hrest : ∃ v ∈ views, v.size ≠ 0 := by simpa [hsize] using h
      exact ih (s.decided v) hrest
    · have hsettled := s.settled_decided hsize
      rw [show s.decidedBy (v :: views) = (s.decided v).decidedBy views from rfl,
        decidedBy_of_settled hsettled, hsettled]

/-- The front of a file that could be made, piece by piece. -/
theorem front_eq_map {s : Session} {pieces : List Octets} (h : s.front = pieces.map .ok) :
    ∃ first regular, pieces = first :: (regular ++ [s.plan.pointDataMark]) ∧
      s.headerBytes none = .ok first ∧
      List.Forall₂ (fun v piece => s.recordBytes false v = .ok piece) s.records.regular
        regular := by
  cases pieces with
  | nil => simp [front] at h
  | cons first rest =>
    have hsplit := h
    simp only [front, List.cons_append, List.map_cons, List.cons.injEq] at hsplit
    obtain ⟨hfirst, hrest⟩ := hsplit
    obtain ⟨regular, mark, rfl, hregular, hmark⟩ := List.append_eq_map_iff.mp hrest
    obtain ⟨m, rfl, hm⟩ := List.map_eq_singleton_iff.mp hmark
    rw [Except.ok.inj hm]
    exact ⟨first, regular, rfl, hfirst, Except.forall₂_of_map_eq hregular.symm⟩

/-- The last view decides what the others have left open. -/
theorem decidedBy_append (s : Session) (views : List PointView) (v : PointView) :
    s.decidedBy (views ++ [v]) = (s.decidedBy views).decided v := by
  rw [decidedBy, List.foldl_append]
  rfl

end Session

/-- What calls have settled about a file, and the records that batches have handed over. -/
structure FileCourse where
  options : Options
  table : PointTable
  source : PointTable
  plan : Plan
  start : Nat
  vlrs : List Vlr
  front : List Octets
  handed : List (List EncodedPoint)

namespace FileCourse

/-- The session of the file before any batch. -/
def fresh (f : FileCourse) : Session := .fresh f.plan f.start (.ofList f.vlrs)

/-- What has been asked of the device so far. -/
def requests (f : FileCourse) : List DeviceRequest :=
  .acquire :: .position :: storing f.front ++ storing (f.handed.map Session.recordsOf)

/-- The course leads to a session: from the calls that have succeeded, by the views that have been
brought, and with these requests to the device. -/
structure LeadsTo (f : FileCourse) (stamp : Stamp) (granted : List Call)
    (batches : List PointView) (asked : List DeviceRequest) (s : Session) : Prop where
  configured : .configure f.options ∈ granted
  prepared : .prepare f.table ∈ granted
  opened : .ready f.source ∈ granted
  plan : (Writer.planFor stamp f.options f.table).value = .ok f.plan
  records : (fileRecords f.plan.options f.source f.plan.encoder.extra).value = .ok f.vlrs
  front : f.fresh.front = f.front.map .ok
  session : ∃ cs ps, s = ((f.fresh.decidedBy batches).noting cs).counting ps
  encoded : ∀ r ∈ f.handed.flatten, ∃ v ∈ batches, ∃ p ∈ v.points,
    (f.plan.encoder.encodePoint s.quantizer p).outcome = .ok (some r)
  asked : asked = f.requests

variable {f : FileCourse} {stamp : Stamp} {granted : List Call} {batches : List PointView}
  {asked : List DeviceRequest} {s : Session}

/-- The plan, the place and the records of a session are those of its file, and its quantizer is
what the batches have decided. -/
theorem LeadsTo.fixed (h : f.LeadsTo stamp granted batches asked s) :
    s.plan = f.plan ∧ s.start = f.start ∧ s.records = .ofList f.vlrs ∧
      s.quantizer = (f.fresh.decidedBy batches).quantizer := by
  obtain ⟨cs, ps, rfl⟩ := h.session
  obtain ⟨hplan, hstart, hrecords, -⟩ := f.fresh.decidedBy_fixed batches
  exact ⟨hplan, hstart, hrecords, rfl⟩

/-- Opening the file begins its course. -/
theorem leadsTo_fresh {o : Options} {table source : PointTable} {p : Plan} {start : Nat}
    {vlrs : List Vlr} {pieces : List Octets} (configured : .configure o ∈ granted)
    (prepared : .prepare table ∈ granted) (opened : .ready source ∈ granted)
    (plan : (Writer.planFor stamp o table).value = .ok p)
    (records : (fileRecords p.options source p.encoder.extra).value = .ok vlrs)
    (front : (Session.fresh p start (.ofList vlrs)).front = pieces.map .ok) :
    LeadsTo ⟨o, table, source, p, start, vlrs, pieces, []⟩ stamp granted []
      (.acquire :: .position :: storing pieces) (.fresh p start (.ofList vlrs)) where
  configured := configured
  prepared := prepared
  opened := opened
  plan := plan
  records := records
  front := front
  session := ⟨[], [], rfl⟩
  encoded := by simp
  asked := by simp [requests]

/-- More calls that succeed take nothing away. -/
theorem LeadsTo.grant (h : f.LeadsTo stamp granted batches asked s) (more : List Call) :
    f.LeadsTo stamp (granted ++ more) batches asked s :=
  { h with
    configured := List.mem_append_left more h.configured
    prepared := List.mem_append_left more h.prepared
    opened := List.mem_append_left more h.opened }

/-- A view with points has settled the offsets that are open. -/
theorem LeadsTo.decided (h : f.LeadsTo stamp granted batches asked s) {v : PointView}
    (hv : v ∈ batches) (hsize : v.size ≠ 0) (u : PointView) : s.decided u = s := by
  have hsettled := f.fresh.settled_decidedBy ⟨v, hv, hsize⟩
  obtain ⟨cs, ps, rfl⟩ := h.session
  exact Session.decided_of_settled (s := ((f.fresh.decidedBy batches).noting cs).counting ps)
    hsettled u

/-- **A batch continues the course of a file.** -/
theorem LeadsTo.write (h : f.LeadsTo stamp granted batches asked s) {v : PointView}
    {result : Except Error Unit} {u : Session} {handed : List (List EncodedPoint)}
    (hwrites : s.Writes v result u handed) :
    { f with handed := f.handed ++ handed }.LeadsTo stamp granted (batches ++ [v])
      (asked ++ storing (handed.map Session.recordsOf)) u := by
  obtain ⟨hplan, -⟩ := h.fixed
  obtain ⟨cs, ps, hs⟩ := h.session
  obtain ⟨cs', ps', hu⟩ := hwrites.session
  have hquantizer : u.quantizer = (s.decided v).quantizer := by
    rw [hu]
    rfl
  refine {
    configured := h.configured
    prepared := h.prepared
    opened := h.opened
    plan := h.plan
    records := h.records
    front := h.front
    session := ?_
    encoded := ?_
    asked := ?_ }
  · refine ⟨cs ++ cs', ps ++ ps', ?_⟩
    rw [hu, hs, Session.decided_counting, Session.noting_counting]
    show _ = (((f.fresh.decidedBy (batches ++ [v])).noting _).counting _)
    rw [Session.decidedBy_append]
  · intro r hr
    have hr' : r ∈ (f.handed ++ handed).flatten := hr
    rw [List.flatten_append] at hr'
    rcases List.mem_append.mp hr' with hold | hnew
    · -- the record was made of a view with a point, so nothing is left to decide
      obtain ⟨v', hv', p, hp, houtcome⟩ := h.encoded r hold
      have hsize : v'.size ≠ 0 := by
        rw [← PointView.length_points]
        exact Nat.ne_of_gt (List.length_pos_of_mem hp)
      rw [hquantizer, h.decided hv' hsize]
      exact ⟨v', List.mem_append_left _ hv', p, hp, houtcome⟩
    · obtain ⟨p, hp, houtcome⟩ := hwrites.encoded r hnew
      rw [hplan, ← hquantizer] at houtcome
      exact ⟨v, by simp, p, hp, houtcome⟩
  · rw [h.asked]
    simp [requests, List.map_append, DeviceRequest.storing_append, List.append_assoc]

/-- The course has ended with a finished file, and these are its pieces. -/
structure Finishes (f : FileCourse) (stamp : Stamp) (granted : List Call)
    (batches : List PointView) (asked : List DeviceRequest) (s : Session) (parts : FileParts) :
    Prop where
  course : f.LeadsTo stamp granted batches f.requests s
  front : ∃ first, f.front = first :: (parts.regular ++ [parts.mark]) ∧
    first.length = parts.header.bytes.length
  header : ∃ length, s.plan.header.block s.quantizer.scalings s.summary
    (s.contents (s.extendedBehind length)) = .ok parts.header
  regular : List.Forall₂ (fun v piece => s.recordBytes false v = .ok piece) s.records.regular
    parts.regular
  mark : parts.mark = s.plan.pointDataMark
  points : parts.points = f.handed.flatten
  extended : List.Forall₂ (fun v piece => s.recordBytes true v = .ok piece) s.records.extended
    parts.extended
  asked : asked = f.requests ++ s.closing parts.extended parts.header.bytes

/-- A finished file stays finished, whatever else is granted. -/
theorem Finishes.grant {parts : FileParts}
    (h : f.Finishes stamp granted batches asked s parts) (more : List Call) :
    f.Finishes stamp (granted ++ more) batches asked s parts :=
  { h with course := h.course.grant more }

/-- A session that is finished by its extended records and a header finishes the course. -/
theorem LeadsTo.finishes (h : f.LeadsTo stamp granted batches asked s) {extended : List Octets}
    {length : Nat} {header : Octets} (hback : s.back = extended.map .ok)
    (hheader : s.headerBytes (s.extendedBehind length) = .ok header) :
    ∃ parts, f.Finishes stamp granted batches (asked ++ s.closing extended header) s parts := by
  obtain ⟨hplan, -, hrecords, -⟩ := h.fixed
  obtain ⟨block, hblock, rfl, hlength⟩ := Session.headerBytes_eq_ok hheader
  obtain ⟨first, regular, hfront, hfirst, hregular⟩ := Session.front_eq_map h.front
  have hasked := h.asked
  subst hasked
  refine ⟨⟨block, regular, s.plan.pointDataMark, f.handed.flatten, extended⟩, {
    course := h
    front := ⟨first, ?_, ?_⟩
    header := ⟨length, hblock⟩
    regular := ?_
    mark := rfl
    points := rfl
    extended := Except.forall₂_of_map_eq hback
    asked := rfl }⟩
  · rw [hfront, hplan]
    rfl
  · obtain ⟨-, -, -, hsize⟩ := Session.headerBytes_eq_ok hfirst
    rw [hsize, hlength, hplan]
    rfl
  · rw [hrecords, Session.recordBytes_congr (u := f.fresh) hplan]
    exact hregular

end FileCourse

namespace Phase

/-- What is known of a phase that calls have led to. -/
def Reached (stamp : Stamp) (granted : List Call) (batches : List PointView)
    (asked : List DeviceRequest) : Phase → Prop
  | .constructed => batches = [] ∧ asked = []
  | .configured o => .configure o ∈ granted ∧ batches = [] ∧ asked = []
  | .prepared p lost => lost = false → ∃ o table, .configure o ∈ granted ∧
    .prepare table ∈ granted ∧ (Writer.planFor stamp o table).value = .ok p ∧
      batches = [] ∧ asked = []
  | .ready s lost | .writing s lost => lost = false → ∃ f : FileCourse,
    f.LeadsTo stamp granted batches asked s
  | .done s => ∃ (f : FileCourse) (parts : FileParts),
    f.Finishes stamp granted batches asked s parts

variable {stamp : Stamp} {granted : List Call} {batches : List PointView}
  {asked : List DeviceRequest} {phase after : Phase}

/-- A session that is open has come out of the course of a file. -/
theorem Reached.of_open {s : Session} (h : phase.Reached stamp granted batches asked)
    (hopen : phase.open? = some s) : ∃ f : FileCourse, f.LeadsTo stamp granted batches asked s := by
  obtain rfl | rfl := eq_of_open? hopen
  · exact h rfl
  · exact h rfl

/-- Where a call is refused no batch is brought, as long as the device is not lost. -/
theorem Reached.refused {c : Call} (h : phase.Reached stamp granted batches asked)
    (hrefused : phase.takes c = false) :
    phase.Reached stamp granted (batches ++ c.broughtAt phase.stage) asked := by
  cases phase with
  | ready s lost | writing s lost =>
    intro hlost
    subst hlost
    cases c with
    | write v => simp [takes] at hrefused
    | _ =>
      simp only [Call.broughtAt, List.append_nil]
      exact h rfl
  | _ => cases c <;> simpa [Call.broughtAt, stage, Stage.acceptsPoints] using h

/-- **Every step keeps what is known of a phase.** -/
theorem Reached.step {c : Call} {more : List DeviceRequest} {result : Except Error Unit}
    (h : phase.Reached stamp granted batches asked)
    (hstep : phase.Step stamp c more result after) :
    after.Reached stamp (granted ++ c.grantedBy result) (batches ++ c.broughtAt phase.stage)
      (asked ++ more) := by
  cases hstep with
  | refused untaken => simpa [Call.grantedBy] using h.refused untaken
  | configured check =>
    obtain ⟨rfl, rfl⟩ := h
    simp [Reached, Call.grantedBy, Call.broughtAt]
  | notConfigured check => simpa [Call.grantedBy, Call.broughtAt] using h
  | @prepared o table p plan =>
    obtain ⟨hconfigured, rfl, rfl⟩ := h
    intro _
    exact ⟨o, table, by simp [hconfigured], by simp [Call.grantedBy], plan, rfl, rfl⟩
  | notPrepared plan => simpa [Call.grantedBy, Call.broughtAt] using h
  | @opened p source start vlrs pieces records front =>
    obtain ⟨o, table, hconfigured, hprepared, hplan, rfl, rfl⟩ := h rfl
    intro _
    exact ⟨_, FileCourse.leadsTo_fresh (by simp [hconfigured]) (by simp [hprepared])
      (by simp [Call.grantedBy]) hplan records front⟩
  | notOpened once =>
    intro hlost
    cases hlost
  | @wrote _ s u v result handed isOpen writes =>
    obtain ⟨f, hf⟩ := h.of_open isOpen
    intro _
    have hbrought : (Call.write v).broughtAt phase.stage = [v] := by
      obtain rfl | rfl := eq_of_open? isOpen <;> rfl
    rw [hbrought]
    exact ⟨_, (hf.write writes).grant _⟩
  | @finished _ s pieces length bytes isOpen back header =>
    obtain ⟨f, hf⟩ := h.of_open isOpen
    obtain ⟨parts, hfinishes⟩ := hf.finishes back header
    simp only [Call.broughtAt, List.append_nil]
    exact ⟨f, parts, hfinishes.grant _⟩
  | notFinished isOpen never =>
    obtain rfl | rfl := eq_of_open? isOpen
    · intro hlost
      cases hlost
    · intro hlost
      cases hlost

end Phase

namespace Writer

variable {σ : Type} [Device σ]

/-- What is known of a phase is known of every phase that calls lead to from there. -/
theorem reached_after {w : Writer σ} {granted : List Call} {batches : List PointView}
    {asked : List DeviceRequest} (h : w.phase.Reached w.stamp granted batches asked)
    (calls : List Call) :
    (w.after calls).phase.Reached w.stamp (granted ++ w.granted calls)
      (batches ++ w.batches calls) (asked ++ w.requests calls) := by
  induction calls generalizing w granted batches asked with
  | nil => simpa [Writer.granted, Writer.batches] using h
  | cons c calls ih =>
    have hstamp := (w.performs_asked c).stamp
    have hnext := h.step (w.perform_step c)
    rw [← hstamp] at hnext
    have hrest := ih hnext
    rw [hstamp] at hrest
    rw [requests_cons, Writer.granted, Writer.batches, ← List.append_assoc, ← List.append_assoc,
      ← List.append_assoc]
    exact hrest

/-- What is known of a writer after any calls. -/
theorem reached (stamp : Stamp) (d : σ) (calls : List Call) :
    ((create stamp d).after calls).phase.Reached stamp ((create stamp d).granted calls)
      ((create stamp d).batches calls) ((create stamp d).requests calls) := by
  have hcreated : (create stamp d).phase.Reached (create stamp d).stamp [] [] [] := ⟨rfl, rfl⟩
  have hafter := reached_after hcreated calls
  rwa [List.nil_append, List.nil_append, List.nil_append] at hafter

end Writer

end PointCloud
