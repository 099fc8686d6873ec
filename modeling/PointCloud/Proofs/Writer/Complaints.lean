import PointCloud.Proofs.Writer.Discarding
import PointCloud.Proofs.Writer.Remarks

/-!
# Complaints over a whole run

The tally of complaints belongs to the file, not to a batch.  A batch adds to it
what is wrong with the points that it looks at, `complaints_of_open`, whether or not
it stores them, and no other call changes it.  So after any calls the tally is a
recount of all points that have been looked at, `complaints_after`, and the messages
are those that the points would have had in a single batch: one warning for each
kind of complaint in the whole run.

`Writer.lookedAt` are these points, in the order of the calls.  Of a batch they are
the first ones, as far as it got.
-/

namespace PointCloud

/-! ### The steps of a writer -/

/-- The complaints counted in a phase; before a file is begun there are none. -/
def Phase.tally : Phase → Returns.Tally
  | .ready s _ | .writing s _ | .done s => s.tally
  | _ => .zero

/-- While a session is open, the tally is its own. -/
theorem Phase.tally_of_open {phase : Phase} {s : Session} (h : phase.open? = some s) :
    phase.tally = s.tally := by
  obtain rfl | rfl := eq_of_open? h
  · rfl
  · rfl

/-- Every step but a batch leaves the tally as it is. -/
theorem Phase.Step.tally_eq {stamp : Stamp} {phase after : Phase} {c : Call}
    {more : List DeviceRequest} {result : Except Error Unit}
    (h : phase.Step stamp c more result after) (hother : ∀ v, c = .write v → phase.open? = none) :
    after.tally = phase.tally := by
  cases h with
  | wrote isOpen writes =>
    rw [hother _ rfl] at isOpen
    cases isOpen
  | finished isOpen back header =>
    obtain rfl | rfl := eq_of_open? isOpen
    · rfl
    · rfl
  | notFinished isOpen never =>
    obtain rfl | rfl := eq_of_open? isOpen
    · rfl
    · rfl
  | _ => rfl

namespace Writer

variable {σ : Type} [Device σ]

/-- The points that a call looks at. -/
def lookedAtBy (w : Writer σ) : Call → List Point
  | .write v =>
    match w.phase.open? with
    | some s => (s.lookedAtOf v w.device).map v.point
    | none => []
  | _ => []

/-- The points that calls look at, in order. -/
def lookedAt (w : Writer σ) : List Call → List Point
  | [] => []
  | c :: calls => w.lookedAtBy c ++ (w.perform c).writer.lookedAt calls

/-- What is said in the course of calls. -/
def log (w : Writer σ) : List Call → List LogEntry
  | [] => []
  | c :: calls => (w.perform c).log ++ (w.perform c).writer.log calls

/-- Whether a device that is still to be opened says nothing that looks like a complaint. -/
def HasQuietNotice (w : Writer σ) : Prop := w.hasOpened = false → Quiet (Device.notice w.device)

/-- Once the device has been opened it does not matter any more what it might say. -/
theorem HasQuietNotice.of_hasOpened {w : Writer σ} (h : w.hasOpened = true) :
    w.HasQuietNotice := by
  intro hnot
  rw [h] at hnot
  cases hnot

/-- A call that writes no batch looks at no points. -/
theorem lookedAtBy_eq_nil {w : Writer σ} {c : Call}
    (h : ∀ v, c = .write v → w.phase.open? = none) : w.lookedAtBy c = [] := by
  cases c with
  | write v => simp [lookedAtBy, h v rfl]
  | _ => rfl

/-- A batch looks at the points of its view that its session does. -/
theorem lookedAtBy_of_open {w : Writer σ} {s : Session} (h : w.phase.open? = some s)
    (v : PointView) : w.lookedAtBy (.write v) = (s.lookedAtOf v w.device).map v.point := by
  simp [lookedAtBy, h]

/-- What has come of a step that says nothing that looks like a complaint. -/
def IsQuiet (o : Outcome σ) : Prop := Quiet o.log ∧ o.writer.HasQuietNotice

/-- Nobody complains of points while options are taken. -/
theorem isQuiet_configure {d : σ} (hnotice : Quiet (Device.notice d)) (stamp : Stamp)
    (o : Options) : IsQuiet ((Writer.mk d .constructed stamp).configure o) := by
  unfold configure
  dsimp only
  split
  · exact ⟨Quiet.nil, fun _ => hnotice⟩
  · exact ⟨Quiet.nil, fun _ => hnotice⟩

/-- Nobody complains of points while a table is prepared. -/
theorem isQuiet_prepare {d : σ} (hnotice : Quiet (Device.notice d)) (o : Options) (stamp : Stamp)
    (table : PointTable) : IsQuiet ((Writer.mk d (.configured o) stamp).prepare table) := by
  have hplan := quiet_planFor stamp o table
  unfold prepare
  dsimp only
  split
  · exact ⟨hplan.append (quiet_planRemark _), fun _ => hnotice⟩
  · exact ⟨hplan, fun _ => hnotice⟩

/-- Nobody complains of points while a file is opened. -/
theorem isQuiet_ready {d : σ} (hnotice : Quiet (Device.notice d)) (p : Plan) (stamp : Stamp)
    (source : PointTable) : IsQuiet ((Writer.mk d (.prepared p false) stamp).ready source) := by
  have hlog := hnotice.append (quiet_fileRecords p.options source p.encoder.extra)
  unfold ready
  dsimp only
  split
  · exact ⟨hnotice, .of_hasOpened rfl⟩
  · split
    · exact ⟨hlog, .of_hasOpened rfl⟩
    · split
      · exact ⟨hlog, .of_hasOpened rfl⟩
      · exact ⟨hlog, .of_hasOpened rfl⟩

/-- Nobody complains of points while a file is finished; only totals are put. -/
theorem isQuiet_done {w : Writer σ} {s : Session} (h : w.phase.open? = some s) :
    IsQuiet w.done := by
  rw [done_of_open h, finishSession]
  split
  · exact ⟨quiet_finishRemarks s, .of_hasOpened rfl⟩
  · refine ⟨quiet_finishRemarks s, .of_hasOpened ?_⟩
    obtain hphase | hphase := Phase.eq_of_open? h
    · rw [hphase]
      rfl
    · rw [hphase]
      rfl

/-- Only a batch that is taken up has complaints. -/
theorem isQuiet_perform {w : Writer σ} (hnotice : w.HasQuietNotice) {c : Call}
    (h : ∀ v, c = .write v → w.phase.open? = none) : IsQuiet (w.perform c) := by
  cases htakes : w.phase.takes c with
  | false =>
    rw [perform_of_not_takes htakes]
    exact ⟨Quiet.nil, hnotice⟩
  | true =>
    rcases w with ⟨d, phase, stamp⟩
    cases c with
    | configure o =>
      cases phase <;> simp [Phase.takes] at htakes
      exact isQuiet_configure (hnotice rfl) stamp o
    | prepare table =>
      cases phase <;> simp [Phase.takes] at htakes
      exact isQuiet_prepare (hnotice rfl) _ stamp table
    | ready table =>
      cases phase <;> simp [Phase.takes] at htakes
      subst htakes
      exact isQuiet_ready (hnotice rfl) _ stamp table
    | write v =>
      have hnone := h v rfl
      cases phase <;> simp [Phase.takes] at htakes <;> subst htakes <;> cases hnone
    | done =>
      cases phase <;> simp [Phase.takes] at htakes <;> subst htakes <;> exact isQuiet_done rfl

/-- **A batch that is taken up** has the complaints about the points that it looks at. -/
theorem complaints_of_open {w : Writer σ} {s : Session} (h : w.phase.open? = some s)
    (v : PointView) :
    let cs := s.plan.encoder.complaintsAbout (w.lookedAtBy (.write v))
    (w.perform (.write v)).writer.phase.tally = w.phase.tally.countAll cs ∧
      (w.perform (.write v)).log.filter LogEntry.isComplaint =
        w.phase.tally.entries s.plan.encoder.policy.max cs := by
  obtain ⟨htally, remarks, hremarks, hlog⟩ := s.write_complaints v w.device
  have hperform : w.perform (.write v) = w.writeBatch s v := write_of_open h v
  have hquiet : Quiet remarks := fun e he => s.quiet_settleRemarks v e (hremarks e he)
  rw [hperform, lookedAtBy_of_open h v, Phase.tally_of_open h]
  refine ⟨htally, ?_⟩
  have hwritten : (w.writeBatch s v).log = (s.write v w.device).log := rfl
  rw [hwritten, hlog, List.filter_append, hquiet.filter_eq_nil, List.nil_append,
    Returns.Tally.filter_entries]

/-! ### Runs -/

/-- **The complaints of a run** are those about the points that are looked at, put after the
complaints already counted. -/
theorem complaints_after {w : Writer σ} (hnotice : w.HasQuietNotice) {calls : List Call} {p : Plan}
    (h : (w.after calls).phase.plan? = some p) :
    (w.after calls).phase.tally =
        w.phase.tally.countAll (p.encoder.complaintsAbout (w.lookedAt calls)) ∧
      (w.log calls).filter LogEntry.isComplaint =
        w.phase.tally.entries p.encoder.policy.max
          (p.encoder.complaintsAbout (w.lookedAt calls)) := by
  induction calls generalizing w with
  | nil => exact ⟨rfl, rfl⟩
  | cons c calls ih =>
    rw [lookedAt, log, List.filter_append, PointEncoder.complaintsAbout_append,
      Returns.Tally.countAll_append, Returns.Tally.entries_append]
    obtain ⟨s, v, hopen, rfl⟩ | hother := w.writes_or_other c
    · -- the plan of the session is the one that the run ends with
      have hkept := plan?_after (plan?_of_open hopen) (.write v :: calls)
      obtain rfl : s.plan = p := Option.some.inj (hkept.symm.trans h)
      obtain ⟨htally, hlog⟩ := complaints_of_open hopen v
      have hopened : (w.perform (.write v)).writer.HasQuietNotice := by
        rw [show w.perform (.write v) = w.writeBatch s v from write_of_open hopen v]
        exact .of_hasOpened rfl
      obtain ⟨hafter, hmore⟩ := ih hopened h
      rw [htally] at hafter hmore
      exact ⟨hafter, by rw [hlog, hmore]⟩
    · obtain ⟨hquiet, hnotice'⟩ := isQuiet_perform hnotice hother
      obtain ⟨hafter, hmore⟩ := ih hnotice' h
      rw [(w.perform_step c).tally_eq hother] at hafter hmore
      rw [lookedAtBy_eq_nil hother, hquiet.filter_eq_nil]
      exact ⟨hafter, hmore⟩

/-- Without a plan no point is looked at, and nothing is complained about. -/
theorem quiet_of_unplanned {w : Writer σ} (hnotice : w.HasQuietNotice) {calls : List Call}
    (h : (w.after calls).phase.plan? = none) : w.lookedAt calls = [] ∧ Quiet (w.log calls) := by
  induction calls generalizing w with
  | nil => exact ⟨rfl, Quiet.nil⟩
  | cons c calls ih =>
    obtain ⟨s, v, hopen, rfl⟩ | hother := w.writes_or_other c
    · have hkept := plan?_after (plan?_of_open hopen) (.write v :: calls)
      rw [h] at hkept
      cases hkept
    · obtain ⟨hquiet, hnotice'⟩ := isQuiet_perform hnotice hother
      obtain ⟨hlooked, hmore⟩ := ih hnotice' h
      rw [lookedAt, log, lookedAtBy_eq_nil hother, hlooked]
      exact ⟨rfl, hquiet.append hmore⟩

end Writer

/-- What points are judged by: the limit of the format, and whether points beyond it are left
out. -/
def Plan.policy (p : Plan) : Returns.Policy :=
  ⟨p.header.format.maxReturns, p.options.discardHighReturns⟩

/-- The return numbers and numbers of returns of points, where both can be read. -/
def Plan.numbersOf (p : Plan) (points : List Point) : List (UInt8 × UInt8) :=
  points.filterMap p.encoder.numbers?

/-- What is said when a file is finished whose header cannot say where its extended records are. -/
def Session.unrecordedRemarks (s : Session) : List LogEntry :=
  let version := s.plan.header.version
  let count := s.records.extended.length
  let unrecorded :=
    s!"writing {count} extended vlrs to a las {version.text} file, " ++
      "which can't record them in its header"
  if count ≠ 0 ∧ version.has .extendedRecords = false then [.warn unrecorded] else []

/-- What can be said of the complaints in the course of calls. -/
structure Writer.ComplaintsRecounted {σ : Type} [Device σ] (w : Writer σ) (calls : List Call) :
    Prop where
  /-- The points of a batch that are looked at are its first ones: those up to the first that fails
  unless the device does, and all of them if the batch does not fail. -/
  looked : ∀ s v, (w.after calls).phase.open? = some s →
    let points := (w.after calls).lookedAtBy (.write v)
    let result := ((w.after calls).perform (.write v)).result
    points <+: v.points ∧
    (NoFault result →
      points = v.points.take (Session.examined ((s.decided v).encodings v)).length) ∧
    (result = .ok () → points = v.points)
  /-- Without a plan no point is looked at and nothing is complained about. -/
  unplanned : (w.after calls).phase.plan? = none →
    w.lookedAt calls = [] ∧ (w.log calls).filter LogEntry.isComplaint = []
  /-- The tally is a recount of the points that have been judged. -/
  tally : ∀ p, (w.after calls).phase.plan? = some p →
    (w.after calls).phase.tally = Returns.recount p.policy (p.numbersOf (w.lookedAt calls))
  /-- No point adds more than one to either number of the tally. -/
  once : ∀ (e : PointEncoder) (q : Quantizer) (v : PointView) (index : Nat) (t : Returns.Tally),
    let counted := t.countAll (e.encode q v index).complaints
    counted.returnNumbers ≤ t.returnNumbers + 1 ∧
    counted.numbersOfReturns ≤ t.numbersOfReturns + 1
  /-- The first complaint about each number is a warning, and every later one is not. -/
  log : ∀ p, (w.after calls).phase.plan? = some p →
    (w.log calls).filter LogEntry.isComplaint =
      Returns.remarks p.policy.max
        (Returns.complaintsOf p.policy (p.numbersOf (w.lookedAt calls)))
  /-- When the file is finished, each number of the tally above one is told. -/
  reported : ∀ s, (w.after calls).phase.open? = some s →
    let total := Returns.recount s.plan.policy (s.plan.numbersOf (w.lookedAt calls))
    ((w.after calls).perform .done).log =
      [.debug s!"Wrote {s.summary.count} points"] ++
      (if 1 < total.returnNumbers then
        [.warn s!"{total.returnNumbers} points had an invalid return number"] else []) ++
      (if 1 < total.numbersOfReturns then
        [.warn s!"{total.numbersOfReturns} points had an invalid number of returns"] else []) ++
      s.unrecordedRemarks
  /-- Nothing is told if the file cannot be finished. -/
  unreported : (w.after calls).phase.open? = none → ((w.after calls).perform .done).log = []

namespace Writer

variable {σ : Type} [Device σ]

/-- The points that a batch looks at are its first ones, as far as it has got. -/
theorem lookedAtBy_spec {w : Writer σ} {s : Session} (h : w.phase.open? = some s) (v : PointView) :
    w.lookedAtBy (.write v) <+: v.points ∧
      (NoFault (w.perform (.write v)).result → w.lookedAtBy (.write v) =
        v.points.take (Session.examined ((s.decided v).encodings v)).length) ∧
      ((w.perform (.write v)).result = .ok () → w.lookedAtBy (.write v) = v.points) := by
  obtain ⟨hfirst, hnofault, hok⟩ := s.lookedAtOf_spec v w.device
  have hresult : (w.perform (.write v)).result = (s.write v w.device).result :=
    congrArg Outcome.result (write_of_open h v)
  rw [lookedAtBy_of_open h v, hresult]
  refine ⟨hfirst.map v.point, fun hr => ?_, fun hr => ?_⟩
  · rw [hnofault hr, List.map_take]
    rfl
  · rw [hok hr]
    rfl

/-- Finishing says how many points there are, and the totals that are more than one. -/
theorem finishRemarks_eq (s : Session) : finishRemarks s =
    [.debug s!"Wrote {s.summary.count} points"] ++
    (if 1 < s.tally.returnNumbers then
      [.warn s!"{s.tally.returnNumbers} points had an invalid return number"] else []) ++
    (if 1 < s.tally.numbersOfReturns then
      [.warn s!"{s.tally.numbersOfReturns} points had an invalid number of returns"] else []) ++
    s.unrecordedRemarks := by
  simp only [finishRemarks, Returns.Tally.report, Session.unrecordedRemarks, List.cons_append,
    List.nil_append, List.append_assoc]

/-- This is said whether or not finishing succeeds. -/
theorem log_done {w : Writer σ} {s : Session} (h : w.phase.open? = some s) :
    (w.perform .done).log = finishRemarks s := by
  rw [show w.perform .done = w.finishSession s from done_of_open h, finishSession]
  split <;> rfl

/-- **Complaints are counted and put over a whole run**, whatever the device does: the tally is a
recount of all points that have been judged, the first complaint about each number is a warning
and every later one is not, and in the end the numbers above one are told. -/
theorem complaints_recounted (stamp : Stamp) {d : σ} (hnotice : Quiet (Device.notice d))
    (calls : List Call) : (create stamp d).ComplaintsRecounted calls := by
  have hquiet : (create stamp d).HasQuietNotice := fun _ => hnotice
  have hpolicy : ∀ p, ((create stamp d).after calls).phase.plan? = some p →
      p.encoder.policy = p.policy := by
    intro p hp
    obtain ⟨o, table, hplan⟩ := exists_planFor_of_plan? (w := create stamp d) rfl hp
    exact policy_of_planFor hplan
  have htally : ∀ p, ((create stamp d).after calls).phase.plan? = some p →
      ((create stamp d).after calls).phase.tally =
        Returns.recount p.policy (p.numbersOf ((create stamp d).lookedAt calls)) := by
    intro p hp
    rw [(complaints_after hquiet hp).1, ← hpolicy p hp]
    exact Returns.countAll_complaintsOf _ _
  constructor
  case looked => exact fun s v hopen => lookedAtBy_spec hopen v
  case unplanned =>
    intro hnone
    obtain ⟨hlooked, hlog⟩ := quiet_of_unplanned hquiet hnone
    exact ⟨hlooked, hlog.filter_eq_nil⟩
  case tally => exact htally
  case once =>
    intro e q v index t
    have hnumber := t.alike_countAll (e.encode q v index).complaints (.returnNumber 0)
    have hcount := t.alike_countAll (e.encode q v index).complaints (.numberOfReturns 0)
    have hle := e.countP_sameKind_encode_le q v index
    exact ⟨Nat.le_trans (Nat.le_of_eq hnumber) (Nat.add_le_add_left (hle _) _),
      Nat.le_trans (Nat.le_of_eq hcount) (Nat.add_le_add_left (hle _) _)⟩
  case log =>
    intro p hp
    rw [(complaints_after hquiet hp).2, ← hpolicy p hp]
    exact Returns.Tally.entries_zero _ _
  case reported =>
    intro s hopen
    have hplan := plan?_of_open hopen
    have htotal := ((Phase.tally_of_open hopen).symm.trans (htally s.plan hplan)).symm
    dsimp only
    rw [log_done hopen, htotal, finishRemarks_eq]
  case unreported =>
    intro hclosed
    rw [perform_of_not_takes (Phase.not_takes_of_not_open hclosed).2]
    rfl

end Writer

/-- Calls for a file of the same two points twice, the sixth of seven returns and the sixth of
one. -/
def Call.repeating : List Call :=
  [.configure .usual, .prepare .returns, .ready .returns, .write .sixths, .write .sixths]

namespace Writer

/-- The second batch adds to what has been said of the first. -/
theorem complaints_recounted_repeating :
    let first := create .blank (Memory.unlimited [] 0)
    Quiet (Device.notice (Memory.unlimited [] 0)) ∧
    (first.log Call.repeating).filter LogEntry.isComplaint =
      [.warn "invalid return number 6 (valid range is 1 to 5)",
        .warn "invalid number of returns 7 (valid range is 1 to 5)",
        .debug "invalid return number 6", .debug "invalid return number 6",
        .debug "invalid number of returns 7", .debug "invalid return number 6"] ∧
    ((first.after Call.repeating).perform .done).log =
      [.debug "Wrote 4 points", .warn "4 points had an invalid return number",
        .warn "2 points had an invalid number of returns"] := by
  intro first
  have hnotice := (Memory.unlimited [] 0).quiet_notice
  have hrecounted := complaints_recounted .blank hnotice Call.repeating
  have hfacts : (first.after Call.repeating).phase.open?.map (fun s =>
      (s.plan.policy, s.plan.numbersOf (first.lookedAt Call.repeating), s.summary.count,
        s.unrecordedRemarks)) =
          some (⟨5, false⟩, [(6, 7), (6, 1), (6, 7), (6, 1)], 4, []) := by
    decide +kernel
  obtain ⟨s, hopen, hs⟩ := Option.map_eq_some_iff.mp hfacts
  simp only [Prod.mk.injEq] at hs
  obtain ⟨hpolicy, hnumbers, hcount, hunrecorded⟩ := hs
  have hlog := hrecounted.log s.plan (plan?_of_open hopen)
  have hdone := hrecounted.reported s hopen
  simp only [first] at hnumbers
  rw [hpolicy, hnumbers] at hlog
  rw [hpolicy, hnumbers, hcount, hunrecorded] at hdone
  exact ⟨hnotice, hlog, hdone⟩

end Writer

end PointCloud
