import PointCloud.Proofs.Writer.Steps

/-!
# The life of a writer

How far a writer has got, what it has done with its device, and what it has
settled are kept in one phase, but they are seen one by one: the stage in the
messages, the header, the device that is given back.  `Lifecycle` says how the
three hang together in every writer that calls can lead to, on any device and
with any faults of it.

`Stage.Step` is the whole of what a caller sees of the stages.  It makes no
mention of what a writer holds, and with the stage, the call and the result it
leaves one stage to come.  A call that fails leaves the stage alone, unless it is
a batch that has been taken up.

A step that opens or finishes the file and fails is the end: the device is lost,
and every later call is refused for the stage that the writer stopped at.
-/

namespace PointCloud

/-- How a call leads from one stage to the next, given what has come of it. -/
inductive Stage.Step : Stage → Call → Except Error Unit → Stage → Prop
  | configured (o : Options) : Step .constructed (.configure o) (.ok ()) .configured
  | prepared (table : PointTable) : Step .configured (.prepare table) (.ok ()) .prepared
  | opened (source : PointTable) : Step .prepared (.ready source) (.ok ()) .ready
  | wrote {stage : Stage} (v : PointView) {result : Except Error Unit}
    (accepts : stage.acceptsPoints = true)
    (taken : ∀ expected actual, result ≠ .error (.wrongStage expected actual)) :
    Step stage (.write v) result .writing
  | finished {stage : Stage} (accepts : stage.acceptsPoints = true) :
    Step stage .done (.ok ()) .done
  | failed {stage : Stage} {c : Call} {e : Error}
    (untaken : ∀ v, c = .write v → ∃ expected actual, e = .wrongStage expected actual) :
    Step stage c (.error e) stage

namespace Phase

/-- How often a writer in this phase has opened its device. -/
def openings : Phase → Nat
  | .constructed | .configured _ | .prepared _ false => 0
  | _ => 1

/-- Points are accepted while a session is open. -/
theorem acceptsPoints_of_open {phase : Phase} {s : Session} (h : phase.open? = some s) :
    phase.stage.acceptsPoints = true := by
  obtain rfl | rfl := eq_of_open? h <;> rfl

/-- A writer that loses its device stays where it is. -/
theorem stage_losing (phase : Phase) : phase.losing.stage = phase.stage := by
  cases phase <;> rfl

/-- Whether the device is lost. -/
def isLost : Phase → Bool
  | .prepared _ lost | .ready _ lost | .writing _ lost => lost
  | _ => false

/-- A writer that finishes in vain has lost its device. -/
theorem isLost_losing {phase : Phase} {s : Session} (h : phase.open? = some s) :
    phase.losing.isLost = true := by
  obtain rfl | rfl := eq_of_open? h <;> rfl

/-- Without a device nothing is taken any more. -/
theorem takes_of_isLost {phase : Phase} (h : phase.isLost = true) (c : Call) :
    phase.takes c = false := by
  cases phase <;> simp [isLost] at h <;> cases c <;> simp [takes, h]

/-- When prepared, a writer gets ready unless its device is lost. -/
theorem takes_ready {phase : Phase} (h : phase.stage = .prepared) (source : PointTable) :
    phase.takes (.ready source) = !phase.isLost := by
  cases phase <;> simp [stage] at h
  rfl

/-- When it accepts points, it finishes unless its device is lost. -/
theorem takes_done {phase : Phase} (h : phase.stage.acceptsPoints = true) :
    phase.takes .done = !phase.isLost := by
  cases phase <;> simp [stage, Stage.acceptsPoints] at h <;> rfl

variable {stamp : Stamp} {phase after : Phase} {c : Call} {more : List DeviceRequest}
  {result : Except Error Unit}

/-- The stages of a step. -/
theorem Step.stage (h : phase.Step stamp c more result after) :
    phase.stage.Step c result after.stage := by
  cases h with
  | refused untaken => exact .failed fun _ _ => ⟨_, _, rfl⟩
  | configured check => exact .configured _
  | notConfigured check => exact .failed fun _ hc => nomatch hc
  | prepared plan => exact .prepared _
  | notPrepared plan => exact .failed fun _ hc => nomatch hc
  | opened records front => exact .opened _
  | notOpened once => exact .failed fun _ hc => nomatch hc
  | wrote isOpen writes =>
    refine .wrote _ (acceptsPoints_of_open isOpen) ?_
    intro expected actual hresult
    -- a batch that is taken up fails over a value or by the device
    obtain hoverflow | ⟨fault, hfault⟩ := writes.failure _ hresult
    · exact hoverflow
    · cases hfault
  | finished isOpen back header => exact .finished (acceptsPoints_of_open isOpen)
  | notFinished isOpen never =>
    rw [stage_losing]
    exact .failed fun _ hc => nomatch hc

/-- A device is opened once, and then never again. -/
theorem Step.openings (h : phase.Step stamp c more result after) :
    phase.openings + more.count .acquire = after.openings := by
  have hopen : ∀ {phase : Phase} {s : Session}, phase.open? = some s →
      phase.openings = 1 ∧ phase.losing.openings = 1 := by
    intro phase s h
    obtain rfl | rfl := eq_of_open? h <;> exact ⟨rfl, rfl⟩
  cases h with
  | opened records front =>
    simp [Phase.openings, List.count_eq_zero.mpr (DeviceRequest.acquire_not_mem_storing _)]
  | notOpened once => simp [Phase.openings, List.count_eq_zero.mpr once]
  | wrote isOpen writes =>
    rw [(hopen isOpen).1, List.count_eq_zero.mpr (DeviceRequest.acquire_not_mem_storing _)]
    rfl
  | finished isOpen back header =>
    rw [(hopen isOpen).1, List.count_eq_zero.mpr (Session.acquire_not_mem_closing _ _ _)]
    rfl
  | notFinished isOpen never =>
    obtain ⟨hbefore, hafter⟩ := hopen isOpen
    rw [hbefore, hafter, List.count_eq_zero.mpr never]
  | _ => rfl

/-- Where the device is opened, a prepared writer is being made ready. -/
theorem Step.eq_ready (h : phase.Step stamp c more result after) (hmore : .acquire ∈ more) :
    phase.stage = .prepared ∧ ∃ source, c = .ready source := by
  cases h with
  | opened records front => exact ⟨rfl, _, rfl⟩
  | notOpened once => exact ⟨rfl, _, rfl⟩
  | wrote isOpen writes => exact absurd hmore (DeviceRequest.acquire_not_mem_storing _)
  | finished isOpen back header => exact absurd hmore (Session.acquire_not_mem_closing _ _ _)
  | notFinished isOpen never => exact absurd hmore never
  | _ => cases hmore

/-- A step that fails to open or to finish the file leaves the device lost. -/
theorem Step.isLost_of_error {e : Error} (h : phase.Step stamp c more (.error e) after)
    (hcall : phase.stage = .prepared ∧ (∃ source, c = .ready source) ∨
      phase.stage.acceptsPoints = true ∧ c = .done) :
    after.isLost = true ∧ after.stage = phase.stage := by
  cases h with
  | refused untaken =>
    -- it is refused at its own stage, so the device was lost before
    refine ⟨?_, rfl⟩
    rcases hcall with ⟨hstage, source, rfl⟩ | ⟨hstage, rfl⟩
    · rw [takes_ready hstage] at untaken
      simpa using untaken
    · rw [takes_done hstage] at untaken
      simpa using untaken
  | notOpened once => exact ⟨rfl, rfl⟩
  | notFinished isOpen never => exact ⟨isLost_losing isOpen, stage_losing phase⟩
  | wrote isOpen writes => simp at hcall
  | notConfigured check | notPrepared plan => simp [Phase.stage, Stage.acceptsPoints] at hcall

end Phase

namespace Writer

variable {σ : Type}

/-- The device is given back when all is done, and not before. -/
theorem intoDevice_eq (w : Writer σ) :
    w.intoDevice =
      if w.stage = .done then .ok w.device else .error (.wrongStage .done w.stage) := by
  rcases w with ⟨d, phase, stamp⟩
  cases phase <;> rfl

/-- There is no plan just if nothing has been prepared. -/
theorem plan?_eq_none_iff (w : Writer σ) :
    w.phase.plan? = none ↔ w.stage = .constructed ∨ w.stage = .configured := by
  rcases w with ⟨d, phase, stamp⟩
  cases phase <;> simp [Phase.plan?, stage, Phase.stage]

/-- The header is that of the plan. -/
theorem header?_eq (w : Writer σ) : w.header? = w.phase.plan?.map (·.header) := by
  rcases w with ⟨d, phase, stamp⟩
  cases phase <;> rfl

/-- There is a summary just if there is a plan. -/
theorem summary?_eq_none_iff (w : Writer σ) : w.summary? = none ↔ w.phase.plan? = none := by
  rcases w with ⟨d, phase, stamp⟩
  cases phase <;> simp [Phase.plan?, summary?, Phase.summary?]

variable [Device σ]

/-- Where no call is taken up any more, calls change nothing. -/
theorem after_of_not_takes {w : Writer σ} (h : ∀ c, w.phase.takes c = false)
    (calls : List Call) :
    w.after calls = w ∧
      w.results calls = calls.map fun c => .error (.wrongStage c.expected w.stage) := by
  induction calls with
  | nil => exact ⟨rfl, rfl⟩
  | cons c calls ih =>
    obtain ⟨hafter, hresults⟩ := ih
    rw [after_cons, results_cons, perform_of_not_takes (h c)]
    exact ⟨hafter, congrArg _ hresults⟩

/-- A device is acquired once for each opening. -/
theorem openings_after (w : Writer σ) (calls : List Call) :
    w.phase.openings + (w.requests calls).count .acquire = (w.after calls).phase.openings := by
  induction calls generalizing w with
  | nil => rfl
  | cons c calls ih =>
    rw [requests_cons, List.count_append, ← Nat.add_assoc, (w.perform_step c).openings, ih]
    rfl

/-- A writer without a plan leaves its device alone. -/
theorem perform_of_no_plan {w : Writer σ} (h : w.phase.plan? = none) (c : Call) :
    w.asked c = [] ∧ (w.perform c).writer.device = w.device := by
  cases htakes : w.phase.takes c with
  | false =>
    rw [(performs_refused htakes).asked_eq, perform_of_not_takes htakes]
    exact ⟨rfl, rfl⟩
  | true =>
    rcases w with ⟨d, phase, stamp⟩
    cases phase with
    | constructed =>
      cases c with
      | configure o =>
        refine ⟨(performs_configure d stamp o).asked_eq, ?_⟩
        simp only [perform, configure]
        split <;> rfl
      | _ => cases htakes
    | configured o =>
      cases c with
      | prepare table =>
        refine ⟨(performs_prepare d o stamp table).asked_eq, ?_⟩
        simp only [perform, prepare]
        split <;> rfl
      | _ => cases htakes
    | _ => cases h

/-- As long as there is no plan, nothing has been asked of the device. -/
theorem after_of_no_plan {w : Writer σ} {calls : List Call}
    (h : (w.after calls).phase.plan? = none) :
    w.requests calls = [] ∧ (w.after calls).device = w.device := by
  induction calls generalizing w with
  | nil => exact ⟨rfl, rfl⟩
  | cons c calls ih =>
    have hplan : w.phase.plan? = none := by
      cases hbefore : w.phase.plan? with
      | none => rfl
      | some p =>
        rw [plan?_after hbefore (c :: calls)] at h
        cases h
    obtain ⟨hasked, hdevice⟩ := perform_of_no_plan hplan c
    obtain ⟨hrequests, hafter⟩ := ih h
    refine ⟨?_, hafter.trans hdevice⟩
    rw [requests_cons, hasked, hrequests]
    rfl

/-- A writer that is done has become so by a call that succeeded. -/
theorem exists_done {w : Writer σ} {calls : List Call} (h : (w.after calls).stage = .done) :
    w.stage = .done ∨ ∃ before behind, calls = before ++ .done :: behind ∧
      (w.after before).done.result = .ok () := by
  induction calls generalizing w with
  | nil => exact Or.inl h
  | cons c calls ih =>
    obtain hstage | ⟨before, behind, rfl, hdone⟩ := ih h
    · have hstep := (w.perform_step c).stage
      rw [show (w.perform c).writer.phase.stage = .done from hstage] at hstep
      generalize hresult : (w.perform c).result = result at hstep
      generalize hbefore : w.phase.stage = stage at hstep
      cases hstep with
      | finished accepts => exact Or.inr ⟨[], calls, rfl, hresult⟩
      | failed untaken => exact Or.inl hbefore
    · exact Or.inr ⟨c :: before, behind, rfl, hdone⟩

/-- Where a call is made that may open or finish the file. -/
def mayEnd (w : Writer σ) (c : Call) : Prop :=
  w.stage = .prepared ∧ (∃ source, c = .ready source) ∨ w.stage.acceptsPoints = true ∧ c = .done

/-- How the stage, the device and what is settled hang together in a writer that calls have led
to. -/
structure Lifecycle (first : Writer σ) (calls : List Call) (w : Writer σ) : Prop where
  step : ∀ c, w.stage.Step c (w.perform c).result (w.perform c).writer.stage
  untouched : w.stage = .constructed ∨ w.stage = .configured →
    w.header? = none ∧ w.summary? = none ∧ w.phase.plan? = none ∧
      first.requests calls = [] ∧ w.device = first.device
  settled : ¬ (w.stage = .constructed ∨ w.stage = .configured) → ∃ p : Plan,
    ∀ more, (w.after more).header? = some p.header ∧ (w.after more).phase.plan? = some p ∧
      (w.after more).summary? ≠ none
  opened : (first.requests calls).count .acquire ≤ 1
  opening : ∀ c, .acquire ∈ w.asked c → w.stage = .prepared ∧ ∃ source, c = .ready source
  given : w.intoDevice =
    if w.stage = .done then .ok w.device else .error (.wrongStage .done w.stage)
  finished : w.stage = .done → ∃ before behind, calls = before ++ .done :: behind ∧
    (first.after before).done.result = .ok ()
  ended : ∀ c e, w.mayEnd c → (w.perform c).result = .error e →
    let lost := (w.perform c).writer
    lost.intoDevice = .error (.wrongStage .done w.stage) ∧ ∀ more, lost.after more = lost ∧
      lost.results more = more.map fun c => .error (.wrongStage c.expected w.stage)

/-- **The life of a writer**, on any device and after any calls. -/
theorem lifecycle_after (stamp : Stamp) (d : σ) (calls : List Call) :
    Lifecycle (create stamp d) calls ((create stamp d).after calls) := by
  let w := (create stamp d).after calls
  refine {
    step := fun c => (w.perform_step c).stage
    untouched := ?_
    settled := ?_
    opened := ?_
    opening := fun c => (w.perform_step c).eq_ready
    given := w.intoDevice_eq
    finished := ?_
    ended := ?_ }
  · intro hearly
    have hplan := w.plan?_eq_none_iff.mpr hearly
    obtain ⟨hrequests, hdevice⟩ := after_of_no_plan hplan
    exact ⟨by rw [header?_eq, hplan]; rfl, w.summary?_eq_none_iff.mpr hplan, hplan, hrequests,
      hdevice⟩
  · intro hlate
    rw [← plan?_eq_none_iff] at hlate
    obtain ⟨p, hp⟩ := Option.ne_none_iff_exists'.mp hlate
    refine ⟨p, fun more => ?_⟩
    have hmore : (w.after more).phase.plan? = some p := plan?_after hp more
    refine ⟨?_, hmore, ?_⟩
    · rw [header?_eq, hmore]
      rfl
    · rw [ne_eq, summary?_eq_none_iff, hmore]
      simp
  · have hcount : 0 + _ = w.phase.openings := (create stamp d).openings_after calls
    have hle : w.phase.openings ≤ 1 := by
      unfold Phase.openings
      split <;> decide
    omega
  · intro hdone
    obtain hstart | hexists := exists_done hdone
    · cases hstart
    · exact hexists
  · intro c e hcall herror lost
    have hstep := w.perform_step c
    rw [herror] at hstep
    obtain ⟨hlost, hstage⟩ := hstep.isLost_of_error hcall
    have hstage' : lost.stage = w.stage := hstage
    have hnot : lost.stage ≠ .done := by
      rw [hstage']
      obtain ⟨hprepared, -⟩ | ⟨haccepts, -⟩ := hcall
      · rw [hprepared]
        decide
      · intro hdone
        rw [hdone] at haccepts
        cases haccepts
    rw [intoDevice_eq, if_neg hnot, hstage']
    refine ⟨rfl, fun more => ?_⟩
    have hafter := after_of_not_takes (w := lost) (Phase.takes_of_isLost hlost) more
    rwa [hstage'] at hafter

end Writer

end PointCloud
