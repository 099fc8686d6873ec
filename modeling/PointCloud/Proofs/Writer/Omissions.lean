import PointCloud.Proofs.Results
import PointCloud.Proofs.Writer.Steps

/-!
# Calls that may be left out

A call is turned down if it comes at the wrong stage, or if it brings options or
a table that are not accepted.  Such a call might as well not have been made: the
writer and its device are left as they were, `perform_of_turnedDown`, and so all
that comes of the other calls comes of them without it, `history_without`.  This
holds on any device, of any writer, also of one that has lost its device.

A call is known to be turned down by its result alone.  That takes an argument,
for a step that opens or finishes a file goes through many places where it may
fail, and only then, when nothing has been done, may it speak of the stage.
-/

namespace PointCloud

open Except (FailsWith)

/-- Whether an error says that a step was asked for at the wrong stage. -/
def Error.isRefusal : Error → Bool
  | .wrongStage _ _ => true
  | _ => false

/-- An error that a step finds when it is carried out. -/
def Error.IsOfWork (e : Error) : Prop := e.isRefusal = false

/-- A value that does not fit is a failure at work. -/
theorem Error.IsOfWork.of_isOverflow {e : Error} (h : e.IsOverflow) : e.IsOfWork := by
  unfold IsOverflow at h
  split at h
  · rfl
  · rfl
  · cases h

namespace DeviceTask

variable {σ α β : Type} {kind : Error → Prop}

/-- Whatever the device does, the task fails for a reason of a kind. -/
def AlwaysFailsWith (kind : Error → Prop) (task : DeviceTask σ α) : Prop :=
  ∀ d, (task.perform d).1.FailsWith kind

theorem AlwaysFailsWith.result {r : Except Error α} (h : r.FailsWith kind) :
    (result r : DeviceTask σ α).AlwaysFailsWith kind := fun _ => h

theorem AlwaysFailsWith.pure (a : α) : (pure a : DeviceTask σ α).AlwaysFailsWith kind :=
  fun _ => FailsWith.ok a

/-- An operation fails by the device. -/
theorem AlwaysFailsWith.operation (hdevice : ∀ fault, kind (.device fault))
    (f : σ → Except DeviceFault α × σ) : (operation f).AlwaysFailsWith kind := by
  intro d
  rcases hf : f d with ⟨r, d'⟩
  cases r with
  | ok a => simpa [perform, DeviceTask.operation, ExceptT.run, ExceptT.mk, StateT.run, hf]
      using FailsWith.ok a
  | error fault => simpa [perform, DeviceTask.operation, ExceptT.run, ExceptT.mk, StateT.run, hf]
      using FailsWith.error (hdevice fault)

/-- Two tasks fail in one kind of way if both of them do. -/
theorem AlwaysFailsWith.bind {task : DeviceTask σ α} {next : α → DeviceTask σ β}
    (h : task.AlwaysFailsWith kind) (hnext : ∀ a, (next a).AlwaysFailsWith kind) :
    (task >>= next).AlwaysFailsWith kind := by
  intro d
  have hfirst := h d
  rw [perform_bind]
  rcases htask : task.perform d with ⟨r, d'⟩
  rw [htask] at hfirst
  cases r with
  | error e => exact FailsWith.error (hfirst e rfl)
  | ok a => exact hnext a d'

/-- Storing pieces fails by one of them or by the device. -/
theorem AlwaysFailsWith.storeAll [Device σ] (hdevice : ∀ fault, kind (.device fault))
    {pieces : List (Except Error Octets)} (h : ∀ piece ∈ pieces, piece.FailsWith kind) :
    (storeAll pieces : DeviceTask σ Unit).AlwaysFailsWith kind := by
  induction pieces with
  | nil => exact .pure ()
  | cons piece rest ih =>
    obtain ⟨hpiece, hrest⟩ := List.forall_mem_cons.mp h
    exact (AlwaysFailsWith.result hpiece).bind fun _ =>
      (AlwaysFailsWith.operation hdevice _).bind fun _ => ih hrest

end DeviceTask

namespace AsciiField

/-- A text that does not fit is a failure at work. -/
theorem encode_isOfWork (width : Nat) (s : String) :
    (encode width s).FailsWith Error.IsOfWork := by
  unfold encode
  split
  · exact FailsWith.error rfl
  · split
    · exact FailsWith.error rfl
    · exact FailsWith.ok _

end AsciiField

/-- A record that cannot be written is a failure at work. -/
theorem Vlr.bytes_isOfWork (v : Vlr) (extended : Bool) (reserved : UInt16) :
    (v.bytes extended reserved).FailsWith Error.IsOfWork := by
  have hlength : (v.lengthField extended).FailsWith Error.IsOfWork := by
    unfold lengthField
    split
    · exact FailsWith.ok _
    · split
      · exact FailsWith.error rfl
      · exact FailsWith.ok _
  exact ((AsciiField.encode_isOfWork 16 _).bind fun _ _ =>
    (AsciiField.encode_isOfWork 32 _).bind fun _ _ => hlength.bind fun _ _ =>
      FailsWith.ok _).map _

/-- A header that cannot be written is a failure at work. -/
theorem Header.bytes_isOfWork (h : Header) (scalings : Triple Scaling) (s : Summary)
    (c : Contents) : (h.bytes scalings s c).FailsWith Error.IsOfWork := by
  have hcount : (h.pointCount s.count).FailsWith Error.IsOfWork := by
    unfold pointCount
    split
    · exact FailsWith.ok _
    · split
      · exact FailsWith.ok _
      · exact FailsWith.error rfl
  have hplace : (pointDataOffset c.pointDataOffset).FailsWith Error.IsOfWork := by
    unfold pointDataOffset
    split
    · exact FailsWith.ok _
    · exact FailsWith.error rfl
  exact (hcount.bind fun _ _ => (AsciiField.encode_isOfWork 32 _).bind fun _ _ =>
    (AsciiField.encode_isOfWork 32 _).bind fun _ _ => hplace.bind fun _ _ =>
      FailsWith.ok _).map _

/-- A name that does not fit its descriptor is a failure at work. -/
theorem ExtraBytes.record?_isOfWork (extra : ExtraBytes) :
    extra.record?.FailsWith Error.IsOfWork := by
  have hdescriptor : ∀ f : ExtraField, f.descriptor.FailsWith Error.IsOfWork := by
    intro f
    exact (AsciiField.encode_isOfWork _ _).bind fun _ _ =>
      (AsciiField.encode_isOfWork _ _).bind fun _ _ => FailsWith.ok _
  unfold record?
  split
  · exact FailsWith.ok _
  · exact (FailsWith.mapM fun f _ => hdescriptor f).bind fun _ _ => FailsWith.ok _

namespace VlrRequest

/-- A request whose data cannot be decoded is a failure at work. -/
theorem record?_isOfWork (r : VlrRequest) (metadata : Option Metadata) :
    (r.record? metadata).value.FailsWith Error.IsOfWork := by
  have hdata : ∀ dataText, (r.withData dataText).FailsWith Error.IsOfWork := by
    intro dataText
    unfold withData
    split
    · exact FailsWith.ok _
    · exact FailsWith.error rfl
  unfold record?
  split
  · exact (hdata _).map _
  · exact FailsWith.ok _

/-- Requests fail at work, by the first of them that does. -/
theorem records_isOfWork (metadata : Option Metadata) (requests : List VlrRequest) :
    (records metadata requests).value.FailsWith Error.IsOfWork := by
  induction requests with
  | nil => exact FailsWith.ok _
  | cons r requests ih =>
    have hfirst := r.record?_isOfWork metadata
    simp only [records, Logged.value_bind]
    cases hrecord : (r.record? metadata).value with
    | error e => exact FailsWith.error (hfirst e hrecord)
    | ok v? => exact ih.map _

end VlrRequest

/-- The records of a file fail at work only. -/
theorem fileRecords_isOfWork (o : Options) (table : PointTable) (extra : ExtraBytes) :
    (fileRecords o table extra).value.FailsWith Error.IsOfWork := by
  have hrequested := VlrRequest.records_isOfWork table.metadata o.records
  simp only [fileRecords, Logged.value_bind]
  cases hrecords : (VlrRequest.records table.metadata o.records).value with
  | error e => exact FailsWith.error (hrequested e hrecords)
  | ok requested => exact extra.record?_isOfWork.map _

namespace Call

/-- Whether the call settles something before a file is opened. -/
def settles : Call → Bool
  | .configure _ | .prepare _ => true
  | .ready _ | .write _ | .done => false

/-- Whether the call is turned down, by what has come of it. -/
def isTurnedDown (c : Call) : Except Error Unit → Bool
  | .ok _ => false
  | .error e => e.isRefusal || c.settles

end Call

namespace Writer

variable {σ : Type} [Device σ]

/-- Opening a file that has been taken up never fails for the stage. -/
theorem ready_isOfWork (d : σ) (p : Plan) (stamp : Stamp) (source : PointTable) :
    ((Writer.mk d (.prepared p false) stamp).ready source).result.FailsWith Error.IsOfWork := by
  have hopening : (openDevice : DeviceTask σ Nat).AlwaysFailsWith Error.IsOfWork :=
    (DeviceTask.AlwaysFailsWith.operation (fun _ => rfl) _).bind fun _ =>
      DeviceTask.AlwaysFailsWith.operation (fun _ => rfl) _
  have hrecords := fileRecords_isOfWork p.options source p.encoder.extra
  have hfront : ∀ s : Session,
      (DeviceTask.storeAll s.front : DeviceTask σ Unit).AlwaysFailsWith Error.IsOfWork := by
    intro s
    refine .storeAll (fun _ => rfl) ?_
    intro piece hpiece
    simp only [Session.front, List.cons_append, List.mem_cons, List.mem_append, List.mem_map,
      List.not_mem_nil, or_false] at hpiece
    rcases hpiece with rfl | ⟨v, -, rfl⟩ | rfl
    · exact s.plan.header.bytes_isOfWork _ _ _
    · exact v.bytes_isOfWork false _
    · exact FailsWith.ok _
  intro e he
  simp only [ready] at he
  rcases hopen : openDevice.perform d with ⟨r, d₁⟩
  cases r with
  | error e' =>
    obtain rfl : e' = e := by simpa [hopen] using he
    exact hopening d e' (by rw [hopen])
  | ok start =>
    cases hvlrs : (fileRecords p.options source p.encoder.extra).value with
    | error e' =>
      obtain rfl : e' = e := by simpa [hopen, hvlrs] using he
      exact hrecords e' hvlrs
    | ok vlrs =>
      let s := Session.fresh p start (.ofList vlrs)
      rcases hstore : (DeviceTask.storeAll s.front).perform d₁ with ⟨r, d₂⟩
      simp only [s] at hstore
      cases r with
      | ok _ => simp [hopen, hvlrs, hstore] at he
      | error e' =>
        obtain rfl : e' = e := by simpa [hopen, hvlrs, hstore] using he
        exact hfront s d₁ e' (by rw [hstore])

/-- Finishing a file that is open never fails for the stage. -/
theorem finishSession_isOfWork (w : Writer σ) (s : Session) :
    (w.finishSession s).result.FailsWith Error.IsOfWork := by
  have hoperation : ∀ f : σ → Except DeviceFault Unit × σ,
      (DeviceTask.operation f).AlwaysFailsWith Error.IsOfWork :=
    fun f => .operation (fun _ => rfl) f
  have hback : (DeviceTask.storeAll s.back : DeviceTask σ Unit).AlwaysFailsWith
      Error.IsOfWork := by
    refine .storeAll (fun _ => rfl) ?_
    intro piece hpiece
    obtain ⟨v, -, rfl⟩ := List.mem_map.mp hpiece
    exact v.bytes_isOfWork true _
  have hextended : (storeExtended s : DeviceTask σ _).AlwaysFailsWith Error.IsOfWork := by
    unfold storeExtended
    split
    · exact .pure none
    · exact (DeviceTask.AlwaysFailsWith.operation (fun _ => rfl) _).bind fun _ =>
        hback.bind fun _ => .pure _
  have hfinish : (finish s : DeviceTask σ Unit).AlwaysFailsWith Error.IsOfWork :=
    hextended.bind fun extended =>
      (DeviceTask.AlwaysFailsWith.result (s.plan.header.bytes_isOfWork _ _ _)).bind fun _ =>
      (hoperation _).bind fun _ => (hoperation _).bind fun _ => (hoperation _).bind fun _ =>
      hoperation _
  intro e he
  unfold finishSession at he
  rcases hperform : (finish s).perform w.device with ⟨r, d⟩
  cases r with
  | ok _ => simp [hperform] at he
  | error e' =>
    obtain rfl : e' = e := by simpa [hperform] using he
    exact hfinish w.device e' (by rw [hperform])

/-- A call that is taken up is turned down only if it settles something. -/
theorem isOfWork_of_takes {w : Writer σ} {c : Call} (htakes : w.phase.takes c = true)
    (hsettles : c.settles = false) : (w.perform c).result.FailsWith Error.IsOfWork := by
  rcases w with ⟨d, phase, stamp⟩
  have hwrite : ∀ {s : Session}, phase.open? = some s → ∀ v,
      ((Writer.mk d phase stamp).write v).result.FailsWith Error.IsOfWork := by
    intro s hopen v
    obtain ⟨handed, -, hwrites, -⟩ := performs_taken (w := Writer.mk d phase stamp) hopen v
    intro e he
    rw [write_of_open (w := Writer.mk d phase stamp) hopen] at he
    obtain hoverflow | ⟨fault, rfl⟩ := hwrites.failure e he
    · exact .of_isOverflow hoverflow
    · rfl
  have hdone : ∀ {s : Session}, phase.open? = some s →
      (Writer.mk d phase stamp).done.result.FailsWith Error.IsOfWork := by
    intro s hopen
    rw [done_of_open (w := Writer.mk d phase stamp) hopen]
    exact finishSession_isOfWork _ s
  cases c with
  | configure o | prepare table => cases hsettles
  | ready source =>
    cases phase <;> simp [Phase.takes] at htakes
    subst htakes
    exact ready_isOfWork d _ stamp source
  | write v =>
    cases phase <;> simp [Phase.takes] at htakes <;> subst htakes <;> exact hwrite rfl v
  | done =>
    cases phase <;> simp [Phase.takes] at htakes <;> subst htakes <;> exact hdone rfl

/-- **A call that is turned down changes nothing.** -/
theorem perform_of_turnedDown {w : Writer σ} {c : Call}
    (h : c.isTurnedDown (w.perform c).result = true) : (w.perform c).writer = w := by
  cases htakes : w.phase.takes c with
  | false => rw [perform_of_not_takes htakes, refuse]
  | true =>
    cases hsettles : c.settles with
    | false =>
      have hwork := isOfWork_of_takes htakes hsettles
      cases hresult : (w.perform c).result with
      | ok _ => simp [hresult, Call.isTurnedDown] at h
      | error e =>
        have hnot : e.isRefusal = false := hwork e hresult
        simp [hresult, Call.isTurnedDown, hnot, hsettles] at h
    | true =>
      rcases w with ⟨d, phase, stamp⟩
      cases c with
      | configure o =>
        cases phase <;> simp [Phase.takes] at htakes
        simp only [perform, configure] at h ⊢
        cases hcheck : checkOptions o with
        | ok _ => simp [hcheck, Call.isTurnedDown] at h
        | error e => rfl
      | prepare table =>
        cases phase <;> simp [Phase.takes] at htakes
        simp only [perform, prepare] at h ⊢
        cases hplan : (planFor stamp _ table).value with
        | ok p => simp [hplan, Call.isTurnedDown] at h
        | error e => rfl
      | ready source | write v | done => cases hsettles

/-- What has come of calls, call by call: the result, the writer afterwards with its device, and
what was said. -/
def history (w : Writer σ) : List Call → List (Call × Outcome σ)
  | [] => []
  | c :: calls => (c, w.perform c) :: (w.perform c).writer.history calls

/-- The part of a history that is left without the calls that were turned down. -/
def withoutTurnedDown (history : List (Call × Outcome σ)) : List (Call × Outcome σ) :=
  history.filter fun made => !made.1.isTurnedDown made.2.result

/-- **Calls that are turned down leave no trace.**  Each of them leaves the writer as it was, with
its device, and if all of them are left out of the calls, exactly the same comes of each of the
others, and of all of them. -/
theorem history_without (w : Writer σ) (calls : List Call) :
    let kept := withoutTurnedDown (w.history calls)
    (∀ c : Call, c.isTurnedDown (w.perform c).result = true → (w.perform c).writer = w) ∧
      w.history (kept.map Prod.fst) = kept ∧ w.after (kept.map Prod.fst) = w.after calls := by
  intro kept
  refine ⟨fun c => perform_of_turnedDown, ?_⟩
  induction calls generalizing w with
  | nil => exact ⟨rfl, rfl⟩
  | cons c calls ih =>
    have hrest := ih (w.perform c).writer
    have hhistory : w.history (c :: calls) =
        (c, w.perform c) :: (w.perform c).writer.history calls := rfl
    simp only [kept, withoutTurnedDown, hhistory, List.filter_cons] at hrest ⊢
    cases h : c.isTurnedDown (w.perform c).result with
    | true =>
      -- the rest is made of the same writer
      have hsame := perform_of_turnedDown h
      simp only [after_cons, hsame, Bool.not_true, Bool.false_eq_true, if_false] at hrest ⊢
      exact hrest
    | false =>
      obtain ⟨hmade, hafter⟩ := hrest
      simp only [Bool.not_false, if_true, List.map_cons, history, after_cons, hmade]
      exact ⟨trivial, hafter⟩

end Writer

end PointCloud
