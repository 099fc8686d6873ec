import PointCloud.Proofs.Records.Texts
import PointCloud.Proofs.Writer.Contents
import PointCloud.Proofs.Writer.Lifecycle

/-!
# What is refused, and when

What cannot be written ought to be refused while the device is still untouched.
Options, extra dimensions and headers are: they are looked at before a device is
opened, or at the latest before the first octet is stored.  Base64 is decoded
then, and the place of the points is known to fit.

The texts of the records that were asked for are not looked at before each record
is written.  A regular record is written after the header, so it is refused when
the header and the records in front of it are in the file.  An extended record is
refused behind the points.  `RefusesLate` is that case, and
`rejected_untouched` says that it is the only one: any other call that fails
over what it was given has left the device as it was when the writer was created.

A count of points beyond 32 bits is another matter.  It is not known before the
points are written.
-/

namespace PointCloud

open Device.Reliable (Fresh Open memory)

/-- Where a header could be made, the same header with other numbers fails only if there are too
many points. -/
theorem Header.bytes_failsWith {h : Header} {first : Triple Scaling} {s : Summary} {c : Contents}
    {bytes : Octets} (hbytes : h.bytes first s c = .ok bytes) (scalings : Triple Scaling)
    (t : Summary) {contents : Contents} (hplace : contents.pointDataOffset = c.pointDataOffset) :
    (h.bytes scalings t contents).FailsWith
      fun e => ∃ version count, e = .tooManyPoints version count := by
  obtain ⟨b, hb, -⟩ := Except.map_eq_ok_iff.mp hbytes
  obtain ⟨_, _, hb⟩ := Except.bind_eq_ok_iff.mp hb
  obtain ⟨system, hsystem, hb⟩ := Except.bind_eq_ok_iff.mp hb
  obtain ⟨software, hsoftware, hb⟩ := Except.bind_eq_ok_iff.mp hb
  obtain ⟨offset, hoffset, -⟩ := Except.bind_eq_ok_iff.mp hb
  have hcount : (h.pointCount t.count).FailsWith
      fun e => ∃ version count, e = .tooManyPoints version count := by
    unfold pointCount
    split
    · exact Except.FailsWith.ok _
    · split
      · exact Except.FailsWith.ok _
      · exact Except.FailsWith.error ⟨_, _, rfl⟩
  refine (hcount.bind fun _ _ => ?_).map _
  rw [hsystem, hsoftware, hplace, hoffset]
  exact Except.FailsWith.ok _

namespace Writer

/-- A call that refuses a record only when it is about to be written, since one of its texts does
not fit.  It writes the records of that size, and the record was asked for. -/
inductive RefusesLate (granted : List Call) (p : Plan) (e : Error) : Call → Prop
  | regular {source : PointTable} {r : VlrRequest} {v : Vlr} (request : r ∈ p.options.records)
    (grants : r.Grants source.metadata (some v)) (regular : v.isLarge = false)
    (misfits : v.Misfits e) : RefusesLate granted p e (.ready source)
  | extended {source : PointTable} {r : VlrRequest} {v : Vlr} (opened : .ready source ∈ granted)
    (request : r ∈ p.options.records) (grants : r.Grants source.metadata (some v))
    (large : v.isLarge = true) (misfits : v.Misfits e) : RefusesLate granted p e .done

/-- On memory, a writer that does not get ready has left the memory alone, or has come to a record
with a text that does not fit. -/
theorem ready_eq_error {m : Memory} (hm : m.capacity = none) {p : Plan} {stamp : Stamp}
    {source : PointTable} {e : Error}
    (h : ((Writer.mk m (.prepared p false) stamp).ready source).result = .error e)
    (granted : List Call) :
    ((Writer.mk m (.prepared p false) stamp).ready source).writer.device = m ∨
      RefusesLate granted p e (.ready source) := by
  have hopening : openDevice.perform m = (.ok m.place, m) := rfl
  simp only [ready, hopening] at h ⊢
  cases hrecords : (fileRecords p.options source p.encoder.extra).value with
  | error e' => exact Or.inl rfl
  | ok vlrs =>
    let s := Session.fresh p m.place (.ofList vlrs)
    have hstore : (DeviceTask.storeAll s.front).perform m = _ :=
      DeviceTask.perform_storeAll s.front hm
    simp only [s] at hstore
    simp only [hrecords, hstore] at h ⊢
    cases hverdict : DeviceTask.verdict (Session.fresh p m.place (.ofList vlrs)).front with
    | ok _ => simp [hverdict] at h
    | error e' =>
      obtain rfl : e' = e := by simpa [hverdict] using h
      have hmem := DeviceTask.mem_of_verdict_eq_error hverdict
      simp only [Session.front, List.cons_append, List.mem_cons, List.mem_append, List.mem_map,
        List.not_mem_nil, or_false, reduceCtorEq] at hmem
      rcases hmem with hheader | ⟨v, hv, hbytes⟩
      · -- nothing stands in front of the header
        left
        rw [Session.front, ← hheader]
        rfl
      · right
        obtain ⟨hmem, hlarge⟩ := List.mem_filter.mp hv
        have hregular : v.isLarge = false := by simpa using hlarge
        have hfails := v.bytes_failsWith p.header.version.recordSignature
        rw [hregular] at hfails
        have hmisfits := hfails _ hbytes
        obtain ⟨r, hr, hgrants⟩ := exists_request_of_misfits hrecords hmem hmisfits
        exact .regular hr hgrants hregular hmisfits

/-- On memory, a file that cannot be finished has too many points, or an extended record with a
text that does not fit. -/
theorem finish_eq_error {m : Memory} (hm : m.capacity = none) {f : FileCourse} {stamp : Stamp}
    {granted : List Call} {batches : List PointView} {asked : List DeviceRequest} {s : Session}
    (hf : f.LeadsTo stamp granted batches asked s) {e : Error}
    (h : ((finish s).perform m).1 = .error e) :
    (∃ version count, e = .tooManyPoints version count) ∨ RefusesLate granted s.plan e .done := by
  obtain ⟨hplan, -, hrecords, -⟩ := hf.fixed
  rw [finish_memory s hm] at h
  cases hverdict : DeviceTask.verdict s.back with
  | error e' =>
    right
    obtain rfl : e' = e := by simpa [hverdict] using h
    obtain ⟨v, hv, hbytes⟩ := List.mem_map.mp (DeviceTask.mem_of_verdict_eq_error hverdict)
    rw [hrecords] at hv
    obtain ⟨hmem, hlarge⟩ := List.mem_filter.mp hv
    have hfails := v.bytes_failsWith s.plan.header.version.recordSignature
    rw [hlarge] at hfails
    have hmisfits := hfails _ hbytes
    obtain ⟨r, hr, hgrants⟩ := exists_request_of_misfits hf.records hmem hmisfits
    rw [hplan]
    exact .extended hf.opened hr hgrants hlarge hmisfits
  | ok _ =>
    left
    obtain ⟨first, regular, -, hfirst, -⟩ := Session.front_eq_map hf.front
    have hplace : s.pointDataOffset = f.fresh.pointDataOffset :=
      Session.pointDataOffset_congr hplan hrecords
    let contents := s.contents (s.extendedBehind (m.place - s.start))
    have hfails := Header.bytes_failsWith hfirst s.quantizer.scalings s.summary
      (show contents.pointDataOffset = _ from hplace)
    cases hheader : s.headerBytes (s.extendedBehind (m.place - s.start)) with
    | ok header => simp [hverdict, hheader] at h
    | error e' =>
      obtain rfl : e' = e := by simpa [hverdict, hheader] using h
      rw [Session.headerBytes, hplan] at hheader
      exact hfails e' hheader

variable {σ : Type} [Device σ] [Device.Reliable σ]

/-- A device that a writer has yet to acquire holds what it held. -/
theorem memory_of_prepared {stamp : Stamp} {d : σ} (hd : Fresh d) {calls : List Call} {p : Plan}
    (h : ((create stamp d).after calls).phase = .prepared p false) :
    memory ((create stamp d).after calls).device = memory d := by
  have hreached := reached stamp d calls
  rw [h] at hreached
  obtain ⟨-, -, -, -, -, -, hasked⟩ := hreached rfl
  rw [memory_after (inOrder_create stamp hd) calls, hasked]
  rfl

/-- **What is refused has not touched the device**, but for records that are refused late.  This is
every call that is no batch and fails over what it was given, after any other calls. -/
theorem rejected_untouched (stamp : Stamp) {d : σ} (hd : Fresh d) (calls : List Call) {c : Call}
    (hcall : ∀ v, c ≠ .write v) {e : Error}
    (h : (((create stamp d).after calls).perform c).result = .error e)
    (hstage : ∀ expected actual, e ≠ .wrongStage expected actual)
    (hcount : ∀ version count, e ≠ .tooManyPoints version count) :
    (memory (((create stamp d).after calls).perform c).writer.device).content =
        (memory d).content ∨
      ∃ p, ((create stamp d).after calls).phase.plan? = some p ∧
        RefusesLate ((create stamp d).granted calls) p e c := by
  let w := (create stamp d).after calls
  have horder : w.InOrder := (after_onMemory (inOrder_create stamp hd) calls).2.1
  have hm : (memory w.device).capacity = none := capacity_of_inOrder horder
  obtain ⟨hresult, hwriter, -⟩ := perform_onMemory horder c
  rw [h] at hresult
  have hdevice : memory (w.perform c).writer.device = (w.onMemory.perform c).writer.device :=
    congrArg Writer.device hwriter
  have honMemory : w.onMemory = ⟨memory w.device, w.phase, w.stamp⟩ := rfl
  have hunplanned : w.phase.plan? = none →
      (memory (w.perform c).writer.device).content = (memory d).content := by
    intro hnone
    rw [(perform_of_no_plan hnone c).2, (after_of_no_plan hnone).2]
    rfl
  have hstep := w.perform_step c
  rw [h] at hstep
  generalize hphase : w.phase = phase at hstep
  generalize w.asked c = more at hstep
  generalize (w.perform c).writer.phase = after at hstep
  cases hstep with
  | refused untaken => exact absurd rfl (hstage _ _)
  | notConfigured check | notPrepared plan => exact Or.inl (hunplanned (by rw [hphase]; rfl))
  | @notOpened p source more _ once =>
    rw [honMemory, hphase] at hresult hdevice
    obtain hsame | hlate := ready_eq_error hm hresult.symm _
    · left
      rw [hdevice, ← memory_of_prepared hd hphase]
      exact congrArg Memory.content hsame
    · exact Or.inr ⟨p, rfl, hlate⟩
  | wrote isOpen writes => exact absurd rfl (hcall _)
  | @notFinished _ s more _ isOpen never =>
    have hreached := reached stamp d calls
    rw [show ((create stamp d).after calls).phase = phase from hphase] at hreached
    obtain ⟨f, hf⟩ := hreached.of_open isOpen
    have hfails : ((finish s).perform (memory w.device)).1 = .error e :=
      (done_onMemory_of_open horder (hphase ▸ isOpen)).1.symm.trans h
    obtain ⟨version, count, rfl⟩ | hlate := finish_eq_error hm hf hfails
    · exact absurd rfl (hcount version count)
    · right
      refine ⟨s.plan, ?_, hlate⟩
      rw [← hphase]
      exact plan?_of_open (hphase ▸ isOpen)

end Writer

/-- Calls up to the opening of a file with one record. -/
def Call.requesting (r : VlrRequest) : List Call :=
  [.configure { Options.usual with records := [r] }, .prepare .coordinates]

namespace Writer

/-- Data that is not base64 is refused with the memory as it was. -/
theorem rejected_untouched_unreadable :
    let w := (create .blank (Memory.unlimited [7] 0)).after
      (Call.requesting ⟨"origins", 1, "", "AAEC*", false⟩)
    let opened := w.perform (.ready .coordinates)
    opened.result = .error (.base64 "origins" 1 (.symbol 4 42)) ∧
      opened.writer.device.content = [7] := by
  intro w opened
  have hresult : opened.result = .error (.base64 "origins" 1 (.symbol 4 42)) := by decide +kernel
  refine ⟨hresult, ?_⟩
  obtain hsame | ⟨p, -, hlate⟩ := rejected_untouched .blank (Memory.fresh_unlimited [7] 0) _
    (fun _ => by simp) hresult (by simp) (by simp)
  · exact hsame
  · -- no text is refused for base64
    have hencode : ∀ (width : Nat) (s : String),
        AsciiField.encode width s ≠ .error (.base64 "origins" 1 (.symbol 4 42)) := by
      intro width s
      unfold AsciiField.encode
      split
      · simp
      · split <;> simp
    cases hlate with
    | regular request grants regular misfits =>
      obtain huser | hdescription := misfits
      · exact absurd huser (hencode _ _)
      · exact absurd hdescription (hencode _ _)

/-- A user identifier with a letter too many is refused with the header in the memory. -/
theorem rejected_late_overlong :
    let w := (create .blank (Memory.unlimited [7] 0)).after
      (Call.requesting ⟨"seventeen letters", 1, "", "AAEC", false⟩)
    let opened := w.perform (.ready .coordinates)
    opened.result = .error (.textTooLong "seventeen letters" 16) ∧
      opened.writer.device.content.length = 227 := by
  decide +kernel

end Writer

end PointCloud
