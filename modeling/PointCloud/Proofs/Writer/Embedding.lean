import PointCloud.Proofs.Writer.Contents
import PointCloud.Proofs.Writer.Tallies

/-!
# Files in the middle of memory

A file may follow other data in the same memory, or be written over it.  All
places that it holds count from its own beginning, and the writer moves nowhere
but to places that it has come to know by asking.  So where the memory stands
when the writer is created makes no difference to the file.

`Memory.within` puts a block of memory into the middle of other content.  Storing
in the block and then putting it there is storing there, `put_within`, as long as
the block has no gap before its place.  `perform_within` says the same of every
call to a writer, and `after_within` of a run: a writer in the middle of memory
is the writer at the beginning of empty memory, moved.
-/

namespace PointCloud

namespace Memory

/-- A block of memory in the middle of other content, from a place on. -/
def within (content : Octets) (start : Nat) (m : Memory) : Memory :=
  ⟨overwrite content start m.content, start + m.place, none⟩

/-- Writing over a part of a piece that stands somewhere is writing over it where it stands. -/
theorem overwrite_overwrite (content inner bytes : Octets) (start : Nat) {place : Nat}
    (h : place ≤ inner.length) :
    overwrite (overwrite content start inner) (start + place) bytes =
      overwrite content start (overwrite inner place bytes) := by
  have hfront : reach (overwrite content start inner) (start + place) =
      reach content start ++ inner.take place := by
    have hle := length_le_overwrite content start inner
    have hzero : start + place - (overwrite content start inner).length = 0 := by omega
    have htake : start + place = (reach content start).length + place := by simp
    rw [reach, hzero, overwrite_eq_reach, htake, List.take_length_add_append,
      List.take_append_of_le_length h]
    simp
  have hinner : reach inner place = inner.take place := by
    have hzero : place - inner.length = 0 := by omega
    simp [reach, hzero]
  have hback : (overwrite content start inner).drop (start + place + bytes.length) =
      inner.drop (place + bytes.length) ++
        content.drop (start + (overwrite inner place bytes).length) := by
    have hlength : (overwrite inner place bytes).length =
        max inner.length (place + bytes.length) := by
      rw [overwrite_eq_reach, hinner]
      simp only [List.length_append, List.length_take, List.length_drop]
      omega
    rw [Nat.add_assoc, ← List.drop_drop, drop_overwrite, List.drop_append, List.drop_drop, hlength]
    congr 2
    omega
  rw [overwrite_eq_reach, hfront, hback, overwrite_eq_reach content start, overwrite_eq_reach inner,
    hinner]
  simp only [List.append_assoc]

/-- Octets are put to the same place of the file in the middle of other content. -/
theorem put_within (content : Octets) (start : Nat) {m : Memory} (hm : m.capacity = none)
    (hplace : m.place ≤ m.content.length) (bytes : Octets) :
    (m.within content start).put bytes = (m.put bytes).within content start := by
  by_cases hbytes : bytes = []
  · simp [hbytes]
  · rw [put_eq hbytes rfl, put_eq hbytes hm]
    simp only [within, overwrite_overwrite content m.content bytes start hplace, Nat.add_assoc]

/-- Going to a place of the file is going so far behind its start. -/
theorem seek_within (content : Octets) (start place : Nat) (m : Memory) :
    (m.within content start).seek (start + place) = (m.seek place).within content start := rfl

/-- Storing leaves the memory at a place in its content or at its end. -/
theorem place_put_le {m : Memory} (h : m.place ≤ m.content.length) (bytes : Octets) :
    (m.put bytes).place ≤ (m.put bytes).content.length := by
  unfold put
  split
  · exact h
  · exact length_le_overwrite m.content m.place bytes

/-- Memory that stands within its content is an empty block put there. -/
theorem within_empty {content : Octets} {place : Nat} (h : place ≤ content.length) :
    (unlimited [] 0).within content place = unlimited content place := by
  have hzero : place - content.length = 0 := by omega
  simp [within, unlimited, overwrite, hzero]

end Memory

namespace Session

/-- The session of a file that stands further behind. -/
def movedBy (start : Nat) (s : Session) : Session := { s with start := start + s.start }

/-- The offsets do not depend on where the file stands. -/
theorem settle_movedBy (start : Nat) (s : Session) (v : PointView) :
    (s.movedBy start).settle v = (s.settle v).movedBy start := by
  by_cases h : s.settled = true
  · simp [settle, movedBy, h]
  · simp [settle, movedBy, h, extent]

/-- A batch is written alike wherever the file stands. -/
theorem write_within (content : Octets) (start : Nat) (s : Session) (v : PointView) {m : Memory}
    (hm : m.capacity = none) (hplace : m.place ≤ m.content.length) :
    let progress := s.write v m
    (s.movedBy start).write v (m.within content start) =
        ⟨progress.result, progress.session.movedBy start, progress.device.within content start,
          progress.log⟩ ∧
      progress.device.place ≤ progress.device.content.length := by
  unfold write
  by_cases hsize : v.size = 0
  · simp only [hsize, if_true]
    exact ⟨trivial, hplace⟩
  · have hcapacity : (m.within content start).capacity = none := rfl
    have hput := Memory.put_within content start hm hplace
    simp only [hsize, if_false, settle_movedBy, writeChunks_memory _ v _ hm,
      writeChunks_memory _ v _ hcapacity, hput]
    exact ⟨rfl, Memory.place_put_le hplace _⟩

end Session

namespace Writer

/-- The writer in the middle of other content. -/
def within (content : Octets) (start : Nat) (w : Writer Memory) : Writer Memory :=
  ⟨w.device.within content start, w.phase.mapSession (·.movedBy start), w.stamp⟩

end Writer

/-- What has come of a step, in the middle of other content. -/
def Outcome.within (content : Octets) (start : Nat) (o : Outcome Memory) : Outcome Memory :=
  ⟨o.result, o.writer.within content start, o.log⟩

namespace Writer

/-- Whether the memory stands within its content or at its end, unless all is done. -/
def Seated (w : Writer Memory) : Prop :=
  w.stage ≠ .done → w.device.place ≤ w.device.content.length

/-- A step comes to the same in the middle of other content, and can be followed by another. -/
def Moves (content : Octets) (start : Nat) (o moved : Outcome Memory) : Prop :=
  moved = o.within content start ∧ o.writer.Seated

variable (content : Octets) (start : Nat)

/-- A call that is refused is refused anywhere. -/
theorem moves_refuse {w : Writer Memory} (h : w.Seated) (expected : Stage) :
    Moves content start (w.refuse expected) ((w.within content start).refuse expected) := by
  refine ⟨?_, h⟩
  rcases w with ⟨m, phase, stamp⟩
  cases phase <;> rfl

/-- A file is opened alike anywhere. -/
theorem moves_ready {m : Memory} (hm : m.capacity = none) (hplace : m.place ≤ m.content.length)
    (p : Plan) (stamp : Stamp) (source : PointTable) :
    let w : Writer Memory := ⟨m, .prepared p false, stamp⟩
    Moves content start (w.ready source) ((w.within content start).ready source) := by
  intro w
  have hopening : openDevice.perform m = (.ok m.place, m) := rfl
  have hopening' : openDevice.perform (m.within content start) =
      (.ok (start + m.place), m.within content start) := rfl
  have hput := Memory.put_within content start hm hplace
  simp only [w, within, Phase.mapSession, ready, hopening, hopening']
  cases (fileRecords p.options source p.encoder.extra).value with
  | error e => exact ⟨rfl, fun _ => hplace⟩
  | ok vlrs =>
    let s := Session.fresh p m.place (.ofList vlrs)
    have hstore := DeviceTask.perform_storeAll s.front hm
    have hstore' := DeviceTask.perform_storeAll (s.movedBy start).front
      (m := m.within content start) rfl
    have hfront : (s.movedBy start).front = s.front := rfl
    have hmoved : Session.fresh p (start + m.place) (.ofList vlrs) = s.movedBy start := rfl
    rw [hfront, hput] at hstore'
    simp only [hmoved, hfront]
    simp only [s] at hstore hstore' ⊢
    simp only [hstore, hstore']
    cases DeviceTask.verdict (Session.fresh p m.place (.ofList vlrs)).front with
    | error e => exact ⟨rfl, fun _ => Memory.place_put_le hplace _⟩
    | ok _ => exact ⟨rfl, fun _ => Memory.place_put_le hplace _⟩

/-- A file is finished alike wherever it stands. -/
theorem finish_within (s : Session) {m : Memory} (hm : m.capacity = none)
    (hplace : m.place ≤ m.content.length) (hstart : s.start = 0) :
    (finish (s.movedBy start)).perform (m.within content start) =
        (((finish s).perform m).1, ((finish s).perform m).2.within content start) ∧
      ∀ e, ((finish s).perform m).1 = .error e →
        ((finish s).perform m).2.place ≤ ((finish s).perform m).2.content.length := by
  let stored := m.put (DeviceTask.leading s.back)
  have hstored : stored.capacity = none := by simpa [stored] using hm
  have hput : (m.within content start).put (DeviceTask.leading s.back) =
      stored.within content start := Memory.put_within content start hm hplace _
  have hback : (s.movedBy start).back = s.back := rfl
  have hheader : (s.movedBy start).headerBytes = s.headerBytes := rfl
  have hbehind : (s.movedBy start).extendedBehind
      ((m.within content start).place - (s.movedBy start).start) =
        s.extendedBehind (m.place - s.start) := by
    have hplaces : start + m.place - (start + s.start) = m.place - s.start :=
      Nat.add_sub_add_left start m.place s.start
    exact congrArg s.extendedBehind hplaces
  rw [finish_memory s hm, finish_memory (s.movedBy start) rfl, hback, hheader, hbehind, hput]
  cases DeviceTask.verdict s.back with
  | error e => exact ⟨rfl, fun _ _ => Memory.place_put_le hplace _⟩
  | ok _ =>
    cases s.headerBytes (s.extendedBehind (m.place - s.start)) with
    | error e => exact ⟨rfl, fun _ _ => Memory.place_put_le hplace _⟩
    | ok header =>
      -- the header goes to the beginning of the block, where no gap can be
      have hseek : (stored.within content start).seek (s.movedBy start).start =
          (stored.seek s.start).within content start := rfl
      have hover := Memory.put_within content start (m := stored.seek s.start) hstored
        (by simp [Memory.seek, hstart]) header
      have hpoints : (s.movedBy start).start + (s.movedBy start).pointDataOffset =
          start + (s.start + s.pointDataOffset) := Nat.add_assoc _ _ _
      simp only [stored] at hseek hover ⊢
      simp only [hseek, hover, hpoints, Memory.seek_within]
      exact ⟨trivial, by simp⟩

/-- A file is finished alike anywhere. -/
theorem moves_finishSession {w : Writer Memory} {s : Session} (hopen : w.phase.open? = some s)
    (hm : w.device.capacity = none) (hplace : w.device.place ≤ w.device.content.length)
    (hstart : s.start = 0) :
    Moves content start (w.finishSession s)
      ((w.within content start).finishSession (s.movedBy start)) := by
  obtain ⟨hfinish, hseated⟩ :=
    finish_within content start s hm hplace hstart
  have hdevice : (w.within content start).device = w.device.within content start := rfl
  rw [finishSession, finishSession, hdevice, hfinish]
  rcases hperform : (finish s).perform w.device with ⟨r, m⟩
  rw [hperform] at hseated
  rcases w with ⟨d, phase, stamp⟩
  cases r with
  | ok _ => exact ⟨rfl, fun hnot => absurd rfl hnot⟩
  | error e =>
    refine ⟨?_, fun _ => hseated e rfl⟩
    obtain rfl | rfl := Phase.eq_of_open? hopen <;> rfl

/-- A batch is written alike anywhere. -/
theorem moves_writeBatch {w : Writer Memory} {s : Session} (hm : w.device.capacity = none)
    (hplace : w.device.place ≤ w.device.content.length) (v : PointView) :
    Moves content start (w.writeBatch s v)
      ((w.within content start).writeBatch (s.movedBy start) v) := by
  obtain ⟨hwrite, hseated⟩ := s.write_within content start v hm hplace
  have hdevice : (w.within content start).device = w.device.within content start := rfl
  refine ⟨?_, fun _ => hseated⟩
  rw [writeBatch, writeBatch, hdevice, hwrite]
  rfl

/-- **Every call comes to the same in the middle of other content.** -/
theorem perform_within {w : Writer Memory} (hm : w.device.capacity = none)
    (hstands : w.StandsAt 0) (hseated : w.Seated) (c : Call) :
    Moves content start (w.perform c) ((w.within content start).perform c) := by
  cases htakes : w.phase.takes c with
  | false =>
    have htakes' : (w.within content start).phase.takes c = false := by
      rcases w with ⟨m, phase, stamp⟩
      rw [← htakes]
      cases phase <;> cases c <;> rfl
    rw [perform_of_not_takes htakes, perform_of_not_takes htakes']
    exact moves_refuse content start hseated c.expected
  | true =>
    rcases w with ⟨m, phase, stamp⟩
    cases c with
    | configure o =>
      cases phase <;> simp [Phase.takes] at htakes
      unfold Moves
      simp only [perform, configure, within, Phase.mapSession]
      cases checkOptions o <;> exact ⟨rfl, fun _ => hseated (by simp [stage, Phase.stage])⟩
    | prepare table =>
      cases phase <;> simp [Phase.takes] at htakes
      next o =>
        unfold Moves
        simp only [perform, prepare, within, Phase.mapSession]
        cases (planFor stamp o table).value <;>
          exact ⟨rfl, fun _ => hseated (by simp [stage, Phase.stage])⟩
    | ready source =>
      cases phase <;> simp [Phase.takes] at htakes
      subst htakes
      exact moves_ready content start hm (hseated (by simp [stage, Phase.stage])) _ stamp source
    | write v =>
      cases phase <;> simp [Phase.takes] at htakes <;> subst htakes <;>
        exact moves_writeBatch content start hm (hseated (by simp [stage, Phase.stage])) v
    | done =>
      cases phase <;> simp [Phase.takes] at htakes <;> subst htakes <;>
        exact moves_finishSession content start rfl hm (hseated (by simp [stage, Phase.stage]))
          hstands

/-- Calls come to the same in the middle of other content, one after the other. -/
theorem after_within_eq {w : Writer Memory} (hm : w.device.capacity = none)
    (hstands : w.StandsAt 0) (hseated : w.Seated) (calls : List Call) :
    (w.within content start).after calls = (w.after calls).within content start ∧
      (w.within content start).results calls = w.results calls := by
  induction calls generalizing w with
  | nil => exact ⟨rfl, rfl⟩
  | cons c calls ih =>
    obtain ⟨hmoved, hnext⟩ := perform_within content start hm hstands hseated c
    obtain ⟨-, -, horder⟩ := perform_onMemory (w := w) (by unfold InOrder; split <;> exact hm) c
    obtain ⟨hafter, hresults⟩ :=
      ih (capacity_of_inOrder horder) (standsAt_perform hm hstands c) hnext
    rw [after_cons, results_cons, results_cons, hmoved]
    exact ⟨hafter, congrArg _ hresults⟩

/-- A writer says the same of itself anywhere. -/
theorem seen_within (w : Writer Memory) :
    (w.within content start).stage = w.stage ∧ (w.within content start).header? = w.header? ∧
      (w.within content start).summary? = w.summary? := by
  rcases w with ⟨m, phase, stamp⟩
  cases phase <;> exact ⟨rfl, rfl, rfl⟩

/-- **Where the memory stands makes no difference to a file.**  Calls have the results that they
have on empty memory, and what is left there stands over the content from that place on; in front
of it and behind it nothing changes. -/
theorem after_within (stamp : Stamp) {content : Octets} {place : Nat}
    (h : place ≤ content.length) (calls : List Call) :
    let first := create stamp (Memory.unlimited [] 0)
    let moved := create stamp (Memory.unlimited content place)
    let file := (first.after calls).device.content
    moved.results calls = first.results calls ∧
      (moved.after calls).device.content =
        content.take place ++ file ++ content.drop (place + file.length) ∧
      (moved.after calls).device.place = place + (first.after calls).device.place ∧
      (moved.after calls).stage = (first.after calls).stage ∧
      (moved.after calls).header? = (first.after calls).header? ∧
      (moved.after calls).summary? = (first.after calls).summary? := by
  intro first moved file
  have hmoved : moved = first.within content place := by
    have hdevice := Memory.within_empty h
    rw [within, show first.device.within content place = _ from hdevice]
    rfl
  have hstands : first.StandsAt 0 := rfl
  have hseated : first.Seated := fun _ => Nat.le_refl 0
  obtain ⟨hafter, hresults⟩ :=
    after_within_eq content place (w := first) rfl hstands hseated calls
  rw [hmoved, hafter]
  refine ⟨hresults, ?_, rfl, seen_within content place _⟩
  have hzero : place - content.length = 0 := by omega
  show Memory.overwrite content place file = _
  simp [Memory.overwrite, hzero]

end Writer

/-- Calls for a file of one point at the origin. -/
def Call.single : List Call :=
  [.configure .usual, .prepare .coordinates, .ready .coordinates, .write (.origins 1), .done]

namespace Writer

/-- A file of 261 octets behind one of 300 sevens leaves the first and the last 38 of them. -/
theorem after_within_sevens :
    1 ≤ (List.replicate 300 (7 : UInt8)).length ∧
      let moved := (create .blank (Memory.unlimited (List.replicate 300 7) 1)).after Call.single
      moved.stage = .done ∧ moved.device.content.take 1 = [7] ∧
        moved.device.content.drop 262 = List.replicate 38 7 ∧ moved.device.place = 228 := by
  have hle : 1 ≤ (List.replicate 300 (7 : UInt8)).length := by
    rw [List.length_replicate]
    omega
  obtain ⟨-, hcontent, hplace, hstage, -, -⟩ := after_within .blank hle Call.single
  have hfile : ((create .blank (Memory.unlimited [] 0)).after Call.single).stage = .done ∧
      ((create .blank (Memory.unlimited [] 0)).after Call.single).device.place = 227 ∧
      ((create .blank (Memory.unlimited [] 0)).after Call.single).device.content.length = 261 := by
    decide +kernel
  obtain ⟨hdone, hpoints, hlength⟩ := hfile
  refine ⟨hle, hstage.trans hdone, ?_, ?_, ?_⟩
  · rw [hcontent, List.append_assoc]
    exact List.take_left' (List.length_take.trans (Nat.min_eq_left hle))
  · rw [hcontent, hlength, List.drop_replicate]
    refine List.drop_left' ?_
    rw [List.length_append, hlength, List.length_take, Nat.min_eq_left hle]
  · rw [hplace, hpoints]

end Writer

end PointCloud
