import PointCloud.Proofs.Header.Revision
import PointCloud.Proofs.Writer.Continuing

/-!
# A header that is written twice

When a file is opened its header is written for a file without points, and when
it is finished the header is made again and written over the first one.  Nothing
else of a file is ever written a second time.

`FileCourse.Rewrites` compares the memory of an open file, at any time, with that
of the finished file.  The two headers are of equal length and differ in what
only becomes known in between; behind the header, all that the open file has is
there in the finished file.  `Writer.rewritten` says so of every file that is
finished on a device that does not fail, and that later calls leave it alone.
-/

namespace PointCloud

open Device.Reliable (Fresh memory)

namespace Memory

/-- What has been stored at a place is found behind it. -/
theorem getElem?_overwrite (content : Octets) (place : Nat) {bytes : Octets} {i : Nat}
    (hi : i < bytes.length) : (overwrite content place bytes)[place + i]? = bytes[i]? := by
  rw [← List.getElem?_drop, drop_overwrite, List.getElem?_append_left hi]

end Memory

namespace Writer

variable {σ : Type} [Device σ]

/-- Requests of calls that follow calls follow theirs. -/
theorem requests_append (w : Writer σ) (calls more : List Call) :
    w.requests (calls ++ more) = w.requests calls ++ (w.after calls).requests more := by
  induction calls generalizing w with
  | nil => rfl
  | cons c calls ih =>
    rw [List.cons_append, requests_cons, requests_cons, ih, List.append_assoc]
    rfl

end Writer

/-- The pieces of an open file: another header, some of the points, and nothing behind them. -/
def FileParts.opened (parts : FileParts) (first : HeaderBlock) (n : Nat) : FileParts :=
  { parts with header := first, points := parts.points.take n, extended := [] }

/-- Behind the header the finished file has all that the open file has. -/
theorem FileParts.getElem?_opened (parts : FileParts) {first : HeaderBlock}
    (hlength : parts.header.bytes.length = first.bytes.length) {n i : Nat}
    (low : first.bytes.length ≤ i) (high : i < (parts.opened first n).bytes.length) :
    parts.bytes[i]? = (parts.opened first n).bytes[i]? := by
  let body := parts.regular.flatten ++ parts.mark ++ Session.recordsOf (parts.points.take n)
  let rest := Session.recordsOf (parts.points.drop n) ++ parts.extended.flatten
  have hopened : (parts.opened first n).bytes = first.bytes ++ body := by
    simp [FileParts.bytes, FileParts.front, FileParts.pointBytes, opened, body]
  have hpoints : parts.pointBytes = Session.recordsOf (parts.points.take n) ++
      Session.recordsOf (parts.points.drop n) := by
    rw [FileParts.pointBytes, Session.recordsOf, Session.recordsOf, Session.recordsOf,
      ← List.flatMap_append, List.take_append_drop]
  have hfinished : parts.bytes = parts.header.bytes ++ (body ++ rest) := by
    simp only [FileParts.bytes, FileParts.front, hpoints, body, rest, List.append_assoc]
  rw [hopened, List.length_append] at high
  rw [hopened, hfinished, List.getElem?_append_right (by omega), List.getElem?_append_right low,
    hlength, List.getElem?_append_left (by omega)]

/-- A file that has been opened is not empty. -/
theorem FileParts.bytes_opened_ne_nil (parts : FileParts) (first : HeaderBlock) (n : Nat) :
    (parts.opened first n).bytes ≠ [] := by
  intro hnil
  have hpos := first.version.headerSize_pos
  have hsize := first.length_bytes
  have hle := congrArg List.length hnil
  simp only [FileParts.bytes, FileParts.front, FileParts.opened, List.length_append,
    List.length_nil] at hle
  omega

/-- Wherever the two are stored, the memory behind the header is the same as far as the open file
goes. -/
theorem FileParts.getElem?_overwrite_opened (parts : FileParts) {first : HeaderBlock}
    (hlength : parts.header.bytes.length = first.bytes.length) {n i : Nat} (content : Octets)
    (place : Nat) (low : place + first.bytes.length ≤ i)
    (high : i < place + (parts.opened first n).bytes.length) :
    (Memory.overwrite content place parts.bytes)[i]? =
      (Memory.overwrite content place (parts.opened first n).bytes)[i]? := by
  obtain ⟨j, rfl⟩ := Nat.exists_eq_add_of_le (Nat.le_trans (Nat.le_add_right _ _) low)
  have hbehind : first.bytes.length ≤ j := Nat.le_of_add_le_add_left low
  have hopened : j < (parts.opened first n).bytes.length := Nat.lt_of_add_lt_add_left high
  have hsame := parts.getElem?_opened hlength hbehind hopened
  have hfinished : j < parts.bytes.length := by
    by_contra hout
    rw [List.getElem?_eq_none (by omega), eq_comm, List.getElem?_eq_none_iff] at hsame
    omega
  rw [Memory.getElem?_overwrite _ _ hfinished, Memory.getElem?_overwrite _ _ hopened, hsame]

/-- How the memory of an open file compares with that of the finished file, given the memory that
the file was opened on, the header it was opened with, and the pieces of the finished file. -/
structure FileCourse.Rewrites (f : FileCourse) (origin early late : Memory) (first : HeaderBlock)
    (parts : FileParts) : Prop where
  opening : f.fresh.headerBytes none = .ok first.bytes
  opened : ∃ n, early.content =
      Memory.overwrite origin.content origin.place (parts.opened first n).bytes ∧
    early.place = origin.place + (parts.opened first n).bytes.length
  finished : late.content = Memory.overwrite origin.content origin.place parts.bytes
  length_header : parts.header.bytes.length = first.bytes.length
  revised : first.RevisedTo f.options.offset parts.header
  differ : ∀ i, first.bytes[i]? ≠ parts.header.bytes[i]? →
    HeaderBlock.Revisable f.options.offset first.version i
  kept : ∀ i, origin.place + first.bytes.length ≤ i → i < early.place →
    late.content[i]? = early.content[i]?

namespace FileCourse

variable {f : FileCourse} {stamp : Stamp} {granted : List Call} {batches : List PointView}
  {asked : List DeviceRequest} {s : Session} {parts : FileParts}

/-- The scalings of a session differ from those of the opening in chosen offsets only. -/
theorem LeadsTo.scaling_fresh (h : f.LeadsTo stamp granted batches asked s) (axis : Axis) :
    (s.quantizer.scalings.get axis).scale = (f.fresh.quantizer.scalings.get axis).scale ∧
      (f.options.offset.get axis ≠ .automatic →
        (s.quantizer.scalings.get axis).offset = (f.fresh.quantizer.scalings.get axis).offset) := by
  have hfresh : f.fresh.quantizer = .configured f.options.scale f.options.offset := by
    rw [← (Writer.planFor_eq_ok h.plan).options]
    rfl
  rw [h.scaling axis, hfresh, Quantizer.scaling_configured]
  refine ⟨rfl, ?_⟩
  intro hchosen
  cases hchoice : f.options.offset.get axis with
  | value offset => rfl
  | automatic => exact absurd hchoice hchosen

/-- **The header of a finished file is a revision of the one that the file was opened with.** -/
theorem Finishes.revised (h : f.Finishes stamp granted batches asked s parts) :
    ∃ first : HeaderBlock, f.fresh.headerBytes none = .ok first.bytes ∧
      f.front = first.bytes :: (parts.regular ++ [parts.mark]) ∧
      parts.header.bytes.length = first.bytes.length ∧
      first.version.isSupported = true ∧ first.RevisedTo f.options.offset parts.header := by
  obtain ⟨hplan, -, hrecords, -⟩ := h.course.fixed
  obtain ⟨bytes, hfront, hlength⟩ := h.front
  obtain ⟨bytes', regular, hpieces, hfirst, -⟩ := Session.front_eq_map h.course.front
  rw [hfront] at hpieces
  obtain rfl : bytes = bytes' := (List.cons.inj hpieces).1
  obtain ⟨first, hblock, rfl, -⟩ := Session.headerBytes_eq_ok hfirst
  obtain ⟨length, hlast⟩ := h.header
  rw [hplan] at hlast
  obtain ⟨-, -, hversion, -⟩ := Header.block_eq_ok hblock
  refine ⟨first, hfirst, hfront, hlength.symm, ?_, ?_⟩
  · rw [hversion]
    exact (Writer.planFor_eq_ok h.course.plan).version_isSupported
  · refine Header.revisedTo_of_block hblock hlast ?_ ?_ ?_ ?_
    · exact Session.pointDataOffset_congr hplan hrecords
    · exact congrArg (·.regular.length) hrecords
    · exact fun axis => (h.course.scaling_fresh axis).1
    · exact fun axis => (h.course.scaling_fresh axis).2

end FileCourse

namespace Writer

variable {σ : Type} [Device σ]

/-- A file that is finished was finished by the first call that asked for it: what has led to the
open file leads on to it. -/
theorem exists_finishes {stamp : Stamp} {d : σ} {before behind : List Call} {t : Session}
    (hopen : ((create stamp d).after before).phase.open? = some t)
    (hdone : ((create stamp d).after (before ++ behind)).done.result = .ok ()) :
    ∃ (f : FileCourse) (granted : List Call) (batches : List PointView)
      (handed : List (List EncodedPoint)) (s : Session) (parts : FileParts),
      f.LeadsTo stamp ((create stamp d).granted before) ((create stamp d).batches before)
        ((create stamp d).requests before) t ∧
      ((create stamp d).after (before ++ behind ++ [.done])).phase = .done s ∧
      (f.handing handed).Finishes stamp granted batches
        ((create stamp d).requests (before ++ behind ++ [.done])) s parts := by
  let w := (create stamp d).after before
  obtain ⟨f, hf⟩ := (reached stamp d before).of_open hopen
  rw [after_append] at hdone
  obtain ⟨handed, s, hopen', hleads⟩ := hf.after hopen (hf.not_mem_done hopen hdone)
  have hperform : ∀ w : Writer σ, w.perform .done = w.done := fun _ => rfl
  have hstep := (w.after behind).perform_step .done
  rw [hperform, hdone] at hstep
  generalize hmore : (w.after behind).asked .done = more at hstep
  generalize hphase : (w.after behind).done.writer.phase = phase at hstep
  generalize (w.after behind).phase = earlier at hstep hopen'
  cases hstep with
  | @finished _ u pieces length bytes isOpen back header =>
    obtain rfl : u = s := Option.some.inj (isOpen.symm.trans hopen')
    obtain ⟨parts, hfinishes⟩ := hleads.finishes back header
    have hrequests : (create stamp d).requests (before ++ behind ++ [.done]) =
        (create stamp d).requests before ++ w.requests behind ++ u.closing pieces bytes := by
      rw [requests_append, requests_append, after_append, requests_cons, hmore, requests_nil,
        List.append_nil]
    have hdone' : ((create stamp d).after (before ++ behind ++ [.done])).phase = .done u := by
      rw [after_append, after_append]
      exact hphase
    rw [← hrequests] at hfinishes
    exact ⟨f, _, _, handed, u, parts, hf, hdone', hfinishes⟩

variable [Device.Reliable σ]

/-- What an open file has in memory: its opening, and the records that have been handed over. -/
theorem memory_of_leadsTo {stamp : Stamp} {d : σ} (hd : Fresh d) {calls : List Call}
    {f : FileCourse} {granted : List Call} {batches : List PointView} {s : Session}
    (h : f.LeadsTo stamp granted batches ((create stamp d).requests calls) s) :
    memory ((create stamp d).after calls).device =
      (memory d).put (f.front.flatten ++ Session.recordsOf f.handed.flatten) := by
  rw [memory_after (inOrder_create stamp hd) calls, h.asked, FileCourse.replay_requests]
  rfl

/-- A finished file stays in memory as it is. -/
theorem memory_of_finished {stamp : Stamp} {d : σ} (hd : Fresh d) {calls : List Call} {s : Session}
    (hphase : ((create stamp d).after calls).phase = .done s) {f : FileCourse} {parts : FileParts}
    {granted : List Call} {batches : List PointView}
    (h : f.Finishes stamp granted batches ((create stamp d).requests calls) s parts)
    (more : List Call) :
    (memory (((create stamp d).after calls).after more).device).content =
      Memory.overwrite (memory d).content (memory d).place parts.bytes := by
  have hnever : ∀ c, ((create stamp d).after calls).phase.takes c = false := by
    intro c
    rw [hphase]
    cases c <;> rfl
  rw [(after_of_not_takes hnever more).1, memory_of_finishes hd hphase h]

/-- **Nothing of a file but its header is ever written again.**  The calls in front have left the
file open, with the others it is finished, and any calls may follow; the device does not fail. -/
theorem rewritten (stamp : Stamp) {d : σ} (hd : Fresh d) (before behind : List Call)
    {t : Session} (hopen : ((create stamp d).after before).phase.open? = some t)
    (hdone : ((create stamp d).after (before ++ behind)).done.result = .ok ()) :
    let finished := ((create stamp d).after (before ++ behind)).done.writer
    ∃ (f : FileCourse) (first : HeaderBlock) (parts : FileParts),
      .configure f.options ∈ (create stamp d).granted before ∧
      .ready f.source ∈ (create stamp d).granted before ∧
      ∀ more, f.Rewrites (memory d) (memory ((create stamp d).after before).device)
        (memory (finished.after more).device) first parts := by
  intro finished
  obtain ⟨f, granted, batches, handed, s, parts, hf, hphase, hfinishes⟩ :=
    exists_finishes hopen hdone
  obtain ⟨first, hopening, hfront, hlength, hsupported, hrevised⟩ := hfinishes.revised
  let opened := (parts.opened first f.handed.flatten.length).bytes
  -- what is stored by now is the file with as many of its points
  have hstored : f.front.flatten ++ Session.recordsOf f.handed.flatten = opened := by
    have hpieces : f.front = first.bytes :: (parts.regular ++ [parts.mark]) := hfront
    have hpoints : parts.points = f.handed.flatten ++ handed.flatten := by
      rw [hfinishes.points]
      exact List.flatten_append
    simp [opened, FileParts.bytes, FileParts.front, FileParts.pointBytes, FileParts.opened, hpieces,
      hpoints]
  have hm : (memory d).capacity = none := capacity_of_inOrder (inOrder_create stamp hd)
  have hearly := memory_of_leadsTo hd hf
  rw [hstored, Memory.put_eq (parts.bytes_opened_ne_nil first _) hm] at hearly
  have hfinished : (create stamp d).after (before ++ behind ++ [.done]) = finished := by
    rw [after_append]
    rfl
  refine ⟨f, first, parts, hf.configured, hf.opened, fun more => ?_⟩
  have hlate := memory_of_finished hd hphase hfinishes more
  rw [hfinished] at hlate
  rw [hearly]
  refine {
    opening := hopening
    opened := ⟨_, rfl, rfl⟩
    finished := hlate
    length_header := hlength
    revised := hrevised
    differ := ?_
    kept := ?_ }
  · intro i hne
    have hplace := (hrevised.bytes hsupported).places i hne
    rwa [Nat.zero_add] at hplace
  · intro i low high
    rw [hlate]
    exact parts.getElem?_overwrite_opened hlength _ _ low high

/-- An offset on the x axis is zero in the header as long as there are no points, and fifteen in
the finished file. -/
theorem rewritten_centring :
    let early := ((create .blank (Memory.unlimited [] 0)).after (Call.centring.take 4)).device
    let late := ((create .blank (Memory.unlimited [] 0)).after
      (Call.centring.take 4 ++ (Call.centring.drop 4).take 2)).done.writer.device
    (early.content.drop 155).take 8 = Octets.ofDouble .zero ∧
      (late.content.drop 155).take 8 = Octets.ofDouble ⟨0x402E000000000000⟩ ∧
      ∃ (f : FileCourse) (first : HeaderBlock) (parts : FileParts),
        f.Rewrites (Memory.unlimited [] 0) early late first parts := by
  intro early late
  have hisOpen : ((create .blank (Memory.unlimited [] 0)).after
      (Call.centring.take 4)).phase.open?.isSome = true := by
    decide +kernel
  obtain ⟨t, ht⟩ := Option.isSome_iff_exists.mp hisOpen
  have hdone : ((create .blank (Memory.unlimited [] 0)).after
      (Call.centring.take 4 ++ (Call.centring.drop 4).take 2)).done.result = .ok () := by
    decide +kernel
  obtain ⟨f, first, parts, -, -, hrewrites⟩ := rewritten .blank (Memory.fresh_unlimited [] 0)
    (Call.centring.take 4) ((Call.centring.drop 4).take 2) ht hdone
  have hmemory : ∀ m : Memory, memory m = m := fun _ => rfl
  have hlast := hrewrites []
  rw [hmemory, hmemory, hmemory, after_nil] at hlast
  exact ⟨by decide +kernel, by decide +kernel, f, first, parts, hlast⟩

end Writer

end PointCloud
