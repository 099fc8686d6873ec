import PointCloud.Device.Folder
import PointCloud.Device.Memory
import PointCloud.Proofs.Points.Complaints
import PointCloud.Writer

/-!
# Complaints in a log

The log of a run is one list of messages, and those about return numbers stand
among others: about settings that could not be forwarded, offsets that were chosen,
records that were left out.  `LogEntry.isComplaint` tells them apart by the words
they begin with.  All complaints are kept by it, `filter_entries`, and of the other
messages none is; `Quiet` says so of a log.
-/

namespace PointCloud

/-- Whether a message is a complaint about a return number or a number of returns. -/
def LogEntry.isComplaint (e : LogEntry) : Bool :=
  "invalid return number ".toList.isPrefixOf e.text.toList ||
    "invalid number of returns ".toList.isPrefixOf e.text.toList

/-- No message is a complaint. -/
def Quiet (log : List LogEntry) : Prop := ∀ e ∈ log, e.isComplaint = false

@[simp] theorem LogEntry.text_warn (text : String) : (warn text).text = text := rfl

@[simp] theorem LogEntry.text_debug (text : String) : (debug text).text = text := rfl

/-- A text that is put into another one is put into it as it is. -/
@[simp] theorem toString_string (s : String) : toString s = s := rfl

/-! ### Messages that are no complaints -/

/-- A message is told by its first letter already. -/
theorem LogEntry.isComplaint_eq_false {e : LogEntry} {c : Char}
    (h : e.text.toList.head? = some c) (hc : c ≠ 'i') : e.isComplaint = false := by
  obtain ⟨rest, hrest⟩ := List.head?_eq_some_iff.mp h
  have hne : ('i' == c) = false := beq_eq_false_iff_ne.mpr (Ne.symm hc)
  simp [isComplaint, hrest, List.isPrefixOf, hne]

namespace Quiet

theorem nil : Quiet [] := by simp [Quiet]

theorem append {log more : List LogEntry} (h : Quiet log) (hmore : Quiet more) :
    Quiet (log ++ more) := List.forall_mem_append.mpr ⟨h, hmore⟩

/-- A remark is quiet if it does not begin as complaints do. -/
theorem singleton {e : LogEntry} {c : Char} (h : e.text.toList.head? = some c) (hc : c ≠ 'i') :
    Quiet [e] := by
  intro e' he
  rw [List.mem_singleton.mp he]
  exact LogEntry.isComplaint_eq_false h hc

theorem bind {α β : Type} {x : Logged α} {f : α → Logged β} (h : Quiet x.log)
    (hf : ∀ a, Quiet (f a).log) : Quiet (x >>= f).log := h.append (hf x.value)

theorem filter_eq_nil {log : List LogEntry} (h : Quiet log) :
    log.filter LogEntry.isComplaint = [] := by
  rw [List.filter_eq_nil_iff]
  intro e he
  simp [h e he]

end Quiet

/-- Settling a field complains of no points. -/
theorem Setting.quiet_resolve {α : Type} [FieldType α] (s : Setting α) (name : String)
    (forwardAll : Bool) (metadata : Option Metadata) (usual : α) :
    Quiet (s.resolve name forwardAll metadata usual).log := by
  have hremark : Quiet [forwardRemark name metadata] := by
    unfold forwardRemark
    split
    · exact Quiet.singleton (c := 'c') (by simp) (by decide)
    · exact Quiet.singleton (c := 'n') (by simp) (by decide)
  unfold resolve
  split
  · split
    · exact Quiet.nil
    · exact hremark
  · exact Quiet.nil

namespace Header

/-- Describing a file complains of no points. -/
theorem quiet_describe (stamp : Stamp) (o : Options) (metadata : Option Metadata)
    (version : Version) (format : RecordFormat) (recordLength : Nat) :
    Quiet (describe stamp o metadata version format recordLength).log := by
  unfold describe
  iterate 7 refine Quiet.bind (Setting.quiet_resolve _ _ _ _ _) fun _ => ?_
  exact Quiet.nil

/-- Resolving a header complains of no points. -/
theorem quiet_resolve (stamp : Stamp) (o : Options) (metadata : Option Metadata) (extra : Nat) :
    Quiet (resolve stamp o metadata extra).log := by
  unfold resolve
  refine Quiet.bind (Setting.quiet_resolve _ _ _ _ _) fun _ => ?_
  refine Quiet.bind (Setting.quiet_resolve _ _ _ _ _) fun _ => ?_
  dsimp only
  split
  · exact Quiet.nil
  · exact Quiet.bind (quiet_describe _ _ _ _ _ _) fun _ => Quiet.nil

end Header

namespace Writer

/-- Planning a file complains of no points. -/
theorem quiet_planFor (stamp : Stamp) (o : Options) (table : PointTable) :
    Quiet (planFor stamp o table).log := by
  unfold planFor
  split
  · exact Quiet.nil
  · refine Quiet.bind (Header.quiet_resolve _ _ _ _) fun header => ?_
    cases header <;> exact Quiet.nil

/-- The remark on a plan is none on points. -/
theorem quiet_planRemark (p : Plan) : Quiet [planRemark p] :=
  Quiet.singleton (c := 'w') (by simp [planRemark]) (by decide)

end Writer

/-- Requests complain of metadata at most. -/
theorem VlrRequest.quiet_records (metadata : Option Metadata) (requests : List VlrRequest) :
    Quiet (records metadata requests).log := by
  have hrecord : ∀ r : VlrRequest, Quiet (r.record? metadata).log := by
    intro r
    unfold record?
    split
    · exact Quiet.nil
    · exact Quiet.singleton (c := 'n') (by simp) (by decide)
  induction requests with
  | nil => exact Quiet.nil
  | cons r requests ih =>
    unfold records
    refine Quiet.bind (hrecord r) fun record => ?_
    cases record with
    | error e => exact Quiet.nil
    | ok v? => exact Quiet.bind ih fun _ => Quiet.nil

/-- A coordinate system complains of its blocks at most. -/
theorem SpatialReference.quiet_records (reference : SpatialReference) :
    Quiet reference.records.log := by
  have hblock : ∀ recordId description data, Quiet (geoRecord recordId description data).log := by
    intro recordId description data
    unfold geoRecord
    split
    · exact Quiet.singleton (c := 's') (by simp) (by decide)
    · exact Quiet.nil
  have hblocks : ∀ keys, Quiet (geoRecords keys).log := by
    intro keys
    unfold geoRecords
    iterate 3 refine Quiet.bind (hblock _ _ _) fun _ => ?_
    exact Quiet.nil
  unfold records
  split
  · exact Quiet.bind (hblocks _) fun _ => Quiet.nil
  · exact Quiet.nil

/-- The records of a file complain of no points. -/
theorem quiet_fileRecords (o : Options) (table : PointTable) (extra : ExtraBytes) :
    Quiet (fileRecords o table extra).log := by
  have hreference : Quiet (referenceRecords o table).log := by
    unfold referenceRecords
    split
    · exact SpatialReference.quiet_records _
    · exact Quiet.nil
  unfold fileRecords
  refine Quiet.bind (VlrRequest.quiet_records _ _) fun requested => ?_
  cases requested with
  | error e => exact Quiet.nil
  | ok vlrs => exact Quiet.bind hreference fun _ => Quiet.nil

/-- Choosing offsets complains of no points. -/
theorem Session.quiet_settleRemarks (s : Session) (v : PointView) :
    Quiet (s.settleRemarks v) := by
  unfold settleRemarks
  split
  · exact Quiet.nil
  · intro e he
    obtain ⟨axis, -, rfl⟩ := List.mem_map.mp he
    exact LogEntry.isComplaint_eq_false (c := 'a') (by simp) (by decide)

/-- How often something was wrong is told in other words than what was wrong. -/
theorem Returns.Tally.quiet_report (t : Tally) : Quiet t.report := by
  have hnumber : ∀ (n : Nat) (words : String), Quiet [.warn s!"{n}{words}"] := by
    intro n words
    obtain ⟨c, rest, hdigits⟩ := List.exists_cons_of_ne_nil (Nat.toDigits_ne_nil (n := n) (b := 10))
    have hmem : c ∈ Nat.toDigits 10 n := hdigits ▸ List.mem_cons_self
    have hdigit : c.isDigit = true := Nat.isDigit_of_mem_toDigits (by decide) (by decide) hmem
    refine Quiet.singleton (c := c) ?_ ?_
    · simp [hdigits]
    · intro hi
      rw [hi] at hdigit
      exact absurd hdigit (by decide)
  unfold report
  refine Quiet.append ?_ ?_
  · split
    · exact hnumber _ _
    · exact Quiet.nil
  · split
    · exact hnumber _ _
    · exact Quiet.nil

/-- The totals at the end are no complaints, since they begin with a number. -/
theorem Writer.quiet_finishRemarks (s : Session) : Quiet (finishRemarks s) := by
  have hwrote : Quiet [.debug s!"Wrote {s.summary.count} points"] :=
    Quiet.singleton (c := 'W') (by simp) (by decide)
  unfold finishRemarks
  refine Quiet.append (Quiet.append hwrote s.tally.quiet_report) ?_
  split
  · exact Quiet.singleton (c := 'w') (by simp) (by decide)
  · exact Quiet.nil

theorem Memory.quiet_notice (m : Memory) : Quiet (Device.notice m) := Quiet.nil

/-- A file is announced by its path, behind other words. -/
theorem FileDevice.quiet_notice (d : FileDevice) : Quiet (Device.notice d) :=
  Quiet.singleton (c := 'c') (by simp) (by decide)

/-! ### Messages that are complaints -/

namespace Returns.Tally

/-- A remark that begins with a complaint is one. -/
theorem isComplaint_of_text {e : LogEntry} {c : Complaint} {behind : String}
    (h : e.text = c.text ++ behind) : e.isComplaint = true := by
  have hfirst : ∀ front number : String, c.text = front ++ number →
      front.toList.isPrefixOf e.text.toList = true := by
    intro front number hc
    rw [List.isPrefixOf_iff_prefix, h, hc, String.append_assoc, String.toList_append]
    exact List.prefix_append _ _
  rw [LogEntry.isComplaint, Bool.or_eq_true]
  cases c with
  | returnNumber value => exact .inl (hfirst _ _ rfl)
  | numberOfReturns value => exact .inr (hfirst _ _ rfl)

/-- Every entry of the tally is a complaint. -/
theorem isComplaint_entry (t : Tally) (max : UInt8) (c : Complaint) :
    (t.entry max c).isComplaint = true := by
  rw [entry_eq]
  split
  · have hwarn : s!"{c.text} (valid range is 1 to {max.toNat})" =
        c.text ++ (" (valid range is 1 to " ++ (toString max.toNat ++ ")")) := by
      simp only [String.append_assoc, toString_string]
    exact isComplaint_of_text hwarn
  · exact isComplaint_of_text (c := c) String.append_empty.symm

/-- The messages for complaints are complaints. -/
theorem filter_entries (t : Tally) (max : UInt8) (cs : List Complaint) :
    (t.entries max cs).filter LogEntry.isComplaint = t.entries max cs := by
  induction cs generalizing t with
  | nil => rfl
  | cons c cs ih =>
    have hsplit : t.entries max (c :: cs) = t.entry max c :: (t.count c).entries max cs :=
      t.entries_append max [c] cs
    rw [hsplit, List.filter_cons_of_pos (t.isComplaint_entry max c), ih]

end Returns.Tally

end PointCloud
