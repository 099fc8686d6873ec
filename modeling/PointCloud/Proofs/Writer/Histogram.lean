import Mathlib.Algebra.Order.BigOperators.Group.Finset
import PointCloud.Proofs.Writer.FileLayout
import PointCloud.Proofs.Writer.Written

/-!
# Points by return number

A file counts its points by return number up to four times: in the summary, in
32 bits and perhaps in 64 bits in the header, and in the records, each of which
says which return it is.  All of these are counts of one list, the return numbers
of the points that have been written.

A summary has fifteen slots, and uses as many as the record format has return
numbers.  `sum_slots` says that every point is either in one of them or in none,
so what the slots leave out is known too.
-/

namespace PointCloud

open Device.Reliable (Fresh)

namespace Summary

variable {s : Summary} {number : UInt8}

/-- A return number has the slot below it, if the format has so many returns. -/
theorem slot?_eq_some_iff {slot : Nat} :
    s.slot? number = some slot ↔ number.toNat = slot + 1 ∧ slot < s.maxReturns := by
  unfold slot?
  split
  · rw [Option.some.injEq]
    omega
  · simp only [reduceCtorEq, false_iff]
    omega

/-- Other return numbers have none. -/
theorem slot?_eq_none_iff :
    s.slot? number = none ↔ number.toNat = 0 ∨ s.maxReturns < number.toNat := by
  unfold slot?
  split
  · simp only [reduceCtorEq, false_iff]
    omega
  · simp only [true_iff]
    omega

/-- A slot counts the points whose return number it is for. -/
theorem get_byReturn_addAll (s : Summary) (ps : List CountedPoint) (slot : Fin 15) :
    (s.addAll ps).byReturn.get slot =
      s.byReturn.get slot + ps.countP fun p => s.slot? p.returnNumber = some slot.val := by
  induction ps generalizing s with
  | nil => rfl
  | cons p ps ih =>
    have hslots : (s.add p).slot? = s.slot? := rfl
    have hfirst : (s.add p).byReturn.get slot =
        s.byReturn.get slot + if s.slot? p.returnNumber = some slot.val then 1 else 0 :=
      Vector.getElem_ofFn slot.isLt
    have hrest := ih (s.add p)
    rw [hslots, hfirst] at hrest
    rw [addAll, List.foldl_cons, ← addAll, hrest, List.countP_cons]
    simp only [decide_eq_true_eq]
    omega

/-- Every point is in one slot or in none. -/
theorem sum_slots (h : s.maxReturns ≤ 15) (ps : List CountedPoint) :
    ∑ slot : Fin 15, (ps.countP fun p => s.slot? p.returnNumber = some slot.val) +
      (ps.countP fun p => s.slot? p.returnNumber = none) = ps.length := by
  induction ps with
  | nil => simp
  | cons p ps ih =>
    simp only [List.countP_cons, Finset.sum_add_distrib, List.length_cons, decide_eq_true_eq]
    cases hslot : s.slot? p.returnNumber with
    | none =>
      simp only [reduceCtorEq, if_false, if_true, Finset.sum_const_zero]
      omega
    | some k =>
      have hk : k < 15 := Nat.lt_of_lt_of_le (slot?_eq_some_iff.mp hslot).2 h
      have hone : ∑ slot : Fin 15, (if some k = some slot.val then 1 else 0) = 1 := by
        rw [Finset.sum_eq_single ⟨k, hk⟩]
        · simp
        · intro slot _ hne
          have hval : k ≠ slot.val := fun heq => hne (Fin.ext heq.symm)
          simp [hval]
        · simp
      rw [hone]
      simp only [reduceCtorEq, if_false]
      omega

end Summary

/-- No format has more returns than there are slots. -/
theorem RecordFormat.maxReturns_le (f : RecordFormat) : f.maxReturns.toNat ≤ 15 := by
  unfold maxReturns
  split <;> decide

/-- The formats that are written have five. -/
theorem RecordFormat.maxReturns_of_isSupported {f : RecordFormat} (h : f.isSupported = true) :
    f.maxReturns = 5 := by
  have hid := isSupported_iff.mp h
  have hextended : f.isExtended = false := by
    simp only [isExtended, decide_eq_false_iff_not, Fin.not_le]
    exact lt_of_le_of_lt hid (by decide)
  rw [maxReturns, hextended]
  rfl

namespace Plan

/-- The return numbers of points. -/
def returnNumbersOf (p : Plan) (points : List Point) : List UInt8 :=
  points.filterMap (·.octet? p.encoder.fields .returnNumber)

variable (p : Plan) (points : List Point)

/-- The points that are counted are counted under their return numbers. -/
theorem map_returnNumber : (points.filterMap (·.counted? p.encoder.fields)).map (·.returnNumber) =
    p.returnNumbersOf points := by
  rw [returnNumbersOf, List.map_filterMap]
  congr 1
  funext point
  rw [Point.counted?, Option.map_map]
  exact Option.map_id'

/-- At the beginning all slots are empty. -/
theorem get_byReturn_summary (slot : Fin 15) : p.summary.byReturn.get slot = 0 :=
  Vector.getElem_replicate slot.isLt

/-- The slots up to the limit of the format count the return numbers, and the others are empty. -/
theorem get_byReturn_summaryOf (slot : Fin 15) :
    (p.summaryOf points).byReturn.get slot =
      if slot.val < p.header.format.maxReturns.toNat then
        (p.returnNumbersOf points).count (UInt8.ofNat (slot.val + 1))
      else 0 := by
  have hmax : p.summary.maxReturns = p.header.format.maxReturns.toNat :=
    Nat.min_eq_left p.header.format.maxReturns_le
  have hnumber : (UInt8.ofNat (slot.val + 1)).toNat = slot.val + 1 := by
    rw [UInt8.toNat_ofNat']
    omega
  rw [summaryOf, Summary.get_byReturn_addAll, get_byReturn_summary, Nat.zero_add,
    ← map_returnNumber, List.count_eq_countP, List.countP_map]
  split
  · next hlt =>
    refine List.countP_congr fun c _ => ?_
    simp only [decide_eq_true_eq, Function.comp_apply, beq_iff_eq, Summary.slot?_eq_some_iff, hmax,
      ← UInt8.toNat_inj, hnumber]
    omega
  · next hlt =>
    refine List.countP_eq_zero.mpr fun c _ => ?_
    simp only [decide_eq_true_eq, Summary.slot?_eq_some_iff, hmax]
    omega

/-- What no slot counts are the return numbers that the format does not have. -/
theorem sum_byReturn_summaryOf :
    ∑ slot, (p.summaryOf points).byReturn.get slot +
      ((p.returnNumbersOf points).countP fun n => n = 0 ∨ p.header.format.maxReturns < n) =
        (p.returnNumbersOf points).length := by
  have hmax : p.summary.maxReturns = p.header.format.maxReturns.toNat :=
    Nat.min_eq_left p.header.format.maxReturns_le
  have hslots := Summary.sum_slots (s := p.summary) (Nat.min_le_right _ _)
    (points.filterMap (·.counted? p.encoder.fields))
  rw [← map_returnNumber, List.length_map, List.countP_map, ← hslots]
  refine congrArg₂ (· + ·) ?_ ?_
  · refine Finset.sum_congr rfl fun slot _ => ?_
    rw [summaryOf, Summary.get_byReturn_addAll, get_byReturn_summary, Nat.zero_add]
  · refine List.countP_congr fun c _ => ?_
    simp only [decide_eq_true_eq, Function.comp_apply, Summary.slot?_eq_none_iff, hmax,
      ← UInt8.toNat_inj, UInt8.lt_iff_toNat_lt, UInt8.toNat_zero]

end Plan

namespace PointEncoder

variable {e : PointEncoder} {q : Quantizer} {points : List Point} {records : List EncodedPoint}

/-- Points with records have return numbers, and the records have them as far as three bits go. -/
theorem Makes.returnBits (h : e.Makes q points records) :
    (points.filterMap (·.octet? e.fields .returnNumber)).map (fun n => some (n.toNat % 8)) =
      records.map (·.returnBits) := by
  rw [List.map_filterMap]
  refine List.Forall₂.filterMap_eq_map h fun p r houtcome => ?_
  obtain ⟨number, _, _, hnumber, -, -, -, hbits⟩ := counted_of_outcome houtcome
  rw [hnumber, hbits]
  rfl

/-- Where return numbers fit into three bits, the records have as many of each as the points. -/
theorem Makes.countP_returnBits (h : e.Makes q points records)
    (hlow : ∀ n ∈ points.filterMap (·.octet? e.fields .returnNumber), n ≤ 7) {k : Nat}
    (hk : k ≤ 7) :
    (records.countP fun r => r.returnBits = some k) =
      (points.filterMap (·.octet? e.fields .returnNumber)).count (UInt8.ofNat k) := by
  have hnumber : (UInt8.ofNat k).toNat = k := by
    rw [UInt8.toNat_ofNat']
    omega
  have hbits : (records.countP fun r => r.returnBits = some k) =
      (records.map (·.returnBits)).countP (· = some k) := by
    rw [List.countP_map]
    rfl
  rw [hbits, ← h.returnBits, List.countP_map, List.count_eq_countP]
  refine List.countP_congr fun n hn => ?_
  have hle := UInt8.le_iff_toNat_le.mp (hlow n hn)
  have hseven : (7 : UInt8).toNat = 7 := rfl
  simp only [Function.comp_apply, decide_eq_true_eq, Option.some.injEq, beq_iff_eq,
    ← UInt8.toNat_inj, hnumber]
  omega

end PointEncoder

/-- The counts by return number in a header are exact, as long as the points can be counted in 32
bits. -/
theorem Header.returnCounts_of_block {h : Header} {scalings : Triple Scaling} {s : Summary}
    {c : Contents} {b : HeaderBlock} (hb : h.block scalings s c = .ok b)
    (hcount : s.count < UInt32.size) (hslot : ∀ slot, s.byReturn.get slot ≤ s.count) :
    b.pointCount.toNat = s.count ∧
    (∀ slot : Fin 5, (b.pointsByReturn.get slot).toNat =
      s.byReturn.get (slot.castLE (by decide))) ∧
    (h.version.has .largeFiles = true → ∃ large, b.largeCounts = some large ∧
      ∀ slot, (large.byReturn.get slot).toNat = s.byReturn.get slot) := by
  obtain ⟨hpoints, -, -, -, -, -, hlarge⟩ := Header.block_eq_ok hb
  obtain ⟨-, -, hreturns⟩ := Header.summary_of_block hb
  have hpointCount := Header.pointCount_eq_ok hpoints hcount
  refine ⟨hpointCount, fun slot => ?_, fun hhas => ⟨_, by rw [hlarge, if_pos hhas], fun slot => ?_⟩⟩
  · have hle := hslot (slot.castLE (by decide))
    have hget : b.pointsByReturn.get slot =
        if b.pointCount = 0 ∨ UInt32.size ≤ s.byReturn.get (slot.castLE (by decide)) then 0
        else UInt32.ofNat (s.byReturn.get (slot.castLE (by decide))) := by
      rw [hreturns]
      exact Vector.getElem_ofFn slot.isLt
    rw [hget]
    split
    · next hzero =>
      -- without points there is nothing in the slot either
      have hnone : b.pointCount.toNat = 0 := by
        rcases hzero with hzero | hlarge
        · rw [hzero]
          rfl
        · omega
      rw [UInt32.toNat_zero]
      omega
    · exact UInt32.toNat_ofNat_of_lt' (Nat.lt_of_le_of_lt hle hcount)
  · have hle := hslot slot
    have hsize : UInt32.size < UInt64.size := by decide
    have hget : (Header.largeCounts s).byReturn.get slot = UInt64.ofNat (s.byReturn.get slot) :=
      Vector.getElem_map UInt64.ofNat slot.isLt
    rw [hget]
    exact UInt64.toNat_ofNat_of_lt' (by omega)

namespace Writer

variable {σ : Type} [Device σ] [Device.Reliable σ]

/-- **Every count by return number is a count of the points that have been written.**  The summary
has it at any time, the header has it twice, and while the return numbers fit into their three bits
the records of the file have it too. -/
theorem returns_recounted (stamp : Stamp) {d : σ} (hd : Fresh d) (calls : List Call) {p : Plan}
    (h : ((create stamp d).after calls).phase.plan? = some p)
    (hfew : ((create stamp d).written calls).length < UInt32.size) :
    let first := create stamp d
    let points := first.written calls
    let numbers := p.returnNumbersOf points
    let max := p.header.format.maxReturns
    let summary := p.summaryOf points
    (first.after calls).summary? = some summary ∧
    summary.count = points.length ∧ numbers.length = points.length ∧
    (∀ slot : Fin 15, summary.byReturn.get slot =
      if slot.val < max.toNat then numbers.count (UInt8.ofNat (slot.val + 1)) else 0) ∧
    ∑ slot, summary.byReturn.get slot + (numbers.countP fun n => n = 0 ∨ max < n) =
      summary.count ∧
    ∀ s, (first.after calls).phase = .done s → ∃ (f : FileCourse) (parts : FileParts),
      f.HasRecords stamp d calls s parts parts.points ∧
      parts.header.pointCount.toNat = points.length ∧
      (∀ slot : Fin 5, (parts.header.pointsByReturn.get slot).toNat =
        summary.byReturn.get (slot.castLE (by decide))) ∧
      (parts.header.version = ⟨1, 4⟩ → ∃ large, parts.header.largeCounts = some large ∧
        ∀ slot, (large.byReturn.get slot).toNat = summary.byReturn.get slot) ∧
      ((∀ n ∈ numbers, n ≤ 7) → ∀ slot : Fin 5, (parts.header.pointsByReturn.get slot).toNat =
        parts.points.countP fun r => r.returnBits = some (slot.val + 1)) := by
  intro first points numbers max summary
  obtain ⟨hsummary, q, made, hmakes⟩ := summary?_eq h
  have hcount : summary.count = points.length := Plan.count_summaryOf hmakes
  have hnumbers : numbers.length = points.length := by
    have hlength := congrArg List.length hmakes.returnBits
    rwa [List.length_map, List.length_map, ← List.Forall₂.length_eq hmakes] at hlength
  have hslots : ∀ slot : Fin 15, summary.byReturn.get slot =
      if slot.val < max.toNat then numbers.count (UInt8.ofNat (slot.val + 1)) else 0 :=
    p.get_byReturn_summaryOf points
  have hsum : ∑ slot, summary.byReturn.get slot + (numbers.countP fun n => n = 0 ∨ max < n) =
      summary.count := by
    rw [hcount, ← hnumbers]
    exact p.sum_byReturn_summaryOf points
  refine ⟨hsummary, hcount, hnumbers, hslots, hsum, ?_⟩
  intro s hdone
  obtain ⟨f, parts, records, hrecords⟩ := exists_hasRecords hdone
  obtain rfl := hrecords.reliable hd
  obtain ⟨c, hheader⟩ := hrecords.header
  have hmax : max.toNat = 5 := by
    obtain ⟨o, table, hplan⟩ := exists_planFor_of_plan? (w := first) rfl h
    have hsettled := planFor_eq_ok hplan
    have hsupported := hsettled.format_isSupported
    rw [hsettled.format] at hsupported
    exact congrArg UInt8.toNat (RecordFormat.maxReturns_of_isSupported hsupported)
  obtain rfl : s.plan = p := Option.some.inj ((Phase.plan?_of_done hdone).symm.trans h)
  have hle : ∀ slot, summary.byReturn.get slot ≤ summary.count := by
    intro slot
    have hone := Finset.single_le_sum (f := summary.byReturn.get) (fun _ _ => Nat.zero_le _)
      (Finset.mem_univ slot)
    omega
  obtain ⟨hpoints, hlegacy, hlarge⟩ :=
    Header.returnCounts_of_block hheader (by rw [hcount]; exact hfew) hle
  obtain ⟨-, -, hversion, -⟩ := Header.block_eq_ok hheader
  refine ⟨f, parts, hrecords, hpoints.trans hcount, hlegacy, ?_, ?_⟩
  · intro hfour
    apply hlarge
    rw [← hversion, hfour]
    rfl
  · intro hlow slot
    have hslot := slot.isLt
    have hbits := hrecords.made.countP_returnBits hlow (k := slot.val + 1) (by omega)
    rw [hlegacy, hslots, hbits, hmax, if_pos (by simp)]
    rfl

end Writer

/-- A table of coordinates and return numbers. -/
def PointTable.returning : PointTable :=
  ⟨Layout.xyz.registerAll [⟨"ReturnNumber", .unsigned8, ""⟩], none, none⟩

/-- Points at the origin with the return numbers 1, 2, 2, 0 and 6. -/
def PointView.returning : PointView where
  size := 5
  value id index :=
    if id = 3 then
      ⟨[0x3FF0000000000000, 0x4000000000000000, 0x4000000000000000, 0,
        0x4018000000000000].getD index 0⟩
    else .zero
  octets id _ := List.replicate (if id = 3 then 1 else 8) 0

/-- Calls for a file of these points that counts them in 64 bits too. -/
def Call.returning : List Call :=
  [.configure { Options.usual with minorVersion := .value 4 }, .prepare .returning,
    .ready .returning, .write .returning, .done]

namespace Writer

/-- One first return and two second ones, and two points that no slot counts. -/
theorem returns_recounted_returning :
    let first := create .blank (Memory.unlimited [] 0)
    Fresh (Memory.unlimited [] 0) ∧ (first.written Call.returning).length < UInt32.size ∧
    ∃ p s, (first.after Call.returning).phase.plan? = some p ∧
      (first.after Call.returning).phase = .done s ∧
      ∃ (f : FileCourse) (parts : FileParts),
        f.Delivers .blank (Memory.unlimited [] 0) Call.returning s parts ∧
        parts.header.pointCount.toNat = 5 ∧
        (parts.header.pointsByReturn.get 0).toNat = 1 ∧
        (parts.header.pointsByReturn.get 1).toNat = 2 ∧
        (∃ large, parts.header.largeCounts = some large ∧ (large.byReturn.get 1).toNat = 2 ∧
          (large.byReturn.get 5).toNat = 0) ∧
        (parts.points.countP fun r => r.returnBits = some 2) = 2 := by
  intro first
  have hfacts : (first.after Call.returning).phase.finished?.map (fun s =>
      (s.plan.header.version, s.plan.header.format,
        s.plan.returnNumbersOf (first.written Call.returning),
        (first.written Call.returning).length)) = some (⟨1, 4⟩, ⟨3⟩, [1, 2, 2, 0, 6], 5) := by
    decide +kernel
  obtain ⟨s, hfinished, hs⟩ := Option.map_eq_some_iff.mp hfacts
  simp only [Prod.mk.injEq] at hs
  obtain ⟨hversion, hformat, hnumbers, hlength⟩ := hs
  have hdone := Phase.eq_of_finished? hfinished
  have hplan := Phase.plan?_of_done hdone
  have hfresh := Memory.fresh_unlimited [] 0
  have hfew : (first.written Call.returning).length < UInt32.size := by
    rw [hlength]
    decide
  obtain ⟨-, -, -, hslots, -, hfile⟩ :=
    returns_recounted .blank hfresh Call.returning hplan hfew
  obtain ⟨f, parts, hrecords, hcount, hlegacy, hlarge, hbits⟩ := hfile s hdone
  obtain ⟨c, hheader⟩ := hrecords.header
  obtain ⟨-, -, hblock, -⟩ := Header.block_eq_ok hheader
  obtain ⟨large, hsome, hcounts⟩ := hlarge (hblock.trans hversion)
  rw [hformat, hnumbers] at hslots
  rw [hnumbers] at hbits
  have hlow : ∀ n ∈ ([1, 2, 2, 0, 6] : List UInt8), n ≤ 7 := by decide +kernel
  refine ⟨hfresh, hfew, s.plan, s, hplan, hdone, f, parts, hrecords.toDelivers,
    hcount.trans hlength, ?_, ?_, ⟨large, hsome, ?_, ?_⟩, ?_⟩
  · exact (hlegacy 0).trans (hslots 0)
  · exact (hlegacy 1).trans (hslots 1)
  · exact (hcounts 1).trans (hslots 1)
  · exact (hcounts 5).trans (hslots 5)
  · exact (hbits hlow 1).symm.trans ((hlegacy 1).trans (hslots 1))

end Writer

end PointCloud
