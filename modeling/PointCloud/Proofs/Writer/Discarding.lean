import PointCloud.Proofs.Writer.Written

/-!
# Leaving out high return numbers

A writer may be asked to leave out points whose return number is beyond the limit
of the record format.  It then never writes a point with both its numbers beyond
the limit: neither into the file nor into the summary.

A return number alone does not suffice.  A point that claims to be the sixth of
one return is written, and the summary and the bounds take note of it.
-/

namespace PointCloud

/-- A plan judges points by the limit of its format and by what the options ask for. -/
theorem Writer.policy_of_planFor {stamp : Stamp} {o : Options} {table : PointTable} {p : Plan}
    (h : (planFor stamp o table).value = .ok p) :
    p.encoder.policy = ⟨p.header.format.maxReturns, p.options.discardHighReturns⟩ := by
  obtain ⟨extra, header, -, -, rfl⟩ := exists_of_planFor h
  rfl

/-- Points with records have two numbers each by which they are not left out. -/
theorem PointEncoder.Makes.not_discard {e : PointEncoder} {q : Quantizer} {points : List Point}
    {records : List EncodedPoint} (h : e.Makes q points records) :
    ∀ point ∈ points, ∃ number count : UInt8,
      point.octet? e.fields .returnNumber = some number ∧
      point.octet? e.fields .numberOfReturns = some count ∧
      Returns.verdict e.policy number count ≠ .discard := by
  intro point hpoint
  obtain ⟨r, -, houtcome⟩ := List.Forall₂.exists_right h hpoint
  obtain ⟨number, count, kept, hnumber, hcount, hverdict, -, -⟩ := counted_of_outcome houtcome
  refine ⟨number, count, hnumber, hcount, ?_⟩
  rw [hverdict]
  exact nofun

namespace Writer

variable {σ : Type} [Device σ]

/-- **Points with a high return number and a high number of returns are left out** if that is asked
for: each point that is summed up has one of the two within the limit of the format. -/
theorem high_returns_left_out (stamp : Stamp) (d : σ) (calls : List Call) {p : Plan}
    (h : ((create stamp d).after calls).phase.plan? = some p)
    (hdiscard : p.options.discardHighReturns = true) :
    let first := create stamp d
    let points := first.written calls
    let max := p.header.format.maxReturns
    (first.after calls).summary? = some (p.summaryOf points) ∧
    (p.summaryOf points).count = points.length ∧
    (∀ point ∈ points, ∃ number count : UInt8,
      point.octet? p.encoder.fields .returnNumber = some number ∧
      point.octet? p.encoder.fields .numberOfReturns = some count ∧
      (number ≤ max ∨ count ≤ max)) ∧
    ∀ s, (first.after calls).phase = .done s →
      ∃ (f : FileCourse) (parts : FileParts) (records : List EncodedPoint),
        f.HasRecords stamp d calls s parts records := by
  intro first points max
  obtain ⟨hsummary, q, records, hmakes⟩ := summary?_eq h
  obtain ⟨o, table, hplan⟩ := exists_planFor_of_plan? (w := first) rfl h
  refine ⟨hsummary, Plan.count_summaryOf hmakes, ?_, fun s hdone => exists_hasRecords hdone⟩
  intro point hpoint
  obtain ⟨number, count, hnumber, hcount, hkept⟩ := hmakes.not_discard point hpoint
  refine ⟨number, count, hnumber, hcount, ?_⟩
  rw [ne_eq, Returns.verdict_eq_discard_iff, policy_of_planFor hplan] at hkept
  by_contra hhigh
  obtain ⟨hnumberHigh, hcountHigh⟩ := not_or.mp hhigh
  exact hkept ⟨hdiscard, UInt8.not_le.mp hnumberHigh, UInt8.not_le.mp hcountHigh⟩

end Writer

/-- A table of coordinates, return numbers and numbers of returns. -/
def PointTable.returns : PointTable :=
  ⟨Layout.xyz.registerAll
    [⟨"ReturnNumber", .unsigned8, ""⟩, ⟨"NumberOfReturns", .unsigned8, ""⟩], none, none⟩

/-- The sixth of seven returns, and the sixth of one. -/
def PointView.sixths : PointView where
  size := 2
  value id index :=
    if id = 3 then ⟨0x4018000000000000⟩
    else if id = 4 then (if index = 0 then ⟨0x401C000000000000⟩ else ⟨0x3FF0000000000000⟩)
    else .zero
  octets id _ := List.replicate (if id < 3 then 8 else 1) 0

/-- Calls for a file of these points without those that have high return numbers. -/
def Call.discarding : List Call :=
  [.configure { Options.usual with discardHighReturns := true }, .prepare .returns,
    .ready .returns, .write .sixths, .done]

namespace Writer

/-- The sixth of seven is left out, and one point is written. -/
theorem high_returns_left_out_sixths :
    let first := create .blank (Memory.unlimited [] 0)
    ∃ p, (first.after Call.discarding).phase.plan? = some p ∧
      p.options.discardHighReturns = true ∧ p.header.format.maxReturns = 5 ∧
      (p.summaryOf (first.written Call.discarding)).count = 1 ∧
      ∀ point ∈ first.written Call.discarding, ∃ number count : UInt8,
        point.octet? p.encoder.fields .returnNumber = some number ∧
        point.octet? p.encoder.fields .numberOfReturns = some count ∧ (number ≤ 5 ∨ count ≤ 5) := by
  intro first
  have hfacts : (first.after Call.discarding).phase.plan?.map (fun p =>
      (p.options.discardHighReturns, p.header.format.maxReturns,
        (first.written Call.discarding).length)) = some (true, 5, 1) := by
    decide +kernel
  obtain ⟨p, hplan, hp⟩ := Option.map_eq_some_iff.mp hfacts
  simp only [Prod.mk.injEq] at hp
  obtain ⟨hdiscard, hmax, hlength⟩ := hp
  obtain ⟨-, hcount, hpoints, -⟩ :=
    high_returns_left_out .blank (Memory.unlimited [] 0) Call.discarding hplan hdiscard
  rw [hmax] at hpoints
  exact ⟨p, hplan, hdiscard, hmax, hcount.trans hlength, hpoints⟩

/-- The sixth of one return is written although high return numbers are to be left out. -/
theorem sixth_of_one_written :
    let first := create .blank (Memory.unlimited [] 0)
    ∃ p s, (first.after Call.discarding).phase.plan? = some p ∧
      (first.after Call.discarding).summary? = some s ∧
      p.options.discardHighReturns = true ∧ s.count = 1 ∧
      ∃ point ∈ first.written Call.discarding, ∃ number : UInt8,
        point.octet? p.encoder.fields .returnNumber = some number ∧
        p.header.format.maxReturns < number := by
  intro first
  have hfacts : (first.after Call.discarding).phase.plan?.map (fun p =>
      (p.options.discardHighReturns, p.header.format.maxReturns,
        (first.written Call.discarding).map (·.octet? p.encoder.fields .returnNumber))) =
          some (true, 5, [some 6]) := by
    decide +kernel
  have hcount : (first.after Call.discarding).summary?.map (·.count) = some 1 := by decide +kernel
  obtain ⟨p, hplan, hp⟩ := Option.map_eq_some_iff.mp hfacts
  obtain ⟨s, hsummary, hs⟩ := Option.map_eq_some_iff.mp hcount
  simp only [Prod.mk.injEq] at hp
  obtain ⟨hdiscard, hmax, hnumbers⟩ := hp
  have hmem : some 6 ∈ (first.written Call.discarding).map
      (·.octet? p.encoder.fields .returnNumber) := by
    rw [hnumbers]
    exact List.mem_cons_self
  obtain ⟨point, hpoint, hnumber⟩ := List.mem_map.mp hmem
  refine ⟨p, s, hplan, hsummary, hdiscard, hs, point, hpoint, 6, hnumber, ?_⟩
  rw [hmax]
  decide

end Writer

end PointCloud
