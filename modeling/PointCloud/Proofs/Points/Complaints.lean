import PointCloud.Proofs.Points.AnyDevice

/-!
# Complaints about return numbers

A point is judged by its two numbers when it is looked at.  `Session.lookedAt` are
the points of a batch that are: all those of the chunks that are stored, and those
of the first chunk that is not, up to the first point in it that fails.  So what is
said about a point does not depend on what becomes of it, and a point of a chunk
that is lost is complained about like any other.

The tally at any time is that of the complaints so far, and the messages are those
that the complaints would have had all at once, `write_complaints`.  With nothing on
the tally before, the first complaint of each kind is put as a warning and every
later one is not, `entries_zero`.
-/

namespace PointCloud

namespace Returns

/-- Whether two complaints are about the same number. -/
def Complaint.sameKind : Complaint → Complaint → Bool
  | .returnNumber _, .returnNumber _ | .numberOfReturns _, .numberOfReturns _ => true
  | _, _ => false

/-- What a complaint says. -/
def Complaint.text : Complaint → String
  | .returnNumber value => s!"invalid return number {value.toNat}"
  | .numberOfReturns value => s!"invalid number of returns {value.toNat}"

/-- How a complaint is put after earlier ones: as a warning with the valid range if it is the first
about its number. -/
def Complaint.remark (max : UInt8) (earlier : List Complaint) (c : Complaint) : LogEntry :=
  if earlier.any c.sameKind then .debug c.text
  else .warn s!"{c.text} (valid range is 1 to {max.toNat})"

/-- How complaints are put, each after those in front of it. -/
def remarks (max : UInt8) (cs : List Complaint) : List LogEntry :=
  cs.mapIdx fun i c => c.remark max (cs.take i)

/-! ### Counting complaints -/

namespace Tally

/-- How many complaints about the same number have been counted. -/
def alike (t : Tally) : Complaint → Nat
  | .returnNumber _ => t.returnNumbers
  | .numberOfReturns _ => t.numbersOfReturns

/-- The tally has one more for each complaint of the kind. -/
theorem alike_countAll (t : Tally) (cs : List Complaint) (c : Complaint) :
    (t.countAll cs).alike c = t.alike c + cs.countP c.sameKind := by
  induction cs generalizing t with
  | nil => rfl
  | cons d cs ih =>
    have hcons : t.countAll (d :: cs) = (t.count d).countAll cs := rfl
    have hcount : (t.count d).alike c = t.alike c + if c.sameKind d then 1 else 0 := by
      cases c <;> cases d <;> rfl
    rw [hcons, ih, hcount, List.countP_cons]
    omega

/-- The first of a kind is a warning that names the range, and the others are not. -/
theorem entry_eq (t : Tally) (max : UInt8) (c : Complaint) :
    t.entry max c = if t.alike c = 0 then .warn s!"{c.text} (valid range is 1 to {max.toNat})"
      else .debug c.text := by
  cases c <;> rfl

/-- A complaint is put by the tally of the earlier ones. -/
theorem entry_countAll (max : UInt8) (earlier : List Complaint) (c : Complaint) :
    (zero.countAll earlier).entry max c = c.remark max earlier := by
  have hnone : zero.alike c = 0 := by cases c <;> rfl
  rw [entry_eq, alike_countAll, hnone, Nat.zero_add, Complaint.remark]
  by_cases h : earlier.any c.sameKind = true
  · have hsome : earlier.countP c.sameKind ≠ 0 := by simpa [List.countP_eq_zero] using h
    rw [if_pos h, if_neg hsome]
  · have hzero : earlier.countP c.sameKind = 0 := by simpa [List.countP_eq_zero] using h
    rw [if_neg h, if_pos hzero]

/-- What is said of complaints depends on those of the kind that came before. -/
theorem entries_countAll (max : UInt8) (earlier cs : List Complaint) :
    (zero.countAll earlier).entries max cs =
      cs.mapIdx fun i c => c.remark max (earlier ++ cs.take i) := by
  induction cs generalizing earlier with
  | nil => rfl
  | cons c cs ih =>
    have hfirst : (zero.countAll earlier).entries max [c] = [c.remark max earlier] := by
      rw [← entry_countAll]
      rfl
    have hmore := ih (earlier ++ [c])
    rw [countAll_append] at hmore
    have hsplit := entries_append (zero.countAll earlier) max [c] cs
    rw [List.singleton_append, hfirst, hmore] at hsplit
    rw [hsplit, List.mapIdx_cons]
    simp

/-- **The first complaint of each kind is a warning**, and every later one is not. -/
theorem entries_zero (max : UInt8) (cs : List Complaint) : zero.entries max cs = remarks max cs :=
  entries_countAll max [] cs

/-- What has been counted from the beginning, by the two numbers. -/
theorem countAll_zero (cs : List Complaint) :
    zero.countAll cs = ⟨cs.countP (Complaint.returnNumber 0).sameKind,
      cs.countP (Complaint.numberOfReturns 0).sameKind⟩ := by
  have hnumbers := zero.alike_countAll cs (.returnNumber 0)
  have hcounts := zero.alike_countAll cs (.numberOfReturns 0)
  simp only [alike, zero, Nat.zero_add] at hnumbers hcounts
  rw [← hnumbers, ← hcounts]
  rfl

end Tally

/-! ### The complaints about points -/

/-- What is wrong with the two numbers of a point, as far as its return number goes. -/
theorem countP_returnNumber_complaints (p : Policy) (number count value : UInt8) :
    (complaints p number count).countP (Complaint.returnNumber value).sameKind =
      if number = 0 ∨ p.max < number then 1 else 0 := by
  have hzero : number < 1 ↔ number = 0 := by
    rw [UInt8.lt_iff_toNat_lt, ← UInt8.toNat_inj]
    simp
  simp only [complaints, hzero, List.countP_append, apply_ite (List.countP _), List.countP_nil]
  simp [Complaint.sameKind]

/-- What is wrong with the two numbers of a point, as far as its number of returns goes: it is not
zero and beyond the limit at once. -/
theorem countP_numberOfReturns_complaints (p : Policy) (number count value : UInt8) :
    (complaints p number count).countP (Complaint.numberOfReturns value).sameKind =
      (if count = 0 then 1 else 0) + if p.discardHigh = false ∧ p.max < count then 1 else 0 := by
  simp only [complaints, List.countP_append, apply_ite (List.countP _), List.countP_nil]
  simp [Complaint.sameKind, and_comm]

/-- A point is complained about at most once for each of its two numbers. -/
theorem countP_sameKind_complaints_le (p : Policy) (number count : UInt8) (c : Complaint) :
    (complaints p number count).countP c.sameKind ≤ 1 := by
  cases c with
  | returnNumber value =>
    rw [countP_returnNumber_complaints]
    split <;> omega
  | numberOfReturns value =>
    rw [countP_numberOfReturns_complaints]
    by_cases hzero : count = 0
    · have hlow : ¬ (p.discardHigh = false ∧ p.max < count) := by
        rw [hzero, UInt8.lt_iff_toNat_lt]
        simp
      rw [if_neg hlow]
      split <;> omega
    · rw [if_neg hzero]
      split <;> omega

/-- The complaints about points that are given by their two numbers. -/
def complaintsOf (p : Policy) (numbers : List (UInt8 × UInt8)) : List Complaint :=
  numbers.flatMap fun n => complaints p n.1 n.2

/-- The points, given by their two numbers, whose return number is out of range, and those whose
number of returns is zero, or beyond the limit unless such points are left out or cut down. -/
def recount (p : Policy) (numbers : List (UInt8 × UInt8)) : Tally where
  returnNumbers := numbers.countP fun n => n.1 = 0 ∨ p.max < n.1
  numbersOfReturns := (numbers.countP fun n => n.2 = 0) +
    if p.discardHigh then 0 else numbers.countP fun n => p.max < n.2

/-- **The tally is a recount** of the points that have been judged. -/
theorem countAll_complaintsOf (p : Policy) (numbers : List (UInt8 × UInt8)) :
    Tally.zero.countAll (complaintsOf p numbers) = recount p numbers := by
  rw [Tally.countAll_zero]
  induction numbers with
  | nil => simp [complaintsOf, recount]
  | cons n numbers ih =>
    simp only [recount, Tally.mk.injEq] at ih ⊢
    simp only [complaintsOf, List.flatMap_cons, List.countP_append, List.countP_cons,
      countP_returnNumber_complaints, countP_numberOfReturns_complaints, decide_eq_true_eq] at ih ⊢
    rw [ih.1, ih.2]
    refine ⟨Nat.add_comm .., ?_⟩
    cases p.discardHigh with
    | true => simp; omega
    | false => simp; omega

end Returns

/-- The return number and the number of returns of a point, if both can be read. -/
def PointEncoder.numbers? (e : PointEncoder) (p : Point) : Option (UInt8 × UInt8) :=
  (e.returns p.alone 0).toOption

/-- The complaints about points. -/
def PointEncoder.complaintsAbout (e : PointEncoder) (points : List Point) :
    List Returns.Complaint :=
  Returns.complaintsOf e.policy (points.filterMap e.numbers?)

namespace PointEncoder

/-- Complaints about points in two lists are put one behind the other. -/
theorem complaintsAbout_append (e : PointEncoder) (points more : List Point) :
    e.complaintsAbout (points ++ more) = e.complaintsAbout points ++ e.complaintsAbout more := by
  rw [complaintsAbout, List.filterMap_append, Returns.complaintsOf, List.flatMap_append]
  rfl

/-- What comes of a point has the complaints about this point, whatever else comes of it. -/
theorem complaints_encode (e : PointEncoder) (q : Quantizer) (v : PointView) (index : Nat) :
    (e.encode q v index).complaints = e.complaintsAbout [v.point index] := by
  rw [encode_eq, encodePoint, encode, complaintsAbout, List.filterMap_cons, numbers?]
  cases e.returns (v.point index).alone 0 with
  | error error => rfl
  | ok numbers => exact (List.append_nil _).symm

/-- No point is complained about twice for the same number. -/
theorem countP_sameKind_encode_le (e : PointEncoder) (q : Quantizer) (v : PointView) (index : Nat)
    (c : Returns.Complaint) : (e.encode q v index).complaints.countP c.sameKind ≤ 1 := by
  rw [complaints_encode, complaintsAbout, List.filterMap_cons, List.filterMap_nil]
  cases e.numbers? (v.point index) with
  | none => exact Nat.zero_le 1
  | some n =>
    rw [Returns.complaintsOf, List.flatMap_singleton]
    exact Returns.countP_sameKind_complaints_le e.policy n.1 n.2 c

/-- Complaints come of the points and not of the quantizer. -/
theorem flatMap_complaints_encode (e : PointEncoder) (q : Quantizer) (v : PointView)
    (indexes : List Nat) :
    (indexes.map (e.encode q v)).flatMap (·.complaints) =
      e.complaintsAbout (indexes.map v.point) := by
  induction indexes with
  | nil => rfl
  | cons i indexes ih =>
    rw [List.map_cons, List.flatMap_cons, ih, complaints_encode, ← complaintsAbout_append]
    rfl

end PointEncoder

namespace Session

/-- The encodings that are looked at are the first ones. -/
theorem prefix_examined (es : List Encoding) : examined es <+: es := by
  have htake := List.take_prefix 1 (es.dropWhile isSound)
  have hsplit := (List.prefix_append_right_inj (es.takeWhile isSound)).mpr htake
  rwa [List.takeWhile_append_dropWhile] at hsplit

/-- The points that are looked at are so many of the first. -/
theorem take_examined (es : List Encoding) : es.take (examined es).length = examined es :=
  (List.prefix_iff_eq_take.mp (prefix_examined es)).symm

/-- If no point fails, all of them are looked at. -/
theorem examined_eq_of_all {es : List Encoding} (h : es.all isSound = true) : examined es = es := by
  have happend := examined_of_all h []
  rw [List.append_nil] at happend
  rw [happend]
  exact List.append_nil es

variable {σ : Type} [Device σ]

/-- The indexes of the points that are looked at: those of the chunks up to the first that is not
stored, and of this one those up to the first that fails. -/
def lookedAt (s : Session) (v : PointView) : List (List Nat) → σ → List Nat
  | [], _ => []
  | chunk :: rest, d =>
    let es := chunk.map (s.plan.encoder.encode s.quantizer v)
    let first := s.writeChunk es d
    match first.result with
    | .error _ => chunk.take (examined es).length
    | .ok _ => chunk ++ first.session.lookedAt v rest first.device

/-- The indexes of the points of a view that are looked at. -/
def lookedAtOf (s : Session) (v : PointView) (d : σ) : List Nat :=
  (s.decided v).lookedAt v (chunks s.chunkSize v.size) d

/-- A chunk is complained about whether or not it is stored. -/
theorem writeChunk_complaints (s : Session) (es : List Encoding) (d : σ) :
    (∃ ps, (s.writeChunk es d).session = (s.noting (complaints es)).counting ps) ∧
      (s.writeChunk es d).log = s.tally.entries s.plan.encoder.policy.max (complaints es) := by
  have hstep := s.chunkStep_writeChunk es d
  generalize s.writeChunk es d = p at hstep ⊢
  cases hstep with
  | failed _ | refused _ _ => exact ⟨⟨[], rfl⟩, rfl⟩
  | stored _ _ => exact ⟨⟨_, rfl⟩, rfl⟩

/-- A chunk is stored only if none of its points fails. -/
theorem all_isSound_of_writeChunk {s : Session} {es : List Encoding} {d : σ}
    (h : (s.writeChunk es d).result = .ok ()) : es.all isSound = true := by
  have hstep := s.chunkStep_writeChunk es d
  generalize s.writeChunk es d = p at hstep h
  cases hstep with
  | failed _ | refused _ _ => cases h
  | stored sound _ => exact sound

/-- Where no point of a chunk fails, only the device can refuse it. -/
theorem not_all_isSound_of_noFault {s : Session} {es : List Encoding} {d : σ} {e : Error}
    (h : (s.writeChunk es d).result = .error e) (hnofault : NoFault (s.writeChunk es d).result) :
    es.all isSound ≠ true := by
  intro hall
  have hstep := s.chunkStep_writeChunk es d
  generalize s.writeChunk es d = p at hstep h hnofault
  cases hstep with
  | failed fails =>
    rw [all_isSound_iff.mp hall] at fails
    cases fails
  | @refused fault _ _ _ => exact hnofault fault rfl
  | stored _ _ => cases h

/-- The complaints about a chunk are about the points in it that are looked at. -/
theorem complaints_map_encode (e : PointEncoder) (q : Quantizer) (v : PointView)
    (chunk : List Nat) :
    complaints (chunk.map (e.encode q v)) = e.complaintsAbout
      ((chunk.take (examined (chunk.map (e.encode q v))).length).map v.point) := by
  have htake : examined (chunk.map (e.encode q v)) =
      (chunk.take (examined (chunk.map (e.encode q v))).length).map (e.encode q v) := by
    rw [List.map_take]
    exact (take_examined _).symm
  exact (congrArg (·.flatMap (·.complaints)) htake).trans (e.flatMap_complaints_encode q v _)

/-- **The complaints about chunks** are those about the points that are looked at, put after the
complaints already counted. -/
theorem writeChunks_complaints (s : Session) (v : PointView) (css : List (List Nat)) (d : σ) :
    let cs := s.plan.encoder.complaintsAbout ((s.lookedAt v css d).map v.point)
    (s.writeChunks v css d).session.tally = s.tally.countAll cs ∧
      (s.writeChunks v css d).log = s.tally.entries s.plan.encoder.policy.max cs := by
  induction css generalizing s d with
  | nil => exact ⟨rfl, rfl⟩
  | cons chunk rest ih =>
    let es := chunk.map (s.plan.encoder.encode s.quantizer v)
    obtain ⟨⟨ps, hsession⟩, hlog⟩ := s.writeChunk_complaints es d
    have hcomplaints := complaints_map_encode s.plan.encoder s.quantizer v chunk
    cases hresult : (s.writeChunk es d).result with
    | error e =>
      simp only [es] at hsession hlog hresult
      simp only [writeChunks, lookedAt, hresult, hsession, hlog]
      rw [← hcomplaints]
      exact ⟨rfl, rfl⟩
    | ok _ =>
      have hall := examined_eq_of_all (all_isSound_of_writeChunk hresult)
      have hchunk : complaints es = s.plan.encoder.complaintsAbout (chunk.map v.point) := by
        rw [hcomplaints, hall, List.length_map, List.take_length]
      -- the plan is that of `s`, and the tally is that of `s` with the complaints about the chunk
      obtain ⟨htally, hmore⟩ := ih (s.writeChunk es d).session (s.writeChunk es d).device
      have hplan : (s.writeChunk es d).session.plan = s.plan := by rw [hsession]; rfl
      have hcount : (s.writeChunk es d).session.tally = s.tally.countAll (complaints es) := by
        rw [hsession]
        rfl
      rw [hplan, hcount, hchunk] at htally hmore
      rw [hchunk] at hlog
      simp only [es] at htally hmore hlog hresult
      simp only [writeChunks, lookedAt, hresult, List.map_append,
        PointEncoder.complaintsAbout_append, Returns.Tally.countAll_append,
        Returns.Tally.entries_append, htally, hmore, hlog, and_self]

/-- The points that are looked at are the first ones. -/
theorem prefix_lookedAt (s : Session) (v : PointView) (css : List (List Nat)) (d : σ) :
    s.lookedAt v css d <+: css.flatten := by
  induction css generalizing s d with
  | nil => exact List.prefix_rfl
  | cons chunk rest ih =>
    rw [List.flatten_cons, lookedAt]
    split
    · exact (List.take_prefix _ _).trans (List.prefix_append _ _)
    · exact (List.prefix_append_right_inj chunk).mpr (ih _ _)

/-- Unless the device refuses a chunk, the points are looked at up to and including the first that
fails, whatever chunk it is in. -/
theorem lookedAt_of_noFault {s : Session} {v : PointView} {css : List (List Nat)} {d : σ}
    (h : NoFault (s.writeChunks v css d).result) :
    s.lookedAt v css d = css.flatten.take
      (examined (css.flatten.map (s.plan.encoder.encode s.quantizer v))).length := by
  induction css generalizing s d with
  | nil => rfl
  | cons chunk rest ih =>
    let es := chunk.map (s.plan.encoder.encode s.quantizer v)
    let fs := rest.flatten.map (s.plan.encoder.encode s.quantizer v)
    have hsplit : (chunk :: rest).flatten.map (s.plan.encoder.encode s.quantizer v) = es ++ fs := by
      rw [List.flatten_cons, List.map_append]
    rw [hsplit, List.flatten_cons]
    cases hresult : (s.writeChunk es d).result with
    | error e =>
      simp only [es] at hresult
      simp only [writeChunks, hresult] at h
      have hfails := not_all_isSound_of_noFault hresult (hresult ▸ h)
      have hle : (examined es).length ≤ chunk.length := by
        have hlength := (prefix_examined es).length_le
        rwa [List.length_map] at hlength
      rw [examined_of_not_all hfails, List.take_append_of_le_length hle]
      simp only [es, lookedAt, hresult]
    | ok _ =>
      have hall := all_isSound_of_writeChunk hresult
      obtain ⟨⟨ps, hsession⟩, -⟩ := s.writeChunk_complaints es d
      have hfixed : (s.writeChunk es d).session.plan = s.plan ∧
          (s.writeChunk es d).session.quantizer = s.quantizer := by
        rw [hsession]
        exact ⟨rfl, rfl⟩
      simp only [es] at hresult
      simp only [writeChunks, hresult] at h
      have hmore := ih h
      rw [hfixed.1, hfixed.2] at hmore
      have hlength : es.length = chunk.length := List.length_map _
      rw [examined_of_all hall, List.length_append, hlength, List.take_length_add_append, ← hmore]
      simp only [lookedAt, hresult]

/-- A batch that does not fail is looked at as a whole. -/
theorem lookedAt_of_ok {s : Session} {v : PointView} {css : List (List Nat)} {d : σ}
    (h : (s.writeChunks v css d).result = .ok ()) : s.lookedAt v css d = css.flatten := by
  induction css generalizing s d with
  | nil => rfl
  | cons chunk rest ih =>
    rw [writeChunks] at h
    rw [List.flatten_cons, lookedAt]
    split
    · next hresult => simp [hresult] at h
    · next hresult =>
      simp only [hresult] at h
      rw [ih h]

/-- **What a batch is complained about**, and what else is said: how the offsets are chosen. -/
theorem write_complaints (s : Session) (v : PointView) (d : σ) :
    let cs := s.plan.encoder.complaintsAbout ((s.lookedAtOf v d).map v.point)
    (s.write v d).session.tally = s.tally.countAll cs ∧
      ∃ remarks, (∀ e ∈ remarks, e ∈ s.settleRemarks v) ∧
        (s.write v d).log = remarks ++ s.tally.entries s.plan.encoder.policy.max cs := by
  by_cases hsize : v.size = 0
  · have hnone : s.lookedAtOf v d = [] := by rw [lookedAtOf, s.chunks_eq_nil hsize, lookedAt]
    rw [hnone, write, if_pos hsize]
    exact ⟨rfl, [], by simp, rfl⟩
  · obtain ⟨htally, hlog⟩ := (s.settle v).writeChunks_complaints v (chunks s.chunkSize v.size) d
    have hdecided : s.decided v = s.settle v := by simp [decided, hsize]
    rw [(s.settle_fixed v).1, (s.settle_fixed v).2.2.2.1] at htally hlog
    rw [lookedAtOf, hdecided, write, if_neg hsize]
    exact ⟨htally, s.settleRemarks v, fun _ he => he, congrArg (s.settleRemarks v ++ ·) hlog⟩

/-- A batch comes to what its chunks come to, under the offsets that it decides. -/
theorem result_write (s : Session) (v : PointView) (d : σ) :
    (s.write v d).result =
      ((s.decided v).writeChunks v (chunks s.chunkSize v.size) d).result := by
  by_cases hsize : v.size = 0
  · rw [write, if_pos hsize, s.chunks_eq_nil hsize, writeChunks]
  · have hdecided : s.decided v = s.settle v := by simp [decided, hsize]
    rw [write, if_neg hsize, hdecided]

/-- The points of a batch that are looked at are its first ones: those up to the first that fails
unless the device does, and all of them if the batch does not fail. -/
theorem lookedAtOf_spec (s : Session) (v : PointView) (d : σ) :
    s.lookedAtOf v d <+: List.range v.size ∧
      (NoFault (s.write v d).result → s.lookedAtOf v d =
        (List.range v.size).take (examined ((s.decided v).encodings v)).length) ∧
      ((s.write v d).result = .ok () → s.lookedAtOf v d = List.range v.size) := by
  have hflatten := flatten_chunks s.chunkSize_pos v.size
  rw [result_write, lookedAtOf]
  refine ⟨?_, fun hnofault => ?_, fun hok => ?_⟩
  · rw [← hflatten]
    exact prefix_lookedAt _ _ _ _
  · rw [lookedAt_of_noFault hnofault, hflatten]
    rfl
  · rw [lookedAt_of_ok hok, hflatten]

end Session

end PointCloud
