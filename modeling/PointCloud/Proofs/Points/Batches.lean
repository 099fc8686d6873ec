import PointCloud.Proofs.Points.Chunks

/-!
# Batches

A batch first decides the offsets that are still open, `Session.decided`, and
then goes through its chunks.  `write_memory` puts the two together: on memory a
batch is described by the encodings of its points under the decided offsets,
whether or not it has any points.

Which points are stored is said by their indexes.  `PointEncoder.keptBelow` lists
the points below an index that their return numbers let through;
`storedOf_of_sound` and `storedOf_of_failing` say that a batch stores all of
them, or those below the chunk of the first point that fails.
-/

namespace PointCloud

namespace PointEncoder

/-- Whether a point is to be written as far as its return numbers say. -/
def keeps (e : PointEncoder) (v : PointView) (index : Nat) : Bool :=
  match e.returns v index with
  | .ok (returnNumber, numberOfReturns) =>
    Returns.verdict e.policy returnNumber numberOfReturns != .discard
  | .error _ => false

/-- The points below an index that are to be written. -/
def keptBelow (e : PointEncoder) (v : PointView) (n : Nat) : List Nat :=
  (List.range n).filter (e.keeps v)

/-- A point that its return numbers do not let through has no record. -/
theorem point?_of_not_keeps {e : PointEncoder} {v : PointView} {index : Nat}
    (h : e.keeps v index = false) (q : Quantizer) :
    Session.point? (e.encode q v index) = none := by
  unfold keeps at h
  unfold encode Session.point?
  cases hreturns : e.returns v index with
  | error error => rfl
  | ok pair =>
    rcases pair with ⟨returnNumber, numberOfReturns⟩
    simp only [hreturns, bne_eq_false_iff_eq] at h
    simp [h]

/-- A point that they let through has one, unless it fails. -/
theorem outcome_of_keeps {e : PointEncoder} {v : PointView} {index : Nat}
    (h : e.keeps v index = true) {q : Quantizer}
    (hsound : Session.isSound (e.encode q v index) = true) :
    ∃ r, (e.encode q v index).outcome = .ok (some r) := by
  unfold keeps at h
  unfold Session.isSound Session.failure? encode at hsound
  unfold encode
  cases hreturns : e.returns v index with
  | error error => simp [hreturns] at h
  | ok pair =>
    rcases pair with ⟨returnNumber, numberOfReturns⟩
    simp only [hreturns, bne_iff_ne, ne_eq] at h hsound ⊢
    cases hverdict : Returns.verdict e.policy returnNumber numberOfReturns with
    | discard => exact absurd hverdict h
    | keep count =>
      simp only [hverdict] at hsound ⊢
      cases hkept : e.encodeKept q v index returnNumber count with
      | error error => simp [hkept, Except.map] at hsound
      | ok r => exact ⟨r, rfl⟩

end PointEncoder

namespace Session

/-- The session after a view has decided the offsets that are open. -/
def decided (s : Session) (v : PointView) : Session := if v.size = 0 then s else s.settle v

/-- What comes of the points of a view. -/
def encodings (s : Session) (v : PointView) : List Encoding :=
  (List.range v.size).map (s.plan.encoder.encode s.quantizer v)

/-- What is stored of the points of a view. -/
def storedOf (s : Session) (v : PointView) : List EncodedPoint :=
  stored ((chunks s.chunkSize v.size).map fun chunk =>
    chunk.map (s.plan.encoder.encode s.quantizer v))

/-- The records of points given by their indexes. -/
def recordsAt (s : Session) (v : PointView) (indexes : List Nat) : List EncodedPoint :=
  indexes.filterMap fun i => point? (s.plan.encoder.encode s.quantizer v i)

/-- Settling the offsets touches nothing but the quantizer. -/
theorem settle_fixed (s : Session) (v : PointView) :
    (s.settle v).plan = s.plan ∧ (s.settle v).start = s.start ∧
      (s.settle v).records = s.records ∧ (s.settle v).tally = s.tally ∧
      (s.settle v).summary = s.summary := by
  unfold settle
  split <;> exact ⟨rfl, rfl, rfl, rfl, rfl⟩

/-- Deciding the offsets touches nothing but the quantizer. -/
theorem decided_fixed (s : Session) (v : PointView) :
    (s.decided v).plan = s.plan ∧ (s.decided v).start = s.start ∧
      (s.decided v).records = s.records ∧ (s.decided v).tally = s.tally ∧
      (s.decided v).summary = s.summary := by
  unfold decided
  split
  · exact ⟨rfl, rfl, rfl, rfl, rfl⟩
  · exact s.settle_fixed v

/-- Once the offsets are settled, a view decides nothing. -/
theorem decided_of_settled {s : Session} (h : s.settled = true) (v : PointView) :
    s.decided v = s := by
  simp [decided, settle, h]

@[simp] theorem plan_decided (s : Session) (v : PointView) : (s.decided v).plan = s.plan :=
  (s.decided_fixed v).1

@[simp] theorem chunkSize_decided (s : Session) (v : PointView) :
    (s.decided v).chunkSize = s.chunkSize := by
  simp [chunkSize]

/-- A chunk has room for a point. -/
theorem chunkSize_pos (s : Session) : 0 < s.chunkSize := by
  unfold chunkSize
  omega

/-- A view without points has no chunks. -/
theorem chunks_eq_nil (s : Session) {v : PointView} (h : v.size = 0) :
    chunks s.chunkSize v.size = [] := by
  have hlt : s.chunkSize - 1 < s.chunkSize := by have := s.chunkSize_pos; omega
  simp [h, chunks, Nat.div_eq_of_lt hlt]

/-- Cut into chunks or not, the same points are encoded. -/
theorem flatten_encodings (s : Session) (v : PointView) :
    ((chunks s.chunkSize v.size).map fun chunk =>
      chunk.map (s.plan.encoder.encode s.quantizer v)).flatten = s.encodings v := by
  rw [← List.map_flatten, flatten_chunks s.chunkSize_pos, encodings]

/-- Points are encoded by themselves. -/
theorem encodings_eq (s : Session) (v : PointView) :
    s.encodings v = v.points.map (s.plan.encoder.encodePoint s.quantizer) := by
  rw [encodings, PointView.points, List.map_map]
  rfl

/-- What is stored of a view has come of one of its points. -/
theorem exists_of_mem_storedOf {s : Session} {v : PointView} {r : EncodedPoint}
    (h : r ∈ s.storedOf v) :
    ∃ p ∈ v.points, (s.plan.encoder.encodePoint s.quantizer p).outcome = .ok (some r) := by
  obtain ⟨e, he, hr⟩ := List.mem_filterMap.mp h
  have hmem : e ∈ s.encodings v := by
    rw [← flatten_encodings]
    obtain ⟨es, hes, hin⟩ := List.mem_flatten.mp he
    exact List.mem_flatten.mpr ⟨es, (List.takeWhile_sublist _).mem hes, hin⟩
  rw [encodings_eq] at hmem
  obtain ⟨p, hp, rfl⟩ := List.mem_map.mp hmem
  exact ⟨p, hp, point?_eq_some_iff.mp hr⟩

/-- **What a batch comes to.** -/
theorem write_memory (s : Session) (v : PointView) {m : Memory} (hm : m.capacity = none) :
    (s.write v m).result = batchResult ((s.decided v).encodings v) ∧
      (s.write v m).session =
        ((s.decided v).noting (complaints ((s.decided v).encodings v))).counting
          ((s.decided v).storedOf v) ∧
      (s.write v m).device = m.put (recordsOf ((s.decided v).storedOf v)) := by
  by_cases hsize : v.size = 0
  · have hstored : s.storedOf v = [] := by
      simp [storedOf, s.chunks_eq_nil hsize, stored, wholeChunks]
    have hencodings : s.encodings v = [] := by simp [encodings, hsize]
    simp only [write, decided, hsize, if_true, hstored, hencodings]
    exact ⟨rfl, rfl, rfl⟩
  · have hwrite := (s.settle v).writeChunks_memory v (chunks s.chunkSize v.size) hm
    have hsettle : s.decided v = s.settle v := by simp [decided, hsize]
    have hchunk : s.chunkSize = (s.settle v).chunkSize := by
      rw [← hsettle, chunkSize_decided]
    simp only [write, hsize, if_false, hwrite, hsettle]
    rw [hchunk, flatten_encodings]
    exact ⟨rfl, rfl, rfl⟩

/-- A view decides what is open, and then no view decides anything. -/
theorem decided_decided (s : Session) {v u : PointView} (h : v.size = 0 → u.size = 0) :
    (s.decided v).decided u = s.decided v := by
  by_cases hv : v.size = 0
  · simp [decided, hv, h hv]
  · have hsettled : (s.settle v).settled = true := by
      unfold settle
      split
      · next h => exact h
      · rfl
    have hdecided : s.decided v = s.settle v := if_neg hv
    rw [hdecided]
    exact decided_of_settled hsettled u

/-- The points to be written are those that their return numbers let through. -/
theorem recordsAt_filter (s : Session) (v : PointView) (indexes : List Nat) :
    s.recordsAt v (indexes.filter (s.plan.encoder.keeps v)) =
      indexes.filterMap fun i => point? (s.plan.encoder.encode s.quantizer v i) := by
  rw [recordsAt, List.filterMap_filter]
  congr 1
  funext i
  by_cases hkeeps : s.plan.encoder.keeps v i = true
  · simp [hkeeps]
  · have hnone := PointEncoder.point?_of_not_keeps (Bool.not_eq_true _ ▸ hkeeps) s.quantizer
    simp [hkeeps, hnone]

/-- The points to be written below an index have the records that are made below it. -/
theorem recordsAt_keptBelow (s : Session) (v : PointView) (n : Nat) :
    s.recordsAt v (s.plan.encoder.keptBelow v n) =
      (List.range n).filterMap fun i => point? (s.plan.encoder.encode s.quantizer v i) :=
  s.recordsAt_filter v (List.range n)

/-- Points that become records have one record each. -/
theorem forall₂_recordsAt_of_mem {s : Session} {v : PointView} {indexes : List Nat}
    (h : ∀ i ∈ indexes, ∃ r, (s.plan.encoder.encode s.quantizer v i).outcome = .ok (some r)) :
    List.Forall₂ (fun i r => (s.plan.encoder.encode s.quantizer v i).outcome = .ok (some r))
      indexes (s.recordsAt v indexes) := by
  induction indexes with
  | nil => exact List.Forall₂.nil
  | cons i indexes ih =>
    obtain ⟨r, hr⟩ := h i List.mem_cons_self
    have htail := ih fun j hj => h j (List.mem_cons_of_mem i hj)
    have hhead : point? (s.plan.encoder.encode s.quantizer v i) = some r :=
      point?_eq_some_iff.mpr hr
    simp only [recordsAt, List.filterMap_cons, hhead]
    exact List.Forall₂.cons hr htail

/-- The points to be written have one record each, as long as none of them fails. -/
theorem forall₂_recordsAt (s : Session) (v : PointView) (n : Nat)
    (hsound : ∀ i < n, isSound (s.plan.encoder.encode s.quantizer v i) = true) :
    List.Forall₂ (fun i r => (s.plan.encoder.encode s.quantizer v i).outcome = .ok (some r))
      (s.plan.encoder.keptBelow v n) (s.recordsAt v (s.plan.encoder.keptBelow v n)) := by
  apply forall₂_recordsAt_of_mem
  intro i hi
  obtain ⟨hlt, hkeeps⟩ := List.mem_filter.mp hi
  exact PointEncoder.outcome_of_keeps hkeeps (hsound i (List.mem_range.mp hlt))

/-- A batch without a failing point stores all that comes of its points. -/
theorem storedOf_of_all (s : Session) (v : PointView)
    (hall : (s.encodings v).all isSound = true) :
    s.storedOf v = (s.encodings v).filterMap point? := by
  have hwhole : ∀ es ∈ (chunks s.chunkSize v.size).map fun chunk =>
      chunk.map (s.plan.encoder.encode s.quantizer v), es.all isSound = true := by
    rw [← flatten_encodings, List.all_flatten, List.all_eq_true] at hall
    exact hall
  rw [storedOf, stored, wholeChunks_of_all hwhole, flatten_encodings]

/-- A batch without a failing point stores all points that are to be written. -/
theorem storedOf_of_sound (s : Session) (v : PointView)
    (hsound : ∀ i < v.size, isSound (s.plan.encoder.encode s.quantizer v i) = true) :
    batchResult (s.encodings v) = .ok () ∧
      s.storedOf v = s.recordsAt v (s.plan.encoder.keptBelow v v.size) := by
  have hall : (s.encodings v).all isSound = true := by
    simp only [encodings, List.all_map, List.all_eq_true, List.mem_range]
    exact hsound
  constructor
  · simp [batchResult, all_isSound_iff.mp hall]
  · rw [recordsAt_keptBelow, storedOf_of_all s v hall, encodings, List.filterMap_map]
    rfl

/-- A batch with a failing point stores what is to be written of the chunks in front of it. -/
theorem storedOf_of_failing (s : Session) (v : PointView) {i : Nat} (hi : i < v.size)
    {e : Error} (hfail : (s.plan.encoder.encode s.quantizer v i).outcome = .error e)
    (hsound : ∀ j < i, isSound (s.plan.encoder.encode s.quantizer v j) = true) :
    batchResult (s.encodings v) = .error e ∧
      s.storedOf v =
        s.recordsAt v (s.plan.encoder.keptBelow v (s.chunkSize * (i / s.chunkSize))) := by
  have hfailure : failure? (s.plan.encoder.encode s.quantizer v i) = some e :=
    failure?_eq_some_iff.mpr hfail
  constructor
  · have hsplit : s.encodings v =
        (List.range i).map (s.plan.encoder.encode s.quantizer v) ++
          s.plan.encoder.encode s.quantizer v i ::
            (List.range' (i + 1) (v.size - i - 1)).map (s.plan.encoder.encode s.quantizer v) := by
      rw [encodings, List.range_eq_range', List.range_eq_range', ← List.map_cons, ← List.map_append,
        ← List.range'_succ]
      have happend := List.range'_append_1 (s := 0) (m := i) (n := v.size - i - 1 + 1)
      rw [Nat.zero_add] at happend
      rw [happend]
      congr 2
      omega
    have hfirst : (s.encodings v).findSome? failure? = some e := by
      rw [hsplit]
      refine List.findSome?_eq_some_iff.mpr ⟨_, _, _, rfl, hfailure, ?_⟩
      intro x hx
      obtain ⟨j, hj, rfl⟩ := List.mem_map.mp hx
      simpa [isSound] using hsound j (List.mem_range.mp hj)
    simp [batchResult, hfirst]
  · have hunsound : isSound (s.plan.encoder.encode s.quantizer v i) = false := by
      simp [isSound, hfailure]
    have hwhole := takeWhile_chunks s.chunkSize_pos v.size
      (p := fun j => isSound (s.plan.encoder.encode s.quantizer v j)) hi hunsound hsound
    have hle : i / s.chunkSize * s.chunkSize ≤ v.size :=
      Nat.le_trans (Nat.div_mul_le_self i s.chunkSize) (Nat.le_of_lt hi)
    have hfun : (fun es : List Encoding => es.all isSound) ∘
        (fun chunk : List Nat => chunk.map (s.plan.encoder.encode s.quantizer v)) =
          fun chunk => chunk.all fun j => isSound (s.plan.encoder.encode s.quantizer v j) := by
      funext chunk
      simp [Function.comp_def, List.all_map]
    rw [recordsAt_keptBelow, storedOf, stored, wholeChunks, List.takeWhile_map, hfun, hwhole,
      ← List.map_flatten, flatten_take_chunks s.chunkSize_pos, Nat.min_eq_left hle,
      List.filterMap_map, Nat.mul_comm]
    rfl

end Session

end PointCloud
