import PointCloud.Proofs.Device.Watched
import PointCloud.Proofs.Points.Batches

/-!
# Batches on any device

On a device that may refuse, a batch stops at the first chunk that is refused,
and what is asked of the device until then is to store chunks: the records that it
is `offered`.  The points whose records it has `taken` are counted, and no others,
`counts_writeChunks`.

`Session.Writes` is what can be said of a batch whatever its device does: which
offsets it leaves decided, that everything it hands over is a record of one of its
points under these offsets, and that an error of a batch is about a point or about
the device and never about the stage of the writer.
-/

namespace PointCloud

/-- Whether a step has not failed by the device. -/
def NoFault (result : Except Error Unit) : Prop := ∀ fault, result ≠ .error (.device fault)

/-- Whether an error is about a value that does not fit. -/
def Error.IsOverflow : Error → Prop
  | .coordinateOverflow .. | .fieldOverflow .. => True
  | _ => False

namespace PointEncoder

open Except (FailsWith)

/-- A whole number is refused only if it does not fit. -/
theorem whole_failsWith (m : FieldMap) (v : PointView) (index : Nat) (low high : Int)
    (f : PointField) : (m.whole v index low high f).FailsWith Error.IsOverflow := by
  unfold FieldMap.whole
  split
  · split
    · exact FailsWith.ok _
    · exact FailsWith.error trivial
  · exact FailsWith.ok _

/-- A position is refused only if one of its coordinates does not fit. -/
theorem quantize_failsWith (q : Quantizer) (position : Triple Double) :
    (q.quantize position).FailsWith Error.IsOverflow := by
  have haxis : ∀ axis, (q.quantizeAxis position axis).FailsWith Error.IsOverflow := by
    intro axis
    unfold Quantizer.quantizeAxis
    split
    · exact FailsWith.ok _
    · exact FailsWith.error trivial
  exact (haxis .x).bind fun _ _ => (haxis .y).bind fun _ _ => (haxis .z).bind fun _ _ =>
    FailsWith.ok _

/-- A record is refused only if one of its fields does not fit. -/
theorem record_failsWith (e : PointEncoder) (v : PointView) (index : Nat) (stored : Triple Int32)
    (returnNumber numberOfReturns : UInt8) :
    (e.record v index stored returnNumber numberOfReturns).FailsWith Error.IsOverflow := by
  have hwhole := whole_failsWith e.fields v index
  unfold record FieldMap.word FieldMap.octet FieldMap.signedOctet
  repeat refine ((hwhole _ _ _).map _).bind fun _ _ => ?_
  exact FailsWith.ok _

/-- The extra dimensions are refused only if one of them does not fit. -/
theorem extra_failsWith (extra : ExtraBytes) (v : PointView) (index : Nat) :
    (extra.encode v index).FailsWith Error.IsOverflow := by
  refine FailsWith.bind (FailsWith.mapM fun f _ => ?_) fun _ _ => FailsWith.ok _
  unfold ExtraField.encode
  split
  · exact FailsWith.ok _
  · dsimp only
    split
    · exact FailsWith.ok _
    · exact FailsWith.error trivial

/-- A point fails only by a value that does not fit. -/
theorem outcome_failsWith (e : PointEncoder) (q : Quantizer) (v : PointView) (index : Nat) :
    (e.encode q v index).outcome.FailsWith Error.IsOverflow := by
  have hwhole := whole_failsWith e.fields v index
  have hreturns : (e.returns v index).FailsWith Error.IsOverflow :=
    ((hwhole _ _ _).map _).bind fun _ _ => ((hwhole _ _ _).map _).bind fun _ _ => FailsWith.ok _
  unfold encode
  split
  · next error herror => exact FailsWith.error (hreturns error herror)
  · dsimp only
    split
    · exact FailsWith.ok _
    · refine FailsWith.map ?_ _
      exact (quantize_failsWith q _).bind fun _ _ => (e.record_failsWith v index _ _ _).bind
        fun _ _ => (extra_failsWith e.extra v index).bind fun _ _ => FailsWith.ok _

end PointEncoder

open DeviceRequest (storing storing_cons)

variable {σ : Type}

/-- A part of a batch on a device that is watched. -/
def Progress.watched (p : Progress σ) (rs : List DeviceRequest) : Progress (Watched σ) :=
  ⟨p.result, p.session, ⟨p.device, rs⟩, p.log⟩

namespace Session

/-- What a batch comes to whatever the device does: its result, the session afterwards, and the
chunks of records that are handed over. -/
structure Writes (s : Session) (v : PointView) (result : Except Error Unit) (after : Session)
    (handed : List (List EncodedPoint)) : Prop where
  session : ∃ cs ps, after = ((s.decided v).noting cs).counting ps
  encoded : ∀ r ∈ handed.flatten, ∃ p ∈ v.points,
    (s.plan.encoder.encodePoint (s.decided v).quantizer p).outcome = .ok (some r)
  failure : result.FailsWith fun e => e.IsOverflow ∨ ∃ fault, e = .device fault

variable [Device σ]

/-- The indexes of the points whose records a device takes: of each chunk those to be written, up to
the first chunk that has a point which fails, or that the device refuses. -/
def taken (s : Session) (v : PointView) : List (List Nat) → σ → List Nat
  | [], _ => []
  | chunk :: rest, d =>
    let first := s.writeChunk (chunk.map (s.plan.encoder.encode s.quantizer v)) d
    match first.result with
    | .error _ => []
    | .ok _ => chunk.filter (s.plan.encoder.keeps v) ++ first.session.taken v rest first.device

/-- The records of a chunk, if none of its points fails. -/
def offeredOf (es : List Encoding) : List (List EncodedPoint) :=
  if es.all isSound then [es.filterMap point?] else []

/-- The records that a device is offered, chunk by chunk: those of each chunk without a point that
fails, up to the first chunk that has one, or that the device refuses. -/
def offered (s : Session) (v : PointView) : List (List Nat) → σ → List (List EncodedPoint)
  | [], _ => []
  | chunk :: rest, d =>
    let es := chunk.map (s.plan.encoder.encode s.quantizer v)
    let first := s.writeChunk es d
    match first.result with
    | .error _ => offeredOf es
    | .ok _ => offeredOf es ++ first.session.offered v rest first.device

theorem offeredOf_of_all {es : List Encoding} (h : es.all isSound = true) :
    offeredOf es = [es.filterMap point?] := if_pos h

theorem offeredOf_of_fails {es : List Encoding} {error : Error}
    (h : es.findSome? failure? = some error) : offeredOf es = [] := by
  refine if_neg fun hall => ?_
  rw [all_isSound_iff.mp hall] at h
  cases h

/-- What a device is offered of a chunk are records of its points. -/
theorem exists_of_mem_offeredOf {es : List Encoding} {r : EncodedPoint}
    (h : r ∈ (offeredOf es).flatten) : ∃ e ∈ es, e.outcome = .ok (some r) := by
  unfold offeredOf at h
  split at h
  · rw [List.flatten_singleton] at h
    obtain ⟨e, he, hpoint⟩ := List.mem_filterMap.mp h
    exact ⟨e, he, point?_eq_some_iff.mp hpoint⟩
  · cases h

/-- A chunk on a device that is watched asks it to store the records that it is offered. -/
theorem writeChunk_watched (s : Session) (es : List Encoding) (d : σ) (rs : List DeviceRequest) :
    s.writeChunk es ⟨d, rs⟩ =
      (s.writeChunk es d).watched (rs ++ storing ((offeredOf es).map recordsOf)) := by
  have hstep := s.chunkStep_writeChunk es d
  generalize s.writeChunk es d = p at hstep ⊢
  apply ChunkStep.eq
  cases hstep with
  | failed fails =>
    rw [offeredOf_of_fails fails, List.map_nil, DeviceRequest.storing_nil, List.append_nil]
    exact .failed fails
  | refused sound refuses =>
    rw [offeredOf_of_all sound]
    refine .refused sound ?_
    rw [Watched.storeSome_eq, refuses]
    rfl
  | stored sound takes =>
    rw [offeredOf_of_all sound]
    refine .stored sound ?_
    rw [Watched.storeSome_eq, takes]
    rfl

/-- A chunk fails by one of its points or by the device. -/
theorem writeChunk_failsWith (s : Session) (es : List Encoding) (d : σ) :
    (s.writeChunk es d).result.FailsWith fun error =>
      (∃ e ∈ es, e.outcome = .error error) ∨ ∃ fault, error = .device fault := by
  have hstep := s.chunkStep_writeChunk es d
  generalize s.writeChunk es d = p at hstep
  cases hstep with
  | failed fails =>
    obtain ⟨e, he, hfailure⟩ := List.exists_of_findSome?_eq_some fails
    exact .error (Or.inl ⟨e, he, failure?_eq_some_iff.mp hfailure⟩)
  | @refused fault _ sound refuses => exact .error (Or.inr ⟨fault, rfl⟩)
  | stored sound takes => exact .ok ()

/-- Chunks on a device that is watched ask it to store the records that it is offered. -/
theorem writeChunks_watched (s : Session) (v : PointView) (css : List (List Nat)) (d : σ)
    (rs : List DeviceRequest) :
    s.writeChunks v css ⟨d, rs⟩ =
      (s.writeChunks v css d).watched (rs ++ storing ((s.offered v css d).map recordsOf)) := by
  induction css generalizing s d rs with
  | nil => simp [writeChunks, offered, Progress.watched]
  | cons chunk rest ih =>
    let es := chunk.map (s.plan.encoder.encode s.quantizer v)
    have hfirst := s.writeChunk_watched es d rs
    rw [writeChunks, writeChunks, offered, hfirst]
    generalize s.writeChunk es d = p
    rcases p with ⟨r, u, d', log⟩
    cases r with
    | error e => rfl
    | ok _ =>
      simp only [es, ih, Progress.watched, List.map_append, DeviceRequest.storing_append,
        List.append_assoc]

/-- What a device is offered are records of points of the chunks, under the quantizer that the
session begins with. -/
theorem exists_of_mem_offered {s : Session} {v : PointView} {css : List (List Nat)} {d : σ}
    {r : EncodedPoint} (h : r ∈ (s.offered v css d).flatten) :
    ∃ i ∈ css.flatten, (s.plan.encoder.encode s.quantizer v i).outcome = .ok (some r) := by
  induction css generalizing s d with
  | nil => cases h
  | cons chunk rest ih =>
    let es := chunk.map (s.plan.encoder.encode s.quantizer v)
    have hfirst : r ∈ (offeredOf es).flatten → ∃ i ∈ (chunk :: rest).flatten,
        (s.plan.encoder.encode s.quantizer v i).outcome = .ok (some r) := by
      intro hr
      obtain ⟨e, he, houtcome⟩ := exists_of_mem_offeredOf hr
      obtain ⟨i, hi, rfl⟩ := List.mem_map.mp he
      exact ⟨i, List.mem_append_left _ hi, houtcome⟩
    have hstep := s.chunkStep_writeChunk es d
    rw [offered] at h
    generalize s.writeChunk es d = p at hstep h
    cases hstep with
    | failed fails | refused sound refuses => exact hfirst h
    | stored sound takes =>
      rw [List.flatten_append] at h
      rcases List.mem_append.mp h with hr | hr
      · exact hfirst hr
      · obtain ⟨i, hi, houtcome⟩ := ih hr
        exact ⟨i, List.mem_append_right _ hi, houtcome⟩

/-- Chunks fail by a value that does not fit, or by the device. -/
theorem writeChunks_failsWith (s : Session) (v : PointView) (css : List (List Nat)) (d : σ) :
    (s.writeChunks v css d).result.FailsWith fun e =>
      e.IsOverflow ∨ ∃ fault, e = .device fault := by
  induction css generalizing s d with
  | nil => exact .ok ()
  | cons chunk rest ih =>
    have hfirst := s.writeChunk_failsWith (chunk.map (s.plan.encoder.encode s.quantizer v)) d
    rw [writeChunks]
    generalize s.writeChunk (chunk.map (s.plan.encoder.encode s.quantizer v)) d = p at hfirst
    rcases p with ⟨r, u, d', log⟩
    cases r with
    | error error =>
      obtain ⟨e, he, houtcome⟩ | hdevice := hfirst error rfl
      · obtain ⟨i, -, rfl⟩ := List.mem_map.mp he
        exact .error (Or.inl (PointEncoder.outcome_failsWith _ _ _ _ error houtcome))
      · exact .error (Or.inr hdevice)
    | ok _ => exact ih u d'

/-- What is counted of the chunks of a view: the records that are taken of what is handed over,
which are all of these unless the device has refused some. -/
structure Counts (s : Session) (v : PointView) (css : List (List Nat)) (indexes : List Nat)
    (result : Except Error Unit) (after : Session) (handed : List (List EncodedPoint)) :
    Prop where
  session : ∃ cs, after = (s.noting cs).counting (s.recordsAt v indexes)
  sublist : indexes.Sublist css.flatten
  outcome : ∀ i ∈ indexes, ∃ r, (s.plan.encoder.encode s.quantizer v i).outcome = .ok (some r)
  taken : (s.recordsAt v indexes).Sublist handed.flatten
  handed : NoFault result → handed.flatten = s.recordsAt v indexes

/-- Where the first chunk is not stored nothing is counted. -/
theorem counts_nil (s : Session) (v : PointView) (css : List (List Nat))
    (cs : List Returns.Complaint) {result : Except Error Unit} {handed : List (List EncodedPoint)}
    (h : NoFault result → handed.flatten = []) :
    s.Counts v css [] result (s.noting cs) handed :=
  ⟨⟨cs, rfl⟩, List.nil_sublist _, by simp, List.nil_sublist _, h⟩

/-- A chunk that is stored is counted, and then what is counted of the others. -/
theorem Counts.cons {s after : Session} {v : PointView} {chunk indexes : List Nat}
    {rest : List (List Nat)} {cs : List Returns.Complaint} {result : Except Error Unit}
    {handed : List (List EncodedPoint)}
    (hsound : (chunk.map (s.plan.encoder.encode s.quantizer v)).all isSound = true)
    (h : ((s.noting cs).counting
      ((chunk.map (s.plan.encoder.encode s.quantizer v)).filterMap point?)).Counts v rest indexes
        result after handed) :
    s.Counts v (chunk :: rest) (chunk.filter (s.plan.encoder.keeps v) ++ indexes) result after
      ((chunk.map (s.plan.encoder.encode s.quantizer v)).filterMap point? :: handed) := by
  let first := (chunk.map (s.plan.encoder.encode s.quantizer v)).filterMap point?
  let kept := chunk.filter (s.plan.encoder.keeps v)
  have hkept : s.recordsAt v kept = first := by
    rw [show first = _ from List.filterMap_map]
    exact s.recordsAt_filter v chunk
  have happend : s.recordsAt v (kept ++ indexes) = first ++ s.recordsAt v indexes := by
    rw [← hkept, recordsAt, List.filterMap_append]
    rfl
  -- the quantizer and the encoder are those of `s`, so the other chunks are encoded alike
  obtain ⟨⟨cs', hsession⟩, hsublist, houtcome, htaken, hhanded⟩ := h
  refine ⟨⟨cs ++ cs', ?_⟩, ?_, ?_, ?_, ?_⟩
  · rw [happend, ← noting_counting]
    exact hsession
  · exact List.filter_sublist.append hsublist
  · intro i hi
    rcases List.mem_append.mp hi with hi | hi
    · obtain ⟨hin, hkeeps⟩ := List.mem_filter.mp hi
      have hencoding := List.all_eq_true.mp hsound _ (List.mem_map.mpr ⟨i, hin, rfl⟩)
      exact PointEncoder.outcome_of_keeps hkeeps hencoding
    · exact houtcome i hi
  · rw [happend, List.flatten_cons]
    exact (List.Sublist.refl first).append htaken
  · intro hnofault
    rw [happend, List.flatten_cons, hhanded hnofault]
    rfl

/-- **What is counted of chunks** are the points whose records the device takes. -/
theorem counts_writeChunks (s : Session) (v : PointView) (css : List (List Nat)) (d : σ) :
    s.Counts v css (s.taken v css d) (s.writeChunks v css d).result (s.writeChunks v css d).session
      (s.offered v css d) := by
  induction css generalizing s d with
  | nil => exact s.counts_nil v [] [] fun _ => rfl
  | cons chunk rest ih =>
    let es := chunk.map (s.plan.encoder.encode s.quantizer v)
    have hstep := s.chunkStep_writeChunk es d
    rw [taken, writeChunks, offered]
    generalize s.writeChunk es d = p at hstep ⊢
    cases hstep with
    | failed fails => exact s.counts_nil v _ _ fun _ => by rw [offeredOf_of_fails fails]; rfl
    | @refused fault _ sound refuses => exact s.counts_nil v _ _ fun h => absurd rfl (h fault)
    | stored sound takes =>
      rw [offeredOf_of_all sound]
      exact (ih _ _).cons sound

/-- The indexes of the points of a view whose records the device takes. -/
def takenOf (s : Session) (v : PointView) (d : σ) : List Nat :=
  (s.decided v).taken v (chunks s.chunkSize v.size) d

/-- **A batch on a device that is watched** asks it to store chunks, and is otherwise the same.  The
points that are counted are those whose records the device has taken. -/
theorem write_taken (s : Session) (v : PointView) (d : σ) :
    ∃ handed : List (List EncodedPoint),
      (∀ rs, s.write v ⟨d, rs⟩ =
        (s.write v d).watched (rs ++ storing (handed.map recordsOf))) ∧
      s.Writes v (s.write v d).result (s.write v d).session handed ∧
      (s.decided v).Counts v (chunks s.chunkSize v.size) (s.takenOf v d) (s.write v d).result
        (s.write v d).session handed := by
  by_cases hsize : v.size = 0
  · have hdecided : s.decided v = s := by simp [decided, hsize]
    have hchunks := s.chunks_eq_nil hsize
    have htaken : s.takenOf v d = [] := by simp [takenOf, hchunks, taken]
    rw [htaken, hchunks, hdecided]
    simp only [write, hsize, if_true]
    refine ⟨[], ?_, ⟨⟨[], [], ?_⟩, by simp, .ok ()⟩, s.counts_nil v [] [] fun _ => rfl⟩
    · intro rs
      simp [Progress.watched]
    · rw [hdecided]
      rfl
  · have hdecided : s.decided v = s.settle v := by simp [decided, hsize]
    let t := s.settle v
    let css := chunks s.chunkSize v.size
    have hcounts := t.counts_writeChunks v css d
    obtain ⟨cs, hsession⟩ := hcounts.session
    simp only [takenOf, hdecided]
    simp only [write, hsize, if_false]
    refine ⟨t.offered v css d, ?_, ⟨?_, ?_, t.writeChunks_failsWith v css d⟩, hcounts⟩
    · intro rs
      simp only [writeChunks_watched, Progress.watched, t, css]
    · rw [hdecided]
      exact ⟨cs, _, hsession⟩
    · intro r hr
      obtain ⟨i, hi, houtcome⟩ := exists_of_mem_offered hr
      rw [flatten_chunks s.chunkSize_pos] at hi
      refine ⟨v.point i, List.mem_map.mpr ⟨i, hi, rfl⟩, ?_⟩
      rw [hdecided, ← PointEncoder.encode_eq, ← (s.settle_fixed v).1]
      exact houtcome

end Session

end PointCloud
