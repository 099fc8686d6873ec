import PointCloud.Proofs.Device.Storing
import PointCloud.Proofs.Points.Encoding
import PointCloud.Writer.Session

/-!
# Chunks

A batch is cut into chunks, and a chunk with a point that fails is lost as a
whole.  Which points of a batch are stored is therefore a matter of whole
numbers alone: with `size` points to a chunk, and the first failing point at the
index `i`, it is the points below `size * (i / size)`.  `flatten_take_chunks` and
`takeWhile_chunks` are that fact.

`ChunkStep` is all that may come of a chunk on any device: one of its points fails,
or the device refuses the records, or it takes them and they are counted.

`writeChunks_memory` says once and for all what writing chunks to memory comes
to.  The result is the first error, the complaints are those about the points
that are looked at, and what is stored and counted is the points of the chunks
in front of the first that has a failing point.
-/

namespace PointCloud

namespace Returns.Tally

/-- Counting complaints and putting them into entries goes on from where it stands. -/
theorem foldl_entry (max : UInt8) (cs : List Complaint) (t : Tally) (log : List LogEntry) :
    cs.foldl (fun (state : Tally × List LogEntry) c =>
        (state.1.count c, state.1.entry max c :: state.2)) (t, log) =
      (t.countAll cs, (t.entries max cs).reverse ++ log) := by
  induction cs generalizing t log with
  | nil => rfl
  | cons c cs ih =>
    have hrest : t.entries max (c :: cs) = t.entry max c :: (t.count c).entries max cs := by
      rw [entries, List.foldl_cons, ih]
      simp
    rw [List.foldl_cons, ih, hrest]
    simp [countAll]

/-- Complaints that come up in two goes are put as if they had come up in one. -/
theorem entries_append (t : Tally) (max : UInt8) (cs ds : List Complaint) :
    t.entries max (cs ++ ds) = t.entries max cs ++ (t.countAll cs).entries max ds := by
  rw [entries, List.foldl_append, foldl_entry, foldl_entry]
  simp

end Returns.Tally

namespace Session

/-- The indexes of the first chunks are the first indexes. -/
theorem flatten_map_range (size count n : Nat) :
    ((List.range n).map fun i => List.range' (i * size) (min size (count - i * size))).flatten =
      List.range (min (n * size) count) := by
  induction n with
  | zero => simp
  | succ n ih =>
    have hlast : List.range (min (n * size) count) ++
        List.range' (n * size) (min size (count - n * size)) =
          List.range (min ((n + 1) * size) count) := by
      rw [Nat.succ_mul]
      by_cases hle : n * size ≤ count
      · rw [Nat.min_eq_left hle, List.range_eq_range', List.range_eq_range',
          show min (n * size + size) count = n * size + min size (count - n * size) by omega]
        have happend := List.range'_append_1 (s := 0) (m := n * size)
          (n := min size (count - n * size))
        rwa [Nat.zero_add] at happend
      · have hempty : min size (count - n * size) = 0 := by omega
        rw [hempty, show min (n * size + size) count = min (n * size) count by omega]
        simp
    rw [List.range_succ, List.map_append, List.flatten_append, ih]
    simpa using hlast

variable {size : Nat} (hsize : 0 < size) (count : Nat)

include hsize

/-- There are chunks enough for all points. -/
theorem count_le_chunks : count ≤ (count + size - 1) / size * size := by
  have hmod := Nat.div_add_mod (count + size - 1) size
  have hlt := Nat.mod_lt (count + size - 1) hsize
  rw [Nat.mul_comm] at hmod
  omega

/-- The first `n` chunks are the indexes below `n * size`. -/
theorem flatten_take_chunks (n : Nat) :
    ((chunks size count).take n).flatten = List.range (min (n * size) count) := by
  have hall := count_le_chunks hsize count
  rw [chunks, ← List.map_take, List.take_range, flatten_map_range]
  congr 1
  rcases Nat.le_total n ((count + size - 1) / size) with hle | hle
  · rw [Nat.min_eq_left hle]
  · have hmul := Nat.mul_le_mul_right size hle
    rw [Nat.min_eq_right hle]
    omega

/-- Cutting a batch into chunks loses no point. -/
theorem flatten_chunks : (chunks size count).flatten = List.range count := by
  have hall := count_le_chunks hsize count
  have htake := flatten_take_chunks hsize count ((count + size - 1) / size)
  rwa [List.take_of_length_le (by simp [chunks]), Nat.min_eq_right hall] at htake

/-- The chunks in front of the first with a failing point are those in front of the chunk that the
first failing point lies in. -/
theorem takeWhile_chunks {p : Nat → Bool} {i : Nat} (hi : i < count) (hfail : p i = false)
    (hbefore : ∀ j < i, p j = true) :
    (chunks size count).takeWhile (fun chunk => chunk.all p) =
      (chunks size count).take (i / size) := by
  have hdiv : i / size * size ≤ i := Nat.div_mul_le_self i size
  have hmod : i < i / size * size + size := by
    have := Nat.lt_div_mul_add (a := i) hsize
    omega
  have hlt : i / size < (chunks size count).length := by
    have hall := count_le_chunks hsize count
    rw [chunks, List.length_map, List.length_range]
    by_contra hge
    have hmul := Nat.mul_le_mul_right size (Nat.not_lt.mp hge)
    omega
  rw [List.takeWhile_eq_take_findIdx_not]
  congr 1
  rw [List.findIdx_eq hlt]
  simp only [chunks, List.getElem_map, List.getElem_range, Bool.not_eq_true', List.all_eq_false,
    List.mem_range'_1, Bool.not_eq_true, Bool.not_eq_false', List.all_eq_true]
  refine ⟨⟨i, ⟨hdiv, by omega⟩, hfail⟩, ?_⟩
  intro j hj x hx
  have hmul : (j + 1) * size ≤ i / size * size := Nat.mul_le_mul_right size hj
  rw [Nat.succ_mul] at hmul
  exact hbefore x (by omega)

omit hsize

/-- The error of an encoding is the one that it has come to. -/
theorem failure?_eq_some_iff {e : Encoding} {error : Error} :
    failure? e = some error ↔ e.outcome = .error error := by
  cases h : e.outcome <;> simp [failure?, h]

/-- The record of an encoding is the one that it has come to. -/
theorem point?_eq_some_iff {e : Encoding} {r : EncodedPoint} :
    point? e = some r ↔ e.outcome = .ok (some r) := by
  cases h : e.outcome <;> simp [point?, h]

/-- Whether a point could be encoded. -/
def isSound (e : Encoding) : Bool := (failure? e).isNone

/-- A point that could be encoded has come to a record or to none. -/
theorem isSound_iff {e : Encoding} : isSound e = true ↔ ∃ r?, e.outcome = .ok r? := by
  cases h : e.outcome <;> simp [isSound, failure?, h]

/-- The chunks in front of the first with a point that fails. -/
def wholeChunks (ess : List (List Encoding)) : List (List Encoding) :=
  ess.takeWhile fun es => es.all isSound

/-- What is stored of chunks. -/
def stored (ess : List (List Encoding)) : List EncodedPoint :=
  (wholeChunks ess).flatten.filterMap point?

/-- What comes of a batch with the given encodings. -/
def batchResult (es : List Encoding) : Except Error Unit :=
  match es.findSome? failure? with
  | some e => .error e
  | none => .ok ()

/-- The octets of records, one behind the other. -/
def recordsOf (ps : List EncodedPoint) : Octets := ps.flatMap (·.bytes)

/-- If no point fails, all chunks are in front of the first that does. -/
theorem wholeChunks_of_all {ess : List (List Encoding)}
    (h : ∀ es ∈ ess, es.all isSound = true) : wholeChunks ess = ess := by
  induction ess with
  | nil => rfl
  | cons es ess ih =>
    obtain ⟨hes, hess⟩ := List.forall_mem_cons.mp h
    have hrest := ih hess
    rw [wholeChunks] at hrest ⊢
    simp only [List.takeWhile_cons, hes, if_true, hrest]

/-- No point fails just if none is found that does. -/
theorem all_isSound_iff {es : List Encoding} :
    es.all isSound = true ↔ es.findSome? failure? = none := by
  simp [isSound, List.all_eq_true, List.findSome?_eq_none_iff]

/-- Behind points that do not fail, the others are looked at. -/
theorem examined_of_all {es : List Encoding} (h : es.all isSound = true) (fs : List Encoding) :
    examined (es ++ fs) = es ++ examined fs := by
  have hmem : ∀ e ∈ es, (failure? e).isNone = true := List.all_eq_true.mp h
  simp only [examined]
  rw [List.takeWhile_append_of_pos hmem, List.dropWhile_append_of_pos hmem, List.append_assoc]

/-- Behind a point that fails, none is looked at. -/
theorem examined_of_not_all {es : List Encoding} (h : es.all isSound ≠ true)
    (fs : List Encoding) : examined (es ++ fs) = examined es := by
  induction es with
  | nil => simp at h
  | cons e es ih =>
    by_cases he : (failure? e).isNone = true
    · have hrest : es.all isSound ≠ true := by
        intro hall
        exact h (by simp [isSound, he, hall])
      have htail := ih hrest
      simp only [examined] at htail ⊢
      simp only [List.cons_append, List.takeWhile_cons, List.dropWhile_cons, he, if_true, htail]
    · simp [examined, he]

/-- Behind points that do not fail, the others are complained about. -/
theorem complaints_append_of_all {es : List Encoding} (h : es.all isSound = true)
    (fs : List Encoding) : complaints (es ++ fs) = complaints es ++ complaints fs := by
  have hself : examined es = es := by
    have := examined_of_all h []
    simpa [examined] using this
  rw [complaints, examined_of_all h, List.flatMap_append, complaints, hself, complaints]

/-- What is noted and counted in two goes may be noted and counted in one. -/
theorem noting_counting (s : Session) (cs ds : List Returns.Complaint)
    (ps qs : List EncodedPoint) :
    (((s.noting cs).counting ps).noting ds).counting qs =
      (s.noting (cs ++ ds)).counting (ps ++ qs) := by
  simp only [noting, counting, Returns.Tally.countAll_append, List.map_append,
    Summary.addAll_append]

@[simp] theorem counting_nil (s : Session) : s.counting [] = s := rfl

section AnyDevice

variable {σ : Type} [Device σ]

/-- What may come of a chunk.  A point of it fails, or the device refuses its records, and then
nothing is counted; or the device takes the records.  The complaints are noted in any case. -/
inductive ChunkStep (s : Session) (es : List Encoding) (d : σ) : Progress σ → Prop
  | failed {error : Error} (fails : es.findSome? failure? = some error) :
    s.ChunkStep es d ⟨.error error, s.noting (complaints es), d,
      s.tally.entries s.plan.encoder.policy.max (complaints es)⟩
  | refused {fault : DeviceFault} {after : σ} (sound : es.all isSound = true)
      (refuses : Device.storeSome (recordsOf (es.filterMap point?)) d = (.error fault, after)) :
    s.ChunkStep es d ⟨.error (.device fault), s.noting (complaints es), after,
      s.tally.entries s.plan.encoder.policy.max (complaints es)⟩
  | stored {after : σ} (sound : es.all isSound = true)
      (takes : Device.storeSome (recordsOf (es.filterMap point?)) d = (.ok (), after)) :
    s.ChunkStep es d ⟨.ok (), (s.noting (complaints es)).counting (es.filterMap point?), after,
      s.tally.entries s.plan.encoder.policy.max (complaints es)⟩

/-- Writing a chunk comes to one of the three. -/
theorem chunkStep_writeChunk (s : Session) (es : List Encoding) (d : σ) :
    s.ChunkStep es d (s.writeChunk es d) := by
  unfold writeChunk
  cases hfirst : es.findSome? failure? with
  | some error => exact .failed hfirst
  | none =>
    have hsound := all_isSound_iff.mpr hfirst
    rcases hstore : Device.storeSome (recordsOf (es.filterMap point?)) d with ⟨r, after⟩
    have hsame : Device.storeSome ((es.filterMap point?).flatMap (·.bytes)) d = _ := hstore
    simp only [hsame]
    cases r with
    | error fault => exact .refused hsound hstore
    | ok _ => exact .stored hsound hstore

/-- Only one thing comes of a chunk. -/
theorem ChunkStep.eq {s : Session} {es : List Encoding} {d : σ} {p : Progress σ}
    (h : s.ChunkStep es d p) : s.writeChunk es d = p := by
  unfold writeChunk
  cases h with
  | failed fails => simp only [fails]
  | refused sound refuses =>
    rw [recordsOf] at refuses
    simp only [all_isSound_iff.mp sound, refuses]
  | stored sound takes =>
    rw [recordsOf] at takes
    simp only [all_isSound_iff.mp sound, takes]

end AnyDevice

/-- A chunk is stored if none of its points fails. -/
theorem writeChunk_memory (s : Session) (es : List Encoding) {m : Memory}
    (hm : m.capacity = none) :
    s.writeChunk es m =
      ⟨batchResult es, (s.noting (complaints es)).counting (stored [es]),
        m.put (recordsOf (stored [es])),
        s.tally.entries s.plan.encoder.policy.max (complaints es)⟩ := by
  cases hfirst : es.findSome? failure? with
  | some e =>
    have hall : es.all isSound = false := by
      rw [Bool.eq_false_iff, ne_eq, all_isSound_iff, hfirst]
      simp
    rw [(ChunkStep.failed hfirst).eq]
    simp [batchResult, hfirst, stored, wholeChunks, hall, recordsOf]
  | none =>
    have hall : es.all isSound = true := all_isSound_iff.mpr hfirst
    rw [(ChunkStep.stored hall (Memory.storeSome_of_capacity hm _)).eq]
    simp [batchResult, hfirst, stored, wholeChunks, hall]

/-- **What writing chunks comes to.** -/
theorem writeChunks_memory (s : Session) (v : PointView) (css : List (List Nat)) {m : Memory}
    (hm : m.capacity = none) :
    let ess := css.map fun chunk => chunk.map (s.plan.encoder.encode s.quantizer v)
    s.writeChunks v css m =
      ⟨batchResult ess.flatten, (s.noting (complaints ess.flatten)).counting (stored ess),
        m.put (recordsOf (stored ess)),
        s.tally.entries s.plan.encoder.policy.max (complaints ess.flatten)⟩ := by
  intro ess
  induction css generalizing s m with
  | nil => rfl
  | cons chunk rest ih =>
    let es := chunk.map (s.plan.encoder.encode s.quantizer v)
    let fss := rest.map fun chunk => chunk.map (s.plan.encoder.encode s.quantizer v)
    have hess : ess = es :: fss := rfl
    have hfirst := s.writeChunk_memory es hm
    simp only [es] at hfirst
    rw [writeChunks, hfirst, hess, List.flatten_cons]
    by_cases hall : es.all isSound = true
    · have hnone := all_isSound_iff.mp hall
      have hresult : batchResult es = .ok () := by simp [batchResult, hnone]
      have hresults : batchResult (es ++ fss.flatten) = batchResult fss.flatten := by
        simp [batchResult, List.findSome?_append, hnone]
      have hstored : stored (es :: fss) = stored [es] ++ stored fss := by
        simp [stored, wholeChunks, hall]
      have hrecords : recordsOf (stored (es :: fss)) =
          recordsOf (stored [es]) ++ recordsOf (stored fss) := by
        rw [hstored, recordsOf, List.flatMap_append, recordsOf, recordsOf]
      -- the quantizer and the encoder are those of `s`, so the other chunks are encoded alike
      have hmore := ih ((s.noting (complaints es)).counting (stored [es]))
        (m := m.put (recordsOf (stored [es]))) (by simpa using hm)
      have hlog := s.tally.entries_append s.plan.encoder.policy.max (complaints es)
        (complaints fss.flatten)
      simp only [es] at hresult hmore
      simp only [hresult, hmore]
      rw [hresults, complaints_append_of_all hall, hstored, hlog, ← hstored, hrecords,
        ← Memory.put_put, hstored, ← noting_counting]
      rfl
    · obtain ⟨e, he⟩ : ∃ e, es.findSome? failure? = some e := by
        rw [all_isSound_iff] at hall
        exact Option.ne_none_iff_exists'.mp hall
      have hresult : batchResult es = .error e := by simp [batchResult, he]
      have hresults : batchResult (es ++ fss.flatten) = .error e := by
        simp [batchResult, List.findSome?_append, he]
      have hstored : stored (es :: fss) = stored [es] := by
        simp [stored, wholeChunks, hall]
      have hcomplaints : complaints (es ++ fss.flatten) = complaints es := by
        rw [complaints, examined_of_not_all hall, complaints]
      simp only [es] at hresult
      simp only [hresult]
      rw [hresults, hcomplaints, hstored]

end Session

end PointCloud
