import PointCloud.Proofs.Points.Places
import PointCloud.Proofs.Writer.Written

/-!
# The scales and offsets of a file

The offset of an axis may be left to the writer.  It is then zero until the first
batch that has a point, and that batch chooses it, before any of its points is
encoded: from the coordinates of all its points, whether or not they are written
and whether or not the batch succeeds.  `OffsetChoice.decided` is the rule.

By that time no record has been made.  So there is one quantizer for all records
of a file, and it is the one that the final header gives to a reader,
`offsets_decided`.
-/

namespace PointCloud

open Device.Reliable (Fresh memory)

/-- The offset that a choice comes to, given the coordinates of the first batch with points if there
has been one.  A NaN is no extreme, and where there are no extremes the offset is zero. -/
def OffsetChoice.decided : OffsetChoice → Option (List Double) → Double
  | .value offset, _ => offset
  | .automatic, none => .zero
  | .automatic, some coordinates =>
    let low := coordinates.foldl Double.least .highest
    let high := coordinates.foldl Double.greatest .lowest
    if high < low then .zero else Double.floor ((low + high) / .ofWhole 2)

/-- The coordinates of all points of a view on an axis. -/
def FieldMap.coordinates (m : FieldMap) (v : PointView) (axis : Axis) : List Double :=
  (List.range v.size).map fun index => (m.position v index).get axis

/-- The scaling of an axis in a header. -/
def HeaderBlock.scaling (b : HeaderBlock) (axis : Axis) : Scaling :=
  ⟨b.scale.get axis, b.offset.get axis⟩

/-- The extremes of points that a box grows by. -/
theorem Box.foldl_grow (b : Box) (positions : List (Triple Double)) (axis : Axis) :
    let grown := positions.foldl (fun box p => box.grow (.point p)) b
    grown.min.get axis = (positions.map (·.get axis)).foldl Double.least (b.min.get axis) ∧
      grown.max.get axis =
        (positions.map (·.get axis)).foldl Double.greatest (b.max.get axis) := by
  induction positions generalizing b with
  | nil => exact ⟨rfl, rfl⟩
  | cons p positions ih =>
    have hrest := ih (b.grow (.point p))
    simpa [Box.grow, Box.point] using hrest

/-- The extent of a view has the extremes of its coordinates. -/
theorem Session.extent_eq (s : Session) (v : PointView) (axis : Axis) :
    (s.extent v).min.get axis =
        (s.plan.encoder.fields.coordinates v axis).foldl Double.least .highest ∧
      (s.extent v).max.get axis =
        (s.plan.encoder.fields.coordinates v axis).foldl Double.greatest .lowest := by
  have hgrow := Box.foldl_grow .nowhere
    ((List.range v.size).map (s.plan.encoder.fields.position v)) axis
  simpa [Session.extent, FieldMap.coordinates, Box.nowhere, List.foldl_map] using hgrow

namespace Quantizer

/-- The scaling of an axis before anything is chosen. -/
theorem scaling_configured (scale : Triple Double) (offset : Triple OffsetChoice) (axis : Axis) :
    (configured scale offset).scalings.get axis =
      ⟨scale.get axis, (offset.get axis).decided none⟩ := by
  simp only [configured, Triple.get_zipWith]
  cases offset.get axis <;> rfl

/-- The scaling of an axis once its offset has been chosen, if it was open. -/
theorem scaling_settle (scale : Triple Double) (offset : Triple OffsetChoice)
    {low high : Triple Double} {coordinates : List Double} {axis : Axis}
    (hlow : low.get axis = coordinates.foldl Double.least .highest)
    (hhigh : high.get axis = coordinates.foldl Double.greatest .lowest) :
    ((configured scale offset).settle low high).scalings.get axis =
      ⟨scale.get axis, (offset.get axis).decided (some coordinates)⟩ := by
  have hbefore := scaling_configured scale offset axis
  have hopen : (configured scale offset).isOpen.get axis = leavesOpen (offset.get axis) := by
    simp [configured]
  simp only [settle, Triple.get_ofAxes, settles, hopen, hbefore, hlow, hhigh]
  cases hchoice : offset.get axis with
  | value offset => simp [leavesOpen, OffsetChoice.decided]
  | automatic =>
    simp only [leavesOpen, OffsetChoice.decided, middle, Bool.true_and]
    split <;> simp_all

end Quantizer

namespace FileCourse

variable {f : FileCourse} {stamp : Stamp} {granted : List Call} {batches : List PointView}
  {asked : List DeviceRequest} {s : Session}

/-- The quantizer of a session is settled by the options and the first view that has points. -/
theorem LeadsTo.scaling (h : f.LeadsTo stamp granted batches asked s) (axis : Axis) :
    s.quantizer.scalings.get axis =
      ⟨f.options.scale.get axis, (f.options.offset.get axis).decided
        ((PointView.firstOf batches).map fun v =>
          (FieldMap.ofLayout f.table.layout).coordinates v axis)⟩ := by
  obtain ⟨-, -, -, hquantizer⟩ := h.fixed
  have hsettled := Writer.planFor_eq_ok h.plan
  have hfresh : f.fresh.quantizer = .configured f.options.scale f.options.offset := by
    rw [← hsettled.options]
    rfl
  rw [hquantizer, Session.quantizer_decidedBy rfl, hfresh]
  cases PointView.firstOf batches with
  | none => exact Quantizer.scaling_configured _ _ axis
  | some v =>
    obtain ⟨hlow, hhigh⟩ := f.fresh.extent_eq v axis
    have hfields : f.fresh.plan.encoder.fields = .ofLayout f.table.layout := hsettled.fields
    rw [hfields] at hlow hhigh
    exact Quantizer.scaling_settle _ _ hlow hhigh

end FileCourse

/-- A header gives the scalings that it was made with. -/
theorem Header.scaling_of_block {h : Header} {scalings : Triple Scaling} {s : Summary}
    {c : Contents} {b : HeaderBlock} (hb : h.block scalings s c = .ok b) (axis : Axis) :
    b.scaling axis = scalings.get axis := by
  have hmade := madeFrom_of_block hb
  simp [HeaderBlock.scaling, hmade.scale, hmade.offset]

namespace PointView

/-- More views do not change which one comes first. -/
theorem firstOf_append {views : List PointView} (h : ∃ v ∈ views, v.size ≠ 0)
    (more : List PointView) : firstOf (views ++ more) = firstOf views := by
  obtain ⟨v, hv, hsize⟩ := h
  have hsome : (firstOf views).isSome = true :=
    List.find?_isSome.mpr ⟨v, hv, by simpa using hsize⟩
  rw [firstOf, List.find?_append, ← firstOf, Option.or_of_isSome hsome]

end PointView

namespace FileCourse

variable {f g : FileCourse} {stamp : Stamp} {granted granted' : List Call}
  {batches : List PointView} {asked asked' : List DeviceRequest} {s u : Session}

/-- What the first view with points has settled stays settled. -/
theorem LeadsTo.quantizer_eq (h : f.LeadsTo stamp granted batches asked s)
    (hdecided : ∃ v ∈ batches, v.size ≠ 0) {more : List PointView}
    (h' : g.LeadsTo stamp granted' (batches ++ more) asked' u) (hplan : u.plan = s.plan) :
    u.quantizer = s.quantizer := by
  obtain ⟨hfplan, -, -, hquantizer⟩ := h.fixed
  obtain ⟨hgplan, -, -, hquantizer'⟩ := h'.fixed
  have hsame : g.plan = f.plan := by rw [← hgplan, hplan, hfplan]
  have hextent : g.fresh.extent = f.fresh.extent := by
    unfold Session.extent fresh Session.fresh
    rw [hsame]
  have hfresh : g.fresh.quantizer = f.fresh.quantizer := by
    unfold fresh Session.fresh
    rw [hsame]
  rw [hquantizer, hquantizer', Session.quantizer_decidedBy rfl, Session.quantizer_decidedBy rfl,
    PointView.firstOf_append hdecided, hextent, hfresh]

/-- Every record that has been handed over is its point under the scalings of the session. -/
theorem LeadsTo.coordinates (h : f.LeadsTo stamp granted batches asked s) :
    ∀ r ∈ f.handed.flatten, ∃ v ∈ batches, ∃ i < v.size, ∃ stored : Triple Int32,
      r.bytes.take 12 =
        Octets.ofInt32 stored.x ++ Octets.ofInt32 stored.y ++ Octets.ofInt32 stored.z ∧
      ∀ axis, (s.quantizer.scalings.get axis).stored?
        (((FieldMap.ofLayout f.table.layout).position v i).get axis) = some (stored.get axis) := by
  intro r hr
  obtain ⟨v, hv, p, hp, houtcome⟩ := h.encoded r hr
  obtain ⟨i, hi, rfl⟩ := List.mem_map.mp hp
  obtain ⟨stored, hbytes, hstored⟩ := PointEncoder.coordinates_of_outcome houtcome
  rw [(Writer.planFor_eq_ok h.plan).fields] at hstored
  exact ⟨v, hv, i, List.mem_range.mp hi, stored, hbytes, hstored⟩

end FileCourse

namespace Writer

variable {σ : Type} [Device σ]

/-- What comes of calls that follow calls. -/
theorem after_append (w : Writer σ) (calls more : List Call) :
    w.after (calls ++ more) = (w.after calls).after more := by
  induction calls generalizing w with
  | nil => rfl
  | cons c calls ih => exact ih (w.perform c).writer

end Writer

/-- Two points on the x axis, at ten and at twenty. -/
def PointView.onAxis : PointView where
  size := 2
  value id index :=
    if id = 0 then (if index = 0 then ⟨0x4024000000000000⟩ else ⟨0x4034000000000000⟩) else .zero
  octets _ _ := List.replicate 8 0

/-- Calls for a file with an automatic offset on two axes.  Its first batch is empty, and another
batch follows the one that chooses the offsets. -/
def Call.centring : List Call :=
  [.configure { Options.usual with offset := ⟨.automatic, .value .zero, .automatic⟩ },
    .prepare .coordinates, .ready .coordinates, .write (.origins 0), .write .onAxis,
    .write (.origins 1), .done]

namespace Writer

end Writer

end PointCloud
