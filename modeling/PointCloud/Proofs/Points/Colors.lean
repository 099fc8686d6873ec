import PointCloud.Proofs.Points.Demands
import PointCloud.Proofs.Tables.Finding

/-!
# Colors without a place

A record of a format without a color has no octets for one, so the color of a
point cannot be seen in its record.  The encoder reads the color all the same
and refuses a point whose color would not fit.  That is all the difference that
a color makes, `encode_alike`: two points that agree on every dimension but the
colors are encoded alike, unless one of them is refused for its color.
-/

namespace PointCloud

namespace PointField

/-- Whether a name is that of a color, whatever the case of its letters. -/
def IsColorName (name : String) : Prop :=
  ∃ f ∈ colors, Text.sameIgnoringCase name f.name = true

instance (name : String) : Decidable (IsColorName name) :=
  inferInstanceAs (Decidable (∃ f ∈ colors, _))

/-- The names of the other fields are no names of colors. -/
theorem not_isColorName {f : PointField} (h : f ∉ colors) : ¬ IsColorName f.name := by
  revert h
  cases f <;> decide +kernel

/-- Whether a name is that of a color does not depend on its case. -/
theorem IsColorName.congr {a b : String} (hab : Text.sameIgnoringCase a b = true)
    (h : IsColorName a) : IsColorName b := by
  obtain ⟨f, hf, ha⟩ := h
  exact ⟨f, hf, Text.sameIgnoringCase_trans (Text.sameIgnoringCase_comm.mp hab) ha⟩

end PointField

/-- Two points that agree on every dimension but the colors. -/
def Point.AlikeButColors (l : Layout) (p p' : Point) : Prop :=
  ∀ id d, l.get? id = some d → ¬ PointField.IsColorName d.name →
    p.value id = p'.value id ∧ p.octets id = p'.octets id

namespace Point.AlikeButColors

variable {l : Layout} {p p' : Point}

/-- What another name finds is the same for both points. -/
theorem of_find? (h : p.AlikeButColors l p') {name : String}
    (hname : ¬ PointField.IsColorName name) {id : Nat} (hfind : l.find? name = some id) :
    p.value id = p'.value id ∧ p.octets id = p'.octets id := by
  obtain ⟨d, hget, hsame⟩ := Layout.find?_eq_some hfind
  exact h id d hget fun hcolor => hname (hcolor.congr hsame)

/-- A field that is no color has the same value in both points. -/
theorem value_eq (h : p.AlikeButColors l p') {f : PointField} (hf : f ∉ PointField.colors)
    {id : Nat} (hget : (FieldMap.ofLayout l).get? f = some id) :
    p.alone.value id 0 = p'.alone.value id 0 := by
  rw [FieldMap.get?_ofLayout] at hget
  exact (h.of_find? (PointField.not_isColorName hf) hget).1

/-- A field that is no color is the same number in both points. -/
theorem real_eq (h : p.AlikeButColors l p') {f : PointField} (hf : f ∉ PointField.colors) :
    (FieldMap.ofLayout l).real p.alone 0 f = (FieldMap.ofLayout l).real p'.alone 0 f := by
  unfold FieldMap.real
  split
  · next id hget => exact h.value_eq hf hget
  · rfl

/-- A field that is no color is the same whole number in both points. -/
theorem whole_eq (h : p.AlikeButColors l p') {f : PointField} (hf : f ∉ PointField.colors)
    (low high : Int) :
    (FieldMap.ofLayout l).whole p.alone 0 low high f =
      (FieldMap.ofLayout l).whole p'.alone 0 low high f := by
  unfold FieldMap.whole
  split
  · next id hget => rw [h.value_eq hf hget]
  · rfl

end Point.AlikeButColors

/-- The record with other values for its color. -/
def PointRecord.colored (r : PointRecord) (color : UInt16 × UInt16 × UInt16) : PointRecord :=
  { r with red := color.1, green := color.2.1, blue := color.2.2 }

/-- The octets of a format without a color do not show one. -/
theorem PointRecord.bytes_colored {f : RecordFormat} (h : f.hasColor = false) (r : PointRecord)
    (color : UInt16 × UInt16 × UInt16) : (r.colored color).bytes f = r.bytes f := by
  simp [bytes, fixedBytes, colored, h]

namespace PointEncoder

/-- The fields of a point but for its color. -/
def plainRecord (e : PointEncoder) (v : PointView) (index : Nat) (stored : Triple Int32)
    (number kept : UInt8) : Except Error PointRecord := do
  let intensity ← e.fields.word v index .intensity
  let scanDirection ← e.fields.octet v index .scanDirection
  let edgeOfFlightLine ← e.fields.octet v index .edgeOfFlightLine
  let classification ← e.fields.octet v index .classification
  let scanAngle ← e.fields.signedOctet v index .scanAngle
  let userData ← e.fields.octet v index .userData
  let pointSource ← e.fields.word v index .pointSource
  return {
    x := stored.x
    y := stored.y
    z := stored.z
    intensity := intensity
    flags := ⟨number, kept, scanDirection, edgeOfFlightLine⟩
    classification := classification
    scanAngle := scanAngle
    userData := userData
    pointSource := pointSource
    gpsTime := e.fields.real v index .gpsTime
    red := 0
    green := 0
    blue := 0 }

/-- The color of a point. -/
def color (e : PointEncoder) (v : PointView) (index : Nat) :
    Except Error (UInt16 × UInt16 × UInt16) := do
  let red ← e.fields.word v index .red
  let green ← e.fields.word v index .green
  let blue ← e.fields.word v index .blue
  return (red, green, blue)

/-- The color of a point is read behind its other fields. -/
theorem record_eq (e : PointEncoder) (v : PointView) (index : Nat) (stored : Triple Int32)
    (number kept : UInt8) :
    e.record v index stored number kept = (do
      let plain ← e.plainRecord v index stored number kept
      let color ← e.color v index
      return plain.colored color) := by
  simp only [record, plainRecord, color, bind_assoc, pure_bind, PointRecord.colored]

/-- What becomes of a point whose color is of no account. -/
def plainOutcome (e : PointEncoder) (q : Quantizer) (p : Point) :
    Except Error (Option EncodedPoint) := do
  let numbers ← e.returns p.alone 0
  match Returns.verdict e.policy numbers.1 numbers.2 with
  | .discard => return none
  | .keep kept =>
    let position := e.fields.position p.alone 0
    let stored ← q.quantize position
    let plain ← e.plainRecord p.alone 0 stored numbers.1 kept
    let extra ← e.extra.encode p.alone 0
    return some ⟨plain.bytes e.format ++ extra, ⟨position, numbers.1⟩⟩

variable {e : PointEncoder} {l : Layout} {p p' : Point}

/-- A point is refused because its color does not fit. -/
def RefusedForColor (e : PointEncoder) (l : Layout) (q : Quantizer) (p : Point) : Prop :=
  ∃ error, Demand.FirstUnmet (Demand.colors l p) error ∧ (e.encodePoint q p).outcome = .error error

/-- The colors fail by their demands. -/
theorem govern_color (hfields : e.fields = .ofLayout l) (p : Point) :
    Demand.Govern (Demand.colors l p) (e.color p.alone 0) := by
  unfold color
  rw [hfields]
  exact (Demand.govern_word l p rfl).cons fun _ _ => (Demand.govern_word l p rfl).cons fun _ _ =>
    (Demand.govern_word l p rfl).bind_pure _

/-- Where the colors meet their demands, no point is refused for them. -/
theorem not_refusedForColor {q : Quantizer} (h : ∀ d ∈ Demand.colors l p, d.Met) :
    ¬ e.RefusedForColor l q p := by
  rintro ⟨error, hfirst, -⟩
  obtain ⟨d, hd, hunmet⟩ := Demand.exists_firstUnmet_iff.mp ⟨error, hfirst⟩
  exact hunmet (h d hd)

/-- In a format without a color, the color of a point counts only if it does not fit. -/
theorem outcome_eq_or_refusedForColor (hfields : e.fields = .ofLayout l)
    (hcolor : e.format.hasColor = false) (q : Quantizer) (p : Point) :
    (e.encodePoint q p).outcome = e.plainOutcome q p ∨ e.RefusedForColor l q p := by
  unfold RefusedForColor
  rw [outcome_encodePoint, plainOutcome]
  cases e.returns p.alone 0 with
  | error error => exact .inl rfl
  | ok numbers =>
    simp only [Except.ok_bind]
    cases Returns.verdict e.policy numbers.1 numbers.2 with
    | discard => exact .inl rfl
    | keep kept =>
      simp only [encodeKept, record_eq, bind_assoc, pure_bind]
      cases q.quantize (e.fields.position p.alone 0) with
      | error error => exact .inl rfl
      | ok stored =>
        simp only [Except.ok_bind]
        cases e.plainRecord p.alone 0 stored numbers.1 kept with
        | error error => exact .inl rfl
        | ok plain =>
          simp only [Except.ok_bind]
          -- The color is read here, and what is read of it leaves no trace in the octets.
          cases hread : e.color p.alone 0 with
          | error error => exact .inr ⟨error, (govern_color hfields p error).mp hread, rfl⟩
          | ok color =>
            simp only [Except.ok_bind, PointRecord.bytes_colored hcolor]
            cases e.extra.encode p.alone 0 with
            | error error => exact .inl rfl
            | ok extra => exact .inl rfl

/-- Points that agree but for their colors have the same return numbers. -/
theorem returns_congr (hfields : e.fields = .ofLayout l) (h : p.AlikeButColors l p') :
    e.returns p.alone 0 = e.returns p'.alone 0 := by
  unfold PointEncoder.returns FieldMap.octet
  rw [hfields, h.whole_eq (f := .returnNumber) (by decide),
    h.whole_eq (f := .numberOfReturns) (by decide)]

/-- The fields of a record besides its colors are those of both points. -/
theorem plainRecord_congr (hfields : e.fields = .ofLayout l) (h : p.AlikeButColors l p')
    (stored : Triple Int32) (number kept : UInt8) :
    e.plainRecord p.alone 0 stored number kept = e.plainRecord p'.alone 0 stored number kept := by
  unfold plainRecord FieldMap.octet FieldMap.word FieldMap.signedOctet
  rw [hfields, h.whole_eq (f := .intensity) (by decide),
    h.whole_eq (f := .scanDirection) (by decide), h.whole_eq (f := .edgeOfFlightLine) (by decide),
    h.whole_eq (f := .classification) (by decide), h.whole_eq (f := .scanAngle) (by decide),
    h.whole_eq (f := .userData) (by decide), h.whole_eq (f := .pointSource) (by decide),
    h.real_eq (f := .gpsTime) (by decide)]

/-- Both points have one position. -/
theorem position_congr (hfields : e.fields = .ofLayout l) (h : p.AlikeButColors l p') :
    e.fields.position p.alone 0 = e.fields.position p'.alone 0 := by
  unfold FieldMap.position
  rw [hfields, h.real_eq (f := .x) (by decide), h.real_eq (f := .y) (by decide),
    h.real_eq (f := .z) (by decide)]

end PointEncoder

/-- Extra dimensions that are no colors have the same values in both points. -/
theorem ExtraBytes.encode_congr {l : Layout} {p p' : Point} (h : p.AlikeButColors l p')
    {requests : List ExtraDimension} {extra : ExtraBytes}
    (hextra : ExtraBytes.resolve l requests = .ok extra)
    (hplain : ∀ request ∈ requests, ¬ PointField.IsColorName request.name) :
    extra.encode p.alone 0 = extra.encode p'.alone 0 := by
  have hfield : ∀ f ∈ extra.fields, f.encode p.alone 0 = f.encode p'.alone 0 := by
    intro f hf
    obtain ⟨hresolved, -⟩ := ExtraBytes.resolve_eq_ok_iff.mp hextra
    obtain ⟨request, hrequest, hresolve⟩ := hresolved.exists_left hf
    obtain ⟨id, d, hfind, -, rfl⟩ := ExtraField.resolve_eq_ok_iff.mp hresolve
    obtain ⟨hvalue, hoctets⟩ := h.of_find? (hplain request hrequest) hfind
    simp only [ExtraField.encode, Point.alone, hvalue, hoctets]
  unfold ExtraBytes.encode
  rw [Except.mapM_congr hfield]

namespace PointEncoder

variable {e : PointEncoder} {l : Layout} {p p' : Point}

/-- The color of a point is not looked at by what becomes of it otherwise. -/
theorem plainOutcome_congr (hfields : e.fields = .ofLayout l) (h : p.AlikeButColors l p')
    (hextra : e.extra.encode p.alone 0 = e.extra.encode p'.alone 0) (q : Quantizer) :
    e.plainOutcome q p = e.plainOutcome q p' := by
  unfold plainOutcome
  simp only [returns_congr hfields h, position_congr hfields h, plainRecord_congr hfields h, hextra]

/-- Both points are complained about alike. -/
theorem complaints_congr (hfields : e.fields = .ofLayout l) (h : p.AlikeButColors l p')
    (q : Quantizer) : (e.encodePoint q p).complaints = (e.encodePoint q p').complaints := by
  unfold encodePoint encode
  rw [returns_congr hfields h]
  cases e.returns p'.alone 0 with
  | error error => rfl
  | ok numbers => rfl

/-- **Colors without a place.**  In a format without a color, points that agree on everything but
their colors are encoded alike, unless one of them is refused because its color does not fit. -/
theorem encode_alike (o : Options) (l : Layout) (h : Header) (requests : List ExtraDimension)
    (extra : ExtraBytes) (hcolor : h.format.hasColor = false)
    (hextra : ExtraBytes.resolve l requests = .ok extra)
    (hplain : ∀ request ∈ requests, ¬ PointField.IsColorName request.name) (q : Quantizer)
    (v w : PointView) (index : Nat) (halike : (v.point index).AlikeButColors l (w.point index)) :
    let e := Writer.encoderFor o l h extra
    (e.encode q v index).complaints = (e.encode q w index).complaints ∧
    ((e.encode q v index).outcome = (e.encode q w index).outcome ∨
      e.RefusedForColor l q (v.point index) ∨ e.RefusedForColor l q (w.point index)) ∧
    ((∀ d ∈ Demand.colors l (v.point index), d.Met) →
      (∀ d ∈ Demand.colors l (w.point index), d.Met) →
      e.encode q v index = e.encode q w index) := by
  intro e
  have hfields : e.fields = .ofLayout l := rfl
  rw [e.encode_eq, e.encode_eq]
  have hcomplaints := complaints_congr hfields halike q
  have hsame := plainOutcome_congr hfields halike (ExtraBytes.encode_congr halike hextra hplain) q
  have houtcome : (e.encodePoint q (v.point index)).outcome =
      (e.encodePoint q (w.point index)).outcome ∨
        e.RefusedForColor l q (v.point index) ∨ e.RefusedForColor l q (w.point index) := by
    rcases outcome_eq_or_refusedForColor hfields hcolor q (v.point index) with hv | hv
    · rcases outcome_eq_or_refusedForColor hfields hcolor q (w.point index) with hw | hw
      · exact .inl (hv.trans (hsame.trans hw.symm))
      · exact .inr (.inr hw)
    · exact .inr (.inl hv)
  refine ⟨hcomplaints, houtcome, fun hfirst hsecond => ?_⟩
  rcases houtcome with hequal | hrefused | hrefused
  · exact congrArg₂ Encoding.mk hcomplaints hequal
  · exact absurd hrefused (not_refusedForColor hfirst)
  · exact absurd hrefused (not_refusedForColor hsecond)

end PointEncoder

/-- A table with one part of a color. -/
def Layout.reddish : Layout := Layout.xyz.registerAll [⟨"Red", .signed32, ""⟩]

/-- A point at the origin with some red. -/
def PointView.reddish (red : Double) : PointView :=
  ⟨1, fun id _ => if id = 3 then red else .zero, fun _ _ => List.replicate 8 0⟩

/-- Two points that have nothing but red differ in color at most. -/
theorem Point.alikeButColors_reddish (a b : Double) :
    ((PointView.reddish a).point 0).AlikeButColors .reddish ((PointView.reddish b).point 0) := by
  have hred : ∀ d ∈ Layout.reddish.get? 3, PointField.IsColorName d.name := by decide +kernel
  intro id d hget hplain
  by_cases hid : id = 3
  · subst hid
    exact absurd (hred d hget) hplain
  · simp [PointView.point, PointView.reddish, hid]

/-- A color with some red fits if the red does. -/
theorem Demand.colors_reddish {a : Double} {n : Int} (ha : Double.truncate? a = some n)
    (hlow : 0 ≤ n) (hhigh : n < 65536) :
    ∀ d ∈ Demand.colors .reddish ((PointView.reddish a).point 0), d.Met := by
  have hred : Layout.reddish.find? PointField.red.name = some 3 := by decide +kernel
  have hgreen : Layout.reddish.find? PointField.green.name = none := by decide +kernel
  have hblue : Layout.reddish.find? PointField.blue.name = none := by decide +kernel
  intro d hd
  simp only [colors, PointField.colors, List.map_cons, List.map_nil, List.mem_cons,
    List.not_mem_nil, or_false] at hd
  rcases hd with rfl | rfl | rfl
  · exact ⟨n, by rw [Point.whole?, hred]; exact ha, hlow, hhigh⟩
  · exact ⟨0, by rw [Point.whole?, hgreen]; rfl, by decide, by decide⟩
  · exact ⟨0, by rw [Point.whole?, hblue]; rfl, by decide, by decide⟩

namespace PointEncoder

/-- Two shades of red make no difference to a record of 20 octets with a coordinate behind them. -/
theorem encode_alike_reddish :
    let extra : ExtraBytes := ⟨[⟨"x", 0, .double, .double, ""⟩]⟩
    let e := Writer.encoderFor .usual .reddish { Header.usual with format := ⟨0⟩ } extra
    let q : Quantizer := ⟨.same .usual, .same false⟩
    e.format.hasColor = false ∧ ExtraBytes.resolve .reddish [⟨"x", none⟩] = .ok extra ∧
      ¬ PointField.IsColorName "x" ∧
      ((PointView.reddish (.ofWhole 7)).point 0).AlikeButColors .reddish
        ((PointView.reddish (.ofWhole 900)).point 0) ∧
      e.encode q (.reddish (.ofWhole 7)) 0 = e.encode q (.reddish (.ofWhole 900)) 0 := by
  intro extra e q
  have hextra : ExtraBytes.resolve .reddish [⟨"x", none⟩] = .ok extra := by decide +kernel
  have hname : ¬ PointField.IsColorName "x" := by decide +kernel
  have hplain : ∀ request ∈ [(⟨"x", none⟩ : ExtraDimension)],
      ¬ PointField.IsColorName request.name := by
    intro request hrequest
    rwa [List.mem_singleton.mp hrequest]
  have halike := Point.alikeButColors_reddish (.ofWhole 7) (.ofWhole 900)
  have hfirst : Double.truncate? (.ofWhole 7) = some 7 := by decide +kernel
  have hsecond : Double.truncate? (.ofWhole 900) = some 900 := by decide +kernel
  obtain ⟨-, -, hequal⟩ := encode_alike .usual .reddish { Header.usual with format := ⟨0⟩ }
    [⟨"x", none⟩] extra rfl hextra hplain q (.reddish (.ofWhole 7)) (.reddish (.ofWhole 900)) 0
    halike
  exact ⟨rfl, hextra, hname, halike, hequal (Demand.colors_reddish hfirst (by decide) (by decide))
    (Demand.colors_reddish hsecond (by decide) (by decide))⟩

/-- A red that sixteen bits do not hold makes a difference: the point has a place in a format
without a color, and no record. -/
theorem refused_for_color_without_place :
    let e := Writer.encoderFor .usual .reddish { Header.usual with format := ⟨0⟩ } ⟨[]⟩
    let q : Quantizer := ⟨.same .usual, .same false⟩
    e.format.hasColor = false ∧
      ((PointView.reddish .zero).point 0).AlikeButColors .reddish
        ((PointView.reddish (.ofWhole 70000)).point 0) ∧
      (e.encode q (.reddish .zero) 0).outcome.map (·.isSome) = .ok true ∧
      (e.encode q (.reddish (.ofWhole 70000)) 0).outcome.map (·.isSome) =
        .error (.fieldOverflow "Red" (.ofWhole 70000)) :=
  ⟨rfl, Point.alikeButColors_reddish _ _, by decide +kernel, by decide +kernel⟩

end PointEncoder

end PointCloud
