import PointCloud.Proofs.Bytes.Reading
import PointCloud.Proofs.Points.Demands

/-!
# The layout of a point record

What a reader finds in a record is what the point has.  `PointRecord.ReadsAs` says
where the fields of a record stand and how they read, and `PointRecord.IsOf` whose
fields they are: the stored coordinates, the whole numbers of the point's values,
its GPS time as it is.  Behind them stand the extra dimensions, one value after
the other.

`outcome_laid_out` says this of every point that is written.  A record is as long as
the encoder says if what is copied from the view is as wide as it should be; the
encoder does not look at the width itself.  The rest of the theorem is about the
points without a record, those that are left out and those that are refused,
and with which error.
-/

namespace PointCloud

/-- The place of a color in the records of a format. -/
def RecordFormat.colorPlace (f : RecordFormat) : Nat := if f.hasGpsTime then 28 else 20

namespace PointRecord

/-- What a reader finds at the places of a record. -/
structure ReadsAs (r : PointRecord) (f : RecordFormat) (bytes : Octets) : Prop where
  x : bytes.intAt 0 4 = r.x.toInt
  y : bytes.intAt 4 4 = r.y.toInt
  z : bytes.intAt 8 4 = r.z.toInt
  intensity : bytes.natAt 12 2 = r.intensity.toNat
  flags : bytes.natAt 14 1 =
    r.flags.returnNumber.toNat % 8 + 8 * (r.flags.numberOfReturns.toNat % 8) +
      64 * (r.flags.scanDirection.toNat % 2) + 128 * (r.flags.edgeOfFlightLine.toNat % 2)
  classification : bytes.natAt 15 1 = r.classification.toNat
  scanAngle : bytes.intAt 16 1 = r.scanAngle.toInt
  userData : bytes.natAt 17 1 = r.userData.toNat
  pointSource : bytes.natAt 18 2 = r.pointSource.toNat
  gpsTime : f.hasGpsTime = true → bytes.natAt 20 8 = r.gpsTime.bits.toNat
  red : f.hasColor = true → bytes.natAt f.colorPlace 2 = r.red.toNat
  green : f.hasColor = true → bytes.natAt (f.colorPlace + 2) 2 = r.green.toNat
  blue : f.hasColor = true → bytes.natAt (f.colorPlace + 4) 2 = r.blue.toNat

/-- The fields of a record are those of a point. -/
structure IsOf (r : PointRecord) (f : RecordFormat) (l : Layout) (q : Quantizer)
    (policy : Returns.Policy) (p : Point) : Prop where
  x : (q.scalings.get .x).stored? (p.real l .x) = some r.x
  y : (q.scalings.get .y).stored? (p.real l .y) = some r.y
  z : (q.scalings.get .z).stored? (p.real l .z) = some r.z
  intensity : p.whole? l .intensity = some ↑r.intensity.toNat
  returnNumber : p.whole? l .returnNumber = some ↑r.flags.returnNumber.toNat
  numberOfReturns : ∃ count : UInt8, p.whole? l .numberOfReturns = some ↑count.toNat ∧
    r.flags.numberOfReturns =
      if policy.max < count ∧ policy.discardHigh = true then policy.max else count
  scanDirection : p.whole? l .scanDirection = some ↑r.flags.scanDirection.toNat
  edgeOfFlightLine : p.whole? l .edgeOfFlightLine = some ↑r.flags.edgeOfFlightLine.toNat
  classification : p.whole? l .classification = some ↑r.classification.toNat
  scanAngle : p.whole? l .scanAngle = some r.scanAngle.toInt
  userData : p.whole? l .userData = some ↑r.userData.toNat
  pointSource : p.whole? l .pointSource = some ↑r.pointSource.toNat
  gpsTime : r.gpsTime = p.real l .gpsTime
  red : f.hasColor = true → p.whole? l .red = some ↑r.red.toNat
  green : f.hasColor = true → p.whole? l .green = some ↑r.green.toNat
  blue : f.hasColor = true → p.whole? l .blue = some ↑r.blue.toNat

/-- The octets of a record read as the record. -/
theorem readsAs_bytes (f : RecordFormat) (r : PointRecord) (more : Octets) :
    r.ReadsAs f (r.bytes f ++ more) where
  x := by simp [bytes, fixedBytes]
  y := by simp [bytes, fixedBytes, Octets.intAt_append]
  z := by simp [bytes, fixedBytes, Octets.intAt_append]
  intensity := by simp [bytes, fixedBytes, Octets.natAt_append]
  flags := by simp [bytes, fixedBytes, Octets.natAt_append, ReturnFlags.toNat_octet]
  classification := by simp [bytes, fixedBytes, Octets.natAt_append]
  scanAngle := by simp [bytes, fixedBytes, Octets.intAt_append]
  userData := by simp [bytes, fixedBytes, Octets.natAt_append]
  pointSource := by simp [bytes, fixedBytes, Octets.natAt_append]
  gpsTime h := by simp [bytes, Octets.natAt_append, h]
  red h := by
    by_cases hgps : f.hasGpsTime = true <;>
      simp [bytes, colorBytes, RecordFormat.colorPlace, Octets.natAt_append, h, hgps]
  green h := by
    by_cases hgps : f.hasGpsTime = true <;>
      simp [bytes, colorBytes, RecordFormat.colorPlace, Octets.natAt_append, h, hgps]
  blue h := by
    by_cases hgps : f.hasGpsTime = true <;>
      simp [bytes, colorBytes, RecordFormat.colorPlace, Octets.natAt_append, h, hgps]

end PointRecord

/-- What stands in a record for an extra dimension. -/
def ExtraField.IsValue (f : ExtraField) (p : Point) (value : Octets) : Prop :=
  if f.source = f.scalar then value = p.octets f.dimension
  else f.scalar.encode? (p.value f.dimension) = some value

/-- What is copied has the width that the copied octets have, and what is encoded has its own. -/
theorem ExtraField.IsValue.length {f : ExtraField} {p : Point} {value : Octets}
    (h : f.IsValue p value)
    (hcopied : f.source = f.scalar → (p.octets f.dimension).length = f.source.width) :
    value.length = f.scalar.width := by
  unfold IsValue at h
  by_cases hsame : f.source = f.scalar
  · rw [if_pos hsame] at h
    rw [h, hcopied hsame, hsame]
  · rw [if_neg hsame] at h
    exact Scalar.length_of_encode? h

/-- A number of returns beyond the limit is cut down if high return numbers are to be left out. -/
theorem Returns.kept_of_verdict {policy : Policy} {number count kept : UInt8}
    (h : verdict policy number count = .keep kept) :
    kept = if policy.max < count ∧ policy.discardHigh = true then policy.max else count := by
  unfold verdict at h
  split at h
  · next hcount =>
    rw [if_pos hcount]
    split at h
    · cases h
    · exact (Verdict.keep.inj h).symm
  · next hcount =>
    rw [if_neg hcount]
    exact (Verdict.keep.inj h).symm

/-- What a point adds to the octets that are stored. -/
def Encoding.appended (e : Encoding) : Octets :=
  ([e].filterMap Session.point?).flatMap (·.bytes)

/-- What a point adds is its record, if it has one. -/
theorem Encoding.appended_of_outcome {e : Encoding} {point? : Option EncodedPoint}
    (h : e.outcome = .ok point?) : e.appended = point?.toList.flatMap (·.bytes) := by
  cases point? <;> simp [appended, Session.point?, h]

namespace PointEncoder

open Demand

/-- What a reader finds in the record of a point. -/
structure Stores (e : PointEncoder) (l : Layout) (q : Quantizer) (p : Point) (bytes : Octets) :
    Prop where
  fields : ∃ record : PointRecord, record.IsOf e.format l q e.policy p ∧
    record.ReadsAs e.format bytes
  extra : ∃ values, List.Forall₂ (fun f value => f.IsValue p value) e.extra.fields values ∧
    bytes.drop e.format.length = values.flatten ∧
    bytes.length = e.format.length + values.flatten.length
  length : (∀ f ∈ e.extra.fields, f.source = f.scalar →
    (p.octets f.dimension).length = f.source.width) → bytes.length = e.recordLength

/-- All that is demanded of a point, in the order in which it is looked at. -/
def demands (e : PointEncoder) (l : Layout) (q : Quantizer) (p : Point) : List Demand :=
  returnNumbers l p ++ coordinates l q p ++ attributes l p ++
    (if e.format.hasColor then colors l p else []) ++ extras p e.extra

/-- When a point is refused, and with which error. -/
structure Refuses (e : PointEncoder) (l : Layout) (q : Quantizer) (p : Point)
    (outcome : Except Error (Option EncodedPoint)) : Prop where
  early : ∀ error, FirstUnmet (returnNumbers l p ++ coordinates l q p ++ attributes l p) error →
    outcome = .error error
  unmet : (∃ d ∈ e.demands l q p, ¬ d.Met) → ∃ error, outcome = .error error
  first : e.format.hasColor = true ∨ (∀ d ∈ colors l p, d.Met) →
    ∀ error, outcome = .error error ↔ FirstUnmet (e.demands l q p) error

variable {e : PointEncoder} {l : Layout} {q : Quantizer} {p : Point}

/-- A record that is made of a point is one of that point. -/
theorem isOf_of_record (hfields : e.fields = .ofLayout l) {stored : Triple Int32}
    (hstored : q.quantize (p.coordinates l) = .ok stored) {number count kept : UInt8}
    (hreturns : e.returns p.alone 0 = .ok (number, count))
    (hverdict : Returns.verdict e.policy number count = .keep kept) {record : PointRecord}
    (h : e.record p.alone 0 stored number kept = .ok record) :
    record.IsOf e.format l q e.policy p := by
  unfold PointEncoder.record at h
  rw [hfields] at h
  obtain ⟨intensity, hintensity, h⟩ := Except.bind_eq_ok_iff.mp h
  obtain ⟨scanDirection, hscanDirection, h⟩ := Except.bind_eq_ok_iff.mp h
  obtain ⟨edgeOfFlightLine, hedgeOfFlightLine, h⟩ := Except.bind_eq_ok_iff.mp h
  obtain ⟨classification, hclassification, h⟩ := Except.bind_eq_ok_iff.mp h
  obtain ⟨scanAngle, hscanAngle, h⟩ := Except.bind_eq_ok_iff.mp h
  obtain ⟨userData, huserData, h⟩ := Except.bind_eq_ok_iff.mp h
  obtain ⟨pointSource, hpointSource, h⟩ := Except.bind_eq_ok_iff.mp h
  obtain ⟨red, hred, h⟩ := Except.bind_eq_ok_iff.mp h
  obtain ⟨green, hgreen, h⟩ := Except.bind_eq_ok_iff.mp h
  obtain ⟨blue, hblue, h⟩ := Except.bind_eq_ok_iff.mp h
  obtain rfl := Except.pure_eq_ok_iff.mp h
  obtain ⟨hnumber, hcount⟩ := (returns_eq_ok_iff hfields).mp hreturns
  exact
    { x := Quantizer.quantize_eq_ok hstored .x
      y := Quantizer.quantize_eq_ok hstored .y
      z := Quantizer.quantize_eq_ok hstored .z
      intensity := (Point.word_eq_ok_iff rfl).mp hintensity
      returnNumber := hnumber
      numberOfReturns := ⟨count, hcount, Returns.kept_of_verdict hverdict⟩
      scanDirection := (Point.octet_eq_ok_iff rfl).mp hscanDirection
      edgeOfFlightLine := (Point.octet_eq_ok_iff rfl).mp hedgeOfFlightLine
      classification := (Point.octet_eq_ok_iff rfl).mp hclassification
      scanAngle := (Point.signedOctet_eq_ok_iff rfl).mp hscanAngle
      userData := (Point.octet_eq_ok_iff rfl).mp huserData
      pointSource := (Point.word_eq_ok_iff rfl).mp hpointSource
      gpsTime := p.real_ofLayout l .gpsTime
      red := fun _ => (Point.word_eq_ok_iff rfl).mp hred
      green := fun _ => (Point.word_eq_ok_iff rfl).mp hgreen
      blue := fun _ => (Point.word_eq_ok_iff rfl).mp hblue }

/-- A record is the fields of its point, and the values of its extra dimensions behind them. -/
theorem stores_of_outcome (hfields : e.fields = .ofLayout l) (hformat : e.format.isSupported = true)
    {r : EncodedPoint} (h : (e.encodePoint q p).outcome = .ok (some r)) :
    e.Stores l q p r.bytes := by
  obtain ⟨number, count, kept, hreturns, hverdict, hkept⟩ := kept_of_outcome h
  obtain ⟨stored, hstored, hkept⟩ := Except.bind_eq_ok_iff.mp hkept
  obtain ⟨record, hrecord, hkept⟩ := Except.bind_eq_ok_iff.mp hkept
  obtain ⟨extra, hextra, hkept⟩ := Except.bind_eq_ok_iff.mp hkept
  obtain rfl := Except.pure_eq_ok_iff.mp hkept
  rw [hfields, Point.position_ofLayout] at hstored
  obtain ⟨values, hvalues, hflatten⟩ := Except.bind_eq_ok_iff.mp hextra
  obtain rfl := Except.pure_eq_ok_iff.mp hflatten
  have his : List.Forall₂ (fun f value => f.IsValue p value) e.extra.fields values :=
    (Except.mapM_eq_ok_iff.mp hvalues).imp fun f value => ExtraField.encode_eq_ok_iff.mp
  have hlength := PointRecord.length_bytes hformat record
  have htotal : (record.bytes e.format ++ values.flatten).length =
      e.format.length + values.flatten.length := by
    rw [List.length_append, hlength]
  refine ⟨⟨record, isOf_of_record hfields hstored hreturns hverdict hrecord,
    record.readsAs_bytes e.format _⟩, ⟨values, his, List.drop_left' hlength, htotal⟩, ?_⟩
  intro hcopied
  have hboth := (List.forall₂_and_left _ _).mpr ⟨hcopied, his⟩
  rw [htotal, ExtraBytes.length_flatten (hboth.imp fun f value hf => hf.2.length hf.1)]
  rfl

/-- What a point that is not left out is refused for. -/
theorem refuses_outcome (hfields : e.fields = .ofLayout l) (h : ¬ p.LeftOut l e.policy) :
    e.Refuses l q p (e.encodePoint q p).outcome := by
  have hgovern := govern_outcome hfields (q := q) h
  refine ⟨?_, ?_, ?_⟩
  · intro error hfirst
    rw [hgovern, List.append_assoc, firstUnmet_append_iff]
    exact .inl hfirst
  · rintro ⟨d, hd, hunmet⟩
    have hmem : d ∈ returnNumbers l p ++ coordinates l q p ++ attributes l p ++ colors l p ++
        extras p e.extra := by
      unfold demands at hd
      split at hd
      · exact hd
      · rw [List.append_nil, List.mem_append] at hd
        exact hd.elim
          (fun hfront => List.mem_append_left _ (List.mem_append_left _ hfront))
          (List.mem_append_right _)
    obtain ⟨error, hfirst⟩ := exists_firstUnmet_iff.mpr ⟨d, hmem, hunmet⟩
    exact ⟨error, (hgovern error).mpr hfirst⟩
  · intro hcolors error
    rw [hgovern, demands]
    by_cases hcolor : e.format.hasColor = true
    · rw [if_pos hcolor]
    · rw [if_neg hcolor, List.append_nil, List.append_assoc, firstUnmet_append_iff,
        firstUnmet_append_of_met (hcolors.resolve_left hcolor), ← firstUnmet_append_iff]

/-- **The layout of a record.**  What a reader finds in the record of a point, which points have no
record, and with which error a point is refused. -/
theorem outcome_laid_out (o : Options) (l : Layout) (h : Header) (extra : ExtraBytes)
    (hformat : h.format.isSupported = true) (q : Quantizer) (v : PointView) (index : Nat) :
    let e := Writer.encoderFor o l h extra
    let p := v.point index
    let encoding := e.encode q v index
    (∀ r, encoding.outcome = .ok (some r) → e.Stores l q p encoding.appended) ∧
    (encoding.outcome = .ok none → encoding.appended = []) ∧
    (encoding.outcome = .ok none ↔ p.LeftOut l e.policy) ∧
    (¬ p.LeftOut l e.policy → e.Refuses l q p encoding.outcome) := by
  intro e p encoding
  have hfields : e.fields = .ofLayout l := rfl
  have hpoint : encoding = e.encodePoint q p := e.encode_eq q v index
  rw [hpoint]
  refine ⟨?_, fun hnone => Encoding.appended_of_outcome hnone, outcome_eq_none_iff hfields,
    fun hkept => refuses_outcome hfields hkept⟩
  intro r hr
  have happended : (e.encodePoint q p).appended = r.bytes := by
    rw [Encoding.appended_of_outcome hr]
    simp
  rw [happended]
  exact stores_of_outcome hfields hformat hr

end PointEncoder

/-- A table of scanned points. -/
def Layout.scanned : Layout :=
  Layout.xyz.registerAll [⟨"ReturnNumber", .unsigned8, ""⟩, ⟨"NumberOfReturns", .unsigned8, ""⟩,
    ⟨"ScanAngleRank", .float, ""⟩, ⟨"Red", .signed32, ""⟩]

/-- Two points.  The first is the third of nine returns, seen at an angle of -12.5 degrees; the
second has a color of 70000. -/
def PointView.scanned : PointView where
  size := 2
  value id index :=
    if index = 0 then
      [.zero, .zero, .zero, .ofWhole 3, .ofWhole 9, ⟨0xC029000000000000⟩, .ofWhole 7].getD id .zero
    else [.zero, .zero, .zero, .ofWhole 1, .ofWhole 1, .zero, .ofWhole 70000].getD id .zero
  octets _ _ := List.replicate 8 0

/-- Options that leave high return numbers out, and ask for a coordinate behind the fields. -/
def Options.scanned : Options :=
  { Options.usual with discardHighReturns := true, extraDimensions := [⟨"X", none⟩] }

/-- The coordinate as an extra dimension, copied. -/
def ExtraBytes.copiedX : ExtraBytes := ⟨[⟨"X", 0, .double, .double, ""⟩]⟩

/-- Hundredths on every axis. -/
def Quantizer.hundredths : Quantizer := ⟨.same .usual, .same false⟩

namespace PointEncoder

/-- The first point has a record of 34 and 8 octets, with the number of returns cut down to five;
the second is refused for its color. -/
theorem outcome_laid_out_scanned :
    let e := Writer.encoderFor .scanned .scanned .usual .copiedX
    let first := e.encode .hundredths .scanned 0
    let second := e.encode .hundredths .scanned 1
    Header.usual.format.isSupported = true ∧ (∃ r, first.outcome = .ok (some r)) ∧
      first.appended.length = 42 ∧ first.appended.natAt 14 1 = 3 + 8 * 5 ∧
      first.appended.intAt 16 1 = -12 ∧ ∃ error, second.outcome = .error error := by
  intro e first second
  have hformat : Header.usual.format.isSupported = true := rfl
  obtain ⟨hstores, -⟩ := outcome_laid_out .scanned .scanned .usual .copiedX hformat .hundredths
    .scanned 0
  obtain ⟨-, -, -, hrefuses⟩ := outcome_laid_out .scanned .scanned .usual .copiedX hformat
    .hundredths .scanned 1
  have hkept : first.outcome.map (·.isSome) = .ok true := by decide +kernel
  obtain ⟨point?, houtcome, hsome⟩ := Except.map_eq_ok_iff.mp hkept
  obtain ⟨r, rfl⟩ := Option.isSome_iff_exists.mp hsome
  have hstore := hstores r houtcome
  obtain ⟨record, his, hreads⟩ := hstore.fields
  have hnumbers : (PointView.scanned.point 0).whole? .scanned .returnNumber = some 3 ∧
      (PointView.scanned.point 0).whole? .scanned .numberOfReturns = some 9 ∧
      (PointView.scanned.point 0).whole? .scanned .scanAngle = some (-12) ∧
      (PointView.scanned.point 0).whole? .scanned .scanDirection = some 0 ∧
      (PointView.scanned.point 0).whole? .scanned .edgeOfFlightLine = some 0 := by
    decide +kernel
  obtain ⟨hnumber, hcount, hangle, hdirection, hedge⟩ := hnumbers
  refine ⟨hformat, ⟨r, houtcome⟩, ?_, ?_, ?_, ?_⟩
  · exact hstore.length (by decide)
  · obtain ⟨count, hcount', hcut⟩ := his.numberOfReturns
    have hthree := Option.some.inj (hnumber.symm.trans his.returnNumber)
    have hnine := Option.some.inj (hcount.symm.trans hcount')
    have hflat := Option.some.inj (hdirection.symm.trans his.scanDirection)
    have hinner := Option.some.inj (hedge.symm.trans his.edgeOfFlightLine)
    obtain rfl : count = 9 := UInt8.toNat_inj.mp (Int.ofNat_inj.mp hnine.symm)
    have hfive : record.flags.numberOfReturns.toNat = 5 := congrArg UInt8.toNat hcut
    rw [hreads.flags]
    omega
  · rw [hreads.scanAngle]
    exact (Option.some.inj (hangle.symm.trans his.scanAngle)).symm
  · have hone : (PointView.scanned.point 1).whole? .scanned .returnNumber = some 1 := by
      decide +kernel
    have hred : (PointView.scanned.point 1).whole? .scanned .red = some 70000 := by decide +kernel
    have hkept : ¬ (PointView.scanned.point 1).LeftOut .scanned e.policy := by
      rintro ⟨number, -, hnumber', -, -, hhigh, -⟩
      have hnumber := Option.some.inj (hone.symm.trans hnumber')
      have hlt : 5 < number.toNat := UInt8.lt_iff_toNat_lt.mp hhigh
      omega
    have hcolor : Demand.ofField .scanned (PointView.scanned.point 1) .red ∈
        Demand.colors .scanned (PointView.scanned.point 1) := List.mem_cons_self
    refine (hrefuses hkept).unmet
      ⟨_, List.mem_append_left _ (List.mem_append_right _ hcolor), ?_⟩
    rintro ⟨n, hn, -, hlt⟩
    obtain rfl := Option.some.inj (hred.symm.trans hn)
    exact absurd hlt (by decide)

/-- A view that has no octets for a coordinate that is copied leaves the record eight octets short:
the encoder stores what it is given. -/
theorem appended_without_octets :
    let h : Header := { Header.usual with format := ⟨0⟩ }
    let e := Writer.encoderFor .scanned .xyz h .copiedX
    let encoding := e.encode .hundredths ⟨1, fun _ _ => .zero, fun _ _ => []⟩ 0
    ExtraBytes.resolve .xyz Options.scanned.extraDimensions = .ok .copiedX ∧
      encoding.outcome.map (·.isSome) = .ok true ∧
      encoding.appended.length = 20 ∧ e.recordLength = 28 := by
  decide +kernel

end PointEncoder

end PointCloud
