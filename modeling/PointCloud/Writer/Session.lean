import PointCloud.Header.Resolve
import PointCloud.PointEncoder

/-!
# A file in the making

A `Plan` is what a writer has settled before it touches its device: the options,
the header, and the way points become records.  A `Session` is a file in the
making: its plan, where it stands on the device, its records, and what changes
as points are written, which is the quantizer, the tally of complaints and the
summary.

Points are written in chunks of about a million octets.  A chunk is encoded in
full before any of it is stored, so a point that fails takes the points before
it in its chunk with it, and nothing of the chunk reaches the device.  The
summary takes note of the points of a chunk once all of them are stored.  A device
that fails in the middle of a chunk may keep the front part of it, so the file can
hold records of points that the summary knows nothing of.
-/

namespace PointCloud

/-- What is settled before the device is touched. -/
structure Plan where
  options : Options
  header : Header
  encoder : PointEncoder
  deriving Repr

namespace Plan

/-- The quantizer before any point is seen. -/
def quantizer (p : Plan) : Quantizer := .configured p.options.scale p.options.offset

/-- The summary before any point is written. -/
def summary (p : Plan) : Summary := .empty p.header.format.maxReturns

/-- The octets between the records and the points. -/
def pointDataMark (p : Plan) : Octets :=
  if p.header.version.marksPointData then [0xDD, 0xCC] else []

/-- How far behind the beginning of the file the points begin. -/
def pointDataOffset (p : Plan) (records : VlrList) : Nat :=
  p.header.version.headerSize + records.regularSize + p.pointDataMark.length

end Plan

/-- A file in the making. -/
structure Session where
  plan : Plan
  start : Nat
  records : VlrList
  quantizer : Quantizer
  settled : Bool
  tally : Returns.Tally
  summary : Summary
  deriving Repr

/-- What has come of a part of a batch. -/
structure Progress (σ : Type) where
  result : Except Error Unit
  session : Session
  device : σ
  log : List LogEntry

namespace Session

/-- A file without points. -/
def fresh (p : Plan) (start : Nat) (records : VlrList) : Session :=
  ⟨p, start, records, p.quantizer, false, .zero, p.summary⟩

/-- How far behind the beginning of the file the points begin. -/
def pointDataOffset (s : Session) : Nat := s.plan.pointDataOffset s.records

/-- The header of the file as it stands now. -/
def headerBytes (s : Session) (extended : Option ExtendedRecords) : Except Error Octets :=
  s.plan.header.bytes s.quantizer.scalings s.summary
    ⟨s.records.regular.length, s.pointDataOffset, extended⟩

/-- The octets of a record of the file. -/
def recordBytes (s : Session) (extended : Bool) (v : Vlr) : Except Error Octets :=
  v.bytes extended s.plan.header.version.recordSignature

/-- What stands in front of the points, piece by piece. -/
def front (s : Session) : List (Except Error Octets) :=
  s.headerBytes none :: s.records.regular.map (s.recordBytes false) ++ [.ok s.plan.pointDataMark]

/-- What stands behind the points, piece by piece. -/
def back (s : Session) : List (Except Error Octets) :=
  s.records.extended.map (s.recordBytes true)

/-- The extent of the points of a view. -/
def extent (s : Session) (v : PointView) : Box :=
  (List.range v.size).foldl
    (fun box index => box.grow (.point (s.plan.encoder.fields.position v index))) .nowhere

/-- Chooses the open offsets by the points of the first batch. -/
def settle (s : Session) (v : PointView) : Session :=
  if s.settled then s
  else
    let box := s.extent v
    { s with quantizer := s.quantizer.settle box.min box.max, settled := true }

/-- What is said about the offsets that are chosen by a batch. -/
def settleRemarks (s : Session) (v : PointView) : List LogEntry :=
  if s.settled then []
  else
    let box := s.extent v
    s.quantizer.settleRemarks box.min box.max

/-- About how many octets of records are stored at once. -/
def chunkOctets : Nat := 1000000

/-- How many points make a chunk. -/
def chunkSize (s : Session) : Nat := max 1 (chunkOctets / s.plan.encoder.recordLength)

/-- The indexes below `count`, in runs of `size`. -/
def chunks (size count : Nat) : List (List Nat) :=
  (List.range ((count + size - 1) / size)).map fun i =>
    List.range' (i * size) (min size (count - i * size))

/-- The error of an encoding. -/
def failure? (e : Encoding) : Option Error :=
  match e.outcome with
  | .error error => some error
  | .ok _ => none

/-- The record of an encoding. -/
def point? (e : Encoding) : Option EncodedPoint :=
  match e.outcome with
  | .ok point? => point?
  | .error _ => none

/-- The encodings up to and including the first that failed; no point behind it is looked at. -/
def examined (es : List Encoding) : List Encoding :=
  let sound (e : Encoding) : Bool := (failure? e).isNone
  es.takeWhile sound ++ (es.dropWhile sound).take 1

/-- The complaints about the points that are looked at. -/
def complaints (es : List Encoding) : List Returns.Complaint :=
  (examined es).flatMap (·.complaints)

/-- The session after complaints. -/
def noting (s : Session) (cs : List Returns.Complaint) : Session :=
  { s with tally := s.tally.countAll cs }

/-- The session after points have been stored. -/
def counting (s : Session) (ps : List EncodedPoint) : Session :=
  { s with summary := s.summary.addAll (ps.map (·.counted)) }

variable {σ : Type} [Device σ]

/-- Stores the points of a chunk, unless one of them failed.  The records are gathered anew for each
chunk: what has been gathered for a chunk that failed is not stored with the next one. -/
def writeChunk (s : Session) (es : List Encoding) (d : σ) : Progress σ :=
  let cs := complaints es
  let log := s.tally.entries s.plan.encoder.policy.max cs
  match es.findSome? failure? with
  | some error => ⟨.error error, s.noting cs, d, log⟩
  | none =>
    let points := es.filterMap point?
    match Device.storeSome (points.flatMap (·.bytes)) d with
    | (.error fault, d) => ⟨.error (.device fault), s.noting cs, d, log⟩
    | (.ok _, d) => ⟨.ok (), (s.noting cs).counting points, d, log⟩

/-- Writes chunks of a view in order, up to the first that fails. -/
def writeChunks (s : Session) (v : PointView) : List (List Nat) → σ → Progress σ
  | [], d => ⟨.ok (), s, d, []⟩
  | chunk :: rest, d =>
    let first := s.writeChunk (chunk.map (s.plan.encoder.encode s.quantizer v)) d
    match first.result with
    | .error _ => first
    | .ok _ =>
      let more := first.session.writeChunks v rest first.device
      { more with log := first.log ++ more.log }

/-- Writes the points of a view. -/
def write (s : Session) (v : PointView) (d : σ) : Progress σ :=
  if v.size = 0 then ⟨.ok (), s, d, []⟩
  else
    let progress := (s.settle v).writeChunks v (chunks s.chunkSize v.size) d
    { progress with log := s.settleRemarks v ++ progress.log }

end Session

end PointCloud
