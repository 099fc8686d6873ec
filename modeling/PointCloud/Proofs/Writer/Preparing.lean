import PointCloud.Proofs.Header.Settling
import PointCloud.Proofs.Tables.Finding
import PointCloud.Proofs.Writer.Opening

/-!
# What a file can be planned for

A writer is prepared with a table, and there are few reasons for refusing one.
`Options.Suit` lists them: a request for a dimension that the table does not have,
a version or a format that cannot be written, a format that is younger than the
version, and records that are too long.  `Writer.prepared_iff` says that the list
is complete.

The length of a record is then known in three places, to the header, to the
encoder that makes records, and to whoever adds up the octets of format and extra
dimensions.  They are of one mind, and the number fits into the sixteen bits that
a header has for it.
-/

namespace PointCloud

open Except (exists_mapM_eq_ok_iff)

/-- The octets that a request adds to every point record. -/
def ExtraDimension.widthIn (l : Layout) (request : ExtraDimension) : Nat :=
  match (l.find? request.name).bind l.get? with
  | some d => (request.scalar.getD d.scalar).width
  | none => 0

/-- The octets that all requests together add to every point record. -/
def Options.extraWidth (o : Options) (l : Layout) : Nat :=
  (o.extraDimensions.map (·.widthIn l)).foldr (· + ·) 0

/-- What options and a table have to be like for a file. -/
structure Options.Suit (o : Options) (stamp : Stamp) (table : PointTable) : Prop where
  named : ∀ request ∈ o.extraDimensions, ∃ d ∈ table.layout.dimensions,
    Text.sameIgnoringCase d.name request.name = true
  kind : ∃ (minor formatNumber : UInt8) (format : RecordFormat),
    HeaderField.minorVersion.SettlesTo stamp o table.metadata minor ∧
    HeaderField.format.SettlesTo stamp o table.metadata formatNumber ∧
    o.majorVersion = 1 ∧ minor ≤ 4 ∧
    formatNumber ≤ 3 ∧ (minor < 2 → formatNumber ≤ 1) ∧
    RecordFormat.ofNumber? formatNumber = some format ∧
    format.length + o.extraWidth table.layout ≤ 65535

namespace ExtraField

/-- A request is resolved if the table has a dimension of its name. -/
theorem exists_resolve_iff {l : Layout} {request : ExtraDimension} :
    (∃ f, resolve l request = .ok f) ↔
      ∃ d ∈ l.dimensions, Text.sameIgnoringCase d.name request.name = true := by
  rw [← Layout.exists_find?_iff]
  constructor
  · rintro ⟨f, hf⟩
    obtain ⟨id, -, hfind, -⟩ := resolve_eq_ok_iff.mp hf
    exact ⟨id, hfind⟩
  · rintro ⟨id, hfind⟩
    obtain ⟨d, hget, -⟩ := Layout.find?_eq_some hfind
    exact ⟨_, resolve_eq_ok_iff.mpr ⟨id, d, hfind, hget, rfl⟩⟩

/-- A dimension that is resolved is as wide as its request is in the layout. -/
theorem width_of_resolve {l : Layout} {request : ExtraDimension} {f : ExtraField}
    (h : resolve l request = .ok f) : f.scalar.width = request.widthIn l := by
  obtain ⟨id, d, hfind, hget, rfl⟩ := resolve_eq_ok_iff.mp h
  simp [ExtraDimension.widthIn, hfind, hget]

end ExtraField

namespace ExtraBytes

/-- The dimensions together are as wide as the requests for them. -/
theorem length_of_resolved {l : Layout} {requests : List ExtraDimension} {fields : List ExtraField}
    (h : List.Forall₂ (fun request f => ExtraField.resolve l request = .ok f) requests fields) :
    ExtraBytes.length ⟨fields⟩ = (requests.map (·.widthIn l)).foldr (· + ·) 0 := by
  induction h with
  | nil => rfl
  | cons hfirst _ ih =>
    simp only [length, List.map_cons, List.foldr_cons] at ih ⊢
    rw [ih, ExtraField.width_of_resolve hfirst]

/-- Requests are resolved if the table has all of their names and the octets are not too many. -/
theorem exists_resolve_iff {l : Layout} {requests : List ExtraDimension} :
    (∃ extra, resolve l requests = .ok extra) ↔
      (∀ request ∈ requests, ∃ d ∈ l.dimensions,
        Text.sameIgnoringCase d.name request.name = true) ∧
      (requests.map (·.widthIn l)).foldr (· + ·) 0 ≤ maxLength := by
  constructor
  · rintro ⟨extra, hextra⟩
    obtain ⟨hfields, hle⟩ := resolve_eq_ok_iff.mp hextra
    refine ⟨?_, length_of_resolved hfields ▸ hle⟩
    intro request hrequest
    obtain ⟨f, -, hf⟩ := hfields.exists_right hrequest
    exact ExtraField.exists_resolve_iff.mp ⟨f, hf⟩
  · rintro ⟨hnamed, hle⟩
    obtain ⟨fields, hfields⟩ := exists_mapM_eq_ok_iff.mpr fun request hrequest =>
      ExtraField.exists_resolve_iff.mpr (hnamed request hrequest)
    have hresolved := Except.mapM_eq_ok_iff.mp hfields
    exact ⟨⟨fields⟩, resolve_eq_ok_iff.mpr ⟨hresolved, length_of_resolved hresolved ▸ hle⟩⟩

end ExtraBytes

namespace Version

variable {v : Version}

/-- The versions from 1.0 to 1.4 are supported. -/
theorem isSupported_iff : v.isSupported = true ↔ v.major = 1 ∧ v.minor ≤ 4 := by
  simp [isSupported]

/-- A version allows the formats that are no younger. -/
theorem allows_iff {f : RecordFormat} : v.allows f = true ↔ v.major = 1 ∧ f.since ≤ v.minor := by
  simp [allows]

end Version

namespace RecordFormat

/-- The formats that are written are the first four. -/
theorem isSupported_iff_number (f : RecordFormat) : f.isSupported = true ↔ f.number ≤ 3 := by
  obtain ⟨id⟩ := f
  revert id
  decide

/-- Of the formats that can be written the first two are as old as the first version. -/
theorem since_le_iff {f : RecordFormat} (h : f.isSupported = true) {minor : UInt8} :
    f.since ≤ minor ↔ (minor < 2 → f.number ≤ 1) := by
  have hsince : f.since = if f.number ≤ 1 then 0 else 2 := by
    obtain ⟨id⟩ := f
    revert h
    revert id
    decide
  rw [hsince]
  by_cases hnumber : f.number ≤ 1
  · simp [hnumber]
  · simp [hnumber]

end RecordFormat

namespace Writer

variable {σ : Type} {stamp : Stamp} {o : Options} {table : PointTable}

/-- A plan can be made if the extra dimensions can be resolved and a header can be settled. -/
theorem exists_planFor_iff :
    (∃ p, (planFor stamp o table).value = .ok p) ↔
      ∃ extra header, ExtraBytes.resolve table.layout o.extraDimensions = .ok extra ∧
        (Header.resolve stamp o table.metadata extra.length).value = .ok header := by
  constructor
  · rintro ⟨p, hp⟩
    obtain ⟨extra, header, hextra, hheader, -⟩ := exists_of_planFor hp
    exact ⟨extra, header, hextra, hheader⟩
  · rintro ⟨extra, header, hextra, hheader⟩
    refine ⟨⟨o, header, encoderFor o table.layout header extra⟩, ?_⟩
    simp [planFor, hextra, hheader]

/-- A plan can be made exactly for options and a table that suit. -/
theorem suit_iff : o.Suit stamp table ↔ ∃ p, (planFor stamp o table).value = .ok p := by
  rw [exists_planFor_iff]
  constructor
  · rintro ⟨hnamed, minor, formatNumber, format, hminor, hformat, hmajor, hrecent, hsupported,
      hallowed, hnumber, hlength⟩
    obtain ⟨extra, hextra⟩ := ExtraBytes.exists_resolve_iff.mpr
      ⟨hnamed, Nat.le_trans (Nat.le_add_left _ format.length) hlength⟩
    have hwidth : extra.length = o.extraWidth table.layout :=
      ExtraBytes.length_of_resolved (ExtraBytes.resolve_eq_ok_iff.mp hextra).1
    obtain rfl := HeaderField.settlesTo_iff.mp hminor
    obtain rfl := HeaderField.settlesTo_iff.mp hformat
    have hwritable : format.isSupported = true := by
      rw [RecordFormat.isSupported_iff_number, RecordFormat.number_of_ofNumber? hnumber]
      exact hsupported
    have hsince := (RecordFormat.since_le_iff hwritable).mpr
      (RecordFormat.number_of_ofNumber? hnumber ▸ hallowed)
    have hallows : (Header.versionFor stamp o table.metadata).allows format = true :=
      Version.allows_iff.mpr ⟨hmajor, hsince⟩
    have hversion : (Header.versionFor stamp o table.metadata).isSupported = true :=
      Version.isSupported_iff.mpr ⟨hmajor, hrecent⟩
    have hkind : Header.recordKind (Header.versionFor stamp o table.metadata)
        (HeaderField.format.resolved stamp o table.metadata) extra.length =
          .ok (format, format.length + extra.length) :=
      Header.recordKind_eq_ok_iff.mpr
        ⟨hversion, hnumber, hwritable, hallows, rfl, hwidth ▸ hlength⟩
    exact ⟨extra, _, hextra, by rw [Header.resolve_value, hkind]; rfl⟩
  · rintro ⟨extra, header, hextra, hheader⟩
    obtain ⟨hnamed, -⟩ := ExtraBytes.exists_resolve_iff.mp ⟨extra, hextra⟩
    have hwidth : extra.length = o.extraWidth table.layout :=
      ExtraBytes.length_of_resolved (ExtraBytes.resolve_eq_ok_iff.mp hextra).1
    rw [Header.resolve_value, Except.map_eq_ok_iff] at hheader
    obtain ⟨⟨format, recordLength⟩, hkind, -⟩ := hheader
    obtain ⟨hversion, hnumber, hwritable, hallows, rfl, hle⟩ := Header.recordKind_eq_ok_iff.mp hkind
    obtain ⟨hmajor, hrecent⟩ := Version.isSupported_iff.mp hversion
    obtain ⟨-, hsince⟩ := Version.allows_iff.mp hallows
    refine ⟨hnamed, _, _, format, HeaderField.settlesTo_resolved, HeaderField.settlesTo_resolved,
      hmajor, hrecent, ?_, ?_, hnumber, hwidth ▸ hle⟩
    · rw [← RecordFormat.number_of_ofNumber? hnumber]
      exact (RecordFormat.isSupported_iff_number format).mp hwritable
    · rw [← RecordFormat.number_of_ofNumber? hnumber]
      exact (RecordFormat.since_le_iff hwritable).mp hsince

/-- With options, preparing succeeds just if there is a plan. -/
theorem prepare_of_configured {w : Writer σ} (h : w.phase = .configured o) (table : PointTable) :
    (w.prepare table).result = .ok () ↔ ∃ p, (planFor w.stamp o table).value = .ok p := by
  rcases w with ⟨d, phase, stamp⟩
  obtain rfl : phase = .configured o := h
  simp only [prepare]
  cases (planFor stamp o table).value with
  | ok p => simp
  | error e => simp

/-- **A writer is prepared exactly with a table that suits.**  The length of a record is then the
same for the header and the encoder, and no sum on the way to it leaves sixteen bits. -/
theorem prepared_iff (w : Writer σ) {o : Options} (h : w.phase = .configured o)
    (table : PointTable) :
    ((w.prepare table).result = .ok () ↔ o.Suit w.stamp table) ∧
    ((w.prepare table).result = .ok () →
      ∃ p, (w.prepare table).writer = { w with phase := .prepared p false } ∧
        let base := p.header.format.length
        let width := o.extraWidth table.layout
        HeaderField.format.SettlesTo w.stamp o table.metadata p.header.format.number ∧
        p.header.recordLength = base + width ∧ p.encoder.recordLength = base + width ∧
        (UInt16.ofNat base + UInt16.ofNat width).toNat = base + width ∧
        (UInt16.ofNat p.header.recordLength).toNat = base + width ∧
        20 ≤ base + width ∧
        ∀ s : Session, s.plan = p → s.chunkSize = max 1 (1000000 / (base + width))) := by
  refine ⟨(prepare_of_configured h table).trans suit_iff.symm, ?_⟩
  intro hresult
  obtain ⟨o', p, hphase, hplan, hwriter⟩ := prepare_eq_ok hresult
  obtain rfl : o' = o := by simpa [hphase] using h
  have hsettled := planFor_eq_ok hplan
  have hwidth : p.encoder.extra.length = o'.extraWidth table.layout :=
    ExtraBytes.length_of_resolved (ExtraBytes.resolve_eq_ok_iff.mp hsettled.extra).1
  have hlength : p.encoder.recordLength = p.header.format.length + o'.extraWidth table.layout := by
    rw [PointEncoder.recordLength, hsettled.format, hwidth]
  have hle : p.header.format.length + o'.extraWidth table.layout < UInt16.size :=
    hlength ▸ Nat.lt_succ_of_le hsettled.recordLength_le
  refine ⟨p, hwriter, ?_, hsettled.recordLength.trans hlength, hlength, ?_, ?_, ?_, ?_⟩
  · obtain ⟨extra, header, -, hheader, rfl⟩ := exists_of_planFor hplan
    exact HeaderField.settlesTo_iff.mpr (Header.valueIn_of_resolve hheader .format).symm
  · rw [← UInt16.ofNat_add, UInt16.toNat_ofNat_of_lt' hle]
  · rw [hsettled.recordLength, hlength, UInt16.toNat_ofNat_of_lt' hle]
  · exact Nat.le_trans p.header.format.twenty_le_length (Nat.le_add_right _ _)
  · rintro s rfl
    rw [Session.chunkSize, hlength, Session.chunkOctets]

end Writer

/-- A table with one dimension besides the coordinates. -/
def PointTable.pulses : PointTable :=
  ⟨Layout.xyz.registerAll [⟨"Amplitude", .unsigned16, ""⟩], none, none⟩

/-- Options for a file of the oldest version, with a dimension under a name in small letters. -/
def Options.pulses : Options :=
  { Options.usual with
    format := .value 1, minorVersion := .value 0, extraDimensions := [⟨"amplitude", none⟩] }

namespace Writer

/-- The dimension is found, and its two octets stand behind the 28 of the format. -/
theorem prepared_iff_pulses :
    let w : Writer Memory := ⟨Memory.unlimited [] 0, .configured .pulses, .blank⟩
    (w.prepare .pulses).result = .ok () ∧
      ∃ p, (w.prepare .pulses).writer = { w with phase := .prepared p false } ∧
        p.header.recordLength = 30 ∧ p.encoder.recordLength = 30 := by
  intro w
  obtain ⟨hiff, hprepared⟩ := prepared_iff w rfl .pulses
  have hsuit : Options.pulses.Suit w.stamp .pulses :=
    { named := by decide +kernel
      kind := ⟨0, 1, ⟨1⟩, .value rfl, .value rfl, rfl, by decide, by decide, by decide, rfl,
        by decide +kernel⟩ }
  have hresult := hiff.mpr hsuit
  obtain ⟨p, hwriter, hformat, hheader, hencoder, -⟩ := hprepared hresult
  have hnumber : p.header.format.number = 1 := (HeaderField.settlesTo_iff.mp hformat).symm
  have hlength : p.header.format.length = 28 := by
    have hone : p.header.format = ⟨1⟩ := by
      have hfound := RecordFormat.ofNumber?_number p.header.format
      rw [hnumber] at hfound
      exact (Option.some.inj hfound).symm
    rw [hone]
    rfl
  have hwidth : Options.pulses.extraWidth PointTable.pulses.layout = 2 := by decide +kernel
  rw [hlength, hwidth] at hheader hencoder
  exact ⟨hresult, p, hwriter, hheader, hencoder⟩

end Writer

end PointCloud
