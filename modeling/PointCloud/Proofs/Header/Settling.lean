import PointCloud.Header.Resolve
import PointCloud.Proofs.Header.Blocks

/-!
# What the fields of a header settle to

Nine fields of a header are filled by settings of four types, each under a name
of its own.  `Setting.SettlesTo` is the rule for one of them: a value that is set
counts, then what the metadata has under the name of the field, if it is asked
and what it has can be read, and then the usual value.  `HeaderField` numbers the
nine, so that one statement is about all of them.

`Header.settled` says that every field of a settled header is by the rule, and
what follows from that for two headers: a field looks at one entry of the
metadata, and at none if it is set.  Whether there is a header at all is a matter
of two fields only, the version and the record format.
-/

namespace PointCloud

/-- What the metadata has under a name. -/
def Metadata.entry? (metadata : Option Metadata) (name : String) : Option String :=
  metadata.bind (·.headerValue? name)

namespace Setting

variable {α : Type} [FieldType α]

/-- Whether a setting asks the metadata, the general switch being on or off. -/
def Asks (s : Setting α) (forwardAll : Bool) : Prop :=
  s = .forward ∨ s = .usual ∧ forwardAll = true

/-- The value that a setting of a field comes to. -/
inductive SettlesTo (s : Setting α) (name : String) (forwardAll : Bool)
    (metadata : Option Metadata) (usual : α) : α → Prop
  | value {a : α} (set : s = .value a) : SettlesTo s name forwardAll metadata usual a
  | forwarded {a : α} {text : String} (asks : s.Asks forwardAll)
      (entry : Metadata.entry? metadata name = some text)
      (reads : FieldType.ofText? (Text.trimmed text) = some a) :
      SettlesTo s name forwardAll metadata usual a
  | usual (unset : ∀ a, s ≠ .value a)
      (unread : s.Asks forwardAll → ∀ text, Metadata.entry? metadata name = some text →
        (FieldType.ofText? (Text.trimmed text) : Option α) = none) :
      SettlesTo s name forwardAll metadata usual usual

omit [FieldType α] in
/-- Whether metadata is asked for is what the setting and the switch say. -/
theorem forwards_iff {s : Setting α} {forwardAll : Bool} :
    s.forwards forwardAll = true ↔ s.Asks forwardAll := by
  cases s <;> simp [forwards, Asks]

/-- A value is forwarded if the metadata has an entry that can be read. -/
theorem forwarded?_eq_some_iff {name : String} {metadata : Option Metadata} {a : α} :
    forwarded? name metadata = some a ↔
      ∃ text, Metadata.entry? metadata name = some text ∧
        FieldType.ofText? (Text.trimmed text) = some a := by
  simp [forwarded?, Metadata.entry?, Option.bind_eq_some_iff]

/-- None is forwarded if it has no such entry. -/
theorem forwarded?_eq_none_iff {name : String} {metadata : Option Metadata} :
    (forwarded? name metadata : Option α) = none ↔
      ∀ text, Metadata.entry? metadata name = some text →
        (FieldType.ofText? (Text.trimmed text) : Option α) = none := by
  simp only [forwarded?, Metadata.entry?, Option.bind_eq_none_iff]

variable {s : Setting α} {name : String} {forwardAll : Bool} {metadata : Option Metadata}
  {usual a : α}

/-- A setting comes to its own value, or asks the metadata, or is left to the usual value. -/
theorem settlesTo_resolve :
    s.SettlesTo name forwardAll metadata usual
      (s.resolve name forwardAll metadata usual).value := by
  unfold resolve
  by_cases hforwards : s.forwards forwardAll = true
  · rw [if_pos hforwards]
    have hasks := forwards_iff.mp hforwards
    cases hforwarded : (forwarded? name metadata : Option α) with
    | some b =>
      obtain ⟨text, hentry, hreads⟩ := forwarded?_eq_some_iff.mp hforwarded
      exact .forwarded hasks hentry hreads
    | none =>
      have hunset : ∀ b, s ≠ .value b := by
        rintro b rfl
        simp [forwards] at hforwards
      exact .usual hunset fun _ => forwarded?_eq_none_iff.mp hforwarded
  · rw [if_neg hforwards]
    have hsilent : ¬ s.Asks forwardAll := fun hasks => hforwards (forwards_iff.mpr hasks)
    cases s with
    | value b => exact .value rfl
    | usual => exact .usual nofun fun hasks => absurd hasks hsilent
    | forward => exact absurd (Or.inl rfl) hsilent

/-- A setting comes to one value. -/
theorem SettlesTo.eq_resolve (h : s.SettlesTo name forwardAll metadata usual a) :
    (s.resolve name forwardAll metadata usual).value = a := by
  cases h with
  | value set =>
    subst set
    rfl
  | forwarded asks entry reads =>
    have hforwarded := forwarded?_eq_some_iff.mpr ⟨_, entry, reads⟩
    rw [resolve, if_pos (forwards_iff.mpr asks), hforwarded]
    rfl
  | usual unset unread =>
    by_cases hasks : s.Asks forwardAll
    · have hforwarded := forwarded?_eq_none_iff.mpr (unread hasks)
      rw [resolve, if_pos (forwards_iff.mpr hasks), hforwarded]
      rfl
    · have hforwards : ¬ s.forwards forwardAll = true := fun h => hasks (forwards_iff.mp h)
      rw [resolve, if_neg hforwards]
      cases s with
      | value b => exact absurd rfl (unset b)
      | _ => rfl

end Setting

/-- A field of a header that a setting fills. -/
inductive HeaderField where
  | minorVersion
  | format
  | creationYear
  | creationDay
  | systemId
  | softwareId
  | projectId
  | globalEncoding
  | fileSourceId
  deriving Repr, DecidableEq

namespace HeaderField

/-- The type of the values of a field. -/
def Carrier : HeaderField → Type
  | .minorVersion | .format => UInt8
  | .creationYear | .creationDay | .globalEncoding | .fileSourceId => UInt16
  | .systemId | .softwareId => String
  | .projectId => Guid

instance : (f : HeaderField) → FieldType f.Carrier
  | .minorVersion | .format => inferInstanceAs (FieldType UInt8)
  | .creationYear | .creationDay | .globalEncoding | .fileSourceId =>
    inferInstanceAs (FieldType UInt16)
  | .systemId | .softwareId => inferInstanceAs (FieldType String)
  | .projectId => inferInstanceAs (FieldType Guid)

/-- The name of a field in the metadata. -/
def name : HeaderField → String
  | .minorVersion => "minor_version"
  | .format => "format"
  | .creationYear => "creation_year"
  | .creationDay => "creation_doy"
  | .systemId => "system_id"
  | .softwareId => "software_id"
  | .projectId => "project_id"
  | .globalEncoding => "global_encoding"
  | .fileSourceId => "filesource_id"

/-- The setting of a field. -/
def setting (o : Options) : (f : HeaderField) → Setting f.Carrier
  | .minorVersion => o.minorVersion
  | .format => o.format
  | .creationYear => o.creationYear
  | .creationDay => o.creationDay
  | .systemId => o.systemId
  | .softwareId => o.softwareId
  | .projectId => o.projectId
  | .globalEncoding => o.globalEncoding
  | .fileSourceId => o.fileSourceId

/-- The usual value of a field. -/
def usual (stamp : Stamp) : (f : HeaderField) → f.Carrier
  | .minorVersion => (2 : UInt8)
  | .format => (3 : UInt8)
  | .creationYear => stamp.year
  | .creationDay => stamp.day
  | .systemId => Header.usualSystem
  | .softwareId => Header.usualSoftware
  | .projectId => stamp.projectId
  | .globalEncoding => (0 : UInt16)
  | .fileSourceId => (0 : UInt16)

/-- The value of a field in a header. -/
def valueIn (h : Header) : (f : HeaderField) → f.Carrier
  | .minorVersion => h.version.minor
  | .format => h.format.number
  | .creationYear => h.creationYear
  | .creationDay => h.creationDay
  | .systemId => h.systemIdentifier
  | .softwareId => h.generatingSoftware
  | .projectId => h.guid
  | .globalEncoding => h.globalEncoding
  | .fileSourceId => h.fileSourceId

/-- What a field comes to under some options. -/
def SettlesTo (f : HeaderField) (stamp : Stamp) (o : Options) (metadata : Option Metadata)
    (a : f.Carrier) : Prop :=
  (f.setting o).SettlesTo f.name o.forwardMetadata metadata (f.usual stamp) a

/-- What a field is resolved to. -/
def resolved (f : HeaderField) (stamp : Stamp) (o : Options) (metadata : Option Metadata) :
    f.Carrier :=
  ((f.setting o).resolve f.name o.forwardMetadata metadata (f.usual stamp)).value

variable {f : HeaderField} {stamp : Stamp} {o : Options} {m n : Option Metadata}

/-- What a field is resolved to is what the rule settles. -/
theorem settlesTo_resolved : f.SettlesTo stamp o m (f.resolved stamp o m) :=
  Setting.settlesTo_resolve

/-- The rule settles one value and no other. -/
theorem settlesTo_iff {a : f.Carrier} : f.SettlesTo stamp o m a ↔ f.resolved stamp o m = a := by
  constructor
  · exact Setting.SettlesTo.eq_resolve
  · rintro rfl
    exact settlesTo_resolved

/-- A field looks at one entry of the metadata. -/
theorem resolved_congr (h : Metadata.entry? m f.name = Metadata.entry? n f.name) :
    f.resolved stamp o m = f.resolved stamp o n := by
  rw [resolved, resolved, (f.setting o).resolve_congr o.forwardMetadata (f.usual stamp) h]

/-- A field that is set looks at nothing. -/
theorem resolved_of_value {a : f.Carrier} (h : f.setting o = .value a) :
    f.resolved stamp o m = a := by
  rw [resolved, h]
  rfl

end HeaderField

/-- A format has the number that it was found under. -/
theorem RecordFormat.number_of_ofNumber? {n : UInt8} {f : RecordFormat}
    (h : ofNumber? n = some f) : f.number = n := by
  unfold ofNumber? at h
  split at h
  · obtain rfl := Option.some.inj h
    simp [number]
  · cases h

namespace Header

variable {stamp : Stamp} {o : Options} {metadata : Option Metadata} {extra : Nat} {h : Header}

/-- The version that is asked for. -/
def versionFor (stamp : Stamp) (o : Options) (metadata : Option Metadata) : Version :=
  ⟨o.majorVersion, HeaderField.minorVersion.resolved stamp o metadata⟩

/-- A record kind is granted to a version that can be written and a format that can be written and
is allowed in it, if the records are not too long. -/
theorem recordKind_eq_ok_iff {version : Version} {formatNumber : UInt8} {format : RecordFormat}
    {recordLength : Nat} :
    recordKind version formatNumber extra = .ok (format, recordLength) ↔
      version.isSupported = true ∧ RecordFormat.ofNumber? formatNumber = some format ∧
        format.isSupported = true ∧ version.allows format = true ∧
        recordLength = format.length + extra ∧ recordLength ≤ maxRecordLength := by
  constructor
  · intro hkind
    unfold recordKind at hkind
    split at hkind
    · cases hkind
    · next hversion =>
      split at hkind
      · cases hkind
      · next f hwritable =>
        split at hkind
        · cases hkind
        · next hallows =>
          split at hkind
          · cases hkind
          · next hlong =>
            obtain ⟨rfl, rfl⟩ := Prod.mk.inj (Except.ok.inj hkind)
            obtain ⟨hnumber, hformat⟩ := Option.filter_eq_some_iff.mp hwritable
            exact ⟨by simpa using hversion, hnumber, hformat, by simpa using hallows, rfl,
              Nat.not_lt.mp hlong⟩
  · rintro ⟨hversion, hnumber, hformat, hallows, rfl, hle⟩
    have hwritable : RecordFormat.writable? formatNumber = some format :=
      Option.filter_eq_some_iff.mpr ⟨hnumber, hformat⟩
    simp [recordKind, hversion, hwritable, hallows, Nat.not_lt.mpr hle]

/-- A header is settled by its version and its format, and then by the fields that cannot be
refused. -/
theorem resolve_value :
    (resolve stamp o metadata extra).value =
      (recordKind (versionFor stamp o metadata) (HeaderField.format.resolved stamp o metadata)
        extra).map fun kind =>
          (describe stamp o metadata (versionFor stamp o metadata) kind.1 kind.2).value := by
  have hminor : HeaderField.minorVersion.resolved stamp o metadata =
      (o.minorVersion.resolve "minor_version" o.forwardMetadata metadata 2).value := rfl
  have hformat : HeaderField.format.resolved stamp o metadata =
      (o.format.resolve "format" o.forwardMetadata metadata 3).value := rfl
  simp only [resolve, versionFor, hminor, hformat, Logged.value_bind]
  cases recordKind _ (o.format.resolve "format" o.forwardMetadata metadata 3).value extra with
  | error e => rfl
  | ok kind => rfl

/-- Every field of a settled header has what it is resolved to. -/
theorem valueIn_of_resolve (hok : (resolve stamp o metadata extra).value = .ok h)
    (f : HeaderField) : f.valueIn h = f.resolved stamp o metadata := by
  rw [resolve_value, Except.map_eq_ok_iff] at hok
  obtain ⟨⟨format, recordLength⟩, hkind, rfl⟩ := hok
  cases f with
  | format =>
    obtain ⟨-, hnumber, -⟩ := recordKind_eq_ok_iff.mp hkind
    exact RecordFormat.number_of_ofNumber? hnumber
  | _ => rfl

/-- Metadata that agree on the version and the format are refused alike. -/
theorem error_congr {other : Option Metadata}
    (hminor : Metadata.entry? metadata "minor_version" = Metadata.entry? other "minor_version")
    (hformat : Metadata.entry? metadata "format" = Metadata.entry? other "format") {e : Error} :
    (resolve stamp o metadata extra).value = .error e ↔
      (resolve stamp o other extra).value = .error e := by
  have hversion : versionFor stamp o metadata = versionFor stamp o other := by
    rw [versionFor, versionFor, HeaderField.minorVersion.resolved_congr hminor]
  rw [resolve_value, resolve_value, hversion, HeaderField.format.resolved_congr hformat]
  cases recordKind (versionFor stamp o other) (HeaderField.format.resolved stamp o other)
    extra <;> simp [Except.map]

/-- A settled header has a major version of one. -/
theorem major_of_resolve (hok : (resolve stamp o metadata extra).value = .ok h) :
    h.version.major = 1 := by
  rw [resolve_value, Except.map_eq_ok_iff] at hok
  obtain ⟨⟨format, recordLength⟩, hkind, rfl⟩ := hok
  obtain ⟨hsupported, -⟩ := recordKind_eq_ok_iff.mp hkind
  simp only [Version.isSupported, Bool.and_eq_true, beq_iff_eq] at hsupported
  exact hsupported.1

/-- **Every field of a settled header is by the rule.**  So it looks at the metadata only under its
own name, and only if it is not set; and only the version and the format decide whether there is a
header.  What stands in a file of a version without a field is zero. -/
theorem settled (stamp : Stamp) (o : Options) (metadata : Option Metadata) (extra : Nat) :
    (∀ h, (resolve stamp o metadata extra).value = .ok h →
      (∀ f : HeaderField, f.SettlesTo stamp o metadata (f.valueIn h)) ∧
      ∀ scalings s c b, h.block scalings s c = .ok b →
        b.fileSourceId = (if h.version.minor < 1 then 0 else h.fileSourceId) ∧
        b.globalEncoding = (if h.version.minor < 2 then 0 else h.globalEncoding)) ∧
    (∀ other h k, (resolve stamp o metadata extra).value = .ok h →
      (resolve stamp o other extra).value = .ok k →
      ∀ f : HeaderField, Metadata.entry? metadata f.name = Metadata.entry? other f.name →
        f.valueIn h = f.valueIn k) ∧
    (∀ (f : HeaderField) a, f.setting o = .value a → ∀ other all h,
      (resolve stamp { o with forwardMetadata := all } other extra).value = .ok h →
      f.valueIn h = a) ∧
    ∀ other,
      Metadata.entry? metadata "minor_version" = Metadata.entry? other "minor_version" →
      Metadata.entry? metadata "format" = Metadata.entry? other "format" →
      ∀ e, (resolve stamp o metadata extra).value = .error e ↔
        (resolve stamp o other extra).value = .error e := by
  refine ⟨?_, ?_, ?_, ?_⟩
  · intro h hok
    refine ⟨fun f => HeaderField.settlesTo_iff.mpr (valueIn_of_resolve hok f).symm, ?_⟩
    intro scalings s c b hb
    have hmade := madeFrom_of_block hb
    have hhas : ∀ c : Capability, h.version.has c = !decide (h.version.minor < c.since) := by
      intro c
      simp [Version.has, major_of_resolve hok, ← UInt8.not_lt]
    rw [hmade.fileSourceId, hmade.globalEncoding, hhas, hhas]
    constructor
    · by_cases hminor : h.version.minor < 1 <;> simp [Capability.since, hminor]
    · by_cases hminor : h.version.minor < 2 <;> simp [Capability.since, hminor]
  · intro other h k hh hk f hentry
    rw [valueIn_of_resolve hh, valueIn_of_resolve hk, HeaderField.resolved_congr hentry]
  · intro f a hset other all h hok
    have hset' : f.setting { o with forwardMetadata := all } = .value a := by
      cases f <;> exact hset
    rw [valueIn_of_resolve hok, HeaderField.resolved_of_value hset']
  · intro other hminor hformat e
    exact error_congr hminor hformat

end Header

/-- Metadata that have a version, a format and a system, and a source identifier that is none. -/
def Metadata.patchy : Metadata :=
  ⟨[("minor_version", " 4"), ("format", "0"), ("system_id", "scanner"), ("filesource_id", "first")],
    []⟩

/-- Options that forward everything but the format. -/
def Options.forwarding : Options :=
  { Options.usual with format := .value 1, forwardMetadata := true }

namespace Header

/-- The format stays the one that is set, the version and the system are forwarded, and a source
identifier that cannot be read is left at zero. -/
theorem settled_forwarding :
    ∃ h, (resolve .blank .forwarding (some .patchy) 6).value = .ok h ∧
      h.format.number = 1 ∧ h.version.minor = 4 ∧ h.systemIdentifier = "scanner" ∧
      h.fileSourceId = 0 := by
  have hfacts : (resolve .blank .forwarding (some .patchy) 6).value.toOption.isSome = true := by
    decide +kernel
  obtain ⟨h, hh⟩ := Option.isSome_iff_exists.mp hfacts
  have hok : (resolve .blank .forwarding (some .patchy) 6).value = .ok h := by
    cases hvalue : (resolve .blank .forwarding (some .patchy) 6).value with
    | error e => simp [hvalue, Except.toOption] at hh
    | ok k => simpa [hvalue, Except.toOption] using hh
  obtain ⟨hsettled, -, hset, -⟩ := settled .blank .forwarding (some .patchy) 6
  obtain ⟨hfields, -⟩ := hsettled h hok
  let o := Options.forwarding
  let metadata := some Metadata.patchy
  have hminor : (o.minorVersion.resolve "minor_version" true metadata 2).value = 4 := by
    decide +kernel
  have hsystem : (o.systemId.resolve "system_id" true metadata usualSystem).value = "scanner" := by
    decide +kernel
  have hsource : (o.fileSourceId.resolve "filesource_id" true metadata 0).value = 0 := by
    decide +kernel
  refine ⟨h, hok, hset .format (1 : UInt8) rfl (some .patchy) true h hok, ?_, ?_, ?_⟩
  · exact (HeaderField.settlesTo_iff.mp (hfields .minorVersion)).symm.trans hminor
  · exact (HeaderField.settlesTo_iff.mp (hfields .systemId)).symm.trans hsystem
  · exact (HeaderField.settlesTo_iff.mp (hfields .fileSourceId)).symm.trans hsource

end Header

end PointCloud
