import PointCloud.Bytes.AsciiField

/-!
# Variable length records

What a file says besides its header and its points is kept in variable length
records.  A record has an identifier, a description and data.  A regular record
stands between the header and the points and has at most 65535 octets of data,
for its length is a field of 16 bits; a longer one is extended, has a length of
64 bits, and stands behind the points.

`Vlr.bytes` is a record as it stands in a file, and `length_of_bytes` says how
long it is there.  `VlrList` keeps regular and extended records apart, each kind
in the order in which it was added.
-/

namespace PointCloud

/-- A variable length record. -/
structure Vlr where
  userId : String
  recordId : UInt16
  description : String
  data : Octets
  deriving Repr, DecidableEq

/-- The length field of a record: 16 bits in a regular one, 64 in an extended one. -/
inductive LengthField where
  | regular (length : UInt16)
  | extended (length : UInt64)
  deriving Repr, DecidableEq

namespace LengthField

/-- Whether the field belongs to an extended record. -/
def isExtended : LengthField → Bool
  | .regular _ => false
  | .extended _ => true

/-- The octets of the field. -/
def bytes : LengthField → Octets
  | .regular n => Octets.ofUInt16 n
  | .extended n => Octets.ofUInt64 n

end LengthField

/-- A record with its fields encoded. -/
structure VlrBlock where
  reserved : UInt16
  userId : FixedOctets 16
  recordId : UInt16
  length : LengthField
  description : FixedOctets 32
  data : Octets
  deriving Repr, DecidableEq

/-- The octets of a record in a file. -/
def VlrBlock.bytes (b : VlrBlock) : Octets :=
  Octets.ofUInt16 b.reserved ++ b.userId.toList ++ Octets.ofUInt16 b.recordId ++
    b.length.bytes ++ b.description.toList ++ b.data

namespace Vlr

/-- The most data of a regular record. -/
def maxRegularData : Nat := 65535

/-- The octets in front of the data. -/
def overhead (extended : Bool) : Nat := if extended then 60 else 54

/-- The octets of the record in a file. -/
def size (v : Vlr) (extended : Bool) : Nat := v.data.length + overhead extended

/-- Whether the record has too much data for a regular one. -/
def isLarge (v : Vlr) : Bool := maxRegularData < v.data.length

/-- The length field of a record. -/
def lengthField (v : Vlr) (extended : Bool) : Except Error LengthField :=
  if extended then .ok (.extended (UInt64.ofNat v.data.length))
  else if v.isLarge then .error (.recordTooLong v.data.length)
  else .ok (.regular (UInt16.ofNat v.data.length))

/-- The record with its fields encoded. -/
def block (v : Vlr) (extended : Bool) (reserved : UInt16) : Except Error VlrBlock := do
  let userId ← AsciiField.encode 16 v.userId
  let description ← AsciiField.encode 32 v.description
  let length ← v.lengthField extended
  return ⟨reserved, userId, v.recordId, length, description, v.data⟩

/-- The record as it stands in a file. -/
def bytes (v : Vlr) (extended : Bool) (reserved : UInt16) : Except Error Octets :=
  (v.block extended reserved).map VlrBlock.bytes

/-- A record that can be written has all its parts. -/
theorem block_eq_ok_iff {v : Vlr} {extended : Bool} {reserved : UInt16} {b : VlrBlock} :
    v.block extended reserved = .ok b ↔
      ∃ userId description length,
        AsciiField.encode 16 v.userId = .ok userId ∧
        AsciiField.encode 32 v.description = .ok description ∧
        v.lengthField extended = .ok length ∧
        b = ⟨reserved, userId, v.recordId, length, description, v.data⟩ := by
  unfold block
  cases AsciiField.encode 16 v.userId <;> cases AsciiField.encode 32 v.description <;>
    cases v.lengthField extended <;> simp [bind, Except.bind, pure, Except.pure, eq_comm]

/-- The octets of a record are those of its fields and its data. -/
theorem length_of_bytes {v : Vlr} {extended : Bool} {reserved : UInt16} {bytes : Octets}
    (h : v.bytes extended reserved = .ok bytes) : bytes.length = v.size extended := by
  obtain ⟨b, hb, rfl⟩ : ∃ b, v.block extended reserved = .ok b ∧ b.bytes = bytes := by
    unfold Vlr.bytes at h
    cases hb : v.block extended reserved with
    | error e => rw [hb] at h; exact absurd h (by simp [Except.map])
    | ok b => rw [hb] at h; exact ⟨b, rfl, by simpa [Except.map] using h⟩
  obtain ⟨userId, description, length, _, _, hlength, rfl⟩ := block_eq_ok_iff.mp hb
  have hwidth : length.bytes.length = if extended then 8 else 2 := by
    unfold lengthField at hlength
    cases extended with
    | true => simp at hlength; subst hlength; simp [LengthField.bytes]
    | false =>
      by_cases hlarge : v.isLarge = true
      · simp [hlarge] at hlength
      · simp [hlarge] at hlength; subst hlength; simp [LengthField.bytes]
  cases extended <;> simp [VlrBlock.bytes, size, overhead, hwidth] <;> omega

end Vlr

/-- Regular and extended records, each kind in order. -/
structure VlrList where
  regular : List Vlr
  extended : List Vlr
  deriving Repr, DecidableEq

namespace VlrList

/-- No record. -/
def empty : VlrList := ⟨[], []⟩

/-- Adds a record behind those of its kind. -/
def add (l : VlrList) (v : Vlr) : VlrList :=
  if v.isLarge then { l with extended := l.extended ++ [v] }
  else { l with regular := l.regular ++ [v] }

/-- Sorts records by their kind. -/
def ofList (vs : List Vlr) : VlrList := ⟨vs.filter (!·.isLarge), vs.filter (·.isLarge)⟩

/-- The octets of the regular records in a file. -/
def regularSize (l : VlrList) : Nat := (l.regular.map (·.size false)).foldr (· + ·) 0

end VlrList

end PointCloud
