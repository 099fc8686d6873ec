import PointCloud.Bytes.Fixed
import PointCloud.Error

/-!
# Text in fields of fixed width

Identifiers and descriptions are stored in fields of a fixed width, in ASCII,
with zero octets behind the text.  A text with any other character is refused
before its length is looked at.  `encode_eq_ok_iff` says which texts fit and
what is stored.
-/

namespace PointCloud.AsciiField

/-- Whether a character is ASCII. -/
def isAsciiChar (c : Char) : Bool := c.toNat < 128

/-- Whether all characters of a text are ASCII. -/
def isAscii (s : String) : Bool := s.toList.all isAsciiChar

/-- The octets of an ASCII text. -/
def octets (s : String) : Octets := s.toList.map fun c => UInt8.ofNat c.toNat

/-- The content of a field of the given width. -/
def encode (width : Nat) (s : String) : Except Error (FixedOctets width) :=
  if isAscii s = false then .error (.notAscii s)
  else if width < s.length then .error (.textTooLong s width)
  else .ok (.ofList width (octets s))

/-- A text fits if it is ASCII and not too long. -/
def Fits (width : Nat) (s : String) : Prop := isAscii s = true ∧ s.length ≤ width

instance (width : Nat) (s : String) : Decidable (Fits width s) :=
  inferInstanceAs (Decidable (_ ∧ _))

@[simp] theorem length_octets (s : String) : (octets s).length = s.length := by
  simp [octets, String.length_toList]

/-- A text that fits is put into its field, and no other. -/
theorem encode_eq_ok_iff {width : Nat} {s : String} {field : FixedOctets width} :
    encode width s = .ok field ↔ Fits width s ∧ field = .ofList width (octets s) := by
  unfold encode Fits
  cases ha : isAscii s with
  | false => simp
  | true =>
    by_cases hl : width < s.length
    · simp [hl, Nat.not_le.mpr hl]
    · simp [hl, Nat.not_lt.mp hl, eq_comm]

/-- A field holds its text and zeros behind it. -/
theorem toList_of_encode {width : Nat} {s : String} {field : FixedOctets width}
    (h : encode width s = .ok field) :
    field.toList = octets s ++ List.replicate (width - s.length) 0 := by
  obtain ⟨hfits, rfl⟩ := encode_eq_ok_iff.mp h
  rw [FixedOctets.toList_ofList (by simpa using hfits.2), length_octets]

end PointCloud.AsciiField
