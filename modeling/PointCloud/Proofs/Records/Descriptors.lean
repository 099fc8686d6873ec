import PointCloud.Proofs.Records.Walk
import PointCloud.Proofs.Results
import PointCloud.ExtraBytes

/-!
# Descriptors of extra dimensions

What stands behind the fields of a point record can only be told from the
descriptors in the file.  A descriptor has 192 octets: a code for the type of
the values, a name, a description, and zeros everywhere else.  `Describes` says
what a reader finds in one, `record?_eq_ok` that there is one for every
dimension, in order, in a record of their own.
-/

namespace PointCloud

namespace Scalar

/-- The type that a code stands for. -/
def ofCode? (code : UInt8) : Option Scalar := all.find? (·.code == code)

@[simp] theorem ofCode?_code (t : Scalar) : ofCode? t.code = some t := by
  cases t <;> rfl

end Scalar

namespace Descriptor

/-- A description as it is shown: at most 32 characters, with a question mark for each that is not
ASCII. -/
def shown (description : String) : Octets :=
  (description.toList.map fun c => if c.toNat < 128 then UInt8.ofNat c.toNat else 0x3F).take 32

/-- A text in a field of 32 octets, with zeros behind it. -/
def padded (text : Octets) : Octets := text ++ List.replicate (32 - text.length) 0

/-- The octets are a descriptor that gives this type, name and description, and nothing else. -/
structure Describes (bytes : Octets) (scalar : Scalar) (name description : String) : Prop where
  length : bytes.length = 192
  type : bytes[2]?.bind Scalar.ofCode? = some scalar
  fits : AsciiField.Fits 32 name
  content : bytes = [0, 0, scalar.code, 0] ++ padded (AsciiField.octets name) ++
    List.replicate 124 0 ++ padded (shown description)

end Descriptor

open Descriptor (Describes padded shown)

/-- A field of 32 octets is the text with zeros behind it. -/
theorem AsciiField.toList_eq_padded {s : String} {field : FixedOctets 32}
    (h : encode 32 s = .ok field) : field.toList = padded (octets s) := by
  rw [toList_of_encode h, padded, length_octets]

namespace ExtraField

/-- The description is shown as ASCII, and cut. -/
theorem octets_shownDescription (f : ExtraField) :
    AsciiField.octets f.shownDescription = shown f.description := by
  rw [shownDescription, AsciiField.octets, String.toList_ofList, shown, ← List.map_take,
    List.map_map]
  apply List.map_congr_left
  intro c _
  by_cases h : c.toNat < 128
  · simp [AsciiField.isAsciiChar, h]
  · simp [AsciiField.isAsciiChar, h]

/-- A descriptor describes its dimension. -/
theorem describes_of_descriptor {f : ExtraField} {bytes : Octets} (h : f.descriptor = .ok bytes) :
    Describes bytes f.scalar f.name f.description := by
  have hlength := length_of_descriptor h
  obtain ⟨name, hname, h⟩ := Except.bind_eq_ok_iff.mp h
  obtain ⟨description, hdescription, h⟩ := Except.bind_eq_ok_iff.mp h
  obtain rfl := Except.pure_eq_ok_iff.mp h
  refine ⟨hlength, ?_, (AsciiField.encode_eq_ok_iff.mp hname).1, ?_⟩
  · show (some f.scalar.code).bind Scalar.ofCode? = _
    simp
  · rw [AsciiField.toList_eq_padded hname, AsciiField.toList_eq_padded hdescription,
      octets_shownDescription]
    rfl

end ExtraField

namespace ExtraBytes

/-- The record of the extra dimensions, with these descriptors. -/
def recordOf (descriptors : List Octets) : Vlr :=
  ⟨"LASF_Spec", 4, "Extra Bytes Record", descriptors.flatten⟩

/-- **The record of the extra dimensions has a descriptor for each of them**, in order. -/
theorem record?_eq_ok {extra : ExtraBytes} {record? : Option Vlr}
    (h : extra.record? = .ok record?) :
    ∃ descriptors,
      List.Forall₂ (fun f bytes => Describes bytes f.scalar f.name f.description) extra.fields
        descriptors ∧
      record? = if extra.fields = [] then none else some (recordOf descriptors) := by
  unfold ExtraBytes.record? at h
  by_cases hnone : extra.fields = []
  · rw [if_pos hnone] at h
    obtain rfl := Except.ok.inj h
    refine ⟨[], ?_, by simp [hnone]⟩
    rw [hnone]
    exact List.Forall₂.nil
  · rw [if_neg hnone, Except.bind_eq_ok_iff] at h
    obtain ⟨descriptors, hdescriptors, h⟩ := h
    obtain rfl := Except.pure_eq_ok_iff.mp h
    refine ⟨descriptors, ?_, by simp [hnone, recordOf]⟩
    exact (Except.mapM_eq_ok_iff.mp hdescriptors).imp fun _ _ => ExtraField.describes_of_descriptor

/-- The record of descriptors has 192 octets for each. -/
theorem length_recordOf {fields : List ExtraField} {descriptors : List Octets}
    (h : List.Forall₂ (fun (f : ExtraField) bytes => Describes bytes f.scalar f.name f.description)
      fields descriptors) : (recordOf descriptors).data.length = 192 * fields.length := by
  have hdata : (recordOf descriptors).data = descriptors.flatten := rfl
  rw [hdata]
  induction h with
  | nil => rfl
  | cons hfirst _ ih =>
    rw [List.flatten_cons, List.length_append, hfirst.length, ih rfl, List.length_cons]
    omega

/-- No more dimensions than octets. -/
theorem length_fields_le (extra : ExtraBytes) : extra.fields.length ≤ extra.length := by
  rcases extra with ⟨fields⟩
  induction fields with
  | nil => rfl
  | cons f fields ih =>
    have hwidth := f.scalar.width_pos
    have hlength : ExtraBytes.length ⟨f :: fields⟩ = f.scalar.width + ExtraBytes.length ⟨fields⟩ :=
      rfl
    rw [hlength, List.length_cons]
    simp only at ih
    omega

end ExtraBytes

end PointCloud
