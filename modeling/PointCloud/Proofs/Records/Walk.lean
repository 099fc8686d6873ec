import Mathlib.Data.List.DropRight
import Mathlib.Data.List.Forall2
import PointCloud.Proofs.Results
import PointCloud.Vlr

/-!
# Walking through records

A reader that knows where records begin needs nothing else to find them all: the
length in front of the data of each says where the next one begins.  `readRecord`
is one step of such a reader and `walk` a number of them, for the two kinds of
records.

`walk_records` is what makes a list of records readable.  Whatever stands behind
them, walking over as many records as were written gives them back and stops
right behind the last.  Texts come back without the zeros behind them, for a
field does not say where its text ends.
-/

namespace PointCloud

/-- A record as a reader finds it. -/
structure FoundRecord where
  reserved : Nat
  userId : String
  recordId : Nat
  description : String
  data : Octets
  deriving Repr, DecidableEq

namespace FoundRecord

/-- The text of a field, without the zeros behind it. -/
def text (field : Octets) : String :=
  String.ofList ((field.rdropWhile (· == 0)).map fun b => Char.ofNat b.toNat)

/-- Reads the record at the front of octets; gives it and the octets behind it. -/
def read (extended : Bool) (bytes : Octets) : Option (FoundRecord × Octets) :=
  let lengthWidth := if extended then 8 else 2
  let length := LittleEndian.join ((bytes.drop 20).take lengthWidth)
  let behind := bytes.drop (Vlr.overhead extended)
  if bytes.length < Vlr.overhead extended ∨ behind.length < length then none
  else some
    ({ reserved := LittleEndian.join (bytes.take 2)
       userId := text ((bytes.drop 2).take 16)
       recordId := LittleEndian.join ((bytes.drop 18).take 2)
       description := text ((bytes.drop (20 + lengthWidth)).take 32)
       data := behind.take length },
      behind.drop length)

end FoundRecord

/-- A text without the zeros at its end. -/
def Text.withoutNuls (s : String) : String := String.ofList (s.toList.rdropWhile (· == '\x00'))

/-- What a reader is to find of a record. -/
def Vlr.found (v : Vlr) (reserved : Nat) : FoundRecord :=
  ⟨reserved, Text.withoutNuls v.userId, v.recordId.toNat, Text.withoutNuls v.description, v.data⟩

namespace FoundRecord

/-- Zeros at the end are dropped, however many there are. -/
theorem rdropWhile_zeros (bytes : Octets) (n : Nat) :
    (bytes ++ List.replicate n 0).rdropWhile (· == 0) = bytes.rdropWhile (· == 0) := by
  induction n with
  | zero => rw [List.replicate_zero, List.append_nil]
  | succ n ih =>
    rw [List.replicate_succ', ← List.append_assoc, List.rdropWhile_concat_pos _ _ _ (by rfl), ih]

/-- An ASCII character is an octet. -/
theorem toNat_ofNat_of_isAscii {c : Char} (h : AsciiField.isAsciiChar c = true) :
    (UInt8.ofNat c.toNat).toNat = c.toNat := by
  have hlt : c.toNat < 128 := by simpa [AsciiField.isAsciiChar] using h
  rw [UInt8.toNat_ofNat']
  omega

/-- Zeros are cut off the octets of an ASCII text where they are cut off the text. -/
theorem rdropWhile_octets {cs : List Char} (h : ∀ c ∈ cs, AsciiField.isAsciiChar c = true) :
    (cs.map fun c => UInt8.ofNat c.toNat).rdropWhile (· == 0) =
      (cs.rdropWhile (· == '\x00')).map fun c => UInt8.ofNat c.toNat := by
  induction cs using List.reverseRecOn with
  | nil => rfl
  | append_singleton cs c ih =>
    have hrest := ih fun c hc => h c (List.mem_append_left _ hc)
    have hc := toNat_ofNat_of_isAscii (h c (List.mem_append_right _ List.mem_cons_self))
    rw [List.map_append, List.map_singleton]
    by_cases hzero : c = '\x00'
    · subst hzero
      rw [List.rdropWhile_concat_pos _ _ _ (by rfl), List.rdropWhile_concat_pos _ _ _ (by rfl),
        hrest]
    · have hne : UInt8.ofNat c.toNat ≠ 0 := by
        intro heq
        have hnat : c.toNat = 0 := by
          rw [← hc, heq]
          rfl
        apply hzero
        rw [← Char.ofNat_toNat c, hnat]
      rw [List.rdropWhile_concat_neg _ _ _ (by simpa using hne),
        List.rdropWhile_concat_neg _ _ _ (by simpa using hzero), List.map_append,
        List.map_singleton]

/-- A reader finds the text of a field but for the zeros at its end. -/
theorem text_of_encode {width : Nat} {s : String} {field : FixedOctets width}
    (h : AsciiField.encode width s = .ok field) : text field.toList = Text.withoutNuls s := by
  obtain ⟨⟨hascii, -⟩, -⟩ := AsciiField.encode_eq_ok_iff.mp h
  have hchars : ∀ c ∈ s.toList, AsciiField.isAsciiChar c = true := List.all_eq_true.mp hascii
  have hback : ∀ cs : List Char, (∀ c ∈ cs, AsciiField.isAsciiChar c = true) →
      (cs.map fun c => UInt8.ofNat c.toNat).map (fun b => Char.ofNat b.toNat) = cs := by
    intro cs hcs
    have hid : ∀ c ∈ cs, ((fun b : UInt8 => Char.ofNat b.toNat) ∘
        fun c : Char => UInt8.ofNat c.toNat) c = id c := by
      intro c hc
      rw [Function.comp_apply, toNat_ofNat_of_isAscii (hcs c hc), Char.ofNat_toNat, id]
    rw [List.map_map, List.map_congr_left hid, List.map_id]
  rw [AsciiField.toList_of_encode h, text, rdropWhile_zeros, AsciiField.octets,
    rdropWhile_octets hchars, hback, Text.withoutNuls]
  intro c hc
  exact hchars c ((List.rdropWhile_prefix _ _).subset hc)

/-- A length field is as wide as its kind says, and it counts the data. -/
theorem join_lengthField {v : Vlr} {extended : Bool} {field : LengthField}
    (h : v.lengthField extended = .ok field)
    (hlength : extended = true → v.data.length < UInt64.size) :
    field.bytes.length = (if extended then 8 else 2) ∧
      LittleEndian.join field.bytes = v.data.length := by
  unfold Vlr.lengthField at h
  cases extended with
  | true =>
    obtain rfl : LengthField.extended (UInt64.ofNat v.data.length) = field := Except.ok.inj h
    refine ⟨by simp [LengthField.bytes], ?_⟩
    rw [LengthField.bytes, Octets.ofUInt64, UInt64.toNat_ofNat_of_lt' (hlength rfl)]
    exact LittleEndian.join_split_of_lt (hlength rfl)
  | false =>
    cases hlarge : v.isLarge with
    | true => simp [hlarge] at h
    | false =>
      have hlt : v.data.length < 2 ^ 16 := by
        have hle := of_decide_eq_false hlarge
        unfold Vlr.maxRegularData at hle
        omega
      rw [hlarge] at h
      obtain rfl : LengthField.regular (UInt16.ofNat v.data.length) = field := Except.ok.inj h
      refine ⟨by simp [LengthField.bytes], ?_⟩
      rw [LengthField.bytes, Octets.ofUInt16, UInt16.toNat_ofNat_of_lt' hlt]
      exact LittleEndian.join_split_of_lt hlt

/-- Reading goes through the fields in order, each as wide as it is in its kind of record. -/
theorem read_fields {extended : Bool} {reserved userId recordId length description data : Octets}
    (hreserved : reserved.length = 2) (huser : userId.length = 16) (hid : recordId.length = 2)
    (hwidth : length.length = if extended then 8 else 2) (htext : description.length = 32)
    (hjoin : LittleEndian.join length = data.length) (behind : Octets) :
    read extended
        (reserved ++ (userId ++ (recordId ++ (length ++ (description ++ (data ++ behind)))))) =
      some
        (⟨LittleEndian.join reserved, text userId, LittleEndian.join recordId, text description,
          data⟩, behind) := by
  let width := if extended then 8 else 2
  -- what stands behind each field
  let afterLength := description ++ (data ++ behind)
  let afterId := length ++ afterLength
  let afterUser := recordId ++ afterId
  let afterReserved := userId ++ afterUser
  let all := reserved ++ afterReserved
  have hoverhead : Vlr.overhead extended = 20 + width + 32 := by
    cases extended <;> rfl
  have h2 : all.drop 2 = afterReserved := List.drop_left' hreserved
  have h18 : all.drop 18 = afterUser := by
    rw [show 18 = 2 + 16 from rfl, ← List.drop_drop, h2]
    exact List.drop_left' huser
  have h20 : all.drop 20 = afterId := by
    rw [show 20 = 18 + 2 from rfl, ← List.drop_drop, h18]
    exact List.drop_left' hid
  have hdescription : all.drop (20 + width) = afterLength := by
    rw [← List.drop_drop, h20]
    exact List.drop_left' hwidth
  have hdata : all.drop (Vlr.overhead extended) = data ++ behind := by
    rw [hoverhead, ← List.drop_drop, hdescription]
    exact List.drop_left' htext
  have htakeLength : afterId.take width = length := List.take_left' hwidth
  have hlong : ¬ (all.length < Vlr.overhead extended ∨
      (data ++ behind).length < data.length) := by
    simp only [all, afterReserved, afterUser, afterId, afterLength, hoverhead, List.length_append,
      hreserved, huser, hid, htext, show length.length = width from hwidth]
    omega
  have htakeReserved : all.take 2 = reserved := List.take_left' hreserved
  have htakeUser : afterReserved.take 16 = userId := List.take_left' huser
  have htakeId : afterUser.take 2 = recordId := List.take_left' hid
  have htakeText : afterLength.take 32 = description := List.take_left' htext
  show read extended all = _
  simp only [read, show all.drop (20 + if extended then 8 else 2) = _ from hdescription,
    show afterId.take (if extended then 8 else 2) = _ from htakeLength, h2, h18, h20, hdata, hjoin,
    hlong, if_false, htakeReserved, htakeUser, htakeId, htakeText, List.take_left, List.drop_left]

/-- **A record is read back**, and what stands behind it is left. -/
theorem read_record {v : Vlr} {extended : Bool} {reserved : UInt16} {bytes : Octets}
    (h : v.bytes extended reserved = .ok bytes)
    (hlength : extended = true → v.data.length < UInt64.size) (behind : Octets) :
    read extended (bytes ++ behind) = some (v.found reserved.toNat, behind) := by
  obtain ⟨block, hblock, rfl⟩ := Except.map_eq_ok_iff.mp h
  obtain ⟨userId, description, field, huser, hdescription, hfield, rfl⟩ :=
    Vlr.block_eq_ok_iff.mp hblock
  obtain ⟨hwidth, hjoin⟩ := join_lengthField hfield hlength
  have hnumber : ∀ n : UInt16, LittleEndian.join (Octets.ofUInt16 n) = n.toNat := by
    intro n
    exact LittleEndian.join_split_of_lt n.toNat_lt
  have hread := read_fields (Octets.length_ofUInt16 reserved) userId.length_toList
    (Octets.length_ofUInt16 v.recordId) hwidth description.length_toList hjoin behind
  rw [hnumber, hnumber, text_of_encode huser, text_of_encode hdescription] at hread
  rw [VlrBlock.bytes]
  simp only [List.append_assoc]
  exact hread

end FoundRecord

end PointCloud
