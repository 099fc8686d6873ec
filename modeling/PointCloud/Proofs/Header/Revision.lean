import PointCloud.Header
import PointCloud.Options
import PointCloud.Proofs.Results

/-!
# Two headers of one file

A file gets a header when it is opened and another one when it is finished.  Both
are made of the same settled `Header`, so they differ only in what becomes known
in between.  `HeaderBlock.RevisedTo` says this of the fields of two blocks, and
`HeaderBlock.Revisable` lists the places where these fields stand.  The two are
told apart on purpose: that a field has kept its value and that the octets of all
other fields have kept their places are different things, and `RevisedTo.bytes`
is the way from the one to the other.

Octets are compared piece by piece.  `Octets.DifferAt` is about two pieces that
begin at the same place and are of equal length, so it goes through `++`.
-/

namespace PointCloud

/-- Two pieces that begin at a place are of equal length and differ nowhere but at places of a
kind. -/
structure Octets.DifferAt (kind : Nat → Prop) (start : Nat) (xs ys : Octets) : Prop where
  length : xs.length = ys.length
  places : ∀ i, xs[i]? ≠ ys[i]? → kind (start + i)

namespace Octets.DifferAt

variable {kind : Nat → Prop} {start : Nat} {xs ys more others : Octets}

/-- The same octets do not differ. -/
theorem of_eq (h : ys = xs) : DifferAt kind start xs ys := by
  subst h
  exact ⟨rfl, fun i hne => absurd rfl hne⟩

/-- Octets may differ where every place is of the kind. -/
theorem of_all {n : Nat} (hxs : xs.length = n) (hys : ys.length = n)
    (h : ∀ i, start ≤ i → i < start + n → kind i) : DifferAt kind start xs ys := by
  refine ⟨hxs.trans hys.symm, ?_⟩
  intro i hne
  by_cases hi : i < n
  · exact h _ (Nat.le_add_right start i) (Nat.add_lt_add_left hi start)
  · have hx : xs[i]? = none := List.getElem?_eq_none (by omega)
    have hy : ys[i]? = none := List.getElem?_eq_none (by omega)
    exact absurd (hx.trans hy.symm) hne

/-- Pieces that stand behind one another are compared one by one. -/
theorem append {n : Nat} (hn : xs.length = n) (h : DifferAt kind start xs ys)
    (h' : DifferAt kind (start + n) more others) :
    DifferAt kind start (xs ++ more) (ys ++ others) := by
  have hys : ys.length = n := by rw [← h.length, hn]
  refine ⟨by rw [List.length_append, List.length_append, h.length, h'.length], ?_⟩
  intro i hne
  by_cases hi : i < n
  · rw [List.getElem?_append_left (by omega), List.getElem?_append_left (by omega)] at hne
    exact h.places i hne
  · rw [List.getElem?_append_right (by omega), List.getElem?_append_right (by omega), hn,
      hys] at hne
    have hplace := h'.places (i - n) hne
    have heq : start + n + (i - n) = start + i := by omega
    rwa [heq] at hplace

end Octets.DifferAt

/-- Of the supported versions only the last one has extended records. -/
theorem Version.eq_of_has_extendedRecords {v : Version} (hsupported : v.isSupported = true)
    (h : v.has .extendedRecords = true) : v = ⟨1, 4⟩ := by
  rcases v with ⟨major, minor⟩
  simp only [isSupported, has, Bool.and_eq_true, beq_iff_eq, decide_eq_true_eq] at hsupported h
  obtain ⟨rfl, hle⟩ := hsupported
  have heq : minor = 4 := UInt8.le_antisymm hle h.2
  rw [heq]

namespace HeaderBlock

/-- Where the offset of an axis stands in a header. -/
def offsetPlace : Axis → Nat
  | .x => 155
  | .y => 163
  | .z => 171

/-- The places in a header of a version whose octets are written anew when the file is finished,
given the choices of offsets. -/
inductive Revisable (choice : Triple OffsetChoice) (version : Version) : Nat → Prop
  | pointCount {i : Nat} (low : 107 ≤ i) (high : i < 111) : Revisable choice version i
  | pointsByReturn {i : Nat} (low : 111 ≤ i) (high : i < 131) : Revisable choice version i
  | offset {i : Nat} (axis : Axis) (automatic : choice.get axis = .automatic)
    (low : offsetPlace axis ≤ i) (high : i < offsetPlace axis + 8) : Revisable choice version i
  | bounds {i : Nat} (low : 179 ≤ i) (high : i < 227) : Revisable choice version i
  | extendedRecords {i : Nat} (last : version = ⟨1, 4⟩) (low : 235 ≤ i) (high : i < 247) :
    Revisable choice version i
  | largeCounts {i : Nat} (last : version = ⟨1, 4⟩) (low : 247 ≤ i) (high : i < 375) :
    Revisable choice version i

/-- A block has been revised to another one: all but these fields are the same, and an offset only
changes if it was to be chosen. -/
structure RevisedTo (choice : Triple OffsetChoice) (b last : HeaderBlock) : Prop where
  same : last = { b with
    pointCount := last.pointCount
    pointsByReturn := last.pointsByReturn
    offset := last.offset
    min := last.min
    max := last.max
    extendedRecords := last.extendedRecords
    largeCounts := last.largeCounts }
  offset : ∀ axis, choice.get axis ≠ .automatic → last.offset.get axis = b.offset.get axis

namespace RevisedTo

open Octets (DifferAt)

variable {choice : Triple OffsetChoice} {b last : HeaderBlock}

/-- A header is revised within its version. -/
theorem version (h : b.RevisedTo choice last) : last.version = b.version := by
  rw [h.same]

/-- What a header says of where the file comes from is not revised. -/
theorem identityBytes (h : b.RevisedTo choice last) :
    DifferAt (Revisable choice b.version) 0 b.identityBytes last.identityBytes := by
  apply DifferAt.of_eq
  rw [h.same]
  rfl

/-- Of what a header says of the contents, only the counts of points are revised. -/
theorem contentBytes (h : b.RevisedTo choice last) :
    DifferAt (Revisable choice b.version) 94 b.contentBytes last.contentBytes := by
  have hplaces : DifferAt (Revisable choice b.version) 94
      (Octets.ofUInt16 b.headerSize ++ Octets.ofUInt32 b.pointDataOffset ++
        Octets.ofUInt32 b.recordCount ++ Octets.ofUInt8 b.pointFormat ++
        Octets.ofUInt16 b.pointLength)
      (Octets.ofUInt16 last.headerSize ++ Octets.ofUInt32 last.pointDataOffset ++
        Octets.ofUInt32 last.recordCount ++ Octets.ofUInt8 last.pointFormat ++
        Octets.ofUInt16 last.pointLength) := by
    apply DifferAt.of_eq
    rw [h.same]
  have hcount : DifferAt (Revisable choice b.version) 107 (Octets.ofUInt32 b.pointCount)
      (Octets.ofUInt32 last.pointCount) :=
    .of_all (n := 4) (by simp) (by simp) fun i low high => .pointCount low high
  have hbyReturn : DifferAt (Revisable choice b.version) 111
      (b.pointsByReturn.toList.flatMap Octets.ofUInt32)
      (last.pointsByReturn.toList.flatMap Octets.ofUInt32) := by
    refine .of_all (n := 20) ?_ ?_ fun i low high => .pointsByReturn low high
    · rw [length_flatMap_ofUInt32, Vector.length_toList]
    · rw [length_flatMap_ofUInt32, Vector.length_toList]
  exact (hplaces.append (n := 13) (by simp) hcount).append (n := 17) (by simp) hbyReturn

/-- An offset that was not to be chosen has kept its octets. -/
theorem offsetBytes (h : b.RevisedTo choice last) :
    DifferAt (Revisable choice b.version) 155 (tripleBytes b.offset) (tripleBytes last.offset) := by
  have haxis : ∀ axis, DifferAt (Revisable choice b.version) (offsetPlace axis)
      (Octets.ofDouble (b.offset.get axis)) (Octets.ofDouble (last.offset.get axis)) := by
    intro axis
    by_cases hauto : choice.get axis = .automatic
    · exact .of_all (n := 8) (by simp) (by simp) fun i low high => .offset axis hauto low high
    · exact .of_eq (by rw [h.offset axis hauto])
  exact ((haxis .x).append (n := 8) (by simp) (haxis .y)).append (n := 16) (by simp) (haxis .z)

/-- Of what all versions have in common, the bounds and the open offsets are revised too. -/
theorem commonBytes (h : b.RevisedTo choice last) :
    DifferAt (Revisable choice b.version) 0 b.commonBytes last.commonBytes := by
  have hscale : DifferAt (Revisable choice b.version) 131 (tripleBytes b.scale)
      (tripleBytes last.scale) := by
    apply DifferAt.of_eq
    rw [h.same]
  have hbounds : DifferAt (Revisable choice b.version) 179 b.boundsBytes last.boundsBytes :=
    .of_all (n := 48) (by simp [boundsBytes]) (by simp [boundsBytes])
      fun i low high => .bounds low high
  have hidentity : b.identityBytes.length = 94 := by simp [HeaderBlock.identityBytes]
  have hcontent : b.contentBytes.length = 37 := by
    simp [HeaderBlock.contentBytes, length_flatMap_ofUInt32, -List.length_flatMap]
  have htriple : ∀ t : Triple Double, (tripleBytes t).length = 24 := by simp [tripleBytes]
  exact (((h.identityBytes.append hidentity h.contentBytes).append (n := 131)
    (by simp [hidentity, hcontent]) hscale).append (n := 155)
    (by simp [hidentity, hcontent, htriple]) h.offsetBytes).append (n := 179)
    (by simp [hidentity, hcontent, htriple]) hbounds

/-- **Where two headers of one file may differ**, and that they are of equal length. -/
theorem bytes (h : b.RevisedTo choice last) (hsupported : b.version.isSupported = true) :
    DifferAt (Revisable choice b.version) 0 b.bytes last.bytes := by
  have hwaveform : last.waveformBytes = b.waveformBytes := by
    rw [h.same]
    rfl
  by_cases hextended : b.version.has .extendedRecords = true
  · have hlast := Version.eq_of_has_extendedRecords hsupported hextended
    have hlength : ∀ block : HeaderBlock, block.version = b.version →
        block.waveformBytes.length = 8 ∧ block.extendedBytes.length = 12 ∧
          block.largeBytes.length = 128 := by
      intro block hblock
      rw [hlast] at hblock
      simp [waveformBytes, extendedBytes, largeBytes, hblock, ExtendedRecords.bytes,
        LargeCounts.bytes, length_flatMap_ofUInt64, -List.length_flatMap, Version.has,
        Capability.since]
    obtain ⟨hwave, hrecords, hcounts⟩ := hlength b rfl
    obtain ⟨-, hrecords', hcounts'⟩ := hlength last h.version
    have hplaces : DifferAt (Revisable choice b.version) 235 b.extendedBytes last.extendedBytes :=
      .of_all hrecords hrecords' fun i low high => .extendedRecords hlast low high
    have hlarge : DifferAt (Revisable choice b.version) 247 b.largeBytes last.largeBytes :=
      .of_all hcounts hcounts' fun i low high => .largeCounts hlast low high
    exact ((h.commonBytes.append (n := 227) (by simp) (.of_eq hwaveform)).append (n := 235)
      (by simp [hwave]) hplaces).append (n := 247) (by simp [hwave, hrecords]) hlarge
  · have hnone : ∀ block : HeaderBlock, block.version = b.version →
        block.extendedBytes = [] ∧ block.largeBytes = [] := by
      intro block hblock
      have hlarge : ¬ b.version.has .largeFiles = true := hextended
      rw [extendedBytes, largeBytes, hblock, if_neg hextended, if_neg hlarge]
      exact ⟨rfl, rfl⟩
    obtain ⟨hrecords, hcounts⟩ := hnone b rfl
    obtain ⟨hrecords', hcounts'⟩ := hnone last h.version
    rw [HeaderBlock.bytes, HeaderBlock.bytes, hrecords, hcounts, hrecords', hcounts',
      List.append_nil, List.append_nil, List.append_nil, List.append_nil]
    exact h.commonBytes.append (n := 227) (by simp) (.of_eq hwaveform)

end RevisedTo

end HeaderBlock

/-- **Two blocks of one header**: if both give the same place to the points and the same number of
records, and the scalings differ in chosen offsets only, the one has been revised to the other. -/
theorem Header.revisedTo_of_block {h : Header} {scalings scalings' : Triple Scaling}
    {s s' : Summary} {c c' : Contents} {b last : HeaderBlock} {choice : Triple OffsetChoice}
    (hb : h.block scalings s c = .ok b) (hlast : h.block scalings' s' c' = .ok last)
    (hplace : c'.pointDataOffset = c.pointDataOffset) (hcount : c'.recordCount = c.recordCount)
    (hscale : ∀ axis, (scalings'.get axis).scale = (scalings.get axis).scale)
    (hoffset : ∀ axis, choice.get axis ≠ .automatic →
      (scalings'.get axis).offset = (scalings.get axis).offset) : b.RevisedTo choice last := by
  obtain ⟨count, -, hb⟩ := Except.bind_eq_ok_iff.mp hb
  obtain ⟨system, hsystem, hb⟩ := Except.bind_eq_ok_iff.mp hb
  obtain ⟨software, hsoftware, hb⟩ := Except.bind_eq_ok_iff.mp hb
  obtain ⟨place, hfirst, hb⟩ := Except.bind_eq_ok_iff.mp hb
  obtain ⟨count', -, hlast⟩ := Except.bind_eq_ok_iff.mp hlast
  obtain ⟨system', hsystem', hlast⟩ := Except.bind_eq_ok_iff.mp hlast
  obtain ⟨software', hsoftware', hlast⟩ := Except.bind_eq_ok_iff.mp hlast
  obtain ⟨place', hsecond, hlast⟩ := Except.bind_eq_ok_iff.mp hlast
  obtain rfl : system = system' := Except.ok.inj (hsystem.symm.trans hsystem')
  obtain rfl : software = software' := Except.ok.inj (hsoftware.symm.trans hsoftware')
  rw [hplace] at hsecond
  obtain rfl : place = place' := Except.ok.inj (hfirst.symm.trans hsecond)
  have hscales : scalings'.map Scaling.scale = scalings.map Scaling.scale := by
    apply Triple.ext_get
    intro axis
    rw [Triple.get_map, Triple.get_map, hscale axis]
  rw [← Except.pure_eq_ok_iff.mp hb, ← Except.pure_eq_ok_iff.mp hlast]
  constructor
  · simp only [hscales, hcount]
  · intro axis hauto
    rw [Triple.get_map, Triple.get_map, hoffset axis hauto]

end PointCloud
