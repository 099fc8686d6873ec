import PointCloud.Header.Block
import PointCloud.Proofs.Bytes.Reading

/-!
# Reading a header

`HeaderBlock.read` is the reader of a header: it knows the place of every field and
goes by the version it finds for the blocks that only some versions have.  It does
not know how a header is written.

What it finds in a header is the block that was written, less what the version
does not carry, and with zeros for what was not given, `HeaderBlock.carried`.  So a
block and its octets determine each other as far as its version carries it.
-/

namespace PointCloud

namespace HeaderBlock

open Octets

/-- The version that a reader finds. -/
def readVersion (bytes : Octets) : Version := ⟨bytes.uint8At 24, bytes.uint8At 25⟩

/-- The counts of points by return number. -/
def readPointsByReturn (bytes : Octets) : Vector UInt32 5 :=
  .ofFn fun i => bytes.uint32At (111 + 4 * i)

/-- The start of the waveform data, where a version has it. -/
def readWaveformStart (v : Version) (bytes : Octets) : Option UInt64 :=
  if v.has .waveforms then some (bytes.uint64At 227) else none

/-- The place and the number of the extended records, where a version has them. -/
def readExtendedRecords (v : Version) (bytes : Octets) : Option ExtendedRecords :=
  if v.has .extendedRecords then some ⟨bytes.uint64At 235, bytes.uint32At 243⟩ else none

/-- The counts in 64 bits, where a version has them. -/
def readLargeCounts (v : Version) (bytes : Octets) : Option LargeCounts :=
  if v.has .largeFiles then
    some ⟨bytes.uint64At 247, .ofFn fun i => bytes.uint64At (255 + 8 * i)⟩
  else none

/-- The block that a reader finds at the places of a header. -/
def read (bytes : Octets) : HeaderBlock where
  signature := bytes.fixedAt 4 0
  fileSourceId := bytes.uint16At 4
  globalEncoding := bytes.uint16At 6
  guid := bytes.fixedAt 16 8
  version := readVersion bytes
  systemIdentifier := bytes.fixedAt 32 26
  generatingSoftware := bytes.fixedAt 32 58
  creationDay := bytes.uint16At 90
  creationYear := bytes.uint16At 92
  headerSize := bytes.uint16At 94
  pointDataOffset := bytes.uint32At 96
  recordCount := bytes.uint32At 100
  pointFormat := bytes.uint8At 104
  pointLength := bytes.uint16At 105
  pointCount := bytes.uint32At 107
  pointsByReturn := readPointsByReturn bytes
  scale := ⟨bytes.doubleAt 131, bytes.doubleAt 139, bytes.doubleAt 147⟩
  offset := ⟨bytes.doubleAt 155, bytes.doubleAt 163, bytes.doubleAt 171⟩
  max := ⟨bytes.doubleAt 179, bytes.doubleAt 195, bytes.doubleAt 211⟩
  min := ⟨bytes.doubleAt 187, bytes.doubleAt 203, bytes.doubleAt 219⟩
  waveformStart := readWaveformStart (readVersion bytes) bytes
  extendedRecords := readExtendedRecords (readVersion bytes) bytes
  largeCounts := readLargeCounts (readVersion bytes) bytes

/-- The block as far as its version carries it, with zeros for what is not given. -/
def carried (b : HeaderBlock) : HeaderBlock :=
  { b with
    waveformStart := if b.version.has .waveforms then some (b.waveformStart.getD 0) else none
    extendedRecords :=
      if b.version.has .extendedRecords then some (b.extendedRecords.getD .none) else none
    largeCounts := if b.version.has .largeFiles then some (b.largeCounts.getD .zero) else none }

/-! ### The fields of every version -/

/-- A reader goes by the version that was written. -/
theorem readVersion_bytes (b : HeaderBlock) (rest : Octets) :
    readVersion (b.bytes ++ rest) = b.version := by
  have hmajor : uint8At (b.bytes ++ rest) 24 = b.version.major := by
    simp [bytes, commonBytes, identityBytes, uint8At, natAt_append]
  have hminor : uint8At (b.bytes ++ rest) 25 = b.version.minor := by
    simp [bytes, commonBytes, identityBytes, uint8At, natAt_append]
  rw [readVersion, hmajor, hminor]

/-- The counts of points by return are read back. -/
theorem readPointsByReturn_bytes (b : HeaderBlock) (rest : Octets) :
    readPointsByReturn (b.bytes ++ rest) = b.pointsByReturn := by
  let front := b.identityBytes ++ (ofUInt16 b.headerSize ++ (ofUInt32 b.pointDataOffset ++
    (ofUInt32 b.recordCount ++ (ofUInt8 b.pointFormat ++ (ofUInt16 b.pointLength ++
      ofUInt32 b.pointCount)))))
  have hfront : front.length = 111 := by simp [front, identityBytes]
  obtain ⟨behind, hsplit⟩ : ∃ behind, b.bytes ++ rest =
      front ++ (b.pointsByReturn.toList.flatMap ofUInt32 ++ behind) := by
    simp only [front, bytes, commonBytes, contentBytes, List.append_assoc]
    exact ⟨_, rfl⟩
  apply Vector.ext
  intro i hi
  have hlength : i < b.pointsByReturn.toList.length := by rwa [Vector.length_toList]
  have hcount : natAt (b.bytes ++ rest) (111 + 4 * i) 4 = b.pointsByReturn[i].toNat := by
    rw [hsplit, natAt_append_add hfront, natAt_flatMap length_ofUInt32 _ _ hlength,
      Vector.getElem_toList]
    exact LittleEndian.join_split_of_lt (UInt32.toNat_lt _)
  rw [readPointsByReturn, Vector.getElem_ofFn, uint32At, hcount, UInt32.ofNat_toNat]

/-! ### The blocks of the later versions -/

/-- Behind the fields that every version has stand the blocks. -/
theorem natAt_behind_common (b : HeaderBlock) (rest : Octets) (k width : Nat) :
    natAt (b.bytes ++ rest) (227 + k) width =
      natAt (b.waveformBytes ++ (b.extendedBytes ++ (b.largeBytes ++ rest))) k width := by
  rw [bytes, List.append_assoc, List.append_assoc, List.append_assoc,
    natAt_append_add b.length_commonBytes]

/-- The place of the waveforms is read back, if the version has it. -/
theorem readWaveformStart_bytes (b : HeaderBlock) (rest : Octets) :
    readWaveformStart b.version (b.bytes ++ rest) = b.carried.waveformStart := by
  rw [readWaveformStart, carried]
  by_cases h : b.version.has .waveforms = true
  · have hstart := b.natAt_behind_common rest 0 8
    rw [waveformBytes, if_pos h, natAt_ofUInt64] at hstart
    rw [if_pos h, if_pos h, uint64At, hstart, UInt64.ofNat_toNat]
  · rw [if_neg h, if_neg h]

/-- A version with extended records has the start of the waveform data in front of them. -/
theorem natAt_behind_waveform {b : HeaderBlock} (h : b.version.has .extendedRecords = true)
    (rest : Octets) (k width : Nat) :
    natAt (b.bytes ++ rest) (235 + k) width =
      natAt ((b.extendedRecords.getD .none).bytes ++ ((b.largeCounts.getD .zero).bytes ++ rest))
        k width := by
  have hwaveforms : b.version.has .waveforms = true := Version.has_of_since_le (by decide) h
  have hlarge : b.version.has .largeFiles = true := h
  have hplace : 235 + k = 227 + (8 + k) := by omega
  rw [hplace, natAt_behind_common, waveformBytes, if_pos hwaveforms, extendedBytes, if_pos h,
    largeBytes, if_pos hlarge, natAt_append_add (length_ofUInt64 _)]

/-- The place and the number of the extended records are read back, if the version has them. -/
theorem readExtendedRecords_bytes (b : HeaderBlock) (rest : Octets) :
    readExtendedRecords b.version (b.bytes ++ rest) = b.carried.extendedRecords := by
  rw [readExtendedRecords, carried]
  by_cases h : b.version.has .extendedRecords = true
  · have hstart := natAt_behind_waveform h rest 0 8
    have hcount := natAt_behind_waveform h rest (8 + 0) 4
    rw [ExtendedRecords.bytes, List.append_assoc, natAt_ofUInt64] at hstart
    rw [ExtendedRecords.bytes, List.append_assoc, natAt_append_add (length_ofUInt64 _),
      natAt_ofUInt32] at hcount
    rw [if_pos h, if_pos h, uint64At, uint32At, hstart, hcount, UInt64.ofNat_toNat,
      UInt32.ofNat_toNat]
  · rw [if_neg h, if_neg h]

/-- The counts of 64 bits are read back, if the version has them. -/
theorem readLargeCounts_bytes (b : HeaderBlock) (rest : Octets) :
    readLargeCounts b.version (b.bytes ++ rest) = b.carried.largeCounts := by
  rw [readLargeCounts, carried]
  by_cases h : b.version.has .largeFiles = true
  · let counts := b.largeCounts.getD .zero
    have hbehind : ∀ k width, natAt (b.bytes ++ rest) (247 + k) width =
        natAt (ofUInt64 counts.points ++ (counts.byReturn.toList.flatMap ofUInt64 ++ rest))
          k width := by
      intro k width
      have hplace : 247 + k = 235 + (12 + k) := by omega
      have hlength : (b.extendedRecords.getD .none).bytes.length = 12 := by
        simp [ExtendedRecords.bytes]
      rw [hplace, natAt_behind_waveform h, natAt_append_add hlength, LargeCounts.bytes,
        List.append_assoc]
    have hpoints : natAt (b.bytes ++ rest) 247 8 = counts.points.toNat := by
      rw [← Nat.add_zero 247, hbehind, natAt_ofUInt64]
    have hbyReturn : (Vector.ofFn fun i : Fin 15 =>
        uint64At (b.bytes ++ rest) (255 + 8 * i)) = counts.byReturn := by
      apply Vector.ext
      intro i hi
      have hlength : i < counts.byReturn.toList.length := by rwa [Vector.length_toList]
      have hplace : 255 + 8 * i = 247 + (8 + 8 * i) := by omega
      have hcount : natAt (b.bytes ++ rest) (255 + 8 * i) 8 = counts.byReturn[i].toNat := by
        rw [hplace, hbehind, natAt_append_add (length_ofUInt64 _),
          natAt_flatMap length_ofUInt64 _ _ hlength, Vector.getElem_toList]
        exact LittleEndian.join_split_of_lt (UInt64.toNat_lt _)
      rw [Vector.getElem_ofFn, uint64At, hcount, UInt64.ofNat_toNat]
    rw [if_pos h, if_pos h, uint64At, hpoints, hbyReturn, UInt64.ofNat_toNat]
  · rw [if_neg h, if_neg h]

/-! ### The whole header -/

attribute [ext] HeaderBlock

/-- A reader finds what was written, less what the version does not carry. -/
theorem read_bytes (b : HeaderBlock) (rest : Octets) : read (b.bytes ++ rest) = b.carried := by
  have hversion := b.readVersion_bytes rest
  apply HeaderBlock.ext
  case version => exact hversion
  case pointsByReturn => exact b.readPointsByReturn_bytes rest
  case waveformStart =>
    rw [read, hversion]
    exact b.readWaveformStart_bytes rest
  case extendedRecords =>
    rw [read, hversion]
    exact b.readExtendedRecords_bytes rest
  case largeCounts =>
    rw [read, hversion]
    exact b.readLargeCounts_bytes rest
  all_goals
    dsimp only [read, carried]
    simp [bytes, commonBytes, identityBytes, contentBytes, tripleBytes, boundsBytes,
      uint8At, uint16At, uint32At, doubleAt, uint64At, natAt_append, fixedAt_append,
      length_flatMap_ofUInt32, -List.length_flatMap]

/-- What is not carried is not written. -/
theorem bytes_carried (b : HeaderBlock) : b.carried.bytes = b.bytes := by
  have hcommon : b.carried.commonBytes = b.commonBytes := rfl
  have hwaveform : b.carried.waveformBytes = b.waveformBytes := by
    by_cases h : b.version.has .waveforms = true <;> simp [waveformBytes, carried, h]
  have hextended : b.carried.extendedBytes = b.extendedBytes := by
    by_cases h : b.version.has .extendedRecords = true <;> simp [extendedBytes, carried, h]
  have hlarge : b.carried.largeBytes = b.largeBytes := by
    by_cases h : b.version.has .largeFiles = true <;> simp [largeBytes, carried, h]
  rw [bytes, bytes, hcommon, hwaveform, hextended, hlarge]

/-- **Reading a header.**  A header is as long as its version says, whatever stands behind it a
reader finds the fields that the version carries, and two headers have the same octets exactly if
they agree on these. -/
theorem read_back (b : HeaderBlock) :
    b.bytes.length = b.version.headerSize ∧
      (∀ rest, read (b.bytes ++ rest) = b.carried) ∧
      ∀ c : HeaderBlock, c.bytes = b.bytes ↔ c.carried = b.carried := by
  refine ⟨b.length_bytes, b.read_bytes, fun c => ⟨?_, ?_⟩⟩
  · intro h
    have hread := congrArg (fun octets => read (octets ++ [])) h
    simpa only [read_bytes] using hread
  · intro h
    have hbytes := congrArg bytes h
    rwa [bytes_carried, bytes_carried] at hbytes

end HeaderBlock

end PointCloud
