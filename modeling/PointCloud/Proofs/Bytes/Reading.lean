import PointCloud.Bytes.Fixed
import PointCloud.Scalar

/-!
# Reading numbers at places

A reader of a file knows where a number stands and how many octets it takes.
`natAt` is the number there and `intAt` the same with a sign.  Octets in front of
the place are skipped by `natAt_append`, and at the place itself stands what was
written there, one lemma for each kind of number.

A field is read with its type: `uint8At` and its likes are fields of numbers,
`fixedAt` is one of octets.  `slice_flatMap` and `natAt_flatMap` are about writings
of one width that stand behind one another.
-/

namespace PointCloud

namespace Octets

/-- The number in some octets from a place on. -/
def natAt (bytes : Octets) (place width : Nat) : Nat :=
  LittleEndian.join ((bytes.drop place).take width)

/-- The number in some octets from a place on, in two's complement. -/
def intAt (bytes : Octets) (place width : Nat) : Int :=
  Scalar.twosComplement width (bytes.natAt place width)

variable {front piece : Octets} {place width : Nat}

/-- What stands in front of the place does not count. -/
theorem natAt_append (h : front.length ≤ place) (rest : Octets) :
    natAt (front ++ rest) place width = natAt rest (place - front.length) width := by
  rw [natAt, natAt, List.drop_append, List.drop_of_length_le h, List.nil_append]

/-- A place is counted from the end of what stands in front. -/
theorem natAt_append_add {n : Nat} (h : front.length = n) (rest : Octets) (k : Nat) :
    natAt (front ++ rest) (n + k) width = natAt rest k width := by
  rw [natAt_append (by omega), h, Nat.add_sub_cancel_left]

/-- Octets in front move the place of a number by their length. -/
theorem intAt_append (h : front.length ≤ place) (rest : Octets) :
    intAt (front ++ rest) place width = intAt rest (place - front.length) width := by
  rw [intAt, intAt, natAt_append h]

/-- What stands behind the number does not count. -/
theorem natAt_zero (h : piece.length = width) (rest : Octets) :
    natAt (piece ++ rest) 0 width = LittleEndian.join piece := by
  rw [natAt, List.drop_zero, List.take_left' h]

@[simp] theorem natAt_ofUInt8 (x : UInt8) (rest : Octets) :
    natAt (ofUInt8 x ++ rest) 0 1 = x.toNat := by
  rw [natAt_zero (length_ofUInt8 x)]
  simp [ofUInt8, LittleEndian.join]

@[simp] theorem natAt_ofUInt16 (x : UInt16) (rest : Octets) :
    natAt (ofUInt16 x ++ rest) 0 2 = x.toNat := by
  rw [natAt_zero (length_ofUInt16 x)]
  exact LittleEndian.join_split_of_lt x.toNat_lt

@[simp] theorem natAt_ofUInt32 (x : UInt32) (rest : Octets) :
    natAt (ofUInt32 x ++ rest) 0 4 = x.toNat := by
  rw [natAt_zero (length_ofUInt32 x)]
  exact LittleEndian.join_split_of_lt x.toNat_lt

@[simp] theorem natAt_ofUInt64 (x : UInt64) (rest : Octets) :
    natAt (ofUInt64 x ++ rest) 0 8 = x.toNat := by
  rw [natAt_zero (length_ofUInt64 x)]
  exact LittleEndian.join_split_of_lt x.toNat_lt

@[simp] theorem natAt_ofDouble (x : Double) (rest : Octets) :
    natAt (ofDouble x ++ rest) 0 8 = x.bits.toNat := natAt_ofUInt64 x.bits rest

@[simp] theorem intAt_ofInt8 (x : Int8) (rest : Octets) :
    intAt (ofInt8 x ++ rest) 0 1 = x.toInt := by
  have hread : natAt (ofInt8 x ++ rest) 0 1 = x.toUInt8.toNat := natAt_ofUInt8 x.toUInt8 rest
  rw [intAt, hread]
  exact (BitVec.toInt_eq_toNat_cond x.toBitVec).symm

@[simp] theorem intAt_ofInt32 (x : Int32) (rest : Octets) :
    intAt (ofInt32 x ++ rest) 0 4 = x.toInt := by
  have hread : natAt (ofInt32 x ++ rest) 0 4 = x.toUInt32.toNat := natAt_ofUInt32 x.toUInt32 rest
  rw [intAt, hread]
  exact (BitVec.toInt_eq_toNat_cond x.toBitVec).symm

/-! ### Typed fields -/

/-- The number in one octet. -/
def uint8At (bytes : Octets) (place : Nat) : UInt8 := UInt8.ofNat (bytes.natAt place 1)

/-- The number in two octets. -/
def uint16At (bytes : Octets) (place : Nat) : UInt16 := UInt16.ofNat (bytes.natAt place 2)

/-- The number in four octets. -/
def uint32At (bytes : Octets) (place : Nat) : UInt32 := UInt32.ofNat (bytes.natAt place 4)

/-- The number in eight octets. -/
def uint64At (bytes : Octets) (place : Nat) : UInt64 := UInt64.ofNat (bytes.natAt place 8)

/-- The double in eight octets. -/
def doubleAt (bytes : Octets) (place : Nat) : Double := ⟨bytes.uint64At place⟩

/-- The octets in a field of a known width. -/
def fixedAt (width : Nat) (bytes : Octets) (place : Nat) : FixedOctets width :=
  .ofList width (bytes.drop place)

/-- Octets in front move the place of a field by their length. -/
theorem fixedAt_append (h : front.length ≤ place) (rest : Octets) :
    fixedAt width (front ++ rest) place = fixedAt width rest (place - front.length) := by
  rw [fixedAt, fixedAt, List.drop_append, List.drop_of_length_le h, List.nil_append]

/-- A field is found where it stands. -/
@[simp] theorem fixedAt_toList (field : FixedOctets width) (rest : Octets) :
    fixedAt width (field.toList ++ rest) 0 = field := by
  rcases field with ⟨octets, hlength⟩
  simp [fixedAt, FixedOctets.ofList, List.take_left' hlength, hlength]

/-- Of writings of one width, each is found at a multiple of the width. -/
theorem slice_flatMap {α : Type} {write : α → Octets} {xs : List α} {i : Nat} {x : α}
    (hwidth : ∀ x ∈ xs, (write x).length = width) (h : xs[i]? = some x) (rest : Octets) :
    ((xs.flatMap write ++ rest).drop (i * width)).take width = write x := by
  induction xs generalizing i with
  | nil => cases h
  | cons y ys ih =>
    obtain ⟨hy, hys⟩ := List.forall_mem_cons.mp hwidth
    rw [List.flatMap_cons, List.append_assoc]
    cases i with
    | zero =>
      obtain rfl : y = x := Option.some.inj h
      rw [Nat.zero_mul, List.drop_zero, List.take_left' hy]
    | succ i =>
      have hplace : (i + 1) * width = (write y).length + i * width := by
        rw [hy, Nat.succ_mul, Nat.add_comm]
      rw [hplace, List.drop_length_add_append]
      exact ih hys h

/-- A number in writings of one width is found at a multiple of the width. -/
theorem natAt_flatMap {α : Type} {write : α → Octets} (hwidth : ∀ x, (write x).length = width)
    (xs : List α) (rest : Octets) {i : Nat} (h : i < xs.length) :
    natAt (xs.flatMap write ++ rest) (width * i) width = LittleEndian.join (write xs[i]) := by
  rw [natAt, Nat.mul_comm]
  have hslice := slice_flatMap (fun x _ => hwidth x) (List.getElem?_eq_getElem h) rest
  exact congrArg LittleEndian.join hslice

end Octets

end PointCloud
