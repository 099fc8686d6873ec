import PointCloud.Double

/-!
# Little-endian numbers

Every number in a point cloud file is stored in a fixed number of octets, the
least significant one first.  All of them are built from one function on the
naturals, `LittleEndian.split`, and `LittleEndian.join` is the reader beside
it.  The main statements are `length_split` (a number takes exactly its width),
`join_split` (reading gives the number back, less what did not fit) and
`split_join` (any octets are the writing of what they read as), so fields of a
known width can be cut out of a record and recovered.
-/

namespace PointCloud

/-- Octets in file order. -/
abbrev Octets := List UInt8

namespace LittleEndian

/-- The `width` lowest octets of `n`, least significant first. -/
def split : Nat → Nat → Octets
  | 0, _ => []
  | width + 1, n => UInt8.ofNat n :: split width (n / 256)

/-- How many numbers have a writing of `width` octets: 256 for each of them. -/
def limit : Nat → Nat
  | 0 => 1
  | width + 1 => 256 * limit width

/-- The number that octets stand for, least significant first. -/
def join : Octets → Nat
  | [] => 0
  | b :: rest => b.toNat + 256 * join rest

@[simp] theorem length_split (width n : Nat) : (split width n).length = width := by
  induction width generalizing n with
  | zero => rfl
  | succ width ih => simp [split, ih]

theorem limit_pos (width : Nat) : 0 < limit width := by
  induction width with
  | zero => decide
  | succ width ih => rw [limit]; omega

/-- Reading what was written gives the number back, less what did not fit. -/
theorem join_split (width n : Nat) : join (split width n) = n % limit width := by
  induction width generalizing n with
  | zero => simp [split, join, limit, Nat.mod_one]
  | succ width ih =>
    rw [split, join, ih, limit, Nat.mod_mul]
    simp [UInt8.toNat_ofNat']

/-- A number below the limit of its octets comes back from them. -/
theorem join_split_of_lt {width n : Nat} (h : n < limit width) :
    join (split width n) = n := by
  rw [join_split, Nat.mod_eq_of_lt h]

/-- Octets are the writing of the number that they read as. -/
theorem split_join (bytes : Octets) : split bytes.length (join bytes) = bytes := by
  induction bytes with
  | nil => rfl
  | cons b rest ih =>
    have hb : b.toNat < 256 := b.toNat_lt
    have hdiv : (b.toNat + 256 * join rest) / 256 = join rest := by omega
    have hhead : UInt8.ofNat (b.toNat + 256 * join rest) = b := by
      apply UInt8.toNat_inj.mp
      rw [UInt8.toNat_ofNat']
      omega
    simp [split, join, hdiv, hhead, ih]

/-- Octets make a number below their limit. -/
theorem join_lt (bytes : Octets) : join bytes < limit bytes.length := by
  induction bytes with
  | nil => simp [join, limit]
  | cons b rest ih =>
    have hb : b.toNat < 256 := b.toNat_lt
    simp only [join, List.length_cons, limit]
    omega

end LittleEndian

namespace Octets

/-- One octet. -/
def ofUInt8 (x : UInt8) : Octets := [x]

/-- Two octets. -/
def ofUInt16 (x : UInt16) : Octets := LittleEndian.split 2 x.toNat

/-- Four octets. -/
def ofUInt32 (x : UInt32) : Octets := LittleEndian.split 4 x.toNat

/-- Eight octets. -/
def ofUInt64 (x : UInt64) : Octets := LittleEndian.split 8 x.toNat

/-- One octet in two's complement. -/
def ofInt8 (x : Int8) : Octets := [x.toUInt8]

/-- Four octets in two's complement. -/
def ofInt32 (x : Int32) : Octets := ofUInt32 x.toUInt32

/-- The eight octets of the binary64 pattern. -/
def ofDouble (x : Double) : Octets := ofUInt64 x.bits

@[simp] theorem length_ofUInt8 (x : UInt8) : (ofUInt8 x).length = 1 := by simp [ofUInt8]

@[simp] theorem length_ofUInt16 (x : UInt16) : (ofUInt16 x).length = 2 := by simp [ofUInt16]

@[simp] theorem length_ofUInt32 (x : UInt32) : (ofUInt32 x).length = 4 := by simp [ofUInt32]

@[simp] theorem length_ofUInt64 (x : UInt64) : (ofUInt64 x).length = 8 := by simp [ofUInt64]

@[simp] theorem length_ofInt8 (x : Int8) : (ofInt8 x).length = 1 := by simp [ofInt8]

@[simp] theorem length_ofInt32 (x : Int32) : (ofInt32 x).length = 4 := by simp [ofInt32]

@[simp] theorem length_ofDouble (x : Double) : (ofDouble x).length = 8 := by simp [ofDouble]

end Octets

end PointCloud
