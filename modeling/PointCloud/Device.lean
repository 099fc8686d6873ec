import PointCloud.Bytes.LittleEndian
import PointCloud.Log

/-!
# Devices

Octets are written to a device: a block of memory, a file.  A device is its
state, of a type of its own, and six operations on that state.  Each of them may
fail, and each leaves the device in some state whether it fails or not; what
had been stored before a failure stays stored.

Nothing is assumed of a device in general.
-/

namespace PointCloud

/-- Why a device refused. -/
inductive DeviceFault where
  /-- no room for more octets -/
  | full
  /-- a folder on the way to a file does not exist -/
  | noSuchFile
  /-- a file stands where a folder is needed -/
  | notFolder
  /-- a folder stands where a file is needed -/
  | isFolder
  /-- a file name that is too long -/
  | nameTooLong
  /-- a file name with a zero octet in it -/
  | nulInName
  /-- any other fault, in the words of the device -/
  | other (words : String)
  deriving Repr, DecidableEq

/-- The words for a fault. -/
def DeviceFault.message : DeviceFault → String
  | .full => "stream is full"
  | .noSuchFile => "No such file or directory (os error 2)"
  | .notFolder => "Not a directory (os error 20)"
  | .isFolder => "Is a directory (os error 21)"
  | .nameTooLong => "File name too long (os error 36)"
  | .nulInName => "file name contained an unexpected NUL byte"
  | .other words => words

/-- The operations of a device whose states are of type `σ`. -/
class Device (σ : Type) where
  /-- makes the device ready for writing -/
  acquire : σ → Except DeviceFault Unit × σ
  /-- what is said before the device is made ready -/
  notice : σ → List LogEntry
  /-- the place of the next octet -/
  position : σ → Except DeviceFault Nat × σ
  /-- stores octets from the present place on -/
  store : Octets → σ → Except DeviceFault Unit × σ
  /-- moves to a place -/
  seek : Nat → σ → Except DeviceFault Unit × σ
  /-- makes sure that all octets have arrived -/
  flush : σ → Except DeviceFault Unit × σ

/-- Stores octets; where there are none the device is left alone. -/
def Device.storeSome {σ : Type} [Device σ] (bytes : Octets) (d : σ) :
    Except DeviceFault Unit × σ :=
  if bytes.isEmpty then (.ok (), d) else Device.store bytes d

end PointCloud
