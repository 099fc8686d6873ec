import PointCloud.Device

/-!
# Memory as a device

A block of memory holds octets and has a place at which the next one is stored.
Storing writes over what is there and makes the block longer where it has to;
a gap between its end and the place is filled with zeros.  A block may have a
capacity, in octets, beyond which nothing is stored; of what does not fit, the
front part still is.  Without a capacity nothing ever fails.
-/

namespace PointCloud

/-- Octets, the place of the next one, and the limit if there is one. -/
structure Memory where
  content : Octets
  place : Nat
  capacity : Option Nat
  deriving Repr, DecidableEq

namespace Memory

/-- Memory with the given content and place, and without a limit. -/
def unlimited (content : Octets) (place : Nat) : Memory := ⟨content, place, none⟩

/-- The content after octets have been stored at a place. -/
def overwrite (content : Octets) (place : Nat) (bytes : Octets) : Octets :=
  content.take place ++ List.replicate (place - content.length) 0 ++ bytes ++
    content.drop (place + bytes.length)

/-- The part of octets for which there is room. -/
def fitting (m : Memory) (bytes : Octets) : Octets :=
  match m.capacity with
  | some limit => bytes.take (limit - m.place)
  | none => bytes

/-- Stores octets as far as there is room. -/
def store (bytes : Octets) (m : Memory) : Except DeviceFault Unit × Memory :=
  let stored := m.fitting bytes
  let after :=
    if stored.isEmpty then m
    else { m with content := overwrite m.content m.place stored, place := m.place + stored.length }
  (if stored.length = bytes.length then .ok () else .error .full, after)

/-- Moves to a place. -/
def seek (place : Nat) (m : Memory) : Memory := { m with place := place }

instance : Device Memory where
  acquire m := (.ok (), m)
  notice _ := []
  position m := (.ok m.place, m)
  store := store
  seek place m := (.ok (), m.seek place)
  flush m := (.ok (), m)

end Memory

end PointCloud
