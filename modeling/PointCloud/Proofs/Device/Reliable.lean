import PointCloud.Device.Folder
import PointCloud.Proofs.Device.Storing

/-!
# Reliable devices

Nothing is assumed of a device in general, and little can be said of a file on a
device that may refuse at any time.  A device is `Reliable` if none of its
operations fails once it has been acquired and if it then keeps octets as
memory without a limit does.  `memory` is that view of it.

`Follows` relates a task on such a device to the same task on its memory: both
have the same result, and the memory of the device afterwards is the memory
afterwards.  The relation goes through a sequence of operations, so whatever is
proved about a task on memory holds on every reliable device.  Memory without a
limit and a file whose path can be followed are the two instances.
-/

namespace PointCloud

/-- Devices whose operations never fail, and which keep what is stored. -/
class Device.Reliable (σ : Type) [Device σ] where
  /-- whether the device can be acquired -/
  Fresh : σ → Prop
  /-- whether the device has been acquired -/
  Open : σ → Prop
  /-- what the device holds and where it stands -/
  memory : σ → Memory
  capacity_of_fresh {d : σ} : Fresh d → (memory d).capacity = none
  capacity_of_open {d : σ} : Open d → (memory d).capacity = none
  acquire {d : σ} : Fresh d → (Device.acquire d).1 = .ok () ∧
    memory (Device.acquire d).2 = memory d ∧ Open (Device.acquire d).2
  position {d : σ} : Open d → (Device.position d).1 = .ok (memory d).place ∧
    memory (Device.position d).2 = memory d ∧ Open (Device.position d).2
  store {d : σ} (bytes : Octets) : Open d → (Device.store bytes d).1 = .ok () ∧
    memory (Device.store bytes d).2 = (memory d).put bytes ∧ Open (Device.store bytes d).2
  seek {d : σ} (place : Nat) : Open d → (Device.seek place d).1 = .ok () ∧
    memory (Device.seek place d).2 = (memory d).seek place ∧ Open (Device.seek place d).2
  flush {d : σ} : Open d → (Device.flush d).1 = .ok () ∧
    memory (Device.flush d).2 = memory d ∧ Open (Device.flush d).2

/-- Memory without a limit is its own view. -/
instance : Device.Reliable Memory where
  Fresh m := m.capacity = none
  Open m := m.capacity = none
  memory m := m
  capacity_of_fresh h := h
  capacity_of_open h := h
  acquire h := ⟨rfl, rfl, h⟩
  position h := ⟨rfl, rfl, h⟩
  store bytes h := by
    have hstore : Device.store bytes _ = _ := Memory.store_of_capacity h bytes
    rw [hstore]
    exact ⟨rfl, rfl, by simpa using h⟩
  seek _ h := ⟨rfl, rfl, h⟩
  flush h := ⟨rfl, rfl, h⟩

/-- Memory without a limit can be written to wherever it stands. -/
theorem Memory.fresh_unlimited (content : Octets) (place : Nat) :
    Device.Reliable.Fresh (Memory.unlimited content place) := rfl

namespace FileDevice

/-- The memory of a file; before it is created there is nothing in it. -/
def memory (d : FileDevice) : Memory :=
  match d.created with
  | some (_, m) => m
  | none => .unlimited [] 0

/-- Whether the file can be created. -/
def Fresh (d : FileDevice) : Prop := d.created = none ∧ ∃ name, d.folder.locate d.path = .ok name

/-- Whether the file has been created, on a disk without a limit. -/
def Open (d : FileDevice) : Prop := ∃ name m, d.created = some (name, m) ∧ m.capacity = none

theorem memory_of_created {d : FileDevice} {name : String} {m : Memory}
    (h : d.created = some (name, m)) : d.memory = m := by
  simp [memory, h]

/-- A file whose path can be followed is created empty, and then takes everything. -/
instance : Device.Reliable FileDevice where
  Fresh := Fresh
  Open := Open
  memory := memory
  capacity_of_fresh := by
    rintro d ⟨hnone, _⟩
    simp [memory, hnone, Memory.unlimited]
  capacity_of_open := by
    rintro d ⟨name, m, hcreated, hm⟩
    rw [memory_of_created hcreated, hm]
  acquire := by
    rintro d ⟨hnone, name, hname⟩
    have hacquire : Device.acquire d = acquire d := rfl
    rw [hacquire, acquire, hname]
    exact ⟨rfl, by simp [memory, hnone], name, _, rfl, rfl⟩
  position := by
    rintro d ⟨name, m, hcreated, hm⟩
    have hposition : Device.position d = (.ok m.place, d) := by
      show position d = _
      rw [position, hcreated]
    rw [hposition, memory_of_created hcreated]
    exact ⟨rfl, rfl, name, m, hcreated, hm⟩
  store bytes := by
    rintro ⟨name, m, hcreated, hm⟩
    rename_i d
    have hstore : Device.store bytes d = (.ok (), d.update name (m.put bytes)) := by
      show store bytes d = _
      rw [store, hcreated]
      simp only [Memory.store_of_capacity hm]
    rw [hstore, memory_of_created hcreated]
    exact ⟨rfl, rfl, name, _, rfl, by simpa using hm⟩
  seek place := by
    rintro ⟨name, m, hcreated, hm⟩
    rename_i d
    have hseek : Device.seek place d = (.ok (), d.update name (m.seek place)) := by
      show seek place d = _
      rw [seek, hcreated]
    rw [hseek, memory_of_created hcreated]
    exact ⟨rfl, rfl, name, _, rfl, hm⟩
  flush h := ⟨rfl, rfl, h⟩

end FileDevice

namespace DeviceTask

open Device.Reliable (Open memory capacity_of_open)

variable {σ α β : Type} [Device σ] [Device.Reliable σ]

/-- A task on a device comes to the same as a task on its memory. -/
def Follows (task : DeviceTask σ α) (other : DeviceTask Memory α) : Prop :=
  ∀ d, Open d → (task.perform d).1 = (other.perform (memory d)).1 ∧
    memory (task.perform d).2 = (other.perform (memory d)).2 ∧ Open (task.perform d).2

theorem follows_pure (a : α) : Follows (pure a : DeviceTask σ α) (pure a) :=
  fun _ h => ⟨rfl, rfl, h⟩

theorem follows_result (r : Except Error α) : Follows (result r : DeviceTask σ α) (result r) :=
  fun _ h => ⟨rfl, rfl, h⟩

/-- Tasks that come to the same may be followed by tasks that come to the same. -/
theorem Follows.bind {task : DeviceTask σ α} {other : DeviceTask Memory α}
    {next : α → DeviceTask σ β} {otherNext : α → DeviceTask Memory β}
    (h : Follows task other) (hnext : ∀ a, Follows (next a) (otherNext a)) :
    Follows (task >>= next) (other >>= otherNext) := by
  intro d hd
  obtain ⟨hresult, hmemory, hopen⟩ := h d hd
  rw [perform_bind, perform_bind]
  rcases htask : task.perform d with ⟨r, d'⟩
  rcases hother : other.perform (memory d) with ⟨r', m'⟩
  rw [htask, hother] at hresult hmemory
  rw [htask] at hopen
  subst hresult hmemory
  cases r with
  | error e => exact ⟨rfl, rfl, hopen⟩
  | ok a => exact hnext a d' hopen

/-- An operation comes to the same as one on memory if it has the same result and effect there. -/
theorem follows_operation {f : σ → Except DeviceFault α × σ}
    {g : Memory → Except DeviceFault α × Memory}
    (h : ∀ d, Open d → (f d).1 = (g (memory d)).1 ∧ memory (f d).2 = (g (memory d)).2 ∧
      Open (f d).2) : Follows (operation f) (operation g) := by
  intro d hd
  obtain ⟨hresult, hmemory, hopen⟩ := h d hd
  rcases hf : f d with ⟨r, d'⟩
  rcases hg : g (memory d) with ⟨r', m'⟩
  rw [hf, hg] at hresult hmemory
  rw [hf] at hopen
  subst hresult hmemory
  cases r <;>
    simpa [perform, operation, ExceptT.run, ExceptT.mk, StateT.run, hf, hg] using hopen

theorem follows_position :
    Follows (operation Device.position : DeviceTask σ Nat) (operation Device.position) :=
  follows_operation fun _ hd => Device.Reliable.position hd

theorem follows_seek (place : Nat) :
    Follows (operation (Device.seek place) : DeviceTask σ Unit) (operation (Device.seek place)) :=
  follows_operation fun _ hd => Device.Reliable.seek place hd

theorem follows_flush :
    Follows (operation Device.flush : DeviceTask σ Unit) (operation Device.flush) :=
  follows_operation fun _ hd => Device.Reliable.flush hd

/-- Octets that are stored are put into the memory. -/
theorem follows_store (bytes : Octets) :
    Follows (operation (Device.store bytes) : DeviceTask σ Unit)
      (operation (Device.store bytes)) := by
  apply follows_operation
  intro d hd
  have hstore : Device.store bytes (memory d) = (.ok (), (memory d).put bytes) :=
    Memory.store_of_capacity (capacity_of_open hd) bytes
  rw [hstore]
  exact Device.Reliable.store bytes hd

/-- Storing on a reliable device succeeds and puts the octets into its memory. -/
theorem storeSome_of_open {d : σ} (bytes : Octets) (hd : Open d) :
    (Device.storeSome bytes d).1 = .ok () ∧
      memory (Device.storeSome bytes d).2 = (memory d).put bytes ∧
      Open (Device.storeSome bytes d).2 := by
  cases bytes with
  | nil => exact ⟨rfl, rfl, hd⟩
  | cons b bs => exact Device.Reliable.store (b :: bs) hd

/-- Pieces are put into the memory, up to the first that has failed. -/
theorem follows_storeAll (pieces : List (Except Error Octets)) :
    Follows (storeAll pieces : DeviceTask σ Unit) (storeAll pieces) := by
  induction pieces with
  | nil => exact follows_pure ()
  | cons piece rest ih =>
    refine (follows_result piece).bind fun bytes => Follows.bind ?_ fun _ => ih
    apply follows_operation
    intro d hd
    rw [Memory.storeSome_of_capacity (capacity_of_open hd)]
    exact storeSome_of_open bytes hd

end DeviceTask

end PointCloud
