import PointCloud.Error

/-!
# Tasks on a device

A `DeviceTask` is a sequence of operations on a device that ends at the first
error.  Whatever it did to the device before the error stays done.
-/

namespace PointCloud

/-- A task on a device with states of type `σ`. -/
abbrev DeviceTask (σ : Type) := ExceptT Error (StateM σ)

namespace DeviceTask

variable {σ α : Type}

/-- Carries a task out: the result, and the device afterwards. -/
def perform (task : DeviceTask σ α) (d : σ) : Except Error α × σ := (ExceptT.run task).run d

/-- An operation of the device as a task. -/
def operation (f : σ → Except DeviceFault α × σ) : DeviceTask σ α :=
  ExceptT.mk fun d =>
    match f d with
    | (.ok a, d) => (.ok a, d)
    | (.error fault, d) => (.error (.device fault), d)

/-- The task that only has a result. -/
def result (r : Except Error α) : DeviceTask σ α := ExceptT.mk (pure r)

@[simp] theorem perform_pure (a : α) (d : σ) :
    perform (pure a : DeviceTask σ α) d = (.ok a, d) := rfl

@[simp] theorem perform_result (r : Except Error α) (d : σ) :
    perform (result r) d = (r, d) := rfl

/-- A task after another one is carried out only if that one has succeeded. -/
theorem perform_bind {β : Type} (task : DeviceTask σ α) (next : α → DeviceTask σ β) (d : σ) :
    perform (task >>= next) d =
      match perform task d with
      | (.ok a, d) => perform (next a) d
      | (.error e, d) => (.error e, d) := by
  simp only [perform, ExceptT.run, StateT.run, bind, ExceptT.bind, ExceptT.mk, StateT.bind]
  cases h : task d with
  | mk r d' => cases r <;> rfl

/-- Stores pieces one after the other, up to the first that could not be made. -/
def storeAll [Device σ] : List (Except Error Octets) → DeviceTask σ Unit
  | [] => pure ()
  | piece :: rest => do
    let bytes ← result piece
    operation (Device.storeSome bytes)
    storeAll rest

end DeviceTask

end PointCloud
