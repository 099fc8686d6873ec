import PointCloud.Proofs.Device.Reliable
import PointCloud.Proofs.Device.Watched

/-!
# Requests replayed

On a reliable device every request is met, so the memory of the device is what
the requests make of the memory that it had.  `Memory.replay` works that out, and
`Watched.reliable` is the invariant that says so: a watched device is reliable in
a sense that keeps its memory equal to the replay.

What a list of requests leaves behind is a matter of `Memory.put`, so the file
that a writer leaves on a reliable device can be read off what it has asked for.
-/

namespace PointCloud

open Device.Reliable (Fresh Open memory)

namespace Memory

/-- The memory after a request that is met. -/
def meet (m : Memory) : DeviceRequest → Memory
  | .store bytes => m.put bytes
  | .seek place => m.seek place
  | .acquire | .position | .flush => m

/-- The memory after requests that are met, one after the other. -/
def replay (m : Memory) (rs : List DeviceRequest) : Memory := rs.foldl meet m

@[simp] theorem replay_append (m : Memory) (rs more : List DeviceRequest) :
    m.replay (rs ++ more) = (m.replay rs).replay more := by simp [replay]

/-- Storing pieces one after the other puts them behind one another. -/
theorem replay_storing (m : Memory) (pieces : List Octets) :
    m.replay (DeviceRequest.storing pieces) = m.put pieces.flatten := by
  induction pieces generalizing m with
  | nil => rfl
  | cons piece rest ih =>
    have hfirst : m.replay (DeviceRequest.storing [piece]) = m.put piece := by
      cases piece <;> rfl
    rw [DeviceRequest.storing_cons, replay_append, hfirst, ih, put_put, List.flatten_cons]

end Memory

/-- A device that holds the replay of its requests holds it after one more that is met. -/
theorem Watched.meets {σ : Type} [Device σ] [Device.Reliable σ] {m : Memory} {d : Watched σ}
    (request : DeviceRequest) {after : σ} (hmemory : memory after = (memory d.device).meet request)
    (hreplay : memory d.device = m.replay d.requests) :
    memory after = m.replay (d.requests ++ [request]) := by
  rw [hmemory, hreplay, Memory.replay_append]
  rfl

/-- A reliable device that is watched is reliable, and holds what its requests have made of the
memory that it had. -/
@[reducible] def Watched.reliable {σ : Type} [Device σ] [Device.Reliable σ] (m : Memory) :
    Device.Reliable (Watched σ) where
  Fresh d := Fresh d.device ∧ memory d.device = m.replay d.requests
  Open d := Open d.device ∧ memory d.device = m.replay d.requests
  memory d := memory d.device
  capacity_of_fresh h := Device.Reliable.capacity_of_fresh h.1
  capacity_of_open h := Device.Reliable.capacity_of_open h.1
  acquire := by
    rintro d ⟨hfresh, hreplay⟩
    obtain ⟨hok, hmemory, hopen⟩ := Device.Reliable.acquire hfresh
    exact ⟨hok, hmemory, hopen, meets .acquire hmemory hreplay⟩
  position := by
    rintro d ⟨hopen, hreplay⟩
    obtain ⟨hok, hmemory, hopen⟩ := Device.Reliable.position hopen
    exact ⟨hok, hmemory, hopen, meets .position hmemory hreplay⟩
  store bytes := by
    rintro ⟨hopen, hreplay⟩
    obtain ⟨hok, hmemory, hopen⟩ := Device.Reliable.store bytes hopen
    exact ⟨hok, hmemory, hopen, meets (.store bytes) hmemory hreplay⟩
  seek place := by
    rintro ⟨hopen, hreplay⟩
    obtain ⟨hok, hmemory, hopen⟩ := Device.Reliable.seek place hopen
    exact ⟨hok, hmemory, hopen, meets (.seek place) hmemory hreplay⟩
  flush := by
    rintro d ⟨hopen, hreplay⟩
    obtain ⟨hok, hmemory, hopen⟩ := Device.Reliable.flush hopen
    exact ⟨hok, hmemory, hopen, meets .flush hmemory hreplay⟩

end PointCloud
