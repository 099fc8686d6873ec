import PointCloud.Device.Task

/-!
# Watching a device

Of a device in general nothing is known but what is asked of it.  A `Watched`
device passes every operation on and keeps a list of them, whatever comes of
them.  `AsksAt` says of a task on a watched device that it is the same task on
the device itself, and which requests it makes there.

A task makes no request after one that has failed.  So only of a task that
succeeds is the list known in full, and that is what `Asks` says of the tasks
that are carried out on a device that has been acquired.
-/

namespace PointCloud

/-- An operation that is asked of a device. -/
inductive DeviceRequest where
  | acquire
  | position
  | store (bytes : Octets)
  | seek (place : Nat)
  | flush
  deriving Repr, DecidableEq

/-- A device, and what has been asked of it so far. -/
structure Watched (σ : Type) where
  device : σ
  requests : List DeviceRequest

namespace Watched

variable {σ α : Type}

/-- Passes an operation on, and takes note of it. -/
def pass (request : DeviceRequest) (f : σ → α × σ) (d : Watched σ) : α × Watched σ :=
  ((f d.device).1, ⟨(f d.device).2, d.requests ++ [request]⟩)

instance [Device σ] : Device (Watched σ) where
  acquire := pass .acquire Device.acquire
  notice d := Device.notice d.device
  position := pass .position Device.position
  store bytes := pass (.store bytes) (Device.store bytes)
  seek place := pass (.seek place) (Device.seek place)
  flush := pass .flush Device.flush

end Watched

/-- The requests that store pieces; none is made for an empty piece. -/
def DeviceRequest.storing (pieces : List Octets) : List DeviceRequest :=
  (pieces.filter (!·.isEmpty)).map .store

namespace DeviceRequest

@[simp] theorem storing_nil : storing [] = [] := rfl

/-- Pieces may be stored in two goes. -/
theorem storing_append (ps qs : List Octets) : storing (ps ++ qs) = storing ps ++ storing qs := by
  simp [storing]

theorem storing_cons (p : Octets) (ps : List Octets) :
    storing (p :: ps) = storing [p] ++ storing ps := storing_append [p] ps

/-- Storing acquires nothing. -/
theorem acquire_not_mem_storing (pieces : List Octets) : .acquire ∉ storing pieces := by
  simp [storing]

end DeviceRequest

/-- Octets are passed on, and are asked for unless there are none. -/
theorem Watched.storeSome_eq {σ : Type} [Device σ] (bytes : Octets) (d : σ)
    (rs : List DeviceRequest) :
    Device.storeSome bytes (⟨d, rs⟩ : Watched σ) =
      ((Device.storeSome bytes d).1,
        ⟨(Device.storeSome bytes d).2, rs ++ DeviceRequest.storing [bytes]⟩) := by
  cases bytes with
  | nil => simp [Device.storeSome, DeviceRequest.storing]
  | cons b bs => rfl

namespace DeviceTask

open DeviceRequest (storing storing_cons acquire_not_mem_storing)

variable {σ α β : Type}

/-- A task on a watched device is another one on the device itself, and makes these requests. -/
def AsksAt (task : DeviceTask (Watched σ) α) (plain : DeviceTask σ α) (d : σ)
    (more : List DeviceRequest) : Prop :=
  ∀ rs, task.perform ⟨d, rs⟩ = ((plain.perform d).1, ⟨(plain.perform d).2, rs ++ more⟩)

theorem asksAt_pure (a : α) (d : σ) : AsksAt (pure a) (pure a) d [] := by
  intro rs
  simp

theorem asksAt_result (r : Except Error α) (d : σ) : AsksAt (result r) (result r) d [] := by
  intro rs
  simp

/-- An operation that goes on to the device is asked of it. -/
theorem asksAt_operation {f : σ → Except DeviceFault α × σ}
    {g : Watched σ → Except DeviceFault α × Watched σ} {d : σ} {more : List DeviceRequest}
    (h : ∀ rs, g ⟨d, rs⟩ = ((f d).1, ⟨(f d).2, rs ++ more⟩)) :
    AsksAt (operation g) (operation f) d more := by
  intro rs
  have hg := h rs
  rcases hf : f d with ⟨r, d'⟩
  rw [hf] at hg
  cases r <;> simp [perform, operation, ExceptT.run, ExceptT.mk, StateT.run, hf, hg]

/-- A task that succeeds is followed by the next one and its requests. -/
theorem AsksAt.bind_ok {task : DeviceTask (Watched σ) α} {plain : DeviceTask σ α}
    {next : α → DeviceTask (Watched σ) β} {plainNext : α → DeviceTask σ β} {d d' : σ} {a : α}
    {more others : List DeviceRequest} (h : AsksAt task plain d more)
    (hplain : plain.perform d = (.ok a, d')) (hnext : AsksAt (next a) (plainNext a) d' others) :
    AsksAt (task >>= next) (plain >>= plainNext) d (more ++ others) := by
  intro rs
  have hfirst := h rs
  rw [hplain] at hfirst
  rw [perform_bind, perform_bind, hfirst, hplain]
  show (next a).perform ⟨d', rs ++ more⟩ = _
  rw [hnext, List.append_assoc]

/-- A task that fails is the end. -/
theorem AsksAt.bind_error {task : DeviceTask (Watched σ) α} {plain : DeviceTask σ α}
    {next : α → DeviceTask (Watched σ) β} {plainNext : α → DeviceTask σ β} {d d' : σ} {e : Error}
    {more : List DeviceRequest} (h : AsksAt task plain d more)
    (hplain : plain.perform d = (.error e, d')) :
    AsksAt (task >>= next) (plain >>= plainNext) d more := by
  intro rs
  have hfirst := h rs
  rw [hplain] at hfirst
  rw [perform_bind, perform_bind, hfirst, hplain]

/-- A task on a watched device is the same one on the device itself.  It does not acquire the
device, and its requests are known if it succeeds. -/
def Asks (task : DeviceTask (Watched σ) α) (plain : DeviceTask σ α) (d : σ)
    (listing : α → List DeviceRequest → Prop) : Prop :=
  ∃ more, AsksAt task plain d more ∧ .acquire ∉ more ∧
    ∀ a, (plain.perform d).1 = .ok a → listing a more

theorem asks_pure (a : α) (d : σ) :
    Asks (pure a) (pure a) d fun b more => a = b ∧ more = [] :=
  ⟨[], asksAt_pure a d, List.not_mem_nil, fun _ h => ⟨Except.ok.inj h, rfl⟩⟩

theorem asks_result (r : Except Error α) (d : σ) :
    Asks (result r) (result r) d fun a more => r = .ok a ∧ more = [] :=
  ⟨[], asksAt_result r d, List.not_mem_nil, fun _ h => ⟨h, rfl⟩⟩

/-- An operation is the one request of its task, unless it acquires the device. -/
theorem asks_operation (request : DeviceRequest) (hrequest : .acquire ≠ request)
    (f : σ → Except DeviceFault α × σ) (d : σ) :
    Asks (operation (Watched.pass request f)) (operation f) d fun _ more => more = [request] :=
  ⟨[request], asksAt_operation fun _ => rfl, by simpa using hrequest, fun _ _ => rfl⟩

/-- A sequence of tasks makes the requests of the first and then those of the second. -/
theorem Asks.bind {task : DeviceTask (Watched σ) α} {plain : DeviceTask σ α}
    {next : α → DeviceTask (Watched σ) β} {plainNext : α → DeviceTask σ β} {d : σ}
    {listing : α → List DeviceRequest → Prop} {others : α → β → List DeviceRequest → Prop}
    (h : Asks task plain d listing)
    (hnext : ∀ a d', Asks (next a) (plainNext a) d' (others a)) :
    Asks (task >>= next) (plain >>= plainNext) d fun b more =>
      ∃ a first rest, listing a first ∧ others a b rest ∧ more = first ++ rest := by
  obtain ⟨first, hfirst, hnone, hlisting⟩ := h
  rcases hplain : plain.perform d with ⟨r, d'⟩
  rw [hplain] at hlisting
  cases r with
  | error e =>
    refine ⟨first, hfirst.bind_error hplain, hnone, ?_⟩
    intro b hb
    rw [perform_bind, hplain] at hb
    cases hb
  | ok a =>
    obtain ⟨rest, hrest, hnone', hothers⟩ := hnext a d'
    refine ⟨first ++ rest, hfirst.bind_ok hplain hrest, by simp [hnone, hnone'], ?_⟩
    intro b hb
    rw [perform_bind, hplain] at hb
    exact ⟨a, first, rest, hlisting a rfl, hothers b hb, rfl⟩

/-- What follows from the requests of a task is known of it too. -/
theorem Asks.imp {task : DeviceTask (Watched σ) α} {plain : DeviceTask σ α} {d : σ}
    {listing others : α → List DeviceRequest → Prop} (h : Asks task plain d listing)
    (himp : ∀ a more, listing a more → others a more) : Asks task plain d others := by
  obtain ⟨more, hmore, hnone, hlisting⟩ := h
  exact ⟨more, hmore, hnone, fun a ha => himp a more (hlisting a ha)⟩

variable [Device σ]

/-- Octets are asked to be stored, if there are any. -/
theorem asks_storeSome (bytes : Octets) (d : σ) :
    Asks (operation (Device.storeSome bytes)) (operation (Device.storeSome bytes)) d
      fun _ more => more = storing [bytes] :=
  ⟨storing [bytes], asksAt_operation (Watched.storeSome_eq bytes d), acquire_not_mem_storing _,
    fun _ _ => rfl⟩

/-- Storing pieces asks for all of them to be stored, if all can be made and stored. -/
theorem asks_storeAll (pieces : List (Except Error Octets)) (d : σ) :
    Asks (storeAll pieces) (storeAll pieces) d fun _ more =>
      ∃ stored : List Octets, pieces = stored.map .ok ∧ more = storing stored := by
  induction pieces generalizing d with
  | nil =>
    refine (asks_pure () d).imp ?_
    rintro _ more ⟨-, rfl⟩
    exact ⟨[], rfl, rfl⟩
  | cons piece rest ih =>
    have hpiece := (asks_result piece d).bind fun bytes d' =>
      (asks_storeSome bytes d').bind fun _ d'' => ih d''
    refine hpiece.imp ?_
    rintro _ more ⟨bytes, _, _, ⟨rfl, rfl⟩, ⟨_, _, _, rfl, ⟨stored, rfl, rfl⟩, rfl⟩, rfl⟩
    exact ⟨bytes :: stored, rfl, (storing_cons bytes stored).symm⟩

end DeviceTask

end PointCloud
