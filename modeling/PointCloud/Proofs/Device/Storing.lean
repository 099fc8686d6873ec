import Mathlib.Data.List.Forall2
import PointCloud.Device.Memory
import PointCloud.Device.Task

/-!
# Storing in memory

Memory without a limit takes everything, so what a sequence of storing
operations leaves behind can be said in one go.  `Memory.put` stores octets
without asking whether they fit; `put_put` joins two pieces stored one after the
other, and `drop_overwrite` reads back what is stored.  `overwrite_front` is what
writing a header a second time comes down to: a piece of the same length over
the front of a longer one.

`DeviceTask.perform_storeAll` says the same of a list of pieces that may contain
an error: everything in front of the first error is stored.
-/

namespace PointCloud

namespace Memory

/-- The content in front of a place, with zeros where there is none yet. -/
def reach (content : Octets) (place : Nat) : Octets :=
  content.take place ++ List.replicate (place - content.length) 0

@[simp] theorem length_reach (content : Octets) (place : Nat) :
    (reach content place).length = place := by
  simp only [reach, List.length_append, List.length_take, List.length_replicate]
  omega

/-- What is overwritten is what reaches up to the place, the octets, and the rest behind them. -/
theorem overwrite_eq_reach (content : Octets) (place : Nat) (bytes : Octets) :
    overwrite content place bytes =
      reach content place ++ (bytes ++ content.drop (place + bytes.length)) := by
  simp [overwrite, reach, List.append_assoc]

/-- What stands in front of a place is left alone by storing there. -/
theorem take_overwrite (content : Octets) (place : Nat) (bytes : Octets) :
    (overwrite content place bytes).take place = reach content place := by
  rw [overwrite_eq_reach, List.take_left' (length_reach content place)]

/-- From a place on there is what has been stored, and behind it what was there before. -/
theorem drop_overwrite (content : Octets) (place : Nat) (bytes : Octets) :
    (overwrite content place bytes).drop place =
      bytes ++ content.drop (place + bytes.length) := by
  rw [overwrite_eq_reach, List.drop_left' (length_reach content place)]

/-- The octets that are put somewhere are there to their end. -/
theorem length_le_overwrite (content : Octets) (place : Nat) (bytes : Octets) :
    place + bytes.length ≤ (overwrite content place bytes).length := by
  rw [overwrite_eq_reach]
  simp only [List.length_append, length_reach]
  omega

/-- Storing at the place where the last piece ends continues that piece. -/
theorem overwrite_behind (content : Octets) (place : Nat) (first second : Octets) :
    overwrite (overwrite content place first) (place + first.length) second =
      overwrite content place (first ++ second) := by
  have hfront : reach (overwrite content place first) (place + first.length) =
      reach content place ++ first := by
    have hle := length_le_overwrite content place first
    have hzero : place + first.length - (overwrite content place first).length = 0 := by omega
    rw [reach, hzero, overwrite_eq_reach, ← List.append_assoc, List.take_left' (by simp)]
    simp
  have hback : (overwrite content place first).drop (place + first.length + second.length) =
      content.drop (place + (first ++ second).length) := by
    rw [Nat.add_assoc, ← List.drop_drop, drop_overwrite, ← List.drop_drop, List.drop_left,
      List.drop_drop, List.length_append, Nat.add_assoc]
  rw [overwrite_eq_reach, hfront, hback, overwrite_eq_reach]
  simp only [List.append_assoc]

/-- Storing at the beginning of a piece replaces its front by a front of the same length. -/
theorem overwrite_front (content : Octets) (place : Nat) {first second : Octets} (rest : Octets)
    (h : second.length = first.length) :
    overwrite (overwrite content place (first ++ rest)) place second =
      overwrite content place (second ++ rest) := by
  have hfront : reach (overwrite content place (first ++ rest)) place = reach content place := by
    have hle := length_le_overwrite content place (first ++ rest)
    have hzero : place - (overwrite content place (first ++ rest)).length = 0 := by omega
    rw [reach, hzero, take_overwrite]
    simp
  have hback : (overwrite content place (first ++ rest)).drop (place + second.length) =
      rest ++ content.drop (place + (second ++ rest).length) := by
    rw [← List.drop_drop, drop_overwrite, h, List.append_assoc, List.drop_left,
      List.length_append, List.length_append, h]
  rw [overwrite_eq_reach, hfront, hback, overwrite_eq_reach]
  simp only [List.append_assoc]

/-- The memory after octets have been stored without regard to a limit. -/
def put (bytes : Octets) (m : Memory) : Memory :=
  if bytes = [] then m
  else { m with content := overwrite m.content m.place bytes, place := m.place + bytes.length }

@[simp] theorem put_nil (m : Memory) : m.put [] = m := rfl

@[simp] theorem capacity_put (bytes : Octets) (m : Memory) :
    (m.put bytes).capacity = m.capacity := by
  unfold put
  split <;> rfl

@[simp] theorem place_put (bytes : Octets) (m : Memory) :
    (m.put bytes).place = m.place + bytes.length := by
  unfold put
  split
  · next h => simp [h]
  · rfl

/-- Octets that are stored one after the other might as well be stored at once. -/
theorem put_put (first second : Octets) (m : Memory) :
    (m.put first).put second = m.put (first ++ second) := by
  by_cases hfirst : first = []
  · simp [hfirst]
  by_cases hsecond : second = []
  · simp [hsecond]
  simp only [put, hfirst, hsecond, if_false, List.append_eq_nil_iff, false_and, overwrite_behind,
    List.length_append, Nat.add_assoc]

/-- In memory without a limit, octets go to the place of the memory. -/
theorem put_eq {m : Memory} {bytes : Octets} (hbytes : bytes ≠ []) (hm : m.capacity = none) :
    m.put bytes = ⟨overwrite m.content m.place bytes, m.place + bytes.length, none⟩ := by
  simp only [put, hbytes, if_false, hm]

/-- Storing at the place where the last piece began takes the place of its front. -/
theorem put_front {m : Memory} {stored second : Octets} (offset : Nat)
    (hlength : second.length ≤ stored.length) (hsecond : second ≠ []) (hm : m.capacity = none) :
    (((m.put stored).seek m.place).put second).seek (m.place + offset) =
      ⟨overwrite m.content m.place (second ++ stored.drop second.length), m.place + offset,
        none⟩ := by
  have hstored : stored ≠ [] := by
    intro hnil
    rw [hnil, List.length_nil, Nat.le_zero, List.length_eq_zero_iff] at hlength
    exact hsecond hlength
  have hfirst : second.length = (stored.take second.length).length := by
    rw [List.length_take, Nat.min_eq_left hlength]
  have hfront := overwrite_front m.content m.place (stored.drop second.length) hfirst
  rw [List.take_append_drop] at hfront
  simp only [put, seek, hsecond, hstored, if_false, hfront, hm]

/-- Memory without a limit stores everything. -/
theorem store_of_capacity {m : Memory} (h : m.capacity = none) (bytes : Octets) :
    m.store bytes = (.ok (), m.put bytes) := by
  by_cases hbytes : bytes = []
  · subst hbytes
    simp [store, fitting, h]
  · simp [store, fitting, h, hbytes, put]

/-- Memory without a limit takes everything. -/
theorem storeSome_of_capacity {m : Memory} (h : m.capacity = none) (bytes : Octets) :
    Device.storeSome bytes m = (.ok (), m.put bytes) := by
  unfold Device.storeSome
  cases bytes with
  | nil => rfl
  | cons b bs => exact store_of_capacity h (b :: bs)

end Memory

namespace DeviceTask

/-- The octets of the pieces in front of the first that could not be made. -/
def leading : List (Except Error Octets) → Octets
  | .ok bytes :: rest => bytes ++ leading rest
  | _ => []

/-- The result of going through pieces up to the first that could not be made. -/
def verdict : List (Except Error Octets) → Except Error Unit
  | [] => .ok ()
  | .ok _ :: rest => verdict rest
  | .error e :: _ => .error e

/-- Pieces are stored up to the first that could not be made. -/
theorem perform_storeAll (pieces : List (Except Error Octets)) {m : Memory}
    (h : m.capacity = none) :
    (storeAll pieces).perform m = (verdict pieces, m.put (leading pieces)) := by
  induction pieces generalizing m with
  | nil => rfl
  | cons piece rest ih =>
    rw [storeAll, perform_bind, perform_result]
    cases piece with
    | error e => rfl
    | ok bytes =>
      have hstore : (operation (Device.storeSome bytes)).perform m = (.ok (), m.put bytes) := by
        have hsome := Memory.storeSome_of_capacity h bytes
        simp only [perform, operation, ExceptT.run, ExceptT.mk, StateT.run, hsome]
      show ((operation (Device.storeSome bytes)) >>= fun _ => storeAll rest).perform m = _
      rw [perform_bind, hstore]
      show (storeAll rest).perform (m.put bytes) = _
      rw [ih (by simpa using h), Memory.put_put]
      rfl

/-- Where every piece can be made, nothing stops at the front. -/
theorem verdict_eq_ok_iff {pieces : List (Except Error Octets)} :
    verdict pieces = .ok () ↔ ∃ bytes : List Octets, pieces = bytes.map .ok := by
  induction pieces with
  | nil => simp [verdict]
  | cons piece rest ih =>
    cases piece with
    | error e =>
      simp only [verdict, reduceCtorEq, false_iff, not_exists]
      intro bytes heq
      cases bytes <;> simp at heq
    | ok b =>
      rw [verdict, ih]
      constructor
      · rintro ⟨bytes, rfl⟩
        exact ⟨b :: bytes, rfl⟩
      · rintro ⟨bytes, heq⟩
        cases bytes with
        | nil => simp at heq
        | cons b' bytes =>
          simp only [List.map_cons, List.cons.injEq] at heq
          exact ⟨bytes, heq.2⟩

/-- What stops the pieces is the error of one of them. -/
theorem mem_of_verdict_eq_error {pieces : List (Except Error Octets)} {e : Error}
    (h : verdict pieces = .error e) : .error e ∈ pieces := by
  induction pieces with
  | nil => cases h
  | cons piece rest ih =>
    cases piece with
    | error e' =>
      obtain rfl : e' = e := Except.error.inj h
      exact List.mem_cons_self
    | ok b => exact List.mem_cons_of_mem _ (ih h)

/-- Pieces in two lists are all sound if those of both are. -/
theorem verdict_append {ps qs : List (Except Error Octets)} :
    verdict (ps ++ qs) = .ok () ↔ verdict ps = .ok () ∧ verdict qs = .ok () := by
  induction ps with
  | nil => simp [verdict]
  | cons p ps ih =>
    cases p with
    | error e => simp [verdict]
    | ok b => exact ih

/-- Behind pieces that are all sound, the others lead on. -/
theorem leading_append {ps : List (Except Error Octets)} (h : verdict ps = .ok ())
    (qs : List (Except Error Octets)) : leading (ps ++ qs) = leading ps ++ leading qs := by
  obtain ⟨bytes, rfl⟩ := verdict_eq_ok_iff.mp h
  clear h
  induction bytes with
  | nil => rfl
  | cons b bytes ih =>
    simp only [List.map_cons, List.cons_append, leading, ih, List.append_assoc]

/-- Where a piece is made of each of some things, all pieces are made or there is a verdict. -/
theorem exists_of_verdict_map {α : Type} {f : α → Except Error Octets} {xs : List α}
    (h : verdict (xs.map f) = .ok ()) :
    ∃ pieces, List.Forall₂ (fun x piece => f x = .ok piece) xs pieces ∧
      leading (xs.map f) = pieces.flatten := by
  induction xs with
  | nil => exact ⟨[], List.Forall₂.nil, rfl⟩
  | cons x xs ih =>
    cases hx : f x with
    | error e => simp [verdict, hx] at h
    | ok piece =>
      rw [List.map_cons, hx, verdict] at h
      obtain ⟨pieces, hpieces, hleading⟩ := ih h
      refine ⟨piece :: pieces, List.Forall₂.cons hx hpieces, ?_⟩
      rw [List.map_cons, hx, leading, hleading, List.flatten_cons]

end DeviceTask

end PointCloud
