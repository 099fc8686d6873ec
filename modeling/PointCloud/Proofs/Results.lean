import Mathlib.Data.List.Forall2

/-!
# Steps that may fail

A step after another one succeeds only if both do, and a list of steps only if
each does.  These are the forms in which later files take such steps apart.
-/

/-- What stands on the right of two related lists is related to something on the left. -/
theorem List.Forall₂.exists_left {α β : Type} {R : α → β → Prop} {xs : List α} {ys : List β}
    (h : List.Forall₂ R xs ys) {y : β} (hy : y ∈ ys) : ∃ x ∈ xs, R x y := by
  induction h with
  | nil => simp at hy
  | cons hxy _ ih =>
    rcases List.mem_cons.mp hy with rfl | hy
    · exact ⟨_, List.mem_cons_self, hxy⟩
    · obtain ⟨x, hx, hR⟩ := ih hy
      exact ⟨x, List.mem_cons_of_mem _ hx, hR⟩

/-- What stands on the left of two related lists is related to something on the right. -/
theorem List.Forall₂.exists_right {α β : Type} {R : α → β → Prop} {xs : List α} {ys : List β}
    (h : List.Forall₂ R xs ys) {x : α} (hx : x ∈ xs) : ∃ y ∈ ys, R x y :=
  h.flip.exists_left hx

/-- What is related to a list with something at its end has a counterpart of that at its end. -/
theorem List.Forall₂.exists_concat {α β : Type} {R : α → β → Prop} {xs : List α} {x : α}
    {ys : List β} (h : List.Forall₂ R (xs ++ [x]) ys) : ∃ front y, ys = front ++ [y] ∧ R x y := by
  induction xs generalizing ys with
  | nil =>
    obtain ⟨y, rest, hy, hrest, rfl⟩ := List.forall₂_cons_left_iff.mp h
    rw [List.forall₂_nil_left_iff.mp hrest]
    exact ⟨[], y, rfl, hy⟩
  | cons _ xs ih =>
    obtain ⟨z, rest, _, hrest, rfl⟩ := List.forall₂_cons_left_iff.mp h
    obtain ⟨front, y, rfl, hy⟩ := ih hrest
    exact ⟨z :: front, y, rfl, hy⟩

/-- If each of some values selects what its partner gives, all of them select what all partners
give. -/
theorem List.Forall₂.filterMap_eq_map {α β γ : Type} {R : α → β → Prop} {xs : List α} {ys : List β}
    {f : α → Option γ} {g : β → γ} (h : List.Forall₂ R xs ys)
    (hselects : ∀ x y, R x y → f x = some (g y)) : xs.filterMap f = ys.map g := by
  induction h with
  | nil => rfl
  | cons hxy _ ih => simp only [List.filterMap_cons, hselects _ _ hxy, List.map_cons, ih]

namespace Except

variable {ε α β : Type}

/-- A step after one that has succeeded. -/
theorem ok_bind (a : α) (f : α → Except ε β) : Except.ok a >>= f = f a := rfl

/-- A step after another one succeeds if both do. -/
theorem bind_eq_ok_iff {x : Except ε α} {f : α → Except ε β} {b : β} :
    x >>= f = .ok b ↔ ∃ a, x = .ok a ∧ f a = .ok b := by
  cases x with
  | error e => simp [bind, Except.bind]
  | ok a => simp [bind, Except.bind]

/-- A result that is mapped is that of a value. -/
theorem map_eq_ok_iff {x : Except ε α} {f : α → β} {b : β} :
    x.map f = .ok b ↔ ∃ a, x = .ok a ∧ f a = b := by
  cases x with
  | error e => simp [Except.map]
  | ok a => simp [Except.map]

theorem pure_eq_ok_iff {a b : α} : (pure a : Except ε α) = .ok b ↔ a = b := by
  simp [pure, Except.pure]

/-- A list of steps succeeds if each of them does. -/
theorem mapM_eq_ok_iff {f : α → Except ε β} {xs : List α} {ys : List β} :
    xs.mapM f = .ok ys ↔ List.Forall₂ (fun x y => f x = .ok y) xs ys := by
  induction xs generalizing ys with
  | nil => simp [pure, Except.pure, eq_comm]
  | cons x xs ih =>
    rw [List.mapM_cons, bind_eq_ok_iff, List.forall₂_cons_left_iff]
    constructor
    · rintro ⟨y, hy, hrest⟩
      obtain ⟨ys', hys', heq⟩ := bind_eq_ok_iff.mp hrest
      exact ⟨y, ys', hy, ih.mp hys', (pure_eq_ok_iff.mp heq).symm⟩
    · rintro ⟨y, ys', hy, hys', rfl⟩
      exact ⟨y, hy, bind_eq_ok_iff.mpr ⟨ys', ih.mpr hys', rfl⟩⟩

/-- A list of steps comes to the same if each of them does. -/
theorem mapM_congr {f g : α → Except ε β} {xs : List α} (h : ∀ x ∈ xs, f x = g x) :
    xs.mapM f = xs.mapM g := by
  induction xs with
  | nil => rfl
  | cons x xs ih =>
    obtain ⟨hx, hxs⟩ := List.forall_mem_cons.mp h
    rw [List.mapM_cons, List.mapM_cons, hx, ih hxs]

/-- Steps with these results, one after the other. -/
theorem forall₂_of_map_eq {f : α → Except ε β} {xs : List α} {ys : List β}
    (h : xs.map f = ys.map .ok) : List.Forall₂ (fun x y => f x = .ok y) xs ys := by
  have heq : List.Forall₂ (fun r y => r = .ok y) (xs.map f) ys := by
    rw [h, List.forall₂_map_left_iff]
    exact List.forall₂_same.mpr fun _ _ => rfl
  exact List.forall₂_map_left_iff.mp heq

/-- Mapping takes nothing away from success. -/
theorem exists_map_eq_ok_iff {x : Except ε α} {f : α → β} :
    (∃ b, x.map f = .ok b) ↔ ∃ a, x = .ok a := by
  cases x with
  | error e => simp [Except.map]
  | ok a => simp [Except.map]

/-- Where the second step always succeeds, both do if the first one does. -/
theorem exists_bind_eq_ok_iff {x : Except ε α} {f : α → Except ε β} {p : Prop}
    (hf : ∀ a, x = .ok a → ((∃ b, f a = .ok b) ↔ p)) :
    (∃ b, x >>= f = .ok b) ↔ (∃ a, x = .ok a) ∧ p := by
  cases x with
  | error e => simp [bind, Except.bind]
  | ok a => simpa [bind, Except.bind] using hf a rfl

/-- A list is mapped just if each of its elements is. -/
theorem exists_mapM_eq_ok_iff {f : α → Except ε β} {xs : List α} :
    (∃ ys, xs.mapM f = .ok ys) ↔ ∀ x ∈ xs, ∃ y, f x = .ok y := by
  induction xs with
  | nil => simp [pure, Except.pure]
  | cons x xs ih =>
    have hrest : ∀ y, (∃ ys, (do let ys ← xs.mapM f; pure (y :: ys)) = Except.ok ys) ↔
        ∀ x ∈ xs, ∃ y, f x = .ok y := by
      intro y
      rw [exists_bind_eq_ok_iff (p := True) fun ys _ => by simp [pure, Except.pure], ih, and_true]
    rw [List.mapM_cons, exists_bind_eq_ok_iff fun y _ => hrest y, List.forall_mem_cons]

/-- If the step fails, its error is of a kind. -/
def FailsWith (kind : ε → Prop) (x : Except ε α) : Prop := ∀ e, x = .error e → kind e

variable {kind : ε → Prop}

theorem FailsWith.ok (a : α) : FailsWith kind (.ok a : Except ε α) := by
  intro e h
  cases h

theorem FailsWith.error {e : ε} (h : kind e) : FailsWith kind (.error e : Except ε α) := by
  rintro e' ⟨⟩
  exact h

/-- Two steps fail in one kind of way if both of them do. -/
theorem FailsWith.bind {x : Except ε α} {f : α → Except ε β} (h : x.FailsWith kind)
    (hf : ∀ a, x = .ok a → (f a).FailsWith kind) : (x >>= f).FailsWith kind := by
  cases x with
  | error e => exact FailsWith.error (h e rfl)
  | ok a => exact hf a rfl

theorem FailsWith.map {x : Except ε α} (h : x.FailsWith kind) (f : α → β) :
    (x.map f).FailsWith kind := by
  cases x with
  | error e => exact FailsWith.error (h e rfl)
  | ok a => exact FailsWith.ok (f a)

/-- A list fails in one kind of way if all its elements do. -/
theorem FailsWith.mapM {f : α → Except ε β} {xs : List α}
    (h : ∀ x ∈ xs, (f x).FailsWith kind) : (xs.mapM f).FailsWith kind := by
  induction xs with
  | nil => exact FailsWith.ok []
  | cons x xs ih =>
    obtain ⟨hx, hxs⟩ := List.forall_mem_cons.mp h
    rw [List.mapM_cons]
    exact hx.bind fun _ _ => (ih hxs).bind fun _ _ => FailsWith.ok _

end Except
