import PointCloud.Proofs.Points.Returns
import PointCloud.Writer

/-!
# What is demanded of a point

A point becomes a record if a number of demands are met, one after the other: its
return numbers, its coordinates, its fields and its extra dimensions must all fit
into their places.  A `Demand` is such a condition together with what is said if
it does not hold, and a list of them `Govern`s a step that may fail if the step
fails exactly where a demand is not met, with the error of the first one that is
not.  The demands of joined steps are the joined demands, `Govern.bind`, so the
demands of an encoder are put together as the encoder is.

`govern_outcome` is the result: unless a point is left out, the demands for
it govern what comes of it.  The color is demanded also by a format that has no
place for it.
-/

namespace PointCloud

namespace PointField

/-- The whole numbers that a whole field has place for, from the least to one above the greatest. -/
def limits : PointField → Int × Int
  | .scanAngle => (-128, 128)
  | .intensity | .pointSource | .red | .green | .blue => (0, 65536)
  | _ => (0, 256)

/-- The fields of a color. -/
def colors : List PointField := [.red, .green, .blue]

end PointField

namespace Point

/-- The value of a point for a field. -/
def real (p : Point) (l : Layout) (f : PointField) : Double :=
  match l.find? f.name with
  | some id => p.value id
  | none => Double.zero

/-- The whole number of a point for a field: its value without the digits behind the point, if there
is a number at all, and what counts for a dimension that the table does not have. -/
def whole? (p : Point) (l : Layout) (f : PointField) : Option Int :=
  match l.find? f.name with
  | some id => Double.truncate? (p.value id)
  | none => some f.absent

/-- The coordinates of a point. -/
def coordinates (p : Point) (l : Layout) : Triple Double :=
  ⟨p.real l .x, p.real l .y, p.real l .z⟩

/-- A point by itself has the number of the dimension that is found for a field. -/
theorem real_ofLayout (p : Point) (l : Layout) (f : PointField) :
    (FieldMap.ofLayout l).real p.alone 0 f = p.real l f := by
  rw [FieldMap.real, FieldMap.get?_ofLayout, real]
  rfl

/-- Its position is made of three of these numbers. -/
theorem position_ofLayout (p : Point) (l : Layout) :
    (FieldMap.ofLayout l).position p.alone 0 = p.coordinates l := by
  simp only [FieldMap.position, real_ofLayout, coordinates]

/-- Whether a point is left out for its return numbers: that is asked for, and both are beyond the
limit. -/
def LeftOut (p : Point) (l : Layout) (policy : Returns.Policy) : Prop :=
  ∃ number count : UInt8, p.whole? l .returnNumber = some ↑number.toNat ∧
    p.whole? l .numberOfReturns = some ↑count.toNat ∧
    policy.discardHigh = true ∧ policy.max < number ∧ policy.max < count

variable {p : Point} {l : Layout} {f : PointField}

/-- A field has the whole number of its point if that lies within its limits. -/
theorem whole_ofLayout {low high : Int} (h : f.limits = (low, high)) :
    (FieldMap.ofLayout l).whole p.alone 0 low high f =
      match (p.whole? l f).filter fun n => low ≤ n ∧ n < high with
      | some n => .ok n
      | none => .error (.fieldOverflow f.name (p.real l f)) := by
  have habsent : f.limits.1 ≤ f.absent ∧ (f.absent : Int) < f.limits.2 := by
    cases f <;> decide
  rw [h] at habsent
  rw [FieldMap.whole, FieldMap.get?_ofLayout, whole?, real]
  cases l.find? f.name with
  | none => simp [Option.filter, habsent]
  | some id => rfl

/-- A whole number is what is left of the number of a field, if it is within the limits. -/
theorem whole_eq_ok_iff {low high n : Int} (h : f.limits = (low, high)) :
    (FieldMap.ofLayout l).whole p.alone 0 low high f = .ok n ↔
      p.whole? l f = some n ∧ low ≤ n ∧ n < high := by
  have hfilter : (p.whole? l f).filter (fun n => low ≤ n ∧ n < high) = some n ↔
      p.whole? l f = some n ∧ low ≤ n ∧ n < high := by
    simp [Option.filter_eq_some_iff]
  rw [whole_ofLayout h, ← hfilter]
  cases (p.whole? l f).filter fun n => low ≤ n ∧ n < high <;> simp

theorem octet_eq_ok_iff {n : UInt8} (h : f.limits = (0, 256)) :
    (FieldMap.ofLayout l).octet p.alone 0 f = .ok n ↔ p.whole? l f = some ↑n.toNat := by
  rw [FieldMap.octet, Except.map_eq_ok_iff]
  simp only [whole_eq_ok_iff h]
  constructor
  · rintro ⟨m, ⟨hm, hlow, hhigh⟩, rfl⟩
    rw [hm, UInt8.toNat_ofNat_of_lt' ((Int.toNat_lt hlow).mpr hhigh), Int.toNat_of_nonneg hlow]
  · intro hn
    have hlt : n.toNat < 256 := n.toNat_lt
    exact ⟨n.toNat, ⟨hn, by omega, by omega⟩, by simp⟩

theorem word_eq_ok_iff {n : UInt16} (h : f.limits = (0, 65536)) :
    (FieldMap.ofLayout l).word p.alone 0 f = .ok n ↔ p.whole? l f = some ↑n.toNat := by
  rw [FieldMap.word, Except.map_eq_ok_iff]
  simp only [whole_eq_ok_iff h]
  constructor
  · rintro ⟨m, ⟨hm, hlow, hhigh⟩, rfl⟩
    rw [hm, UInt16.toNat_ofNat_of_lt' ((Int.toNat_lt hlow).mpr hhigh), Int.toNat_of_nonneg hlow]
  · intro hn
    have hlt : n.toNat < 65536 := n.toNat_lt
    exact ⟨n.toNat, ⟨hn, by omega, by omega⟩, by simp⟩

theorem signedOctet_eq_ok_iff {n : Int8} (h : f.limits = (-128, 128)) :
    (FieldMap.ofLayout l).signedOctet p.alone 0 f = .ok n ↔ p.whole? l f = some n.toInt := by
  rw [FieldMap.signedOctet, Except.map_eq_ok_iff]
  simp only [whole_eq_ok_iff h]
  constructor
  · rintro ⟨m, ⟨hm, hlow, hhigh⟩, rfl⟩
    rw [hm, Int8.toInt_ofInt_of_le (by omega) (by omega)]
  · intro hn
    exact ⟨n.toInt, ⟨hn, n.le_toInt, n.toInt_lt⟩, by simp⟩

end Point

/-- A condition, and what is said if it does not hold. -/
structure Demand where
  Met : Prop
  error : Error

namespace Demand

/-- The error is that of the first demand that is not met. -/
inductive FirstUnmet : List Demand → Error → Prop where
  | here {d : Demand} {ds : List Demand} (h : ¬ d.Met) : FirstUnmet (d :: ds) d.error
  | later {d : Demand} {ds : List Demand} {error : Error} (h : d.Met)
      (behind : FirstUnmet ds error) : FirstUnmet (d :: ds) error

variable {d : Demand} {ds es : List Demand} {error : Error}

theorem not_firstUnmet_nil : ¬ FirstUnmet [] error := by
  intro h
  cases h

/-- The first unmet demand is the one in front, or the first of the others if that one is met. -/
theorem firstUnmet_cons_iff :
    FirstUnmet (d :: ds) error ↔
      ¬ d.Met ∧ error = d.error ∨ d.Met ∧ FirstUnmet ds error := by
  constructor
  · intro h
    cases h with
    | here h => exact .inl ⟨h, rfl⟩
    | later h behind => exact .inr ⟨h, behind⟩
  · rintro (⟨h, rfl⟩ | ⟨h, behind⟩)
    · exact .here h
    · exact .later h behind

/-- The first unmet demand of two lists is in the second one only if the first one is met. -/
theorem firstUnmet_append_iff :
    FirstUnmet (ds ++ es) error ↔
      FirstUnmet ds error ∨ (∀ d ∈ ds, d.Met) ∧ FirstUnmet es error := by
  induction ds with
  | nil => simp [not_firstUnmet_nil]
  | cons d ds ih =>
    rw [List.cons_append, firstUnmet_cons_iff, ih, firstUnmet_cons_iff, List.forall_mem_cons]
    tauto

/-- Some demand is the first that is not met exactly if some demand is not met. -/
theorem exists_firstUnmet_iff : (∃ error, FirstUnmet ds error) ↔ ∃ d ∈ ds, ¬ d.Met := by
  induction ds with
  | nil => simp [not_firstUnmet_nil]
  | cons d ds ih =>
    simp only [firstUnmet_cons_iff, exists_or, exists_and_left, exists_eq, and_true, ih,
      List.exists_mem_cons_iff]
    tauto

/-- Demands that are met make no difference. -/
theorem firstUnmet_append_of_met (h : ∀ d ∈ ds, d.Met) :
    FirstUnmet (ds ++ es) error ↔ FirstUnmet es error := by
  rw [firstUnmet_append_iff, or_iff_right, and_iff_right h]
  intro hfirst
  obtain ⟨d, hd, hunmet⟩ := exists_firstUnmet_iff.mp ⟨error, hfirst⟩
  exact hunmet (h d hd)

variable {α β : Type}

/-- A step fails exactly where a demand is not met, and says what belongs to the first one. -/
def Govern (ds : List Demand) (x : Except Error α) : Prop :=
  ∀ error, x = .error error ↔ FirstUnmet ds error

theorem Govern.pure (a : α) : Govern [] (pure a : Except Error α) := by
  intro error
  simp [not_firstUnmet_nil, Pure.pure, Except.pure]

/-- A single demand governs a result that fails just if it is not met. -/
theorem govern_singleton_iff {x : Except Error α} :
    Govern [d] x ↔ ∀ error, x = .error error ↔ ¬ d.Met ∧ error = d.error := by
  simp only [Govern, firstUnmet_cons_iff, not_firstUnmet_nil, and_false, or_false]

/-- A governed step succeeds exactly if all demands are met. -/
theorem Govern.exists_ok_iff {x : Except Error α} (h : Govern ds x) :
    (∃ a, x = .ok a) ↔ ∀ d ∈ ds, d.Met := by
  have hnone : (¬ ∃ error, FirstUnmet ds error) ↔ ∀ d ∈ ds, d.Met := by
    rw [exists_firstUnmet_iff]
    push Not
    rfl
  rw [← hnone]
  cases x with
  | error error => simpa using ⟨error, (h error).mp rfl⟩
  | ok a =>
    simp only [Except.ok.injEq, exists_eq', true_iff]
    rintro ⟨error, hfirst⟩
    cases (h error).mpr hfirst

theorem Govern.map {x : Except Error α} (h : Govern ds x) (f : α → β) : Govern ds (x.map f) := by
  intro error
  rw [← h error]
  cases x <;> simp [Except.map]

/-- The demands of two steps stand in the order of the steps. -/
theorem Govern.bind {x : Except Error α} {f : α → Except Error β} (h : Govern ds x)
    (hf : ∀ a, x = .ok a → Govern es (f a)) : Govern (ds ++ es) (x >>= f) := by
  intro error
  rw [firstUnmet_append_iff]
  cases x with
  | error e =>
    -- The first step has failed for a demand of its own, so those behind do not come up.
    have hunmet : ¬ ∀ d ∈ ds, d.Met := by
      rw [← h.exists_ok_iff]
      simp
    have hstop : (.error e : Except Error α) >>= f = .error e := rfl
    rw [or_iff_left (fun hes => hunmet hes.1), ← h error, hstop]
    simp
  | ok a =>
    have hmet : ∀ d ∈ ds, d.Met := h.exists_ok_iff.mp ⟨a, rfl⟩
    have hnone : ¬ FirstUnmet ds error := by
      rw [← h error]
      simp
    rw [or_iff_right hnone, and_iff_right hmet, ← hf a rfl error]
    rfl

/-- What comes after the last step that may fail demands nothing. -/
theorem Govern.bind_pure {x : Except Error α} (h : Govern ds x) (f : α → β) :
    Govern ds (do let a ← x; Pure.pure (f a)) := by
  have hbind := h.bind fun a _ => Govern.pure (f a)
  rwa [List.append_nil] at hbind

/-- A step with a demand of its own, and what comes after it. -/
theorem Govern.cons {x : Except Error α} {f : α → Except Error β} (h : Govern [d] x)
    (hf : ∀ a, x = .ok a → Govern ds (f a)) : Govern (d :: ds) (x >>= f) := h.bind hf

/-- The demands of a list stand in its order. -/
theorem Govern.mapM {f : α → Except Error β} {demand : α → Demand} {xs : List α}
    (h : ∀ x ∈ xs, Govern [demand x] (f x)) : Govern (xs.map demand) (xs.mapM f) := by
  induction xs with
  | nil => exact Govern.pure []
  | cons x xs ih =>
    obtain ⟨hx, hxs⟩ := List.forall_mem_cons.mp h
    rw [List.mapM_cons, List.map_cons]
    exact hx.cons fun y _ => (ih hxs).bind_pure fun ys => y :: ys

/-- The whole number of a point for a field must fit into it. -/
def ofField (l : Layout) (p : Point) (f : PointField) : Demand where
  Met := ∃ n, p.whole? l f = some n ∧ f.limits.1 ≤ n ∧ n < f.limits.2
  error := .fieldOverflow f.name (p.real l f)

/-- A coordinate must have a stored form. -/
def ofAxis (l : Layout) (q : Quantizer) (p : Point) (axis : Axis) : Demand where
  Met := ∃ n, (q.scalings.get axis).stored? ((p.coordinates l).get axis) = some n
  error := .coordinateOverflow axis ((p.coordinates l).get axis) (q.scalings.get axis)

/-- A value that is not copied must fit into the type of its dimension in the record. -/
def ofExtra (p : Point) (f : ExtraField) : Demand where
  Met := f.source = f.scalar ∨ ∃ bytes, f.scalar.encode? (p.value f.dimension) = some bytes
  error := .fieldOverflow f.name (p.value f.dimension)

/-- The return numbers are looked at first. -/
def returnNumbers (l : Layout) (p : Point) : List Demand :=
  [PointField.returnNumber, .numberOfReturns].map (ofField l p)

/-- The coordinates are looked at before the other fields. -/
def coordinates (l : Layout) (q : Quantizer) (p : Point) : List Demand :=
  Axis.all.map (ofAxis l q p)

/-- The whole fields that every record has, in the order in which they are looked at. -/
def attributes (l : Layout) (p : Point) : List Demand :=
  [PointField.intensity, .scanDirection, .edgeOfFlightLine, .classification, .scanAngle, .userData,
    .pointSource].map (ofField l p)

/-- The three parts of a color. -/
def colors (l : Layout) (p : Point) : List Demand := PointField.colors.map (ofField l p)

/-- The extra dimensions come last. -/
def extras (p : Point) (extra : ExtraBytes) : List Demand := extra.fields.map (ofExtra p)

variable (l : Layout) (p : Point)

/-- A whole number fails by the demand of its field. -/
theorem govern_whole {f : PointField} {low high : Int} (h : f.limits = (low, high)) :
    Govern [ofField l p f] ((FieldMap.ofLayout l).whole p.alone 0 low high f) := by
  refine govern_singleton_iff.mpr fun error => ?_
  have hmet : (ofField l p f).Met ↔
      ∃ n, (FieldMap.ofLayout l).whole p.alone 0 low high f = .ok n := by
    simp only [ofField, Point.whole_eq_ok_iff h, h]
  rw [hmet, Point.whole_ofLayout h]
  cases (p.whole? l f).filter fun n => low ≤ n ∧ n < high with
  | none => simp [ofField, eq_comm]
  | some n => simp

theorem govern_octet {f : PointField} (h : f.limits = (0, 256)) :
    Govern [ofField l p f] ((FieldMap.ofLayout l).octet p.alone 0 f) := (govern_whole l p h).map _

theorem govern_word {f : PointField} (h : f.limits = (0, 65536)) :
    Govern [ofField l p f] ((FieldMap.ofLayout l).word p.alone 0 f) := (govern_whole l p h).map _

/-- A position fails by the demands on its coordinates. -/
theorem govern_quantize (q : Quantizer) :
    Govern (coordinates l q p) (q.quantize (p.coordinates l)) := by
  have haxis : ∀ axis, Govern [ofAxis l q p axis] (q.quantizeAxis (p.coordinates l) axis) := by
    intro axis
    refine govern_singleton_iff.mpr fun error => ?_
    unfold Quantizer.quantizeAxis ofAxis
    generalize (q.scalings.get axis).stored? ((p.coordinates l).get axis) = stored
    cases stored with
    | none => simp [eq_comm]
    | some n => simp
  have hlist : coordinates l q p = [ofAxis l q p .x, ofAxis l q p .y, ofAxis l q p .z] := rfl
  rw [hlist, Quantizer.quantize]
  refine (haxis .x).cons fun x _ => (haxis .y).cons fun y _ => ?_
  exact (haxis .z).bind_pure fun z => Triple.mk x y z

/-- The extra dimensions fail by their demands. -/
theorem govern_extra (extra : ExtraBytes) : Govern (extras p extra) (extra.encode p.alone 0) := by
  have hfield : ∀ f ∈ extra.fields, Govern [ofExtra p f] (f.encode p.alone 0) := by
    intro f _
    have hvalue : p.alone.value f.dimension 0 = p.value f.dimension := rfl
    rw [govern_singleton_iff, ExtraField.encode, hvalue]
    simp only [ofExtra]
    by_cases hsame : f.source = f.scalar
    · simp [hsame]
    · cases f.scalar.encode? (p.value f.dimension) with
      | none => simp [hsame, eq_comm]
      | some bytes => simp [hsame]
  exact (Govern.mapM hfield).bind_pure List.flatten

end Demand

namespace PointEncoder

open Demand

variable {e : PointEncoder} {l : Layout}

/-- Attributes and colors are demanded in every format. -/
theorem govern_record (hfields : e.fields = .ofLayout l) (p : Point) (stored : Triple Int32)
    (number kept : UInt8) :
    Govern (attributes l p ++ colors l p) (e.record p.alone 0 stored number kept) := by
  unfold record
  rw [hfields]
  exact (govern_word l p rfl).cons fun _ _ => (govern_octet l p rfl).cons fun _ _ =>
    (govern_octet l p rfl).cons fun _ _ => (govern_octet l p rfl).cons fun _ _ =>
    ((govern_whole l p rfl).map _).cons fun _ _ => (govern_octet l p rfl).cons fun _ _ =>
    (govern_word l p rfl).cons fun _ _ => (govern_word l p rfl).cons fun _ _ =>
    (govern_word l p rfl).cons fun _ _ => (govern_word l p rfl).bind_pure _

/-- The return numbers fail by theirs. -/
theorem govern_returns (hfields : e.fields = .ofLayout l) (p : Point) :
    Govern (returnNumbers l p) (e.returns p.alone 0) := by
  unfold PointEncoder.returns
  rw [hfields]
  exact (govern_octet l p rfl).cons fun _ _ => (govern_octet l p rfl).bind_pure _

/-- The return numbers are what the two fields are as whole numbers. -/
theorem returns_eq_ok_iff (hfields : e.fields = .ofLayout l) {p : Point} {number count : UInt8} :
    e.returns p.alone 0 = .ok (number, count) ↔
      p.whole? l .returnNumber = some ↑number.toNat ∧
        p.whole? l .numberOfReturns = some ↑count.toNat := by
  unfold PointEncoder.returns
  rw [hfields]
  constructor
  · intro h
    obtain ⟨number', hnumber, h⟩ := Except.bind_eq_ok_iff.mp h
    obtain ⟨count', hcount, h⟩ := Except.bind_eq_ok_iff.mp h
    obtain ⟨rfl, rfl⟩ := Prod.mk.inj (Except.pure_eq_ok_iff.mp h)
    exact ⟨(Point.octet_eq_ok_iff rfl).mp hnumber, (Point.octet_eq_ok_iff rfl).mp hcount⟩
  · rintro ⟨hnumber, hcount⟩
    refine Except.bind_eq_ok_iff.mpr ⟨number, (Point.octet_eq_ok_iff rfl).mpr hnumber, ?_⟩
    exact Except.bind_eq_ok_iff.mpr ⟨count, (Point.octet_eq_ok_iff rfl).mpr hcount, rfl⟩

/-- A point that is kept fails by its demands in order: position, fields, colors, extra dimensions.
-/
theorem govern_encodeKept (hfields : e.fields = .ofLayout l) (q : Quantizer) (p : Point)
    (number kept : UInt8) :
    Govern (coordinates l q p ++ (attributes l p ++ (colors l p ++ extras p e.extra)))
      (e.encodeKept q p.alone 0 number kept) := by
  unfold encodeKept
  rw [hfields, Point.position_ofLayout]
  refine (govern_quantize l p q).bind fun stored _ => ?_
  rw [← List.append_assoc]
  refine (govern_record hfields p stored number kept).bind fun record _ => ?_
  exact (govern_extra p e.extra).bind_pure _

/-- A point is judged by its return numbers, and then encoded unless it is left out. -/
theorem outcome_encodePoint (e : PointEncoder) (q : Quantizer) (p : Point) :
    (e.encodePoint q p).outcome = (do
      let numbers ← e.returns p.alone 0
      match Returns.verdict e.policy numbers.1 numbers.2 with
      | .discard => .ok none
      | .keep kept => (e.encodeKept q p.alone 0 numbers.1 kept).map some) := by
  unfold encodePoint encode
  cases e.returns p.alone 0 with
  | error error => rfl
  | ok numbers => rfl

/-- A point comes to nothing exactly if it is left out. -/
theorem outcome_eq_none_iff (hfields : e.fields = .ofLayout l) {q : Quantizer} {p : Point} :
    (e.encodePoint q p).outcome = .ok none ↔ p.LeftOut l e.policy := by
  rw [outcome_encodePoint, Except.bind_eq_ok_iff]
  constructor
  · rintro ⟨⟨number, count⟩, hreturns, h⟩
    obtain ⟨hnumber, hcount⟩ := (returns_eq_ok_iff hfields).mp hreturns
    cases hverdict : Returns.verdict e.policy number count with
    | discard => exact ⟨number, count, hnumber, hcount, Returns.verdict_eq_discard_iff.mp hverdict⟩
    | keep kept =>
      simp only [hverdict] at h
      obtain ⟨r, -, hr⟩ := Except.map_eq_ok_iff.mp h
      cases hr
  · rintro ⟨number, count, hnumber, hcount, hleft⟩
    refine ⟨(number, count), (returns_eq_ok_iff hfields).mpr ⟨hnumber, hcount⟩, ?_⟩
    simp only [Returns.verdict_eq_discard_iff.mpr hleft]

/-- What comes of a point that is not left out is governed by all the demands for it. -/
theorem govern_outcome (hfields : e.fields = .ofLayout l) {q : Quantizer} {p : Point}
    (h : ¬ p.LeftOut l e.policy) :
    Govern (returnNumbers l p ++ coordinates l q p ++ attributes l p ++ colors l p ++
      extras p e.extra) (e.encodePoint q p).outcome := by
  rw [outcome_encodePoint]
  simp only [List.append_assoc]
  refine (govern_returns hfields p).bind ?_
  rintro ⟨number, count⟩ hreturns
  obtain ⟨hnumber, hcount⟩ := (returns_eq_ok_iff hfields).mp hreturns
  cases hverdict : Returns.verdict e.policy number count with
  | discard =>
    exact absurd ⟨number, count, hnumber, hcount, Returns.verdict_eq_discard_iff.mp hverdict⟩ h
  | keep kept => simpa only [hverdict] using (govern_encodeKept hfields q p number kept).map some

end PointEncoder

end PointCloud
