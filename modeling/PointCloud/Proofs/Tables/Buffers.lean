import Mathlib.Tactic.Set
import PointCloud.Proofs.Bytes.Reading
import PointCloud.Proofs.Results
import PointCloud.Proofs.Tables.Finding
import PointCloud.Table.Buffer

/-!
# What a buffer of points keeps

A buffer grows by points that are given by their values or by their coordinates.
Some are refused, so what it keeps is judged by the points that fit its layout,
`Entry.Fits`.  `Holds` says that the column of each dimension is the octets of
these points, one after the other; an empty buffer holds no points, and adding
a point that fits adds its octets to every column, `Holds.add`.

All octets of a column are as wide as the type of its dimension, so the octets
of a point are found by multiplication, `Octets.slice_flatMap`, and a column is as
long as it has to be.
-/

namespace PointCloud.PointBuffer

/-- A point that is to be added: its values in the order of the layout, or its coordinates alone. -/
inductive Entry where
  | values (given : List Double)
  | coordinates (position : Triple Double)

namespace Entry

/-- The value that an entry has at an index of the layout.  What is missing is zero; coordinates are
at the indexes that the layout finds for their names. -/
def value (l : Layout) (e : Entry) (id : Nat) : Double :=
  match e with
  | .values given => given[id]?.getD Double.zero
  | .coordinates p =>
    if l.find? "X" = some id then p.x
    else if l.find? "Y" = some id then p.y
    else if l.find? "Z" = some id then p.z
    else Double.zero

/-- Whether each value fits the type of its dimension. -/
def Fits (l : Layout) (e : Entry) : Prop :=
  ∀ id (h : id < l.dimensions.length),
    (l.dimensions[id].scalar.encode? (e.value l id)).isSome = true

instance (l : Layout) (e : Entry) : Decidable (e.Fits l) :=
  inferInstanceAs (Decidable (∀ id (_ : id < l.dimensions.length), _ = true))

/-- The octets of an entry in a column; none if the value does not fit. -/
def octets (l : Layout) (e : Entry) (id : Nat) (d : Dimension) : Octets :=
  (d.scalar.encode? (e.value l id)).getD []

end Entry

/-- The error names the first dimension whose type does not have the value. -/
def FirstMisfit (ds : List Dimension) (value : Nat → Double) (e : Error) : Prop :=
  ∃ id d, ds[id]? = some d ∧ d.scalar.encode? (value id) = none ∧
    e = .fieldOverflow d.name (value id) ∧
    ∀ j < id, ∀ other, ds[j]? = some other → (other.scalar.encode? (value j)).isSome = true

/-- Adds a point. -/
def add (b : PointBuffer) : Entry → Except Error PointBuffer
  | .values given => b.push given
  | .coordinates p => b.pushXyz p

/-- Adds a point, and goes on with the buffer as it is if the point is refused: by then nothing has
been put behind its columns. -/
def tryAdd (b : PointBuffer) (e : Entry) : PointBuffer :=
  match b.add e with
  | .ok next => next
  | .error _ => b

/-- Adds points one after the other, whether some are refused or not. -/
def addAll (b : PointBuffer) (entries : List Entry) : PointBuffer := entries.foldl tryAdd b

/-! ### Rows -/

section

variable {ds : List Dimension} {values : List Double}

/-- A cell is made of a value just if the value fits the type of its dimension. -/
theorem encodeCell_eq_ok_iff {d : Dimension} {value : Double} {cell : Octets} :
    encodeCell d value = .ok cell ↔ d.scalar.encode? value = some cell := by
  unfold encodeCell
  split <;> simp_all

/-- A value that does not fit is refused with the name of its dimension. -/
theorem encodeCell_of_none {d : Dimension} {value : Double} (h : d.scalar.encode? value = none) :
    encodeCell d value = .error (.fieldOverflow d.name value) := by
  rw [encodeCell, h]

/-- If the first value does not fit, it is the first. -/
theorem firstMisfit_of_none {d : Dimension} (value : Nat → Double) {e : Error}
    (h : d.scalar.encode? (value 0) = none) :
    FirstMisfit (d :: ds) value e ↔ e = .fieldOverflow d.name (value 0) := by
  constructor
  · rintro ⟨id, other, hother, -, rfl, hbefore⟩
    cases id with
    | zero =>
      obtain rfl : d = other := Option.some.inj hother
      rfl
    | succ id =>
      have hfits := hbefore 0 (Nat.succ_pos id) d rfl
      rw [h] at hfits
      cases hfits
  · rintro rfl
    exact ⟨0, d, rfl, h, rfl, fun j hj => absurd hj (Nat.not_lt_zero j)⟩

/-- If it fits, the first misfit is among the others. -/
theorem firstMisfit_of_some {d : Dimension} (value : Nat → Double) {e : Error} {cell : Octets}
    (h : d.scalar.encode? (value 0) = some cell) :
    FirstMisfit (d :: ds) value e ↔ FirstMisfit ds (fun id => value (id + 1)) e := by
  constructor
  · rintro ⟨id, other, hother, hnone, rfl, hbefore⟩
    cases id with
    | zero =>
      obtain rfl : d = other := Option.some.inj hother
      rw [h] at hnone
      cases hnone
    | succ id =>
      exact ⟨id, other, hother, hnone, rfl, fun j hj =>
        hbefore (j + 1) (Nat.succ_lt_succ hj)⟩
  · rintro ⟨id, other, hother, hnone, rfl, hbefore⟩
    refine ⟨id + 1, other, hother, hnone, rfl, ?_⟩
    intro j hj before hget
    cases j with
    | zero =>
      obtain rfl : d = before := Option.some.inj hget
      rw [h, Option.isSome_some]
    | succ j => exact hbefore j (Nat.lt_of_succ_lt_succ hj) before hget

theorem headD_eq (values : List Double) :
    values.headD Double.zero = values[0]?.getD Double.zero := by
  rw [List.headD_eq_head?_getD, List.head?_eq_getElem?]

/-- A row has the octets of each value. -/
theorem encodeRow_eq_ok {row : List Octets} (h : encodeRow ds values = .ok row) :
    row.length = ds.length ∧ ∀ (id : Nat) (d : Dimension), ds[id]? = some d →
      d.scalar.encode? (values[id]?.getD Double.zero) = some (row[id]?.getD []) := by
  induction ds generalizing values row with
  | nil =>
    obtain rfl : [] = row := Except.ok.inj h
    simp
  | cons d ds ih =>
    obtain ⟨cell, hcell, hrest⟩ := Except.bind_eq_ok_iff.mp h
    obtain ⟨cells, hcells, hrow⟩ := Except.bind_eq_ok_iff.mp hrest
    obtain rfl := Except.pure_eq_ok_iff.mp hrow
    obtain ⟨hlength, hstored⟩ := ih hcells
    refine ⟨by rw [List.length_cons, List.length_cons, hlength], ?_⟩
    intro id other hother
    cases id with
    | zero =>
      obtain rfl : d = other := Option.some.inj hother
      have hvalue := encodeCell_eq_ok_iff.mp hcell
      rwa [headD_eq] at hvalue
    | succ id =>
      have htail := hstored id other hother
      rwa [List.getElem?_tail] at htail

/-- Where the second step always succeeds, the error is that of the first one. -/
theorem bind_eq_error_iff {α β : Type} {x : Except Error α} {f : α → β} {e : Error} :
    (do let a ← x; return f a) = Except.error e ↔ x = .error e := by
  cases x with
  | ok a => simp [bind, Except.bind, pure, Except.pure]
  | error e' => simp [bind, Except.bind]

/-- A row is refused for its first value that does not fit. -/
theorem encodeRow_eq_error_iff {e : Error} :
    encodeRow ds values = .error e ↔
      FirstMisfit ds (fun id => values[id]?.getD Double.zero) e := by
  induction ds generalizing values with
  | nil => simp [encodeRow, FirstMisfit]
  | cons d ds ih =>
    set value : Nat → Double := fun id => values[id]?.getD Double.zero with hvalue
    have htail : (fun id => values.tail[id]?.getD Double.zero) = fun id => value (id + 1) := by
      funext id
      rw [List.getElem?_tail]
    have hrow : encodeRow (d :: ds) values = (do
        let cell ← encodeCell d (value 0)
        let cells ← encodeRow ds values.tail
        return cell :: cells) := by
      rw [encodeRow, headD_eq]
    rw [hrow]
    cases hcell : d.scalar.encode? (value 0) with
    | none =>
      rw [encodeCell_of_none hcell, firstMisfit_of_none value hcell]
      exact ⟨fun h => (Except.error.inj h).symm, fun h => congrArg Except.error h.symm⟩
    | some cell =>
      rw [encodeCell_eq_ok_iff.mpr hcell, Except.ok_bind, firstMisfit_of_some value hcell, ← htail,
        ← ih]
      exact bind_eq_error_iff

end

/-! ### Coordinates -/

section

variable {l : Layout}

/-- A dimension that is found is one of the layout. -/
theorem lt_of_find? {name : String} {id : Nat} (h : l.find? name = some id) :
    id < l.dimensions.length := by
  obtain ⟨d, hget, -⟩ := Layout.find?_eq_some h
  exact (List.getElem?_eq_some_iff.mp hget).1

/-- Names that differ in more than case find different dimensions. -/
theorem find?_ne {name other : String} {id : Nat} (h : l.find? name = some id)
    (hne : Text.sameIgnoringCase name other = false) : l.find? other ≠ some id := by
  intro hother
  obtain ⟨d, hget, hname⟩ := Layout.find?_eq_some h
  obtain ⟨d', hget', hname'⟩ := Layout.find?_eq_some hother
  obtain rfl : d = d' := Option.some.inj (hget.symm.trans hget')
  rw [Text.sameIgnoringCase_comm] at hname
  rw [Text.sameIgnoringCase_trans hname hname'] at hne
  cases hne

theorem length_place (l : Layout) (name : String) (value : Double) (values : List Double) :
    (place l name value values).length = values.length := by
  unfold place
  split <;> simp

/-- A value is placed at the dimension of its name, if there is one. -/
theorem getElem?_place {values : List Double} (hlength : values.length = l.dimensions.length)
    (name : String) (value : Double) (id : Nat) :
    (place l name value values)[id]? =
      if l.find? name = some id then some value else values[id]? := by
  unfold place
  cases hfind : l.find? name with
  | none => simp
  | some found =>
    have hlt := lt_of_find? hfind
    simp [List.getElem?_set, hlength, hlt]

/-- The coordinates of a point are three values, and all others are zero. -/
theorem coordinates_eq (l : Layout) (p : Triple Double) :
    coordinates l p = (List.range l.dimensions.length).map ((Entry.coordinates p).value l) := by
  have hzero : (List.replicate l.dimensions.length Double.zero).length = l.dimensions.length :=
    List.length_replicate
  refine List.ext_getElem? fun id => ?_
  rw [List.getElem?_map, coordinates, getElem?_place (by rw [length_place, length_place, hzero]),
    getElem?_place (by rw [length_place, hzero]), getElem?_place hzero]
  by_cases hlt : id < l.dimensions.length
  · rw [List.getElem?_range hlt, List.getElem?_replicate, if_pos hlt, Option.map_some, Entry.value]
    by_cases hx : l.find? "X" = some id
    · rw [if_neg (find?_ne hx (by decide)), if_neg (find?_ne hx (by decide)), if_pos hx, if_pos hx]
    · by_cases hy : l.find? "Y" = some id
      · rw [if_neg (find?_ne hy (by decide)), if_pos hy, if_neg hx, if_pos hy]
      · by_cases hz : l.find? "Z" = some id <;> simp [hx, hy, hz]
  · have hfind : ∀ name, l.find? name ≠ some id := fun name h => hlt (lt_of_find? h)
    rw [if_neg (hfind "Z"), if_neg (hfind "Y"), if_neg (hfind "X"), List.getElem?_replicate,
      if_neg hlt, List.getElem?_eq_none (by simpa using hlt), Option.map_none]

/-- Adding a point means adding its values. -/
theorem add_eq_push {b : PointBuffer} (hl : b.layout = l) (e : Entry) :
    ∃ values : List Double, b.add e = b.push values ∧
      (fun id => values[id]?.getD Double.zero) = e.value l := by
  cases e with
  | values given => exact ⟨given, rfl, rfl⟩
  | coordinates p =>
    refine ⟨coordinates l p, by rw [add, pushXyz, hl], ?_⟩
    funext id
    rw [coordinates_eq, List.getElem?_map]
    by_cases hlt : id < l.dimensions.length
    · rw [List.getElem?_range hlt]
      rfl
    · have hfind : ∀ name, l.find? name ≠ some id := fun name h => hlt (lt_of_find? h)
      rw [List.getElem?_eq_none (by simpa using hlt), Entry.value, if_neg (hfind "X"),
        if_neg (hfind "Y"), if_neg (hfind "Z")]
      rfl

end

/-! ### Columns -/

/-- Elements of one width take as many octets as they are. -/
theorem length_flatMap_of_width {α : Type} {write : α → Octets} {width : Nat} {xs : List α}
    (hwidth : ∀ x ∈ xs, (write x).length = width) :
    (xs.flatMap write).length = xs.length * width := by
  rw [List.length_flatMap, List.map_congr_left hwidth, List.map_const', List.sum_replicate_nat]

/-- A buffer holds points if each column is made of their octets. -/
structure Holds (b : PointBuffer) (l : Layout) (entries : List Entry) : Prop where
  layout : b.layout = l
  size : b.size = entries.length
  count : b.columns.length = l.dimensions.length
  column : ∀ id d, l.get? id = some d →
    (b.column id).toList = entries.flatMap fun e => e.octets l id d
  fits : ∀ e ∈ entries, e.Fits l

/-- A buffer that is new holds no points. -/
theorem holds_ofLayout (l : Layout) : (ofLayout l).Holds l [] where
  layout := rfl
  size := rfl
  count := List.length_map ..
  column := by
    intro id d _
    by_cases hlt : id < l.dimensions.length <;> simp [PointBuffer.column, ofLayout, hlt]
  fits := fun _ h => absurd h List.not_mem_nil

variable {b next : PointBuffer} {l : Layout} {e : Entry}

/-- A point is refused for the first value that does not fit. -/
theorem add_eq_error_iff (hl : b.layout = l) {fault : Error} :
    b.add e = .error fault ↔ FirstMisfit l.dimensions (e.value l) fault := by
  obtain ⟨values, hadd, hvalue⟩ := add_eq_push hl e
  rw [hadd, ← hvalue, ← encodeRow_eq_error_iff, push, hl]
  cases encodeRow l.dimensions values <;> simp

/-- An added point has a row, which is put behind the columns. -/
theorem add_eq_ok (hl : b.layout = l) (h : b.add e = .ok next) :
    ∃ row : List Octets, row.length = l.dimensions.length ∧
      (∀ id d, l.get? id = some d →
        d.scalar.encode? (e.value l id) = some (row[id]?.getD [])) ∧
      next = { b with columns := appendRow b.columns row, size := b.size + 1 } := by
  subst hl
  obtain ⟨values, hadd, hvalue⟩ := add_eq_push rfl e
  rw [hadd, push] at h
  cases hrow : encodeRow b.layout.dimensions values with
  | error fault => simp [hrow] at h
  | ok row =>
    obtain ⟨hlength, hstored⟩ := encodeRow_eq_ok hrow
    rw [hrow] at h
    refine ⟨row, hlength, ?_, (Except.ok.inj h).symm⟩
    intro id d hget
    have hcell := hstored id d hget
    rwa [congrFun hvalue id] at hcell

/-- A point is added exactly if all of its values fit. -/
theorem exists_add_iff (hl : b.layout = l) : (∃ next, b.add e = .ok next) ↔ e.Fits l := by
  constructor
  · rintro ⟨next, h⟩
    obtain ⟨row, -, hstored, -⟩ := add_eq_ok hl h
    intro id hlt
    rw [hstored id _ (List.getElem?_eq_getElem hlt), Option.isSome_some]
  · intro hfits
    cases h : b.add e with
    | ok next => exact ⟨next, rfl⟩
    | error fault =>
      obtain ⟨id, d, hget, hnone, -⟩ := (add_eq_error_iff hl).mp h
      obtain ⟨hlt, rfl⟩ := List.getElem?_eq_some_iff.mp hget
      have hsome := hfits id hlt
      rw [hnone] at hsome
      cases hsome

/-- **One point more.**  A buffer to which a point is added holds that one too. -/
theorem Holds.add {entries : List Entry} (h : b.Holds l entries) (hadd : b.add e = .ok next) :
    next.Holds l (entries ++ [e]) := by
  obtain ⟨row, hlength, hstored, rfl⟩ := add_eq_ok h.layout hadd
  refine ⟨h.layout, ?_, ?_, ?_, ?_⟩
  · rw [List.length_append, ← h.size]
    rfl
  · rw [appendRow, List.length_zipWith, h.count, hlength, Nat.min_self]
  · intro id d hget
    have hlt : id < l.dimensions.length := (List.getElem?_eq_some_iff.mp hget).1
    have hcolumn : id < b.columns.length := by rwa [h.count]
    have hcell : id < row.length := by rwa [hlength]
    have hbefore := h.column id d hget
    rw [PointBuffer.column, List.getElem?_eq_getElem hcolumn, Option.getD_some] at hbefore
    have hvalue := hstored id d hget
    rw [List.getElem?_eq_getElem hcell, Option.getD_some] at hvalue
    rw [List.flatMap_append, ← hbefore, List.flatMap_singleton, Entry.octets, hvalue,
      PointBuffer.column, appendRow, List.getElem?_zipWith, List.getElem?_eq_getElem hcolumn,
      List.getElem?_eq_getElem hcell]
    simp
  · intro other hother
    obtain hother | hother := List.mem_append.mp hother
    · exact h.fits other hother
    · obtain rfl := List.mem_singleton.mp hother
      exact (exists_add_iff h.layout).mp ⟨_, hadd⟩

/-- **Many points more.**  A buffer keeps the points that fit, in order. -/
theorem Holds.addAll {entries : List Entry} (h : b.Holds l entries) (more : List Entry) :
    (b.addAll more).Holds l (entries ++ more.filter fun e => e.Fits l) := by
  induction more generalizing b entries with
  | nil => simpa [PointBuffer.addAll] using h
  | cons e more ih =>
    have hstep : b.addAll (e :: more) = (b.tryAdd e).addAll more := rfl
    rw [hstep, tryAdd]
    cases hadd : b.add e with
    | ok next =>
      have hfits : e.Fits l := (exists_add_iff h.layout).mp ⟨next, hadd⟩
      have hrest := ih (h.add hadd)
      rwa [List.append_assoc, List.singleton_append,
        ← List.filter_cons_of_pos (by simpa using hfits)] at hrest
    | error fault =>
      have hunfit : ¬ e.Fits l := by
        intro hfits
        obtain ⟨next, hok⟩ := (exists_add_iff h.layout).mpr hfits
        simp [hadd] at hok
      rw [List.filter_cons_of_neg (by simpa using hunfit)]
      exact ih h

/-- The octets of a point that fits are as wide as the type. -/
theorem Entry.length_octets (hfits : e.Fits l) {id : Nat} {d : Dimension} (h : l.get? id = some d) :
    d.scalar.encode? (e.value l id) = some (e.octets l id d) ∧
      (e.octets l id d).length = d.scalar.width := by
  obtain ⟨hlt, rfl⟩ := List.getElem?_eq_some_iff.mp h
  obtain ⟨cell, hcell⟩ := Option.isSome_iff_exists.mp (hfits id hlt)
  rw [octets, hcell, Option.getD_some]
  exact ⟨rfl, Scalar.length_of_encode? hcell⟩

variable {entries : List Entry}

/-- A column has a cell for each point. -/
theorem Holds.size_column (h : b.Holds l entries) {id : Nat} {d : Dimension}
    (hget : l.get? id = some d) : (b.column id).size = b.size * d.scalar.width := by
  rw [← Array.length_toList, h.column id d hget, h.size]
  exact length_flatMap_of_width fun e he => (Entry.length_octets (h.fits e he) hget).2

/-- A cell holds the octets of its point. -/
theorem Holds.cell_eq (h : b.Holds l entries) {id i : Nat} {d : Dimension}
    (hget : l.get? id = some d) (he : entries[i]? = some e) : b.cell id i = e.octets l id d := by
  have hcount : (i + 1) * d.scalar.width - i * d.scalar.width = d.scalar.width := by
    rw [Nat.succ_mul, Nat.add_sub_cancel_left]
  rw [cell, h.layout, hget]
  simp only [Array.toList_extract, List.extract_eq_take_drop, h.column id d hget, hcount]
  rw [← List.append_nil (entries.flatMap _)]
  exact Octets.slice_flatMap (fun e he => (Entry.length_octets (h.fits e he) hget).2) he []

/-- A buffer is a view whose values are as wide as the layout says. -/
theorem Holds.fitsLayout (h : b.Holds l entries) : b.view.FitsLayout l := by
  intro id d hget i hi
  have hlt : i < entries.length := by rwa [← h.size]
  have hcell : b.view.octets id i = entries[i].octets l id d :=
    h.cell_eq hget (List.getElem?_eq_getElem hlt)
  rw [hcell]
  exact (Entry.length_octets (h.fits _ (List.getElem_mem hlt)) hget).2

/-- What a buffer keeps of the points that it was given, and what it does with another one. -/
structure Keeps (b : PointBuffer) (l : Layout) (entries : List Entry) : Prop where
  /-- There are as many points as were added. -/
  size : b.size = entries.length
  /-- There is a column for each dimension. -/
  columns : b.columns.length = l.dimensions.length
  /-- A column is as long as its points are wide. -/
  column : ∀ id d, l.get? id = some d → (b.column id).size = b.size * d.scalar.width
  /-- At the place of a point in a column are the octets of its value, and nothing else is read. -/
  cell : ∀ id d i e, l.get? id = some d → entries[i]? = some e →
    d.scalar.encode? (e.value l id) = some (b.cell id i) ∧
      b.value id i = d.scalar.decode (b.cell id i)
  /-- Another point is added if all of its values fit. -/
  added : ∀ e, (∃ next, b.add e = .ok next) ↔ e.Fits l
  /-- It is refused for the first one that does not. -/
  refused : ∀ e fault, b.add e = .error fault ↔ FirstMisfit l.dimensions (e.value l) fault
  /-- A refused point leaves nothing behind; it is refused before any of its values is kept. -/
  unchanged : ∀ e fault, b.add e = .error fault → b.tryAdd e = b
  /-- Coordinates are added as a point whose other values are zero. -/
  coordinates : ∀ p, b.pushXyz p =
    b.push ((List.range l.dimensions.length).map ((Entry.coordinates p).value l))
  /-- A writer finds the values as wide as the layout says. -/
  view : b.view.FitsLayout l

/-- **A buffer keeps the points that fit its layout**, in order and column by column, whatever
points it is given.  It refuses the others for the first value that does not fit. -/
theorem keeps_addAll (l : Layout) (given : List Entry) :
    ((ofLayout l).addAll given).Keeps l (given.filter fun e => e.Fits l) := by
  have h := (holds_ofLayout l).addAll given
  rw [List.nil_append] at h
  refine ⟨h.size, h.count, fun _ _ => h.size_column, ?_, fun _ => exists_add_iff h.layout,
    fun _ _ => add_eq_error_iff h.layout, ?_, ?_, h.fitsLayout⟩
  · intro id d i e hget he
    have hfits := h.fits e (List.mem_of_getElem? he)
    constructor
    · rw [h.cell_eq hget he]
      exact (Entry.length_octets hfits hget).1
    · rw [value, h.layout, hget]
  · intro e fault hrefused
    rw [tryAdd, hrefused]
  · intro p
    rw [pushXyz, h.layout, coordinates_eq]

end PointCloud.PointBuffer
