import Mathlib.Logic.Function.Basic
import PointCloud.Options.Assign
import PointCloud.Writer

/-!
# Options set by name

Whoever configures a writer by names and texts, and goes on after refusals, gets
options in which every field has the last value that was accepted under its name,
and every request for a record that was accepted, in order.

`OptionKey.read?` is what a text means for an option, on its own.  `gathered` puts
lists of values, one list for each option, into options.  Putting in some values
and then more of them is putting in both lists at once, `gathered_gathered`, and
setting one option puts in the one value that its text means, or none,
`trySet_eq`.  So a run over any pairs puts in all accepted values, `setAll_eq`,
and what does not depend on the order of different names follows from there.
-/

namespace PointCloud

namespace OptionKey

/-- The values of an option; of the requests for records it is a single one. -/
abbrev Value : OptionKey → Type
  | .filename => Option String
  | .compression | .forwardMetadata | .discardHighReturns => Bool
  | .format | .minorVersion => Setting UInt8
  | .majorVersion => UInt8
  | .creationDay | .creationYear | .globalEncoding | .fileSourceId => Setting UInt16
  | .systemId | .softwareId => Setting String
  | .projectId => Setting Guid
  | .extraDimensions => List ExtraDimension
  | .spatialReference => Option SpatialReference
  | .record => VlrRequest
  | .scale _ => Double
  | .offset _ => OffsetChoice

/-- The value of an option that a text means. -/
def read? (key : OptionKey) (text : String) : Option key.Value :=
  match key with
  | .filename => some (if text = "" then none else some text)
  | .compression | .forwardMetadata | .discardHighReturns => Options.readSwitch? text
  | .format | .minorVersion => (Setting.parse? text : Option (Setting UInt8))
  | .majorVersion => Text.uint8? (Text.trimmed text)
  | .creationDay | .creationYear | .globalEncoding | .fileSourceId =>
    (Setting.parse? text : Option (Setting UInt16))
  | .systemId | .softwareId => (Setting.parse? text : Option (Setting String))
  | .projectId => (Setting.parse? text : Option (Setting Guid))
  | .extraDimensions => (ExtraDimension.parseList text).toOption
  | .spatialReference => some (Options.readReference text)
  | .record => VlrRequest.parse? text
  | .scale _ => Options.readScale? text
  | .offset _ => Options.readOffset? text

/-- Lists of values, one for each option. -/
abbrev Values := (key : OptionKey) → List key.Value

/-- One value of one option. -/
def only (key : OptionKey) (value : key.Value) : Values :=
  Function.update (fun _ => []) key [value]

/-- The values that are accepted under each name, in order. -/
def accepted (pairs : List (String × String)) : Values := fun key =>
  (pairs.filter fun p => p.1 = key.name).filterMap fun p => key.read? p.2

/-- An option is found by its name. -/
theorem ofName?_name (key : OptionKey) : ofName? key.name = some key := by
  cases key with
  | scale axis => cases axis <;> decide
  | offset axis => cases axis <;> decide
  | _ => decide

/-- What is found by a name has that name. -/
theorem name_of_ofName? {name : String} {key : OptionKey} (h : ofName? name = some key) :
    name = key.name := by
  have hfound := List.find?_some h
  exact (eq_of_beq hfound).symm

/-- No two options have the same name. -/
theorem name_injective {key other : OptionKey} (h : key.name = other.name) : key = other := by
  have hfound := ofName?_name key
  rw [h, ofName?_name, Option.some.injEq] at hfound
  exact hfound.symm

/-- Values are accepted in the order of the pairs. -/
theorem accepted_append (first more : List (String × String)) :
    accepted (first ++ more) = fun key => accepted first key ++ accepted more key := by
  funext key
  rw [accepted, List.filter_append, List.filterMap_append]
  rfl

/-- A pair is accepted under its own name, if its text means a value. -/
theorem accepted_singleton (name text : String) (key : OptionKey) :
    accepted [(name, text)] key = if name = key.name then (key.read? text).toList else [] := by
  by_cases h : name = key.name
  · cases hread : key.read? text <;> simp [accepted, h, hread]
  · simp [accepted, h]

end OptionKey

namespace Options

open OptionKey (Values accepted only)

/-- Sets the option of a name, and goes on with the options as they are if the text is refused: by
then nothing has been set. -/
def trySet (o : Options) (name text : String) : Options :=
  match o.set name text with
  | .ok next => next
  | .error _ => o

/-- Sets options by name one after the other, whether some are refused or not. -/
def setAll (o : Options) (pairs : List (String × String)) : Options :=
  pairs.foldl (fun o p => o.trySet p.1 p.2) o

/-- Puts values into options: the last one of each list into its field, but all requests for
records. -/
def gathered (o : Options) (values : Values) : Options where
  filename := (values .filename).getLast?.getD o.filename
  compression := (values .compression).getLast?.getD o.compression
  format := (values .format).getLast?.getD o.format
  majorVersion := (values .majorVersion).getLast?.getD o.majorVersion
  minorVersion := (values .minorVersion).getLast?.getD o.minorVersion
  creationDay := (values .creationDay).getLast?.getD o.creationDay
  creationYear := (values .creationYear).getLast?.getD o.creationYear
  systemId := (values .systemId).getLast?.getD o.systemId
  softwareId := (values .softwareId).getLast?.getD o.softwareId
  projectId := (values .projectId).getLast?.getD o.projectId
  globalEncoding := (values .globalEncoding).getLast?.getD o.globalEncoding
  fileSourceId := (values .fileSourceId).getLast?.getD o.fileSourceId
  forwardMetadata := (values .forwardMetadata).getLast?.getD o.forwardMetadata
  extraDimensions := (values .extraDimensions).getLast?.getD o.extraDimensions
  spatialReference := (values .spatialReference).getLast?.getD o.spatialReference
  discardHighReturns := (values .discardHighReturns).getLast?.getD o.discardHighReturns
  scale := .ofAxes fun axis => (values (.scale axis)).getLast?.getD (o.scale.get axis)
  offset := .ofAxes fun axis => (values (.offset axis)).getLast?.getD (o.offset.get axis)
  records := o.records ++ values .record

/-! ### Putting values in -/

theorem ofAxes_get {α : Type} (t : Triple α) : Triple.ofAxes t.get = t :=
  Triple.ext_get (Triple.get_ofAxes _)

theorem gathered_nil (o : Options) : o.gathered (fun _ => []) = o := by
  simp only [gathered, List.getLast?_nil, Option.getD_none, List.append_nil, ofAxes_get]

/-- Values may be gathered in two goes. -/
theorem gathered_gathered (o : Options) (first more : Values) :
    (o.gathered first).gathered more = o.gathered fun key => first key ++ more key := by
  simp only [gathered, List.getLast?_append, Option.getD_or, Triple.get_ofAxes, List.append_assoc]

theorem only_self (key : OptionKey) (value : key.Value) : only key value key = [value] :=
  Function.update_self ..

theorem only_of_ne {key other : OptionKey} (value : key.Value) (h : other ≠ key) :
    only key value other = [] :=
  Function.update_of_ne h ..

/-- The triple in which one axis has got a new value. -/
theorem ofAxes_of_only {α : Type} (t : Triple α) {axis : Axis} {value : α} {f : Axis → List α}
    (hself : f axis = [value]) (hne : ∀ other, other ≠ axis → f other = []) :
    Triple.ofAxes (fun other => (f other).getLast?.getD (t.get other)) = t.set axis value := by
  refine Triple.ext_get fun other => ?_
  rw [Triple.get_ofAxes, Triple.get_set]
  by_cases h : axis = other
  · subst h
    rw [hself, if_pos rfl]
    rfl
  · rw [hne other (Ne.symm h), if_neg h]
    rfl

/-- Assigning a text that means a value gathers this one value. -/
theorem assign_of_read? {key : OptionKey} {text : String} {value : key.Value}
    (h : key.read? text = some value) (o : Options) :
    o.assign key text = .ok (o.gathered (only key value)) := by
  cases key with
  | filename =>
    have hvalue : (if text = "" then none else some text) = value := Option.some.inj h
    unfold assign
    simp [hvalue, gathered, only_self, only_of_ne, ofAxes_get]
  | spatialReference =>
    have hvalue : readReference text = value := Option.some.inj h
    unfold assign
    simp [hvalue, gathered, only_self, only_of_ne, ofAxes_get]
  | extraDimensions =>
    have hvalue : ExtraDimension.parseList text = .ok value := by
      cases hparse : ExtraDimension.parseList text with
      | error e => simp [OptionKey.read?, hparse, Except.toOption] at h
      | ok dimensions => simpa [OptionKey.read?, hparse, Except.toOption] using h
    unfold assign
    simp [hvalue, gathered, only_self, only_of_ne, ofAxes_get, Except.map]
  | scale axis =>
    have hscale := ofAxes_of_only o.scale
      (f := fun other => only (.scale axis) value (.scale other))
      (only_self _ _) fun other hne => only_of_ne _ (by simpa using hne)
    simp only [OptionKey.read?] at h
    unfold assign
    simp [h, gathered, hscale, only_of_ne, ofAxes_get]
  | offset axis =>
    have hoffset := ofAxes_of_only o.offset
      (f := fun other => only (.offset axis) value (.offset other))
      (only_self _ _) fun other hne => only_of_ne _ (by simpa using hne)
    simp only [OptionKey.read?] at h
    unfold assign
    simp [h, gathered, hoffset, only_of_ne, ofAxes_get]
  | _ =>
    simp only [OptionKey.read?] at h
    unfold assign
    simp [h, gathered, only_self, only_of_ne, ofAxes_get]

/-- A text that means nothing for an option is refused, whatever the options are. -/
theorem assign_of_not_read? {key : OptionKey} {text : String} (h : key.read? text = none) :
    ∃ e, ∀ o : Options, o.assign key text = .error e := by
  cases key with
  | filename => cases h
  | spatialReference => cases h
  | extraDimensions =>
    cases hparse : ExtraDimension.parseList text with
    | error e =>
      exact ⟨e, fun o => by
        unfold assign
        simp [hparse, Except.map]⟩
    | ok dimensions => simp [OptionKey.read?, hparse, Except.toOption] at h
  | _ =>
    simp only [OptionKey.read?] at h
    exact ⟨_, fun o => by
      unfold assign
      simp only [h]
      rfl⟩

/-! ### One pair and many -/

/-- Setting an option by its name is assigning to it. -/
theorem set_name (o : Options) (key : OptionKey) (text : String) :
    o.set key.name text = o.assign key text := by
  rw [set, OptionKey.ofName?_name]

/-- Under a name is accepted what the text means for the option of the name. -/
theorem accepted_of_read? {key : OptionKey} {text : String} {value : key.Value}
    (h : key.read? text = some value) : accepted [(key.name, text)] = only key value := by
  funext other
  rw [OptionKey.accepted_singleton]
  split
  · next hname =>
    obtain rfl := OptionKey.name_injective hname
    rw [h, Option.toList_some, only_self]
  · next hname => exact (only_of_ne value fun heq => hname (congrArg _ heq.symm)).symm

/-- Nothing is accepted under a name if the text means nothing for any option that has it. -/
theorem accepted_eq_nil {name text : String}
    (h : ∀ key : OptionKey, name = key.name → key.read? text = none) :
    accepted [(name, text)] = fun _ => [] := by
  funext key
  rw [OptionKey.accepted_singleton]
  split
  · next hname => rw [h key hname, Option.toList_none]
  · rfl

/-- Setting the option of a name puts in what is accepted under the name. -/
theorem trySet_eq (o : Options) (name text : String) :
    o.trySet name text = o.gathered (accepted [(name, text)]) := by
  cases hname : OptionKey.ofName? name with
  | none =>
    have hunknown : ∀ key : OptionKey, name = key.name → key.read? text = none := by
      rintro key rfl
      rw [OptionKey.ofName?_name] at hname
      cases hname
    rw [accepted_eq_nil hunknown, gathered_nil, trySet, set, hname]
  | some key =>
    obtain rfl := OptionKey.name_of_ofName? hname
    cases hread : key.read? text with
    | none =>
      obtain ⟨e, hrefused⟩ := assign_of_not_read? hread
      have hnone : ∀ other : OptionKey, key.name = other.name → other.read? text = none := by
        intro other hother
        obtain rfl := OptionKey.name_injective hother
        exact hread
      rw [accepted_eq_nil hnone, gathered_nil, trySet, set_name, hrefused]
    | some value => rw [accepted_of_read? hread, trySet, set_name, assign_of_read? hread]

/-- **Setting options one after the other** puts in all values that are accepted. -/
theorem setAll_eq (o : Options) (pairs : List (String × String)) :
    o.setAll pairs = o.gathered (accepted pairs) := by
  induction pairs generalizing o with
  | nil => exact o.gathered_nil.symm
  | cons p pairs ih =>
    have hcons : accepted (p :: pairs) = fun key => accepted [p] key ++ accepted pairs key :=
      OptionKey.accepted_append [p] pairs
    calc o.setAll (p :: pairs) = (o.trySet p.1 p.2).setAll pairs := rfl
      _ = (o.gathered (accepted [p])).gathered (accepted pairs) := by rw [ih, trySet_eq]
      _ = o.gathered (accepted (p :: pairs)) := by rw [gathered_gathered, hcons]

/-- Options of different names can be set in any order. -/
theorem trySet_comm (o : Options) {name name' : String} (h : name ≠ name') (text text' : String) :
    (o.trySet name text).trySet name' text' = (o.trySet name' text').trySet name text := by
  have hswap : ∀ key, accepted [(name, text)] key ++ accepted [(name', text')] key =
      accepted [(name', text')] key ++ accepted [(name, text)] key := by
    intro key
    simp only [OptionKey.accepted_singleton]
    by_cases hname : name = key.name
    · have hother : name' ≠ key.name := fun hname' => h (hname.trans hname'.symm)
      rw [if_pos hname, if_neg hother, List.append_nil, List.nil_append]
    · rw [if_neg hname, List.append_nil, List.nil_append]
  rw [trySet_eq, trySet_eq, trySet_eq o name', trySet_eq _ name, gathered_gathered,
    gathered_gathered, funext hswap]

/-! ### What is accepted -/

/-- An option takes a text just if it means a value, whatever the options were before. -/
theorem exists_set_iff (o : Options) (key : OptionKey) (text : String) :
    (∃ next, o.set key.name text = .ok next) ↔ (key.read? text).isSome = true := by
  rw [set_name]
  cases hread : key.read? text with
  | none =>
    obtain ⟨e, hrefused⟩ := assign_of_not_read? hread
    simp [hrefused]
  | some value => simp [assign_of_read? hread]

/-- A name that no option has is passed over. -/
theorem set_of_unknown (o : Options) {name : String} (h : ∀ key : OptionKey, key.name ≠ name)
    (text : String) : o.set name text = .ok o := by
  cases hname : OptionKey.ofName? name with
  | none => rw [set, hname]
  | some key => exact absurd (OptionKey.name_of_ofName? hname).symm (h key)

/-- A refusal does not depend on the options. -/
theorem set_eq_error {o : Options} {name text : String} {e : Error} (h : o.set name text = .error e)
    (other : Options) : other.set name text = .error e := by
  cases hname : OptionKey.ofName? name with
  | none => simp [set, hname] at h
  | some key =>
    obtain rfl := OptionKey.name_of_ofName? hname
    rw [set_name] at h ⊢
    cases hread : key.read? text with
    | none =>
      obtain ⟨e', hrefused⟩ := assign_of_not_read? hread
      rw [hrefused] at h ⊢
      exact h
    | some value => simp [assign_of_read? hread] at h

/-- Scales that are set by name are scales. -/
theorem isScale_setAll {o : Options} (h : ∀ axis, isScale (o.scale.get axis) = true)
    (pairs : List (String × String)) (axis : Axis) :
    isScale ((o.setAll pairs).scale.get axis) = true := by
  have hvalue : (o.setAll pairs).scale.get axis =
      (accepted pairs (.scale axis)).getLast?.getD (o.scale.get axis) := by
    rw [setAll_eq, gathered, Triple.get_ofAxes]
  rw [hvalue]
  cases hlast : (accepted pairs (.scale axis)).getLast? with
  | none => exact h axis
  | some value =>
    obtain ⟨p, -, hread⟩ := List.mem_filterMap.mp (List.mem_of_getLast? hlast)
    have hscale : (readNumber? p.2).filter isScale = some value := hread
    exact (Option.filter_eq_some_iff.mp hscale).2

/-- Options whose scales are all scales are not refused for their values. -/
theorem checkOptions_ne_invalid {o : Options} (h : ∀ axis, isScale (o.scale.get axis) = true)
    (name text : String) : Writer.checkOptions o ≠ .error (.invalidOption name text) := by
  have hnone : (Axis.all.find? fun axis => !isScale (o.scale.get axis)) = none := by
    rw [List.find?_eq_none]
    intro axis _
    simp [h axis]
  rw [Writer.checkOptions, hnone]
  split <;> simp

/-- What can be said of options that are set by name. -/
structure SetByName (pairs : List (String × String)) : Prop where
  /-- Each field has its last accepted value, and all requests for records are there. -/
  gathered : usual.setAll pairs = usual.gathered (accepted pairs)
  /-- Whether a text is accepted is decided by the name alone. -/
  accepts : ∀ (o : Options) (key : OptionKey) (text : String),
    (∃ next, o.set key.name text = .ok next) ↔ (key.read? text).isSome = true
  /-- A name that no option has changes nothing. -/
  unknown : ∀ (o : Options) (name text : String), (∀ key : OptionKey, key.name ≠ name) →
    o.set name text = .ok o
  /-- A refused text changes nothing, since it is refused before any field is set, and it is refused
  by all options. -/
  refused : ∀ (o : Options) (name text : String) (e : Error), o.set name text = .error e →
    o.trySet name text = o ∧ ∀ other : Options, other.set name text = .error e
  /-- Different names are set in either order. -/
  comm : ∀ (o : Options) (name name' text text' : String), name ≠ name' →
    (o.trySet name text).trySet name' text' = (o.trySet name' text').trySet name text
  /-- Nothing that was accepted is found invalid later. -/
  configures : ∀ {σ : Type} (w : Writer σ) (name text : String),
    (w.configure (usual.setAll pairs)).result ≠ .error (.invalidOption name text)

/-- **Options set by name** have the last value that was accepted under each name, and all requests
for records that were; refused texts and unknown names change nothing.  What is accepted does not
depend on the options, the order of different names does not matter, and a writer that is configured
with such options finds no fault with their values. -/
theorem setByName (pairs : List (String × String)) : SetByName pairs where
  gathered := setAll_eq usual pairs
  accepts := exists_set_iff
  unknown := fun o _ text h => o.set_of_unknown h text
  refused := by
    intro o name text e h
    refine ⟨?_, set_eq_error h⟩
    rw [trySet, h]
  comm := fun o _ _ text text' h => o.trySet_comm h text text'
  configures := by
    intro σ w name text h
    have hscales := isScale_setAll (o := usual) (fun axis => by cases axis <;> decide) pairs
    have hcheck := checkOptions_ne_invalid hscales name text
    unfold Writer.configure at h
    split at h
    · split at h
      · cases h
      · next e hfault =>
        obtain rfl : e = .invalidOption name text := Except.error.inj h
        exact hcheck hfault
    · cases h

end Options

end PointCloud
