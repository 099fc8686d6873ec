import PointCloud.ExtraDimension
import PointCloud.Proofs.Results
import PointCloud.Proofs.Tables.Scalars
import PointCloud.Proofs.Text.Padding

/-!
# Lists of extra dimensions, shown and read again

What is read from a list of requests is shown again as a list, `listText`.  The
names come back from it, whatever they are: `IsListed` says what a name cannot have
in it once it was read.  The types do not, since the name under which a whole type
is shown is none of those under which it may be asked for; only the two floating
types have theirs among them.  So a list that was read is read again from the way it
is shown if and only if no request in it has a whole type, and otherwise the first
such request is refused.
-/

namespace PointCloud

namespace Text

/-- Parting a text goes on as the library parts a list. -/
theorem splitOn_eq (separator : Char) (cs : List Char) :
    splitOn separator cs = cs.splitOn separator := by
  induction cs with
  | nil => rfl
  | cons c cs ih =>
    have hcons : splitOn separator (c :: cs) =
        if c = separator then [] :: splitOn separator cs
        else (splitOn separator cs).modifyHead (c :: ·) := by
      have hne := splitOn_ne_nil separator cs
      rw [splitOn, List.foldr_cons, ← splitOn]
      split
      · rfl
      · cases hparts : splitOn separator cs with
        | nil => exact absurd hparts hne
        | cons part rest => rfl
    simp only [hcons, ih, List.splitOn_cons_eq_if_modifyHead, beq_iff_eq]

/-- There is no separator left in the parts. -/
theorem not_mem_of_mem_splitOn {separator : Char} {cs part : List Char}
    (h : part ∈ splitOn separator cs) : separator ∉ part := by
  induction cs generalizing part with
  | nil =>
    rw [splitOn_nil, List.mem_singleton] at h
    rw [h]
    exact List.not_mem_nil
  | cons c cs ih =>
    rw [splitOn_eq, List.splitOn_cons_eq_if_modifyHead, ← splitOn_eq] at h
    split at h
    · obtain rfl | h := List.mem_cons.mp h
      · exact List.not_mem_nil
      · exact ih h
    · next hc =>
      obtain ⟨first, rest, hparts⟩ := List.exists_cons_of_ne_nil (splitOn_ne_nil separator cs)
      rw [hparts] at h ih
      obtain rfl | h := List.mem_cons.mp h
      · have hfirst : separator ∉ first := ih List.mem_cons_self
        simp only [beq_iff_eq] at hc
        simp [hfirst, Ne.symm hc]
      · exact ih (List.mem_cons_of_mem _ h)

end Text

namespace Scalar

/-- The name under which a whole type is shown is no name of a type. -/
theorem ofName?_name_of_isWhole {t : Scalar} (h : t.IsWhole) : ofName? t.name = none := by
  cases t with
  | float => exact absurd rfl h.1
  | double => exact absurd rfl h.2
  | _ => decide +kernel

/-- A floating type has the name under which it is shown. -/
theorem ofName?_name_of_not_isWhole {t : Scalar} (h : ¬ t.IsWhole) : ofName? t.name = some t := by
  cases t with
  | float => decide +kernel
  | double => decide +kernel
  | _ => exact absurd ⟨by decide, by decide⟩ h

theorem trimmed_name (t : Scalar) : Text.trimmed t.name = t.name := by
  cases t <;> decide +kernel

/-- The name of a type has no comma in it. -/
theorem comma_not_mem_name (t : Scalar) : ',' ∉ t.name.toList := by
  cases t <;> decide +kernel

end Scalar

namespace ExtraDimension

open Text (Blanks IsTrimmed)

/-- The requests as one text, with commas between them. -/
def listText (ds : List ExtraDimension) : String := ",".intercalate (ds.map text)

/-- A request that can come of a list: its name has no blanks at its ends and no character that
parts the list or the request, and is not empty if there is no type. -/
structure IsListed (d : ExtraDimension) : Prop where
  trimmed : IsTrimmed d.name.toList
  no_comma : ',' ∉ d.name.toList
  no_equals : '=' ∉ d.name.toList
  named : d.scalar = none → d.name ≠ ""

/-- A request for the type of the table, or for a floating type. -/
def HasNoWholeType (d : ExtraDimension) : Prop := ∀ t, d.scalar = some t → ¬ t.IsWhole

/-! ### What comes of a list -/

/-- What is read from a text without commas that is not blank. -/
theorem isListed_of_parse {cs : List Char} {d : ExtraDimension} (h : parse cs = .ok d)
    (hcomma : ',' ∉ cs) (hblanks : ¬ Blanks cs) : d.IsListed := by
  rcases hcut : Text.cut '=' cs with ⟨name, typeName?⟩
  rw [parse, hcut] at h
  cases typeName? with
  | none =>
    obtain ⟨rfl, hequals⟩ := Text.cut_none hcut
    obtain rfl := Except.ok.inj h
    refine ⟨?_, ?_, ?_, fun _ hempty => hblanks ?_⟩
    · simpa using Text.isTrimmed_trim name
    · simpa using fun hmem => hcomma (Text.mem_of_mem_trim hmem)
    · simpa using fun hmem => hequals (Text.mem_of_mem_trim hmem)
    · simpa [Text.trim_eq_nil_iff] using congrArg String.toList hempty
  | some typeName =>
    obtain ⟨hcs, hequals⟩ := Text.cut_some hcut
    have hname : ',' ∉ name := fun hmem => hcomma (hcs ▸ List.mem_append_left _ hmem)
    cases htype : Scalar.ofName? (String.ofList (Text.trim typeName)) with
    | none => simp [htype] at h
    | some t =>
      simp only [htype, Except.ok.injEq] at h
      subst h
      refine ⟨?_, ?_, ?_, nofun⟩
      · simpa using Text.isTrimmed_trim name
      · simpa using fun hmem => hname (Text.mem_of_mem_trim hmem)
      · simpa using fun hmem => hequals (Text.mem_of_mem_trim hmem)

/-- Every request that is read from a list is one that can come of a list. -/
theorem isListed_of_parseList {s : String} {ds : List ExtraDimension} (h : parseList s = .ok ds) :
    ∀ d ∈ ds, d.IsListed := by
  intro d hd
  obtain ⟨cs, hcs, hparse⟩ := (Except.mapM_eq_ok_iff.mp h).exists_left hd
  obtain ⟨hpart, hblanks⟩ := List.mem_filter.mp hcs
  refine isListed_of_parse hparse (Text.not_mem_of_mem_splitOn hpart) fun hall => ?_
  simp [List.all_eq_true.mpr hall] at hblanks

/-! ### One request, shown and read again -/

/-- A request for a type is shown with an equals sign in front of the type. -/
theorem toList_text_of_type (name : String) (t : Scalar) :
    (text ⟨name, some t⟩).toList = name.toList ++ '=' :: t.name.toList := by
  have htext : text ⟨name, some t⟩ = name ++ "=" ++ t.name := rfl
  rw [htext, String.toList_append, String.toList_append, List.append_assoc]
  rfl

/-- With a type, the name of the type as it is shown decides. -/
theorem parse_text_of_type {name : String} {t : Scalar} (h : IsListed ⟨name, some t⟩) :
    parse (text ⟨name, some t⟩).toList =
      (Scalar.ofName? t.name).elim (.error (.unknownScalar name t.name))
        fun u => .ok ⟨name, some u⟩ := by
  have hname : Text.trim name.toList = name.toList := h.trimmed
  have htype : String.ofList (Text.trim t.name.toList) = t.name := t.trimmed_name
  rw [toList_text_of_type, parse, Text.cut_append h.no_equals]
  simp only [hname, htype, String.ofList_toList]
  cases Scalar.ofName? t.name <;> rfl

/-- A request without a whole type is read from its own text. -/
theorem parse_shown {d : ExtraDimension} (h : d.IsListed) (hd : d.HasNoWholeType) :
    parse d.text.toList = .ok d := by
  obtain ⟨name, scalar⟩ := d
  cases scalar with
  | none =>
    have hname : Text.trim name.toList = name.toList := h.trimmed
    rw [text, parse, Text.cut_of_not_mem h.no_equals]
    simp only [hname, String.ofList_toList]
  | some t =>
    rw [parse_text_of_type h, Scalar.ofName?_name_of_not_isWhole (hd t rfl)]
    rfl

/-- A request for a whole type is refused. -/
theorem parse_text_of_isWhole {d : ExtraDimension} {t : Scalar} (h : d.IsListed)
    (ht : d.scalar = some t) (hwhole : t.IsWhole) :
    parse d.text.toList = .error (.unknownScalar d.name t.name) := by
  obtain ⟨name, scalar⟩ := d
  obtain rfl : scalar = some t := ht
  rw [parse_text_of_type h, Scalar.ofName?_name_of_isWhole hwhole]
  rfl

/-- A request that can come of a list is shown without a comma. -/
theorem comma_not_mem_text {d : ExtraDimension} (h : d.IsListed) : ',' ∉ d.text.toList := by
  obtain ⟨name, scalar⟩ := d
  cases scalar with
  | none => exact h.no_comma
  | some t =>
    rw [toList_text_of_type]
    simp [h.no_comma, t.comma_not_mem_name]

/-- What is shown is not blank, so it is not skipped. -/
theorem not_blanks_text {d : ExtraDimension} (h : d.IsListed) : ¬ Blanks d.text.toList := by
  obtain ⟨name, scalar⟩ := d
  intro hblanks
  cases scalar with
  | none =>
    have hname : Text.trim name.toList = name.toList := h.trimmed
    have hnil : name.toList = [] := by
      rw [← hname]
      exact Text.trim_eq_nil_iff.mpr hblanks
    exact h.named rfl (String.toList_eq_nil_iff.mp hnil)
  | some t =>
    have hequals : '=' ∈ (text ⟨name, some t⟩).toList := by
      rw [toList_text_of_type]
      exact List.mem_append_right _ List.mem_cons_self
    exact absurd (hblanks '=' hequals) (by decide)

/-! ### Lists -/

/-- The parts of the text of a list are the texts of its requests. -/
theorem splitOn_listText {ds : List ExtraDimension} (h : ∀ d ∈ ds, d.IsListed) (hne : ds ≠ []) :
    Text.splitOn ',' (listText ds).toList = ds.map fun d => d.text.toList := by
  have hlist : (listText ds).toList = [','].intercalate (ds.map fun d => d.text.toList) := by
    rw [listText, String.toList_intercalate, List.map_map]
    rfl
  rw [hlist, Text.splitOn_eq]
  refine List.splitOn_intercalate ',' ?_ (by simpa using hne)
  intro part hpart
  obtain ⟨d, hd, rfl⟩ := List.mem_map.mp hpart
  exact comma_not_mem_text (h d hd)

/-- The text of a list is read by reading the texts of its requests, one after the other. -/
theorem parseList_listText {ds : List ExtraDimension} (h : ∀ d ∈ ds, d.IsListed) :
    parseList (listText ds) = ds.mapM fun d => parse d.text.toList := by
  by_cases hne : ds = []
  · rw [hne]
    rfl
  · have hkept : (ds.map fun d => d.text.toList).filter (fun cs => !cs.all Text.isBlank) =
        ds.map fun d => d.text.toList := by
      rw [List.filter_eq_self]
      intro part hpart
      obtain ⟨d, hd, rfl⟩ := List.mem_map.mp hpart
      have hblanks : d.text.toList.all Text.isBlank = false := by
        rw [← Bool.not_eq_true, List.all_eq_true]
        exact not_blanks_text (h d hd)
      rw [hblanks, Bool.not_false]
    rw [parseList, splitOn_listText h hne, hkept, List.mapM_map, Function.comp_def]

/-- What becomes of a list that is shown and read again. -/
structure ReadAgain (ds : List ExtraDimension) : Prop where
  /-- The same list comes back exactly if no request has a whole type. -/
  same : parseList (listText ds) = .ok ds ↔ ∀ d ∈ ds, d.HasNoWholeType
  /-- Otherwise the first request with a whole type is refused, under its name and that of its
  type. -/
  refused : ∀ before d after t, ds = before ++ d :: after → (∀ e ∈ before, e.HasNoWholeType) →
    d.scalar = some t → t.IsWhole → parseList (listText ds) = .error (.unknownScalar d.name t.name)

/-- **A list of extra dimensions** that was read from a text, shown and read again, is the same
list if and only if no whole type is asked for in it; the first request for one is refused. -/
theorem readAgain_of_parseList {s : String} {ds : List ExtraDimension}
    (h : parseList s = .ok ds) : ReadAgain ds := by
  have hlisted := isListed_of_parseList h
  have hread := parseList_listText hlisted
  constructor
  · rw [hread, Except.mapM_eq_ok_iff, List.forall₂_same]
    constructor
    · intro hsame d hd t ht hwhole
      have hrefused := parse_text_of_isWhole (hlisted d hd) ht hwhole
      rw [hsame d hd] at hrefused
      cases hrefused
    · exact fun hnone d hd => parse_shown (hlisted d hd) (hnone d hd)
  · intro before d after t hds hbefore ht hwhole
    subst hds
    have hfront : before.mapM (fun d => parse d.text.toList) = .ok before := by
      rw [Except.mapM_eq_ok_iff, List.forall₂_same]
      exact fun e he => parse_shown (hlisted e (List.mem_append_left _ he)) (hbefore e he)
    have hd := parse_text_of_isWhole (hlisted d (by simp)) ht hwhole
    rw [hread, List.mapM_append, hfront, List.mapM_cons, hd]
    rfl

/-- A list with a type of its own for one dimension is shown and read again. -/
theorem readAgain_of_parseList_floating :
    parseList "Amplitude, Reflectance = float" =
      .ok [⟨"Amplitude", none⟩, ⟨"Reflectance", some .float⟩] ∧
    ReadAgain [⟨"Amplitude", none⟩, ⟨"Reflectance", some .float⟩] := by
  have hread : parseList "Amplitude, Reflectance = float" =
      .ok [⟨"Amplitude", none⟩, ⟨"Reflectance", some .float⟩] := by decide +kernel
  exact ⟨hread, readAgain_of_parseList hread⟩

/-- A request for numbers of sixteen bits is shown in a form that is not read. -/
theorem whole_type_not_read_again :
    parseList "A=uint16" = .ok [⟨"A", some .unsigned16⟩] ∧
    listText [⟨"A", some .unsigned16⟩] = "A=Unsigned16" ∧
    parseList "A=Unsigned16" = .error (.unknownScalar "A" "Unsigned16") := by
  decide +kernel

end ExtraDimension

end PointCloud
