import PointCloud.Options.Assign
import PointCloud.Proofs.Decimal.Digits
import PointCloud.Proofs.Text.Padding

/-!
# The texts of requests for records

A request for a record is a user id, a record id and a value with commas between
them, and possibly one more comma and a description.  `IsText` gives the texts of
a request by these parts, each between blanks, and says nothing about how they are
read.  The reader accepts exactly these texts, `parse?_eq_some_iff`.

Only three commas are cuts.  So a comma in one of the first three parts would move
everything behind it, and one in the description does no harm.
-/

namespace PointCloud

namespace Text

/-- The digits of a number, optionally behind a plus sign. -/
def IsNumeral (n : Nat) (cs : List Char) : Prop :=
  ∃ digits, Decimal.IsDigits digits ∧ digitsValue digits = n ∧
    (cs = digits ∨ cs = '+' :: digits)

/-- A text is read as a number just if it is a numeral of it. -/
theorem natural?_eq_some_iff {s : String} {n : Nat} :
    natural? s = some n ↔ IsNumeral n s.toList := by
  have hplus : ∀ digits, Decimal.IsDigits digits → dropPlus digits = digits := by
    intro digits hdigits
    unfold dropPlus
    split
    · next rest => exact absurd (hdigits.2 '+' List.mem_cons_self) (by decide)
    · rfl
  have hdrop : ∀ cs, cs = dropPlus cs ∨ cs = '+' :: dropPlus cs := by
    intro cs
    unfold dropPlus
    split
    · exact .inr rfl
    · exact .inl rfl
  simp only [natural?, List.all_eq_true, Option.ite_none_right_eq_some, Option.some.injEq]
  constructor
  · intro h
    exact ⟨dropPlus s.toList, h.1, h.2, hdrop s.toList⟩
  · intro h
    obtain ⟨digits, hdigits, hvalue, hcs⟩ := h
    have hrest : dropPlus s.toList = digits := by
      obtain hcs | hcs := hcs
      · rw [hcs, hplus digits hdigits]
      · rw [hcs]
        rfl
    rw [hrest]
    exact ⟨hdigits, hvalue⟩

/-- A text is read as a number of 16 bits just if it is a numeral of one. -/
theorem uint16?_eq_some_iff {s : String} {n : UInt16} :
    uint16? s = some n ↔ IsNumeral n.toNat s.toList := by
  rw [← natural?_eq_some_iff]
  simp only [uint16?, naturalBelow?, Option.map_eq_some_iff, Option.filter_eq_some_iff,
    decide_eq_true_eq]
  constructor
  · intro h
    obtain ⟨m, ⟨hm, hlt⟩, rfl⟩ := h
    rw [hm, UInt16.toNat_ofNat_of_lt' hlt]
  · intro h
    exact ⟨n.toNat, ⟨h, n.toNat_lt⟩, UInt16.ofNat_toNat⟩

/-- A numeral is made of digits, and of a plus sign perhaps. -/
theorem IsNumeral.isCharacter {n : Nat} {cs : List Char} (h : IsNumeral n cs) :
    ∀ c ∈ cs, c.isDigit = true ∨ c = '+' := by
  obtain ⟨digits, hdigits, -, rfl | rfl⟩ := h
  · exact fun c hc => .inl (hdigits.2 c hc)
  · exact List.forall_mem_cons.mpr ⟨.inr rfl, fun c hc => .inl (hdigits.2 c hc)⟩

/-- A numeral has no blanks at its ends. -/
theorem IsNumeral.isTrimmed {n : Nat} {cs : List Char} (h : IsNumeral n cs) : IsTrimmed cs := by
  refine trim_of_no_blank fun c hc => ?_
  obtain hdigit | rfl := h.isCharacter c hc
  · exact (Decimal.IsCharacter.of_isDigit hdigit).isBlank_eq_false
  · decide

/-- A numeral has no comma in it. -/
theorem IsNumeral.not_mem_comma {n : Nat} {cs : List Char} (h : IsNumeral n cs) : ',' ∉ cs := by
  intro hcomma
  have hcharacter := h.isCharacter ',' hcomma
  revert hcharacter
  decide

end Text

namespace VlrRequest

open Text (IsNumeral IsTrimmed Padded trim)

/-- A value in a text: without blanks at its ends and without commas. -/
structure IsValue (cs : List Char) : Prop where
  trimmed : IsTrimmed cs
  no_comma : ',' ∉ cs

/-- A user id in a text: like a value, but not empty. -/
structure IsUserId (cs : List Char) : Prop extends IsValue cs where
  ne_nil : cs ≠ []

/-- The request for a record.  The value is the word that asks for forwarding, in any case, or it is
the data. -/
def ofTexts (userId : List Char) (recordId : UInt16) (value description : List Char) : VlrRequest :=
  if Text.lower value = "forward".toList then
    ⟨String.ofList userId, recordId, String.ofList description, "", true⟩
  else ⟨String.ofList userId, recordId, String.ofList description, String.ofList value, false⟩

/-- The texts of a request: its parts with commas between them and blanks around each.  Without a
description the last comma may be left out. -/
inductive IsText : VlrRequest → List Char → Prop
  | brief {userId value : List Char} {recordId : UInt16} {a b c : List Char}
    (huser : IsUserId userId) (hvalue : IsValue value)
    (ha : Padded (· = userId) a) (hb : Padded (IsNumeral recordId.toNat) b)
    (hc : Padded (· = value) c) :
    IsText (ofTexts userId recordId value []) (a ++ ',' :: (b ++ ',' :: c))
  | described {userId value description : List Char} {recordId : UInt16} {a b c d : List Char}
    (huser : IsUserId userId) (hvalue : IsValue value) (hdescription : IsTrimmed description)
    (ha : Padded (· = userId) a) (hb : Padded (IsNumeral recordId.toNat) b)
    (hc : Padded (· = value) c) (hd : Padded (· = description) d) :
    IsText (ofTexts userId recordId value description)
      (a ++ ',' :: (b ++ ',' :: (c ++ ',' :: d)))

/-! ### The parts of a text -/

/-- With a cut left, a text is cut at its first comma. -/
theorem go_succ_of_comma {piece : List Char} (h : ',' ∉ piece) (n : Nat) (behind : List Char) :
    parts.go (n + 1) (piece ++ ',' :: behind) =
      String.ofList (trim piece) :: parts.go n behind := by
  rw [parts.go, Text.cut_append h]

/-- A text without a comma is one part. -/
theorem go_succ_of_no_comma {cs : List Char} (h : ',' ∉ cs) (n : Nat) :
    parts.go (n + 1) cs = [String.ofList (trim cs)] := by
  rw [parts.go, Text.cut_of_not_mem h]

theorem go_ne_nil (n : Nat) (cs : List Char) : parts.go n cs ≠ [] := by
  cases n with
  | zero => exact List.cons_ne_nil _ _
  | succ n =>
    rw [parts.go]
    split <;> exact List.cons_ne_nil _ _

/-- There is another part only behind a comma. -/
theorem exists_of_go_succ {n : Nat} {cs : List Char} {part next : String} {rest : List String}
    (h : parts.go (n + 1) cs = part :: next :: rest) :
    ∃ piece behind, ',' ∉ piece ∧ cs = piece ++ ',' :: behind ∧
      part = String.ofList (trim piece) ∧ parts.go n behind = next :: rest := by
  rw [parts.go] at h
  split at h
  · cases h
  · next piece behind hcut =>
    obtain ⟨hcs, hcomma⟩ := Text.cut_some hcut
    obtain ⟨hpart, hrest⟩ := List.cons.inj h
    exact ⟨piece, behind, hcomma, hcs, hpart.symm, hrest⟩

/-- The last part has a comma only if there are no cuts left. -/
theorem no_comma_of_go_succ {n : Nat} {cs : List Char} {part : String}
    (h : parts.go (n + 1) cs = [part]) : ',' ∉ cs ∧ part = String.ofList (trim cs) := by
  rw [parts.go] at h
  split at h
  · next piece hcut =>
    obtain ⟨rfl, hcomma⟩ := Text.cut_none hcut
    exact ⟨hcomma, (List.cons.inj h).1.symm⟩
  · exact absurd (List.cons.inj h).2 (go_ne_nil _ _)

/-! ### The request of the parts -/

/-- The word that asks for metadata may be written in any case. -/
theorem asksForward_iff {s : String} :
    Setting.asksForward s = true ↔ Text.lower s.toList = "forward".toList := by
  rw [Setting.asksForward, Text.sameIgnoringCase_iff]
  rfl

/-- Parts make a request if there is a user id and the record id is a number of sixteen bits. -/
theorem ofParts?_eq_some_iff {userId recordId data description : String} {r : VlrRequest} :
    ofParts? userId recordId data description = some r ↔
      userId ≠ "" ∧ ∃ n : UInt16, IsNumeral n.toNat recordId.toList ∧
        ofTexts userId.toList n data.toList description.toList = r := by
  have hrequest : ∀ n : UInt16, ofTexts userId.toList n data.toList description.toList =
      ⟨userId, n, description, if Setting.asksForward data then "" else data,
        Setting.asksForward data⟩ := by
    intro n
    simp only [ofTexts, ← asksForward_iff, String.ofList_toList]
    cases Setting.asksForward data <;> rfl
  simp only [ofParts?, Option.bind_eq_bind, Option.bind_eq_some_iff, hrequest,
    Text.uint16?_eq_some_iff]
  by_cases hempty : userId = ""
  · simp [hempty]
  · simp [hempty]

/-! ### Reading -/

/-- What is left of a part without blanks is a value. -/
theorem isValue_trim {cs : List Char} (hcomma : ',' ∉ cs) : IsValue (trim cs) where
  trimmed := Text.isTrimmed_trim cs
  no_comma := fun h => hcomma (Text.mem_of_mem_trim h)

/-- It is a user identifier if anything is left. -/
theorem isUserId_trim {cs : List Char} (hempty : String.ofList (trim cs) ≠ "") (hcomma : ',' ∉ cs) :
    IsUserId (trim cs) where
  toIsValue := isValue_trim hcomma
  ne_nil := by
    intro hnil
    rw [hnil] at hempty
    exact hempty rfl

theorem padded_trim (cs : List Char) : Padded (· = trim cs) cs :=
  (Text.padded_eq_iff (Text.isTrimmed_trim cs)).mpr rfl

/-- A numeral with blanks around it is one that is left without them. -/
theorem padded_isNumeral_iff {n : Nat} {cs : List Char} :
    Padded (IsNumeral n) cs ↔ IsNumeral n (trim cs) :=
  Text.padded_iff_of_isTrimmed fun _ h => h.isTrimmed

theorem no_comma_of_padded {core cs : List Char} (h : Padded (· = core) cs) (hcomma : ',' ∉ core) :
    ',' ∉ cs :=
  h.not_mem (by decide) fun _ heq => heq ▸ hcomma

theorem no_comma_of_numeral {n : Nat} {cs : List Char} (h : Padded (IsNumeral n) cs) : ',' ∉ cs :=
  h.not_mem (by decide) fun _ hcore => hcore.not_mem_comma

/-- What is read is a request with this text. -/
theorem isText_of_parse? {s : String} {r : VlrRequest} (h : parse? s = some r) :
    IsText r s.toList := by
  unfold parse? at h
  split at h
  · next userId recordId data hparts =>
    obtain ⟨a, _, ha, hs, rfl, hbehind⟩ := exists_of_go_succ hparts
    obtain ⟨b, c, hb, rfl, rfl, hlast⟩ := exists_of_go_succ hbehind
    obtain ⟨hc, rfl⟩ := no_comma_of_go_succ hlast
    obtain ⟨hempty, n, hnumeral, rfl⟩ := ofParts?_eq_some_iff.mp h
    simp only [String.toList_ofList] at hnumeral ⊢
    rw [hs]
    exact .brief (isUserId_trim hempty ha) (isValue_trim hc) (padded_trim a)
      (padded_isNumeral_iff.mpr hnumeral) (padded_trim c)
  · next userId recordId data description hparts =>
    obtain ⟨a, _, ha, hs, rfl, hbehind⟩ := exists_of_go_succ hparts
    obtain ⟨b, _, hb, rfl, rfl, hbehind'⟩ := exists_of_go_succ hbehind
    obtain ⟨c, d, hc, rfl, rfl, hlast⟩ := exists_of_go_succ hbehind'
    -- No cuts are left, so the description is the rest of the text.
    obtain rfl : String.ofList (trim d) = description := (List.cons.inj hlast).1
    obtain ⟨hempty, n, hnumeral, rfl⟩ := ofParts?_eq_some_iff.mp h
    simp only [String.toList_ofList] at hnumeral ⊢
    rw [hs]
    exact .described (isUserId_trim hempty ha) (isValue_trim hc) (Text.isTrimmed_trim d)
      (padded_trim a) (padded_isNumeral_iff.mpr hnumeral) (padded_trim c) (padded_trim d)
  · cases h

/-- Every text of a request is read. -/
theorem IsText.parse? {s : String} {r : VlrRequest} (h : IsText r s.toList) :
    VlrRequest.parse? s = some r := by
  generalize hs : s.toList = cs at h
  cases h with
  | @brief userId value n a b c huser hvalue ha hb hc =>
    have hparts : parts s.toList = [String.ofList userId, String.ofList (trim b),
        String.ofList value] := by
      rw [hs, parts, go_succ_of_comma (no_comma_of_padded ha huser.no_comma),
        go_succ_of_comma (no_comma_of_numeral hb),
        go_succ_of_no_comma (no_comma_of_padded hc hvalue.no_comma),
        (Text.padded_eq_iff huser.trimmed).mp ha, (Text.padded_eq_iff hvalue.trimmed).mp hc]
    rw [VlrRequest.parse?, hparts]
    refine ofParts?_eq_some_iff.mpr ⟨?_, n, ?_, ?_⟩
    · simpa using huser.ne_nil
    · simpa using padded_isNumeral_iff.mp hb
    · simp
  | @described userId value description n a b c d huser hvalue hdescription ha hb hc hd =>
    have hparts : parts s.toList = [String.ofList userId, String.ofList (trim b),
        String.ofList value, String.ofList description] := by
      rw [hs, parts, go_succ_of_comma (no_comma_of_padded ha huser.no_comma),
        go_succ_of_comma (no_comma_of_numeral hb),
        go_succ_of_comma (no_comma_of_padded hc hvalue.no_comma), parts.go,
        (Text.padded_eq_iff huser.trimmed).mp ha, (Text.padded_eq_iff hvalue.trimmed).mp hc,
        (Text.padded_eq_iff hdescription).mp hd]
    rw [VlrRequest.parse?, hparts]
    refine ofParts?_eq_some_iff.mpr ⟨?_, n, ?_, ?_⟩
    · simpa using huser.ne_nil
    · simpa using padded_isNumeral_iff.mp hb
    · simp

/-- A request is read from its texts, and from no other. -/
theorem parse?_eq_some_iff {s : String} {r : VlrRequest} :
    parse? s = some r ↔ IsText r s.toList := ⟨isText_of_parse?, IsText.parse?⟩

/-- A comma behind the third one belongs to the description. -/
example : parse? " survey,+42 ,Forward, one, two " = some ⟨"survey", 42, "one, two", "", true⟩ := by
  decide +kernel

/-- A text that is none of a request is refused. -/
theorem parse?_eq_none {s : String} (h : ∀ r, ¬ IsText r s.toList) : parse? s = none := by
  rw [Option.eq_none_iff_forall_ne_some]
  exact fun r hr => h r (isText_of_parse? hr)

/-- The option for a record reads a request. -/
theorem set_vlr (o : Options) (s : String) :
    o.set "vlr" s = (parse? s).elim (.error (.invalidOption "vlr" s))
      fun r => .ok { o with records := o.records ++ [r] } := by
  have hset : o.set "vlr" s = o.assign .record s := rfl
  rw [hset]
  unfold Options.assign
  cases parse? s <;> rfl

/-- What can be said of the texts of requests. -/
structure ReadFromTexts : Prop where
  /-- A request is read from its texts, and from no other text. -/
  parse : ∀ (s : String) (r : VlrRequest), parse? s = some r ↔ IsText r s.toList
  /-- Every record id can be written, with the digits of its decimal. -/
  numeral : ∀ n : UInt16, IsNumeral n.toNat (Decimal.digitsText n.toNat)
  /-- A request that is read is asked of the writer after those before it. -/
  accepted : ∀ (o : Options) (s : String) (r : VlrRequest), IsText r s.toList →
    o.set "vlr" s = .ok { o with records := o.records ++ [r] }
  /-- A text of no request is refused, with the whole text. -/
  refused : ∀ (o : Options) (s : String), (∀ r, ¬ IsText r s.toList) →
    o.set "vlr" s = .error (.invalidOption "vlr" s)

/-- **Requests for records are read from their texts.**  A user id that is not empty, a record id,
a value and, if there is one more comma, a description, with blanks around each, make a request of
exactly these parts; every text that is accepted is of this form, and every other one is refused. -/
theorem readFromTexts : ReadFromTexts where
  parse := fun _ _ => parse?_eq_some_iff
  numeral := fun n =>
    ⟨_, Decimal.isDigits_digitsText n.toNat, Decimal.digitsValue_digitsText n.toNat, .inl rfl⟩
  accepted := by
    intro o s r h
    rw [set_vlr, h.parse?]
    rfl
  refused := by
    intro o s h
    rw [set_vlr, parse?_eq_none h]
    rfl

end VlrRequest

end PointCloud
