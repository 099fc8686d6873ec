import PointCloud.Box
import PointCloud.Decimal.Plain
import PointCloud.Decimal.Reading
import PointCloud.Error
import PointCloud.Text.Blank

/-!
# Boxes as text

A box is written as two or three intervals, `([x0, x1], [y0, y1], [z0, z1])`; a
flat box has no third one.  `Box.parse` reads what `Box.text` writes, with blanks
allowed around the intervals and the numbers, and takes a blank text for the box
of no point.  `Box.outline` is the other form, the outline in the plane as a
polygon with a given number of decimal places.

The intervals are read one after the other, however many there are, and counted
afterwards.  What stands behind an interval is shorter than what stood before it,
`length_of_readInterval?`, so the reading ends.
-/

namespace PointCloud.Box

/-- An interval between brackets. -/
def intervalText (low high : Double) : String :=
  s!"[{Decimal.plain low}, {Decimal.plain high}]"

/-- The intervals of a box. -/
def text (b : Box) : String :=
  let plane := s!"({intervalText b.min.x b.max.x}, {intervalText b.min.y b.max.y}"
  if b.hasZ then s!"{plane}, {intervalText b.min.z b.max.z})" else s!"{plane})"

/-- The outline of the box in the plane, with `places` decimals. -/
def outline (places : Nat) (b : Box) : String :=
  let x0 := Decimal.fixed places b.min.x
  let y0 := Decimal.fixed places b.min.y
  let x1 := Decimal.fixed places b.max.x
  let y1 := Decimal.fixed places b.max.y
  s!"POLYGON (({x0} {y0}, {x0} {y1}, {x1} {y1}, {x1} {y0}, {x0} {y0}))"

/-- The number in a text that may have blanks around it. -/
def readNumber? (cs : List Char) : Option Double := Decimal.read? (String.ofList (Text.trim cs))

/-- Reads an interval from the front of a text, and gives the text behind it. -/
def readInterval? : List Char → Option ((Double × Double) × List Char)
  | '[' :: rest => do
    let (inside, behind?) := Text.cut ']' rest
    let behind ← behind?
    let (low, high?) := Text.cut ',' inside
    let high ← high?
    some ((← readNumber? low, ← readNumber? high), behind)
  | _ => none

/-- What is read as an interval has the two brackets, the comma and two numbers. -/
theorem exists_of_readInterval? {cs behind : List Char} {interval : Double × Double}
    (h : readInterval? cs = some (interval, behind)) :
    ∃ low high, readNumber? low = some interval.1 ∧ readNumber? high = some interval.2 ∧
      cs = '[' :: (low ++ ',' :: (high ++ ']' :: behind)) := by
  unfold readInterval? at h
  split at h
  · next rest =>
    rcases hclose : Text.cut ']' rest with ⟨inside, behind?⟩
    rcases hcomma : Text.cut ',' inside with ⟨low, high?⟩
    simp only [hclose, hcomma, Option.bind_eq_bind, Option.bind_eq_some_iff, Option.some.injEq,
      Prod.mk.injEq] at h
    obtain ⟨_, rfl, high, rfl, x, hx, y, hy, rfl, rfl⟩ := h
    refine ⟨low, high, hx, hy, ?_⟩
    rw [(Text.cut_some hclose).1, (Text.cut_some hcomma).1, List.append_assoc, List.cons_append]
  · cases h

/-- An interval takes characters, so reading it ends. -/
theorem length_of_readInterval? {cs behind : List Char} {interval : Double × Double}
    (h : readInterval? cs = some (interval, behind)) : behind.length < cs.length := by
  obtain ⟨low, high, -, -, rfl⟩ := exists_of_readInterval? h
  simp only [List.length_cons, List.length_append]
  omega

/-- What stands behind the comma that follows an interval is shorter still. -/
theorem length_behind_comma {cs behind more : List Char} {interval : Double × Double}
    (h : readInterval? cs = some (interval, behind))
    (hcomma : Text.trimStart behind = ',' :: more) :
    (Text.trimStart more).length < cs.length := by
  have hread := length_of_readInterval? h
  have hbehind := Text.length_trimStart_le behind
  have hmore := Text.length_trimStart_le more
  rw [hcomma, List.length_cons] at hbehind
  omega

/-- Reads the intervals of a text up to its end, with a comma between each two of them.  The text
does not begin with a blank. -/
def readIntervals? (cs : List Char) : Option (List (Double × Double)) :=
  if cs = [] then some []
  else match hread : readInterval? cs with
    | none => none
    | some (interval, behind) =>
      match hcomma : Text.trimStart behind with
      | [] => some [interval]
      | ',' :: more =>
        have _ : (Text.trimStart more).length < cs.length := length_behind_comma hread hcomma
        if Text.trimStart more = [] then none
        else (readIntervals? (Text.trimStart more)).map (interval :: ·)
      | _ => none
termination_by cs.length

/-- The text between round brackets. -/
def inBrackets? : List Char → Option (List Char)
  | '(' :: rest => if rest.getLast? = some ')' then some rest.dropLast else none
  | _ => none

/-- The box of two or three intervals. -/
def ofIntervals? : List (Double × Double) → Option Box
  | [(x0, x1), (y0, y1)] => some (flat x0 y0 x1 y1)
  | [(x0, x1), (y0, y1), (z0, z1)] => some ⟨⟨x0, y0, z0⟩, ⟨x1, y1, z1⟩⟩
  | _ => none

/-- Reads a box from a text without blanks at its ends. -/
def readBox? (cs : List Char) : Option Box := do
  ofIntervals? (← readIntervals? (Text.trim (← inBrackets? cs)))

/-- Reads a box from text. -/
def parse (s : String) : Except Error Box :=
  let cs := Text.trim s.toList
  if cs = [] then .ok Box.nowhere
  else match readBox? cs with
    | some b => .ok b
    | none => .error (.invalidBox (String.ofList cs))

end PointCloud.Box
