import PointCloud.Log

/-!
# Return numbers

A laser pulse comes back as several returns, and a point says which return it is
and how many there were.  A record format has room for a limited number of them.
`Returns.verdict` decides from a point's two numbers whether the point is written
and with which count, and `Returns.complaints` lists what is wrong with them.

Nothing that is wrong stops a writer.  The first complaint of a kind is a
warning and every later one a debug message; a `Returns.Tally` counts the
complaints for that purpose, and for the totals at the end.
-/

namespace PointCloud.Returns

/-- Which of the two numbers a complaint is about. -/
inductive Complaint where
  | returnNumber (value : UInt8)
  | numberOfReturns (value : UInt8)
  deriving Repr, DecidableEq

/-- What is to be done with a point. -/
inductive Verdict where
  /-- it is written with this number of returns -/
  | keep (numberOfReturns : UInt8)
  /-- it is left out -/
  | discard
  deriving Repr, DecidableEq

/-- The limit of the format, and whether points beyond it are left out. -/
structure Policy where
  max : UInt8
  discardHigh : Bool
  deriving Repr, DecidableEq

/-- What is to be done with a point of the given numbers. -/
def verdict (p : Policy) (returnNumber numberOfReturns : UInt8) : Verdict :=
  if p.max < numberOfReturns ∧ p.discardHigh then
    if p.max < returnNumber then .discard else .keep p.max
  else .keep numberOfReturns

/-- What is wrong with the given numbers. -/
def complaints (p : Policy) (returnNumber numberOfReturns : UInt8) : List Complaint :=
  (if returnNumber < 1 ∨ p.max < returnNumber then [.returnNumber returnNumber] else []) ++
  (if numberOfReturns = 0 then [.numberOfReturns 0] else []) ++
  (if p.max < numberOfReturns ∧ p.discardHigh = false then [.numberOfReturns numberOfReturns]
   else [])

/-- How often each kind of complaint has come up.  The counts have no limit here; where they are
kept in 64 bits, they agree with these below 2 ^ 64 complaints of a kind. -/
structure Tally where
  returnNumbers : Nat
  numbersOfReturns : Nat
  deriving Repr, DecidableEq

namespace Tally

/-- No complaint yet. -/
def zero : Tally := ⟨0, 0⟩

/-- Counts a complaint. -/
def count (t : Tally) : Complaint → Tally
  | .returnNumber _ => { t with returnNumbers := t.returnNumbers + 1 }
  | .numberOfReturns _ => { t with numbersOfReturns := t.numbersOfReturns + 1 }

/-- How a complaint is put, given the complaints before it. -/
def entry (t : Tally) (max : UInt8) : Complaint → LogEntry
  | .returnNumber value =>
    if t.returnNumbers = 0 then
      .warn s!"invalid return number {value.toNat} (valid range is 1 to {max.toNat})"
    else .debug s!"invalid return number {value.toNat}"
  | .numberOfReturns value =>
    if t.numbersOfReturns = 0 then
      .warn s!"invalid number of returns {value.toNat} (valid range is 1 to {max.toNat})"
    else .debug s!"invalid number of returns {value.toNat}"

/-- Counts complaints. -/
def countAll (t : Tally) (cs : List Complaint) : Tally := cs.foldl count t

/-- The messages for complaints that come up after those already counted: at most one warning of
each kind. -/
def entries (t : Tally) (max : UInt8) (cs : List Complaint) : List LogEntry :=
  (cs.foldl (fun (state : Tally × List LogEntry) c =>
    (state.1.count c, state.1.entry max c :: state.2)) (t, [])).2.reverse

/-- The totals, for each kind that came up more than once. -/
def report (t : Tally) : List LogEntry :=
  (if 1 < t.returnNumbers then
    [.warn s!"{t.returnNumbers} points had an invalid return number"] else []) ++
  (if 1 < t.numbersOfReturns then
    [.warn s!"{t.numbersOfReturns} points had an invalid number of returns"] else [])

/-- Complaints may be counted in two goes. -/
theorem countAll_append (t : Tally) (cs ds : List Complaint) :
    t.countAll (cs ++ ds) = (t.countAll cs).countAll ds := by
  simp [countAll]

end Tally

end PointCloud.Returns
