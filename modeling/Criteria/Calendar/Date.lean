import Criteria.Text.Digit
import Criteria.Number.Exact

/-!
# Dates

A date of the proleptic Gregorian calendar, its ISO text `YYYY-MM-DD`, and the number of days
since the first of March of the year zero, which orders dates and counts across months.
-/

namespace Criteria.Calendar

structure Date where
  year : Nat
  month : Nat
  day : Nat
  deriving DecidableEq

/-- A number in at least `width` digits. -/
def padded (width n : Nat) : List Char :=
  let ds := Number.digits n
  List.replicate (width - ds.length) '0' ++ ds

/-- A number of exactly `width` digits at the front of a text, and what follows it. -/
def readPadded? (width : Nat) (cs : List Char) : Option (Nat × List Char) :=
  let ds := (cs.take width).filterMap Text.asciiDigit?
  if ds.length = width then some (Text.ofDigits 10 ds, cs.drop width) else none

/-- What follows a given character at the front of a text. -/
def skip? (c : Char) : List Char → Option (List Char)
  | d :: rest => if d = c then some rest else none
  | [] => none

namespace Date

/-- The date as `YYYY-MM-DD`. -/
def isoChars (d : Date) : List Char :=
  padded 4 d.year ++ '-' :: (padded 2 d.month ++ '-' :: padded 2 d.day)

/-- The date as `YYYY-MM-DD`. -/
def iso (d : Date) : String := String.ofList d.isoChars

/-- A date at the front of a text, and what follows it. -/
def read? (cs : List Char) : Option (Date × List Char) := do
  let (year, cs) ← readPadded? 4 cs
  let cs ← skip? '-' cs
  let (month, cs) ← readPadded? 2 cs
  let cs ← skip? '-' cs
  let (day, cs) ← readPadded? 2 cs
  return (⟨year, month, day⟩, cs)

/-- The date that a text writes as `YYYY-MM-DD`. -/
def ofIso? (s : String) : Option Date :=
  match read? s.toList with
  | some (d, []) => some d
  | _ => none

/-- Days since the first of March of the year zero.  Counting years from March puts the leap day
at the end of a year, so the days before a month depend on the month alone. -/
def dayNumber (d : Date) : Int :=
  let year : Int := if d.month ≤ 2 then d.year - 1 else d.year
  let month : Int := if d.month ≤ 2 then d.month + 9 else d.month - 3
  365 * year + year.fdiv 4 - year.fdiv 100 + year.fdiv 400 + (153 * month + 2).fdiv 5 + d.day - 1

/-- The order of two dates in time. -/
def compare (a b : Date) : Ordering :=
  ((Ord.compare a.year b.year).then (Ord.compare a.month b.month)).then (Ord.compare a.day b.day)

end Date

end Criteria.Calendar
