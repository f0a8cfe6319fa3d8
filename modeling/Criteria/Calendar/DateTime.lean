import Criteria.Calendar.Date

/-!
# Times of day on a date

A date with a time of day, to the microsecond, and possibly an offset from universal time.  Two
times with offsets are compared as instants, two without as they read; a time with an offset and
one without are not comparable.  The ISO text leaves the microseconds out when they are zero.
-/

namespace Criteria.Calendar

/-- A date and a time of day; the offset from universal time is in microseconds, east positive. -/
structure DateTime where
  date : Date
  hour : Nat
  minute : Nat
  second : Nat
  micro : Nat
  offset : Option Int
  deriving DecidableEq

namespace DateTime

def microsPerSecond : Int := 1000000

/-- Microseconds from the start of the day count to what the clock shows. -/
def clockMicros (t : DateTime) : Int :=
  ((t.date.dayNumber * 24 + t.hour) * 60 + t.minute) * 60 * microsPerSecond
    + t.second * microsPerSecond + t.micro

/-- The order of two times, when both have an offset or neither has. -/
def compare? (a b : DateTime) : Option Ordering :=
  match a.offset, b.offset with
  | some x, some y => some (compare (a.clockMicros - x) (b.clockMicros - y))
  | none, none => some (compare a.clockMicros b.clockMicros)
  | some _, none => none
  | none, some _ => none

/-- Whether two times are the same; a time with an offset never equals one without. -/
def equal (a b : DateTime) : Bool := a.compare? b == some .eq

/-- A fraction of a second, unless it is zero. -/
def fractionChars (micro : Nat) : List Char :=
  if micro = 0 then [] else '.' :: padded 6 micro

/-- An offset as `±HH:MM`, with seconds and a fraction when they are not zero. -/
def offsetChars (offset : Int) : List Char :=
  let total := offset.natAbs
  let seconds := total / 1000000
  let micro := total % 1000000
  let tail :=
    if seconds % 60 = 0 ∧ micro = 0 then []
    else ':' :: (padded 2 (seconds % 60) ++ fractionChars micro)
  (if offset < 0 then '-' else '+') ::
    (padded 2 (seconds / 3600) ++ ':' :: (padded 2 (seconds / 60 % 60) ++ tail))

/-- Date and time with a separator between them. -/
def charsWith (separator : Char) (t : DateTime) : List Char :=
  t.date.isoChars ++ separator :: (padded 2 t.hour ++ ':' :: (padded 2 t.minute ++
    ':' :: (padded 2 t.second ++ fractionChars t.micro)))
    ++ (t.offset.map offsetChars).getD []

/-- The time in ISO form. -/
def iso (t : DateTime) : String := String.ofList (t.charsWith 'T')

/-- The time in ISO form with a blank for the separator. -/
def text (t : DateTime) : String := String.ofList (t.charsWith ' ')

/-- Microseconds after a point at the front of a text: up to six digits count. -/
def readFraction (cs : List Char) : Nat × List Char :=
  match cs with
  | '.' :: rest =>
    let (ds, after) := Number.Exact.spanDigits rest
    (Text.ofDigits 10 ((ds ++ List.replicate 6 0).take 6), after)
  | cs => (0, cs)

/-- Hours and minutes, and seconds with a fraction when they are there, in microseconds. -/
def readClock? (cs : List Char) : Option ((Nat × Nat × Nat × Nat) × List Char) := do
  let (hour, cs) ← readPadded? 2 cs
  let cs ← skip? ':' cs
  let (minute, cs) ← readPadded? 2 cs
  match skip? ':' cs with
  | none => return ((hour, minute, 0, 0), cs)
  | some cs =>
    let (second, cs) ← readPadded? 2 cs
    let (micro, cs) := readFraction cs
    return ((hour, minute, second, micro), cs)

/-- The offset that ends a text: nothing, `Z`, or a signed clock reading. -/
def readOffset? : List Char → Option (Option Int)
  | [] => some none
  | ['Z'] => some (some 0)
  | sign :: rest =>
    if sign = '+' ∨ sign = '-' then
      match readClock? rest with
      | some ((hour, minute, second, micro), []) =>
        let size : Int := ((hour * 60 + minute) * 60 + second) * microsPerSecond + micro
        some (some (if sign = '-' then -size else size))
      | _ => none
    else none

/-- The time that an ISO text writes.  Any one character may separate date and time. -/
def ofIso? (s : String) : Option DateTime := do
  let (date, cs) ← Date.read? s.toList
  match cs with
  | [] => return ⟨date, 0, 0, 0, 0, none⟩
  | _ :: cs =>
    let ((hour, minute, second, micro), cs) ← readClock? cs
    let offset ← readOffset? cs
    return ⟨date, hour, minute, second, micro, offset⟩

end DateTime

end Criteria.Calendar
