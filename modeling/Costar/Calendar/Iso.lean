import Costar.Calendar.Date

/-!
# ISO 8601 text of dates

Dates are written `YYYY-MM-DD`.  They are read in that form, in the basic form `YYYYMMDD`, and
by week as `YYYY-Www`, `YYYY-Www-D`, `YYYYWww` or `YYYYWwwD`, a week without a day standing for
its Monday.  A text takes seven, eight or ten bytes; in one of ten, what follows a basic form
is not looked at.
-/

namespace Costar

namespace Calendar

/-- Reads a number of exactly `width` ASCII digits. -/
def number? (width : Nat) (cs : List Char) : Option (Nat × List Char) :=
  match (cs.take width).mapM Text.asciiDigit? with
  | some ds => if ds.length = width then some (Text.ofDigits ds, cs.drop width) else none
  | none => none

/-- Reads the part after the year of a date by month. -/
def monthAndDay? (year : Nat) (extended : Bool) (cs : List Char) : Option Date := do
  let (month, rest) ← number? 2 cs
  let rest ←
    if extended then (if rest.head? = some '-' then some rest.tail else none) else some rest
  let (day, _) ← number? 2 rest
  Date.make? year month day

/-- Reads the part after the year and the letter `W` of a date by week. -/
def weekAndDay? (year : Nat) (extended : Bool) (cs : List Char) : Option Date := do
  let (week, rest) ← number? 2 cs
  if rest.isEmpty then
    Date.ofWeek? year week 1
  else
    let rest ←
      if extended then (if rest.head? = some '-' then some rest.tail else none) else some rest
    let (day, _) ← number? 1 rest
    Date.ofWeek? year week day

end Calendar

namespace Date

/-- Reads a date. -/
def ofIso? (s : String) : Option Date := do
  if [7, 8, 10].contains s.utf8ByteSize then
    let (year, rest) ← Calendar.number? 4 s.toList
    match rest with
    | '-' :: 'W' :: rest => Calendar.weekAndDay? year true rest
    | '-' :: rest => Calendar.monthAndDay? year true rest
    | 'W' :: rest => Calendar.weekAndDay? year false rest
    | rest => Calendar.monthAndDay? year false rest
  else
    none

/-- A date as `YYYY-MM-DD`. -/
def text (d : Date) : String :=
  Text.padDecimal 4 d.year ++ "-" ++ Text.padDecimal 2 d.month ++ "-" ++ Text.padDecimal 2 d.day

end Date

namespace DateTime

/-- The time of day as `HH:MM:SS`. -/
def clock (t : DateTime) : String :=
  Text.padDecimal 2 t.hour ++ ":" ++ Text.padDecimal 2 t.minute ++ ":" ++ Text.padDecimal 2 t.second

/-- A day and time with a text between them. -/
def text (separator : String) (t : DateTime) : String :=
  t.date.text ++ separator ++ t.clock

end DateTime

end Costar
