import Ls8.Text.Blank
import Ls8.Text.Unsigned

/-!
# Points in time

A point in time is kept as its text: a date, a time of day and the offset of its clock, such
as `2024-01-02T03:04:05.25+02:00`. The grammar is that of RFC 3339, read leniently: blanks may
stand between the parts, a blank or a small `t` for the `T`, one digit for two, the word `UTC`
for an offset of zero, and a signed year may have any number of digits.

* `Timestamp.reading?`: the day, the minute and the offset that a text shows.
* `Timestamp.isWellFormed`: whether a text is such a point in time, with a date that exists
  and can be represented in universal time too.
* `Timestamp.parse?`: the point in time of a text.
-/

namespace Ls8

namespace Timestamp

/-! ## Dates -/

/-- A day, by the numbers of its year, month and day. -/
structure Date where
  year : Int
  month : Nat
  day : Nat
  deriving DecidableEq, Repr

namespace Date

def isLeapYear (year : Int) : Bool :=
  year.emod 4 = 0 && (year.emod 100 ≠ 0 || year.emod 400 = 0)

def daysInMonth (year : Int) (month : Nat) : Nat :=
  if month = 2 then (if isLeapYear year then 29 else 28)
  else if month = 4 ∨ month = 6 ∨ month = 9 ∨ month = 11 then 30
  else 31

/-- The first day that can be represented. -/
def first : Date := ⟨-262143, 1, 1⟩

def last : Date := ⟨262142, 12, 31⟩

/-- Whether the calendar has the day, and it can be represented. -/
def isValid (date : Date) : Bool :=
  first.year ≤ date.year && date.year ≤ last.year && 1 ≤ date.month && date.month ≤ 12
    && 1 ≤ date.day && date.day ≤ daysInMonth date.year date.month

end Date

/-- What a calendar and a clock show: a day, the minute of the day, and by how many minutes
the clock is ahead of universal time. Seconds have no part in what can be represented. -/
structure Reading where
  date : Date
  minute : Nat
  offset : Int
  deriving DecidableEq, Repr

/-- Whether the day exists, and so does the day at that moment in universal time, which may be
the one before or after. -/
def Reading.isRepresentable (reading : Reading) : Bool :=
  let minute : Int := reading.minute - reading.offset
  reading.date.isValid
    && !(minute < 0 && reading.date == Date.first)
    && !(minute ≥ 24 * 60 && reading.date == Date.last)

/-! ## Parts of the text -/

/-- A number of at most `most` digits and what follows it. -/
def digitRun? (most : Nat) (text : List Char) : Option (Nat × List Char) :=
  let run := (text.take most).takeWhile Char.isDigit
  (Text.digits? 10 run).map (·, text.drop run.length)

/-- A number of one or two digits below `bound`, after blanks, and what follows it. -/
def field? (bound : Nat) (text : List Char) : Option (Nat × List Char) :=
  (digitRun? 2 (Text.trimStart text)).filter (·.1 < bound)

/-- What follows the separator `mark`, which may have blanks before it. -/
def after? (mark : Char) (text : List Char) : Option (List Char) :=
  match Text.trimStart text with
  | c :: rest => if c = mark then some rest else none
  | [] => none

/-- A year and what follows it: four digits at most, or any number of them after a sign. -/
def year? (text : List Char) : Option (Int × List Char) :=
  match Text.trimStart text with
  | '-' :: rest => (digitRun? rest.length rest).map fun (year, rest) => (-(year : Int), rest)
  | '+' :: rest => (digitRun? rest.length rest).map fun (year, rest) => ((year : Int), rest)
  | rest => (digitRun? 4 rest).map fun (year, rest) => ((year : Int), rest)

def date? (text : List Char) : Option (Date × List Char) := do
  let (year, rest) ← year? text
  let (month, rest) ← field? 13 (← after? '-' rest)
  let (day, rest) ← field? 32 (← after? '-' rest)
  return (⟨year, month, day⟩, rest)

/-- What follows the mark between date and time. -/
def afterDateMark? (text : List Char) : Option (List Char) :=
  match text with
  | 'T' :: rest | 't' :: rest | ' ' :: rest => some rest
  | _ => none

/-- What follows a fraction of a second, if there is one; a point needs a digit after it. -/
def afterFraction? (text : List Char) : Option (List Char) :=
  match text with
  | '.' :: digit :: rest =>
    if digit.isDigit then some (rest.dropWhile Char.isDigit) else none
  | '.' :: [] => none
  | _ => some text

/-- The minute of the day that a time of day falls into, and what follows the time. The last
second of a minute may be a leap second. -/
def time? (text : List Char) : Option (Nat × List Char) := do
  let (hour, rest) ← field? 24 text
  let (minute, rest) ← field? 60 (← after? ':' rest)
  let (_, rest) ← field? 61 (← after? ':' rest)
  let rest ← afterFraction? rest
  return (hour * 60 + minute, Text.trimStart rest)

/-- Two digits with a value below `bound`, and what follows them. -/
def twoDigits? (bound : Nat) (text : List Char) : Option (Nat × List Char) :=
  match text with
  | tens :: ones :: rest =>
    ((Text.digits? 10 [tens, ones]).filter (· < bound)).map (·, rest)
  | _ => none

/-- The hours and minutes of an offset, less than a day, as minutes, and what follows them.
Colons and blanks may stand between them. -/
def offset? (text : List Char) : Option (Nat × List Char) := do
  let (hours, rest) ← twoDigits? 24 text
  let (minutes, rest) ← twoDigits? 60 (rest.dropWhile fun c => c = ':' || Text.isBlank c)
  return (hours * 60 + minutes, rest)

/-- The offset of the clock in minutes, and what follows it: `Z`, `UTC`, or hours and minutes
after a sign, which may be a true minus sign. -/
def zone? (text : List Char) : Option (Int × List Char) :=
  if (text.take 3).map Char.toUpper = ['U', 'T', 'C'] then some (0, text.drop 3)
  else
    match text with
    | 'Z' :: rest | 'z' :: rest => some (0, rest)
    | '+' :: rest => (offset? rest).map fun (offset, rest) => ((offset : Int), rest)
    | '-' :: rest | '\u2212' :: rest =>
      (offset? rest).map fun (offset, rest) => (-(offset : Int), rest)
    | _ => none

/-- What a text shows, with nothing but blanks after it. -/
def reading? (text : List Char) : Option Reading := do
  let (date, rest) ← date? text
  let (minute, rest) ← time? (← afterDateMark? rest)
  let (offset, rest) ← zone? rest
  if (Text.trimStart rest).isEmpty then some ⟨date, minute, offset⟩ else none

def isWellFormed (text : String) : Bool := (reading? text.toList).any Reading.isRepresentable

end Timestamp

/-- A point in time, as it is written. -/
structure Timestamp where
  text : String
  wellFormed : Timestamp.isWellFormed text = true
  deriving DecidableEq

namespace Timestamp

def parse? (text : String) : Option Timestamp :=
  if wellFormed : isWellFormed text = true then some ⟨text, wellFormed⟩ else none

@[simp]
theorem parse?_text (time : Timestamp) : parse? time.text = some time := by
  simp [parse?, time.wellFormed]

def epoch : Timestamp := ⟨"1970-01-01T00:00:00Z", by decide⟩

end Timestamp

end Ls8
