/-
# Reading dates

A date is accepted in the notation of RFC 3339, as a date and a time with a
blank or a `T` between them, or as a date alone. Without an offset it is one of
universal time, and without a time the start of the day. Blanks around the
date, and in the last two notations also in front of each number, do not count.
-/
import VersionTrail.Calendar.Civil
import VersionTrail.Text

namespace VersionTrail.Calendar

open VersionTrail.Text

/-- Reads a number of at least `least` and at most `most` digits. -/
def digitRun? (least most : Nat) (cs : List Char) : Option (Nat × List Char) :=
  let ds := (cs.take most).takeWhile Char.isDigit
  if ds.length < least then none else some (Nat.ofDigitChars 10 ds 0, cs.drop ds.length)

/-- Reads one given character. -/
def mark? (c : Char) : List Char → Option (List Char)
  | d :: cs => if d = c then some cs else none
  | [] => none

/-- Reads the fraction of a second, from behind the point. Digits behind the
ninth do not count. -/
def fraction? (cs : List Char) : Option (Nat × List Char) := do
  let (n, rest) ← digitRun? 1 9 cs
  let count := cs.length - rest.length
  some (n * Nat.pow 10 (9 - count), rest.dropWhile Char.isDigit)

/-- Reads an offset: the letter `Z`, or a sign with hours and minutes. -/
def offset? (cs : List Char) : Option (Int × List Char) :=
  match cs with
  | 'Z' :: rest => some (0, rest)
  | 'z' :: rest => some (0, rest)
  | sign :: rest => do
    if !(sign == '+' || sign == '-' || sign == '\u2212') then none
    let (hours, rest) ← digitRun? 2 2 rest
    let rest ← mark? ':' rest
    let (minutes, rest) ← digitRun? 2 2 rest
    if 59 < minutes ∨ 23 < hours then none
    let s : Int := (hours * 60 + minutes : Nat) * 60
    some (if sign = '+' then s else -s, rest)
  | [] => none

/-- A time of the day. The sixtieth second is a leap second. -/
def timeOfDay? (hour minute second nanos : Nat) : Option TimeOfDay :=
  if 23 < hour ∨ 59 < minute ∨ 60 < second then none
  else if second = 60 then some ⟨hour, minute, 59, 1000000000 + nanos⟩
  else some ⟨hour, minute, second, nanos⟩

/-- A date of the calendar. -/
def date? (year : Int) (month day : Nat) : Option Date :=
  if (Date.mk year month day).isValid then some ⟨year, month, day⟩ else none

/-- Reads a moment in the notation of RFC 3339. -/
def read3339? (cs : List Char) : Option Moment := do
  let (year, cs) ← digitRun? 4 4 cs
  let cs ← mark? '-' cs
  let (month, cs) ← digitRun? 2 2 cs
  let cs ← mark? '-' cs
  let (day, cs) ← digitRun? 2 2 cs
  let cs ← match cs with
    | 'T' :: rest => some rest
    | 't' :: rest => some rest
    | ' ' :: rest => some rest
    | _ => none
  let (hour, cs) ← digitRun? 2 2 cs
  let cs ← mark? ':' cs
  let (minute, cs) ← digitRun? 2 2 cs
  let cs ← mark? ':' cs
  let (second, cs) ← digitRun? 2 2 cs
  let (nanos, cs) ← match cs with
    | '.' :: rest => fraction? rest
    | rest => some (0, rest)
  let (offset, cs) ← offset? cs
  if !cs.isEmpty then none
  let d ← date? year month day
  let t ← timeOfDay? hour minute second nanos
  some (.ofLocal d t offset)

/-- Reads a number of one or two digits with blanks in front. -/
def looseNumber? (cs : List Char) : Option (Nat × List Char) :=
  digitRun? 1 2 (dropBlanks cs)

/-- Reads a year with blanks in front: up to four digits, or a sign and any
number of digits. -/
def looseYear? (cs : List Char) : Option (Int × List Char) :=
  match dropBlanks cs with
  | '-' :: rest => (digitRun? 1 rest.length rest).map fun (n, r) => (-(n : Int), r)
  | '+' :: rest => (digitRun? 1 rest.length rest).map fun (n, r) => ((n : Int), r)
  | rest => (digitRun? 1 4 rest).map fun (n, r) => ((n : Int), r)

/-- Reads a date of year, month and day with hyphens between them. -/
def looseDate? (cs : List Char) : Option (Date × List Char) := do
  let (year, cs) ← looseYear? cs
  let cs ← mark? '-' cs
  let (month, cs) ← looseNumber? cs
  let cs ← mark? '-' cs
  let (day, cs) ← looseNumber? cs
  let d ← date? year month day
  some (d, cs)

/-- Reads a time of hour, minute and second with colons between them. -/
def looseTime? (cs : List Char) : Option (TimeOfDay × List Char) := do
  let (hour, cs) ← looseNumber? cs
  let cs ← mark? ':' cs
  let (minute, cs) ← looseNumber? cs
  let cs ← mark? ':' cs
  let (second, cs) ← looseNumber? cs
  let t ← timeOfDay? hour minute second 0
  some (t, cs)

/-- Reads a date and a time with blanks, or none, or the letter `T` between
them. -/
def looseDateTime? (cs : List Char) : Option Moment := do
  let (d, cs) ← looseDate? cs
  let cs := match cs with
    | 'T' :: rest => rest
    | rest => rest
  let (t, cs) ← looseTime? cs
  if cs.isEmpty then some (.ofLocal d t 0) else none

/-- Reads a date alone. -/
def looseDay? (cs : List Char) : Option Moment := do
  let (d, cs) ← looseDate? cs
  if cs.isEmpty then some (.ofLocal d ⟨0, 0, 0, 0⟩ 0) else none

/-- Reads a date in one of the accepted notations. -/
def readMoment? (text : String) : Option Moment :=
  let cs := (trim text).toList
  (read3339? cs).orElse fun _ => (looseDateTime? cs).orElse fun _ => looseDay? cs

end VersionTrail.Calendar
