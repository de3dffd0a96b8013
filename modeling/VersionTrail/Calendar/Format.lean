/-
# Date formats

A format is text in which a percent sign starts a directive. A directive shows
one field of a moment, some stand for several directives, and numeric ones take
`-`, `_` or `0` in front of their letter for no filling, blanks or zeros. A
format with an unknown directive is invalid. One directive, the offset in any
notation, is known but cannot be shown.
-/
import VersionTrail.Calendar.Civil
import VersionTrail.Text

namespace VersionTrail.Calendar

open VersionTrail.Text

/-- How a number is filled up to its width. -/
inductive Pad where
  | none
  | zero
  | space
  deriving DecidableEq, Repr

/-- A field that is shown as a number. -/
inductive Field where
  | year
  | century
  | yearOfCentury
  | isoYear
  | isoYearOfCentury
  | quarter
  | month
  | day
  | weekFromSunday
  | weekFromMonday
  | isoWeek
  | daysFromSunday
  | weekday
  | ordinal
  | hour
  | hour12
  | minute
  | second
  | nanosecond
  | timestamp
  deriving DecidableEq, Repr

/-- How much of an offset is shown. -/
inductive Precision where
  | hours
  | minutes
  | seconds
  deriving DecidableEq, Repr

/-- A part of a format. -/
inductive Item where
  | literal (c : Char)
  | number (f : Field) (pad : Pad)
  | monthName (short : Bool)
  | dayName (short : Bool)
  | halfDay (capital : Bool)
  /-- The fraction of the second with a point, as long as it has to be. -/
  | fraction
  /-- The fraction of the second with a number of digits. -/
  | fractionDigits (point : Bool) (digits : Nat)
  | zoneName
  | offset (precision : Precision) (colons : Bool)
  /-- The offset in any notation, which only reading knows. -/
  | anyOffset
  /-- Date, time and offset as in RFC 3339. -/
  | timestamp3339
  deriving DecidableEq, Repr

/-- Numbers with a literal character between each two. -/
def joined (sep : Char) : List Item → List Item
  | [] => []
  | [i] => [i]
  | i :: is => i :: .literal sep :: joined sep is

/-- A number filled up with zeros. -/
def zeroed (f : Field) : Item :=
  .number f .zero

/-- Hour, minute and second. -/
def clock : List Item :=
  joined ':' [zeroed .hour, zeroed .minute, zeroed .second]

/-- Month, day and year of the century. -/
def shortDate : List Item :=
  joined '/' [zeroed .month, zeroed .day, zeroed .yearOfCentury]

/-- The items of a directive of one letter. -/
def directive? (c : Char) : Option (List Item) :=
  match c with
  | 'A' => some [.dayName false]
  | 'B' => some [.monthName false]
  | 'C' => some [zeroed .century]
  | 'D' => some shortDate
  | 'F' => some (joined '-' [zeroed .year, zeroed .month, zeroed .day])
  | 'G' => some [zeroed .isoYear]
  | 'H' => some [zeroed .hour]
  | 'I' => some [zeroed .hour12]
  | 'M' => some [zeroed .minute]
  | 'P' => some [.halfDay false]
  | 'R' => some (joined ':' [zeroed .hour, zeroed .minute])
  | 'S' => some [zeroed .second]
  | 'T' => some clock
  | 'U' => some [zeroed .weekFromSunday]
  | 'V' => some [zeroed .isoWeek]
  | 'W' => some [zeroed .weekFromMonday]
  | 'X' => some clock
  | 'Y' => some [zeroed .year]
  | 'Z' => some [.zoneName]
  | 'a' => some [.dayName true]
  | 'b' => some [.monthName true]
  | 'c' => some ([.dayName true, .literal ' ', .monthName true, .literal ' ',
      .number .day .space, .literal ' '] ++ clock ++ [.literal ' ', zeroed .year])
  | 'd' => some [zeroed .day]
  | 'e' => some [.number .day .space]
  | 'f' => some [zeroed .nanosecond]
  | 'g' => some [zeroed .isoYearOfCentury]
  | 'h' => some [.monthName true]
  | 'j' => some [zeroed .ordinal]
  | 'k' => some [.number .hour .space]
  | 'l' => some [.number .hour12 .space]
  | 'm' => some [zeroed .month]
  | 'n' => some [.literal '\n']
  | 'p' => some [.halfDay true]
  | 'q' => some [.number .quarter .none]
  | 'r' => some (joined ':' [zeroed .hour12, zeroed .minute, zeroed .second] ++
      [.literal ' ', .halfDay true])
  | 's' => some [.number .timestamp .none]
  | 't' => some [.literal '\t']
  | 'u' => some [.number .weekday .none]
  | 'v' => some (joined '-' [.number .day .space, .monthName true, zeroed .year])
  | 'w' => some [.number .daysFromSunday .none]
  | 'x' => some shortDate
  | 'y' => some [zeroed .yearOfCentury]
  | 'z' => some [.offset .minutes false]
  | '+' => some [.timestamp3339]
  | '%' => some [.literal '%']
  | _ => none

/-- Changes how a single number is filled up; nothing else can be filled. -/
def refill? (pad : Pad) : List Item → Option (List Item)
  | [.number f _] => some [.number f pad]
  | _ => none

/-- The items of a directive and the format behind it, from behind the percent
sign. -/
def readDirective? : List Char → Option (List Item × List Char)
  | '-' :: c :: cs => ((directive? c).bind (refill? .none)).map (·, cs)
  | '_' :: c :: cs => ((directive? c).bind (refill? .space)).map (·, cs)
  | '0' :: c :: cs => ((directive? c).bind (refill? .zero)).map (·, cs)
  | '#' :: 'z' :: cs => some ([.anyOffset], cs)
  | ':' :: ':' :: ':' :: 'z' :: cs => some ([.offset .hours false], cs)
  | ':' :: ':' :: 'z' :: cs => some ([.offset .seconds true], cs)
  | ':' :: 'z' :: cs => some ([.offset .minutes true], cs)
  | '.' :: 'f' :: cs => some ([.fraction], cs)
  | '.' :: '3' :: 'f' :: cs => some ([.fractionDigits true 3], cs)
  | '.' :: '6' :: 'f' :: cs => some ([.fractionDigits true 6], cs)
  | '.' :: '9' :: 'f' :: cs => some ([.fractionDigits true 9], cs)
  | '3' :: 'f' :: cs => some ([.fractionDigits false 3], cs)
  | '6' :: 'f' :: cs => some ([.fractionDigits false 6], cs)
  | '9' :: 'f' :: cs => some ([.fractionDigits false 9], cs)
  | c :: cs => (directive? c).map (·, cs)
  | [] => none

/-- Reads a format of at most `n` characters. -/
def readItems? : Nat → List Char → Option (List Item)
  | 0, _ => some []
  | _ + 1, [] => some []
  | n + 1, '%' :: cs => do
    let (items, rest) ← readDirective? cs
    let more ← readItems? n rest
    some (items ++ more)
  | n + 1, c :: cs => (readItems? n cs).map (.literal c :: ·)

/-- The items of a format, if it is valid. -/
def formatItems? (format : String) : Option (List Item) :=
  readItems? format.toList.length format.toList

/-- Whether every directive of a format is known. -/
def isValidFormat (format : String) : Bool :=
  (formatItems? format).isSome

/-- The months in order. -/
def monthNames : List String :=
  ["January", "February", "March", "April", "May", "June", "July", "August", "September",
    "October", "November", "December"]

/-- The days of the week in order. -/
def dayNames : List String :=
  ["Monday", "Tuesday", "Wednesday", "Thursday", "Friday", "Saturday", "Sunday"]

/-- A name from a list, or its first three letters. -/
def nameAt (names : List String) (index : Nat) (short : Bool) : List Char :=
  let name := (names.getD index "").toList
  if short then name.take 3 else name

/-- An integer filled up to a width, which counts the sign. A plus sign is shown
on demand. -/
def padded (width : Nat) (pad : Pad) (plus : Bool) (n : Int) : List Char :=
  let sign := if n < 0 then ['-'] else if plus then ['+'] else []
  let ds := Nat.toDigits 10 n.natAbs
  let missing := width - (sign.length + ds.length)
  match pad with
  | .none => sign ++ ds
  | .zero => sign ++ List.replicate missing '0' ++ ds
  | .space => List.replicate missing ' ' ++ sign ++ ds

/-- A number of two digits. A tens digit of zero is filled as asked; one above
nine is shown by the character that follows the digits at its distance. -/
def twoDigits (pad : Pad) (n : Nat) : List Char :=
  let tens := n / 10
  let front := match tens, pad with
    | 0, .none => []
    | 0, .space => [' ']
    | t, _ => [Char.ofNat (48 + t)]
  front ++ [Nat.digitChar (n % 10)]

/-- A year has at least four digits; outside of these it shows its sign. -/
def yearDigits (pad : Pad) (year : Int) : List Char :=
  if 1000 ≤ year ∧ year ≤ 9999 then padded 4 .none false year
  else if 0 ≤ year ∧ year < 10000 then padded 4 pad false year
  else padded 5 pad true year

/-- The number of the second, in which a leap second is the sixtieth. -/
def TimeOfDay.shownSecond (t : TimeOfDay) : Nat :=
  t.second + t.nanos / 1000000000

/-- The hour on a clock face. -/
def TimeOfDay.hour12 (t : TimeOfDay) : Nat :=
  if t.hour % 12 = 0 then 12 else t.hour % 12

/-- A field as text. -/
def Field.render (m : Moment) (pad : Pad) : Field → List Char
  | .year => yearDigits pad m.date.year
  | .century => twoDigits pad (m.date.year / 100 % 256).toNat
  | .yearOfCentury => twoDigits pad (m.date.year % 100).toNat
  | .isoYear => yearDigits pad m.date.isoWeek.1
  | .isoYearOfCentury => twoDigits pad (m.date.isoWeek.1 % 100).toNat
  | .quarter => Nat.toDigits 10 m.date.quarter
  | .month => twoDigits pad m.date.month
  | .day => twoDigits pad m.date.day
  | .weekFromSunday => twoDigits pad (m.date.weekFrom 6)
  | .weekFromMonday => twoDigits pad (m.date.weekFrom 0)
  | .isoWeek => twoDigits pad m.date.isoWeek.2
  | .daysFromSunday => Nat.toDigits 10 ((m.date.weekday + 1) % 7)
  | .weekday => Nat.toDigits 10 (m.date.weekday + 1)
  | .ordinal => padded 3 pad false m.date.ordinal
  | .hour => twoDigits pad m.time.hour
  | .hour12 => twoDigits pad m.time.hour12
  | .minute => twoDigits pad m.time.minute
  | .second => twoDigits pad m.time.shownSecond
  | .nanosecond => padded 9 pad false (m.nanos % 1000000000 : Nat)
  | .timestamp => padded 9 pad false m.seconds

/-- A fraction of a second with a number of digits. -/
def fractionText (nanos places : Nat) : List Char :=
  paddedDigits places (nanos % 1000000000 / Nat.pow 10 (9 - places))

/-- A fraction of a second with a point and three, six or nine digits, or
nothing where it is zero. -/
def shortFraction (nanos : Nat) : List Char :=
  let n := nanos % 1000000000
  if n = 0 then []
  else if n % 1000000 = 0 then '.' :: fractionText n 3
  else if n % 1000 = 0 then '.' :: fractionText n 6
  else '.' :: fractionText n 9

/-- The sign of an offset. -/
def offsetSign (offset : Int) : Char :=
  if offset < 0 then '-' else '+'

/-- An offset. Seconds that are not shown are rounded into the minutes, and
minutes that are not shown are dropped. -/
def offsetText (precision : Precision) (colons : Bool) (offset : Int) : List Char :=
  let s := offset.natAbs
  let colon := if colons then [':'] else []
  match precision with
  | .hours => offsetSign offset :: paddedDigits 2 (s / 3600)
  | .minutes =>
    let total := (s + 30) / 60
    offsetSign offset :: paddedDigits 2 (total / 60) ++ colon ++ paddedDigits 2 (total % 60)
  | .seconds =>
    offsetSign offset :: paddedDigits 2 (s / 3600) ++ colon ++ paddedDigits 2 (s / 60 % 60) ++
      colon ++ paddedDigits 2 (s % 60)

/-- The name of the zone with an offset: the offset itself, with its seconds
only where it has some. -/
def zoneText (offset : Int) : List Char :=
  if offset.natAbs % 60 = 0 then offsetText .minutes true offset
  else offsetText .seconds true offset

/-- A year of four digits, with a sign and more digits outside of these. -/
def yearText3339 (year : Int) : List Char :=
  if 0 ≤ year ∧ year ≤ 9999 then paddedDigits 4 year.toNat else padded 5 .zero true year

/-- Date and time as in RFC 3339, without the offset. -/
def localText3339 (m : Moment) : List Char :=
  let d := m.date
  let t := m.time
  yearText3339 d.year ++ '-' :: paddedDigits 2 d.month ++ '-' :: paddedDigits 2 d.day ++
    'T' :: paddedDigits 2 t.hour ++ ':' :: paddedDigits 2 t.minute ++
    ':' :: paddedDigits 2 t.shownSecond ++ shortFraction m.nanos

/-- Date, time and offset as in RFC 3339. -/
def text3339 (m : Moment) : String :=
  String.ofList (localText3339 m ++ offsetText .minutes true m.offset)

/-- Date, time and offset as in RFC 3339, with the letter `Z` for universal
time. -/
def zuluText3339 (m : Moment) : String :=
  if m.offset = 0 then String.ofList (localText3339 m ++ ['Z']) else text3339 m

/-- An item as text; the offset in any notation has none. -/
def Item.render? (m : Moment) : Item → Option (List Char)
  | .literal c => some [c]
  | .number f pad => some (f.render m pad)
  | .monthName short => some (nameAt monthNames (m.date.month - 1) short)
  | .dayName short => some (nameAt dayNames m.date.weekday short)
  | .halfDay capital =>
    some (if m.time.hour < 12 then (if capital then ['A', 'M'] else ['a', 'm'])
      else (if capital then ['P', 'M'] else ['p', 'm']))
  | .fraction => some (shortFraction m.nanos)
  | .fractionDigits point places =>
    some ((if point then ['.'] else []) ++ fractionText m.nanos places)
  | .zoneName => some (zoneText m.offset)
  | .offset precision colons => some (offsetText precision colons m.offset)
  | .anyOffset => none
  | .timestamp3339 => some (text3339 m).toList

/-- Items as text, one after the other. -/
def renderItems? (m : Moment) : List Item → Option (List Char)
  | [] => some []
  | i :: is => do
    let front ← i.render? m
    let back ← renderItems? m is
    some (front ++ back)

/-- Why a moment cannot be shown in a format. -/
inductive FormatFault where
  | invalid (format : String)
  | inapplicable (format : String) (moment : Moment)
  deriving DecidableEq, Repr

/-- The fault as a text. -/
def FormatFault.message : FormatFault → String
  | .invalid f => "'" ++ f ++ "' is not a valid date format"
  | .inapplicable f m => "'" ++ f ++ "' cannot be applied to " ++ text3339 m

/-- Shows a moment in a format. -/
def Moment.format (m : Moment) (format : String) : Except FormatFault String :=
  match formatItems? format with
  | none => .error (.invalid format)
  | some items =>
    match renderItems? m items with
    | none => .error (.inapplicable format m)
    | some cs => .ok (String.ofList cs)

end VersionTrail.Calendar
