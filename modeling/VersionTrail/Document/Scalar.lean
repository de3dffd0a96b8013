/-
# Texts, numbers and dates in TOML

Texts stand between quotation marks or between apostrophes; only the former
have escapes. Three marks enclose a text of several lines, whose line ends are
read as single line feeds. Integers are decimal, or hexadecimal, octal or binary
with a mark in front, and have 64 bits. Digits may have underscores between
them. Every function here reads from the front of a text and gives what is left
of it, or nothing if the front is not of its kind.
-/
import VersionTrail.Calendar.Civil
import VersionTrail.Document.Basic
import VersionTrail.Text

namespace VersionTrail.Document

open VersionTrail.Text
open VersionTrail.Calendar (daysInMonth)

/-- The result of reading: a value and the rest of the text. -/
abbrev Reading (α : Type) := Option (α × List Char)

/-- Whether a character is a space or a tab. -/
def isSpace (c : Char) : Bool :=
  c == ' ' || c == '\t'

/-- The text behind the spaces and tabs at its front. -/
def dropSpaces (cs : List Char) : List Char :=
  cs.dropWhile isSpace

/-- Whether a character can stand in comments and texts: no control but the
tab. -/
def isPrintable (c : Char) : Bool :=
  c == '\t' || (32 ≤ c.toNat && c.toNat != 127)

/-- The text behind a line end. -/
def lineEnd? : List Char → Option (List Char)
  | '\n' :: cs => some cs
  | '\r' :: '\n' :: cs => some cs
  | _ => none

/-- Removes up to `n` blanks and line ends from the front. -/
def dropLines : Nat → List Char → List Char
  | 0, cs => cs
  | n + 1, cs =>
    match cs with
    | c :: rest =>
      if isSpace c then dropLines n rest
      else
        match lineEnd? cs with
        | some next => dropLines n next
        | none => cs
    | [] => []

/-- The value of a digit in a base of at most sixteen. -/
def baseDigit? (base : Nat) (c : Char) : Option Nat :=
  let n := c.toNat
  let value? :=
    if 48 ≤ n ∧ n ≤ 57 then some (n - 48)
    else if 65 ≤ n ∧ n ≤ 70 then some (n - 55)
    else if 97 ≤ n ∧ n ≤ 102 then some (n - 87)
    else none
  value?.filter (· < base)

/-- The character with a code point given in hexadecimal digits. -/
def codePoint? (ds : List Char) : Option Char := do
  let n ← ds.foldlM (fun n d => (baseDigit? 16 d).map fun v => 16 * n + v) 0
  if n.isValidChar then some (Char.ofNat n) else none

/-- The character that a letter behind a backslash stands for. -/
def shortEscape? : Char → Option Char
  | 'b' => some '\x08'
  | 't' => some '\t'
  | 'n' => some '\n'
  | 'f' => some '\x0c'
  | 'r' => some '\r'
  | '"' => some '"'
  | '\\' => some '\\'
  | _ => none

/-- Reads a code point of a number of hexadecimal digits. -/
def hexEscape? (count : Nat) (cs : List Char) : Reading Char :=
  if cs.length < count then none
  else (codePoint? (cs.take count)).map fun c => (c, cs.drop count)

/-- Reads an escape from behind its backslash. -/
def escape? : List Char → Reading Char
  | 'u' :: cs => hexEscape? 4 cs
  | 'U' :: cs => hexEscape? 8 cs
  | e :: cs => (shortEscape? e).map fun c => (c, cs)
  | [] => none

/-- Puts a character in front of what is read. -/
def withChar (c : Char) (r : Reading (List Char)) : Reading (List Char) :=
  r.map fun (text, rest) => (c :: text, rest)

/-- Reads a text of at most `n` characters up to its closing quotation mark. -/
def basicText : Nat → List Char → Reading (List Char)
  | 0, _ => none
  | _ + 1, [] => none
  | _ + 1, '"' :: cs => some ([], cs)
  | n + 1, '\\' :: cs =>
    match escape? cs with
    | some (c, rest) => withChar c (basicText n rest)
    | none => none
  | n + 1, c :: cs => if isPrintable c then withChar c (basicText n cs) else none

/-- Reads a text up to its closing apostrophe. -/
def literalText : List Char → Reading (List Char)
  | [] => none
  | '\x27' :: cs => some ([], cs)
  | c :: cs => if isPrintable c then withChar c (literalText cs) else none

/-- The closing marks of a text of several lines. One or two marks directly in
front of them belong to the text. -/
def closing? (mark : Char) (cs : List Char) : Reading (List Char) :=
  let count := (cs.take 5).takeWhile (· == mark)
  if count.length < 3 then none
  else some (count.drop 3, cs.drop count.length)

/-- Whether nothing but blanks is left on the line. -/
def endsLine (cs : List Char) : Bool :=
  (lineEnd? (dropSpaces cs)).isSome

/-- Reads a text of several lines, of at most `n` characters, up to its closing
marks. With quotation marks there are escapes, and a backslash at the end of a
line removes the line end and all blanks behind it. -/
def multilineText (mark : Char) : Nat → List Char → Reading (List Char)
  | 0, _ => none
  | n + 1, cs =>
    match closing? mark cs with
    | some closed => some closed
    | none =>
      match lineEnd? cs with
      | some rest => withChar '\n' (multilineText mark n rest)
      | none =>
        match cs with
        | [] => none
        | c :: rest =>
          if c = '\\' ∧ mark = '"' then
            if endsLine rest then multilineText mark n (dropLines rest.length rest)
            else
              match escape? rest with
              | some (d, behind) => withChar d (multilineText mark n behind)
              | none => none
          else if isPrintable c then withChar c (multilineText mark n rest)
          else none

/-- Reads a text of several lines from behind its opening marks. A line end
directly behind the marks does not belong to the text. -/
def multiline (mark : Char) (cs : List Char) : Reading (List Char) :=
  multilineText mark (cs.length + 1) ((lineEnd? cs).getD cs)

/-- Reads a text on one line. -/
def lineText? : List Char → Reading String
  | '"' :: cs => (basicText (cs.length + 1) cs).map fun (t, rest) => (String.ofList t, rest)
  | '\x27' :: cs => (literalText cs).map fun (t, rest) => (String.ofList t, rest)
  | _ => none

/-- Reads a text. -/
def text? (cs : List Char) : Reading String :=
  match cs with
  | '"' :: '"' :: '"' :: rest => (multiline '"' rest).map fun (t, r) => (String.ofList t, r)
  | '\x27' :: '\x27' :: '\x27' :: rest =>
    (multiline '\x27' rest).map fun (t, r) => (String.ofList t, r)
  | _ => lineText? cs

/-- Reads digits of a base with underscores between them. `after` says that a
digit is in front. -/
def digitRun (base : Nat) (after : Bool) : List Char → Reading (List Char)
  | [] => if after then some ([], []) else none
  | c :: cs =>
    if (baseDigit? base c).isSome then withChar c (digitRun base true cs)
    else if c = '_' then if after then digitRun base false cs else none
    else if after then some ([], c :: cs)
    else none

/-- The value of digits of a base. -/
def baseValue (base : Nat) (ds : List Char) : Nat :=
  ds.foldl (fun n d => base * n + (baseDigit? base d).getD 0) 0

/-- The sign at the front of a number, and the text behind it. -/
def sign : List Char → Bool × List Char
  | '-' :: cs => (true, cs)
  | '+' :: cs => (false, cs)
  | cs => (false, cs)

/-- Reads the digits of a decimal integer, which has no needless zeros. -/
def wholeDigits? : List Char → Reading (List Char)
  | '0' :: cs => some (['0'], cs)
  | cs => digitRun 10 false cs

/-- Reads an exponent from behind its letter. -/
def exponent? (cs : List Char) : Option (Int × List Char) := do
  let (negative, cs) := sign cs
  let (ds, rest) ← digitRun 10 false cs
  let n : Int := Nat.ofDigitChars 10 ds 0
  some (if negative then -n else n, rest)

/-- The exponent behind a number; zero if there is none. -/
def optionalExponent? : List Char → Reading Int
  | 'e' :: cs => exponent? cs
  | 'E' :: cs => exponent? cs
  | cs => some (0, cs)

/-- Whether a decimal number is so large that it has no double but infinity. -/
def isTooLarge (ds : List Char) (exponent : Int) : Bool :=
  let n := Nat.ofDigitChars 10 ds 0
  let size := exponent + (Nat.toDigits 10 n).length
  if n = 0 ∨ size < 300 then false
  else if 400 < size then true
  else if exponent < 0 then (Float.ofScientific n true exponent.natAbs).isInf
  else (Float.ofScientific n false exponent.natAbs).isInf

/-- The words for what is no number, or larger than all. -/
def specialNumber? : List Char → Option (List Char)
  | 'i' :: 'n' :: 'f' :: cs => some cs
  | 'n' :: 'a' :: 'n' :: cs => some cs
  | _ => none

/-- The integer of a decimal literal. -/
def decimalValue (negative : Bool) (ds : List Char) : Int :=
  if negative then -(Nat.ofDigitChars 10 ds 0 : Int) else Nat.ofDigitChars 10 ds 0

/-- Reads a decimal number, behind its sign. Without a fraction and an exponent
it is an integer. -/
def unsignedNumber? (negative : Bool) (cs : List Char) : Option (Value × List Char) := do
  let (whole, rest) ← wholeDigits? cs
  match rest with
  | '.' :: behind =>
    let (fraction, rest) ← digitRun 10 false behind
    let (e, rest) ← optionalExponent? rest
    if !negative && isTooLarge (whole ++ fraction) (e - fraction.length) then none
    else some (.fractional, rest)
  | c :: behind =>
    if c = 'e' ∨ c = 'E' then
      let (e, rest) ← exponent? behind
      if !negative && isTooLarge whole e then none else some (.fractional, rest)
    else
      let n := decimalValue negative whole
      if fits n then some (.integer n, rest) else none
  | [] =>
    let n := decimalValue negative whole
    if fits n then some (.integer n, rest) else none

/-- Reads an integer of another base, behind its mark. -/
def markedInteger? (base : Nat) (cs : List Char) : Option (Value × List Char) := do
  let (ds, rest) ← digitRun base false cs
  let n : Int := baseValue base ds
  if fits n then some (.integer n, rest) else none

/-- Reads a number. -/
def number? (cs : List Char) : Reading Value :=
  match cs with
  | '0' :: 'x' :: rest => markedInteger? 16 rest
  | '0' :: 'o' :: rest => markedInteger? 8 rest
  | '0' :: 'b' :: rest => markedInteger? 2 rest
  | _ =>
    let (negative, behind) := sign cs
    match specialNumber? behind with
    | some rest => some (.fractional, rest)
    | none => unsignedNumber? negative behind

/-- Reads a number of a fixed count of digits that lies between two bounds. -/
def fixedNumber? (count low high : Nat) (cs : List Char) : Reading Nat :=
  let ds := cs.take count
  let n := Nat.ofDigitChars 10 ds 0
  if ds.length = count ∧ ds.all Char.isDigit ∧ low ≤ n ∧ n ≤ high then some (n, cs.drop count)
  else none

/-- Reads one given character. -/
def mark? (c : Char) : List Char → Option (List Char)
  | d :: cs => if d = c then some cs else none
  | [] => none

/-- Reads a date. -/
def fullDate? (cs : List Char) : Option (List Char) := do
  let (year, cs) ← fixedNumber? 4 0 9999 cs
  let cs ← mark? '-' cs
  let (month, cs) ← fixedNumber? 2 1 12 cs
  let cs ← mark? '-' cs
  let (_, cs) ← fixedNumber? 2 1 (daysInMonth year month) cs
  some cs

/-- The text behind a fraction of a second, if there is one. -/
def dropFraction (cs : List Char) : List Char :=
  match cs with
  | '.' :: d :: rest => if d.isDigit then rest.dropWhile Char.isDigit else cs
  | _ => cs

/-- Reads a time of the day. -/
def partialTime? (cs : List Char) : Option (List Char) := do
  let (_, cs) ← fixedNumber? 2 0 23 cs
  let cs ← mark? ':' cs
  let (_, cs) ← fixedNumber? 2 0 59 cs
  let cs ← mark? ':' cs
  let (_, cs) ← fixedNumber? 2 0 60 cs
  some (dropFraction cs)

/-- The text behind an offset from universal time, if there is one; nothing if
it is malformed. -/
def timeOffset? (cs : List Char) : Option (List Char) :=
  match cs with
  | 'Z' :: rest => some rest
  | 'z' :: rest => some rest
  | c :: rest =>
    if c = '+' ∨ c = '-' then do
      let (_, rest) ← fixedNumber? 2 0 23 rest
      let rest ← mark? ':' rest
      let (_, rest) ← fixedNumber? 2 0 59 rest
      some rest
    else some cs
  | [] => some []

/-- The text behind a time of the day that follows a date, if there is one. -/
def timeBehindDate? (cs : List Char) : Option (List Char) :=
  match cs with
  | c :: rest =>
    if c = 'T' ∨ c = 't' ∨ c = ' ' then
      match partialTime? rest with
      | some behind => timeOffset? behind
      | none => some cs
    else some cs
  | [] => some []

/-- Whether a text starts like a date or a time of the day. -/
def startsDate (cs : List Char) : Bool :=
  let count := (cs.takeWhile Char.isDigit).length
  match cs.drop count with
  | '-' :: _ => count == 4
  | ':' :: _ => count == 2
  | _ => false

/-- Reads a date, a time of the day, or both. -/
def date? (cs : List Char) : Reading Value :=
  match fullDate? cs with
  | some rest => (timeBehindDate? rest).map fun r => (.date, r)
  | none => (partialTime? cs).map fun r => (.date, r)

end VersionTrail.Document
