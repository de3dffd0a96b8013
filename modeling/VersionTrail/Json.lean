/-
# Printing JSON

Objects keep the order of their members, because reports show configured branch
rules, parameters and outputs in their own order. A value is printed over several
lines, two spaces for each level: every item of a list and every member of an object
has a line of its own, and an empty list or object is printed as its two brackets.
Texts keep all characters but the quotation mark, the backslash and the controls
below the space.
-/
import VersionTrail.Text

namespace VersionTrail.Json

open VersionTrail.Text

/-- A JSON value whose numbers are integers. -/
inductive Value where
  | null
  | boolean (b : Bool)
  | integer (n : Int)
  | text (s : String)
  | list (items : List Value)
  | object (members : List (String × Value))
  deriving Inhabited, Repr

namespace Value

/-- The object with one text member for each pair. -/
def ofTexts (pairs : List (String × String)) : Value :=
  .object (pairs.map fun (k, v) => (k, .text v))

/-- A text, or null if there is none. -/
def ofText? : Option String → Value
  | some s => .text s
  | none => .null

/-- An integer, or null if there is none. -/
def ofInt? : Option Int → Value
  | some n => .integer n
  | none => .null

end Value

/-- The small hexadecimal digit with a value below sixteen. -/
def hexDigit (n : Nat) : Char :=
  if n < 10 then Char.ofNat (48 + n) else Char.ofNat (87 + n)

/-- The written form of one character inside a text. -/
def escape (c : Char) : List Char :=
  match c with
  | '"' => ['\\', '"']
  | '\\' => ['\\', '\\']
  | '\n' => ['\\', 'n']
  | '\r' => ['\\', 'r']
  | '\t' => ['\\', 't']
  | '\x08' => ['\\', 'b']
  | '\x0c' => ['\\', 'f']
  | c =>
    if c.toNat < 32 then
      ['\\', 'u', '0', '0', hexDigit (c.toNat / 16), hexDigit (c.toNat % 16)]
    else [c]

/-- A text between quotation marks. -/
def quote (s : String) : String :=
  "\"" ++ String.ofList (s.toList.flatMap escape) ++ "\""

/-- The start of a line at a level. -/
def lineStart (level : Nat) : String :=
  "\n" ++ String.ofList (List.replicate (2 * level) ' ')

mutual

/-- Prints a value whose first line starts at a level. -/
def printAt (level : Nat) : Value → String
  | .null => "null"
  | .boolean b => if b then "true" else "false"
  | .integer n => toString n
  | .text s => quote s
  | .list [] => "[]"
  | .list (v :: vs) =>
    "[" ++ lineStart (level + 1) ++ printAt (level + 1) v ++ printItems (level + 1) vs ++
      lineStart level ++ "]"
  | .object [] => "\x7b\x7d"
  | .object ((k, v) :: ms) =>
    "\x7b" ++ lineStart (level + 1) ++ quote k ++ ": " ++ printAt (level + 1) v ++
      printMembers (level + 1) ms ++ lineStart level ++ "\x7d"

/-- Prints the items behind the first, each on a line of its own. -/
def printItems (level : Nat) : List Value → String
  | [] => ""
  | v :: vs => "," ++ lineStart level ++ printAt level v ++ printItems level vs

/-- Prints the members behind the first, each on a line of its own. -/
def printMembers (level : Nat) : List (String × Value) → String
  | [] => ""
  | (k, v) :: ms =>
    "," ++ lineStart level ++ quote k ++ ": " ++ printAt level v ++ printMembers level ms

end

/-- The value over several lines, without a line end behind it. -/
def pretty (v : Value) : String :=
  printAt 0 v

end VersionTrail.Json
