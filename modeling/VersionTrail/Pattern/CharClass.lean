/-
# Character classes

A property is named with spaces, underscores, hyphens and letter case left out
of account, and with an optional `is` in front. A name alone is that of a
property, a general category or a script, in this order of preference; a pair
names a category or a script as the value of the property it belongs to. Other
properties with values are not known.

A class is a set of code points, built from ranges and from the classes that
have a short name by union, intersection, difference and complement. A class
that ignores case holds a code point when it holds one that differs from it in
case only.
-/
import VersionTrail.Pattern.Property.Binary
import VersionTrail.Pattern.Property.Folding
import VersionTrail.Pattern.Property.Script
import VersionTrail.Text

namespace VersionTrail.Pattern.Property

open VersionTrail.Text

/-- The letters and marks of a name that count. -/
def significant (cs : List Char) : List Char :=
  (cs.filter fun c => c != ' ' && c != '_' && c != '-' && c.toNat < 128).map lowerLetter

/-- A name in normal form. The abbreviation `isc` is a name of its own and does
not stand for `c`. -/
def normalName (name : String) : String :=
  match name.toList with
  | a :: b :: rest =>
    if lowerLetter a = 'i' ∧ lowerLetter b = 's' then
      let kept := significant rest
      String.ofList (if kept = ['c'] then ['i', 's', 'c'] else kept)
    else String.ofList (significant name.toList)
  | cs => String.ofList (significant cs)

/-- The ranges of a category, or of one of the three sets named like one. -/
def categoryOrAny? (name : String) : Option Ranges :=
  if name == "any" then some [(0, 0x10FFFF)]
  else if name == "ascii" then some [(0, 127)]
  else if name == "assigned" then
    some (rangesWhere (fun label => label != "Cn") categoryRuns)
  else category? name

/-- The abbreviations that name a category although a property has them too. -/
def categoryFirst : List String :=
  ["cf", "sc", "lc"]

/-- The ranges that a name alone stands for. -/
def named? (name : String) : Option Ranges :=
  let n := normalName name
  let property? := if categoryFirst.contains n then none else binary? n
  property?.orElse fun _ => (categoryOrAny? n).orElse fun _ => script? n

/-- The ranges that a property and one of its values stand for. Only general categories
and scripts are known. Extensions of scripts, ages, and the properties that break texts
into characters, words and sentences are not, and a pattern with one of them is refused. -/
def valued? (property value : String) : Option Ranges :=
  let p := normalName property
  if p == "gc" || p == "generalcategory" then categoryOrAny? (normalName value)
  else if p == "sc" || p == "script" then script? (normalName value)
  else none

end VersionTrail.Pattern.Property

namespace VersionTrail.Pattern

open Property

/-- The code points of the digits zero of all scripts that write decimal
numbers; the other nine digits follow each of them. -/
def zeroDigits : List Nat :=
  [ 0x30, 0x660, 0x6F0, 0x7C0, 0x966, 0x9E6, 0xA66, 0xAE6, 0xB66, 0xBE6, 0xC66, 0xCE6, 0xD66,
    0xDE6, 0xE50, 0xED0, 0xF20, 0x1040, 0x1090, 0x17E0, 0x1810, 0x1946, 0x19D0, 0x1A80, 0x1A90,
    0x1B50, 0x1BB0, 0x1C40, 0x1C50, 0xA620, 0xA8D0, 0xA900, 0xA9D0, 0xA9F0, 0xAA50, 0xABF0,
    0xFF10, 0x104A0, 0x10D30, 0x11066, 0x110F0, 0x11136, 0x111D0, 0x112F0, 0x11450, 0x114D0,
    0x11650, 0x116C0, 0x11730, 0x118E0, 0x11950, 0x11C50, 0x11D50, 0x11DA0, 0x11F50, 0x16A60,
    0x16AC0, 0x16B50, 0x1D7CE, 0x1D7D8, 0x1D7E2, 0x1D7EC, 0x1D7F6, 0x1E140, 0x1E2F0, 0x1E4F0,
    0x1E950, 0x1FBF0 ]

/-- Whether a code point is a decimal digit of some script. -/
def isDecimalDigit (n : Nat) : Bool :=
  zeroDigits.any fun z => z ≤ n && n ≤ z + 9

/-- The ranges of the characters that words consist of: the alphabetic ones,
marks, decimal digits, connectors and the two joiners. -/
def wordRanges : Ranges :=
  (binary? "alphabetic").getD [] ++ categoryRanges ["M", "Nd", "Pc"] ++
    (binary? "joincontrol").getD []

/-- Whether a code point belongs to a word. -/
def isWordPoint (n : Nat) : Bool :=
  wordRanges.holds n

/-- Whether a code point is one of `0` to `9`, `A` to `Z`, `a` to `z` and `_`. -/
def isAsciiWordPoint (n : Nat) : Bool :=
  (48 ≤ n && n ≤ 57) || (65 ≤ n && n ≤ 90) || n == 95 || (97 ≤ n && n ≤ 122)

/-- A set of code points. -/
inductive CharClass where
  /-- The code points of some ranges. -/
  | ranges (rs : Ranges)
  /-- The decimal digits. -/
  | digit
  /-- The blanks. -/
  | blank
  /-- The characters of words. -/
  | word
  | union (a b : CharClass)
  | inter (a b : CharClass)
  | minus (a b : CharClass)
  /-- The code points in exactly one of two classes. -/
  | exclusive (a b : CharClass)
  | complement (a : CharClass)
  /-- The code points that differ in case only from one of the class. -/
  | anyCase (a : CharClass)
  deriving Repr

namespace CharClass

/-- The class without code points. -/
def none : CharClass :=
  .ranges []

/-- The class of one code point. -/
def single (n : Nat) : CharClass :=
  .ranges [(n, n)]

/-- The class of the listed code points. -/
def points (ns : List Nat) : CharClass :=
  .ranges (ns.map fun n => (n, n))

/-- Whether a code point belongs to the class. -/
def holds : CharClass → Nat → Bool
  | .ranges rs, n => rs.holds n
  | .digit, n => isDecimalDigit n
  | .blank, n => Text.isBlank (Char.ofNat n)
  | .word, n => isWordPoint n
  | .union a b, n => a.holds n || b.holds n
  | .inter a b, n => a.holds n && b.holds n
  | .minus a b, n => a.holds n && !b.holds n
  | .exclusive a b, n => a.holds n != b.holds n
  | .complement a, n => !a.holds n
  | .anyCase a, n => (caseVariants n).any a.holds

/-- The other case of the letters `A` to `Z` and `a` to `z`. -/
def latinVariants (n : Nat) : List Nat :=
  if 65 ≤ n && n ≤ 90 then [n, n + 32] else if 97 ≤ n && n ≤ 122 then [n, n - 32] else [n]

/-- The class of one character, in both cases if asked. -/
def ofChar (ignoreCase unicode : Bool) (c : Char) : CharClass :=
  if ignoreCase then
    .points (if unicode then caseVariants c.toNat else latinVariants c.toNat)
  else .single c.toNat

/-- A rough count of the bytes that a matcher over encoded text needs for the
class: encoded ranges beyond the first 128 code points need several states. -/
def weight : CharClass → Nat
  | .ranges rs => 64 + (rs.map fun r => if r.2 < 128 then 8 else 100).sum
  | .digit => 6400
  | .blank => 600
  | .word => 77000
  | .union a b => a.weight + b.weight
  | .inter a b => max a.weight b.weight
  | .minus a _ => a.weight
  | .exclusive a b => a.weight + b.weight
  | .complement a => 200 + a.weight
  | .anyCase a => 2 * a.weight

end CharClass

end VersionTrail.Pattern
