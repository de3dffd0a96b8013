/-
# Texts

A character is blank when it has the Unicode property `White_Space`; trimming
removes the blanks at one or both ends of a text. Positions count characters from
zero, and the empty text occurs at every position, the one behind the last character
included. A line ends at a line feed or at the end of the text; one carriage return
directly in front of the line feed belongs to the line's end. Only the 26 letters `A`
to `Z` have a second case.

A numeral is a non-empty run of the digits `0` to `9`. An integer literal is a
numeral with at most one sign in front; it is read only when its value fits in
64 bits. An integer is written without a plus sign and without leading zeros, and
reading what was written gives the integer back.
-/

namespace VersionTrail.Text

/-- The 25 characters with the Unicode property `White_Space`. -/
def isBlank (c : Char) : Bool :=
  let n := c.toNat
  (9 ≤ n && n ≤ 13) || n == 0x20 || n == 0x85 || n == 0xA0 || n == 0x1680 ||
    (0x2000 ≤ n && n ≤ 0x200A) || n == 0x2028 || n == 0x2029 || n == 0x202F ||
    n == 0x205F || n == 0x3000

/-- The characters that remain when the blanks at the front are gone. -/
def dropBlanks (cs : List Char) : List Char :=
  cs.dropWhile isBlank

/-- The characters that remain when the blanks at the back are gone. -/
def dropBlanksRight (cs : List Char) : List Char :=
  (dropBlanks cs.reverse).reverse

/-- A text without the blanks at its front. -/
def trimStart (s : String) : String :=
  String.ofList (dropBlanks s.toList)

/-- A text without the blanks at its back. -/
def trimEnd (s : String) : String :=
  String.ofList (dropBlanksRight s.toList)

/-- A text without the blanks at either end. -/
def trim (s : String) : String :=
  String.ofList (dropBlanksRight (dropBlanks s.toList))

/-- Whether a text holds nothing but blanks. -/
def isBlankText (s : String) : Bool :=
  s.toList.all isBlank

/-- The smallest position at which `needle` occurs. -/
def firstPosition? (needle : List Char) : List Char → Option Nat
  | [] => if needle.isPrefixOf [] then some 0 else none
  | c :: cs =>
    if needle.isPrefixOf (c :: cs) then some 0
    else (firstPosition? needle cs).map (· + 1)

/-- The largest position at which `needle` occurs. -/
def lastPosition? (needle : List Char) : List Char → Option Nat
  | [] => if needle.isPrefixOf [] then some 0 else none
  | c :: cs =>
    match lastPosition? needle cs with
    | some i => some (i + 1)
    | none => if needle.isPrefixOf (c :: cs) then some 0 else none

/-- The characters in front of the first `mark` and those behind it. -/
def splitFirst? (mark : Char) : List Char → Option (List Char × List Char)
  | [] => none
  | c :: cs =>
    if c = mark then some ([], cs)
    else (splitFirst? mark cs).map fun (front, back) => (c :: front, back)

/-- The characters behind the last `mark`, or all of them if there is none. -/
def afterLast (mark : Char) (cs : List Char) : List Char :=
  (cs.reverse.takeWhile (· != mark)).reverse

/-- The first line, without its end. A carriage return that no line feed
follows is part of the line. -/
def firstLineOf : List Char → List Char
  | [] => []
  | '\n' :: _ => []
  | '\r' :: '\n' :: _ => []
  | c :: cs => c :: firstLineOf cs

/-- The first line of a text. -/
def firstLine (s : String) : String :=
  String.ofList (firstLineOf s.toList)

/-- The small form of the letters `A` to `Z`; any other character is kept. -/
def lowerLetter (c : Char) : Char :=
  if 'A' ≤ c ∧ c ≤ 'Z' then Char.ofNat (c.toNat + 32) else c

/-- A text with each of the letters `A` to `Z` in its small form. -/
def lowerLetters (s : String) : String :=
  String.ofList (s.toList.map lowerLetter)

/-- Whether two texts differ at most in the case of Latin letters. -/
def sameLetters (a b : String) : Bool :=
  a.toList.map lowerLetter == b.toList.map lowerLetter

/-- Whether the text is a numeral. -/
def isNumeral (ds : List Char) : Bool :=
  !ds.isEmpty && ds.all Char.isDigit

/-- The digits of a natural number, filled up with zeros to a least width. -/
def paddedDigits (width n : Nat) : List Char :=
  (Nat.toDigits 10 n).leftpad width '0'

/-- Whether an integer fits in 64 bits. -/
def fits (n : Int) : Bool :=
  -9223372036854775808 ≤ n && n < 9223372036854775808

/-- Reads digits with at most one sign in front, without regard to size. -/
def readSigned? : List Char → Option Int
  | '+' :: ds => if isNumeral ds then some (Nat.ofDigitChars 10 ds 0) else none
  | '-' :: ds => if isNumeral ds then some (-(Nat.ofDigitChars 10 ds 0 : Int)) else none
  | ds => if isNumeral ds then some (Nat.ofDigitChars 10 ds 0) else none

/-- Reads an integer literal whose value fits in 64 bits. -/
def readInt? (s : String) : Option Int :=
  (readSigned? s.toList).filter fits

theorem isNumeral_iff {ds : List Char} :
    isNumeral ds = true ↔ ds ≠ [] ∧ ∀ d ∈ ds, d.isDigit = true := by
  rw [isNumeral, Bool.and_eq_true, Bool.not_eq_true', List.all_eq_true, Bool.eq_false_iff, ne_eq,
    List.isEmpty_iff]

@[simp]
theorem isNumeral_toDigits (n : Nat) : isNumeral (Nat.toDigits 10 n) = true :=
  isNumeral_iff.mpr ⟨Nat.toDigits_ne_nil, fun _ hd =>
    Nat.isDigit_of_mem_toDigits (by decide) (by decide) hd⟩

/-- A numeral has no sign in front. -/
theorem readSigned?_of_isNumeral {ds : List Char} (hds : isNumeral ds = true) :
    readSigned? ds = some (Nat.ofDigitChars 10 ds 0 : Int) := by
  have hdigits := (isNumeral_iff.mp hds).2
  rw [readSigned?.eq_3, if_pos hds]
  · rintro rest rfl
    exact absurd (hdigits '+' List.mem_cons_self) (by decide)
  · rintro rest rfl
    exact absurd (hdigits '-' List.mem_cons_self) (by decide)

/-- Reading a written integer gives it back. -/
theorem readSigned?_toString (n : Int) : readSigned? (toString n).toList = some n := by
  rw [Int.toString_eq_repr, Int.repr_eq_if]
  by_cases h : 0 ≤ n
  · rw [if_pos h, Nat.toList_repr, readSigned?_of_isNumeral (isNumeral_toDigits _),
      Nat.ofDigitChars_ten_toDigits, Int.toNat_of_nonneg h]
  · have hsign : "-".toList = ['-'] := rfl
    rw [if_neg h, String.toList_append, Nat.toList_repr, hsign, List.singleton_append, readSigned?,
      if_pos (isNumeral_toDigits _), Nat.ofDigitChars_ten_toDigits]
    exact congrArg some (by omega)

/-- A written integer of 64 bits is read back. -/
theorem readInt?_toString {n : Int} (h : fits n = true) : readInt? (toString n) = some n := by
  rw [readInt?, readSigned?_toString, Option.filter_some, if_pos h]

end VersionTrail.Text
