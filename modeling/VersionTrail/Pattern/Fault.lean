/-
# Why a pattern is refused

Every fault but the last is one of the pattern's writing. The last one is that
of a well-written pattern whose repetitions would need too much room.
-/
import VersionTrail.Text

namespace VersionTrail.Pattern

/-- A reason to refuse a pattern. -/
inductive Fault where
  | unclosedGroup
  | unopenedGroup
  | unclosedClass
  | unfinishedEscape
  | unknownEscape
  | badNumber
  | badRange
  | badClassItem
  | badGroupName
  | repeatedGroupName
  | badFlags
  | nothingToRepeat
  | unclosedCount
  | badCount
  | lookAround
  | unknownProperty
  | outsideAscii
  | tooDeep
  | tooLarge
  deriving DecidableEq, Repr

namespace Fault

/-- What is wrong with the writing of the pattern. -/
def reason : Fault → String
  | .unclosedGroup => "unclosed group"
  | .unopenedGroup => "unopened group"
  | .unclosedClass => "unclosed character class"
  | .unfinishedEscape => "incomplete escape sequence"
  | .unknownEscape => "unrecognized escape sequence"
  | .badNumber => "invalid number"
  | .badRange => "invalid character class range"
  | .badClassItem => "invalid item in a character class"
  | .badGroupName => "invalid capture group name"
  | .repeatedGroupName => "duplicate capture group name"
  | .badFlags => "invalid flags"
  | .nothingToRepeat => "repetition operator missing expression"
  | .unclosedCount => "unclosed counted repetition"
  | .badCount => "invalid repetition count"
  | .lookAround => "look-around is not supported"
  | .unknownProperty => "Unicode property not found"
  | .outsideAscii => "Unicode not allowed here"
  | .tooDeep => "pattern is nested too deeply"
  | .tooLarge => "pattern is too large"

/-- The room in bytes that a compiled pattern may take. -/
def sizeLimit : Nat :=
  10485760

/-- The fault as a text. -/
def message : Fault → String
  | .tooLarge => "Compiled regex exceeds size limit of " ++ toString sizeLimit ++ " bytes."
  | f => "regex parse error: " ++ f.reason

end Fault

end VersionTrail.Pattern
