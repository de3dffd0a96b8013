/-
# The functions of templates

Every function has a title and takes a fixed number of arguments; its name is
recognised in any case. Beside the functions on texts, numbers and dates there
is one for every name of a space, which reads a value of that space.

A call applies a function to texts. Faults are of two kinds: numeric ones, where
an argument had to be a number or a calculation has no result, and all others.
Positions and lengths count characters. Integers have 64 bits; an operation
whose exact result does not fit has none.
-/
import VersionTrail.Calc
import VersionTrail.Calendar.Format
import VersionTrail.Calendar.Reader
import VersionTrail.Pattern.Basic
import VersionTrail.Template.Scope

namespace VersionTrail.Template

open VersionTrail.Text
open VersionTrail.Calendar (Moment readMoment? FormatFault)

/-- The four operations on integers. -/
inductive Arithmetic where
  | add
  | sub
  | mul
  | div
  deriving DecidableEq, Repr

/-- A side of a text. -/
inductive Side where
  | left
  | right
  deriving DecidableEq, Repr

/-- Which blanks are removed from a text. -/
inductive Trimming where
  | both
  | start
  | stop
  deriving DecidableEq, Repr

/-- A function of templates. -/
inductive Builtin where
  /-- Chooses between two texts by a truth value, negated if `negate`. -/
  | choose (negate : Bool)
  /-- Chooses between two texts by whether a third is blank, negated if
  `negate`. -/
  | chooseBlank (negate : Bool)
  /-- Compares two texts, negated if `negate`. -/
  | equal (negate : Bool)
  | firstIndex
  | lastIndex
  | length
  | calc
  | matchPattern
  | replacePattern
  | pad (side : Side)
  | substring
  | trim (which : Trimming)
  | dateTime
  | dateTimeNow
  | arithmetic (op : Arithmetic)
  | read (name : SpaceName)
  deriving DecidableEq, Repr

namespace Builtin

/-- The name of a function as it is written in messages. -/
def title : Builtin → String
  | .choose false => "If"
  | .choose true => "IfNot"
  | .chooseBlank false => "IfBlank"
  | .chooseBlank true => "IfNotBlank"
  | .equal false => "Equal"
  | .equal true => "NotEqual"
  | .firstIndex => "Index"
  | .lastIndex => "LastIndex"
  | .length => "Length"
  | .calc => "Calc"
  | .matchPattern => "RegexMatch"
  | .replacePattern => "RegexReplace"
  | .pad .left => "PadLeft"
  | .pad .right => "PadRight"
  | .substring => "Substring"
  | .trim .both => "Trim"
  | .trim .start => "TrimStart"
  | .trim .stop => "TrimEnd"
  | .dateTime => "DateTime"
  | .dateTimeNow => "DateTimeNow"
  | .arithmetic .add => "Add"
  | .arithmetic .sub => "Sub"
  | .arithmetic .mul => "Mul"
  | .arithmetic .div => "Div"
  | .read name => name.text

/-- How many arguments a function takes. -/
def arity : Builtin → Nat
  | .choose _ => 3
  | .chooseBlank _ => 3
  | .equal _ => 2
  | .firstIndex => 2
  | .lastIndex => 2
  | .length => 1
  | .calc => 1
  | .matchPattern => 2
  | .replacePattern => 3
  | .pad _ => 3
  | .substring => 3
  | .trim _ => 1
  | .dateTime => 2
  | .dateTimeNow => 1
  | .arithmetic _ => 2
  | .read _ => 1

/-- All functions. -/
def all : List Builtin :=
  [.choose false, .choose true, .chooseBlank false, .chooseBlank true, .equal false, .equal true,
    .firstIndex, .lastIndex, .length, .calc, .matchPattern, .replacePattern, .pad .left,
    .pad .right, .substring, .trim .both, .trim .start, .trim .stop, .dateTime, .dateTimeNow,
    .arithmetic .add, .arithmetic .sub, .arithmetic .mul, .arithmetic .div] ++
  SpaceName.all.map .read

/-- The function with a name, in any case. -/
def ofName? (name : String) : Option Builtin :=
  all.find? fun b => sameLetters b.title name

theorem mem_all (b : Builtin) : b ∈ all := by
  cases b with
  | choose negate | chooseBlank negate | equal negate => cases negate <;> decide
  | pad side => cases side <;> decide
  | trim which => cases which <;> decide
  | arithmetic op => cases op <;> decide
  | read name => exact List.mem_append_right _ (List.mem_map_of_mem name.mem_all)
  | _ => decide

/-- No two functions have the same title in any case. -/
@[simp]
theorem ofName?_title (b : Builtin) : ofName? b.title = some b := by
  have htable : ∀ b ∈ all, ofName? b.title = some b := by decide +kernel
  exact htable b b.mem_all

end Builtin

/-- The place of an argument. -/
inductive Place where
  | first
  | second
  | third
  deriving DecidableEq, Repr

/-- The place as a text. -/
def Place.text : Place → String
  | .first => "1st"
  | .second => "2nd"
  | .third => "3rd"

/-- Why a call has no value. -/
inductive CallFault where
  | unknown (name : String)
  | wrongCount (b : Builtin) (given : Nat)
  | notBoolean (b : Builtin) (place : Place) (arg : String)
  | notInteger (b : Builtin) (place : Place) (arg : String)
  | badPattern (b : Builtin) (place : Place) (fault : Pattern.Fault)
  | negative (b : Builtin) (place : Place) (value : Int)
  | notOneCharacter (b : Builtin) (place : Place) (arg : String)
  | outside (b : Builtin) (place : Place) (value : Int) (text : String)
  | notDate (b : Builtin) (place : Place) (arg : String)
  | format (fault : FormatFault)
  | calculation (b : Builtin) (arg : String) (fault : Calc.Fault)
  | divisionByZero (b : Builtin) (dividend : Int)
  | overflow (b : Builtin) (x y : Int)
  | notFound (b : Builtin) (key : String)
  deriving DecidableEq, Repr

namespace CallFault

/-- Whether the fault is one of numbers. -/
def isNumeric : CallFault → Bool
  | .notInteger .. => true
  | .calculation .. => true
  | .divisionByZero .. => true
  | .overflow .. => true
  | _ => false

/-- The start of a message about a function. -/
def about (b : Builtin) : String :=
  "The $" ++ b.title ++ " function"

/-- The start of a message about an argument of a function. -/
def aboutArg (b : Builtin) (place : Place) : String :=
  about b ++ "'s " ++ place.text ++ " argument"

/-- The fault as a text. -/
def message : CallFault → String
  | .unknown name => "'$" ++ name ++ "' is not a known function"
  | .wrongCount b given =>
    about b ++ " takes " ++ toString b.arity ++ " argument(s) but " ++ toString given ++
      " were given"
  | .notBoolean b place arg =>
    aboutArg b place ++ " must be convertible to a boolean, got '" ++ arg ++ "'"
  | .notInteger b place arg =>
    aboutArg b place ++ " must be convertible to an integer, got '" ++ arg ++ "'"
  | .badPattern b place fault => aboutArg b place ++ " is not a valid pattern: " ++ fault.message
  | .negative b place value => aboutArg b place ++ " must not be negative, got " ++ toString value
  | .notOneCharacter b place arg =>
    aboutArg b place ++ " must be a single character, got '" ++ arg ++ "'"
  | .outside b place value text =>
    aboutArg b place ++ " " ++ toString value ++ " is outside '" ++ text ++ "'"
  | .notDate b place arg => aboutArg b place ++ " '" ++ arg ++ "' is not a recognised date"
  | .format fault => fault.message
  | .calculation b arg fault =>
    about b ++ " could not evaluate '" ++ arg ++ "': " ++ fault.message
  | .divisionByZero b dividend => about b ++ " cannot divide " ++ toString dividend ++ " by zero"
  | .overflow b x y => about b ++ " overflowed on " ++ toString x ++ " and " ++ toString y
  | .notFound b key => about b ++ " could not find '" ++ key ++ "'"

end CallFault

/-- The text of a truth value. -/
def boolText (b : Bool) : String :=
  if b then "true" else "false"

/-- Reads a truth value: one of the words `true` and `false`, in any case and
with blanks around it. -/
def readBool? (text : String) : Option Bool :=
  if sameLetters (trim text) "true" then some true
  else if sameLetters (trim text) "false" then some false
  else none

/-- The integer that an argument stands for. -/
def intArg (b : Builtin) (place : Place) (arg : String) : Except CallFault Int :=
  match readInt? (trim arg) with
  | some n => .ok n
  | none => .error (.notInteger b place arg)

/-- The pattern that an argument stands for. -/
def patternArg (b : Builtin) (place : Place) (arg : String) : Except CallFault Pattern :=
  (Pattern.compile false arg).mapError (.badPattern b place)

/-- A position as an integer, or `-1` if there is none. -/
def positionText : Option Nat → String
  | some i => toString i
  | none => "-1"

/-- The exact result of an operation; a quotient is rounded toward zero. -/
def Arithmetic.exact : Arithmetic → Int → Int → Int
  | .add, x, y => x + y
  | .sub, x, y => x - y
  | .mul, x, y => x * y
  | .div, x, y => x.tdiv y

/-- Applies an operation to two integers. -/
def Arithmetic.apply (op : Arithmetic) (x y : Int) : Except CallFault String :=
  if op = .div ∧ y = 0 then .error (.divisionByZero (.arithmetic op) x)
  else if fits (op.exact x y) then .ok (toString (op.exact x y))
  else .error (.overflow (.arithmetic op) x y)

/-- Fills a text up to a width. -/
def Side.fill (side : Side) (text : String) (width : Nat) (filling : Char) : String :=
  let missing := String.ofList (List.replicate (width - text.length) filling)
  match side with
  | .left => missing ++ text
  | .right => text ++ missing

/-- Fills a text up to the width and with the character that two arguments
stand for. -/
def padText (side : Side) (text width filling : String) : Except CallFault String := do
  let n ← intArg (.pad side) .second width
  if n < 0 then .error (.negative (.pad side) .second n)
  else
    match filling.toList with
    | [c] => .ok (side.fill text n.toNat c)
    | _ => .error (.notOneCharacter (.pad side) .third filling)

/-- The part of a text from a position on, of at most some length. -/
def substringText (text start length : String) : Except CallFault String := do
  let i ← intArg .substring .second start
  let n ← intArg .substring .third length
  if i < 0 ∨ (text.length : Int) < i then .error (.outside .substring .second i text)
  else if n < 0 then .error (.negative .substring .third n)
  else .ok (String.ofList ((text.toList.drop i.toNat).take n.toNat))

/-- Shows the moment that a text stands for in a format. -/
def dateText (date format : String) : Except CallFault String :=
  match readMoment? date with
  | none => .error (.notDate .dateTime .first date)
  | some m => (m.format format).mapError .format

/-- Removes blanks from a text. -/
def Trimming.apply : Trimming → String → String
  | .both => trim
  | .start => trimStart
  | .stop => trimEnd

/-- Applies a function to its arguments. -/
def Builtin.apply (b : Builtin) (s : Scope) (args : List String) : Except CallFault String :=
  match b, args with
  | .choose negate, [condition, yes, no] =>
    match readBool? condition with
    | some truth => .ok (if truth != negate then yes else no)
    | none => .error (.notBoolean b .first condition)
  | .chooseBlank negate, [text, yes, no] =>
    .ok (if isBlankText text != negate then yes else no)
  | .equal negate, [x, y] => .ok (boolText ((x == y) != negate))
  | .firstIndex, [text, part] => .ok (positionText (firstPosition? part.toList text.toList))
  | .lastIndex, [text, part] => .ok (positionText (lastPosition? part.toList text.toList))
  | .length, [text] => .ok (toString text.length)
  | .calc, [expression] => (Calc.evaluate expression).mapError (.calculation b expression)
  | .matchPattern, [text, pattern] => do
    let p ← patternArg b .second pattern
    .ok (boolText (p.isMatch text))
  | .replacePattern, [text, pattern, replacement] => do
    let p ← patternArg b .second pattern
    .ok (p.replaceAll text replacement)
  | .pad side, [text, width, filling] => padText side text width filling
  | .substring, [text, start, count] => substringText text start count
  | .trim which, [text] => .ok (which.apply text)
  | .dateTime, [date, format] => dateText date format
  | .dateTimeNow, [format] => (s.now.format format).mapError .format
  | .arithmetic op, [x, y] => do
    let m ← intArg b .first x
    let n ← intArg b .second y
    op.apply m n
  | .read name, [key] =>
    match Space.ofName? name.text with
    | none => .error (.unknown name.text)
    | some space =>
      match s.lookup? space key with
      | some value => .ok value
      | none => .error (.notFound b key)
  | _, _ => .error (.wrongCount b args.length)

/-- Calls the function with a name. -/
def call (s : Scope) (name : String) (args : List String) : Except CallFault String :=
  match Builtin.ofName? name with
  | none => .error (.unknown name)
  | some b => b.apply s args

/-- A function goes by its title. -/
@[simp]
theorem call_title (s : Scope) (b : Builtin) (args : List String) :
    call s b.title args = b.apply s args := by
  rw [call, Builtin.ofName?_title]

end VersionTrail.Template
