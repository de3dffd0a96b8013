/-
# Arithmetic expressions

Sums and differences of products, quotients and remainders of signed numbers
and of expressions in parentheses, over double precision. Operators of one
level group to the left and signs bind strongest. The value is worked out while
the expression is read, so that of two faults the one met first is reported.
A result that is a whole number of less than 2^63 is written as an integer, any
other one with the fewest digits that read back, never with an exponent.
-/
import VersionTrail.Decimal.Shortest
import VersionTrail.Text

namespace VersionTrail.Calc

open VersionTrail.Text

/-- Why an expression has no value. -/
inductive Fault where
  | empty
  | divisionByZero
  | unclosed
  | endsEarly
  | unexpected (c : Char)
  | badLiteral (literal : String)
  | trailing (c : Char) (expression : String)
  | notANumber (expression : String)
  deriving DecidableEq, Repr

/-- The fault as a text. -/
def Fault.message : Fault → String
  | .empty => "the expression is empty"
  | .divisionByZero => "division by zero"
  | .unclosed => "missing ')' in expression"
  | .endsEarly => "the expression ends unexpectedly"
  | .unexpected c => "unexpected '" ++ String.singleton c ++ "' in expression"
  | .badLiteral l => "'" ++ l ++ "' is not a number"
  | .trailing c e => "unexpected '" ++ String.singleton c ++ "' in expression '" ++ e ++ "'"
  | .notANumber e => "expression '" ++ e ++ "' does not produce a number"

/-- The binary operations. -/
inductive Operation where
  | add
  | subtract
  | multiply
  | divide
  | remainder
  deriving DecidableEq, Repr

/-- A finite number as `m · 2^e` with its sign left out. -/
structure Parts where
  mantissa : Nat
  exponent : Int

/-- The parts of a finite double. -/
def partsOf (x : Float) : Parts :=
  let b := Decimal.Binary.ofBits x.toBits
  ⟨b.mantissa, b.exponent⟩

/-- Whether a double has a minus sign. -/
def isSigned (x : Float) : Bool :=
  0x8000000000000000 ≤ x.toBits.toNat

/-- The remainder of a division that rounds the quotient toward zero. It has
the sign of the dividend and is exact. -/
def leftover (x y : Float) : Float :=
  if x.isNaN || y.isNaN || x.isInf || y == 0 then 0.0 / 0.0
  else if y.isInf then x
  else
    let a := partsOf x
    let b := partsOf y
    let low := min a.exponent b.exponent
    let m := a.mantissa * Nat.pow 2 (a.exponent - low).toNat
    let n := b.mantissa * Nat.pow 2 (b.exponent - low).toNat
    let magnitude := (Float.ofNat (m % n)).scaleB low
    if isSigned x then -magnitude else magnitude

/-- Whether an operation is refused where its right side is zero. -/
def Operation.divides : Operation → Bool
  | .divide => true
  | .remainder => true
  | _ => false

/-- Applies an operation. -/
def Operation.apply (op : Operation) (x y : Float) : Except Fault Float :=
  if op.divides && y == 0 then .error .divisionByZero
  else
    .ok (match op with
      | .add => x + y
      | .subtract => x - y
      | .multiply => x * y
      | .divide => x / y
      | .remainder => leftover x y)

/-- The operation of a sum that a character stands for. -/
def sumOperation? : Char → Option Operation
  | '+' => some .add
  | '-' => some .subtract
  | _ => none

/-- The operation of a product that a character stands for. -/
def productOperation? : Char → Option Operation
  | '*' => some .multiply
  | '/' => some .divide
  | '%' => some .remainder
  | _ => none

/-- Whether a character can be part of a literal. -/
def isLiteralChar (c : Char) : Bool :=
  c.isDigit || c == '.'

/-- The value of a literal: digits with at most one point among them, and at
least one digit. -/
def literalValue? (cs : List Char) : Option Float :=
  match splitFirst? '.' cs with
  | none =>
    if isNumeral cs then some (Float.ofScientific (Nat.ofDigitChars 10 cs 0) false 0) else none
  | some (whole, fraction) =>
    if isNumeral (whole ++ fraction) then
      some (Float.ofScientific (Nat.ofDigitChars 10 (whole ++ fraction) 0) true fraction.length)
    else none

/-- What is left behind something that was read from `cs`: strictly less. -/
abbrev Rest (cs : List Char) :=
  { rest : List Char // rest.length < cs.length }

/-- Dropping blanks leaves no more characters. -/
theorem length_dropBlanks_le (cs : List Char) : (dropBlanks cs).length ≤ cs.length :=
  (List.dropWhile_sublist (p := isBlank)).length_le

/-- What is left of a tail is left of the whole. -/
def Rest.weaken {cs ds : List Char} (h : ds.length ≤ cs.length) (r : Rest ds) : Rest cs :=
  ⟨r.1, Nat.lt_of_lt_of_le r.2 h⟩

/-- Reads a literal from a text that starts with one of its characters. -/
def readLiteral (c : Char) (cs : List Char) : Except Fault (Float × Rest (c :: cs)) :=
  let literal := c :: cs.takeWhile isLiteralChar
  let rest : Rest (c :: cs) := ⟨cs.dropWhile isLiteralChar,
    Nat.lt_succ_of_le (List.dropWhile_sublist (p := isLiteralChar)).length_le⟩
  match literalValue? literal with
  | some x => .ok (x, rest)
  | none => .error (.badLiteral (String.ofList literal))

mutual

/-- Reads a sum and works it out. -/
def readSum (cs : List Char) : Except Fault (Float × Rest cs) :=
  match readProduct cs with
  | .error e => .error e
  | .ok (x, rest) =>
    match readSumTail x rest.1 with
    | .error e => .error e
    | .ok (y, rest') => .ok (y, ⟨rest'.1, Nat.lt_of_le_of_lt rest'.2 rest.2⟩)
termination_by (cs.length, 3)
decreasing_by
  · exact Prod.Lex.right _ (by decide)
  · exact Prod.Lex.left _ _ rest.2

/-- Reads the terms behind the first one and adds them to its value. -/
def readSumTail (x : Float) (cs : List Char) :
    Except Fault (Float × { rest : List Char // rest.length ≤ cs.length }) :=
  match h : dropBlanks cs with
  | [] => .ok (x, ⟨[], Nat.zero_le _⟩)
  | c :: after =>
    have shorter : after.length < cs.length := by
      have := length_dropBlanks_le cs
      rw [h] at this
      exact this
    match sumOperation? c with
    | none => .ok (x, ⟨c :: after, shorter⟩)
    | some op =>
      match readProduct after with
      | .error e => .error e
      | .ok (y, rest) =>
        match op.apply x y with
        | .error e => .error e
        | .ok z =>
          match readSumTail z rest.1 with
          | .error e => .error e
          | .ok (w, rest') =>
            .ok (w, ⟨rest'.1, Nat.le_trans rest'.2 (Nat.le_of_lt (Nat.lt_trans rest.2 shorter))⟩)
termination_by (cs.length, 0)
decreasing_by
  · exact Prod.Lex.left _ _ shorter
  · exact Prod.Lex.left _ _ (Nat.lt_trans rest.2 shorter)

/-- Reads a product and works it out. -/
def readProduct (cs : List Char) : Except Fault (Float × Rest cs) :=
  match readSigned cs with
  | .error e => .error e
  | .ok (x, rest) =>
    match readProductTail x rest.1 with
    | .error e => .error e
    | .ok (y, rest') => .ok (y, ⟨rest'.1, Nat.lt_of_le_of_lt rest'.2 rest.2⟩)
termination_by (cs.length, 2)
decreasing_by
  · exact Prod.Lex.right _ (by decide)
  · exact Prod.Lex.left _ _ rest.2

/-- Reads the factors behind the first one and applies them to its value. -/
def readProductTail (x : Float) (cs : List Char) :
    Except Fault (Float × { rest : List Char // rest.length ≤ cs.length }) :=
  match h : dropBlanks cs with
  | [] => .ok (x, ⟨[], Nat.zero_le _⟩)
  | c :: after =>
    have shorter : after.length < cs.length := by
      have := length_dropBlanks_le cs
      rw [h] at this
      exact this
    match productOperation? c with
    | none => .ok (x, ⟨c :: after, shorter⟩)
    | some op =>
      match readSigned after with
      | .error e => .error e
      | .ok (y, rest) =>
        match op.apply x y with
        | .error e => .error e
        | .ok z =>
          match readProductTail z rest.1 with
          | .error e => .error e
          | .ok (w, rest') =>
            .ok (w, ⟨rest'.1, Nat.le_trans rest'.2 (Nat.le_of_lt (Nat.lt_trans rest.2 shorter))⟩)
termination_by (cs.length, 0)
decreasing_by
  · exact Prod.Lex.left _ _ shorter
  · exact Prod.Lex.left _ _ (Nat.lt_trans rest.2 shorter)

/-- Reads a literal or an expression in parentheses, with signs in front. -/
def readSigned (cs : List Char) : Except Fault (Float × Rest cs) :=
  match h : dropBlanks cs with
  | [] => .error .endsEarly
  | c :: after =>
    have shorter : after.length < cs.length := by
      have := length_dropBlanks_le cs
      rw [h] at this
      exact this
    if c = '-' then
      match readSigned after with
      | .error e => .error e
      | .ok (x, rest) => .ok (-x, rest.weaken (Nat.le_of_lt shorter))
    else if c = '+' then
      match readSigned after with
      | .error e => .error e
      | .ok (x, rest) => .ok (x, rest.weaken (Nat.le_of_lt shorter))
    else if c = '(' then
      match readSum after with
      | .error e => .error e
      | .ok (x, rest) =>
        match h' : dropBlanks rest.1 with
        | ')' :: behind =>
          .ok (x, ⟨behind, by
            have hle := length_dropBlanks_le rest.1
            rw [h'] at hle
            exact Nat.lt_trans (Nat.lt_of_lt_of_le (Nat.lt_succ_self _) hle)
              (Nat.lt_trans rest.2 shorter)⟩)
        | _ => .error .unclosed
    else if isLiteralChar c then
      match readLiteral c after with
      | .error e => .error e
      | .ok (x, rest) => .ok (x, rest.weaken (by
          have := length_dropBlanks_le cs
          rw [h] at this
          exact this))
    else .error (.unexpected c)
termination_by (cs.length, 1)
decreasing_by
  all_goals exact Prod.Lex.left _ _ shorter

end

/-- Whether a finite double is a whole number below 2^63 in magnitude; then its
value. -/
def whole? (x : Float) : Option Int :=
  let p := partsOf x
  let scaled := p.mantissa * Nat.pow 2 p.exponent.toNat
  let unit := Nat.pow 2 (-p.exponent).toNat
  if scaled % unit = 0 ∧ fits (scaled / unit) then
    some (if isSigned x then -(scaled / unit : Int) else (scaled / unit : Int))
  else none

/-- The text of a finite number. -/
def numberText (x : Float) : String :=
  match whole? x with
  | some n => toString n
  | none =>
    let sign := if isSigned x then ['-'] else []
    String.ofList (sign ++ (Decimal.shortest (.ofBits x.toBits)).positional)

/-- Works out an expression. -/
def evaluate (expression : String) : Except Fault String :=
  let cs := expression.toList
  if (dropBlanks cs).isEmpty then .error .empty
  else
    match readSum cs with
    | .error e => .error e
    | .ok (x, rest) =>
      match dropBlanks rest.1 with
      | c :: _ => .error (.trailing c expression)
      | [] => if x.isFinite then .ok (numberText x) else .error (.notANumber expression)

end VersionTrail.Calc
