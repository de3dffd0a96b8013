/-
# Reading patterns

The reader turns the text of a pattern into a syntax tree, with the flags in
force at each place already applied. Flags set in a group hold until the group
ends. Each step of a loop takes at least one character, so a count of the
characters bounds the reading.
-/
import VersionTrail.Pattern.Fault
import VersionTrail.Pattern.CharClass
import VersionTrail.Pattern.Tree
import VersionTrail.Text

namespace VersionTrail.Pattern

open VersionTrail.Text

/-- The flags in force at a place of a pattern. -/
structure Flags where
  ignoreCase : Bool := false
  multiLine : Bool := false
  dotAll : Bool := false
  swapGreed : Bool := false
  unicode : Bool := true
  crlf : Bool := false
  /-- Blanks and comments in the pattern mean nothing. -/
  extended : Bool := false

/-- Drops a comment, up to and with the end of its line. -/
def dropComment : List Char → List Char
  | [] => []
  | '\n' :: cs => cs
  | _ :: cs => dropComment cs

/-- Drops blanks and comments, looking at no more than `n` characters. -/
def dropLayoutFuel : Nat → List Char → List Char
  | n + 1, c :: cs =>
    if isBlank c then dropLayoutFuel n cs
    else if c = '#' then dropLayoutFuel n (dropComment cs)
    else c :: cs
  | _, cs => cs

/-- Drops blanks and comments where the flags ask for it. -/
def Flags.dropLayout (fl : Flags) (cs : List Char) : List Char :=
  if fl.extended then dropLayoutFuel cs.length cs else cs

/-- A text in front of the rest, and what stands behind it. -/
def dropText? : List Char → List Char → Option (List Char)
  | [], cs => some cs
  | m :: ms, c :: cs => if m = c then dropText? ms cs else none
  | _ :: _, [] => none

/-- One item that a backslash or a plain character stands for. -/
inductive Atom where
  /-- A character, and whether it was written as a byte. -/
  | char (c : Char) (byte : Bool)
  | cls (c : CharClass)
  | look (a : Assertion)

/-- The value of a hexadecimal digit. -/
def hexValue? (c : Char) : Option Nat :=
  if c.isDigit then some (c.toNat - 48)
  else if 'a' ≤ c ∧ c ≤ 'f' then some (c.toNat - 87)
  else if 'A' ≤ c ∧ c ≤ 'F' then some (c.toNat - 55)
  else none

/-- The character with a number, if there is one. -/
def scalar? (n : Nat) : Option Char :=
  if n.isValidChar then some (Char.ofNat n) else none

/-- Reads `count` more hexadecimal digits. -/
def hexDigits (fl : Flags) : Nat → Nat → List Char → Except Fault (Nat × List Char)
  | 0, n, cs => .ok (n, cs)
  | count + 1, n, cs =>
    match fl.dropLayout cs with
    | [] => .error .unfinishedEscape
    | c :: rest =>
      match hexValue? c with
      | some d => hexDigits fl count (16 * n + d) rest
      | none => .error .badNumber

/-- Reads hexadecimal digits up to a closing brace; `seen` tells whether there
was one already. -/
def hexInBraces (fl : Flags) (seen : Bool) (n : Nat) : List Char → Except Fault (Nat × List Char)
  | [] => .error .unfinishedEscape
  | '\x7d' :: rest => if seen then .ok (n, fl.dropLayout rest) else .error .badNumber
  | c :: rest =>
    if fl.extended ∧ isBlank c then hexInBraces fl seen n rest
    else match hexValue? c with
      | some d => hexInBraces fl true (16 * n + d) rest
      | none => .error .badNumber

/-- Reads a character written in hexadecimal, from behind the letter. -/
def hexChar (fl : Flags) (count : Nat) (cs : List Char) : Except Fault (Atom × List Char) := do
  let read : Except Fault (Nat × Bool × List Char) := match fl.dropLayout cs with
    | '\x7b' :: inner => (hexInBraces fl false 0 inner).map fun (n, r) => (n, false, r)
    | other => (hexDigits fl count 0 other).map fun (n, r) => (n, count == 2, fl.dropLayout r)
  let (n, byte, rest) ← read
  match scalar? n with
  | some c => .ok (.char c byte, rest)
  | none => .error .badNumber

/-- The characters up to a closing brace. -/
def upToBrace (fl : Flags) : List Char → Except Fault ((List Char) × List Char)
  | [] => .error .unfinishedEscape
  | '\x7d' :: rest => .ok ([], rest)
  | c :: rest =>
    if fl.extended ∧ isBlank c then upToBrace fl rest
    else (upToBrace fl rest).map fun (name, r) => (c :: name, r)

/-- The front and the back of a text around the first `!=`. -/
def splitUnequal? : List Char → Option (List Char × List Char)
  | '!' :: '=' :: rest => some ([], rest)
  | c :: cs => (splitUnequal? cs).map fun (front, back) => (c :: front, back)
  | [] => none

/-- The ranges that the text between the braces of a property stands for, and
whether the writing negates them. -/
def propertyOf? (inner : List Char) : Option (Property.Ranges × Bool) :=
  match splitUnequal? inner with
  | some (p, v) => (Property.valued? (String.ofList p) (String.ofList v)).map (·, true)
  | none =>
    match (splitFirst? ':' inner).orElse fun _ => splitFirst? '=' inner with
    | some (p, v) => (Property.valued? (String.ofList p) (String.ofList v)).map (·, false)
    | none => (Property.named? (String.ofList inner)).map (·, false)

/-- Applies case folding and then negation to a class. -/
def Flags.finish (fl : Flags) (negated : Bool) (c : CharClass) : Except Fault CharClass :=
  let folded := if fl.ignoreCase then CharClass.anyCase c else c
  if negated then
    if fl.unicode then .ok (.complement folded) else .error .outsideAscii
  else .ok folded

/-- Reads a property, from behind the letter. -/
def property (fl : Flags) (negated : Bool) (cs : List Char) : Except Fault (Atom × List Char) := do
  let read : Except Fault (List Char × List Char) := match fl.dropLayout cs with
    | [] => .error .unfinishedEscape
    | '\x7b' :: inner => upToBrace fl inner
    | '\\' :: _ => .error .unknownProperty
    | c :: rest => .ok ([c], fl.dropLayout rest)
  let (inner, rest) ← read
  if !fl.unicode then .error .outsideAscii
  else match propertyOf? inner with
    | none => .error .unknownProperty
    | some (rs, unequal) => do
      let cls ← fl.finish (negated != unequal) (.ranges rs)
      .ok (.cls cls, rest)

/-- The class of `\d`, `\s` or `\w`. -/
def shortClass (fl : Flags) (letter : Char) (negated : Bool) : Except Fault CharClass :=
  let cls : CharClass :=
    match letter, fl.unicode with
    | 'd', true => .digit
    | 's', true => .blank
    | _, true => .word
    | 'd', false => .ranges [(48, 57)]
    | 's', false => .ranges [(9, 13), (32, 32)]
    | _, false => .ranges [(48, 57), (65, 90), (95, 95), (97, 122)]
  if negated then
    if fl.unicode then .ok (.complement cls) else .error .outsideAscii
  else .ok cls

/-- The characters with a meaning of their own in patterns. -/
def metaCharacters : List Char :=
  ['\\', '.', '+', '*', '?', '(', ')', '|', '[', ']', '\x7b', '\x7d', '^', '$', '#', '&', '-', '~']

/-- Whether a backslash in front of the character stands for the character. -/
def isEscapable (c : Char) : Bool :=
  metaCharacters.contains c ||
    (c.toNat < 128 && !c.isAlphanum && c != '<' && c != '>')

/-- The letters and hyphens at the front, layout left out. -/
def wordBoundaryName (fl : Flags) : List Char → List Char × List Char
  | [] => ([], [])
  | c :: cs =>
    if c.isAlpha ∨ c = '-' then
      let (name, rest) := wordBoundaryName fl cs
      (c :: name, rest)
    else if fl.extended ∧ isBlank c then wordBoundaryName fl cs
    else ([], c :: cs)

/-- Reads what may follow `\b` in braces. Braces that start with neither a
letter nor a hyphen are left for a counted repetition. -/
def wordBoundary (fl : Flags) (cs : List Char) : Except Fault (Atom × List Char) :=
  match cs with
  | '\x7b' :: inner =>
    match fl.dropLayout inner with
    | [] => .error .unclosedCount
    | c :: rest =>
      if c.isAlpha ∨ c = '-' then
        match wordBoundaryName fl (c :: rest) with
        | (name, '\x7d' :: after) =>
          if name = "start".toList then .ok (.look (.wordStart fl.unicode), after)
          else if name = "end".toList then .ok (.look (.wordStop fl.unicode), after)
          else if name = "start-half".toList then .ok (.look (.wordStartHalf fl.unicode), after)
          else if name = "end-half".toList then .ok (.look (.wordStopHalf fl.unicode), after)
          else .error .unknownEscape
        | _ => .error .unknownEscape
      else .ok (.look (.wordEdge fl.unicode), cs)
  | _ => .ok (.look (.wordEdge fl.unicode), cs)

/-- Reads what follows a backslash. -/
def escape (fl : Flags) : List Char → Except Fault (Atom × List Char)
  | [] => .error .unfinishedEscape
  | c :: rest =>
    match c with
    | 'x' => hexChar fl 2 rest
    | 'u' => hexChar fl 4 rest
    | 'U' => hexChar fl 8 rest
    | 'p' => property fl false rest
    | 'P' => property fl true rest
    | 'd' => (shortClass fl 'd' false).map fun cls => (.cls cls, rest)
    | 's' => (shortClass fl 's' false).map fun cls => (.cls cls, rest)
    | 'w' => (shortClass fl 'w' false).map fun cls => (.cls cls, rest)
    | 'D' => (shortClass fl 'd' true).map fun cls => (.cls cls, rest)
    | 'S' => (shortClass fl 's' true).map fun cls => (.cls cls, rest)
    | 'W' => (shortClass fl 'w' true).map fun cls => (.cls cls, rest)
    | 'a' => .ok (.char '\x07' false, rest)
    | 'f' => .ok (.char '\x0c' false, rest)
    | 't' => .ok (.char '\t' false, rest)
    | 'n' => .ok (.char '\n' false, rest)
    | 'r' => .ok (.char '\r' false, rest)
    | 'v' => .ok (.char '\x0b' false, rest)
    | 'A' => .ok (.look .start, rest)
    | 'z' => .ok (.look .stop, rest)
    | 'b' => wordBoundary fl rest
    | 'B' => .ok (.look (.noWordEdge fl.unicode), rest)
    | '<' => .ok (.look (.wordStart fl.unicode), rest)
    | '>' => .ok (.look (.wordStop fl.unicode), rest)
    | c => if isEscapable c then .ok (.char c false, rest) else .error .unknownEscape

/-- The class of a character outside of brackets. -/
def literal (fl : Flags) (c : Char) (byte : Bool) : Except Fault Tree :=
  if !fl.unicode ∧ byte ∧ 127 < c.toNat then .error .outsideAscii
  else .ok (.one (.ofChar fl.ignoreCase fl.unicode c))

/-- The tree of an item outside of brackets. -/
def Atom.tree (fl : Flags) : Atom → Except Fault Tree
  | .char c byte => literal fl c byte
  | .cls set => .ok (.one set)
  | .look a => .ok (.look a)

/-- The classes with a name in brackets and colons. -/
def bracketName? (name : String) : Option Property.Ranges :=
  match name with
  | "alnum" => some [(48, 57), (65, 90), (97, 122)]
  | "alpha" => some [(65, 90), (97, 122)]
  | "ascii" => some [(0, 127)]
  | "blank" => some [(9, 9), (32, 32)]
  | "cntrl" => some [(0, 31), (127, 127)]
  | "digit" => some [(48, 57)]
  | "graph" => some [(33, 126)]
  | "lower" => some [(97, 122)]
  | "print" => some [(32, 126)]
  | "punct" => some [(33, 47), (58, 64), (91, 96), (123, 126)]
  | "space" => some [(9, 13), (32, 32)]
  | "upper" => some [(65, 90)]
  | "word" => some [(48, 57), (65, 90), (95, 95), (97, 122)]
  | "xdigit" => some [(48, 57), (65, 70), (97, 102)]
  | _ => none

/-- Reads a class such as `:alpha:]`, from behind its bracket. What is not
written like one is left for other readings. -/
def bracketClass? (cs : List Char) : Option (Property.Ranges × Bool × List Char) :=
  match cs with
  | ':' :: inner =>
    let (negated, inner) := match inner with
      | '^' :: more => (true, more)
      | more => (false, more)
    let name := inner.takeWhile (· != ':')
    match inner.drop name.length with
    | ':' :: ']' :: rest => (bracketName? (String.ofList name)).map (·, negated, rest)
    | _ => none
  | _ => none

/-- A class being read: the operands so far, the operator that waits for its
right side, how deep the nesting is, and how many items the side has. -/
structure ClassState where
  pending : CharClass → CharClass
  pendingDepth : Nat
  current : CharClass
  items : Nat
  depth : Nat

namespace ClassState

/-- The state before the first item. -/
def initial : ClassState :=
  ⟨id, 0, .none, 0, 0⟩

/-- Adds an item of some depth to the current side. -/
def add (s : ClassState) (c : CharClass) (depth : Nat) : ClassState :=
  { s with
    current := if s.items = 0 then c else .union s.current c
    items := s.items + 1
    depth := max s.depth depth }

/-- The depth of the current side. -/
def sideDepth (s : ClassState) : Nat :=
  if 2 ≤ s.items then s.depth + 1 else s.depth

/-- The depth with the operators in front. -/
def totalDepth (s : ClassState) : Nat :=
  if s.pendingDepth = 0 then s.sideDepth else max s.pendingDepth (s.sideDepth + 1)

/-- Ends the current side with an operator. Both sides of an operator are
folded where case is ignored. -/
def operator (s : ClassState) (fl : Flags) (op : CharClass → CharClass → CharClass) : ClassState :=
  let side (c : CharClass) := if fl.ignoreCase then .anyCase c else c
  let left := s.pending s.current
  { initial with
    pending := fun right => op (side left) (side right)
    pendingDepth := s.totalDepth + 1 }

end ClassState

/-- The character that an item of a class stands for. -/
def classChar (fl : Flags) : Atom → Except Fault Char
  | .char c _ =>
    if fl.unicode ∨ c.toNat < 128 then .ok c else .error .outsideAscii
  | _ => .error .badRange

/-- Reads one item of a class: an escape or a character. -/
def classAtom (fl : Flags) : List Char → Except Fault (Atom × List Char)
  | [] => .error .unclosedClass
  | '\\' :: rest => escape fl rest
  | c :: rest => .ok (.char c false, rest)

/-- Reads one item of a class or a range. -/
def classRange (fl : Flags) (cs : List Char) : Except Fault (CharClass × List Char) := do
  let (first, rest) ← classAtom fl cs
  let single : Except Fault CharClass := match first with
    | .cls c => .ok c
    | .look _ => .error .badClassItem
    | a@(.char _ _) => (classChar fl a).map fun c => .single c.toNat
  match fl.dropLayout rest with
  | [] => .error .unclosedClass
  | '-' :: after =>
    match fl.dropLayout after with
    | ']' :: _ | '-' :: _ => single.map fun c => (c, '-' :: after)
    | [] => .error .unclosedClass
    | second => do
      let (last, rest) ← classAtom fl second
      let low ← classChar fl first
      let high ← classChar fl last
      if low ≤ high then .ok (.ranges [(low.toNat, high.toNat)], rest) else .error .badRange
  | rest => single.map fun c => (c, rest)

/-- Reads the hyphens at the start of a class, which stand for themselves. -/
def leadingHyphens (fl : Flags) : Nat → ClassState → List Char → ClassState × List Char
  | n + 1, s, '-' :: cs => leadingHyphens fl n (s.add (.single 45) 0) (fl.dropLayout cs)
  | _, s, cs => (s, cs)

mutual

/-- Reads a class from behind its opening bracket. The number is the depth. -/
def bracket (fl : Flags) : Nat → List Char → Except Fault ((CharClass × Nat) × List Char)
  | 0, _ => .error .unclosedClass
  | fuel + 1, cs => do
    let (negated, cs) := match fl.dropLayout cs with
      | '^' :: more => (true, fl.dropLayout more)
      | more => (false, more)
    let (s, cs) := leadingHyphens fl cs.length .initial cs
    let (s, cs) := match s.items, cs with
      | 0, ']' :: more => (s.add (.single 93) 0, fl.dropLayout more)
      | _, more => (s, more)
    let ((c, depth), rest) ← classItems fl fuel s cs
    let c ← fl.finish negated c
    .ok ((c, depth + 1), rest)

/-- Reads the items of a class up to its closing bracket. -/
def classItems (fl : Flags) :
    Nat → ClassState → List Char → Except Fault ((CharClass × Nat) × List Char)
  | 0, _, _ => .error .unclosedClass
  | fuel + 1, s, cs =>
    match fl.dropLayout cs with
    | [] => .error .unclosedClass
    | ']' :: rest => .ok ((s.pending s.current, s.totalDepth), rest)
    | '&' :: '&' :: rest => classItems fl fuel (s.operator fl .inter) rest
    | '-' :: '-' :: rest => classItems fl fuel (s.operator fl .minus) rest
    | '~' :: '~' :: rest => classItems fl fuel (s.operator fl .exclusive) rest
    | '[' :: inner =>
      match bracketClass? inner with
      | some (rs, negated, rest) => do
        let c ← fl.finish negated (.ranges rs)
        classItems fl fuel (s.add c 0) rest
      | none => do
        let ((c, depth), rest) ← bracket fl fuel inner
        classItems fl fuel (s.add c depth) rest
    | other => do
      let (c, rest) ← classRange fl other
      classItems fl fuel (s.add c 0) rest

end

/-- Reads flags such as `i-s`, up to and with the colon or parenthesis behind
them, which is given back. `on` tells whether flags are set or cleared, `seen`
which signs were there already. -/
def flagList (on : Bool) (last : Option Char) (seen : List Char) (fl : Flags) :
    List Char → Except Fault (Flags × Bool × Char × List Char)
  | [] => .error .badFlags
  | c :: rest =>
    if c = ':' ∨ c = ')' then
      if last = some '-' then .error .badFlags else .ok (fl, seen.isEmpty, c, rest)
    else if seen.contains c then .error .badFlags
    else
      let next on fl := flagList on (some c) (c :: seen) fl rest
      match c with
      | '-' => next false fl
      | 'i' => next on { fl with ignoreCase := on }
      | 'm' => next on { fl with multiLine := on }
      | 's' => next on { fl with dotAll := on }
      | 'U' => next on { fl with swapGreed := on }
      | 'u' => next on { fl with unicode := on }
      | 'R' => next on { fl with crlf := on }
      | 'x' => next on { fl with extended := on }
      | _ => .error .badFlags

/-- Whether a character can start the name of a group. -/
def startsName (c : Char) : Bool :=
  c == '_' || ((Property.binary? "alphabetic").getD []).holds c.toNat

/-- Whether a character can continue the name of a group. -/
def continuesName (c : Char) : Bool :=
  startsName c || c == '.' || c == '[' || c == ']' ||
    (Property.categoryRanges ["N"]).holds c.toNat

/-- Whether a text can name a group. -/
def isGroupName : List Char → Bool
  | [] => false
  | c :: cs => startsName c && cs.all continuesName

/-- Reads the name of a group up to and with the `>` behind it. -/
def groupName (cs : List Char) : Except Fault (String × List Char) :=
  let name := cs.takeWhile (· != '>')
  match cs.drop name.length with
  | '>' :: rest =>
    if isGroupName name then .ok (String.ofList name, rest) else .error .badGroupName
  | _ => .error .badGroupName

/-- Reads a number with layout around it; no digits give no number. -/
def countNumber (fl : Flags) (cs : List Char) : Except Fault (Option Nat × List Char) :=
  let body := cs.dropWhile isBlank
  let rec digitsOf : List Char → List Char × List Char
    | [] => ([], [])
    | c :: more =>
      if c.isDigit then
        let (ds, rest) := digitsOf more
        (c :: ds, rest)
      else if fl.extended ∧ isBlank c then digitsOf more
      else ([], c :: more)
  let (ds, rest) := digitsOf body
  let rest := fl.dropLayout (rest.dropWhile isBlank)
  if ds.isEmpty then .ok (none, rest)
  else if Nat.ofDigitChars 10 ds 0 < 4294967296 then .ok (some (Nat.ofDigitChars 10 ds 0), rest)
  else .error .badCount

/-- Reads the counts of a repetition, from behind the opening brace up to and
with the closing one. -/
def counts (fl : Flags) (cs : List Char) : Except Fault ((Nat × Option Nat) × List Char) :=
  match fl.dropLayout cs with
  | [] => .error .unclosedCount
  | cs => do
    let (least?, rest) ← countNumber fl cs
    match least?, rest with
    | some least, '\x7d' :: rest => .ok ((least, some least), rest)
    | least?, ',' :: rest =>
      match least?, fl.dropLayout rest with
      | some least, '\x7d' :: rest => .ok ((least, none), rest)
      | some least, rest => do
        let (most?, rest) ← countNumber fl rest
        match most?, rest with
        | some most, '\x7d' :: rest =>
          if least ≤ most then .ok ((least, some most), rest) else .error .badCount
        | _, _ => .error .badCount
      | none, _ => .error .badCount
    | _, _ => .error .unclosedCount

/-- One item of a sequence: its tree, its depth, and whether it can be
repeated, which the setting of flags cannot. -/
structure Piece where
  tree : Tree
  depth : Nat
  repeatable : Bool

/-- The tree and depth of a sequence of items, the last one first. -/
def joinPieces (pieces : List Piece) : Tree × Nat :=
  let depth := pieces.foldl (fun d p => max d p.depth) 0
  match pieces with
  | [] => (.empty, 0)
  | [p] => (p.tree, p.depth)
  | p :: ps => (ps.foldl (fun t q => .seq q.tree t) p.tree, depth + 1)

/-- The tree and depth of alternatives, the last one first. -/
def joinBranches (branches : List (Tree × Nat)) : Tree × Nat :=
  let depth := branches.foldl (fun d b => max d b.2) 0
  match branches with
  | [] => (.empty, 0)
  | [b] => b
  | b :: bs => (bs.foldl (fun t q => .alt q.1 t) b.1, depth + 1)

/-- What is known in the middle of a pattern: the numbers and names of the
groups opened so far, and the text that is left. -/
structure Place where
  groups : Nat
  names : List String
  rest : List Char

/-- Applies a repetition to the last item. -/
def repeatLast (fl : Flags) (least : Nat) (most : Option Nat) (pieces : List Piece)
    (rest : List Char) : Except Fault (List Piece × List Char) :=
  match pieces with
  | [] => .error .nothingToRepeat
  | p :: ps =>
    if !p.repeatable then .error .nothingToRepeat
    else
      let (lazy, rest) := match rest with
        | '?' :: more => (true, more)
        | more => (false, more)
      .ok (⟨.repeatTimes least most (lazy == fl.swapGreed) p.tree, p.depth + 1, true⟩ :: ps, rest)

/-- How a group begins. -/
inductive Opening where
  /-- The setting of flags for what follows. -/
  | flags (fl : Flags)
  | plain (fl : Flags)
  | capture (name : Option String)

/-- Reads the beginning of a group, from behind the parenthesis. -/
def opening (fl : Flags) (cs : List Char) : Except Fault (Opening × List Char) :=
  let cs := fl.dropLayout cs
  let starts (mark : String) := (dropText? mark.toList cs).isSome
  if starts "?=" || starts "?!" || starts "?<=" || starts "?<!" then .error .lookAround
  else
    match (dropText? "?P<".toList cs).orElse fun _ => dropText? "?<".toList cs with
    | some rest => (groupName rest).map fun (name, r) => (.capture (some name), r)
    | none =>
      match cs with
      | '?' :: rest => do
        let (new, noFlags, close, rest) ← flagList true none [] fl rest
        if close = ':' then .ok (.plain new, rest)
        else if noFlags then .error .nothingToRepeat
        else .ok (.flags new, rest)
      | _ => .ok (.capture none, cs)

/-- Reads alternatives up to the end of the group or of the pattern. `branches`
are those in front and `pieces` the items of the present one, last first. -/
def alternatives (inGroup : Bool) : Nat → Flags → List (Tree × Nat) → List Piece → Place →
    Except Fault (Tree × Nat × Place)
  | 0, _, _, _, _ => .error .unclosedGroup
  | fuel + 1, fl, branches, pieces, at_ =>
    let finish (rest : List Char) : Except Fault (Tree × Nat × Place) :=
      let (t, d) := joinBranches (joinPieces pieces :: branches)
      .ok (t, d, { at_ with rest })
    let push (t : Tree) (d : Nat) (place : Place) :=
      alternatives inGroup fuel fl branches (⟨t, d, true⟩ :: pieces) place
    match fl.dropLayout at_.rest with
    | [] => if inGroup then .error .unclosedGroup else finish []
    | ')' :: rest => if inGroup then finish rest else .error .unopenedGroup
    | '|' :: rest =>
      alternatives inGroup fuel fl (joinPieces pieces :: branches) [] { at_ with rest }
    | '(' :: rest => do
      let (how, rest) ← opening fl rest
      match how with
      | .flags new =>
        alternatives inGroup fuel new branches (⟨.empty, 0, false⟩ :: pieces) { at_ with rest }
      | .plain new => do
        let (t, d, place) ← alternatives true fuel new [] [] { at_ with rest }
        push t (d + 1) place
      | .capture name? => do
        let index := at_.groups + 1
        if (name?.map at_.names.contains).getD false then .error .repeatedGroupName
        else do
          let names := name?.toList ++ at_.names
          let (t, d, place) ← alternatives true fuel fl [] [] ⟨index, names, rest⟩
          push (.group index name? t) (d + 1) place
    | '[' :: rest => do
      let ((c, d), rest) ← bracket fl (rest.length + 1) rest
      push (.one c) d { at_ with rest }
    | '?' :: rest => do
      let (pieces, rest) ← repeatLast fl 0 (some 1) pieces rest
      alternatives inGroup fuel fl branches pieces { at_ with rest }
    | '*' :: rest => do
      let (pieces, rest) ← repeatLast fl 0 none pieces rest
      alternatives inGroup fuel fl branches pieces { at_ with rest }
    | '+' :: rest => do
      let (pieces, rest) ← repeatLast fl 1 none pieces rest
      alternatives inGroup fuel fl branches pieces { at_ with rest }
    | '\x7b' :: rest => do
      let ((least, most), rest) ← counts fl rest
      let (pieces, rest) ← repeatLast fl least most pieces (fl.dropLayout rest)
      alternatives inGroup fuel fl branches pieces { at_ with rest }
    | '\\' :: rest => do
      let (atom, rest) ← escape fl rest
      let t ← atom.tree fl
      push t 0 { at_ with rest }
    | '.' :: rest =>
      if !fl.unicode then .error .outsideAscii
      else
        let barred : CharClass :=
          if fl.dotAll then .none else if fl.crlf then .points [10, 13] else .single 10
        push (.one (.complement barred)) 0 { at_ with rest }
    | '^' :: rest =>
      push (.look (if fl.multiLine then .lineStart fl.crlf else .start)) 0 { at_ with rest }
    | '$' :: rest =>
      push (.look (if fl.multiLine then .lineStop fl.crlf else .stop)) 0 { at_ with rest }
    | c :: rest => do
      let t ← literal fl c false
      push t 0 { at_ with rest }

/-- How deep groups, repetitions and classes may be nested. -/
def depthLimit : Nat :=
  250

/-- Reads a whole pattern. -/
def Tree.read (fl : Flags) (cs : List Char) : Except Fault Tree := do
  let (t, depth, _) ← alternatives false (cs.length + 1) fl [] [] ⟨0, [], cs⟩
  if depthLimit < depth then .error .tooDeep else .ok t

end VersionTrail.Pattern
