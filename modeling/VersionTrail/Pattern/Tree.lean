/-
# Syntax trees of patterns

The tree of a pattern after its flags have been applied: what a character class
holds, which line ends an assertion knows and whether a repetition is greedy is
settled when the tree is built.
-/
import VersionTrail.Pattern.CharClass

namespace VersionTrail.Pattern

/-- A condition on the place between two characters. `unicode` chooses which
characters form words. -/
inductive Assertion where
  /-- The start of the text. -/
  | start
  /-- The end of the text. -/
  | stop
  /-- The start of a line; with `crlf`, carriage returns end lines as well. -/
  | lineStart (crlf : Bool)
  /-- The end of a line; with `crlf`, carriage returns end lines as well. -/
  | lineStop (crlf : Bool)
  /-- A word starts or ends here. -/
  | wordEdge (unicode : Bool)
  /-- No word starts or ends here. -/
  | noWordEdge (unicode : Bool)
  /-- A word starts here. -/
  | wordStart (unicode : Bool)
  /-- A word ends here. -/
  | wordStop (unicode : Bool)
  /-- No word character stands in front. -/
  | wordStartHalf (unicode : Bool)
  /-- No word character follows. -/
  | wordStopHalf (unicode : Bool)
  deriving Repr

/-- What a pattern says about a text. -/
inductive Tree where
  /-- The empty text. -/
  | empty
  /-- One character of a class. -/
  | one (cls : CharClass)
  | look (a : Assertion)
  /-- One after the other. -/
  | seq (first second : Tree)
  /-- The first, or else the second. -/
  | alt (first second : Tree)
  /-- A numbered group whose text is remembered. -/
  | group (index : Nat) (name : Option String) (body : Tree)
  /-- At least `least` and, where given, at most `most` times. -/
  | repeated (least : Nat) (most : Option Nat) (greedy : Bool) (body : Tree)
  deriving Repr

namespace Tree

/-- Whether the tree matches the empty text only. -/
def onlyEmpty : Tree → Bool
  | .empty => true
  | .one _ => false
  | .look _ => true
  | .seq a b => a.onlyEmpty && b.onlyEmpty
  | .alt a b => a.onlyEmpty && b.onlyEmpty
  | .group _ _ t => t.onlyEmpty
  | .repeated _ most _ t => most == some 0 || t.onlyEmpty

/-- Whether the tree can match the empty text. -/
def canBeEmpty : Tree → Bool
  | .empty => true
  | .one _ => false
  | .look _ => true
  | .seq a b => a.canBeEmpty && b.canBeEmpty
  | .alt a b => a.canBeEmpty || b.canBeEmpty
  | .group _ _ t => t.canBeEmpty
  | .repeated least _ _ t => least == 0 || t.canBeEmpty

/-- A repetition in its simplest form. What matches the empty text only is
taken at most once, nothing repeated at most zero times remains, and once is
the tree itself. -/
def repeatTimes (least : Nat) (most : Option Nat) (greedy : Bool) (body : Tree) : Tree :=
  let least' := if body.onlyEmpty then min least 1 else least
  let most' := if body.onlyEmpty then some (min (most.getD 1) 1) else most
  match least', most' with
  | 0, some 0 => .empty
  | 1, some 1 => body
  | l, m => .repeated l m greedy body

/-- The groups that remain in the tree, with their names. -/
def groups : Tree → List (Nat × Option String)
  | .empty => []
  | .one _ => []
  | .look _ => []
  | .seq a b => a.groups ++ b.groups
  | .alt a b => a.groups ++ b.groups
  | .group i name t => (i, name) :: t.groups
  | .repeated _ _ _ t => t.groups

/-- A rough count of the bytes that a matcher over encoded text needs for the tree.
Repetitions are counted out. It is an estimate, as for classes, so a pattern whose exact
count is near the limit may be taken or refused against that count. -/
def weight : Tree → Nat
  | .empty => 32
  | .one (.ranges [(a, b)]) =>
    if a == b then
      32 * (if a < 0x80 then 1 else if a < 0x800 then 2 else if a < 0x10000 then 3 else 4)
    else (CharClass.ranges [(a, b)]).weight
  | .one cls => cls.weight
  | .look _ => 32
  | .seq a b => a.weight + b.weight
  | .alt a b => 40 + a.weight + b.weight
  | .group _ _ t => 64 + t.weight
  | .repeated least none _ t => 80 + max least 1 * t.weight
  | .repeated least (some most) _ t => 32 + least * t.weight + (most - least) * (40 + t.weight)

end Tree

end VersionTrail.Pattern
