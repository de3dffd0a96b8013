/-
# Patterns

A pattern is read once and then applied to texts. Its groups are numbered from
one in the order of their opening parentheses, zero being the whole match. The
names of groups are pairwise distinct, and none is a number, since a name
starts with a letter or an underscore. Both facts are part of the type.

Every match of a pattern is replaced by a text in which `$1`, `$name` and the
same between braces stand for what a group took, and `$$` for a dollar sign. A
name without braces is as long as possible. A group that is unknown or took no
part stands for nothing, and a dollar sign that starts no reference for itself.
-/
import VersionTrail.Pattern.Reader
import VersionTrail.Pattern.Search

namespace VersionTrail

open VersionTrail.Pattern

/-- A pattern that can be applied to texts. -/
structure Pattern where
  program : Program
  /-- The name of each group, if it has one; the whole match is the first. -/
  names : List (Option String)
  /-- No two groups have the same name. -/
  names_nodup : (names.filterMap id).Nodup
  /-- Names start with a letter or an underscore. -/
  names_valid : ∀ n ∈ names.filterMap id, isGroupName n.toList = true

namespace Pattern

/-- The names of the groups from zero to the last one that the tree holds. A
number without a group in the tree has no name. -/
def namesOf (t : Tree) : List (Option String) :=
  let groups := t.groups
  let last := groups.foldl (fun m g => max m g.1) 0
  none :: (List.range last).map fun i => (groups.lookup (i + 1)).join

/-- Reads a pattern. With `ignoreCase`, letters match in both cases from the
start. -/
def compile (ignoreCase : Bool) (text : String) : Except Fault Pattern := do
  let t ← Tree.read { ignoreCase } text.toList
  if Fault.sizeLimit < t.weight then .error .tooLarge
  else
    let names := namesOf t
    if h : (names.filterMap id).Nodup ∧ ∀ n ∈ names.filterMap id, isGroupName n.toList = true then
      .ok ⟨.ofTree t, names, h.1, h.2⟩
    else .error .repeatedGroupName

/-- What a match took: the text of each group that took part. -/
structure Captures where
  names : List (Option String)
  groups : List (Option String)

/-- The text of a numbered group, if the group took part in the match. -/
def Captures.group? (c : Captures) (index : Nat) : Option String :=
  (c.groups[index]?).join

/-- The number of the group with a name. -/
def indexOf? (names : List (Option String)) (name : String) : Option Nat :=
  names.findIdx? (· == some name)

/-- The text of a named group, if the group took part in the match. -/
def Captures.named? (c : Captures) (name : String) : Option String :=
  (indexOf? c.names name).bind c.group?

/-- The part of a text between two positions. -/
def slice (cs : List Char) (start stop : Nat) : String :=
  String.ofList ((cs.drop start).take (stop - start))

/-- The captures of a match with noted positions, in the whole text. -/
def capturesOf (p : Pattern) (cs : List Char) (slots : Slots) : Captures :=
  let groups := (List.range p.names.length).map fun i =>
    match slots.getD (2 * i) none, slots.getD (2 * i + 1) none with
    | some start, some stop => some (slice cs start stop)
    | _, _ => none
  ⟨p.names, groups⟩

/-- The captures of the first match in a text. -/
def captures? (p : Pattern) (text : String) : Option Captures :=
  (p.program.search none 0 text.toList).map (p.capturesOf text.toList)

/-- Whether the pattern matches somewhere in a text. -/
def isMatch (p : Pattern) (text : String) : Bool :=
  (p.program.search none 0 text.toList).isSome

/-- The names of the groups that have one, in the order of the groups. -/
def groupNames (p : Pattern) : List String :=
  p.names.filterMap id

end Pattern

end VersionTrail

namespace VersionTrail.Pattern

open VersionTrail.Text

/-- A part of a replacement. -/
inductive Part where
  | plain (c : Char)
  /-- A reference to a group by its number or its name. -/
  | reference (name : List Char)
  deriving Repr

/-- Whether a character can occur in a reference without braces. -/
def isReferenceChar (c : Char) : Bool :=
  c.isAlphanum || c == '_'

/-- Reads the reference behind a dollar sign, if there is one. -/
def readReference? (cs : List Char) : Option (List Char × List Char) :=
  match cs with
  | '\x7b' :: inner => splitFirst? '\x7d' inner
  | _ =>
    let name := cs.takeWhile isReferenceChar
    if name.isEmpty then none else some (name, cs.drop name.length)

/-- Reads the parts of a replacement of at most `n` characters. -/
def readParts : Nat → List Char → List Part
  | 0, _ => []
  | _ + 1, [] => []
  | n + 1, '$' :: '$' :: cs => .plain '$' :: readParts n cs
  | n + 1, '$' :: cs =>
    match readReference? cs with
    | some (name, rest) => .reference name :: readParts n rest
    | none => .plain '$' :: readParts n cs
  | n + 1, c :: cs => .plain c :: readParts n cs

/-- The number that a reference consists of, if it is one below 2^64. -/
def referenceNumber? (name : List Char) : Option Nat :=
  let ds := match name with
    | '+' :: more => more
    | more => more
  let n := Nat.ofDigitChars 10 ds 0
  if isNumeral ds && n < 18446744073709551616 then some n else none

/-- What a part stands for in a match. -/
def Part.expand (c : Captures) : Part → List Char
  | .plain ch => [ch]
  | .reference name =>
    let text? := match referenceNumber? name with
      | some i => c.group? i
      | none => c.named? (String.ofList name)
    (text?.getD "").toList

/-- Replaces the matches in the rest of a text. `last` is the end of the match
in front, directly behind which an empty match does not count; `before` is the
character in front of the rest. Each step takes a character of the rest or ends
a match that took one, so twice the length bounds them. -/
def replaceFrom (p : Pattern) (parts : List Part) (whole : List Char) :
    Nat → Option Nat → Option Char → Nat → List Char → List Char
  | 0, _, _, _, rest => rest
  | fuel + 1, last, before, position, rest =>
    match p.program.search before position rest with
    | none => rest
    | some slots =>
      let start := (slots.getD 0 none).getD position
      let stop := (slots.getD 1 none).getD position
      if start = stop ∧ last = some stop then
        match rest with
        | [] => []
        | c :: cs => c :: replaceFrom p parts whole fuel none (some c) (position + 1) cs
      else
        let kept := rest.take (start - position)
        let taken := rest.drop (stop - position)
        let front := (rest.take (stop - position)).getLast?.or before
        kept ++ parts.flatMap (·.expand (p.capturesOf whole slots)) ++
          replaceFrom p parts whole fuel (some stop) front stop taken

/-- Replaces every match in a text. -/
def replaceAll (p : Pattern) (text replacement : String) : String :=
  let cs := text.toList
  let parts := readParts (replacement.length + 1) replacement.toList
  String.ofList (replaceFrom p parts cs (2 * cs.length + 2) none none 0 cs)

end VersionTrail.Pattern
