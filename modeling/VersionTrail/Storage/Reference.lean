/-
# References

A reference is a name for an object or for another reference. References have
files of their own, or lines in a common file of packed references, which holds
where there is no file. The reference `HEAD` leads to the present commit.
-/
import VersionTrail.Storage.Pack
import VersionTrail.Text

namespace VersionTrail.Storage

open VersionTrail.Text
open VersionTrail.History (Head)

/-- What a reference is a name for. -/
inductive Target where
  | object (id : String)
  | reference (name : String)
  deriving DecidableEq, Repr

/-- What is left of a text behind its start. -/
def behind? (start : String) (text : String) : Option String :=
  if start.toList.isPrefixOf text.toList then
    some (String.ofList (text.toList.drop start.length))
  else none

/-- Reads the file of a reference. -/
def readTarget? (content : String) : Option Target :=
  match behind? "ref:" content with
  | some name => some (.reference (trim name))
  | none => if isId (trim content) then some (.object (trim content)) else none

/-- Reads a line of the file of packed references. Other lines are comments or
belong to the line in front of them. -/
def packedLine? (line : String) : Option (String × Target) :=
  match splitFirst? ' ' line.toList with
  | some (id, name) =>
    if isId (String.ofList id) then some (trim (String.ofList name), .object (String.ofList id))
    else none
  | none => none

/-- Reads the file of packed references. -/
def readPacked (content : String) : List (String × Target) :=
  (content.splitOn "\n").filterMap packedLine?

/-- References by their names. -/
abbrev References := List (String × Target)

namespace References

/-- The longest row of references. -/
def longestRow : Nat :=
  5

/-- Follows a target through at most `n` references to the last name and its
object, if it has one. -/
def follow (rs : References) : Nat → String → Target → String × Option String
  | _, name, .object id => (name, some id)
  | 0, _, .reference name => (name, none)
  | n + 1, _, .reference name =>
    match rs.lookup name with
    | some target => rs.follow n name target
    | none => (name, none)

/-- The name of a reference without the folder that tells its kind. -/
def shortName (name : String) : String :=
  let short? := ["refs/heads/", "refs/tags/", "refs/remotes/", "refs/"].findSome? fun start =>
    behind? start name
  short?.getD name

/-- Where the present commit is. -/
def head (rs : References) : Target → Head
  | .object id => .detached id
  | .reference name =>
    let (name, id) := rs.follow longestRow name (.reference name)
    .branch (shortName name) id

/-- The names of tags with the objects they lead to. -/
def tags (rs : References) : List (String × String) :=
  rs.filterMap fun (name, target) => do
    let short ← behind? "refs/tags/" name
    let id ← (rs.follow longestRow name target).2
    some (short, id)

/-- The objects from which a history is read: the present one and those of
tags. -/
def starts (rs : References) (target : Target) : List String :=
  (rs.follow longestRow "HEAD" target).2.toList ++ rs.tags.map Prod.snd

end References

end VersionTrail.Storage
