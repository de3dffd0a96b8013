/-
# Scripted histories

A history can be written down commit by commit. A side commit belongs to a
branch that was merged: a walk along first parents leaves it out. An entry can
also stand for a commit that cannot be read. A commit that is written down by
its identifier and its message is dated one minute after the one before it, and
its summary is the first line of the message.
-/
import VersionTrail.History.Basic
import VersionTrail.Text

namespace VersionTrail.History

/-- An entry of a scripted history. -/
structure Entry where
  side : Bool
  commit : Except Failure Commit

/-- A scripted history. -/
structure Script where
  path : String := "/mock/repo"
  branch : String := "main"
  tags : List Tag := []
  /-- The entries, the newest one first. -/
  entries : List Entry := []

namespace Script

/-- The author of commits that are written down without one. -/
def author : String :=
  "Test User <test@example.com>"

/-- The second of the first commit: nine o'clock on 1 January 2024. -/
def firstSecond : Int :=
  1704099600

/-- The commit that comes next, with a number of parents. -/
def nextCommit (s : Script) (sha message : String) (parents : Nat) : Commit where
  sha := sha
  message := message
  summary := Text.firstLine message
  author := author
  date := ⟨firstSecond + 60 * s.entries.length, 0, 0⟩
  parents := parents

/-- Puts an entry on top. -/
def push (s : Script) (e : Entry) : Script :=
  { s with entries := e :: s.entries }

/-- Puts a plain commit on top. -/
def commit (s : Script) (sha message : String) : Script :=
  s.push ⟨false, .ok (s.nextCommit sha message 1)⟩

/-- Puts a merge on top. -/
def merge (s : Script) (sha message : String) : Script :=
  s.push ⟨false, .ok (s.nextCommit sha message 2)⟩

/-- Puts a side commit on top. -/
def sideCommit (s : Script) (sha message : String) : Script :=
  s.push ⟨true, .ok (s.nextCommit sha message 1)⟩

/-- Adds a tag behind those that are there. -/
def addTag (s : Script) (t : Tag) : Script :=
  { s with tags := s.tags ++ [t] }

/-- The commits that a walk sees, the newest one first. -/
def walk (s : Script) (firstParentOnly : Bool) : List (Except Failure Commit) :=
  (s.entries.filter fun e => !(firstParentOnly && e.side)).map Entry.commit

/-- The repository that a script is. -/
def toRepository (s : Script) : Repository where
  path := s.path
  branch := .ok s.branch
  tags := .ok s.tags
  walk firstParentOnly := .ok (s.walk firstParentOnly)

end Script

end VersionTrail.History
