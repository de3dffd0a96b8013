/-
# Commits and repositories

A commit is known by its identifier and has a message, an author and a date;
one with more than one parent is a merge. Looking at a commit in search of the
version source may find a tag on it and, for a merge, the rules of the two
branches.

A repository can be asked where it is, which branch is checked out, which tags
it has and which commits lead up to the present one. Every answer can be a
failure, and a walk through the commits can fail on the way.

A message is read without the line feeds at its front. Its summary is the first
paragraph in one line: every run of blanks with a line feed in it becomes one
space, other blanks are kept, and those at the end are dropped. A name or an
address is read without the blanks and marks around it.
-/
import VersionTrail.Calendar.Civil
import VersionTrail.Failure

namespace VersionTrail

/-- A tag and the identifier of the commit that it points at. -/
structure Tag where
  name : String
  annotated : Bool
  /-- The message of an annotated tag; otherwise empty. -/
  message : String
  target : String
  deriving DecidableEq, Repr

/-- A commit as the history has it. -/
structure Commit where
  sha : String
  message : String
  /-- The message in one line. -/
  summary : String
  /-- The author's name and address. -/
  author : String
  date : Calendar.Moment
  parents : Nat
  deriving DecidableEq, Repr

/-- Whether a commit is a merge. -/
def Commit.isMerge (c : Commit) : Bool :=
  1 < c.parents

/-- The first seven characters of the identifier. -/
def Commit.shortSha (c : Commit) : String :=
  String.ofList (c.sha.toList.take 7)

/-- A commit that has been looked at. -/
structure Visit where
  commit : Commit
  /-- The tag that makes the commit the version source. -/
  tag : Option Tag := none
  /-- The rule of the branch that was merged. -/
  fromRule : Option String := none
  /-- The rule of the branch that was merged into. -/
  toRule : Option String := none
  deriving DecidableEq, Repr

/-- What a repository answers. -/
structure Repository where
  path : String
  /-- The name of the branch that is checked out. -/
  branch : Except Failure String
  /-- The tags that lead to commits, in order. -/
  tags : Except Failure (List Tag)
  /-- The commits from the present one back, newest first; with `true`, only
  along first parents. -/
  walk : Bool → Except Failure (List (Except Failure Commit))

end VersionTrail

namespace VersionTrail.History

/-- A message without the line feeds at its front. -/
def messageOf (raw : List Char) : List Char :=
  raw.dropWhile (· == '\n')

/-- Whether a character is a blank of a message. -/
def isMessageBlank (c : Char) : Bool :=
  c == ' ' || (9 ≤ c.toNat && c.toNat ≤ 13)

/-- Whether the first paragraph ends in front of a line feed that these
characters follow: nothing follows, or a line of blanks. -/
def endsParagraph (cs : List Char) : Bool :=
  match cs.dropWhile fun c => c != '\n' && isMessageBlank c with
  | [] => true
  | c :: _ => c == '\n'

/-- The first paragraph. -/
def paragraph : List Char → List Char
  | [] => []
  | c :: cs => if c == '\n' && endsParagraph cs then [] else c :: paragraph cs

/-- A run of blanks in front of other characters, as the summary has it. The
last character comes first. -/
def joinBlanks (run : List Char) : List Char :=
  if run.contains '\n' then [' '] else run.reverse

/-- A paragraph in one line. `run` are the blanks in front, the last one
first. -/
def oneLine (run : List Char) : List Char → List Char
  | [] => []
  | c :: cs =>
    if isMessageBlank c then oneLine (c :: run) cs
    else joinBlanks run ++ c :: oneLine [] cs

/-- The summary of a message. -/
def summaryOf (message : List Char) : List Char :=
  oneLine [] (paragraph message)

/-- Whether a character is dropped at the ends of names and addresses. -/
def isEdgeMark (c : Char) : Bool :=
  c.toNat ≤ 32 || ['.', ',', ':', ';', '<', '>', '"', '\\', '\x27'].contains c

/-- A name or an address without the marks at its ends. -/
def trimMarks (s : String) : String :=
  String.ofList ((s.toList.dropWhile isEdgeMark).reverse.dropWhile isEdgeMark).reverse

end VersionTrail.History
