/-
# Histories as graphs

The objects of a repository are commits, which name their parents, tags with a
message, which name another object, and others. A walk lists the commits from
which the present one descends: again and again it takes, among the commits
whose children have all been taken, the one that was committed last. A walk
along first parents sees no other parents. A tag counts for the commit that it
leads to in the end; tags that lead to no commit are left out.

A repository is found from any folder in it. The failures say whether the
folder is not there, or whether no repository holds it.
-/
import Std.Data.HashMap
import VersionTrail.Files
import VersionTrail.History.Basic

namespace VersionTrail.History

open VersionTrail.Calendar (Moment)

/-- Who made a commit, and when. -/
structure Signature where
  name : String
  email : String
  /-- Seconds since the start of 1970. -/
  seconds : Int
  /-- Minutes by which local time is ahead of universal time. -/
  offset : Int
  deriving DecidableEq, Repr, Inhabited

/-- A commit as it is stored. -/
structure CommitObject where
  message : String
  parents : List String
  author : Signature
  committer : Signature
  deriving DecidableEq, Repr, Inhabited

/-- A stored object. -/
inductive Object where
  | commit (c : CommitObject)
  /-- A tag with a message, for the object with an identifier. -/
  | tag (target message : String)
  | other
  deriving DecidableEq, Repr, Inhabited

/-- Where the present commit is. -/
inductive Head where
  /-- A branch, and its commit if it has one. -/
  | branch (name : String) (commit : Option String)
  /-- A commit without a branch. -/
  | detached (commit : String)
  deriving DecidableEq, Repr

/-- The objects of a repository by their identifiers, and what refers to them. -/
structure Graph where
  path : String
  head : Head
  /-- The names of tags with the objects they refer to. -/
  tags : List (String × String)
  objects : Std.HashMap String Object

/-- Offsets of fifteen hours or more count as none. -/
def Signature.knownOffset (s : Signature) : Int :=
  if s.offset.natAbs < 900 then s.offset else 0

/-- Name and address. -/
def Signature.text (s : Signature) : String :=
  trimMarks s.name ++ " <" ++ trimMarks s.email ++ ">"

namespace CommitObject

/-- A stored commit as the history has it. -/
def toCommit (c : CommitObject) (sha : String) : Except Failure Commit :=
  match Moment.ofSeconds? c.committer.seconds (c.committer.knownOffset * 60) with
  | none => .error (.config (.invalidTimestamp sha))
  | some date =>
    let message := messageOf c.message.toList
    .ok
      { sha
        message := String.ofList message
        summary := String.ofList (summaryOf message)
        author := c.author.text
        date
        parents := c.parents.length }

/-- The parents that a walk sees. -/
def parentsSeen (c : CommitObject) (firstParentOnly : Bool) : List String :=
  if firstParentOnly then c.parents.take 1 else c.parents

end CommitObject

namespace Graph

/-- The commit with an identifier. -/
def commit? (g : Graph) (sha : String) : Option CommitObject :=
  match g.objects[sha]? with
  | some (.commit c) => some c
  | _ => none

/-- The parents of a commit that a walk sees. -/
def parentsOf (g : Graph) (firstParentOnly : Bool) (sha : String) : List String :=
  match g.commit? sha with
  | some c => c.parentsSeen firstParentOnly
  | none => []

/-- Counts, for each commit that can be reached from those that wait, the
children that a walk sees. -/
def countChildren (g : Graph) (firstParentOnly : Bool) :
    Nat → List String → Std.HashMap String Nat → Std.HashMap String Nat
  | 0, _, counts => counts
  | _ + 1, [], counts => counts
  | fuel + 1, sha :: waiting, counts =>
    let parents := g.parentsOf firstParentOnly sha
    let step := fun (state : List String × Std.HashMap String Nat) parent =>
      match state.2[parent]? with
      | some n => (state.1, state.2.insert parent (n + 1))
      | none => (parent :: state.1, state.2.insert parent 1)
    let (waiting, counts) := parents.foldl step (waiting, counts)
    g.countChildren firstParentOnly fuel waiting counts

/-- Puts a commit among others that are sorted by their time, the newest one
first. -/
def queue (time : Int) (sha : String) : List (Int × String) → List (Int × String)
  | [] => [(time, sha)]
  | (t, s) :: rest =>
    if t < time then (time, sha) :: (t, s) :: rest else (t, s) :: queue time sha rest

/-- The time at which a commit was committed. -/
def timeOf (g : Graph) (sha : String) : Int :=
  match g.commit? sha with
  | some c => c.committer.seconds
  | none => 0

/-- Takes commits whose children have all been taken, the newest one first. -/
def takeReady (g : Graph) (firstParentOnly : Bool) :
    Nat → List (Int × String) → Std.HashMap String Nat → List String
  | 0, _, _ => []
  | _ + 1, [], _ => []
  | fuel + 1, (_, sha) :: ready, counts =>
    let step := fun (state : List (Int × String) × Std.HashMap String Nat) parent =>
      match state.2[parent]? with
      | some (n + 1) =>
        let ready := if n = 0 then queue (g.timeOf parent) parent state.1 else state.1
        (ready, state.2.insert parent n)
      | _ => state
    let (ready, counts) := (g.parentsOf firstParentOnly sha).foldl step (ready, counts)
    sha :: g.takeReady firstParentOnly fuel ready counts

/-- The identifiers of the commits from which one descends, itself first. -/
def order (g : Graph) (firstParentOnly : Bool) (sha : String) : List String :=
  let size := g.objects.size + 1
  let start : Std.HashMap String Nat := Std.HashMap.emptyWithCapacity.insert sha 0
  let counts := g.countChildren firstParentOnly size [sha] start
  g.takeReady firstParentOnly size [(g.timeOf sha, sha)] counts

/-- The text of the failure that the branch has no commit yet. -/
def unbornText (branch : String) : String :=
  "reference 'refs/heads/" ++ branch ++ "' not found; class=Reference (4); code=UnbornBranch (-9)"

/-- The name of the branch, and the present commit. -/
def current (g : Graph) : Except Failure (String × String) :=
  match g.head with
  | .branch name (some sha) => .ok (name, sha)
  | .branch name none => .error (.git (unbornText name))
  | .detached sha => .ok ("HEAD", sha)

/-- The commits from the present one back. -/
def walk (g : Graph) (firstParentOnly : Bool) : Except Failure (List (Except Failure Commit)) := do
  let (_, sha) ← g.current
  .ok ((g.order firstParentOnly sha).map fun sha =>
    match g.commit? sha with
    | some c => c.toCommit sha
    | none => .error (.git ("object not found - no match for id (" ++ sha ++
        "); class=Odb (9); code=NotFound (-3)")))

/-- The commit that an object leads to, in at most `n` steps. -/
def peel? (g : Graph) : Nat → String → Option String
  | 0, _ => none
  | n + 1, id =>
    match g.objects[id]? with
    | some (.commit _) => some id
    | some (.tag target _) => g.peel? n target
    | _ => none

/-- The tag with a name, if it leads to a commit. -/
def tag? (g : Graph) (name id : String) : Option Tag :=
  (g.peel? (g.objects.size + 1) id).map fun target =>
    match g.objects[id]? with
    | some (.tag _ message) => ⟨name, true, message, target⟩
    | _ => ⟨name, false, "", target⟩

/-- The tags that lead to commits, in the order of their names. -/
def commitTags (g : Graph) : List Tag :=
  (g.tags.mergeSort fun a b => a.1 ≤ b.1).filterMap fun (name, id) => g.tag? name id

/-- The repository that a graph is. -/
def toRepository (g : Graph) : Repository where
  path := g.path
  branch := g.current.map Prod.fst
  tags := .ok g.commitTags
  walk := g.walk

end Graph

/-- The failure that no repository holds a folder. -/
def noRepository (path : String) : Failure :=
  .git ("could not find repository at '" ++ path ++ "'; class=Repository (6); code=NotFound (-3)")

/-- The failure that a folder is not there. -/
def noFolder (path : String) : Failure :=
  .git ("failed to resolve path '" ++ path ++
    "': No such file or directory; class=Os (2); code=NotFound (-3)")

/-- The repository that holds a folder. -/
def repositoryAt (graph : Option Graph) (path : String) : Except Failure Repository :=
  match graph with
  | some g => .ok g.toRepository
  | none => .error (noRepository path)

/-- Finds the repository of a tree of files from a path into the tree. -/
def discover (tree : FileTree) (graph : Option Graph) (path : String) :
    Except Failure Repository :=
  match tree.place? [] path with
  | none => if FileTree.leadsOut path then .error (noRepository path) else .error (noFolder path)
  | some place =>
    match tree.stateAt place with
    | .absent => .error (noFolder path)
    | _ => repositoryAt graph path

end VersionTrail.History
