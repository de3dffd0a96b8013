/-
# Version sources

A tag is eligible when its name matches the tag pattern and, where only
annotated tags count, when it is annotated. The index holds, for each commit,
the last eligible tag on it; a warning is given for every tag that gives way to
a later one.

The commits are looked at one by one, the newest first. The version source is
the first one that qualifies: by an eligible tag on it, or by being a merge
between branches of two rules for which there is a route whose pattern matches
its summary. The kinds are tried in the configured order. What the tag or the
merge captured becomes the parameters. Nothing behind the source is looked at.
-/
import VersionTrail.Bump
import VersionTrail.Config.Basic
import VersionTrail.Failure
import VersionTrail.History.Basic
import VersionTrail.Text

namespace VersionTrail

open VersionTrail.Text

/-- An eligible tag and what the pattern captured in its name. -/
structure TagCandidate where
  tag : Tag
  /-- The named groups with a value that is not blank, in the pattern's order. -/
  captures : List (String × String)
  deriving DecidableEq, Repr

/-- How tags are made eligible. -/
structure TagScanner where
  pattern : Pattern
  annotatedOnly : Bool

/-- The candidate for each commit. -/
abbrev TagIndex := OrderedMap TagCandidate

namespace TagScanner

/-- Reads the pattern for tags. -/
def ofSettings (settings : TagMatch) : Except Failure TagScanner := do
  let pattern ← PatternUse.tagMatch.compile settings.pattern
  .ok ⟨pattern, settings.annotatedOnly⟩

/-- The value that a named group captured, unless it is blank. -/
def capture? (c : Pattern.Captures) (group : String) : Option (String × String) :=
  match c.named? group with
  | some value => if isBlankText value then none else some (group, value)
  | none => none

/-- The candidate that an eligible tag is. -/
def candidate? (s : TagScanner) (t : Tag) : Option TagCandidate :=
  if s.annotatedOnly && !t.annotated then none
  else
    (s.pattern.captures? t.name).map fun c => ⟨t, s.pattern.groupNames.filterMap (capture? c)⟩

/-- The warning about the candidate that gives way to a later one. -/
def displaced (index : TagIndex) (target : String) : List Warning :=
  match index.get? target with
  | some previous => [.displacedTag previous.tag.name previous.tag.target]
  | none => []

/-- Puts tags into an index, one after the other. -/
def scanInto (s : TagScanner) (index : TagIndex) : List Tag → TagIndex × List Warning
  | [] => (index, [])
  | t :: rest =>
    match s.candidate? t with
    | none => s.scanInto index rest
    | some c =>
      let (done, warnings) := s.scanInto (index.insert t.target c) rest
      (done, displaced index t.target ++ warnings)

/-- The index of some tags. -/
def scan (s : TagScanner) (tags : List Tag) : TagIndex × List Warning :=
  s.scanInto ∅ tags

end TagScanner

/-- The version source and what it captured. -/
structure VersionSource where
  visit : Visit
  kind : SourceKind
  parameters : Parameters
  deriving DecidableEq

/-- The name of the tag that made a commit the source, or nothing. -/
def VersionSource.tagName (s : VersionSource) : String :=
  match s.visit.tag with
  | some t => t.name
  | none => ""

/-- The message of the tag that made a commit the source, or nothing. -/
def VersionSource.tagMessage (s : VersionSource) : String :=
  match s.visit.tag with
  | some t => t.message
  | none => ""

/-- The patterns by which a rule recognises merges. -/
structure MergeDetector where
  matcher : BranchMatcher
  /-- Finds the names of the two branches in a message. -/
  ends : Pattern
  /-- The routes with the patterns for the summary. -/
  routes : List (MergeRoute × Pattern)

namespace MergeDetector

/-- Reads the pattern of a route. Without one, the pattern for tags is taken. -/
def routePattern (tagPattern : Pattern) (route : MergeRoute) : Except Failure Pattern :=
  match route.pattern with
  | some p => PatternUse.mergeContent.compile p
  | none => .ok tagPattern

/-- Reads the patterns of routes. -/
def readRoutes (tagPattern : Pattern) :
    List MergeRoute → Except Failure (List (MergeRoute × Pattern))
  | [] => .ok []
  | route :: rest => do
    let p ← routePattern tagPattern route
    let ps ← readRoutes tagPattern rest
    .ok ((route, p) :: ps)

/-- The detector for the settings of a rule. -/
def ofSettings (settings : SourceSettings) (matcher : BranchMatcher) :
    Except Failure MergeDetector := do
  let tagPattern ← PatternUse.tagMatch.compile settings.tagMatch.pattern
  let ends ← PatternUse.mergeEnds.compile settings.mergeMatch.endsPattern
  let routes ← readRoutes tagPattern settings.mergeMatch.routes
  .ok ⟨matcher, ends, routes⟩

/-- The names of the two branches that a message tells; a name that it does not
tell is empty. -/
def endsOf (d : MergeDetector) (message : String) : String × String :=
  match d.ends.captures? message with
  | some c => ((c.named? "From").getD "", (c.named? "To").getD "")
  | none => ("", "")

/-- Looks at a commit: for a merge, the rules of its two branches are found. -/
def visit (d : MergeDetector) (c : Commit) : Visit :=
  if c.isMerge then
    let (source, target) := d.endsOf c.message
    { commit := c
      fromRule := d.matcher.classify source
      toRule := d.matcher.classify target }
  else { commit := c }

/-- All groups of a match, by name or else by number; a group that took no part
is empty. -/
def allGroups (c : Pattern.Captures) : List (String × String) :=
  c.names.zipIdx.map fun (name, i) => (name.getD (toString i), (c.group? i).getD "")

/-- What the first route that fits captures in the summary. -/
def captures? (fromRule toRule summary : String) :
    List (MergeRoute × Pattern) → Option (List (String × String))
  | [] => none
  | (route, pattern) :: rest =>
    if route.fromRule = fromRule ∧ route.toRule = toRule then
      match pattern.captures? summary with
      | some c => some (allGroups c)
      | none => captures? fromRule toRule summary rest
    else captures? fromRule toRule summary rest

/-- What a merge captures, if it qualifies. -/
def detect? (d : MergeDetector) (v : Visit) : Option (List (String × String)) :=
  match v.fromRule, v.toRule with
  | some fromRule, some toRule =>
    if v.commit.isMerge then captures? fromRule toRule v.commit.summary d.routes else none
  | _, _ => none

end MergeDetector

/-- How the version source of a rule is recognised. -/
structure SourceDetector where
  order : List SourceKind
  tags : TagIndex
  merges : MergeDetector

namespace SourceDetector

/-- What makes a commit the source: the kind, the commit with its tag, and the
captures. -/
structure Evidence where
  kind : SourceKind
  visit : Visit
  captures : List (String × String)
  deriving DecidableEq, Repr

/-- The evidence of one kind. -/
def evidence? (d : SourceDetector) (v : Visit) : SourceKind → Option Evidence
  | .tag => (d.tags.get? v.commit.sha).map fun c => ⟨.tag, { v with tag := some c.tag }, c.captures⟩
  | .merge => (d.merges.detect? v).map fun captures => ⟨.merge, v, captures⟩

/-- The evidence of the first kind that has one. -/
def firstEvidence? (d : SourceDetector) (v : Visit) : Option Evidence :=
  d.order.findSome? (d.evidence? v)

/-- Searches a walk. The result has the commits looked at, the source last; it
is absent if the walk ends without a source. -/
def search (d : SourceDetector) :
    List (Except Failure Commit) → Except Failure (Option (List Visit × VersionSource))
  | [] => .ok none
  | .error f :: _ => .error f
  | .ok c :: rest =>
    let v := d.merges.visit c
    match d.firstEvidence? v with
    | some e => do
      let parameters ← Parameters.ofCaptures e.captures
      .ok (some ([e.visit], ⟨e.visit, e.kind, parameters⟩))
    | none => do
      let found? ← d.search rest
      .ok (found?.map fun (visits, source) => (v :: visits, source))

end SourceDetector

/-- The version source, and the commits from the newest one down to it. -/
structure Resolution where
  source : VersionSource
  path : String
  branch : String
  visits : List Visit
  deriving DecidableEq

namespace Resolution

/-- The part of the branch's name behind the last slash. -/
def shortBranch (r : Resolution) : String :=
  String.ofList (afterLast '/' r.branch.toList)

/-- How many commits are above the source. -/
def commitsSinceSource (r : Resolution) : Nat :=
  r.visits.length - 1

end Resolution

/-- The index of the tags, where tags can make a commit the source. -/
def tagIndexOf (settings : SourceSettings) (repo : Repository) : Run TagIndex :=
  if settings.order.contains .tag then do
    let scanner ← TagScanner.ofSettings settings.tagMatch
    let tags ← repo.tags
    let (index, warnings) := scanner.scan tags
    ⟨warnings, .ok index⟩
  else pure ∅

/-- The walk that a rule asks for, up to its limit. -/
def walkOf (settings : SourceSettings) (repo : Repository) :
    Except Failure (List (Except Failure Commit)) := do
  let walk ← repo.walk settings.firstParentOnly
  match settings.commitLimit? with
  | some limit => .ok (walk.take limit)
  | none => .ok walk

/-- Finds the version source of a branch. -/
def resolveSource (settings : SourceSettings) (matcher : BranchMatcher) (repo : Repository)
    (branch : String) : Run Resolution := do
  let merges ← MergeDetector.ofSettings settings matcher
  let tags ← tagIndexOf settings repo
  let walk ← walkOf settings repo
  let found? ← (SourceDetector.mk settings.order tags merges).search walk
  match found? with
  | some (visits, source) => pure ⟨source, repo.path, branch, visits⟩
  | none => (.ofExcept (.error (.sourceNotFound branch walk.length)) : Run Resolution)

end VersionTrail
