/-
# Analyses

An argument of an analysis is written `key=value`. The key ends at the first equals
sign and counts without the blanks around it; the value is all that follows.
Arguments without an equals sign or without a key are ignored.

An analysis has two parts. The first one works on the repository: it finds the
rule of the branch and the version source, and replays the commits above the
source. The second one no longer needs the repository: it shows what was found
to the templates of the rule and renders them.

An analysis is reported with the rule in full, the version source, the
parameters, and all commits down to the source. What a commit does not have is
left out; what a rule does not have is null.
-/
import VersionTrail.Bump
import VersionTrail.Calendar.Format
import VersionTrail.Json
import VersionTrail.OrderedMap
import VersionTrail.Output.Rendering
import VersionTrail.Source
import VersionTrail.Text

namespace VersionTrail

open VersionTrail.Text
open VersionTrail.Calendar (Moment zuluText3339)
open VersionTrail.Template (Scope)
open VersionTrail.Json (Value)

/-- The key and the value of an argument. -/
def argument? (raw : String) : Option (String × String) :=
  match splitFirst? '=' raw.toList with
  | none => none
  | some (front, value) =>
    let key := trim (String.ofList front)
    if key.isEmpty then none else some (key, String.ofList value)

/-- The arguments by their keys. -/
def readArguments (raws : List String) : OrderedMap String :=
  .ofList (raws.filterMap argument?)

/-- What the repository tells. -/
structure Resolved where
  ruleName : String
  rule : BranchRule
  resolution : Resolution
  /-- The parameters after the replay. -/
  parameters : Parameters
  /-- The number of actions in the replay. -/
  bumps : Nat
  deriving DecidableEq

/-- What an analysis gives. -/
structure Analysis where
  resolved : Resolved
  output : OrderedMap String
  deriving DecidableEq

/-- The settings of an analysis. -/
structure Analyzer where
  config : Config
  arguments : OrderedMap String := ∅
  /-- Whether outputs that are steps on the way are kept. -/
  diagnostic : Bool := false
  /-- The variables of the process. -/
  process : OrderedMap String := ∅
  /-- The current time. -/
  now : Moment := default

/-- Shows a date in the configured format. -/
def dateField (format : String) (m : Moment) : Except Failure String :=
  (m.format format).mapError fun fault => .config (.dateFormat fault)

/-- What templates see of a commit. -/
def commitFields (format : String) (c : Commit) : Except Failure (List (String × String)) := do
  let date ← dateField format c.date
  .ok [("Author", c.author), ("Date", date), ("Sha", c.sha), ("ShortSha", c.shortSha),
    ("Message", c.message), ("MessageShort", c.summary)]

/-- What templates see of the version source besides the commit. -/
def sourceFields (s : VersionSource) : List (String × String) :=
  [("Kind", s.kind.text), ("TagName", s.tagName), ("TagMessage", s.tagMessage)]

/-- What templates see of the repository. -/
def repositoryFields (r : Resolution) (now : String) : List (String × String) :=
  [("BranchName", r.branch), ("ShortBranchName", r.shortBranch), ("Path", r.path), ("Now", now),
    ("CommitCount", toString r.commitsSinceSource)]

/-- What templates see of the present commit. -/
def headFields (format : String) (visits : List Visit) : Except Failure (List (String × String)) :=
  match visits.head? with
  | some v => commitFields format v.commit
  | none => .ok []

namespace Analyzer

/-- The first part of an analysis. -/
def resolve (a : Analyzer) (repo : Repository) : Run Resolved := do
  let branch ← repo.branch
  let matcher ← BranchMatcher.ofRules a.config.branches
  let (ruleName, rule) ← matcher.resolve branch
  let resolution ← resolveSource rule.source matcher repo branch
  let (parameters, bumps) ←
    (Replay.ofVisits rule resolution.visits resolution.source.parameters).toExcept
  pure { ruleName, rule, resolution, parameters, bumps }

/-- What the templates of a rule see. -/
def scope (a : Analyzer) (r : Resolved) : Except Failure Scope := do
  let format := a.config.output.dateFormat
  let now ← dateField format a.now
  let head ← headFields format r.resolution.visits
  let source ← commitFields format r.resolution.source.visit.commit
  .ok
    { args := a.arguments
      gitInfo := .ofList (repositoryFields r.resolution now)
      head := .ofList head
      parameters := r.parameters
      versionSource := .ofList (source ++ sourceFields r.resolution.source)
      process := a.process
      now := a.now }

/-- The second part of an analysis. -/
def render (a : Analyzer) (r : Resolved) : Run Analysis := do
  let scope ← a.scope r
  let renderer ← Output.Renderer.ofSettings a.config.output
  let output ← (renderer.render r.rule.output scope).toRun a.diagnostic
  pure ⟨r, output⟩

/-- Analyses a repository. -/
def analyze (a : Analyzer) (repo : Repository) : Run Analysis := do
  let resolved ← a.resolve repo
  a.render resolved

end Analyzer

/-- Texts as JSON. -/
def textsToJson (m : OrderedMap String) : Value :=
  .ofTexts m.entries

/-- A member that is left out if there is no text. -/
def optionalMember (name : String) : Option String → List (String × Value)
  | some s => [(name, .text s)]
  | none => []

/-- A kind of source as JSON. -/
def SourceKind.toJson : SourceKind → Value
  | .tag => .text "tag"
  | .merge => .text "merge"

/-- A route as JSON. -/
def MergeRoute.toJson (r : MergeRoute) : Value :=
  .object [("from", .text r.fromRule), ("to", .text r.toRule), ("pattern", .ofText? r.pattern)]

/-- Settings for the source as JSON. -/
def SourceSettings.toJson (s : SourceSettings) : Value :=
  .object
    [("order", .list (s.order.map SourceKind.toJson)),
      ("iterate_first_parent_only", .boolean s.firstParentOnly),
      ("max_commits_to_analyze", .ofInt? s.maxCommits),
      ("tag_match", .object
        [("pattern", .text s.tagMatch.pattern),
          ("annotated_only", .boolean s.tagMatch.annotatedOnly)]),
      ("merge_match", .object
        [("from_to_pattern", .text s.mergeMatch.endsPattern),
          ("routes", .list (s.mergeMatch.routes.map MergeRoute.toJson))])]

/-- A branch rule as JSON. -/
def BranchRule.toJson (r : BranchRule) : Value :=
  .object
    [("regex", .text r.regex),
      ("version_source", r.source.toJson),
      ("on_commit", textsToJson r.onCommit),
      ("on_merge", .object (r.onMerge.entries.map fun (name, actions) =>
        (name, textsToJson actions))),
      ("output", textsToJson r.output)]

/-- A tag as JSON. -/
def Tag.toJson (t : Tag) : Value :=
  .object [("name", .text t.name), ("annotated", .boolean t.annotated),
    ("message", .text t.message), ("target", .text t.target)]

/-- A commit that has been looked at as JSON. -/
def Visit.toJson (v : Visit) : Value :=
  .object
    ([("sha", .text v.commit.sha),
      ("message", .text v.commit.message),
      ("message_short", .text v.commit.summary),
      ("author", .text v.commit.author),
      ("date", .text (zuluText3339 v.commit.date)),
      ("is_merge", .boolean v.commit.isMerge)] ++
      (v.tag.map fun t => ("tag", t.toJson)).toList ++
      optionalMember "from_branch_rule" v.fromRule ++
      optionalMember "to_branch_rule" v.toRule)

/-- A version source as JSON. -/
def VersionSource.toJson (s : VersionSource) : Value :=
  .object [("commit", s.visit.toJson), ("kind", s.kind.toJson),
    ("parameters", textsToJson s.parameters)]

/-- What was found in the repository as JSON. -/
def Resolution.toJson (r : Resolution) : Value :=
  .object [("path", .text r.path), ("branch_name", .text r.branch),
    ("commits", .list (r.visits.map Visit.toJson))]

/-- An analysis as JSON. -/
def Analysis.toJson (a : Analysis) : Value :=
  .object
    [("branch_rule_name", .text a.resolved.ruleName),
      ("branch_rule", a.resolved.rule.toJson),
      ("version_source", a.resolved.resolution.source.toJson),
      ("parameters", textsToJson a.resolved.parameters),
      ("bumps_applied", .integer a.resolved.bumps),
      ("git_info", a.resolved.resolution.toJson),
      ("output", textsToJson a.output)]

/-- The text that is shown for an analysis: all of it, or only the outputs. -/
def Analysis.text (diagnostic : Bool) (a : Analysis) : String :=
  Json.pretty (if diagnostic then a.toJson else textsToJson a.output)

end VersionTrail
