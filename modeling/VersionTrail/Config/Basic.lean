/-
# The configuration

A configuration has settings for all outputs and an ordered list of named
branch rules. A rule says for which branches it is, how the version source is
recognised, how commits and merges change the parameters, and which outputs
there are. Everything has a default; the default configuration has one rule for
all branches, which takes the version from tags and counts commits.

The rule of a branch is the first one whose pattern matches its name. Rules
with a blank pattern match no name; where nothing matches, the rule with the
fallback's name is taken.
-/
import VersionTrail.Failure
import VersionTrail.OrderedMap
import VersionTrail.Pattern.Basic

namespace VersionTrail

open VersionTrail.Text

/-- Which outputs are cleaned, and how: what the pattern matches in them is
replaced. -/
structure CleanRule where
  select : String
  invalidPattern : String
  replacement : String
  deriving DecidableEq, Repr

/-- Settings for all outputs. -/
structure OutputSettings where
  dateFormat : String := "%Y-%m-%dT%H:%M:%S%:z"
  /-- Whether a template without a value is a failure. -/
  strict : Bool := true
  clean : List CleanRule := []
  deriving DecidableEq, Repr, Inhabited

/-- What can make a commit the version source. -/
inductive SourceKind where
  | tag
  | merge
  deriving DecidableEq, Repr

/-- The kind as a text. -/
def SourceKind.text : SourceKind → String
  | .tag => "Tag"
  | .merge => "Merge"

/-- How tags are recognised. -/
structure TagMatch where
  pattern : String := "^v?(?<major>\\d+)\\.(?<minor>\\d+)\\.(?<patch>\\d+)$"
  annotatedOnly : Bool := false
  deriving DecidableEq, Repr, Inhabited

/-- Merges from branches of one rule into branches of another, with a pattern
for their messages. Without a pattern, the one for tags is taken. -/
structure MergeRoute where
  fromRule : String
  toRule : String
  pattern : Option String := none
  deriving DecidableEq, Repr

/-- How merges are recognised. -/
structure MergeMatch where
  /-- Finds the names of the two branches in the message of a merge. -/
  endsPattern : String :=
    "Merge (?:remote-tracking )?branch '(?<From>[^']+)'(?: into (?<To>\\S+))?"
  routes : List MergeRoute := []
  deriving DecidableEq, Repr, Inhabited

/-- How the version source is found. -/
structure SourceSettings where
  /-- The kinds that are tried on each commit, in this order. -/
  order : List SourceKind := [.tag]
  firstParentOnly : Bool := true
  maxCommits : Option Int := none
  tagMatch : TagMatch := {}
  mergeMatch : MergeMatch := {}
  deriving DecidableEq, Repr, Inhabited

/-- The largest number of commits to look at; a number that is not positive is
no limit. -/
def SourceSettings.commitLimit? (s : SourceSettings) : Option Nat :=
  match s.maxCommits with
  | some n => if 0 < n then some n.toNat else none
  | none => none

/-- A rule for branches. -/
structure BranchRule where
  /-- Matches the names of branches; a blank one matches none. -/
  regex : String := ""
  source : SourceSettings := {}
  /-- The action on each parameter that a plain commit triggers. -/
  onCommit : OrderedMap String := ∅
  /-- The same for merges, by the rule of the branch that was merged. -/
  onMerge : OrderedMap (OrderedMap String) := ∅
  /-- The template of each output. -/
  output : OrderedMap String := ∅
  deriving DecidableEq, Inhabited

/-- A configuration. -/
structure Config where
  output : OutputSettings := {}
  /-- The rules in order of precedence. -/
  branches : OrderedMap BranchRule := ∅
  deriving DecidableEq, Inhabited

/-- The rule of the default configuration. -/
def defaultRule : BranchRule :=
  { onCommit := .ofList [("patch", "+1")]
    output := .ofList [("SemVer", "<Match:major>.<Match:minor>.<Match:patch>")] }

/-- The configuration that is used where none is given. -/
def Config.standard : Config :=
  { branches := .ofList [(fallbackRule, defaultRule)] }

/-- Whether letters match in both cases. -/
def PatternUse.ignoresCase : PatternUse → Bool
  | .mergeEnds => false
  | _ => true

/-- Reads a configured pattern. -/
def PatternUse.compile (use : PatternUse) (pattern : String) : Except Failure Pattern :=
  (Pattern.compile use.ignoresCase pattern).mapError fun fault =>
    .config (.badPattern use pattern fault)

/-- Branch rules with the patterns of those that have one. -/
structure BranchMatcher where
  rules : OrderedMap BranchRule
  patterns : List (String × Pattern)

namespace BranchMatcher

/-- Reads the patterns of rules. -/
def readPatterns : List (String × BranchRule) → Except Failure (List (String × Pattern))
  | [] => .ok []
  | (name, rule) :: rest =>
    if isBlankText rule.regex then readPatterns rest
    else do
      let p ← (PatternUse.branch name).compile rule.regex
      let ps ← readPatterns rest
      .ok ((name, p) :: ps)

/-- The matcher for some rules. -/
def ofRules (rules : OrderedMap BranchRule) : Except Failure BranchMatcher := do
  let patterns ← readPatterns rules.entries
  .ok ⟨rules, patterns⟩

/-- The name of the first rule whose pattern matches. -/
def classify (m : BranchMatcher) (branch : String) : Option String :=
  (m.patterns.find? fun e => e.2.isMatch branch).map Prod.fst

/-- The fallback with its name. -/
def fallback? (m : BranchMatcher) : Option (String × BranchRule) :=
  (m.rules.get? fallbackRule).map fun rule => (fallbackRule, rule)

/-- The first rule whose pattern matches, with its name. -/
def matching? (m : BranchMatcher) (branch : String) : Option (String × BranchRule) :=
  (m.classify branch).bind fun name => (m.rules.get? name).map fun rule => (name, rule)

/-- The rule of a branch with its name. -/
def resolve (m : BranchMatcher) (branch : String) : Except Failure (String × BranchRule) :=
  match (m.matching? branch).orElse fun _ => m.fallback? with
  | some found => .ok found
  | none => .error (.config (.noRule branch))

end BranchMatcher

end VersionTrail
