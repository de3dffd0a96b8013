/-
# Checking and finding configurations

A configuration is checked for the faults that would otherwise show up only in
the middle of an analysis: the fallback must be there, the date format and all
patterns must be well-formed, and so must all actions. The first fault found is
reported.

A configuration file can be named, and must then be there. Otherwise the file
with the usual name is taken from the current folder, or else from the user's
folder for configurations; where there is none, the standard configuration
holds.
-/
import VersionTrail.Bump
import VersionTrail.Calendar.Format
import VersionTrail.Config.Decoder
import VersionTrail.Files

namespace VersionTrail

open VersionTrail.Text
open VersionTrail.Calendar (isValidFormat)

/-- Checks things one after the other. -/
def checkAll {α : Type} (check : α → Except Failure Unit) : List α → Except Failure Unit
  | [] => .ok ()
  | a :: rest => do
    check a
    checkAll check rest

/-- Checks a pattern for its use. -/
def PatternUse.check (use : PatternUse) (pattern : String) : Except Failure Unit :=
  (use.compile pattern).map fun _ => ()

/-- Checks the patterns of a rule for cleaning. -/
def CleanRule.check (rule : CleanRule) : Except Failure Unit := do
  PatternUse.outputSelector.check rule.select
  PatternUse.invalidCharacter.check rule.invalidPattern

/-- Checks an action. -/
def Action.check (text : String) : Except Failure Unit :=
  (Action.read text).map fun _ => ()

/-- Checks the pattern of a route, if it has one of its own. -/
def MergeRoute.check (route : MergeRoute) : Except Failure Unit :=
  match route.pattern with
  | some pattern => PatternUse.mergeContent.check pattern
  | none => .ok ()

/-- Checks the patterns by which the version source is found. -/
def SourceSettings.check (settings : SourceSettings) : Except Failure Unit := do
  PatternUse.tagMatch.check settings.tagMatch.pattern
  PatternUse.mergeEnds.check settings.mergeMatch.endsPattern
  checkAll MergeRoute.check settings.mergeMatch.routes

/-- Checks the pattern for the names of branches, unless it is blank. -/
def BranchRule.checkName (name : String) (rule : BranchRule) : Except Failure Unit :=
  if isBlankText rule.regex then .ok ()
  else (PatternUse.branch name).check rule.regex

/-- Checks a branch rule. -/
def BranchRule.check (name : String) (rule : BranchRule) : Except Failure Unit := do
  rule.checkName name
  rule.source.check
  checkAll Action.check rule.onCommit.values
  checkAll (fun actions => checkAll Action.check actions.values) rule.onMerge.values

namespace Config

/-- Checks that there is a rule for branches that no other rule matches. -/
def checkFallback (c : Config) : Except Failure Unit :=
  if c.branches.contains fallbackRule then .ok () else .error (.config .noFallback)

/-- Checks the format of dates. -/
def checkDateFormat (c : Config) : Except Failure Unit :=
  if isValidFormat c.output.dateFormat then .ok ()
  else .error (.config (.badDateFormat c.output.dateFormat))

/-- Checks a configuration. -/
def validate (c : Config) : Except Failure Unit := do
  c.checkFallback
  c.checkDateFormat
  checkAll CleanRule.check c.output.clean
  checkAll (fun e => e.2.check e.1) c.branches.entries

/-- The failure of a document that is refused. -/
def refused (fault : Document.Fault) : Failure :=
  .config (.unreadable fault.message)

/-- Reads a configuration from a document, without checking it. -/
def ofDocument (v : Document.Value) : Except Failure Config :=
  (Decoder.config v).mapError refused

/-- Reads and checks a configuration. -/
def ofText (document : String) : Except Failure Config := do
  let v ← (Document.read document).mapError refused
  let c ← ofDocument v
  c.validate
  .ok c

end Config

/-- The usual name of the configuration file. -/
def configFileName : String :=
  "flexversion.toml"

/-- The user's folder for configurations: the one that a variable of the process
names by a full path, or else a folder with a usual name at home. -/
def userFolder? (process : OrderedMap String) : Option String :=
  let named? := (process.get? "XDG_CONFIG_HOME").filter fun path => path.toList.head? == some '/'
  let usual? := (process.get? "HOME").filter fun path => !path.isEmpty
  named?.orElse fun _ => usual?.map fun home => home ++ "/.config"

/-- Where configurations are looked for. -/
structure ConfigPlaces where
  /-- What a path leads to from the current folder. -/
  state : String → PathState
  /-- What the user's folder has under the usual name. -/
  user : PathState

namespace ConfigPlaces

/-- The configuration at a path, if there is something. -/
def read? : PathState → Option (Except Failure Config)
  | .absent => none
  | .file content => some (Config.ofText content)
  | .unreadable cause => some (.error (.file cause))

/-- The named configuration. -/
def named (p : ConfigPlaces) (path : String) : Except Failure Config :=
  match read? (p.state path) with
  | some config => config
  | none => .error (.config (.fileNotFound path))

/-- The configuration with the usual name. -/
def usual (p : ConfigPlaces) : Except Failure Config :=
  match (read? (p.state configFileName)).orElse fun _ => read? p.user with
  | some config => config
  | none => .ok .standard

/-- Finds the configuration. -/
def load (p : ConfigPlaces) (path : Option String) : Except Failure Config :=
  match path with
  | some path => p.named path
  | none => p.usual

end ConfigPlaces

end VersionTrail
