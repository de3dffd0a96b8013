/-
# Reading configurations from documents

Each part of a configuration is a table with named fields, or a list of its
fields in their fixed order. Fields that are absent take their defaults, where
they have one; entries with other names are ignored. A value of another kind
than the field's is refused.
-/
import VersionTrail.Config.Basic
import VersionTrail.Document.Reader

namespace VersionTrail

open VersionTrail.Document (Value Fault)

namespace Config.Decoder

/-- Reads a text. -/
def text : Value → Except Fault String
  | .text s => .ok s
  | _ => .error (.unfit "a text")

/-- Reads a truth value. -/
def boolean : Value → Except Fault Bool
  | .boolean b => .ok b
  | _ => .error (.unfit "a truth value")

/-- Reads an integer. -/
def integer : Value → Except Fault Int
  | .integer n => .ok n
  | _ => .error (.unfit "an integer")

/-- Reads a value that may be null. -/
def nullable {α : Type} (item : Value → Except Fault α) : Value → Except Fault (Option α)
  | .null => .ok none
  | v => (item v).map some

/-- Reads a list. -/
def list {α : Type} (item : Value → Except Fault α) : Value → Except Fault (List α)
  | .list items => items.mapM item
  | _ => .error (.unfit "a list")

/-- Reads the entries of a table. -/
def entries {α : Type} (item : Value → Except Fault α) :
    List (String × Value) → Except Fault (List (String × α))
  | [] => .ok []
  | (key, v) :: rest => do
    let a ← item v
    let others ← entries item rest
    .ok ((key, a) :: others)

/-- Reads a table whose keys are names. -/
def map {α : Type} (item : Value → Except Fault α) : Value → Except Fault (OrderedMap α)
  | .table es => (entries item es).map .ofList
  | _ => .error (.unfit "a table")

/-- The values of named fields. -/
abbrev Fields := List (String × Value)

/-- The fields of a part, whose names are given in their order. -/
def fields (names : List String) : Value → Except Fault Fields
  | .table es => .ok es
  | .list items => .ok (names.zip items)
  | _ => .error (.unfit "a table")

/-- Reads a field that has a default. -/
def field {α : Type} (fs : Fields) (name : String) (item : Value → Except Fault α)
    (otherwise : α) : Except Fault α :=
  match fs.lookup name with
  | some v => item v
  | none => .ok otherwise

/-- Reads a field that must be there. -/
def requiredField {α : Type} (fs : Fields) (name : String) (item : Value → Except Fault α) :
    Except Fault α :=
  match fs.lookup name with
  | some v => item v
  | none => .error (.unfit name)

/-- The kind of source with a name. -/
def kindOf? : String → Option SourceKind
  | "tag" => some .tag
  | "Tag" => some .tag
  | "merge" => some .merge
  | "Merge" => some .merge
  | _ => none

/-- Whether a value holds nothing. -/
def isNothing : Value → Bool
  | .null => true
  | .list [] => true
  | .table [] => true
  | _ => false

/-- Reads a kind of source: its name, or a table with its name as the only key
and nothing behind it. -/
def kind : Value → Except Fault SourceKind
  | .text s =>
    match kindOf? s with
    | some k => .ok k
    | none => .error (.unfit "tag or merge")
  | .table [(s, v)] =>
    match kindOf? s with
    | some k => if isNothing v then .ok k else .error (.unfit "nothing")
    | none => .error (.unfit "tag or merge")
  | _ => .error (.unfit "tag or merge")

/-- Reads a rule for cleaning. -/
def cleanRule (v : Value) : Except Fault CleanRule := do
  let fs ← fields ["select", "invalid_pattern", "replacement"] v
  let select ← requiredField fs "select" text
  let invalidPattern ← requiredField fs "invalid_pattern" text
  let replacement ← field fs "replacement" text ""
  .ok { select, invalidPattern, replacement }

/-- Reads the settings for all outputs. -/
def outputSettings (v : Value) : Except Fault OutputSettings := do
  let fs ← fields ["date_format", "strict", "clean"] v
  let standard : OutputSettings := {}
  let dateFormat ← field fs "date_format" text standard.dateFormat
  let strict ← field fs "strict" boolean standard.strict
  let clean ← field fs "clean" (list cleanRule) standard.clean
  .ok { dateFormat, strict, clean }

/-- Reads how tags are recognised. -/
def tagMatch (v : Value) : Except Fault TagMatch := do
  let fs ← fields ["pattern", "annotated_only"] v
  let standard : TagMatch := {}
  let pattern ← field fs "pattern" text standard.pattern
  let annotatedOnly ← field fs "annotated_only" boolean standard.annotatedOnly
  .ok { pattern, annotatedOnly }

/-- Reads a route for merges. -/
def mergeRoute (v : Value) : Except Fault MergeRoute := do
  let fs ← fields ["from", "to", "pattern"] v
  let fromRule ← requiredField fs "from" text
  let toRule ← requiredField fs "to" text
  let pattern ← field fs "pattern" (nullable text) none
  .ok { fromRule, toRule, pattern }

/-- Reads how merges are recognised. -/
def mergeMatch (v : Value) : Except Fault MergeMatch := do
  let fs ← fields ["from_to_pattern", "routes"] v
  let standard : MergeMatch := {}
  let endsPattern ← field fs "from_to_pattern" text standard.endsPattern
  let routes ← field fs "routes" (list mergeRoute) standard.routes
  .ok { endsPattern, routes }

/-- Reads how the version source is found. -/
def sourceSettings (v : Value) : Except Fault SourceSettings := do
  let fs ← fields
    ["order", "iterate_first_parent_only", "max_commits_to_analyze", "tag_match", "merge_match"] v
  let standard : SourceSettings := {}
  let order ← field fs "order" (list kind) standard.order
  let firstParentOnly ← field fs "iterate_first_parent_only" boolean standard.firstParentOnly
  let maxCommits ← field fs "max_commits_to_analyze" (nullable integer) standard.maxCommits
  let tagMatch ← field fs "tag_match" tagMatch standard.tagMatch
  let mergeMatch ← field fs "merge_match" mergeMatch standard.mergeMatch
  .ok { order, firstParentOnly, maxCommits, tagMatch, mergeMatch }

/-- Reads a branch rule. -/
def branchRule (v : Value) : Except Fault BranchRule := do
  let fs ← fields ["regex", "version_source", "on_commit", "on_merge", "output"] v
  let regex ← field fs "regex" text ""
  let source ← field fs "version_source" sourceSettings {}
  let onCommit ← field fs "on_commit" (map text) ∅
  let onMerge ← field fs "on_merge" (map (map text)) ∅
  let output ← field fs "output" (map text) ∅
  .ok { regex, source, onCommit, onMerge, output }

/-- Reads a configuration. -/
def config (v : Value) : Except Fault Config := do
  let fs ← fields ["output", "branches"] v
  let output ← field fs "output" outputSettings {}
  let branches ← field fs "branches" (map branchRule) ∅
  .ok { output, branches }

end Config.Decoder

end VersionTrail
